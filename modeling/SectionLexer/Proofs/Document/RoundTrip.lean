import SectionLexer.Lexing
import SectionLexer.Proofs.Document.Trees
import SectionLexer.Proofs.Relocation

/-! Documents are read back from their rendering. -/
namespace SectionLexer

open Piece (Yields)

/-- The tokens of groups, with `n` line ends behind the document. -/
def SectionGroup.scannedGroups (n : Nat) : List SectionGroup → List (Kind × List Char)
  | [] => List.replicate n lineEnd
  | [g] => g.scanned 0 ++ List.replicate (n + 1) lineEnd
  | g :: g' :: gs => g.scanned 0 ++ lineEnd :: lineEnd :: SectionGroup.scannedGroups n (g' :: gs)

theorem lineEnds_yields (n : Nat) (t : List Char) :
    Yields (.line true) (List.replicate n '\n') (List.replicate n lineEnd) (.line true) t := by
  induction n with
  | zero => exact .nil
  | succ n ih => exact (Piece.newline_yields _ _).trans ih

theorem SectionGroup.renderGroups_yields (n : Nat) (gs : List SectionGroup) :
    Yields (.line true) (['\n'].intercalate (gs.map (·.render 0)) ++ List.replicate n '\n')
      (SectionGroup.scannedGroups n gs) (.line true) [] := by
  match gs with
  | [] => exact lineEnds_yields n []
  | [g] =>
    have hg := (g.render_yields 0 true _).trans (lineEnds_yields n [])
    simpa [List.intercalate_singleton, SectionGroup.scannedGroups, List.replicate_succ] using hg
  | g :: g' :: gs =>
    have hrest := SectionGroup.renderGroups_yields n (g' :: gs)
    have hblank := (Piece.newline_yields (.line true) _).trans hrest
    have hall := (g.render_yields 0 true _).trans hblank
    simpa [List.intercalate_cons_cons, SectionGroup.scannedGroups, lineEnd] using hall

/-- A group at the top level, up to the line ends that close it. -/
theorem SectionGroup.nest_group (g : SectionGroup) :
    ∃ bs out, AreArguments bs ∧
      (∀ rest, nest 0 [] (g.scanned 0 ++ rest) =
        (nest bs.length (bs.flatten ++ [.sect, .topLevelGroup]) rest).behind out) ∧
      out ++ closingMarks (bs.flatten ++ [.sect, .topLevelGroup]) =
        Frame.topLevelGroup.around g.contents := by
  obtain ⟨bs, out, hb, hnest, hout⟩ := g.enters 0 []
  refine ⟨bs, (.opening .topLevelGroup, []) :: out, hb, ?_, ?_⟩
  · simpa [enteringMarks, belowSection] using hnest
  · simp [Frame.around, ← hout, closingMarks]

theorem SectionGroup.nest_scannedGroups (n : Nat) (gs : List SectionGroup) :
    nest 0 [] (SectionGroup.scannedGroups n gs) =
      ⟨gs.flatMap fun g => Frame.topLevelGroup.around g.contents, [], []⟩ := by
  match gs with
  | [] =>
    cases n with
    | zero => rfl
    | succ n => exact nest_end AreArguments.nil [] n
  | [g] =>
    obtain ⟨bs, out, hb, hnest, hout⟩ := g.nest_group
    rw [SectionGroup.scannedGroups, hnest, nest_end hb, Nested.behind, hout]
    simp
  | g :: g' :: gs =>
    obtain ⟨bs, out, hb, hnest, hout⟩ := g.nest_group
    have hrest := SectionGroup.nest_scannedGroups n (g' :: gs)
    obtain ⟨name, cs, hcs⟩ : ∃ name cs,
        SectionGroup.scannedGroups n (g' :: gs) = headerContents name ++ cs := by
      obtain ⟨name, cs, hcs⟩ := g'.scanned_eq 0
      cases gs <;> exact ⟨name, _, by rw [SectionGroup.scannedGroups, hcs, List.append_assoc]⟩
    rw [SectionGroup.scannedGroups, hnest]
    rw [hcs] at hrest ⊢
    rw [nest_blank, hrest, Nested.behind_behind, hout]
    simp [Nested.behind]

/-! From contents to tokens with their places. -/

theorem Piece.content_tokens (p : Position) (xs : List Piece) :
    (Piece.tokens p xs).map Token.content = xs.filterMap Piece.content? := by
  induction xs generalizing p with
  | nil => rfl
  | cons x xs ih =>
    have hx := ih (p.after x.spelling)
    cases h : x.content? <;>
      simp_all [Piece.tokens, Piece.token?, Token.content]

theorem Piece.complaints_eq_nil {xs : List Piece} (h : ∀ x ∈ xs, ∀ p, x.complaint? p = none)
    (p : Position) : Piece.complaints p xs = [] := by
  induction xs generalizing p with
  | nil => rfl
  | cons x xs ih =>
    have hxs := ih (fun y hy => h y (by simp [hy])) (p.after x.spelling)
    simpa [Piece.complaints, List.filterMap_cons, h x (by simp)] using hxs

@[simp] theorem Token.content_moved (f : Position → Position) (t : Token) :
    (t.moved f).content = t.content := rfl

/-- A token is its content, up to its place. -/
theorem Token.bare_content (t : Token) : Token.bare t.content = t.moved fun _ => {} := by
  simp [Token.bare, Token.content, Token.moved]

/-- What the second and the third pass make of tokens depends on their contents only. -/
theorem nest_content (ts : List Token) :
    nest 0 [] (ts.map Token.content) =
      ⟨(bracketFrames (resolveLevels ts)).map Token.content,
        (levelComplaints ts).map (movedComplaint fun _ => {}),
        (frameComplaints (resolveLevels ts)).map (movedComplaint fun _ => {})⟩ := by
  have hbare : (ts.map Token.content).map Token.bare = ts.map (·.moved fun _ => {}) := by
    simp [Token.bare_content]
  have hlevels := resolveLevels_moved (fun _ => {}) ts
  have hframes := bracketFrames_moved (fun _ => {}) (resolveLevels ts)
  have hlevelFaults := levelComplaints_moved (fun _ => {}) ts
  have hframeFaults := frameComplaints_moved (fun _ => {}) (resolveLevels ts)
  have hlevelled : levelled 0 (ts.map Token.content) =
      (resolveLevels ts).map (·.moved fun _ => {}) := by
    rw [← hlevels, levelled, hbare]
    rfl
  have hcontents : (Cue.bracket [] {} (Cue.ofTokens ((resolveLevels ts).map
      (·.moved fun _ => {})))).map Token.content = (bracketFrames (resolveLevels ts)).map
        Token.content := by
    change (bracketFrames _).map Token.content = _
    rw [hframes]
    simp
  simp only [nest, hlevelled, hcontents, hbare, hlevelFaults, hframeFaults]

/-- A rendered document is read without diagnostics, as the frames and literals it consists of. -/
theorem lex_render (d : Document) (path : String) (o : Options) :
    (lex (String.ofList d.render) path o).tokens.map Token.content = d.contents ∧
      (lex (String.ofList d.render) path o).diagnostics = [] := by
  obtain ⟨xs, hcut, hfaults, hcontents⟩ :=
    SectionGroup.renderGroups_yields o.trailingNewlines d.groups
  have hpieces :
      Piece.ofText (prepare (String.ofList d.render) o.trailingNewlines).toList = xs := by
    simpa [prepare, Document.render, Piece.ofText, Piece.cut] using hcut
  have hscan := Piece.content_tokens {} xs
  have hnest := nest_content (Piece.tokens {} xs)
  rw [hscan, hcontents, SectionGroup.nest_scannedGroups, Nested.mk.injEq] at hnest
  obtain ⟨htokens, hlevelFaults, hframeFaults⟩ := hnest
  rw [eq_comm, List.map_eq_nil_iff] at hlevelFaults hframeFaults
  constructor
  · simp [lex, lexUpTo, Stream.bracket, Stream.indent, Stream.scan, hpieces, ← htokens,
      Document.contents]
  · simp [lex, lexUpTo, Stream.bracket, Stream.indent, Stream.scan, Stream.diagnose, hpieces,
      Piece.complaints_eq_nil hfaults, hlevelFaults, hframeFaults]

end SectionLexer
