import SectionLexer.Proofs.Reading

/-! The lines of a written document, as the first pass reads them. -/
namespace SectionLexer

open Piece (Yields)

/-- A line end, and a space in front of a line. -/
def lineEnd : Kind × List Char := (.newline, ['\n'])

def leadingSpaces (depth : Nat) : List (Kind × List Char) :=
  List.replicate (2 * depth) (.space, [' '])

def dotMark : Kind × List Char := (.dotSpace, ['.', ' '])

mutual
/-- The tokens of a section up to its last line end, which belongs to what follows. -/
def Section.scanned (depth : Nat) : Section → List (Kind × List Char)
  | .mk name inline continuations =>
    (.name, name.chars) :: (.colon, [':']) ::
      (Argument.inlineContents inline ++ Continuation.scannedAll depth continuations)

def Continuation.scanned (depth : Nat) : Continuation → List (Kind × List Char)
  | .arguments first more _ => leadingSpaces depth ++ dotMark :: Argument.contents first more
  | .group sections => leadingSpaces depth ++ dotMark :: sections.scanned (depth + 1)

def SectionGroup.scanned (depth : Nat) : SectionGroup → List (Kind × List Char)
  | .mk first more => first.scanned depth ++ Section.scannedAll depth more

def Continuation.scannedAll (depth : Nat) : List Continuation → List (Kind × List Char)
  | [] => []
  | c :: cs => lineEnd :: c.scanned depth ++ Continuation.scannedAll depth cs

def Section.scannedAll (depth : Nat) : List Section → List (Kind × List Char)
  | [] => []
  | s :: ss => lineEnd :: leadingSpaces depth ++ s.scanned depth ++ Section.scannedAll depth ss
end

theorem SectionName.head_ne (n : SectionName) : n.first ≠ ' ' ∧ n.first ≠ '\n' := by
  have h := n.isLetter_first
  constructor <;> intro hc <;> rw [hc] at h <;> revert h <;> decide

/-- Every section starts with its header. -/
theorem Section.render_eq (s : Section) (depth : Nat) :
    ∃ (n : SectionName) (c : Char) (t : List Char), s.render depth = n.chars ++ ':' :: c :: t ∧
      c ≠ ':' := by
  obtain ⟨name, inline, continuations⟩ := s
  cases inline with
  | nil =>
    refine ⟨name, '\n', Continuation.renderAll depth continuations, ?_, by decide⟩
    simp [Section.render, Argument.inlineSpellings]
  | cons a as =>
    refine ⟨name, ' ', Argument.spellings a as ++ '\n' ::
      Continuation.renderAll depth continuations, ?_, by decide⟩
    simp [Section.render, Argument.inlineSpellings]

theorem SectionGroup.render_eq (g : SectionGroup) (depth : Nat) :
    ∃ (n : SectionName) (c : Char) (t : List Char), g.render depth = n.chars ++ ':' :: c :: t ∧
      c ≠ ':' := by
  obtain ⟨first, more⟩ := g
  obtain ⟨n, c, t, ht, hc⟩ := first.render_eq depth
  exact ⟨n, c, t ++ Section.renderAll depth more, by simp [SectionGroup.render, ht], hc⟩

/-- Behind a dot, a group is seen to be one. -/
theorem SectionGroup.headerAhead_render (g : SectionGroup) (depth : Nat) (t : List Char) :
    Lexeme.headerAhead (g.render depth ++ t) = true := by
  obtain ⟨n, c, u, hu, hc⟩ := g.render_eq depth
  rw [Piece.headerAhead_iff]
  exact ⟨n, c :: u ++ t, by simp [hu], by simpa using hc⟩

theorem SectionName.isNameCharacter_of_mem (n : SectionName) {c : Char} (h : c ∈ n.chars) :
    isNameCharacter c = true := by
  rcases List.mem_cons.1 h with rfl | h
  · simp [isNameCharacter, n.isLetter_first]
  · exact n.isNameCharacter_of_mem_more c h

/-- No header reaches over a separator. -/
theorem startsWithHeader_of_append {s t : List Char} {c : Char} (hc : c = ',' ∨ c = '\n')
    (h : StartsWithHeader (s ++ c :: t)) : StartsWithHeader s := by
  obtain ⟨n, u, hu, hne⟩ := h
  have hname : isNameCharacter c = false ∧ c ≠ ':' := by rcases hc with rfl | rfl <;> decide
  rcases List.append_eq_append_iff.1 hu with ⟨v, hv, hw⟩ | ⟨v, rfl, hw⟩
  · cases v with
    | nil => exact absurd (List.cons.inj hw).1 hname.2
    | cons d v =>
      obtain rfl : c = d := (List.cons.inj hw).1
      have := n.isNameCharacter_of_mem (c := c) (by simp [hv])
      rw [hname.1] at this
      cases this
  · cases v with
    | nil => exact absurd (List.cons.inj hw).1.symm hname.2
    | cons d v =>
      obtain ⟨rfl, rfl⟩ := List.cons.inj hw
      refine ⟨n, v, rfl, ?_⟩
      cases v with
      | nil => simp
      | cons d v => simpa using hne

theorem startsWithHeader_cons {c : Char} {s : List Char} (h : StartsWithHeader (c :: s)) :
    isLetter c = true := by
  obtain ⟨n, t, ht, -⟩ := h
  rw [(List.cons.inj ht).1]
  exact n.isLetter_first

/-- Behind a dot, an argument is seen to be none. -/
theorem Argument.headerAhead_append {a : Argument} (h : ¬ a.LooksLikeSection) {c : Char}
    (hc : c = ',' ∨ c = '\n') (t : List Char) :
    Lexeme.headerAhead (a.spelling ++ c :: t) = false := by
  rw [← Bool.not_eq_true, Piece.headerAhead_iff]
  intro hs
  cases a with
  | text s hlast => exact absurd (startsWithHeader_cons hs) (by decide)
  | formulation q s hmem => exact absurd (startsWithHeader_cons hs) (by cases q <;> decide)
  | plain s => exact h (startsWithHeader_of_append hc hs)

theorem Argument.headerAhead_spellings {a : Argument} (h : ¬ a.LooksLikeSection)
    (as : List Argument) (t : List Char) :
    Lexeme.headerAhead (Argument.spellings a as ++ '\n' :: t) = false := by
  cases as with
  | nil => simpa [Argument.spellings] using Argument.headerAhead_append h (.inr rfl) t
  | cons b as =>
    simpa [Argument.spellings] using Argument.headerAhead_append h (.inl rfl) _

theorem lead_yields (depth : Nat) {c : Char} (hc : c ≠ ' ' ∧ c ≠ '\n') (t : List Char) :
    Yields (.line true) (indentation depth) (leadingSpaces depth) (.line true) (c :: t) :=
  Piece.spaces_yields (2 * depth) hc t

/-- A line that a dot introduces. -/
theorem dotted_yields (depth : Nat) {m : Mode} {s t : List Char} {cs : List (Kind × List Char)}
    (hm : (if Lexeme.headerAhead (s ++ t) then Mode.line false else .argument true) = m)
    (h : Yields m s cs (.line true) t) :
    Yields (.line true) (indentation depth ++ '.' :: ' ' :: s)
      (leadingSpaces depth ++ dotMark :: cs) (.line true) t := by
  subst hm
  exact (lead_yields depth (by decide) _).trans ((Piece.dot_yields true _).trans h)

mutual
theorem Section.render_yields (s : Section) (depth : Nat) (start : Bool) (t : List Char) :
    Yields (.line start) (s.render depth) (s.scanned depth ++ [lineEnd]) (.line true) t := by
  obtain ⟨name, inline, continuations⟩ := s
  obtain ⟨cs, hcs, heq⟩ := Continuation.renderAll_yields continuations depth t
  obtain ⟨m, hinline⟩ :=
    Piece.inline_yields inline (Continuation.renderAll depth continuations ++ t)
  have hrest := hinline.trans ((Piece.newline_yields m _).trans hcs)
  have hcolon := (Piece.colon_yields false
    (by cases inline <;> simp [Argument.inlineSpellings])).trans hrest
  have hall := (Piece.name_yields name start _).trans hcolon
  simp only [lineEnd] at heq
  simpa [Section.render, Section.scanned, ← heq, lineEnd] using hall

theorem Continuation.render_yields (c : Continuation) (depth : Nat) (t : List Char) :
    Yields (.line true) (c.render depth) (c.scanned depth ++ [lineEnd]) (.line true) t := by
  cases c with
  | arguments first more h =>
    have hargs := (Piece.spellings_yields first more true t).trans (Piece.newline_yields _ t)
    have hahead := Argument.headerAhead_spellings h more t
    have hall := dotted_yields depth (by simp [hahead]) hargs
    simpa [Continuation.render, Continuation.scanned, lineEnd] using hall
  | group g =>
    have hg := SectionGroup.render_yields g (depth + 1) false t
    have hahead := g.headerAhead_render (depth + 1) t
    have hall := dotted_yields depth (by simp [hahead]) hg
    simpa [Continuation.render, Continuation.scanned] using hall

theorem SectionGroup.render_yields (g : SectionGroup) (depth : Nat) (start : Bool)
    (t : List Char) :
    Yields (.line start) (g.render depth) (g.scanned depth ++ [lineEnd]) (.line true) t := by
  obtain ⟨first, more⟩ := g
  obtain ⟨cs, hcs, heq⟩ := Section.renderAll_yields more depth t
  have hall := (first.render_yields depth start _).trans hcs
  simpa [SectionGroup.render, SectionGroup.scanned, ← heq] using hall

theorem Continuation.renderAll_yields (cs : List Continuation) (depth : Nat) (t : List Char) :
    ∃ ds, Yields (.line true) (Continuation.renderAll depth cs) ds (.line true) t ∧
      lineEnd :: ds = Continuation.scannedAll depth cs ++ [lineEnd] := by
  match cs with
  | [] => exact ⟨[], .nil, rfl⟩
  | c :: cs =>
    obtain ⟨ds, hds, heq⟩ := Continuation.renderAll_yields cs depth t
    have hc := c.render_yields depth (Continuation.renderAll depth cs ++ t)
    refine ⟨_, hc.trans hds, ?_⟩
    simp [Continuation.scannedAll, ← heq]

theorem Section.renderAll_yields (ss : List Section) (depth : Nat) (t : List Char) :
    ∃ ds, Yields (.line true) (Section.renderAll depth ss) ds (.line true) t ∧
      lineEnd :: ds = Section.scannedAll depth ss ++ [lineEnd] := by
  match ss with
  | [] => exact ⟨[], .nil, rfl⟩
  | s :: ss =>
    obtain ⟨ds, hds, heq⟩ := Section.renderAll_yields ss depth t
    have hs := s.render_yields depth true (Section.renderAll depth ss ++ t)
    have hlead : Yields (.line true) (indentation depth) (leadingSpaces depth) (.line true)
        (s.render depth ++ Section.renderAll depth ss ++ t) := by
      obtain ⟨n, c, u, hu, -⟩ := s.render_eq depth
      simpa [hu, SectionName.chars] using lead_yields depth n.head_ne _
    have hall := hlead.trans (hs.trans hds)
    refine ⟨_, by simpa only [Section.renderAll, List.append_assoc] using hall, ?_⟩
    simp [Section.scannedAll, ← heq]
end

end SectionLexer
