import SectionLexer.Proofs.Indentation.Marks

/-! What is wrong with indentation: runs of spaces of odd width, and those that lead more than one
level deeper, or deeper at all where no dot follows. -/
namespace SectionLexer

namespace Item

/-- Two spaces are a level. -/
def oddWidth? (path : String) : Item → Option Diagnostic
  | spaces p n _ _ =>
    if n % 2 = 1 then
      some ⟨.error, .indent, "expected an even indent but found " ++ toString n, p, path⟩
    else none
  | token .. => none

/-- Each level that spaces enter is one too many, but for the one of the dot behind them. -/
def tooDeep (path : String) : Item → List Diagnostic
  | spaces p n dotted before =>
    List.replicate (Run.lineLevel n dotted - before - dotted.toNat)
      ⟨.error, .bracket, "unexpected indent", p, path⟩
  | token .. => []

end Item

variable {t : Token} {ts : List Token} {is lead : List Item} {level next : Nat} {p : Position}

/-! The second pass complains about widths. -/

namespace Run

variable {rs : List Run}

theorem diagnose_complaints (hfit : ∀ r ∈ rs, r.Fits) (hapart : rs.IsChain Apart)
    (path : String) (level : Nat) :
    Stream.diagnose path (rs.filterMap complaint?) =
      (items level rs).filterMap (Item.oddWidth? path) := by
  have hkept (ts : List Token) (level : Nat) :
      (ts.map (Item.token · level)).filterMap (Item.oddWidth? path) = [] := by
    simp [List.filterMap_map, Function.comp_def, Item.oddWidth?]
  induction rs generalizing level with
  | nil => rfl
  | cons r rs ih =>
    have hr : r.Fits := hfit r (by simp)
    have hrs : ∀ s ∈ rs, s.Fits := fun s hs => hfit s (by simp [hs])
    obtain ⟨hhead, htail⟩ := List.isChain_cons.1 hapart
    have hrest (level : Nat) := ih hrs htail level
    cases r with
    | newlines t more =>
      rw [items_lineEnds hr hrs hhead t.position, List.cons_append, List.filterMap_cons_none rfl,
        List.filterMap_cons_none rfl, List.filterMap_append, hkept]
      exact hrest _
    | spaces t more d =>
      rw [items_spaces hr hrs hhead, List.cons_append]
      rcases Nat.mod_two_eq_zero_or_one (more.length + 1) with heven | hodd
      · rw [List.filterMap_cons_none (by simp [complaint?, heven]),
          List.filterMap_cons_none (by simp [Item.oddWidth?, heven]), List.filterMap_append, hkept]
        exact hrest _
      · have hcomplaint : (spaces t more d).complaint? =
            some (t.position, .oddIndent (more.length + 1)) := by simp [complaint?, hodd]
        rw [List.filterMap_cons_some hcomplaint,
          List.filterMap_cons_some (by simp only [Item.oddWidth?, hodd, if_true]; rfl),
          List.filterMap_append, hkept, List.nil_append, ← hrest]
        rfl
    | dot t =>
      rw [items_dot hr, List.filterMap_cons_none rfl, List.filterMap_cons_none rfl]
      exact hrest 1
    | other t =>
      rw [items_other hr, List.filterMap_cons_none rfl, List.filterMap_cons_none rfl]
      exact hrest level

end Run

theorem diagnose_levelComplaints (path : String) (ts : List Token) :
    Stream.diagnose path (levelComplaints ts) =
      (items 0 .nothing ts).filterMap (Item.oddWidth? path) := by
  have hruns := Run.diagnose_complaints (Run.ofTokens_fits ts) (Run.ofTokens_apart ts) path 0
  rwa [Run.items, Run.flatMap_tokens_ofTokens] at hruns

/-! The third pass complains about levels entered. -/

/-- Of the marks of entered levels the last one is for the dot behind it. -/
theorem frameComplaints_indents (k : Nat) (p : Position) (ts : List Token) :
    frameComplaints (List.replicate k (.mark .indent p) ++ ts) =
      List.replicate (k - (startsDotted ts).toNat) (p, .unexpectedIndent) ++
        frameComplaints ts := by
  induction k with
  | zero => simp
  | succ k ih =>
    rw [List.replicate_succ, List.cons_append, frameComplaints_cons, ih]
    cases k with
    | zero => cases hdot : startsDotted ts <;> simp [hdot, Token.mark]
    | succ k =>
      have hdot : startsDotted (List.replicate (k + 1) (.mark .indent p) ++ ts) = false := rfl
      rw [if_pos ⟨rfl, hdot⟩, Nat.sub_add_comm (Bool.toNat_le _ |>.trans (Nat.le_add_left 1 k))]
      rfl

theorem frameComplaints_unindents_append (k : Nat) (p : Position) (ts : List Token) :
    frameComplaints (List.replicate k (.mark .unindent p) ++ ts) = frameComplaints ts := by
  induction k with
  | zero => rfl
  | succ k ih =>
    rw [List.replicate_succ, List.cons_append, frameComplaints_cons, ih]
    simp [Token.mark]

theorem frameComplaints_climb (old new : Nat) (p : Position) (ts : List Token) :
    frameComplaints (climb old new p ++ ts) =
      List.replicate (new - old - (startsDotted ts).toNat)
        (p, .unexpectedIndent) ++ frameComplaints ts := by
  obtain ⟨k, rfl, hk⟩ | ⟨k, rfl, hk⟩ := climb_cases old new p
  · rw [hk, frameComplaints_indents, Nat.add_sub_cancel_left]
  · have hnone : new - (new + k) = 0 := by omega
    rw [hk, frameComplaints_unindents_append, hnone]
    simp

/-- The levels entered in front of a token are those that its spaces lead deeper. -/
theorem Lead.flatMap_tooDeep {k : Option Kind} (h : Lead level p lead k next) (path : String) :
    lead.flatMap (Item.tooDeep path) =
      List.replicate (next - level - (k == some .dotSpace).toNat)
        ⟨.error, .bracket, "unexpected indent", p, path⟩ := by
  cases h with
  | keep => simp
  | reset => simp
  | dot =>
    have hnone : 1 - level - 1 = 0 := by omega
    simp [hnone]
  | spaces n => simp [Item.tooDeep]

theorem Marked.diagnose_frameComplaints (h : Marked level is ts) (path : String) :
    Stream.diagnose path (frameComplaints ts) = is.flatMap (Item.tooDeep path) := by
  have hdiagnose (n : Nat) (p : Position) (cs : List (Position × Complaint)) :
      Stream.diagnose path (List.replicate n (p, .unexpectedIndent) ++ cs) =
        List.replicate n ⟨.error, .bracket, "unexpected indent", p, path⟩ ++
          Stream.diagnose path cs := by
    rw [Stream.diagnose, List.map_append, List.map_replicate]
    rfl
  induction h with
  | @done level next p lead q hlead =>
    have hnone : startsDotted (climb next 0 q) = false := by
      cases next <;> simp [climb_zero, startsDotted, List.replicate_succ, Token.mark]
    have hlast : frameComplaints (climb next 0 q) = [] := by
      rw [climb_zero, ← List.append_nil (List.replicate _ _), frameComplaints_unindents_append]
      rfl
    rw [frameComplaints_climb, hnone, hlast, hdiagnose, hlead.flatMap_tooDeep]
    exact List.append_nil _
  | @step level next p t lead is ts hlead ht _ ih =>
    have hkept : frameComplaints (t :: ts) = frameComplaints ts := by
      rw [frameComplaints_cons, if_neg, List.nil_append]
      rintro ⟨hindent, -⟩
      rw [hindent] at ht
      cases ht
    rw [frameComplaints_climb, hkept, hdiagnose, ih, List.flatMap_append, List.flatMap_cons,
      hlead.flatMap_tooDeep]
    rfl

/-- What the later passes find wrong, exactly. The second one tells of each run of spaces of odd
width, and the third one of each level that spaces enter, but for the one of the dot behind them, at
the first of the spaces; a dot without spaces in front of it is always right. -/
theorem bracket_indent_diagnostics {s : Stream} (h : ∀ t ∈ s.tokens, t.kind.changesLevel = false)
    (path path' : String) :
    ((s.indent path).bracket path').diagnostics = s.diagnostics ++
      (items 0 .nothing s.tokens).filterMap (Item.oddWidth? path) ++
      (items 0 .nothing s.tokens).flatMap (Item.tooDeep path') := by
  rw [← diagnose_levelComplaints, ← (resolveLevels_marked h).diagnose_frameComplaints]
  rfl

/-- Three spaces in front of a name, and on the next line six in front of a dot. -/
theorem bracket_indent_diagnostics_deep :
    let s : Stream := ⟨List.replicate 3 (.mark .space {}) ++ .mark .name ⟨3, 0, 3⟩ ::
      .mark .newline ⟨4, 0, 4⟩ :: (List.replicate 6 (.mark .space ⟨5, 1, 0⟩) ++
        [.mark .dotSpace ⟨11, 1, 6⟩]), []⟩
    (∀ t ∈ s.tokens, t.kind.changesLevel = false) ∧
      ((s.indent "a").bracket "b").diagnostics =
        [⟨.error, .indent, "expected an even indent but found 3", ⟨0, 0, 0⟩, "a"⟩,
          ⟨.error, .bracket, "unexpected indent", ⟨0, 0, 0⟩, "b"⟩,
          ⟨.error, .bracket, "unexpected indent", ⟨5, 1, 0⟩, "b"⟩,
          ⟨.error, .bracket, "unexpected indent", ⟨5, 1, 0⟩, "b"⟩] := by
  intro s
  have h : ∀ t ∈ s.tokens, t.kind.changesLevel = false := by decide
  exact ⟨h, (bracket_indent_diagnostics h "a" "b").trans (by decide +kernel)⟩

end SectionLexer
