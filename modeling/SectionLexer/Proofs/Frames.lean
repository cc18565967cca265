import SectionLexer.Cue.Frames

/-! How the open frames change: an argument is closed with all that is open in it. -/
namespace SectionLexer

namespace Edit

variable {P : Token → Prop} {a b : Edit} {p : Position}

/-- All that an edit writes is as `P` says. -/
def Writes (P : Token → Prop) (a : Edit) : Prop := ∀ stack, ∀ t ∈ (a stack).1, P t

theorem write_writes {ts : List Token} (h : ∀ t ∈ ts, P t) : (write ts).Writes P := fun _ => h

theorem opening_writes {f : Frame} (h : P (.mark (.opening f) p)) : (opening f p).Writes P :=
  fun _ => List.forall_mem_singleton.2 h

theorem closing_writes {f : Frame} (h : P (.mark (.closing f) p)) : (closing f p).Writes P := by
  intro stack t ht
  cases stack with
  | nil => cases ht
  | cons g stack =>
    simp only [closing] at ht
    split at ht
    · rwa [List.mem_singleton.1 ht]
    · cases ht

theorem closingAll_writes (h : ∀ f, P (.mark (.closing f) p)) : (closingAll p).Writes P :=
  fun _ => List.forall_mem_map.2 fun f _ => h f

theorem andThen_writes (ha : a.Writes P) (hb : b.Writes P) : (a.andThen b).Writes P :=
  fun stack => List.forall_mem_append.2 ⟨ha stack, hb _⟩

theorem when_writes (c : Bool) (ha : a.Writes P) : (when c a).Writes P := by
  cases c
  · exact write_writes nofun
  · exact ha

/-- What is in an argument is no top level group. -/
theorem closingArgument_writes (h : ∀ f, f ≠ .topLevelGroup → P (.mark (.closing f) p)) :
    (closingArgument p).Writes P :=
  andThen_writes (andThen_writes (closing_writes (h .sect (by decide)))
    (closing_writes (h .argumentGroup (by decide)))) (closing_writes (h .argument (by decide)))

theorem openingArgument_writes (h : ∀ f, f ≠ .topLevelGroup → P (.mark (.opening f) p))
    (header : Bool) : (openingArgument p header).Writes P :=
  andThen_writes (opening_writes (h .argument (by decide)))
    (when_writes header (opening_writes (h .argumentGroup (by decide))))

end Edit

/-- The frames of one open argument, innermost first: the argument, and what may be open in it. -/
def IsArgument (fs : List Frame) : Prop :=
  fs ∈ [[.argument], [.sect, .argument], [.argumentGroup, .argument],
    [.sect, .argumentGroup, .argument]]

/-- The frames of several open arguments, one inside the next. -/
def AreArguments (bs : List (List Frame)) : Prop := ∀ b ∈ bs, IsArgument b

theorem AreArguments.nil : AreArguments [] := fun _ hb => nomatch hb

theorem areArguments_cons {b : List Frame} {bs : List (List Frame)} :
    AreArguments (b :: bs) ↔ IsArgument b ∧ AreArguments bs := List.forall_mem_cons

theorem areArguments_append {bs bs' : List (List Frame)} :
    AreArguments (bs ++ bs') ↔ AreArguments bs ∧ AreArguments bs' := List.forall_mem_append

def closings (fs : List Frame) (p : Position) : List Token :=
  fs.map fun f => Token.mark (.closing f) p

@[simp] theorem closings_append (fs gs : List Frame) (p : Position) :
    closings (fs ++ gs) p = closings fs p ++ closings gs p := by simp [closings]

theorem closingArgument_append {b : List Frame} (hb : IsArgument b) (stack : List Frame)
    (p : Position) : Edit.closingArgument p (b ++ stack) = (closings b p, stack) := by
  simp only [IsArgument, List.mem_cons, List.not_mem_nil, or_false] at hb
  rcases hb with rfl | rfl | rfl | rfl <;> rfl

/-- The frames below a section that is entered from open frames. -/
def belowSection : List Frame → List Frame
  | [] => [.topLevelGroup]
  | .sect :: below => below
  | stack => stack

namespace Cue

theorem edit_header_snd (name colon : Token) (header : Bool) (stack : List Frame) :
    ((Cue.header name colon).edit header stack).2 = .sect :: belowSection stack := by
  rcases stack with _ | ⟨f, stack⟩
  · rfl
  · cases f <;> rfl

/-- What a cue writes. Only a header opens a top level group, and only a blank line closes one. -/
theorem edit_writes {P : Token → Prop} {c : Cue} (hkept : ∀ t ∈ c.tokens, P t)
    (hopening : ∀ f p, f ≠ .topLevelGroup → P (.mark (.opening f) p))
    (hclosing : ∀ f p, f ≠ .topLevelGroup → P (.mark (.closing f) p))
    (henter : c.isHeader = true → P (.mark (.opening .topLevelGroup) c.position))
    (hleave : ∀ t, c = blankLine t → P (.mark (.closing .topLevelGroup) t.position))
    (b : Bool) : (c.edit b).Writes P := by
  cases c with
  | header name colon =>
    have hgroup (stack : List Frame) :
        (Edit.when stack.isEmpty (Edit.opening .topLevelGroup name.position)).Writes P :=
      Edit.when_writes _ (Edit.opening_writes (henter rfl))
    have hleft : (Edit.closing .sect name.position).Writes P :=
      Edit.closing_writes (hclosing .sect _ (by decide))
    have hentered : (Edit.opening .sect name.position).Writes P :=
      Edit.opening_writes (hopening .sect _ (by decide))
    exact fun stack => Edit.andThen_writes (Edit.andThen_writes
      (Edit.andThen_writes (hgroup stack) hleft) hentered) (Edit.write_writes hkept) stack
  | dot i t =>
    have hdot (p : Position) : (Edit.openingArgument p b).Writes P :=
      Edit.openingArgument_writes (fun f => hopening f p) b
    cases i with
    | some u => exact hdot u.position
    | none => exact Edit.andThen_writes (Edit.closingArgument_writes fun f => hclosing f _) (hdot _)
  | dedent t => exact Edit.closingArgument_writes fun f => hclosing f _
  | blankLine t =>
    refine Edit.closingAll_writes fun f => ?_
    by_cases hf : f = .topLevelGroup
    · exact hf ▸ hleave t rfl
    · exact hclosing f _ hf
  | strayIndent t | lineEnd t => exact Edit.write_writes (List.forall_mem_nil _)
  | other t => exact Edit.write_writes hkept

theorem ofTokens_unindents (n : Nat) (p : Position) (ts : List Token) :
    ofTokens (List.replicate n (Token.mark .unindent p) ++ ts) =
      List.replicate n (dedent (Token.mark .unindent p)) ++ ofTokens ts := by
  induction n with
  | zero => rfl
  | succ n ih =>
    simp only [List.replicate_succ, List.cons_append, ofTokens_cons, ih]
    rfl

/-- One argument is closed for each level that is left. -/
theorem bracket_dedents {bs : List (List Frame)} (hb : AreArguments bs) (stack : List Frame)
    (p : Position) (cs : List Cue) :
    bracket (bs.flatten ++ stack) p
        (List.replicate bs.length (dedent (Token.mark .unindent p)) ++ cs) =
      closings bs.flatten p ++ bracket stack p cs := by
  induction bs with
  | nil => rfl
  | cons b bs ih =>
    obtain ⟨hone, hmore⟩ := areArguments_cons.1 hb
    have hclose := closingArgument_append hone (bs.flatten ++ stack) p
    simp only [List.length_cons, List.replicate_succ, List.cons_append, List.flatten_cons,
      List.append_assoc, bracket, edit, Token.mark, hclose, closings_append]
    exact congrArg _ (ih hmore)

/-- Levels left where nothing is open close nothing. -/
theorem bracket_nil_dedents (n : Nat) (p : Position) (cs : List Cue) :
    bracket [] p (List.replicate n (dedent (Token.mark .unindent p)) ++ cs) = bracket [] p cs := by
  induction n with
  | zero => rfl
  | succ n ih => exact ih

end Cue

/-! The shapes of the stack. -/

/-- The open frames at level `n`: that many arguments, one inside the next, and outside of them a
section or nothing. -/
def OpenAt (n : Nat) (stack : List Frame) : Prop :=
  ∃ bs base, AreArguments bs ∧ bs.length = n ∧ (base = [] ∨ base = [.sect, .topLevelGroup]) ∧
    stack = bs.flatten ++ base

variable {n : Nat} {stack : List Frame}

theorem OpenAt.nil : OpenAt 0 [] := ⟨[], [], .nil, rfl, .inl rfl, rfl⟩

theorem count_argument_flatten {bs : List (List Frame)} (hb : AreArguments bs) :
    bs.flatten.count .argument = bs.length := by
  induction bs with
  | nil => rfl
  | cons b bs ih =>
    obtain ⟨hone, hmore⟩ := areArguments_cons.1 hb
    have hcount : b.count .argument = 1 := by
      simp only [IsArgument, List.mem_cons, List.not_mem_nil, or_false] at hone
      rcases hone with rfl | rfl | rfl | rfl <;> rfl
    simp only [List.flatten_cons, List.count_append, List.length_cons, hcount, ih hmore]
    omega

theorem OpenAt.count (h : OpenAt n stack) : stack.count .argument = n := by
  obtain ⟨bs, base, hb, rfl, hbase, rfl⟩ := h
  rw [List.count_append, count_argument_flatten hb]
  rcases hbase with rfl | rfl <;> rfl

theorem OpenAt.push (h : OpenAt n stack) {b : List Frame} (hb : IsArgument b) :
    OpenAt (n + 1) (b ++ stack) := by
  obtain ⟨bs, base, hbs, rfl, hbase, rfl⟩ := h
  exact ⟨b :: bs, base, areArguments_cons.2 ⟨hb, hbs⟩, rfl, hbase, by simp⟩

theorem OpenAt.pop (h : OpenAt (n + 1) stack) :
    ∃ b below, IsArgument b ∧ OpenAt n below ∧ stack = b ++ below := by
  obtain ⟨bs, base, hbs, hn, hbase, rfl⟩ := h
  rcases bs with _ | ⟨b, bs⟩
  · cases hn
  · obtain ⟨hb, hbs⟩ := areArguments_cons.1 hbs
    exact ⟨b, bs.flatten ++ base, hb, ⟨bs, base, hbs, Nat.succ.inj hn, hbase, rfl⟩, by simp⟩

/-- A section header changes no level. -/
theorem OpenAt.enter (h : OpenAt n stack) : OpenAt n (.sect :: belowSection stack) := by
  cases n with
  | zero =>
    obtain ⟨bs, base, -, hn, hbase, rfl⟩ := h
    obtain rfl := List.length_eq_zero_iff.1 hn
    rcases hbase with rfl | rfl <;>
      exact ⟨[], [.sect, .topLevelGroup], .nil, rfl, .inr rfl, rfl⟩
  | succ n =>
    obtain ⟨b, below, hb, hbelow, rfl⟩ := h.pop
    simp only [IsArgument, List.mem_cons, List.not_mem_nil, or_false] at hb
    rcases hb with rfl | rfl | rfl | rfl
    · exact hbelow.push (b := [.sect, .argument]) (by simp [IsArgument])
    · exact hbelow.push (b := [.sect, .argument]) (by simp [IsArgument])
    · exact hbelow.push (b := [.sect, .argumentGroup, .argument]) (by simp [IsArgument])
    · exact hbelow.push (b := [.sect, .argumentGroup, .argument]) (by simp [IsArgument])

theorem OpenAt.opening (h : OpenAt n stack) (p : Position) (header : Bool) :
    OpenAt (n + 1) (Edit.openingArgument p header stack).2 := by
  cases header with
  | false => exact h.push (b := [.argument]) (by simp [IsArgument])
  | true => exact h.push (b := [.argumentGroup, .argument]) (by simp [IsArgument])

theorem OpenAt.closing (h : OpenAt (n + 1) stack) (p : Position) :
    OpenAt n (Edit.closingArgument p stack).2 := by
  obtain ⟨b, below, hb, hbelow, rfl⟩ := h.pop
  rw [closingArgument_append hb]
  exact hbelow

end SectionLexer
