import Mathlib.Data.List.Induction
import Mathlib.Order.Bounds.Basic
import SectionLexer.Proofs.Balance
import SectionLexer.Proofs.Placement

/-! The check of the nesting decides whether tokens are balanced. If they are not, it tells of the
first token that no balanced tokens start with, or of what is left to be closed. -/
namespace SectionLexer

variable {f g : Frame} {stack below : List Frame} {k : Kind} {ks ls : List Kind}
  {ts us vs : List Token} {t o c : Token}

/-! The open frames along the way. -/

@[simp] theorem replay?_nil : replay? stack [] = some stack := by cases stack <;> rfl

@[simp] theorem replay?_opening : replay? stack (.opening f :: ks) = replay? (f :: stack) ks := by
  cases stack <;> rfl

theorem replay?_closing_iff : replay? stack (.closing f :: ks) = some below ↔
    ∃ outer, stack = f :: outer ∧ replay? outer ks = some below := by
  rcases stack with _ | ⟨g, stack⟩
  · simp [replay?]
  · by_cases h : g = f
    · simp [replay?, h]
    · simp [replay?, h]

theorem replay?_unmarked (h : k.frame? = none) : replay? stack (k :: ks) = replay? stack ks := by
  cases k with
  | opening f | closing f => cases h
  | _ => cases stack <;> rfl

theorem replay?_append : replay? stack (ks ++ ls) = (replay? stack ks).bind (replay? · ls) := by
  induction ks generalizing stack with
  | nil => simp
  | cons k ks ih =>
    cases k with
    | opening f => simp [ih]
    | closing f =>
      rcases stack with _ | ⟨g, stack⟩
      · rfl
      · by_cases h : g = f
        · simp [replay?, h, ih]
        · simp [replay?, h]
    | _ => rw [List.cons_append, replay?_unmarked rfl, replay?_unmarked rfl, ih]

/-- Balanced tokens leave the open frames as they are. -/
theorem Balanced.replay?_eq (h : Balanced ts) (stack : List Frame) :
    replay? stack (ts.map Token.kind) = some stack := by
  induction h generalizing stack with
  | nil => exact replay?_nil
  | skip ht _ ih =>
    rw [List.map_cons, replay?_unmarked ht]
    exact ih stack
  | @frame f o c ts us ho hc _ _ ihin ihbehind =>
    rw [List.map_append, List.map_cons, List.map_cons, ho, hc, List.cons_append, replay?_opening,
      replay?_append, ihin]
    exact replay?_closing_iff.2 ⟨stack, rfl, ihbehind stack⟩

/-- Tokens that close the open frames, innermost first, with balanced tokens around the closing
marks. -/
inductive Finishes : List Frame → List Token → Prop
  | done {ts : List Token} : Balanced ts → Finishes [] ts
  | close {f : Frame} {below : List Frame} {us vs : List Token} {c : Token} :
      Balanced us → c.kind = .closing f → Finishes below vs → Finishes (f :: below) (us ++ c :: vs)

namespace Finishes

theorem skip (ht : t.kind.frame? = none) (h : Finishes stack ts) : Finishes stack (t :: ts) := by
  cases h with
  | done hts => exact .done (.skip ht hts)
  | close hus hc hvs => exact .close (.skip ht hus) hc hvs

theorem close_first (hc : c.kind = .closing f) (h : Finishes below vs) :
    Finishes (f :: below) (c :: vs) :=
  @close f below [] vs c .nil hc h

theorem split (h : Finishes (f :: below) ts) : ∃ us vs c, ts = us ++ c :: vs ∧ Balanced us ∧
    c.kind = .closing f ∧ Finishes below vs := by
  cases h with
  | close hus hc hvs => exact ⟨_, _, _, rfl, hus, hc, hvs⟩

theorem frame (ho : o.kind = .opening f) (h : Finishes (f :: stack) ts) :
    Finishes stack (o :: ts) := by
  obtain ⟨us, vs, c, rfl, hus, hc, hvs⟩ := h.split
  cases hvs with
  | done hvs => exact .done (.frame ho hc hus hvs)
  | @close g below us' vs' c' hus' hc' hvs' =>
    have hin : Balanced (o :: us ++ c :: us') := .frame ho hc hus hus'
    simpa using Finishes.close hin hc' hvs'

/-- What ends with no open frame has closed all of them. -/
theorem of_replay? (h : replay? stack (ts.map Token.kind) = some []) : Finishes stack ts := by
  induction ts generalizing stack with
  | nil =>
    obtain rfl : stack = [] := by simpa using h
    exact .done .nil
  | cons t ts ih =>
    rw [List.map_cons] at h
    cases hk : t.kind with
    | opening f =>
      rw [hk, replay?_opening] at h
      exact (ih h).frame hk
    | closing f =>
      rw [hk, replay?_closing_iff] at h
      obtain ⟨below, rfl, hrest⟩ := h
      exact .close_first hk (ih hrest)
    | _ =>
      rw [replay?_unmarked (by rw [hk]; rfl)] at h
      exact (ih h).skip (by rw [hk]; rfl)

theorem replay?_eq (h : Finishes stack ts) : replay? stack (ts.map Token.kind) = some [] := by
  induction h with
  | done hts => exact hts.replay?_eq []
  | @close f below us vs c hus hc _ ih =>
    rw [List.map_append, List.map_cons, hc, replay?_append, hus.replay?_eq]
    exact replay?_closing_iff.2 ⟨below, rfl, ih⟩

/-- Each open frame takes a token. -/
theorem length_le (h : Finishes stack ts) : stack.length ≤ ts.length := by
  induction h with
  | done => exact Nat.zero_le _
  | close _ _ _ ih =>
    rw [List.length_append, List.length_cons, List.length_cons]
    omega

/-- Without tokens to spare, the first one closes the innermost frame. -/
theorem head_closes (h : Finishes (f :: below) ts) (hlength : ts.length = below.length + 1) :
    ∃ c us, ts = c :: us ∧ c.kind = .closing f := by
  obtain ⟨us, vs, c, rfl, -, hc, hvs⟩ := h.split
  have hle := hvs.length_le
  rw [List.length_append, List.length_cons] at hlength
  obtain rfl : us = [] := List.eq_nil_of_length_eq_zero (by omega)
  exact ⟨c, vs, rfl, hc⟩

end Finishes

theorem finishes_iff : Finishes stack ts ↔ replay? stack (ts.map Token.kind) = some [] :=
  ⟨Finishes.replay?_eq, Finishes.of_replay?⟩

theorem Finishes.of_opening (ho : o.kind = .opening f) (h : Finishes stack (o :: ts)) :
    Finishes (f :: stack) ts := by
  rw [finishes_iff, List.map_cons, ho, replay?_opening] at h
  exact finishes_iff.2 h

theorem Finishes.of_closing (hc : c.kind = .closing f) (h : Finishes stack (c :: ts)) :
    ∃ below, stack = f :: below ∧ Finishes below ts := by
  rw [finishes_iff, List.map_cons, hc, replay?_closing_iff] at h
  obtain ⟨below, rfl, hts⟩ := h
  exact ⟨below, rfl, finishes_iff.2 hts⟩

theorem balanced_iff : Balanced ts ↔ replay? [] (ts.map Token.kind) = some [] := by
  refine ⟨fun h => h.replay?_eq [], fun h => ?_⟩
  obtain ⟨hts⟩ := Finishes.of_replay? h
  exact hts

instance : DecidablePred Balanced := fun _ => decidable_of_iff _ balanced_iff.symm

/-! What may follow. -/

/-- Balanced tokens start with `ts`. -/
def Completable (ts : List Token) : Prop := ∃ us, Balanced (ts ++ us)

/-- A closing mark may stand behind `ts` if it is that of `f`, and no other may. -/
def Awaits (ts : List Token) (f : Frame) : Prop :=
  ∀ g c, c.kind = .closing g → (Completable (ts ++ [c]) ↔ g = f)

/-- The token `t` is the first one that cannot be completed to balanced tokens, the `i`th of
`ts`. -/
def Breaks (ts : List Token) (i : Nat) (t : Token) : Prop :=
  ts[i]? = some t ∧ Completable (ts.take i) ∧ ¬ Completable (ts.take (i + 1))

/-- The open frames tell what completes tokens. -/
theorem balanced_append_iff (h : replay? [] (ts.map Token.kind) = some stack) :
    Balanced (ts ++ us) ↔ Finishes stack us := by
  rw [balanced_iff, finishes_iff, List.map_append, replay?_append, h]
  rfl

/-- The closing marks of the open frames. -/
def closers (stack : List Frame) : List Token := stack.map fun f => Token.mark (.closing f) {}

theorem closers_finishes (stack : List Frame) : Finishes stack (closers stack) := by
  induction stack with
  | nil => exact .done .nil
  | cons f below ih => exact .close_first rfl ih

theorem completable_iff : Completable ts ↔ ∃ stack, replay? [] (ts.map Token.kind) = some stack := by
  constructor
  · rintro ⟨us, h⟩
    rw [balanced_iff, List.map_append, replay?_append] at h
    obtain ⟨stack, hstack, -⟩ := Option.bind_eq_some_iff.1 h
    exact ⟨stack, hstack⟩
  · rintro ⟨stack, h⟩
    exact ⟨closers stack, (balanced_append_iff h).2 (closers_finishes stack)⟩

instance : DecidablePred Completable := fun _ =>
  decidable_of_iff _ (Option.isSome_iff_exists.trans completable_iff.symm)

instance {i : Nat} : Decidable (Breaks ts i t) :=
  inferInstanceAs (Decidable (_ ∧ _ ∧ ¬ _))

theorem Completable.of_append (h : Completable (ts ++ us)) : Completable ts := by
  obtain ⟨vs, h⟩ := h
  exact ⟨us ++ vs, by rwa [← List.append_assoc]⟩

theorem completable_closing_iff (h : replay? [] (ts.map Token.kind) = some stack)
    (hc : c.kind = .closing f) : Completable (ts ++ [c]) ↔ stack.head? = some f := by
  rw [completable_iff, List.map_append, List.map_cons, List.map_nil, hc, replay?_append, h,
    Option.bind_some, List.head?_eq_some_iff]
  constructor
  · rintro ⟨inner, hinner⟩
    obtain ⟨outer, houter, -⟩ := replay?_closing_iff.1 hinner
    exact ⟨outer, houter⟩
  · rintro ⟨outer, houter⟩
    exact ⟨outer, replay?_closing_iff.2 ⟨outer, houter, replay?_nil⟩⟩

theorem awaits_iff (h : replay? [] (ts.map Token.kind) = some (f :: below)) :
    Awaits ts g ↔ g = f := by
  constructor
  · intro hawaits
    have hnext : Completable (ts ++ [Token.mark (.closing f) {}]) :=
      (completable_closing_iff h rfl).2 rfl
    exact ((hawaits f _ rfl).1 hnext).symm
  · rintro rfl
    intro f c hc
    rw [completable_closing_iff h hc, List.head?_cons, Option.some_inj, eq_comm]

theorem Completable.take {i j : Nat} (h : Completable (ts.take j)) (hij : i ≤ j) :
    Completable (ts.take i) := by
  rw [← List.take_append_drop i (ts.take j), List.take_take, Nat.min_eq_left hij] at h
  exact h.of_append

/-- At most one token breaks the nesting. -/
theorem Breaks.unique {i j : Nat} {u : Token} (hi : Breaks ts i t) (hj : Breaks ts j u) :
    i = j := by
  rcases Nat.lt_trichotomy i j with hlt | heq | hlt
  · exact absurd (hj.2.1.take hlt) hi.2.2
  · exact heq
  · exact absurd (hi.2.1.take hlt) hj.2.2

theorem completable_concat (h : Completable ts) (ht : t.kind.isClosing = false) :
    Completable (ts ++ [t]) := by
  obtain ⟨stack, hstack⟩ := completable_iff.1 h
  rw [completable_iff, List.map_append, replay?_append, hstack]
  cases hk : t.kind with
  | opening f => exact ⟨f :: stack, by simp [hk]⟩
  | closing f => simp [hk, Kind.isClosing] at ht
  | _ =>
    refine ⟨stack, ?_⟩
    rw [Option.bind_some, List.map_cons, List.map_nil, hk, replay?_unmarked rfl, replay?_nil]

/-- The token that breaks the nesting closes a frame that is not the innermost one. -/
theorem breaks_iff {i : Nat} : Breaks ts i t ↔ ts[i]? = some t ∧ ∃ stack f,
    replay? [] ((ts.take i).map Token.kind) = some stack ∧ t.kind = .closing f ∧
      stack.head? ≠ some f := by
  refine and_congr_right fun ht => ?_
  rw [List.take_add_one, ht, Option.toList_some]
  constructor
  · rintro ⟨hbefore, hnot⟩
    obtain ⟨stack, hstack⟩ := completable_iff.1 hbefore
    cases hk : t.kind with
    | closing f =>
      exact ⟨stack, f, hstack, rfl, fun hf => hnot ((completable_closing_iff hstack hk).2 hf)⟩
    | _ => exact absurd (completable_concat hbefore (by rw [hk]; rfl)) hnot
  · rintro ⟨stack, f, hstack, hk, hf⟩
    exact ⟨completable_iff.2 ⟨stack, hstack⟩, fun h => hf ((completable_closing_iff hstack hk).1 h)⟩

/-! The check. -/

theorem imbalance?_opening (h : t.kind = .opening f) :
    imbalance? stack (t :: ts) = imbalance? (f :: stack) ts := by
  rw [imbalance?.eq_def]
  simp [h]

theorem imbalance?_closing (h : t.kind = .closing f) :
    imbalance? (f :: stack) (t :: ts) = imbalance? stack ts := by
  rw [imbalance?.eq_def]
  simp [h]

theorem imbalance?_append (h : replay? stack (ts.map Token.kind) = some below) :
    imbalance? stack (ts ++ us) = imbalance? below us := by
  induction ts generalizing stack with
  | nil =>
    obtain rfl : stack = below := by simpa using h
    rfl
  | cons t ts ih =>
    rw [List.map_cons] at h
    cases hk : t.kind with
    | opening f =>
      rw [hk, replay?_opening] at h
      rw [List.cons_append, imbalance?_opening hk, ih h]
    | closing f =>
      rw [hk, replay?_closing_iff] at h
      obtain ⟨outer, rfl, hrest⟩ := h
      rw [List.cons_append, imbalance?_closing hk, ih hrest]
    | _ =>
      rw [replay?_unmarked (by rw [hk]; rfl)] at h
      rw [List.cons_append, ← ih h, ← List.singleton_append]
      exact imbalance?_unmarked (by simp [Unmarked, hk, Kind.frame?]) _

/-- What is said of frames that are left open. -/
def unclosed? : List Frame → Option Imbalance
  | [] => none
  | f :: below => some (.unclosed (below.length + 1) f)

/-- What is said of the closing mark of `f` where `f` is not the innermost frame. -/
def misplaced (stack : List Frame) (f : Frame) (p : Position) : Imbalance :=
  match stack with
  | [] => .unopened f p
  | g :: _ => .mismatched g f p

theorem imbalance?_of_replay? (h : replay? [] (ts.map Token.kind) = some stack) :
    imbalance? [] ts = unclosed? stack := by
  have happend : imbalance? [] (ts ++ []) = imbalance? stack [] := imbalance?_append h
  rw [List.append_nil] at happend
  rw [happend]
  cases stack <;> rfl

theorem imbalance?_of_misplaced {i : Nat} (ht : ts[i]? = some t)
    (h : replay? [] ((ts.take i).map Token.kind) = some stack) (hk : t.kind = .closing f)
    (hf : stack.head? ≠ some f) : imbalance? [] ts = some (misplaced stack f t.position) := by
  obtain ⟨hi, rfl⟩ := List.getElem?_eq_some_iff.1 ht
  have hsplit : ts = ts.take i ++ ts[i] :: ts.drop (i + 1) := by
    rw [← List.drop_eq_getElem_cons hi, List.take_append_drop]
  conv_lhs => rw [hsplit]
  rw [imbalance?_append h, imbalance?.eq_def]
  rcases stack with _ | ⟨g, stack⟩
  · simp [hk, misplaced]
  · have hg : g ≠ f := fun hg => hf (by rw [hg, List.head?_cons])
    simp [hk, misplaced, hg]

/-- Either all tokens can be completed or one of them is the first that cannot. -/
theorem completable_or_breaks (ts : List Token) : Completable ts ∨ ∃ i t, Breaks ts i t := by
  induction ts using List.reverseRecOn with
  | nil => exact .inl ⟨[], .nil⟩
  | append_singleton ts t ih =>
    rcases ih with hts | ⟨i, u, hu, hbefore, hnot⟩
    · by_cases ht : Completable (ts ++ [t])
      · exact .inl ht
      · refine .inr ⟨ts.length, t, by simp, by simpa using hts, ?_⟩
        rwa [List.take_of_length_le (by simp)]
    · obtain ⟨hi, -⟩ := List.getElem?_eq_some_iff.1 hu
      refine .inr ⟨i, u, ?_, ?_, ?_⟩
      · rwa [List.getElem?_append_left hi]
      · rwa [List.take_append_of_le_length hi.le]
      · rwa [List.take_append_of_le_length hi]

/-- The two ways the check can go. -/
theorem imbalance?_cases (ts : List Token) :
    (∃ stack, replay? [] (ts.map Token.kind) = some stack ∧ imbalance? [] ts = unclosed? stack) ∨
    ∃ i t stack f, Breaks ts i t ∧ replay? [] ((ts.take i).map Token.kind) = some stack ∧
      t.kind = .closing f ∧ stack.head? ≠ some f ∧
      imbalance? [] ts = some (misplaced stack f t.position) := by
  rcases completable_or_breaks ts with hts | ⟨i, t, hbreaks⟩
  · obtain ⟨stack, hstack⟩ := completable_iff.1 hts
    exact .inl ⟨stack, hstack, imbalance?_of_replay? hstack⟩
  · obtain ⟨ht, stack, f, hstack, hk, hf⟩ := breaks_iff.1 hbreaks
    exact .inr ⟨i, t, stack, f, hbreaks, hstack, hk, hf, imbalance?_of_misplaced ht hstack hk hf⟩

theorem imbalance?_none_iff : imbalance? [] ts = none ↔ Balanced ts := by
  constructor
  · intro h
    rcases imbalance?_cases ts with ⟨stack, hstack, hcheck⟩ | ⟨i, t, stack, f, -, -, -, -, hcheck⟩
    · rcases stack with _ | ⟨f, below⟩
      · exact balanced_iff.2 hstack
      · rw [hcheck] at h
        cases h
    · rw [hcheck] at h
      cases h
  · intro h
    exact imbalance?_of_replay? (h.replay?_eq [])

theorem imbalance?_unopened_iff {p : Position} : imbalance? [] ts = some (.unopened f p) ↔
    ∃ i t, Breaks ts i t ∧ t.kind = .closing f ∧ t.position = p ∧ Balanced (ts.take i) := by
  constructor
  · intro h
    rcases imbalance?_cases ts with ⟨stack, -, hcheck⟩ | ⟨i, t, stack, e, hbreaks, hstack, hk, -,
      hcheck⟩
    · rw [hcheck] at h
      cases stack <;> cases h
    · rw [hcheck] at h
      cases stack with
      | nil =>
        cases h
        exact ⟨i, t, hbreaks, hk, rfl, balanced_iff.2 hstack⟩
      | cons g below => cases h
  · rintro ⟨i, t, hbreaks, hk, rfl, hbalanced⟩
    exact imbalance?_of_misplaced hbreaks.1 (hbalanced.replay?_eq []) hk (by simp)

theorem imbalance?_mismatched_iff {p : Position} : imbalance? [] ts = some (.mismatched g f p) ↔
    ∃ i t, Breaks ts i t ∧ t.kind = .closing f ∧ t.position = p ∧ ¬ Balanced (ts.take i) ∧
      Awaits (ts.take i) g := by
  constructor
  · intro h
    rcases imbalance?_cases ts with ⟨stack, -, hcheck⟩ | ⟨i, t, stack, e, hbreaks, hstack, hk, -,
      hcheck⟩
    · rw [hcheck] at h
      cases stack <;> cases h
    · rw [hcheck] at h
      cases stack with
      | nil => cases h
      | cons g below =>
        cases h
        refine ⟨i, t, hbreaks, hk, rfl, fun hbalanced => ?_, (awaits_iff hstack).2 rfl⟩
        cases hstack.symm.trans (balanced_iff.1 hbalanced)
  · rintro ⟨i, t, hbreaks, hk, rfl, hnot, hawaits⟩
    obtain ⟨ht, stack, e, hstack, hke, he⟩ := breaks_iff.1 hbreaks
    obtain rfl : e = f := by simpa [hk, eq_comm] using hke
    cases stack with
    | nil => exact absurd (balanced_iff.2 hstack) hnot
    | cons h below =>
      obtain rfl := (awaits_iff hstack).1 hawaits
      exact imbalance?_of_misplaced ht hstack hk he

/-- The numbers of tokens that complete `ts` to balanced tokens. -/
def completionLengths (ts : List Token) : Set Nat :=
  {n | ∃ us : List Token, us.length = n ∧ Balanced (ts ++ us)}

/-- One closing mark for each open frame is the least that completes tokens. -/
theorem isLeast_completionLengths (h : replay? [] (ts.map Token.kind) = some stack) :
    IsLeast (completionLengths ts) stack.length := by
  constructor
  · exact ⟨closers stack, by simp [closers], (balanced_append_iff h).2 (closers_finishes stack)⟩
  · rintro n ⟨us, rfl, hus⟩
    exact ((balanced_append_iff h).1 hus).length_le

theorem imbalance?_unclosed_iff {n : Nat} : imbalance? [] ts = some (.unclosed n f) ↔
    ¬ Balanced ts ∧ Completable ts ∧ IsLeast (completionLengths ts) n ∧
      ∀ us, us.length = n → Balanced (ts ++ us) → ∃ c vs, us = c :: vs ∧ c.kind = .closing f := by
  constructor
  · intro h
    rcases imbalance?_cases ts with ⟨stack, hstack, hcheck⟩ | ⟨i, t, stack, e, -, -, -, -, hcheck⟩
    · rw [hcheck] at h
      cases stack with
      | nil => cases h
      | cons g below =>
        cases h
        refine ⟨fun hbalanced => ?_, completable_iff.2 ⟨_, hstack⟩,
          isLeast_completionLengths hstack, fun us hus hbalanced => ?_⟩
        · cases hstack.symm.trans (balanced_iff.1 hbalanced)
        · exact ((balanced_append_iff hstack).1 hbalanced).head_closes hus
    · rw [hcheck] at h
      cases stack <;> cases h
  · rintro ⟨hnot, hcompletable, hleast, hfirst⟩
    obtain ⟨stack, hstack⟩ := completable_iff.1 hcompletable
    cases stack with
    | nil => exact absurd (balanced_iff.2 hstack) hnot
    | cons g below =>
      obtain rfl := hleast.unique (isLeast_completionLengths hstack)
      obtain ⟨c, vs, hclosers, hc⟩ := hfirst (closers (g :: below)) (by simp [closers])
        ((balanced_append_iff hstack).2 (closers_finishes _))
      obtain rfl : g = f := by
        cases hclosers
        simpa [Token.mark] using hc
      exact imbalance?_of_replay? hstack

/-! The marks by themselves. -/

/-- The marks among tokens. -/
def marks (ts : List Token) : List Token := ts.filter (·.kind.frame?.isSome)

/-- Nothing, or a frame around nested marks, then nested marks. -/
inductive WellNested : List Token → Prop
  | nil : WellNested []
  | frame {f : Frame} {o c : Token} {ts us : List Token} : o.kind = .opening f →
      c.kind = .closing f → WellNested ts → WellNested us → WellNested (o :: ts ++ c :: us)

theorem replay?_marks (stack : List Frame) (ts : List Token) :
    replay? stack ((marks ts).map Token.kind) = replay? stack (ts.map Token.kind) := by
  induction ts generalizing stack with
  | nil => rfl
  | cons t ts ih =>
    cases hk : t.kind with
    | opening f => simpa [marks, hk, Kind.frame?] using ih (f :: stack)
    | closing f =>
      have hmarks : marks (t :: ts) = t :: marks ts := by simp [marks, hk, Kind.frame?]
      rw [hmarks]
      cases stack <;> simp [hk, replay?, ih]
    | _ =>
      have hmarks : marks (t :: ts) = marks ts := by simp [marks, hk, Kind.frame?]
      rw [hmarks, ih, List.map_cons, replay?_unmarked (by rw [hk]; rfl)]

theorem WellNested.balanced (h : WellNested ts) : Balanced ts := by
  induction h with
  | nil => exact .nil
  | frame ho hc _ _ ihin ihbehind => exact .frame ho hc ihin ihbehind

theorem Balanced.wellNested_marks (h : Balanced ts) : WellNested (marks ts) := by
  induction h with
  | nil => exact .nil
  | skip ht _ ih => simpa [marks, ht] using ih
  | frame ho hc _ _ ihin ihbehind =>
    simpa [marks, ho, hc, Kind.frame?] using WellNested.frame ho hc ihin ihbehind

theorem wellNested_marks_iff : WellNested (marks ts) ↔ Balanced ts := by
  refine ⟨fun h => ?_, Balanced.wellNested_marks⟩
  rw [balanced_iff, ← replay?_marks]
  exact balanced_iff.1 h.balanced

/-- The check of the nesting passes exactly the tokens whose marks are nested. It complains of a
closing mark exactly where one comes first that no balanced tokens have there, and else of the
frames that are left open. -/
theorem imbalance?_decides (ts : List Token) :
    (imbalance? [] ts = none ↔ WellNested (marks ts)) ∧
    (WellNested (marks ts) ↔ Balanced ts) ∧
    (∀ f p, imbalance? [] ts = some (.unopened f p) ↔
      ∃ i t, Breaks ts i t ∧ t.kind = .closing f ∧ t.position = p ∧ Balanced (ts.take i)) ∧
    (∀ g f p, imbalance? [] ts = some (.mismatched g f p) ↔
      ∃ i t, Breaks ts i t ∧ t.kind = .closing f ∧ t.position = p ∧ ¬ Balanced (ts.take i) ∧
        Awaits (ts.take i) g) ∧
    (∀ i t, Breaks ts i t → (∀ j u, Breaks ts j u → j = i) ∧ ∃ f, t.kind = .closing f ∧
      (imbalance? [] ts = some (.unopened f t.position) ∨
        ∃ g, imbalance? [] ts = some (.mismatched g f t.position))) ∧
    ∀ n f, imbalance? [] ts = some (.unclosed n f) ↔
      ¬ Balanced ts ∧ Completable ts ∧ IsLeast (completionLengths ts) n ∧
        ∀ us, us.length = n → Balanced (ts ++ us) →
          ∃ c vs, us = c :: vs ∧ c.kind = .closing f := by
  refine ⟨imbalance?_none_iff.trans wellNested_marks_iff.symm, wellNested_marks_iff,
    fun f p => imbalance?_unopened_iff, fun g f p => imbalance?_mismatched_iff, ?_,
    fun n f => imbalance?_unclosed_iff⟩
  intro i t hbreaks
  refine ⟨fun j u hj => hj.unique hbreaks, ?_⟩
  obtain ⟨ht, stack, f, hstack, hk, hf⟩ := breaks_iff.1 hbreaks
  refine ⟨f, hk, ?_⟩
  rw [imbalance?_of_misplaced ht hstack hk hf]
  cases stack with
  | nil => exact .inl rfl
  | cons g below => exact .inr ⟨g, rfl⟩

/-- A section and an argument that overlap, at the mark that ends the section and before it. -/
theorem imbalance?_decides_overlap :
    let ts : List Token := [.mark (.opening .sect) {}, .mark (.opening .argument) {},
      .mark (.closing .sect) {}]
    let us : List Token := [.mark (.closing .argument) {}, .mark (.closing .sect) {}]
    (∃ i t, Breaks ts i t ∧ t.kind = .closing .sect ∧ t.position = {} ∧ ¬ Balanced (ts.take i) ∧
      Awaits (ts.take i) .argument) ∧
    (∀ j u, Breaks ts j u → j = 2) ∧
    IsLeast (completionLengths (ts.take 2)) 2 ∧
    ∃ c vs, us = c :: vs ∧ c.kind = .closing .argument := by
  intro ts us
  obtain ⟨-, -, -, hmismatched, hbreaks, -⟩ := imbalance?_decides ts
  obtain ⟨-, -, -, -, -, hunclosed⟩ := imbalance?_decides (ts.take 2)
  obtain ⟨-, -, hleast, hfirst⟩ := (hunclosed 2 .argument).1 rfl
  refine ⟨(hmismatched .argument .sect {}).1 rfl, ?_, hleast, ?_⟩
  · exact (hbreaks 2 (.mark (.closing .sect) {}) (by decide)).1
  · exact hfirst us rfl (by decide)

end SectionLexer
