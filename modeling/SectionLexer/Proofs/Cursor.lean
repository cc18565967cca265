import SectionLexer.Proofs.Positions
import SectionLexer.Reader

/-! The cursor of a reader stands behind the characters that it has read, at their end, however it
got there. -/
namespace SectionLexer

variable {s t rest text : List Char} {c : Char} {p : Position}

theorem length_placeChars (p : Position) (s : List Char) : (placeChars p s).length = s.length := by
  induction s generalizing p with
  | nil => rfl
  | cons c s ih => simp [placeChars, ih]

theorem map_fst_placeChars (p : Position) (s : List Char) : (placeChars p s).map Prod.fst = s := by
  induction s generalizing p with
  | nil => rfl
  | cons c s ih => simp [placeChars, ih]

theorem getElem?_placeChars (p : Position) (s rest : List Char) :
    (placeChars p (s ++ rest))[s.length]? = rest.head?.map fun c => (c, p.after s) := by
  rw [placeChars_append, List.getElem?_append_right (length_placeChars p s).le,
    length_placeChars, Nat.sub_self]
  cases rest <;> rfl

theorem utf8ByteSize_ofList (s : List Char) : (String.ofList s).utf8ByteSize = byteLength s := by
  induction s with
  | nil => rfl
  | cons c s ih =>
    rw [← List.singleton_append, String.ofList_append, String.utf8ByteSize_append, ih,
      ← String.singleton_eq_ofList, String.utf8ByteSize_singleton, byteLength_append]
    rfl

/-- A text may be cut behind any of its characters. -/
theorem isValid_byteLength (s rest : List Char) :
    (⟨byteLength s⟩ : String.Pos.Raw).IsValid (String.ofList (s ++ rest)) := by
  rw [String.Pos.Raw.isValid_iff_exists_append]
  refine ⟨String.ofList s, String.ofList rest, String.ofList_append, ?_⟩
  rw [← utf8ByteSize_ofList]
  rfl

namespace Reader

theorem finishBehind_eq (s : List Char) :
    finishBehind (byteLength s) (placeChars {} s).getLast? = Position.ofText s := by
  induction s using List.reverseRecOn with
  | nil => rfl
  | append_singleton s c =>
    rw [placeChars_append, placeChars, placeChars, List.getLast?_concat,
      ← Position.after_eq_ofText (s ++ [c]), Position.after_append, Position.after_eq_ofText]
    simp [finishBehind, Position.step, Position.ofText]

/-- The reader that has read `s`, with `rest` to come. -/
def between (s rest : List Char) : Reader := { ofText (s ++ rest) with index := s.length }

theorem ofText_eq_between (text : List Char) : ofText text = between [] text := rfl

theorem getElem?_between (s rest : List Char) : (between s rest).chars[(between s rest).index]? =
    rest.head?.map fun c => (c, Position.ofText s) := by
  simpa [between, ofText, Position.after_eq_ofText] using getElem?_placeChars {} s rest

theorem position_between (s rest : List Char) : (between s rest).position = Position.ofText s := by
  rw [position, getElem?_between]
  cases rest with
  | nil => simpa [between, ofText] using finishBehind_eq s
  | cons c rest => rfl

theorem step_between (s : List Char) (c : Char) (rest : List Char) :
    { between s (c :: rest) with index := (between s (c :: rest)).index + 1 } =
      between (s ++ [c]) rest := by
  simp [between]

theorem next_between_nil (s : List Char) : (between s []).next = (none, between s []) := by
  rw [next, getElem?_between]
  rfl

theorem next_between_cons (s : List Char) (c : Char) (rest : List Char) :
    (between s (c :: rest)).next = (some (c, Position.ofText s), between (s ++ [c]) rest) := by
  rw [next, getElem?_between, ← step_between]
  rfl

theorem hasNext_between (s rest : List Char) : (between s rest).hasNext = !rest.isEmpty := by
  cases rest <;> simp [hasNext, between, ofText, length_placeChars]

/-- The reader goes on while it has read fewer than `offset` bytes. -/
theorem advanceTo_between_cons (offset : Nat) (s : List Char) (c : Char) (rest : List Char) :
    (between s (c :: rest)).advanceTo offset =
      if byteLength s < offset then (between (s ++ [c]) rest).advanceTo offset
      else between s (c :: rest) := by
  rw [advanceTo.eq_def, step_between, hasNext_between, position_between]
  simp [Position.ofText]

theorem advanceTo_between_nil (offset : Nat) (s : List Char) :
    (between s []).advanceTo offset = between s [] := by
  rw [advanceTo.eq_def, hasNext_between]
  simp

/-- What it reads is no more than it takes to come to `offset`. -/
theorem advanceTo_between (offset : Nat) (s rest : List Char) : ∃ front back,
    rest = front ++ back ∧ (between s rest).advanceTo offset = between (s ++ front) back ∧
    (offset ≤ byteLength (s ++ front) ∨ back = []) ∧
    ∀ u, u <+: rest → offset ≤ byteLength (s ++ u) → front <+: u := by
  induction rest generalizing s with
  | nil =>
    refine ⟨[], [], rfl, ?_, .inr rfl, fun u _ _ => List.nil_prefix⟩
    rw [advanceTo_between_nil, List.append_nil]
  | cons c rest ih =>
    by_cases hlt : byteLength s < offset
    · obtain ⟨front, back, rfl, hread, hreached, hleast⟩ := ih (s ++ [c])
      rw [List.append_assoc, List.singleton_append] at hread hreached
      refine ⟨c :: front, back, rfl, ?_, hreached, fun u hu hoffset => ?_⟩
      · rw [advanceTo_between_cons, if_pos hlt, hread]
      · cases u with
        | nil =>
          rw [List.append_nil] at hoffset
          omega
        | cons d u =>
          obtain ⟨rfl, htail⟩ := List.cons_prefix_cons.1 hu
          have hfront := hleast u htail (by simpa using hoffset)
          exact List.cons_prefix_cons.2 ⟨rfl, hfront⟩
    · refine ⟨[], c :: rest, rfl, ?_, .inl ?_, fun u _ _ => List.nil_prefix⟩
      · rw [advanceTo_between_cons, if_neg hlt, List.append_nil]
      · rw [List.append_nil]
        omega

/-! Any calls. -/

/-- What moves the cursor. -/
inductive Call where
  | next
  | advanceTo (offset : Nat)

def apply (r : Reader) : Call → Reader
  | .next => r.next.2
  | .advanceTo offset => r.advanceTo offset

def run (r : Reader) (cs : List Call) : Reader := cs.foldl apply r

/-- The characters that the reader has read. -/
def behind (r : Reader) : List Char := (r.chars.toList.take r.index).map Prod.fst

/-- The characters that are left. -/
def ahead (r : Reader) : List Char := (r.chars.toList.drop r.index).map Prod.fst

/-- A call at the end of `s` leads to the end of `t`: one character on, if there is one, or on to
the first place with so many bytes before it, or else to the end. -/
def Extends (text s : List Char) : Call → List Char → Prop
  | .next, t => t = text.take (s.length + 1)
  | .advanceTo offset, t => s <+: t ∧ t <+: text ∧ (offset ≤ byteLength t ∨ t = text) ∧
      ∀ u, s <+: u → u <+: text → offset ≤ byteLength u → t <+: u

theorem behind_between (s rest : List Char) : (between s rest).behind = s := by
  simp [behind, between, ofText, List.map_take, map_fst_placeChars]

theorem ahead_between (s rest : List Char) : (between s rest).ahead = rest := by
  simp [ahead, between, ofText, List.map_drop, map_fst_placeChars]

/-- One call. -/
theorem apply_between (s rest : List Char) (call : Call) : ∃ front back, rest = front ++ back ∧
    (between s rest).apply call = between (s ++ front) back ∧
    Extends (s ++ rest) s call (s ++ front) := by
  cases call with
  | next =>
    cases rest with
    | nil => exact ⟨[], [], rfl, by simp [apply, next_between_nil],
        by simp [Extends, List.take_of_length_le]⟩
    | cons c rest =>
      refine ⟨[c], rest, rfl, by rw [apply, next_between_cons], ?_⟩
      rw [Extends, List.take_append, List.take_of_length_le (Nat.le_succ _)]
      simp
  | advanceTo offset =>
    obtain ⟨front, back, rfl, hread, hreached, hleast⟩ := advanceTo_between offset s rest
    refine ⟨front, back, rfl, hread, List.prefix_append s front,
      ⟨back, by rw [List.append_assoc]⟩, ?_, ?_⟩
    · exact hreached.imp_right fun hback => by rw [hback, List.append_nil]
    · rintro u ⟨v, rfl⟩ hu hoffset
      rw [List.prefix_append_right_inj] at hu ⊢
      exact hleast v hu hoffset

/-- All calls. -/
theorem run_between (s rest : List Char) (cs : List Call) : ∃ t back, s ++ rest = t ++ back ∧
    (between s rest).run cs = between t back := by
  induction cs generalizing s rest with
  | nil => exact ⟨s, rest, rfl, rfl⟩
  | cons call cs ih =>
    obtain ⟨front, back, rfl, hcall, -⟩ := apply_between s rest call
    obtain ⟨t, rest, hsplit, hrun⟩ := ih (s ++ front) back
    rw [List.append_assoc] at hsplit
    refine ⟨t, rest, hsplit, ?_⟩
    rw [run, List.foldl_cons, hcall]
    exact hrun

/-! The calls that read pieces. -/

/-- The calls by which the first pass reads pieces from `start` on: a piece at once, by the place of
its end, or a character at a time. -/
inductive Drives : Nat → List Piece → List Call → Prop
  | done {start : Nat} : Drives start [] []
  | whole {start : Nat} {x : Piece} {xs : List Piece} {cs : List Call} :
      Drives (start + byteLength x.spelling) xs cs →
      Drives start (x :: xs) (.advanceTo (start + byteLength x.spelling) :: cs)
  | singly {start : Nat} {x : Piece} {xs : List Piece} {cs : List Call} :
      Drives (start + byteLength x.spelling) xs cs →
      Drives start (x :: xs) (List.replicate x.spelling.length .next ++ cs)

theorem advanceTo_append (s t rest : List Char) :
    (between s (t ++ rest)).advanceTo (byteLength s + byteLength t) = between (s ++ t) rest := by
  induction t generalizing s with
  | nil =>
    rw [List.nil_append, List.append_nil, byteLength_nil, Nat.add_zero]
    cases rest with
    | nil => exact advanceTo_between_nil _ s
    | cons c rest => rw [advanceTo_between_cons, if_neg (Nat.lt_irrefl _)]
  | cons c t ih =>
    have hstep := ih (s ++ [c])
    have hpos := c.utf8Size_pos
    rw [byteLength_append, byteLength_cons, byteLength_nil, List.append_assoc, Nat.add_assoc,
      Nat.add_zero] at hstep
    rw [List.cons_append, advanceTo_between_cons, byteLength_cons, if_pos (by omega)]
    exact hstep

theorem run_replicate_next (s t rest : List Char) (cs : List Call) :
    (between s (t ++ rest)).run (List.replicate t.length .next ++ cs) =
      (between (s ++ t) rest).run cs := by
  induction t generalizing s with
  | nil => simp
  | cons c t ih =>
    have hstep := ih (s ++ [c])
    rw [List.append_assoc] at hstep
    rw [List.length_cons, List.replicate_succ, List.cons_append, List.cons_append, run,
      List.foldl_cons, apply, next_between_cons]
    exact hstep

theorem run_drives {xs : List Piece} {cs : List Call} {start : Nat} (h : Drives start xs cs)
    {s : List Char} (hs : start = byteLength s) (rest : List Char) :
    (between s (Piece.spell xs ++ rest)).run cs = between (s ++ Piece.spell xs) rest := by
  induction h generalizing s with
  | done => simp [run]
  | @whole start x xs cs _ ih =>
    subst hs
    have hrest := ih (byteLength_append s x.spelling).symm
    rw [List.append_assoc] at hrest
    rw [Piece.spell_cons, List.append_assoc, run, List.foldl_cons, apply, advanceTo_append]
    exact hrest
  | @singly start x xs cs _ ih =>
    subst hs
    have hrest := ih (byteLength_append s x.spelling).symm
    rw [List.append_assoc] at hrest
    rw [Piece.spell_cons, List.append_assoc, run_replicate_next]
    exact hrest

/-- Whatever calls are made, the cursor stands at the end of what is read, which is the beginning of
the text up to some character; and each call reads on as it says. The calls of the first pass lead
from piece to piece. -/
theorem cursor_exact (text : String) :
    (∀ cs, let r := (ofText text.toList).run cs
      r.behind ++ r.ahead = text.toList ∧
      r.position = ⟨(String.ofList r.behind).utf8ByteSize, r.behind.count '\n',
        (lastLine r.behind).length⟩ ∧
      (⟨r.position.offset⟩ : String.Pos.Raw).IsValid text ∧
      r.next.1 = r.ahead.head?.map (fun c => (c, r.position)) ∧
      ∀ call, Extends text.toList r.behind call (r.apply call).behind) ∧
    ∀ us vs cs, Piece.ofText text.toList = us ++ vs → Drives 0 us cs →
      ((ofText text.toList).run cs).behind = Piece.spell us ∧
      ((ofText text.toList).run cs).ahead = Piece.spell vs := by
  constructor
  · intro cs r
    obtain ⟨s, rest, hsplit, hrun⟩ := run_between [] text.toList cs
    have hr : r = between s rest := hrun
    clear_value r
    subst hr
    rw [List.nil_append] at hsplit
    rw [behind_between, ahead_between, position_between, utf8ByteSize_ofList]
    refine ⟨hsplit.symm, rfl, ?_, ?_, fun call => ?_⟩
    · have hvalid := isValid_byteLength s rest
      rwa [← hsplit, String.ofList_toList] at hvalid
    · cases rest with
      | nil => rw [next_between_nil]; rfl
      | cons c rest => rw [next_between_cons]; rfl
    · obtain ⟨front, back, -, hcall, hextends⟩ := apply_between s rest call
      rwa [hcall, behind_between, hsplit]
  · intro us vs cs hpieces hdrives
    have htext : text.toList = Piece.spell us ++ Piece.spell vs := by
      rw [← Piece.spell_append, ← hpieces, Piece.spell_ofText]
    have hrun := run_drives hdrives byteLength_nil.symm (Piece.spell vs)
    rw [ofText_eq_between, htext, hrun, behind_between, ahead_between]
    exact ⟨rfl, rfl⟩

/-- A header and an argument: the place to go to is inside a character, or the end of a piece. -/
theorem cursor_exact_header :
    let r := (ofText "a:é∀".toList).run [.next, .advanceTo 3]
    (⟨r.position.offset⟩ : String.Pos.Raw).IsValid "a:é∀" ∧
    r.position = ⟨4, 0, 3⟩ ∧
    ((ofText "a:é∀".toList).run [.advanceTo 1, .next]).behind = ['a', ':'] ∧
    ((ofText "a:é∀".toList).run [.advanceTo 1, .next]).ahead = ['é', '∀'] := by
  intro r
  obtain ⟨hcalls, hpieces⟩ := cursor_exact "a:é∀"
  obtain ⟨-, -, hvalid, -⟩ := hcalls [.next, .advanceTo 3]
  have hcut : Piece.ofText "a:é∀".toList = [.name ['a'], .colon] ++ [.plain ['é', '∀']] := by
    decide +kernel
  exact ⟨hvalid, by decide +kernel, hpieces _ _ _ hcut (.whole (.singly .done))⟩

end Reader

end SectionLexer
