import SectionLexer.Piece.OfText
import SectionLexer.Proofs.Enclosed

/-! How a text goes on behind its last character: a literal that has its end keeps it whatever
follows, one that lacks it takes all line ends in. -/
namespace SectionLexer

/-- Nothing but line ends. -/
def AreNewlines (u : List Char) : Prop := ∀ c ∈ u, c = '\n'

variable {s t u : List Char}

theorem AreNewlines.ne_cons (hu : AreNewlines u) {d : Char} (hd : d ≠ '\n') (t : List Char) :
    u ≠ d :: t := by
  rintro rfl
  exact hd (hu d (by simp))

theorem AreNewlines.induct {P : List Char → Prop} (hu : AreNewlines u) (hnil : P [])
    (hcons : ∀ u, P u → P ('\n' :: u)) : P u := by
  induction u with
  | nil => exact hnil
  | cons c u ih =>
    obtain rfl := hu c (by simp)
    exact hcons u (ih fun d hd => hu d (by simp [hd]))

theorem append_ne_cons {d : Char} (hs : ∀ t, s ≠ d :: t) (hu : s = [] → ∀ t, u ≠ d :: t)
    (t : List Char) : s ++ u ≠ d :: t := by
  intro h
  cases s with
  | nil => exact hu rfl t h
  | cons c s =>
    obtain rfl := (List.cons.inj h).1
    exact hs s rfl

namespace Literal

/-- A character that neither ends a text block nor hides the character behind it. -/
theorem blockBody_cons {c : Char} (hs : c = ':' ∨ c = '\\' → ∀ t, s ≠ ':' :: t) :
    blockBody (c :: s) = (blockBody s).map (c :: ·) id :=
  blockBody.eq_4 c s (fun t hc => hs (.inl hc) t) fun t hc => hs (.inr hc) t

/-! A literal with its end. -/

theorem rawText_closed (h : (rawText s).2 = true) (u : List Char) :
    rawText (s ++ u) = rawText s := by
  fun_induction rawText s with
  | case1 => cases h
  | case2 s => rfl
  | case3 s ih => simp [rawText, ih h]
  | case4 c s hc hb ih =>
    have hnext : c = '\\' → ∀ t, s ++ u ≠ '"' :: t := fun hbackslash =>
      append_ne_cons (fun t => hb t hbackslash) fun hs => by subst hs; cases h
    rw [List.cons_append, rawText_cons hc hnext, ih h]

theorem formulationBody_closed {q : Quote} (h : (formulationBody q s).2 = true) (u : List Char) :
    formulationBody q (s ++ u) = formulationBody q s := by
  induction s with
  | nil => cases h
  | cons c s ih =>
    by_cases hc : c = q.char
    · simp [formulationBody, hc]
    · have hs : (formulationBody q s).2 = true := by simpa [formulationBody, hc] using h
      simp [formulationBody, hc, ih hs]

theorem blockBody_closed (h : (blockBody s).2 = true) (u : List Char) :
    blockBody (s ++ u) = blockBody s := by
  fun_induction blockBody s with
  | case1 => cases h
  | case2 s => rfl
  | case3 s ih => simp [blockBody, ih h]
  | case4 c s hc hb ih =>
    have hnext : c = ':' ∨ c = '\\' → ∀ t, s ++ u ≠ ':' :: t := fun hmark =>
      append_ne_cons (fun t => hmark.elim (hc t) (hb t)) fun hs => by subst hs; cases h
    rw [List.cons_append, blockBody_cons hnext, ih h]

/-- An id does not go on behind its line. -/
theorem idBody_newline (depth : Nat) (s t : List Char) :
    idBody depth (s ++ '\n' :: t) = idBody depth s := by
  induction s generalizing depth with
  | nil => simp [idBody]
  | cons c s ih => cases depth <;> simp [idBody, ih]

/-- A plain argument goes on behind its line only inside brackets. -/
theorem plainText_newline {stack : List Bracket}
    (h : (plainText stack s).foldl Bracket.track stack = []) (t : List Char) :
    plainText stack (s ++ '\n' :: t) = plainText stack s := by
  induction s generalizing stack with
  | nil =>
    obtain rfl : stack = [] := h
    simp [plainText]
  | cons c s ih =>
    by_cases hstop : (stack.isEmpty && (c == ',' || c == '\n')) = true
    · simp only [List.cons_append, plainText, if_pos hstop]
    · simp only [plainText, if_neg hstop] at h
      simp only [List.cons_append, plainText, if_neg hstop, ih h]

/-! A literal without its end. -/

theorem rawText_open (h : (rawText s).2 = false) (hu : AreNewlines u) :
    rawText (s ++ u) = (s ++ u, false) := by
  fun_induction rawText s with
  | case1 =>
    exact hu.induct (P := fun u => rawText u = (u, false)) rfl fun u ih => by simp [rawText, ih]
  | case2 s => cases h
  | case3 s ih => simp [rawText, ih h]
  | case4 c s hc hb ih =>
    have hnext : c = '\\' → ∀ t, s ++ u ≠ '"' :: t := fun hbackslash =>
      append_ne_cons (fun t => hb t hbackslash) fun _ => hu.ne_cons (by decide)
    rw [List.cons_append, rawText_cons hc hnext, ih h]
    rfl

theorem formulationBody_open {q : Quote} (h : (formulationBody q s).2 = false)
    (hu : AreNewlines u) : formulationBody q (s ++ u) = (s ++ u, false) := by
  induction s with
  | nil =>
    have hq : '\n' ≠ q.char := by cases q <;> decide
    exact hu.induct (P := fun u => formulationBody q u = (u, false)) rfl
      fun u ih => by simp [formulationBody, hq, ih]
  | cons c s ih =>
    by_cases hc : c = q.char
    · simp [formulationBody, hc] at h
    · have hs : (formulationBody q s).2 = false := by simpa [formulationBody, hc] using h
      simp [formulationBody, hc, ih hs]

theorem blockBody_open (h : (blockBody s).2 = false) (hu : AreNewlines u) :
    blockBody (s ++ u) = (s ++ u, false) := by
  fun_induction blockBody s with
  | case1 =>
    exact hu.induct (P := fun u => blockBody u = (u, false)) rfl fun u ih => by simp [blockBody, ih]
  | case2 s => cases h
  | case3 s ih => simp [blockBody, ih h]
  | case4 c s hc hb ih =>
    have hnext : c = ':' ∨ c = '\\' → ∀ t, s ++ u ≠ ':' :: t := fun hmark =>
      append_ne_cons (fun t => hmark.elim (hc t) (hb t)) fun _ => hu.ne_cons (by decide)
    rw [List.cons_append, blockBody_cons hnext, ih h]
    rfl

theorem track_newlines (hu : AreNewlines u) (stack : List Bracket) :
    u.foldl Bracket.track stack = stack :=
  hu.induct (P := fun u => u.foldl Bracket.track stack = stack) rfl fun _ ih => ih

theorem plainText_open {stack : List Bracket}
    (h : (plainText stack s).foldl Bracket.track stack ≠ []) (hu : AreNewlines u) :
    plainText stack (s ++ u) = s ++ u := by
  induction s generalizing stack with
  | nil =>
    have hne : stack.isEmpty = false := by simpa [plainText] using h
    have htrack : Bracket.track stack '\n' = stack := rfl
    exact hu.induct (P := fun u => plainText stack u = u) rfl
      fun u ih => by simp [plainText, hne, htrack, ih]
  | cons c s ih =>
    by_cases hstop : (stack.isEmpty && (c == ',' || c == '\n')) = true
    · have hempty : stack = [] := by simp_all
      simp only [plainText, if_pos hstop] at h
      exact absurd hempty h
    · simp only [plainText, if_neg hstop] at h
      simp only [List.cons_append, plainText, if_neg hstop, ih h]

/-- Line ends stand for themselves. -/
theorem unescape_append (s : List Char) (hu : AreNewlines u) :
    unescape (s ++ u) = unescape s ++ u := by
  fun_induction unescape s with
  | case1 =>
    exact hu.induct (P := fun u => unescape u = u) rfl fun u ih => by simp [unescape, ih]
  | case2 s ih => simp [unescape, ih]
  | case3 c s hb ih =>
    have hnext : c = '\\' → ∀ t, s ++ u ≠ '"' :: t := fun hbackslash =>
      append_ne_cons (fun t => hb t hbackslash) fun _ => hu.ne_cons (by decide)
    have hstep : unescape (c :: (s ++ u)) = c :: unescape (s ++ u) :=
      unescape.eq_3 c (s ++ u) fun t hc => hnext hc t
    rw [List.cons_append, hstep, ih, List.cons_append]

end Literal

end SectionLexer
