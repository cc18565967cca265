import SectionLexer.Literal

/-! Literals read back: what is spelled as a literal is read as the literal, up to its end. -/
namespace SectionLexer.Literal

/-- No spelling of a quoted text starts with a double quote. -/
theorem escape_ne_quote (s t : List Char) : escape s ≠ '"' :: t := by
  cases s with
  | nil => simp [escape]
  | cons c s =>
    by_cases hc : c = '"'
    · simp [escape, hc]
    · simp [escape, hc]

/-- A character that neither ends a quoted text nor hides the character behind it. -/
theorem rawText_cons {c : Char} {s : List Char} (hc : c ≠ '"')
    (hs : c = '\\' → ∀ t, s ≠ '"' :: t) : rawText (c :: s) = (rawText s).map (c :: ·) id :=
  rawText.eq_4 c s hc fun t hb => hs hb t

theorem unescape_escape (s : List Char) : unescape (escape s) = s := by
  induction s with
  | nil => rfl
  | cons c s ih =>
    by_cases hc : c = '"'
    · simp [escape, unescape, hc, ih]
    · have hs : ∀ t, escape s ≠ '"' :: t := escape_ne_quote s
      simp [escape, unescape, hs, ih]

/-- A quoted text ends where its spelling does. A backslash at the end would hide the closing
quote. -/
theorem rawText_escape {s : List Char} (h : s.getLast? ≠ some '\\') (t : List Char) :
    rawText (escape s ++ '"' :: t) = (escape s, true) := by
  induction s with
  | nil => rfl
  | cons c s ih =>
    have hs : s.getLast? ≠ some '\\' := by
      cases s with
      | nil => simp
      | cons d s => simpa [List.getLast?_cons] using h
    by_cases hc : c = '"'
    · simp [escape, rawText, hc, ih hs]
    · have hnext : c = '\\' → ∀ u, escape s ++ '"' :: t ≠ '"' :: u := by
        intro hb u
        cases s with
        | nil => simp [hb] at h
        | cons d s =>
          by_cases hd : d = '"'
          · simp [escape, hd]
          · simp [escape, hd]
      have he : escape (c :: s) = c :: escape s := by simp [escape]
      rw [he, List.cons_append, rawText_cons hc hnext, ih hs]
      rfl

theorem formulationBody_append {q : Quote} {s : List Char} (h : q.char ∉ s) (t : List Char) :
    formulationBody q (s ++ q.char :: t) = (s, true) := by
  induction s with
  | nil => simp [formulationBody]
  | cons c s ih =>
    have hc : c ≠ q.char := fun hc => h (by simp [hc])
    have hs : q.char ∉ s := fun hs => h (by simp [hs])
    simp [formulationBody, hc, ih hs]

/-- A plain argument goes on over all separators inside brackets, and stops at the first one
outside. -/
theorem plainText_append (stack : List Bracket) {s : List Char}
    (h : ∀ u c t, s = u ++ c :: t → u.foldl Bracket.track stack = [] → c ≠ ',' ∧ c ≠ '\n')
    (hs : s.foldl Bracket.track stack = []) {c : Char} (hc : c = ',' ∨ c = '\n') (t : List Char) :
    plainText stack (s ++ c :: t) = s := by
  induction s generalizing stack with
  | nil =>
    obtain rfl : stack = [] := hs
    simp [plainText, hc]
  | cons d s ih =>
    have hd : stack = [] → d ≠ ',' ∧ d ≠ '\n' := h [] d s rfl
    have hrest := ih (Bracket.track stack d)
      (fun u e v he => h (d :: u) e v (congrArg (d :: ·) he)) hs
    cases stack with
    | nil => simp [plainText, hd, hrest]
    | cons b stack => simp [plainText, hrest]

end SectionLexer.Literal
