import SectionLexer.Document
import SectionLexer.Piece.OfText
import SectionLexer.Proofs.Enclosed

/-! What a stretch of text is cut into, whatever follows it. -/
namespace SectionLexer.Piece

variable {m m' m'' : Mode} {s t u : List Char} {cs ds : List (Kind × List Char)}

/-- Read in mode `m`, the text `s` is cut into pieces that hold `cs` and that nothing is wrong with.
The text `t` behind it is read in mode `m'`. -/
def Yields (m : Mode) (s : List Char) (cs : List (Kind × List Char)) (m' : Mode)
    (t : List Char) : Prop :=
  ∃ xs, cut m 0 (s ++ t) = xs ++ cut m' 0 t ∧ (∀ x ∈ xs, ∀ p, x.complaint? p = none) ∧
    xs.filterMap content? = cs

theorem Yields.nil : Yields m [] [] m t := ⟨[], rfl, by simp, rfl⟩

/-- What is read one after the other. -/
theorem Yields.trans (h : Yields m s cs m' (u ++ t)) (h' : Yields m' u ds m'' t) :
    Yields m (s ++ u) (cs ++ ds) m'' t := by
  obtain ⟨xs, hx, hxc, rfl⟩ := h
  obtain ⟨ys, hy, hyc, rfl⟩ := h'
  refine ⟨xs ++ ys, ?_, ?_, by simp⟩
  · rw [List.append_assoc, hx, hy, List.append_assoc]
  · intro x hmem p
    rcases List.mem_append.1 hmem with h | h
    · exact hxc x h p
    · exact hyc x h p

/-- A text that is one piece. -/
theorem Yields.piece {c : Char} {x : Piece} (hr : read m c (s ++ t) = (x, m'))
    (hs : x.spelling = c :: s) (hc : ∀ p, x.complaint? p = none) :
    Yields m (c :: s) x.content?.toList m' t := by
  refine ⟨[x], ?_, by simpa using hc, ?_⟩
  · have hd : (c :: (s ++ t)).drop (c :: s).length = t := by simp
    rw [List.cons_append, cut_cons, hr, hs, hd]
    rfl
  · cases h : x.content? <;> simp [h]

theorem newline_yields (m : Mode) (t : List Char) :
    Yields m ['\n'] [(.newline, ['\n'])] (.line true) t := by
  apply Yields.piece (x := newline) _ rfl (fun _ => rfl)
  cases m <;> rfl

/-- Spaces at the start of a line that goes on. -/
theorem spaces_yields (n : Nat) {c : Char} (hc : c ≠ ' ' ∧ c ≠ '\n') (t : List Char) :
    Yields (.line true) (List.replicate n ' ') (List.replicate n (.space, [' '])) (.line true)
      (c :: t) := by
  induction n with
  | zero => exact .nil
  | succ n ih =>
    have hb : blankAhead (List.replicate n ' ' ++ c :: t) = false := by
      simp [blankAhead, hc]
    have hs : Yields (.line true) [' '] [(.space, [' '])] (.line true)
        (List.replicate n ' ' ++ c :: t) :=
      Yields.piece (x := space) (by simp [read, lexeme, Lexeme.first?, hb]) rfl fun _ => rfl
    exact hs.trans ih

/-! Section headers. -/

theorem first?_name (n : SectionName) (ht : ∀ c ∈ t.head?, isNameCharacter c = false) :
    Lexeme.first? (n.chars ++ t) = some (.name, n.chars) := by
  have hw : (n.more ++ t).takeWhile isNameCharacter = n.more := by
    rw [List.takeWhile_append_of_pos n.isNameCharacter_of_mem_more]
    cases t with
    | nil => simp
    | cons c t => simp [ht c (by simp)]
  have hl := n.isLetter_first
  unfold Lexeme.first? SectionName.chars
  split <;> simp_all <;> revert hl <;> decide

theorem first?_colon (ht : t.head? ≠ some ':') :
    Lexeme.first? (':' :: t) = some (.colon, [':']) := by
  cases t with
  | nil => rfl
  | cons c t =>
    have hc : c ≠ ':' := by simpa using ht
    simp [Lexeme.first?, Lexeme.mark, hc]

theorem eq_colon_of_first? {w : List Char} (h : Lexeme.first? s = some (.colon, w)) :
    ∃ t, s = ':' :: t ∧ t.head? ≠ some ':' := by
  unfold Lexeme.first? at h
  split at h
  case h_3 t hne =>
    refine ⟨t, rfl, fun he => ?_⟩
    cases t with
    | nil => simp at he
    | cons d t =>
      obtain rfl : d = ':' := by simpa using he
      exact hne t rfl
  case h_8 => split at h <;> cases h
  all_goals cases h

theorem drop_length_takeWhile (p : Char → Bool) (s : List Char) :
    s.drop (s.takeWhile p).length = s.dropWhile p := by
  have hs : s.takeWhile p ++ s.dropWhile p = s := List.takeWhile_append_dropWhile
  have hdrop : (s.takeWhile p ++ s.dropWhile p).drop (s.takeWhile p).length = s.dropWhile p :=
    List.drop_left
  rwa [hs] at hdrop

theorem startsWithHeader_of_headerAhead (h : Lexeme.headerAhead s = true) :
    StartsWithHeader s := by
  unfold Lexeme.headerAhead at h
  split at h
  · next w hw =>
    obtain ⟨c, t, rfl, hc, rfl⟩ := Lexeme.first?_eq_name hw
    let n : SectionName :=
      ⟨c, t.takeWhile isNameCharacter, hc, List.all_eq_true.1 List.all_takeWhile⟩
    split at h
    · next v hv =>
      obtain ⟨u, hu, hne⟩ := eq_colon_of_first? hv
      have hcolon : t.dropWhile isNameCharacter = ':' :: u := by
        rw [← drop_length_takeWhile]
        simpa using hu
      exact ⟨n, u, by simp [n, SectionName.chars, ← hcolon], hne⟩
    · cases h
  · cases h

/-- What a dot looks ahead for: a name with a colon right behind it. -/
theorem headerAhead_iff : Lexeme.headerAhead s = true ↔ StartsWithHeader s := by
  refine ⟨startsWithHeader_of_headerAhead, ?_⟩
  rintro ⟨n, t, rfl, ht⟩
  have hn : Lexeme.first? (n.chars ++ ':' :: t) = some (.name, n.chars) :=
    first?_name n (by simp; decide)
  simp [Lexeme.headerAhead, hn, first?_colon ht]

theorem name_yields (n : SectionName) (start : Bool) (t : List Char) :
    Yields (.line start) n.chars [(.name, n.chars)] (.line false) (':' :: t) := by
  have hn : Lexeme.first? (n.chars ++ ':' :: t) = some (.name, n.chars) :=
    first?_name n (by simp; decide)
  apply Yields.piece (x := name n.chars) _ rfl (fun _ => rfl)
  simp only [SectionName.chars, List.cons_append] at hn
  simp [read, lexeme, hn]
  rfl

theorem colon_yields (start : Bool) (ht : t.head? ≠ some ':') :
    Yields (.line start) [':'] [(.colon, [':'])] (.argument true) t := by
  apply Yields.piece (x := colon) _ rfl (fun _ => rfl)
  simp [read, lexeme, first?_colon ht]

theorem dot_yields (start : Bool) (t : List Char) :
    Yields (.line start) ['.', ' '] [(.dotSpace, ['.', ' '])]
      (if Lexeme.headerAhead t then .line false else .argument true) t :=
  Yields.piece (x := dotSpace) rfl rfl fun _ => rfl

/-! Arguments. -/

theorem trimRight_eq_self (h : s.getLast? ≠ some ' ') : trimRight s = s := by
  have hr : s.reverse.dropWhile (· == ' ') = s.reverse := by
    cases hs : s.reverse with
    | nil => rfl
    | cons c u =>
      have hc : c ≠ ' ' := by
        rintro rfl
        exact h (by rw [← List.head?_reverse, hs, List.head?_cons])
      simp [hc]
  rw [trimRight, hr, List.reverse_reverse]

theorem quoted_read (fresh : Bool) (h : s.getLast? ≠ some '\\') (t : List Char) :
    read (.argument fresh) '"' (Literal.escape s ++ '"' :: t) =
      (text (Literal.escape s) true, .separator true) := by
  simp [read, argument, Literal.rawText_escape h]

theorem formulation_read (fresh : Bool) (q : Quote) (h : q.char ∉ s) (t : List Char) :
    read (.argument fresh) q.char (s ++ q.char :: t) =
      (formulation q s true, .separator true) := by
  have hb : argument q.char (s ++ q.char :: t) = formulation q s true := by
    have hq : q.char ≠ '"' := by cases q <;> decide
    simp [argument, hq, Quote.ofChar?_char, Literal.formulationBody_append h]
  cases q <;> simp_all [read, Quote.char]

/-- A plain argument goes on up to its own end, whatever stands behind it. -/
theorem plain_read_of_notMem (fresh : Bool) {c : Char} (hc : c ∉ plainBarriers) (s : List Char) :
    read (.argument fresh) c s = (plain (Literal.plainText [] (c :: s)), .separator true) := by
  simp only [plainBarriers, Quote.char, List.mem_cons, List.not_mem_nil, or_false, not_or] at hc
  obtain ⟨hspace, hcomma, hnewline, hquote, hsingle, hback⟩ := hc
  simp [read, argument, Quote.ofChar?, hspace, hcomma, hnewline, hquote, hsingle, hback]

theorem plain_read (fresh : Bool) (a : PlainText) {c : Char} (hs : a.chars = c :: s) {d : Char}
    (hd : d = ',' ∨ d = '\n') (t : List Char) :
    read (.argument fresh) c (s ++ d :: t) = (plain a.chars, .separator true) := by
  have hend := Literal.plainText_append [] a.separator_nested a.openAfter_chars hd t
  rw [hs, List.cons_append, ← hs] at hend
  rw [plain_read_of_notMem fresh (a.head_notMem c (by simp [hs])), hend]

theorem argument_yields (a : Argument) (fresh : Bool) {c : Char} (hc : c = ',' ∨ c = '\n')
    (t : List Char) :
    Yields (.argument fresh) a.spelling [a.content] (.separator true) (c :: t) := by
  cases a with
  | text s h =>
    have := Yields.piece (x := text (Literal.escape s) true) (s := Literal.escape s ++ ['"'])
      (by simpa using quoted_read fresh h (c :: t)) (by simp [spelling, ending])
      (fun _ => rfl)
    simpa [Argument.spelling, Argument.content, content?, Literal.unescape_escape] using this
  | formulation q s h =>
    exact Yields.piece (x := formulation q s true) (s := s ++ [q.char])
      (by simpa using formulation_read fresh q h (c :: t)) (by simp [spelling, ending])
      (fun _ => rfl)
  | plain a =>
    obtain ⟨d, s, hs⟩ : ∃ d s, a.chars = d :: s := List.exists_cons_of_ne_nil a.chars_ne_nil
    have := Yields.piece (x := plain a.chars) (plain_read fresh a hs hc t) hs (fun p => by
      simp [complaint?, a.openAfter_chars, trimRight_eq_self a.last_ne_space])
    simpa [Argument.spelling, Argument.content, content?, ← hs] using this

theorem spelling_head_ne (a : Argument) :
    ∃ c s, a.spelling = c :: s ∧ c ≠ ' ' ∧ c ≠ '\n' := by
  cases a with
  | text s => exact ⟨'"', _, rfl, by decide, by decide⟩
  | formulation q s => exact ⟨q.char, _, rfl, by cases q <;> decide, by cases q <;> decide⟩
  | plain a =>
    obtain ⟨d, s, hs⟩ : ∃ d s, a.chars = d :: s := List.exists_cons_of_ne_nil a.chars_ne_nil
    have hd := a.head_notMem d (by simp [hs])
    simp [plainBarriers] at hd
    exact ⟨d, s, hs, hd.1, hd.2.2.1⟩

/-- The space between a mark and an argument. -/
theorem gap_yields (fresh : Bool) {c : Char} (hc : c ≠ ' ' ∧ c ≠ '\n') (t : List Char) :
    Yields (.argument fresh) [' '] [] (.argument false) (c :: t) :=
  Yields.piece (x := gap false) (by simp [read, blankAhead, hc]) rfl fun _ => rfl

theorem comma_yields (t : List Char) :
    Yields (.separator true) [','] [(.comma, [','])] (.argument true) t :=
  Yields.piece (x := comma false) rfl rfl fun _ => rfl

/-- The space in front of arguments. -/
theorem gap_spellings_yields (fresh : Bool) (a : Argument) (as : List Argument) (t : List Char) :
    Yields (.argument fresh) [' '] [] (.argument false) (Argument.spellings a as ++ t) := by
  obtain ⟨c, s, hs, hc⟩ := spelling_head_ne a
  simpa [Argument.spellings, hs] using gap_yields fresh hc _

/-- Arguments up to the end of their line. -/
theorem spellings_yields (a : Argument) (as : List Argument) (fresh : Bool) (t : List Char) :
    Yields (.argument fresh) (Argument.spellings a as) (Argument.contents a as) (.separator true)
      ('\n' :: t) := by
  induction as generalizing a fresh with
  | nil => simpa [Argument.spellings, Argument.contents] using argument_yields a fresh (.inr rfl) t
  | cons b as ih =>
    have hgap := gap_spellings_yields true b as ('\n' :: t)
    have hrest := (comma_yields _).trans (hgap.trans (ih b false))
    have ha := argument_yields a fresh (.inl rfl) (' ' :: (Argument.spellings b as ++ '\n' :: t))
    have hall := Yields.trans (by simpa using ha) hrest
    simpa [Argument.spellings, Argument.contents] using hall

/-- The rest of a section's first line. -/
theorem inline_yields (as : List Argument) (t : List Char) :
    ∃ m, Yields (.argument true) (Argument.inlineSpellings as) (Argument.inlineContents as) m
      ('\n' :: t) := by
  cases as with
  | nil => exact ⟨_, .nil⟩
  | cons a as =>
    have hgap := gap_spellings_yields true a as ('\n' :: t)
    exact ⟨_, hgap.trans (spellings_yields a as false t)⟩

end SectionLexer.Piece
