import SectionLexer.Lexeme
import SectionLexer.Piece

/-! A text cut into pieces. Nothing is lost: the pieces spell the text. -/
namespace SectionLexer

/-- What may stand at a point of a line. -/
inductive Mode where
  /-- A lexeme; at the `start` of a line nothing but spaces stands before it. -/
  | line (start : Bool)
  /-- An argument; `fresh` right behind the mark that asks for it. -/
  | argument (fresh : Bool)
  /-- What follows an argument; `fresh` right behind it. -/
  | separator (fresh : Bool)
deriving DecidableEq, Repr

/-- Whether nothing but spaces stands before the end of the line. -/
def blankAhead (s : List Char) : Bool :=
  match s.dropWhile (· == ' ') with
  | [] => true
  | c :: _ => c == '\n'

namespace Piece

/-- The argument that starts with `c`, which is neither a space nor a separator. -/
def argument (c : Char) (s : List Char) : Piece :=
  if c = '"' then text (Literal.rawText s).1 (Literal.rawText s).2
  else
    match Quote.ofChar? c with
    | some q => formulation q (Literal.formulationBody q s).1 (Literal.formulationBody q s).2
    | none => plain (Literal.plainText [] (c :: s))

/-- The piece of a line that starts with `c`, where a lexeme may stand. -/
def lexeme (start : Bool) (c : Char) (s : List Char) : Piece × Mode :=
  match Lexeme.first? (c :: s) with
  | some (.name, word) => (name word, .line false)
  | some (.colon, _) => (colon, .argument true)
  | some (.dotSpace, _) =>
    (dotSpace, if Lexeme.headerAhead (s.drop 1) then .line false else .argument true)
  | some (.textBlockMarker, _) =>
    (textBlock (Literal.blockBody (s.drop 1)).1 (Literal.blockBody (s.drop 1)).2, .line false)
  | some (.openBracket, _) => (id (Literal.idBody 0 s).1 (Literal.idBody 0 s).2, .line false)
  | some (.newline, _) => (newline, .line true)
  | some (.space, _) =>
    if start && !blankAhead s then (space, .line true) else (gap false, .line start)
  | none => (unrecognized c, .line false)

/-- The piece that starts with `c`, and what may stand behind it. -/
def read (m : Mode) (c : Char) (s : List Char) : Piece × Mode :=
  match m with
  | .line start => lexeme start c s
  | .argument fresh =>
    if c = '\n' then (newline, .line true)
    else if c = ' ' then (gap (fresh && blankAhead s), .argument false)
    else if c = ',' then (comma true, .argument true)
    else (argument c s, .separator true)
  | .separator fresh =>
    if c = '\n' then (newline, .line true)
    else if c = ' ' then (gap (fresh && blankAhead s), .separator false)
    else if c = ',' then (comma false, .argument true)
    else (skipped (c :: s.takeWhile (· ≠ '\n')), .line false)

/-- The pieces of a text whose first `skip` characters belong to a piece before it. -/
def cut (m : Mode) : (skip : Nat) → List Char → List Piece
  | _, [] => []
  | skip + 1, _ :: s => cut m skip s
  | 0, c :: s => (read m c s).1 :: cut (read m c s).2 ((read m c s).1.spelling.length - 1) s

/-- The pieces of a text. -/
def ofText (s : List Char) : List Piece := cut (.line true) 0 s

theorem argument_split (c : Char) (s : List Char) (h : c ≠ ',' ∧ c ≠ '\n') :
    (argument c s).spelling ≠ [] ∧ ∃ t, c :: s = (argument c s).spelling ++ t := by
  unfold argument
  split
  · subst c
    obtain ⟨t, ht⟩ := Literal.rawText_split s
    exact ⟨by simp [spelling], t, congrArg ('"' :: ·) ht⟩
  · split
    · rename_i q hq
      obtain ⟨t, ht⟩ := Literal.formulationBody_split q s
      obtain rfl := Quote.eq_char_of_ofChar? hq
      exact ⟨by simp [spelling], t, congrArg (q.char :: ·) ht⟩
    · obtain ⟨t, ht⟩ := Literal.plainText_split [] (c :: s)
      exact ⟨by simp [spelling, Literal.plainText, h], t, ht⟩

theorem lexeme_split (start : Bool) (c : Char) (s : List Char) :
    (lexeme start c s).1.spelling ≠ [] ∧ ∃ t, c :: s = (lexeme start c s).1.spelling ++ t := by
  unfold lexeme
  split
  · rename_i h
    obtain ⟨_, t, ht, _, hw⟩ := Lexeme.first?_eq_name h
    cases ht
    exact ⟨by simp [spelling, hw], s.dropWhile isNameCharacter, by simp [spelling, hw]⟩
  all_goals try (rename_i h; obtain ⟨rfl, t, ht⟩ := Lexeme.first?_eq_mark h (by decide); cases ht)
  · exact ⟨by simp [spelling], _, rfl⟩
  · exact ⟨by simp [spelling], t, rfl⟩
  · obtain ⟨u, hu⟩ := Literal.blockBody_split t
    exact ⟨by simp [spelling], u, congrArg ([':', ':'] ++ ·) hu⟩
  · obtain ⟨u, hu⟩ := Literal.idBody_split 0 t
    exact ⟨by simp [spelling], u, congrArg ('[' :: ·) hu⟩
  · exact ⟨by simp [spelling], _, rfl⟩
  · split <;> exact ⟨by simp [spelling], _, rfl⟩
  · exact ⟨by simp [spelling], s, rfl⟩

/-- A piece is spelled as the text it is read from starts, and is not empty. -/
theorem read_split (m : Mode) (c : Char) (s : List Char) :
    (read m c s).1.spelling ≠ [] ∧ ∃ t, c :: s = (read m c s).1.spelling ++ t := by
  cases m with
  | line start => exact lexeme_split start c s
  | argument fresh =>
    simp only [read]
    split
    · exact ⟨by simp [spelling], s, by simp [spelling, *]⟩
    · split
      · exact ⟨by simp [spelling], s, by simp [spelling, *]⟩
      · split
        · exact ⟨by simp [spelling], s, by simp [spelling, *]⟩
        · rename_i hn hs hc
          exact argument_split c s ⟨hc, hn⟩
  | separator fresh =>
    simp only [read]
    split
    · exact ⟨by simp [spelling], s, by simp [spelling, *]⟩
    · split
      · exact ⟨by simp [spelling], s, by simp [spelling, *]⟩
      · split
        · exact ⟨by simp [spelling], s, by simp [spelling, *]⟩
        · exact ⟨by simp [spelling], s.dropWhile (· ≠ '\n'), by simp [spelling]⟩

theorem cut_skip (m : Mode) (n : Nat) (s : List Char) : cut m n s = cut m 0 (s.drop n) := by
  induction s generalizing n with
  | nil => cases n <;> rfl
  | cons c s ih =>
    cases n with
    | zero => rfl
    | succ n => exact ih n

/-- One step of the cut: the piece that is read, then the pieces of what is left. -/
theorem cut_cons (m : Mode) (c : Char) (s : List Char) :
    cut m 0 (c :: s) = (read m c s).1 ::
      cut (read m c s).2 0 ((c :: s).drop (read m c s).1.spelling.length) := by
  obtain ⟨hne, _⟩ := read_split m c s
  obtain ⟨n, hn⟩ : ∃ n, (read m c s).1.spelling.length = n + 1 :=
    ⟨_, (Nat.succ_pred (by simpa using hne)).symm⟩
  rw [cut, cut_skip, hn]
  rfl

theorem spell_cut (m : Mode) (s : List Char) : spell (cut m 0 s) = s := by
  match s with
  | [] => rfl
  | c :: s =>
    obtain ⟨hne, t, ht⟩ := read_split m c s
    have hd : (c :: s).drop (read m c s).1.spelling.length = t := by
      conv => lhs; rw [ht]
      simp
    have hlt : t.length < (c :: s).length := by
      rw [ht, List.length_append]
      have := List.length_pos_iff.2 hne
      omega
    rw [cut_cons, hd, spell_cons, spell_cut (read m c s).2 t]
    exact ht.symm
termination_by s.length
decreasing_by exact hlt

/-- Nothing of a text is lost. -/
theorem spell_ofText (s : List Char) : spell (ofText s) = s := spell_cut _ s

end Piece

end SectionLexer
