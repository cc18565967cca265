import SectionLexer.Delimiter

/-! Where literals end. Each function reads a text that starts behind the opening delimiter, and
tells what the literal holds and whether its closing delimiter follows. -/
namespace SectionLexer.Literal

/-- A quoted text ends at the first double quote that no backslash precedes. A backslash before a
double quote is part of the quote's spelling, any other stands for itself. -/
def rawText : List Char → List Char × Bool
  | [] => ([], false)
  | '"' :: _ => ([], true)
  | '\\' :: '"' :: s => (rawText s).map ('\\' :: '"' :: ·) id
  | c :: s => (rawText s).map (c :: ·) id

/-- What a quoted text stands for. -/
def unescape : List Char → List Char
  | [] => []
  | '\\' :: '"' :: s => '"' :: unescape s
  | c :: s => c :: unescape s

/-- How a quoted text is spelled: a backslash before every double quote. -/
def escape : List Char → List Char
  | [] => []
  | '"' :: s => '\\' :: '"' :: escape s
  | c :: s => c :: escape s

/-- A formulation ends at the next quote of its own kind. -/
def formulationBody (q : Quote) : List Char → List Char × Bool
  | [] => ([], false)
  | c :: s => if c = q.char then ([], true)
    else (formulationBody q s).map (c :: ·) id

/-- A text block ends at the first two colons, a colon behind a backslash not counted. -/
def blockBody : List Char → List Char × Bool
  | [] => ([], false)
  | ':' :: ':' :: _ => ([], true)
  | '\\' :: ':' :: s => (blockBody s).map ('\\' :: ':' :: ·) id
  | c :: s => (blockBody s).map (c :: ·) id

/-- An id ends at the bracket that balances its own, `depth` brackets being open inside it, and at
the latest before the line end. -/
def idBody (depth : Nat) : List Char → List Char × Bool
  | [] => ([], false)
  | c :: s =>
    if c = '\n' then ([], false)
    else if c = '[' then (idBody (depth + 1) s).map (c :: ·) id
    else if c = ']' then
      match depth with
      | 0 => ([], true)
      | depth + 1 => (idBody depth s).map (c :: ·) id
    else (idBody depth s).map (c :: ·) id

/-- A plain argument ends before the first comma or line end outside of brackets. -/
def plainText (stack : List Bracket) : List Char → List Char
  | [] => []
  | c :: s => if stack.isEmpty && (c == ',' || c == '\n') then []
    else c :: plainText (Bracket.track stack c) s

/-- A literal up to its end, with the closing delimiter if it has one, starts what it was read
from. -/
theorem rawText_split (s : List Char) :
    ∃ t, s = (rawText s).1 ++ (if (rawText s).2 then ['"'] else []) ++ t := by
  fun_induction rawText s with
  | case1 => exact ⟨[], rfl⟩
  | case2 t => exact ⟨t, rfl⟩
  | case3 s ih =>
    obtain ⟨t, ht⟩ := ih
    exact ⟨t, by simpa using ht⟩
  | case4 c s _ _ ih =>
    obtain ⟨t, ht⟩ := ih
    exact ⟨t, by simpa using ht⟩

theorem formulationBody_split (q : Quote) (s : List Char) :
    ∃ t, s = (formulationBody q s).1 ++
      (if (formulationBody q s).2 then [q.char] else []) ++ t := by
  induction s with
  | nil => exact ⟨[], rfl⟩
  | cons c s ih =>
    obtain ⟨t, ht⟩ := ih
    by_cases h : c = q.char
    · exact ⟨s, by simp [formulationBody, h]⟩
    · exact ⟨t, by simpa [formulationBody, h] using ht⟩

theorem blockBody_split (s : List Char) :
    ∃ t, s = (blockBody s).1 ++ (if (blockBody s).2 then [':', ':'] else []) ++ t := by
  fun_induction blockBody s with
  | case1 => exact ⟨[], rfl⟩
  | case2 t => exact ⟨t, rfl⟩
  | case3 s ih =>
    obtain ⟨t, ht⟩ := ih
    exact ⟨t, by simpa using ht⟩
  | case4 c s _ _ ih =>
    obtain ⟨t, ht⟩ := ih
    exact ⟨t, by simpa using ht⟩

theorem idBody_split (depth : Nat) (s : List Char) :
    ∃ t, s = (idBody depth s).1 ++ (if (idBody depth s).2 then [']'] else []) ++ t := by
  induction s generalizing depth with
  | nil => exact ⟨[], rfl⟩
  | cons c s ih =>
    unfold idBody
    split
    · exact ⟨c :: s, rfl⟩
    · split
      · obtain ⟨t, ht⟩ := ih (depth + 1)
        exact ⟨t, by simpa using ht⟩
      · split
        · rename_i h
          subst h
          cases depth with
          | zero => exact ⟨s, rfl⟩
          | succ depth =>
            obtain ⟨t, ht⟩ := ih depth
            exact ⟨t, by simpa using ht⟩
        · obtain ⟨t, ht⟩ := ih depth
          exact ⟨t, by simpa using ht⟩

theorem plainText_split (stack : List Bracket) (s : List Char) :
    ∃ t, s = plainText stack s ++ t := by
  induction s generalizing stack with
  | nil => exact ⟨[], rfl⟩
  | cons c s ih =>
    unfold plainText
    split
    · exact ⟨c :: s, rfl⟩
    · obtain ⟨t, ht⟩ := ih (Bracket.track stack c)
      exact ⟨t, by simpa using ht⟩

end SectionLexer.Literal
