import SectionLexer.Character.Letter
import SectionLexer.Character.Number

/-! The lexemes that a line is made of outside of arguments and enclosed literals. -/
namespace SectionLexer

inductive Lexeme where
  | name
  | textBlockMarker
  | colon
  | dotSpace
  | openBracket
  | newline
  | space
deriving DecidableEq, Repr

/-- What a name goes on with after its first letter. -/
def isNameCharacter (c : Char) : Bool := isLetter c || isNumber c

namespace Lexeme

def label : Lexeme → String
  | name => "Name"
  | textBlockMarker => "TextBlockMarker"
  | colon => "Colon"
  | dotSpace => "DotSpace"
  | openBracket => "OpenBracket"
  | newline => "Newline"
  | space => "Space"

/-- How a lexeme other than a name is spelled. -/
def mark : Lexeme → List Char
  | name => []
  | textBlockMarker => [':', ':']
  | colon => [':']
  | dotSpace => ['.', ' ']
  | openBracket => ['[']
  | newline => ['\n']
  | space => [' ']

/-- The longest lexeme a text starts with, and its spelling. -/
def first? : List Char → Option (Lexeme × List Char)
  | [] => none
  | ':' :: ':' :: _ => some (textBlockMarker, textBlockMarker.mark)
  | ':' :: _ => some (colon, colon.mark)
  | '.' :: ' ' :: _ => some (dotSpace, dotSpace.mark)
  | '[' :: _ => some (openBracket, openBracket.mark)
  | '\n' :: _ => some (newline, newline.mark)
  | ' ' :: _ => some (space, space.mark)
  | c :: s => if isLetter c then some (name, c :: s.takeWhile isNameCharacter) else none

theorem first?_eq_mark {s w : List Char} {l : Lexeme} (h : first? s = some (l, w))
    (hl : l ≠ name) : w = l.mark ∧ ∃ t, s = w ++ t := by
  unfold first? at h
  split at h
  all_goals try (cases h; exact ⟨rfl, _, rfl⟩)
  · cases h
  · split at h <;> cases h
    exact absurd rfl hl

theorem first?_eq_name {s w : List Char} (h : first? s = some (name, w)) :
    ∃ c t, s = c :: t ∧ isLetter c ∧ w = c :: t.takeWhile isNameCharacter := by
  unfold first? at h
  split at h
  all_goals try cases h
  split at h <;> cases h
  exact ⟨_, _, rfl, by assumption, rfl⟩

/-- Whether a text starts with a section header: a name and, right after it, a colon. -/
def headerAhead (s : List Char) : Bool :=
  match first? s with
  | some (name, word) =>
    match first? (s.drop word.length) with
    | some (colon, _) => true
    | _ => false
  | _ => false

end Lexeme

end SectionLexer
