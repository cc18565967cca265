/-! The characters that enclose literals and nest inside plain arguments. -/
namespace SectionLexer

/-- The brackets that nest inside a plain argument. -/
inductive Bracket where
  | round
  | square
  | curly
deriving DecidableEq, Repr

namespace Bracket

def opener : Bracket → Char
  | round => '('
  | square => '['
  | curly => '{'

def closer : Bracket → Char
  | round => ')'
  | square => ']'
  | curly => '}'

def ofOpener? (c : Char) : Option Bracket :=
  if c = '(' then some round else if c = '[' then some square
  else if c = '{' then some curly else none

def ofCloser? (c : Char) : Option Bracket :=
  if c = ')' then some round else if c = ']' then some square
  else if c = '}' then some curly else none

theorem ofOpener?_opener (b : Bracket) : ofOpener? b.opener = some b := by cases b <;> decide

theorem ofCloser?_closer (b : Bracket) : ofCloser? b.closer = some b := by cases b <;> decide

/-- The open brackets after one more character, innermost first. A closer that does not match the
innermost open bracket is an ordinary character. -/
def track (stack : List Bracket) (c : Char) : List Bracket :=
  match ofOpener? c with
  | some b => b :: stack
  | none =>
    match ofCloser? c, stack with
    | some b, top :: below => if b = top then below else stack
    | _, _ => stack

/-- The brackets left open by a text, innermost first. -/
def openAfter (s : List Char) : List Bracket := s.foldl track []

end Bracket

/-- The quotes of a formulation. -/
inductive Quote where
  | single
  | back
deriving DecidableEq, Repr

namespace Quote

def char : Quote → Char
  | single => '\''
  | back => '\x60'

def ofChar? (c : Char) : Option Quote :=
  if c = '\'' then some single else if c = '\x60' then some back else none

theorem ofChar?_char (q : Quote) : ofChar? q.char = some q := by cases q <;> decide

theorem eq_char_of_ofChar? {c : Char} {q : Quote} (h : ofChar? c = some q) : c = q.char := by
  unfold ofChar? at h
  split at h
  · cases h
    assumption
  · split at h <;> cases h
    assumption

end Quote

/-- What may be left without its end. -/
inductive Enclosure where
  | text
  | formulation (quote : Quote)
  | textBlock
  | id
  | bracket (bracket : Bracket)
deriving DecidableEq, Repr

/-- What ends the enclosure. -/
def Enclosure.terminator : Enclosure → String
  | text => "\""
  | formulation q => q.char.toString
  | textBlock => "::"
  | id => "]"
  | bracket b => b.closer.toString

end SectionLexer
