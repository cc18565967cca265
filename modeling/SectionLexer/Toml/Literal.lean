import SectionLexer.Settings.Value

/-! Strings and numbers of TOML. Each function reads from the start of a text and gives the rest. -/
namespace SectionLexer.Toml

open Settings

def isBlank (c : Char) : Bool := c = ' ' || c = '\t'

def skipBlanks (s : List Char) : List Char := s.dropWhile isBlank

/-- Everything but control characters may stand in strings and comments, and so may the tab. -/
def isPlain (c : Char) : Bool := c = '\t' || (0x20 ≤ c.toNat && c.toNat ≠ 0x7F)

/-- What follows the line end at the start of a text. -/
def newline : List Char → Option (List Char)
  | '\n' :: s | '\r' :: '\n' :: s => some s
  | _ => none

/-- A kind of string: how it ends, with the quotes that still belong to it, and how a part of it
spells characters. -/
structure Quoting where
  close : List Char → Option (List Char × List Char)
  unit : List Char → Option (List Char × List Char)

namespace Quoting

/-- Reads up to the end of a string, which has at most as many parts as characters. -/
def body (q : Quoting) : Nat → List Char → Option (List Char × List Char)
  | 0, _ => none
  | n + 1, s =>
    match q.close s with
    | some last => some last
    | none => do
      let (t, s) ← q.unit s
      let (ts, s) ← q.body n s
      return (t ++ ts, s)

def read (q : Quoting) (s : List Char) : Option (String × List Char) :=
  (q.body (s.length + 1) s).map fun (t, s) => (String.ofList t, s)

/-- One quote ends a string on one line. -/
def closeOne (quote : Char) : List Char → Option (List Char × List Char)
  | c :: s => if c = quote then some ([], s) else none
  | [] => none

/-- Three quotes end a string on several lines. Up to two more before them belong to it. -/
def closeThree (quote : Char) (s : List Char) : Option (List Char × List Char) :=
  let count := min (s.takeWhile (· == quote)).length 5
  if 3 ≤ count then some (List.replicate (count - 3) quote, s.drop count) else none

/-- A character as it is. -/
def plain : List Char → Option (List Char × List Char)
  | c :: s => if isPlain c then some ([c], s) else none
  | [] => none

/-- A line end counts as one character however it is written. -/
def plainOrNewline (s : List Char) : Option (List Char × List Char) :=
  match newline s with
  | some s => some (['\n'], s)
  | none => plain s

def isHexDigit (c : Char) : Bool :=
  c.isDigit || ('a' ≤ c && c ≤ 'f') || ('A' ≤ c && c ≤ 'F')

/-- A character given by exactly `count` hexadecimal digits. -/
def codePoint (count : Nat) (s : List Char) : Option (List Char × List Char) :=
  let ds := s.take count
  let n := Decimal.digitsValue 16 ds
  if ds.length = count ∧ ds.all isHexDigit ∧ n.isValidChar then
    some ([Char.ofNat n], s.drop count)
  else none

/-- What follows a backslash. -/
def escape : List Char → Option (List Char × List Char)
  | 'b' :: s => some (['\x08'], s)
  | 't' :: s => some (['\t'], s)
  | 'n' :: s => some (['\n'], s)
  | 'f' :: s => some (['\x0c'], s)
  | 'r' :: s => some (['\r'], s)
  | '"' :: s => some (['"'], s)
  | '\\' :: s => some (['\\'], s)
  | 'u' :: s => codePoint 4 s
  | 'U' :: s => codePoint 8 s
  | _ => none

/-- Blanks and line ends, skipped. -/
def skipLines : List Char → List Char
  | ' ' :: s | '\t' :: s | '\n' :: s | '\r' :: '\n' :: s => skipLines s
  | s => s

/-- A backslash at the end of a line hides the line end and the blank lines after it. -/
def escapeOrLine (s : List Char) : Option (List Char × List Char) :=
  match newline (skipBlanks s) with
  | some s => some ([], skipLines s)
  | none => escape s

def basic : Quoting where
  close := closeOne '"'
  unit
    | '\\' :: s => escape s
    | s => plain s

def literal : Quoting where
  close := closeOne '\''
  unit := plain

def basicLines : Quoting where
  close := closeThree '"'
  unit
    | '\\' :: s => escapeOrLine s
    | s => plainOrNewline s

def literalLines : Quoting where
  close := closeThree '\''
  unit := plainOrNewline

/-- A line end right behind the opening quotes does not belong to the string. -/
def readLines (q : Quoting) (s : List Char) : Option (String × List Char) :=
  q.read ((newline s).getD s)

end Quoting

/-- Digits in groups: no underscore at an end, and no two together. -/
def grouped : List Char → Bool
  | [] => false
  | '_' :: _ => false
  | [_] => true
  | _ :: '_' :: s => grouped s
  | _ :: c :: s => grouped (c :: s)

/-- Digits of a class with underscores between them, which are left out. -/
def digitGroups (isDigit : Char → Bool) (s : List Char) : Option (List Char × List Char) :=
  let isPart (c : Char) : Bool := isDigit c || c = '_'
  let ds := s.takeWhile isPart
  if grouped ds then some (ds.filter isDigit, s.dropWhile isPart) else none

/-- Digits without a zero in front of others. -/
def wholeDigits (s : List Char) : Option (List Char × List Char) := do
  let (ds, s) ← digitGroups Char.isDigit s
  if ds.head? = some '0' ∧ ds ≠ ['0'] then none else return (ds, s)

/-- The part behind a point; without a point there is none. -/
def fraction : List Char → Option (Option (List Char) × List Char)
  | '.' :: s => (digitGroups Char.isDigit s).map fun (ds, s) => (some ds, s)
  | s => some (none, s)

/-- The power of ten, if there is one. -/
def exponent : List Char → Option (Option Int × List Char)
  | c :: s =>
    if c = 'e' ∨ c = 'E' then do
      let (negative, s) := Decimal.sign s
      let (ds, s) ← digitGroups Char.isDigit s
      let n : Int := Decimal.digitsValue 10 ds
      return (some (if negative then -n else n), s)
    else some (none, c :: s)
  | [] => some (none, [])

/-- Integers have 64 bits. -/
def integer (n : Int) : Option Scalar :=
  if h : IntType.i64.Holds n then some (.integer ⟨.i64, n, h⟩) else none

/-- Digits in another base than ten. -/
def based (base : Nat) (isDigit : Char → Bool) (s : List Char) :
    Option (Scalar × List Char) := do
  let (ds, s) ← digitGroups isDigit s
  return (← integer (Decimal.digitsValue base ds), s)

/-- A number in base ten: an integer, or a float where a fraction or an exponent is given. A
positive number beyond all floats is refused. -/
def decimal (s : List Char) : Option (Scalar × List Char) :=
  match Decimal.sign s with
  | (negative, 'i' :: 'n' :: 'f' :: s) => some (.float (.infinite negative), s)
  | (_, 'n' :: 'a' :: 'n' :: s) => some (.float .nan, s)
  | (negative, s) => do
    let (whole, s) ← wholeDigits s
    let (part, s) ← fraction s
    let (power, s) ← exponent s
    if part.isNone ∧ power.isNone then
      let n : Int := Decimal.digitsValue 10 whole
      return (← integer (if negative then -n else n), s)
    let part := part.getD []
    let coefficient := Decimal.digitsValue 10 (whole ++ part)
    let x := Double.ofDecimal ⟨negative, coefficient, power.getD 0 - part.length⟩
    if x = .infinite false then none else return (.float x, s)

def number : List Char → Option (Scalar × List Char)
  | '0' :: 'x' :: s => based 16 Quoting.isHexDigit s
  | '0' :: 'o' :: s => based 8 (fun c => '0' ≤ c && c ≤ '7') s
  | '0' :: 'b' :: s => based 2 (fun c => c = '0' || c = '1') s
  | s => decimal s

/-- A string, a boolean or a number. -/
def scalar : List Char → Option (Scalar × List Char)
  | '"' :: '"' :: '"' :: s => (Quoting.basicLines.readLines s).map fun (t, s) => (.text t, s)
  | '"' :: s => (Quoting.basic.read s).map fun (t, s) => (.text t, s)
  | '\'' :: '\'' :: '\'' :: s =>
    (Quoting.literalLines.readLines s).map fun (t, s) => (.text t, s)
  | '\'' :: s => (Quoting.literal.read s).map fun (t, s) => (.text t, s)
  | 't' :: 'r' :: 'u' :: 'e' :: s => some (.bool true, s)
  | 'f' :: 'a' :: 'l' :: 's' :: 'e' :: s => some (.bool false, s)
  | s => number s

end SectionLexer.Toml
