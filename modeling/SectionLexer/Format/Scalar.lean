import SectionLexer.Number.Double

/-! Which unquoted YAML scalars read as something other than a string. -/
namespace SectionLexer.Yaml

def isNull (s : List Char) : Bool :=
  ["", "~", "null", "Null", "NULL"].any (·.toList == s)

def isBoolean (s : List Char) : Bool :=
  ["true", "True", "TRUE", "false", "False", "FALSE"].any (·.toList == s)

/-- A base by its mark, and the digits behind it. -/
def radix : List Char → Nat × List Char
  | '0' :: 'x' :: s => (16, s)
  | '0' :: 'o' :: s => (8, s)
  | '0' :: 'b' :: s => (2, s)
  | s => (10, s)

def isDigitOf (base : Nat) (c : Char) : Bool :=
  if base = 16 then c.isDigit || 'a' ≤ c && c ≤ 'f' || 'A' ≤ c && c ≤ 'F'
  else c.isDigit && c.toNat - '0'.toNat < base

/-- Digits that start with a zero they do not need are no number. -/
def isPadded : List Char → Bool
  | '0' :: s => !s.isEmpty && s.all Char.isDigit
  | _ => false

/-- An integer of 128 bits, in decimal or after the mark of another base. -/
def isInteger (s : List Char) : Bool :=
  let (negative, s) := Decimal.sign s
  let (base, digits) := radix s
  let limit := if negative then Nat.pow 2 127 + 1 else Nat.pow 2 128
  !digits.isEmpty && digits.all (isDigitOf base) && !(base = 10 && isPadded digits) &&
    Decimal.digitsValue base digits < limit

/-- The words for numbers that are not finite. -/
def isNonFinite (s : List Char) : Bool :=
  [".inf", ".Inf", ".INF"].any (·.toList == (Decimal.sign s).2) ||
    [".nan", ".NaN", ".NAN"].any (·.toList == s)

/-- A decimal number that is nearest to a finite double. -/
def isFiniteDecimal (s : List Char) : Bool :=
  (Decimal.parse? s).any fun d => (Double.ofDecimal d).isFinite

/-- Digits that start with a zero they do not need, after at most one sign. -/
def isPaddedNumber (s : List Char) : Bool := isPadded (Decimal.sign s).2

def readsAsOther (s : List Char) : Bool :=
  isNull s || isBoolean s || isInteger s || isPaddedNumber s || isNonFinite s || isFiniteDecimal s

end SectionLexer.Yaml
