/-! Numbers in decimal notation. -/
namespace SectionLexer

/-- The number `coefficient * 10 ^ exponent`, or its opposite. -/
structure Decimal where
  negative : Bool
  coefficient : Nat
  exponent : Int
deriving DecidableEq, Repr

namespace Decimal

/-- The value of digits in a base up to sixteen. -/
def digitsValue (base : Nat) (ds : List Char) : Nat :=
  let digit (c : Char) : Nat :=
    if c.isDigit then c.toNat - '0'.toNat
    else if 'a' ≤ c then c.toNat - 'a'.toNat + 10 else c.toNat - 'A'.toNat + 10
  ds.foldl (fun n c => base * n + digit c) 0

/-- Splits off a sign: whether it is a minus, and the rest. -/
def sign : List Char → Bool × List Char
  | '-' :: s => (true, s)
  | '+' :: s => (false, s)
  | s => (false, s)

/-- The digits at the start of a text, and the rest. -/
def digits (s : List Char) : List Char × List Char :=
  (s.takeWhile Char.isDigit, s.dropWhile Char.isDigit)

/-- The digits behind a point at the start of a text, and the rest. -/
def fraction : List Char → List Char × List Char
  | '.' :: s => digits s
  | s => ([], s)

/-- A whole text that is empty or an exponent. -/
def exponent? : List Char → Option Int
  | [] => some 0
  | c :: s =>
    let (negative, s) := sign s
    if (c = 'e' || c = 'E') && !s.isEmpty && s.all Char.isDigit then
      let n : Int := digitsValue 10 s
      some (if negative then -n else n)
    else none

/-- Reads an optional sign, digits with at most one point before, between or behind them, and an
optional exponent. -/
def parse? (s : List Char) : Option Decimal :=
  let (negative, s) := sign s
  let (whole, s) := digits s
  let (part, s) := fraction s
  if whole.isEmpty && part.isEmpty then none
  else (exponent? s).map fun e => ⟨negative, digitsValue 10 (whole ++ part), e - part.length⟩

example : parse? "-1.50e3".toList = some ⟨true, 150, 1⟩ := by decide

end Decimal

end SectionLexer
