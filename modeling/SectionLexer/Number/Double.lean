import SectionLexer.Number.Decimal

/-! Binary numbers of double precision, in exact arithmetic. -/
namespace SectionLexer

/-- A finite number is `mantissa * 2 ^ exponent` or its opposite. The mantissa has 53 bits, fewer
only where the exponent is the least one, -1074. -/
inductive Double where
  | finite (negative : Bool) (mantissa : Nat) (exponent : Int)
  | infinite (negative : Bool)
  | nan
deriving DecidableEq, Repr

/-- The nearest whole number to a quotient, of two equally near ones the even one. -/
def divHalfEven (n d : Nat) : Nat :=
  let q := n / d
  let r := 2 * (n % d)
  if r < d then q else if d < r then q + 1 else q + q % 2

/-- A power as a fraction. -/
def powFraction (base : Nat) (e : Int) : Nat × Nat :=
  if e < 0 then (1, Nat.pow base e.natAbs) else (Nat.pow base e.natAbs, 1)

namespace Double

def zero (negative : Bool) : Double := finite negative 0 (-1074)

/-- A mantissa that rounding took to 54 bits goes to the next exponent, an exponent above 971 to
infinity. -/
def normalize (negative : Bool) (m : Nat) (e : Int) : Double :=
  let (m, e) := if m = Nat.pow 2 53 then (Nat.pow 2 52, e + 1) else (m, e)
  if 971 < e then infinite negative else finite negative m e

/-- The double nearest to the positive fraction `n / d`, of two equally near ones the even one. -/
def ofFraction (negative : Bool) (n d : Nat) : Double :=
  let e : Int := (n.log2 : Int) - d.log2 - 52
  let (a, b) := powFraction 2 e
  let e := max (if n * b < Nat.pow 2 52 * (d * a) then e - 1 else e) (-1074)
  let (a, b) := powFraction 2 e
  normalize negative (divHalfEven (n * b) (d * a)) e

/-- The double nearest to a decimal number. A number of more than 310 places is beyond all doubles,
one that starts more than 330 places behind the point is next to zero. -/
def ofDecimal (d : Decimal) : Double :=
  let places : Int := (Nat.toDigits 10 d.coefficient).length + d.exponent
  if d.coefficient = 0 || places < -330 then zero d.negative
  else if 310 < places then infinite d.negative
  else
    let (a, b) := powFraction 10 d.exponent
    ofFraction d.negative (d.coefficient * a) b

def isFinite : Double → Bool
  | finite .. => true
  | _ => false

def isZero : Double → Bool
  | finite _ m _ => m = 0
  | _ => false

/-- The nearest whole number, a half going away from zero; nothing below zero or above `limit`. -/
def toNat (limit : Nat) : Double → Nat
  | finite false m e =>
    let (a, b) := powFraction 2 e
    min limit ((2 * m * a + b) / (2 * b))
  | infinite false => limit
  | _ => 0

theorem toNat_le (limit : Nat) (x : Double) : x.toNat limit ≤ limit := by
  fun_cases toNat limit x with
  | case1 => exact Nat.min_le_left _ _
  | case2 => exact Nat.le_refl limit
  | case3 => exact Nat.zero_le limit

/-- The bounds of what rounds to the double `m * 2 ^ e`, in quarters of `2 ^ e`. -/
def bounds (m : Nat) (e : Int) : Nat × Nat :=
  (if m = Nat.pow 2 52 ∧ -1074 < e then 4 * m - 1 else 4 * m - 2, 4 * m + 2)

/-- Whether the fraction `n / d` rounds to the double `m * 2 ^ e`. -/
def roundsTo (m : Nat) (e : Int) (n d : Nat) : Bool :=
  let (a, b) := powFraction 2 e
  let (low, high) := bounds m e
  let x := 4 * n * b
  if m % 2 = 0 then low * (a * d) ≤ x && x ≤ high * (a * d)
  else low * (a * d) < x && x < high * (a * d)

/-- The power of ten that starts the positive fraction `n / d`. -/
def leadingPlace (n d : Nat) : Int :=
  if d ≤ n then ((Nat.toDigits 10 (n / d)).length : Int) - 1
  else -((((List.range 400).takeWhile fun j => n * Nat.pow 10 j < d).length : Nat) : Int)

/-- The number of `count` places nearest to the double `m * 2 ^ e`, if one rounds to it: a
coefficient and the power of ten it counts. -/
def atPlaces (m : Nat) (e : Int) (count : Nat) : Option (Nat × Int) :=
  let (a, b) := powFraction 2 e
  let n := m * a
  let place := leadingPlace n b - count + 1
  let (s, t) := powFraction 10 place
  let below := n * t / (b * s)
  let fits (k : Nat) : Bool := roundsTo m e (k * s) t
  let nearAbove : Bool := 2 * (n * t) > (2 * below + 1) * (b * s)
  match fits below, fits (below + 1) with
  | true, true => some (if nearAbove then below + 1 else below, place)
  | true, false => some (below, place)
  | false, true => some (below + 1, place)
  | false, false => none

/-- The shortest decimal number that rounds to the double `m * 2 ^ e`, and the nearest of these. -/
def shortest (m : Nat) (e : Int) : Nat × Int :=
  ((List.range 17).findSome? fun k => atPlaces m e (k + 1)).getD (m, 0)

/-- A coefficient and its power of ten without an exponent. -/
def positional (coefficient : Nat) (place : Int) : String :=
  let ds := Nat.toDigits 10 coefficient
  if 0 ≤ place then String.ofList (ds ++ List.replicate place.natAbs '0')
  else
    let ds := List.replicate (place.natAbs + 1 - ds.length) '0' ++ ds
    let whole := ds.length - place.natAbs
    let part := (ds.drop whole).reverse.dropWhile (· == '0') |>.reverse
    String.ofList (ds.take whole ++ if part.isEmpty then [] else '.' :: part)

/-- The fewest digits that read back, without an exponent and without a point where none is
needed. -/
def text : Double → String
  | finite negative m e =>
    let (coefficient, place) := if m = 0 then (0, 0) else shortest m e
    (if negative then "-" else "") ++ positional coefficient place
  | infinite negative => if negative then "-inf" else "inf"
  | nan => "NaN"

/-- The same with a point in every finite number. -/
def pointedText (x : Double) : String :=
  if x.isFinite && !x.text.toList.contains '.' then x.text ++ ".0" else x.text

end Double

end SectionLexer
