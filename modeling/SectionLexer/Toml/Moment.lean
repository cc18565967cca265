import SectionLexer.Number.Decimal

/-! Dates and times of TOML. Each reader reads from the start of a text and gives the rest. -/
namespace SectionLexer.Toml

/-- A number of exactly `count` digits. -/
def fixedDigits (count : Nat) (s : List Char) : Option (Nat × List Char) :=
  let ds := s.take count
  if ds.length = count ∧ ds.all Char.isDigit then
    some (Decimal.digitsValue 10 ds, s.drop count)
  else none

/-- What follows a character that has to be there. -/
def expect (c : Char) : List Char → Option (List Char)
  | d :: s => if d = c then some s else none
  | [] => none

/-- A number with zeros before it up to a width. -/
def padded (width n : Nat) : List Char :=
  let ds := Nat.toDigits 10 n
  List.replicate (width - ds.length) '0' ++ ds

structure Date where
  year : Nat
  month : Nat
  day : Nat
deriving DecidableEq, Repr

namespace Date

def isLeap (year : Nat) : Bool := year % 4 = 0 && (year % 100 ≠ 0 || year % 400 = 0)

def daysIn (year : Nat) : Nat → Nat
  | 2 => if isLeap year then 29 else 28
  | 4 | 6 | 9 | 11 => 30
  | _ => 31

/-- The day is one of its month. -/
def isReal (d : Date) : Bool :=
  1 ≤ d.month && d.month ≤ 12 && 1 ≤ d.day && d.day ≤ daysIn d.year d.month

def read (s : List Char) : Option (Date × List Char) := do
  let (year, s) ← fixedDigits 4 s
  let (month, s) ← fixedDigits 2 (← expect '-' s)
  let (day, s) ← fixedDigits 2 (← expect '-' s)
  let d : Date := ⟨year, month, day⟩
  if d.isReal then some (d, s) else none

def text (d : Date) : List Char :=
  padded 4 d.year ++ '-' :: padded 2 d.month ++ '-' :: padded 2 d.day

end Date

/-- How far a clock goes. -/
structure Clock where
  hour : Nat
  offsetHour : Nat
  offsetMinute : Nat

namespace Clock

/-- In a document, hours and minutes are those of a day. -/
def strict : Clock := ⟨23, 23, 59⟩

/-- In a string, a day may end at 24, and an offset may be written in any two numbers. -/
def loose : Clock := ⟨24, 99, 99⟩

end Clock

structure Time where
  hour : Nat
  minute : Nat
  second : Nat
  nanosecond : Nat
deriving DecidableEq, Repr

namespace Time

/-- The digits behind a point, of which nine count. -/
def nanoseconds : List Char → Option (Nat × List Char)
  | '.' :: s =>
    let ds := s.takeWhile Char.isDigit
    if ds.isEmpty then none
    else some (Decimal.digitsValue 10 ((ds ++ List.replicate 9 '0').take 9),
      s.dropWhile Char.isDigit)
  | s => some (0, s)

/-- A minute may have a leap second. -/
def isReal (c : Clock) (t : Time) : Bool := t.hour ≤ c.hour && t.minute ≤ 59 && t.second ≤ 60

def read (c : Clock) (s : List Char) : Option (Time × List Char) := do
  let (hour, s) ← fixedDigits 2 s
  let (minute, s) ← fixedDigits 2 (← expect ':' s)
  let (second, s) ← fixedDigits 2 (← expect ':' s)
  let (nanosecond, s) ← nanoseconds s
  let t : Time := ⟨hour, minute, second, nanosecond⟩
  if t.isReal c then some (t, s) else none

/-- No zero ends the part behind the point, and without such a part there is no point. -/
def text (t : Time) : List Char :=
  let part := ((padded 9 t.nanosecond).reverse.dropWhile (· == '0')).reverse
  padded 2 t.hour ++ ':' :: padded 2 t.minute ++ ':' :: padded 2 t.second ++
    if t.nanosecond = 0 then [] else '.' :: part

end Time

/-- How far a clock is ahead of the zero meridian. -/
inductive Offset where
  | zero
  | minutes (count : Int)
deriving DecidableEq, Repr

namespace Offset

/-- An offset is at most a day. Without one the time is a local one. -/
def read (c : Clock) : List Char → Option (Option Offset × List Char)
  | 'Z' :: s | 'z' :: s => some (some .zero, s)
  | sign :: s =>
    if sign = '+' ∨ sign = '-' then do
      let (hour, s) ← fixedDigits 2 s
      let (minute, s) ← fixedDigits 2 (← expect ':' s)
      let count : Nat := 60 * hour + minute
      if hour ≤ c.offsetHour ∧ minute ≤ c.offsetMinute ∧ count ≤ 60 * 24 then
        some (some (.minutes (if sign = '-' then -count else count)), s)
      else none
    else some (none, sign :: s)
  | [] => some (none, [])

def text : Offset → List Char
  | zero => ['Z']
  | minutes count =>
    (if count < 0 then '-' else '+') ::
      padded 2 (count.natAbs / 60) ++ ':' :: padded 2 (count.natAbs % 60)

end Offset

/-- A date, a time of day, or both, with an offset if there is one. -/
inductive Moment where
  | date (d : Date)
  | time (t : Time)
  | dateTime (d : Date) (t : Time) (offset : Option Offset)
deriving DecidableEq, Repr

namespace Moment

/-- The time that may follow a date. -/
def timeOfDate (c : Clock) : List Char → Option ((Time × Option Offset) × List Char)
  | 'T' :: s | 't' :: s | ' ' :: s => do
    let (t, s) ← Time.read c s
    let (offset, s) ← Offset.read c s
    return ((t, offset), s)
  | _ => none

def read (c : Clock) (s : List Char) : Option (Moment × List Char) :=
  match Date.read s with
  | none => (Time.read c s).map fun (t, s) => (.time t, s)
  | some (d, s) => match timeOfDate c s with
    | none => some (.date d, s)
    | some ((t, offset), s) => some (.dateTime d t offset, s)

/-- The moment that a whole text spells. -/
def parse? (text : String) : Option Moment :=
  match read .loose text.toList with
  | some (m, []) => some m
  | _ => none

def chars : Moment → List Char
  | date d => d.text
  | time t => t.text
  | dateTime d t offset => d.text ++ 'T' :: t.text ++ (offset.map Offset.text).getD []

def text (m : Moment) : String := String.ofList m.chars

example : (parse? "1979-05-27 07:32:00.120z").map text = some "1979-05-27T07:32:00.12Z" := by
  decide +kernel
example : parse? "2021-02-29" = none := by decide +kernel

end Moment

end SectionLexer.Toml
