import SectionLexer.Format
import SectionLexer.Lexing
import SectionLexer.Settings.Value

/-! The typed settings, read from a merged value. -/
namespace SectionLexer

/-- Everything that can be set. -/
structure Settings where
  lexing : Options
  pipeline : String
  format : Format
deriving DecidableEq, Repr

namespace Settings

variable {α β : Type}

/-- The two groups of settings. -/
inductive Group where
  | lexing
  | output
deriving DecidableEq, Repr

namespace Group

def key : Group → String
  | lexing => "lexing"
  | output => "output"

/-- The name that complaints about a whole group give it. -/
def label : Group → String
  | lexing => "LexingConfig"
  | output => "OutputConfig"

/-- The keys of a group, in the order in which an array lists their values. -/
def names : Group → String × String
  | lexing => ("trailing_newlines", "report_trailing_whitespace")
  | output => ("pipeline", "format")

end Group

/-- What a setting is expected to be. -/
inductive Expected where
  | integer
  | natural
  | boolean
  | text
deriving DecidableEq, Repr

def Expected.label : Expected → String
  | integer => "an integer"
  | natural => "an unsigned 64 bit or less integer"
  | boolean => "a boolean"
  | text => "a string"

/-- Why a merged value does not give settings. -/
inductive Misfit where
  /-- The value of a setting is of another type. -/
  | wrongType (found : String) (expected : Expected) (key : String) (origin : Option String)
  | missingField (name : String)
  | tooShort (length : Nat) (group : Group)
  | notGroup (found : String) (group : Group)
  | unknownFormat (name : String)
  | notFormat
deriving DecidableEq, Repr

def Misfit.message : Misfit → String
  | wrongType found expected key origin =>
    "invalid type: " ++ found ++ ", expected " ++ expected.label ++ " for key \x60" ++ key ++ "\x60"
      ++ match origin with
        | some file => " in " ++ file
        | none => ""
  | missingField name => "missing field \x60" ++ name ++ "\x60"
  | tooShort n g =>
    "invalid length " ++ toString n ++ ", expected struct " ++ g.label ++ " with 2 elements"
  | notGroup found g => "invalid type: " ++ found ++ ", expected struct " ++ g.label
  | unknownFormat name => "enum OutputFormat does not have variant constructor " ++ name
  | notFormat =>
    "value of enum OutputFormat should be represented by either string " ++
      "or table with exactly one key"

/-- What integers of a type are called where one of them does not fit. -/
def IntType.label (t : IntType) : String :=
  toString t.bits ++ (if t.signed then "-bit integer" else "-bit unsigned integer")

/-- What an integer is called in a complaint. Only the wide types are named. -/
def Integer.describe (i : Integer) : String :=
  "integer \x60" ++ toString i.n ++ "\x60" ++ match i.type with
    | .i64 | .u64 => ""
    | .i128 => " as i128"
    | .u128 => " as u128"

/-- What a value is called in a complaint. -/
def Value.describe : Value → String
  | leaf _ .nil => "unit value"
  | leaf _ (.bool b) => "boolean \x60" ++ toString b ++ "\x60"
  | leaf _ (.integer i) => i.describe
  | leaf _ (.float x) => "floating point \x60" ++ x.pointedText ++ "\x60"
  | leaf _ (.text s) => "string " ++ Text.quoted s
  | array .. => "sequence"
  | table .. => "map"

/-- The value of a setting, and the key that complaints give it. -/
structure Entry where
  key : String
  value : Value

namespace Entry

def misfit (e : Entry) (expected : Expected) (found : String) : Misfit :=
  .wrongType found expected e.key e.value.origin

def isTrue (s : String) : Bool := ["true", "on", "yes"].contains s

def isFalse (s : String) : Bool := ["false", "off", "no"].contains s

def natLimit : Nat := Nat.pow 2 64 - 1

/-- Decimal digits behind an optional plus, as a number below `2 ^ 64`. -/
def nat? (s : String) : Option Nat :=
  let digits := match s.toList with
    | '+' :: s => s
    | s => s
  let n := Decimal.digitsValue 10 digits
  if !digits.isEmpty && digits.all Char.isDigit && n ≤ natLimit then some n else none

/-- Reads a number below `2 ^ 64`. A float is rounded into that range, and truth counts as one; but
an integer outside of it is refused. -/
def toNat (e : Entry) : Except Misfit Nat :=
  match e.value with
  | .leaf _ (.integer i) =>
    if 0 ≤ i.n ∧ i.n ≤ natLimit then .ok i.n.toNat
    else .error (e.misfit .natural (i.type.label ++ " \x60" ++ toString i.n ++ "\x60"))
  | .leaf _ (.float x) => .ok (x.toNat natLimit)
  | .leaf _ (.bool b) => .ok b.toNat
  | .leaf _ (.text s) =>
    if isTrue (Text.lowercase s) then .ok 1
    else if isFalse (Text.lowercase s) then .ok 0
    else match nat? s with
      | some n => .ok n
      | none => .error (e.misfit .integer e.value.describe)
  | v => .error (e.misfit .integer v.describe)

/-- Reads a truth value. Any number but zero is true. -/
def toBool (e : Entry) : Except Misfit Bool :=
  match e.value with
  | .leaf _ (.bool b) => .ok b
  | .leaf _ (.integer i) => .ok (i.n != 0)
  | .leaf _ (.float x) => .ok !x.isZero
  | .leaf _ (.text s) =>
    let s := Text.lowercase s
    if s == "1" || isTrue s then .ok true
    else if s == "0" || isFalse s then .ok false
    else .error (e.misfit .boolean ("string " ++ Text.quoted s))
  | v => .error (e.misfit .boolean v.describe)

/-- Reads a text. Truth values and numbers are written out. -/
def toText (e : Entry) : Except Misfit String :=
  match e.value with
  | .leaf _ (.text s) => .ok s
  | .leaf _ (.bool b) => .ok (toString b)
  | .leaf _ (.integer i) => .ok (toString i.n)
  | .leaf _ (.float x) => .ok x.text
  | v => .error (e.misfit .text v.describe)

/-- Reads the name of a format in any case: a text, or the one key of a table. -/
def toFormat (e : Entry) : Except Misfit Format :=
  let named (s : String) : Except Misfit Format :=
    match Format.ofLabel? (Text.lowercase s) with
    | some f => .ok f
    | none => .error (.unknownFormat s)
  match e.value with
  | .leaf _ (.text s) => named s
  | .table _ [(s, _)] => named s
  | _ => .error .notFormat

end Entry

/-- Reads one of two settings, if it is there. -/
def readOptional (read : Entry → Except Misfit α) (e : Option Entry) :
    Except Misfit (Option α) :=
  match e with
  | some e => some <$> read e
  | none => .ok none

def require (name : String) : Option α → Except Misfit α
  | some a => .ok a
  | none => .error (.missingField name)

/-- Reads the two settings of a group from a table, or in order from an array. What is there is read
before anything missing is complained about. -/
def readGroup (g : Group) (first : Entry → Except Misfit α) (second : Entry → Except Misfit β)
    (v : Value) : Except Misfit (α × β) :=
  let (m, n) := g.names
  match v with
  | .table .. => do
    let entry (name : String) : Option Entry := (v.get? name).map (⟨g.key ++ "." ++ name, ·⟩)
    let a ← readOptional first (entry m)
    let b ← readOptional second (entry n)
    return (← require m a, ← require n b)
  | .array _ [] => .error (.tooShort 0 g)
  | .array _ [a] => do
    let _ ← first ⟨g.key ++ "[0]", a⟩
    .error (.tooShort 1 g)
  | .array _ (a :: b :: _) =>
    return (← first ⟨g.key ++ "[0]", a⟩, ← second ⟨g.key ++ "[1]", b⟩)
  | .leaf .. => .error (.notGroup v.describe g)

/-- How settings of each type are read from values, and the two settings of a group together. -/
structure Conversions where
  toNat (e : Entry) : Except Misfit Nat
  toBool (e : Entry) : Except Misfit Bool
  toText (e : Entry) : Except Misfit String
  toFormat (e : Entry) : Except Misfit Format
  readGroup {α β : Type} (g : Group) (first : Entry → Except Misfit α)
    (second : Entry → Except Misfit β) (v : Value) : Except Misfit (α × β)

/-- Reads all settings below a root. -/
def ofValue (c : Conversions) (root : Value) : Except Misfit Settings := do
  let group (g : Group) : Except Misfit Value := require g.key (root.get? g.key)
  let (newlines, whitespace) ← c.readGroup .lexing c.toNat c.toBool (← group .lexing)
  let (pipeline, format) ← c.readGroup .output c.toText c.toFormat (← group .output)
  return ⟨⟨newlines, whitespace⟩, pipeline, format⟩

end Settings

end SectionLexer
