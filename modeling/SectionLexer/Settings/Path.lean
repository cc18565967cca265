import SectionLexer.Settings.Value

/-! Paths to a setting, such as `output.format` or `lexing[0]`. -/
namespace SectionLexer.Settings

inductive Step where
  | key (name : String)
  | index (i : Int)
deriving DecidableEq, Repr

/-- A key and the steps that follow it. -/
structure Path where
  head : String
  steps : List Step
deriving DecidableEq, Repr

/-- Why a text is no path. -/
inductive PathFault where
  /-- It starts with no key. -/
  | missingKey
  /-- No number follows an opening bracket. -/
  | missingNumber
  /-- A number does not fit into 64 bits. -/
  | hugeNumber
  /-- A key or a step is followed by neither a step nor the end. -/
  | strayCharacter
deriving DecidableEq, Repr

def PathFault.message : PathFault → String
  | missingKey => "IsA"
  | missingNumber => "Digit"
  | hugeNumber => "Map on Result"
  | strayCharacter => "Char"

namespace Path

/-- Keys are made of ASCII letters and digits, `_`, `-` and spaces. -/
def isKeyChar (c : Char) : Bool := c.isAlphanum || c = '_' || c = '-' || c = ' '

def isBlank (c : Char) : Bool := c = ' ' || c = '\t'

/-- Reads a number and the closing bracket, with blanks on both sides of the number. -/
def readIndex (s : List Char) : Except PathFault (Int × List Char) :=
  let s := s.dropWhile isBlank
  let (negative, s) : Bool × List Char := match s with
    | '-' :: s => (true, s)
    | s => (false, s)
  let (digits, s) := Decimal.digits s
  let n : Int := Decimal.digitsValue 10 digits
  let n := if negative then -n else n
  if digits.isEmpty then .error .missingNumber
  else if ¬IntType.i64.Holds n then .error .hugeNumber
  else match s.dropWhile isBlank with
    | ']' :: s => .ok (n, s)
    | _ => .error .strayCharacter

/-- The step at the start of a text, and the rest. -/
def readStep : List Char → Except PathFault (Step × List Char)
  | '.' :: s =>
    let key := s.takeWhile isKeyChar
    if key.isEmpty then .error .strayCharacter
    else .ok (.key (String.ofList key), s.dropWhile isKeyChar)
  | '[' :: s => (readIndex s).map fun (i, s) => (.index i, s)
  | _ => .error .strayCharacter

/-- The steps of a text. No text has more steps than characters. -/
def readSteps : Nat → List Char → Except PathFault (List Step)
  | _, [] => .ok []
  | 0, _ => .error .strayCharacter
  | n + 1, s => do
    let (a, s) ← readStep s
    return a :: (← readSteps n s)

def parse (s : String) : Except PathFault Path := do
  let key := s.toList.takeWhile isKeyChar
  let rest := s.toList.dropWhile isKeyChar
  if key.isEmpty then .error .missingKey
  else return ⟨String.ofList key, ← readSteps rest.length rest⟩

/-- The path a text spells, or the text as one key. -/
def ofKey (s : String) : Path :=
  match parse s with
  | .ok p => p
  | .error _ => ⟨s, []⟩

end Path

/-- The place in a list of `length` items that a number means. A negative one counts from the
end. -/
def position? (length : Nat) (i : Int) : Option Nat :=
  let i := if i < 0 then i + length else i
  if i < 0 then none else some i.toNat

/-- Sets an item. A list that is too short is filled up. -/
def putItem (filler : α) (n : Nat) (a : α) (items : List α) : List α :=
  (items ++ List.replicate (n + 1 - items.length) filler).set n a

namespace Value

/-- Sets what the steps lead to. What stands in the way of a step gives way to an empty table or
array. -/
def assign (v : Value) : List Step → Option Value → Value
  | [], _ => v
  | .key k :: steps, below =>
    let below := below.getD empty
    let key := Text.lowercase k
    let old := below.get? key
    below.set key (if steps.isEmpty then merge old v else assign v steps old)
  | .index i :: steps, below =>
    let (origin, items) : Option String × List Value := match below with
      | some (array o items) => (o, items)
      | _ => (none, [])
    match position? items.length i with
    | none => array origin items
    | some n => array origin (putItem nil n (assign v steps items[n]?) items)

/-- Sets the value at a path below a root. -/
def setAt (root : Value) (p : Path) (v : Value) : Value :=
  assign v (.key p.head :: p.steps) (some root)

/-- Lays a layer of settings over a root. A key of the layer may be a whole path. -/
def lay (root : Value) (layer : List (String × Value)) : Value :=
  layer.foldl (fun root (k, v) => root.setAt (Path.ofKey k) v) root

end Value

end SectionLexer.Settings
