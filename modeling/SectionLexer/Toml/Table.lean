import SectionLexer.Settings.Value
import SectionLexer.Toml.Moment

/-! Tables of a TOML document while it is read. What a key holds, and how the table it is in came to
be, decide whether a later line may add to it. -/
namespace SectionLexer.Toml

open Settings

/-- How a table came to be. -/
inductive Form where
  /-- By a header of its own, or as the document. -/
  | headed
  /-- By a longer header. -/
  | implied
  /-- By a dotted key. -/
  | dotted
deriving DecidableEq, Repr

inductive Item where
  | scalar (x : Scalar)
  | moment (m : Moment)
  | array (items : List Item)
  /-- A table that is written as a value. Nothing can be added to it. -/
  | inline (fields : List (String × Item))
  | table (form : Form) (fields : List (String × Item))
  /-- The elements that headers in double brackets have opened. -/
  | tables (elements : List (List (String × Item)))

/-- The fields of a table. -/
abbrev Fields := List (String × Item)

namespace Fields

/-- Changes the fields of the table a path leads to. Tables that are not there are made in the given
form, an array of tables stands for its last element, and a dotted path does not pass a table with a
header of its own. -/
def within (made : Form) (change : Form → Fields → Option Fields) :
    List String → Form → Fields → Option Fields
  | [], form, fields => change form fields
  | key :: path, _, fields =>
    match fields.lookup key with
    | none => do
      let inner ← within made change path made []
      return put key (.table made inner) fields
    | some (.table form inner) =>
      if made = .dotted ∧ form = .headed then none
      else do
        let inner ← within made change path form inner
        return put key (.table form inner) fields
    | some (.tables elements) => do
      let inner ← within made change path .headed (← elements.getLast?)
      return put key (.tables (elements.dropLast ++ [inner])) fields
    | some _ => none

/-- Adds an item under a dotted key. The key is new, and the table a dotted key leads to was made by
dotted keys. -/
def add (path : List String) (key : String) (item : Item) : Form → Fields → Option Fields :=
  within .dotted (fun form fields =>
    if path.isEmpty = (form = .dotted) ∨ (fields.lookup key).isSome then none
    else some (put key item fields)) path

/-- Opens a table by its header. A table of this name may be there only as implied, and becomes the
last one. -/
def openTable (path : List String) (key : String) : Fields → Option Fields :=
  within .implied (fun _ fields =>
    match fields.lookup key with
    | none => some (put key (.table .headed []) fields)
    | some (.table .implied inner) =>
      some (fields.filter (·.1 != key) ++ [(key, .table .headed inner)])
    | _ => none) path .headed

/-- Opens a further element of an array of tables. -/
def openElement (path : List String) (key : String) : Fields → Option Fields :=
  within .implied (fun _ fields =>
    match fields.lookup key with
    | none => some (put key (.tables [[]]) fields)
    | some (.tables elements) => some (put key (.tables (elements ++ [[]])) fields)
    | _ => none) path .headed

/-- The key that marks a table as a moment. -/
def momentKey : String := "$__toml_private_datetime"

/-- A table is marked as a moment by its first key. -/
def isMarked (fields : Fields) : Bool := fields.head?.any (·.1 == momentKey)

/-- The moment that a string under the first key spells. -/
def moment? (fields : Fields) : Option Moment :=
  match fields.head? with
  | some (_, .scalar (.text s)) => Moment.parse? s
  | _ => none

/-- The value of a table, given the values of its fields. A marked table stands for its moment, and
its other fields do not count. -/
def value? (origin : Option String) (fields : Fields) (values : Option (List (String × Value))) :
    Option Value :=
  if fields.isMarked then fields.moment?.map fun m => .leaf origin (.text m.text)
  else values.map (.table origin)

end Fields

mutual

/-- A moment counts as the text it is written as. There is no value where a marked table has no
moment. -/
def Item.value? (origin : Option String) : Item → Option Value
  | .scalar x => some (.leaf origin x)
  | .moment m => some (.leaf origin (.text m.text))
  | .array items => (itemValues? origin items).map (.array origin)
  | .inline fields | .table _ fields => Fields.value? origin fields (fieldValues? origin fields)
  | .tables elements => (elementValues? origin elements).map (.array origin)

def itemValues? (origin : Option String) : List Item → Option (List Value)
  | [] => some []
  | item :: items => do return (← item.value? origin) :: (← itemValues? origin items)

def fieldValues? (origin : Option String) : List (String × Item) → Option (List (String × Value))
  | [] => some []
  | (k, item) :: fields => do return (k, ← item.value? origin) :: (← fieldValues? origin fields)

def elementValues? (origin : Option String) : List (List (String × Item)) → Option (List Value)
  | [] => some []
  | fields :: elements => do
    let v ← Fields.value? origin fields (fieldValues? origin fields)
    return v :: (← elementValues? origin elements)

end

end SectionLexer.Toml
