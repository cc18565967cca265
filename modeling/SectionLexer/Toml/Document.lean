import SectionLexer.Toml.Literal
import SectionLexer.Toml.Table

/-! TOML documents: keys, values, and the lines that put values into tables. -/
namespace SectionLexer.Toml

open Settings

/-- A dotted key: the tables it goes through, and the key in the last of them. -/
abbrev Key := List String × String

/-- What nests deeper than this is refused, values and dotted keys alike. -/
def depthLimit : Nat := 79

def isBare (c : Char) : Bool := c.isAlphanum || c = '_' || c = '-'

def simpleKey : List Char → Option (String × List Char)
  | '"' :: s => Quoting.basic.read s
  | '\'' :: s => Quoting.literal.read s
  | s =>
    let k := s.takeWhile isBare
    if k.isEmpty then none else some (String.ofList k, s.dropWhile isBare)

/-- A dotted key of at most `n` parts, with blanks around each. -/
def key : Nat → List Char → Option (Key × List Char)
  | 0, _ => none
  | n + 1, s => do
    let (k, s) ← simpleKey (skipBlanks s)
    match skipBlanks s with
    | '.' :: s =>
      let ((path, last), s) ← key n s
      return ((k :: path, last), s)
    | s => return (([], k), s)

/-- Skips blanks, line ends and comments. -/
def skipVoid (inComment : Bool) : List Char → List Char
  | '\n' :: s | '\r' :: '\n' :: s => skipVoid false s
  | c :: s =>
    if inComment then if isPlain c then skipVoid true s else c :: s
    else if c = '#' then skipVoid true s
    else if isBlank c then skipVoid false s
    else c :: s
  | [] => []

/-- The table that pairs of keys and items make. -/
def tableOf (pairs : List (Key × Item)) : Option Item := do
  let fields ← pairs.foldlM (fun fields ((path, k), item) => Fields.add path k item .headed fields)
    []
  return .inline fields

/-- A date, a time, a string, a boolean or a number. -/
def simple (s : List Char) : Option (Item × List Char) :=
  match Moment.read .strict s with
  | some (m, s) => some (.moment m, s)
  | none => (scalar s).map fun (x, s) => (.scalar x, s)

mutual

/-- A value in which others nest at most `depth` deep. Two calls read at least one character. -/
def value : Nat → Nat → List Char → Option (Item × List Char)
  | 0, _, _ => none
  | n + 1, depth, '[' :: s => do
    if depth = 0 then none
    let (vs, s) ← items n (depth - 1) (skipVoid false s)
    return (.array vs, s)
  | n + 1, depth, '\x7b' :: s => do
    if depth = 0 then none
    let (pairs, s) ← match skipBlanks s with
      | '\x7d' :: s => some ([], s)
      | s => inlinePairs n (depth - 1) s
    return (← tableOf pairs, s)
  | _ + 1, _, s => simple s

/-- The items of an array and its closing bracket. A comma may stand behind the last item. -/
def items : Nat → Nat → List Char → Option (List Item × List Char)
  | 0, _, _ => none
  | _ + 1, _, ']' :: s => some ([], s)
  | n + 1, depth, s => do
    let (v, s) ← value n depth s
    match skipVoid false s with
    | ',' :: s =>
      let (vs, s) ← items n depth (skipVoid false s)
      return (v :: vs, s)
    | ']' :: s => return ([v], s)
    | _ => none

/-- The pairs of an inline table and its closing brace. -/
def inlinePairs : Nat → Nat → List Char → Option (List (Key × Item) × List Char)
  | 0, _, _ => none
  | n + 1, depth, s => do
    let (k, s) ← key depthLimit s
    match s with
    | '=' :: s =>
      let (v, s) ← value n depth (skipBlanks s)
      match skipBlanks s with
      | ',' :: s =>
        let (pairs, s) ← inlinePairs n depth s
        return ((k, v) :: pairs, s)
      | '\x7d' :: s => return ([(k, v)], s)
      | _ => none
    | _ => none

end

/-- What follows the end of a line, which a comment may precede. -/
def lineEnd (s : List Char) : Option (List Char) :=
  let s := skipBlanks s
  let s := if s.head? = some '#' then s.dropWhile isPlain else s
  if s.isEmpty then some [] else newline s

inductive Line where
  | void
  | header (key : Key)
  | elementHeader (key : Key)
  | pair (key : Key) (item : Item)

def line (s : List Char) : Option (Line × List Char) :=
  match skipBlanks s with
  | '[' :: '[' :: s => do
    match ← key depthLimit s with
    | (k, ']' :: ']' :: s) => return (.elementHeader k, ← lineEnd s)
    | _ => none
  | '[' :: s => do
    match ← key depthLimit s with
    | (k, ']' :: s) => return (.header k, ← lineEnd s)
    | _ => none
  | s =>
    match lineEnd s with
    | some s => some (.void, s)
    | none => do
      match ← key depthLimit s with
      | (k, '=' :: s) =>
        let (item, s) ← value (2 * s.length + 2) depthLimit (skipBlanks s)
        return (.pair k item, ← lineEnd s)
      | _ => none

/-- All lines of a document, of which there are at most as many as characters. -/
def lines : Nat → List Char → Option (List Line)
  | _, [] => some []
  | 0, _ => none
  | n + 1, s => do
    let (l, s) ← line s
    return l :: (← lines n s)

/-- A document while it is read: its fields, and the header that the next pair is under. -/
structure Draft where
  fields : Fields := []
  header : List String := []

/-- Takes a line into a document. -/
def Draft.take (d : Draft) : Line → Option Draft
  | .void => some d
  | .header (path, k) => do
    return ⟨← Fields.openTable path k d.fields, path ++ [k]⟩
  | .elementHeader (path, k) => do
    return ⟨← Fields.openElement path k d.fields, path ++ [k]⟩
  | .pair (path, k) item => do
    let fields ← Fields.within .implied (Fields.add path k item) d.header .headed d.fields
    return { d with fields }

/-- The values of a document, if it is one. A document stands for no moment. -/
def parse? (origin : Option String) (text : String) : Option (List (String × Value)) := do
  let s := text.toList
  let s := if s.head? = some '\uFEFF' then s.tail else s
  let draft ← (← lines s.length s).foldlM Draft.take {}
  if draft.fields.isMarked then none else fieldValues? origin draft.fields

end SectionLexer.Toml
