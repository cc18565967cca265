import SectionLexer.Format.Scalar
import SectionLexer.Token

/-! Tokens as YAML text. A text is written in the plainest style that reads back as it. -/
namespace SectionLexer.Yaml

inductive Style where
  | plain
  | singleQuoted
  | doubleQuoted
  | literal
deriving DecidableEq, Repr

def isBreak (c : Char) : Bool :=
  c == '\n' || c == '\r' || c == '\u0085' || c == '\u2028' || c == '\u2029'

/-- A character may stand as it is. -/
def isPrintable (c : Char) : Bool :=
  c == '\n' || 0x20 ≤ c.toNat && c.toNat ≤ 0x7E ||
    0xA0 ≤ c.toNat && c.toNat != 0xFEFF && c.toNat != 0xFFFE && c.toNat != 0xFFFF

def isBlank (c : Char) : Bool := c == ' ' || c == '\t' || isBreak c

/-- Whether a blank or the end comes first. -/
def blankFirst (s : List Char) : Bool := s.head?.all isBlank

/-- Whether `p` holds of a character and the one behind it. -/
def anyPair (p : Char → Char → Bool) : List Char → Bool
  | c :: d :: s => p c d || anyPair p (d :: s)
  | _ => false

def isSpecial (s : List Char) : Bool :=
  s.any (!isPrintable ·) || anyPair (fun c d => c == ' ' && isBreak d) s

def hasBreakSpace (s : List Char) : Bool := anyPair (fun c d => isBreak c && d == ' ') s

/-- Whether a colon before a blank stands in a text. -/
def hasMapMark : List Char → Bool
  | [] => false
  | c :: s => c == ':' && blankFirst s || hasMapMark s

/-- The characters that mean something at the start of a scalar. -/
def leadingIndicators : List Char := "#,[]\x7b\x7d&*!|>'\"%@\x60".toList

/-- Whether a plain scalar would be taken for something else. -/
def hasIndicator (s : List Char) : Bool :=
  "---".toList.isPrefixOf s || "...".toList.isPrefixOf s ||
    match s with
    | [] => false
    | c :: t =>
      leadingIndicators.contains c || "?:-".toList.contains c && blankFirst t || hasMapMark t ||
        anyPair (fun c d => isBlank c && d == '#') s

def isEdge (c : Char) : Bool := c == ' ' || isBreak c

def hasEdge (s : List Char) : Bool := s.head?.any isEdge || s.getLast?.any isEdge

def wanted (s : List Char) : Style :=
  if s.contains '\n' then .literal else if readsAsOther s then .singleQuoted else .plain

/-- The style that a text is written in: the wanted one, or the first after it that can hold it. -/
def style (s : List Char) : Style :=
  let quoted := if isSpecial s || hasBreakSpace s then .doubleQuoted else .singleQuoted
  match wanted s with
  | .plain =>
    if isSpecial s || hasIndicator s || hasEdge s || hasBreakSpace s || s.any isBreak then quoted
    else .plain
  | .literal => if isSpecial s || s.getLast? == some ' ' then .doubleQuoted else .literal
  | _ => quoted

/-- The margin of a line inside a scalar. -/
def margin : List Char := [' ', ' ', ' ', ' ']

/-- Writes characters by `write`, with the margin before the first one of each line; `fresh` at the
start of a line. -/
def margined (write : Char → List Char) (fresh : Bool) : List Char → List Char
  | [] => []
  | c :: s =>
    if isBreak c then c :: margined write true s
    else (if fresh then margin else []) ++ write c ++ margined write false s

def singleQuoted (s : List Char) : List Char :=
  '\'' :: margined (fun c => if c = '\'' then ['\'', '\''] else [c]) false s ++
    (if s.getLast?.any isBreak then margin else []) ++ ['\'']

/-- A code point in uppercase hexadecimal, in at least so many digits. -/
def hexadecimal (width : Nat) (c : Char) : List Char :=
  let ds := (Nat.toDigits 16 c.toNat).map Char.toUpper
  List.replicate (width - ds.length) '0' ++ ds

def escape (c : Char) : List Char :=
  match c with
  | '\x00' => ['\\', '0']
  | '\x07' => ['\\', 'a']
  | '\x08' => ['\\', 'b']
  | '\t' => ['\\', 't']
  | '\n' => ['\\', 'n']
  | '\x0b' => ['\\', 'v']
  | '\x0c' => ['\\', 'f']
  | '\r' => ['\\', 'r']
  | '\x1b' => ['\\', 'e']
  | '"' => ['\\', '"']
  | '\\' => ['\\', '\\']
  | '\u0085' => ['\\', 'N']
  | '\u2028' => ['\\', 'L']
  | '\u2029' => ['\\', 'P']
  | c =>
    if isPrintable c then [c]
    else if c.toNat ≤ 0xFF then '\\' :: 'x' :: hexadecimal 2 c
    else if c.toNat ≤ 0xFFFF then '\\' :: 'u' :: hexadecimal 4 c
    else '\\' :: 'U' :: hexadecimal 8 c

def doubleQuoted (s : List Char) : List Char := '"' :: s.flatMap escape ++ ['"']

/-- How the line ends behind a literal text count: `-` none, `+` all, otherwise one. -/
def chomping (s : List Char) : List Char :=
  match s.reverse with
  | [c] => if isBreak c then ['+'] else ['-']
  | c :: d :: _ => if !isBreak c then ['-'] else if isBreak d then ['+'] else []
  | [] => ['-']

def literal (s : List Char) : List Char :=
  '|' :: (if s.head?.any isEdge then ['2'] else []) ++ chomping s ++ '\n' ::
    margined (fun c => [c]) true s

/-- A text as a scalar with the end of its line. -/
def scalar (s : List Char) : List Char :=
  match style s with
  | .plain => s ++ ['\n']
  | .singleQuoted => singleQuoted s ++ ['\n']
  | .doubleQuoted => doubleQuoted s ++ ['\n']
  | .literal => literal s ++ if s.getLast?.any isBreak then [] else ['\n']

def token (t : Token) : String :=
  let p := t.position
  s!"- kind: {t.kind}\n  text: " ++ String.ofList (scalar t.text.toList) ++
    s!"  position:\n    offset: {p.offset}\n    row: {p.row}\n    column: {p.column}\n"

def render : List Token → String
  | [] => "[]\n"
  | ts => String.join (ts.map token)

end SectionLexer.Yaml
