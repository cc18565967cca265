import SectionLexer.Token

/-! Tokens as JSON text, two spaces a level. -/
namespace SectionLexer.Json

/-- Control characters, the quotation mark and the backslash are escaped. -/
def escape (c : Char) : String :=
  match c with
  | '"' => "\\\""
  | '\\' => "\\\\"
  | '\x08' => "\\b"
  | '\x0c' => "\\f"
  | '\n' => "\\n"
  | '\r' => "\\r"
  | '\t' => "\\t"
  | c =>
    if c.toNat < 0x20 then "\\u00" ++ String.ofList ((Nat.toDigits 16 (0x100 + c.toNat)).drop 1)
    else c.toString

def string (s : String) : String := "\"" ++ String.join (s.toList.map escape) ++ "\""

/-- One member of an object at the given depth. -/
def member (depth : Nat) (key value : String) : String :=
  String.ofList (List.replicate (2 * depth) ' ') ++ string key ++ ": " ++ value

/-- An object inside `depth` others. -/
def object (depth : Nat) (members : List (String × String)) : String :=
  let body := members.map fun (key, value) => member (depth + 1) key value
  "\x7b\n" ++ ",\n".intercalate body ++ "\n" ++
    String.ofList (List.replicate (2 * depth) ' ') ++ "\x7d"

def position (depth : Nat) (p : Position) : String :=
  object depth
    [("offset", toString p.offset), ("row", toString p.row), ("column", toString p.column)]

def token (t : Token) : String :=
  "  " ++ object 1 [("kind", string t.kind.label), ("text", string t.text),
    ("position", position 2 t.position)]

def render : List Token → String
  | [] => "[]"
  | ts => "[\n" ++ ",\n".intercalate (ts.map token) ++ "\n]"

end SectionLexer.Json
