import SectionLexer.Character.Unprintable

/-! Characters shown as escapes. -/
namespace SectionLexer.Text

/-- A code point in lowercase hexadecimal. -/
def codePoint (c : Char) : String := "\\u\x7b" ++ String.ofList (Nat.toDigits 16 c.toNat) ++ "\x7d"

/-- Shows a character in printable ASCII: both quotes and the backslash after a backslash, the tab
and the line ends by name, anything outside ASCII by its code point. -/
def asciiEscape (c : Char) : String :=
  match c with
  | '\t' => "\\t"
  | '\r' => "\\r"
  | '\n' => "\\n"
  | '\'' => "\\'"
  | '"' => "\\\""
  | '\\' => "\\\\"
  | c => if 0x20 ≤ c.toNat && c.toNat ≤ 0x7E then c.toString else codePoint c

/-- Shows one character of a quoted text: the double quote and the backslash after a backslash, the
null, the tab and the line ends by name, anything else unprintable by its code point. -/
def quotedEscape (c : Char) : String :=
  match c with
  | '\x00' => "\\0"
  | '\t' => "\\t"
  | '\r' => "\\r"
  | '\n' => "\\n"
  | '"' => "\\\""
  | '\\' => "\\\\"
  | c => if isUnprintable c then codePoint c else c.toString

/-- A text between double quotes, on one line. -/
def quoted (s : String) : String := "\"" ++ String.join (s.toList.map quotedEscape) ++ "\""

end SectionLexer.Text
