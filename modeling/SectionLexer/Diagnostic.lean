import SectionLexer.Delimiter
import SectionLexer.Position
import SectionLexer.Text.Escape

/-! Problems found in a document, and the words they are reported in. -/
namespace SectionLexer

inductive Severity where
  | error
  | warning
deriving DecidableEq, Repr

namespace Severity

def label : Severity → String
  | error => "error"
  | warning => "warning"

instance : ToString Severity := ⟨label⟩

def ofLabel? (s : String) : Option Severity := [error, warning].find? (·.label == s)

theorem ofLabel?_label (s : Severity) : ofLabel? s.label = some s := by cases s <;> decide

end Severity

/-- The three passes over a document, in the order they run. -/
inductive Pass where
  | scan
  | indent
  | bracket
deriving DecidableEq, Repr

namespace Pass

def label : Pass → String
  | scan => "phase1"
  | indent => "phase2"
  | bracket => "phase3"

instance : ToString Pass := ⟨label⟩

def ofLabel? (s : String) : Option Pass := [scan, indent, bracket].find? (·.label == s)

theorem ofLabel?_label (p : Pass) : ofLabel? p.label = some p := by cases p <;> decide

end Pass

/-- A problem as it is reported. -/
structure Diagnostic where
  severity : Severity
  pass : Pass
  message : String
  position : Position
  path : String
deriving DecidableEq, Repr

namespace Diagnostic

def isError (d : Diagnostic) : Bool := d.severity == .error

def display (d : Diagnostic) : String :=
  s!"{d.path}:{d.position}: {d.severity}[{d.pass}]: {d.message}"

/-- One diagnostic a line. -/
def displayAll (ds : List Diagnostic) : String := "\n".intercalate (ds.map display)

def shift (d : Diagnostic) (bytes rows : Nat) : Diagnostic :=
  { d with position := d.position.shift bytes rows }

end Diagnostic

/-- What can be wrong with a document. -/
inductive Complaint where
  | unterminated (enclosure : Enclosure)
  | missingArgument
  | missingComma
  | trailingWhitespace
  | unrecognized (c : Char)
  | oddIndent (width : Nat)
  | unexpectedIndent
deriving DecidableEq, Repr

namespace Complaint

def message : Complaint → String
  | unterminated e => "expected a terminating " ++ e.terminator
  | missingArgument => "expected an argument"
  | missingComma => "expected a , to follow this argument"
  | trailingWhitespace => "unnecessary trailing whitespace"
  | unrecognized c => "Unrecognized character '" ++ Text.asciiEscape c ++ "'"
  | oddIndent n => "expected an even indent but found " ++ toString n
  | unexpectedIndent => "unexpected indent"

/-- Trailing whitespace is the one complaint that is no error. -/
def severity : Complaint → Severity
  | trailingWhitespace => .warning
  | _ => .error

def pass : Complaint → Pass
  | oddIndent _ => .indent
  | unexpectedIndent => .bracket
  | _ => .scan

/-- The complaint about a place of the document at `path`. -/
def diagnostic (path : String) (position : Position) (c : Complaint) : Diagnostic :=
  ⟨c.severity, c.pass, c.message, position, path⟩

end Complaint

end SectionLexer
