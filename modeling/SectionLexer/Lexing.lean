import SectionLexer.Cue.Frames
import SectionLexer.Piece.OfText
import SectionLexer.Run.Levels
import SectionLexer.Stream

/-! The three passes over a document. Each hands on what the passes before it complain about, and
adds its own. -/
namespace SectionLexer

structure Options where
  /-- Line ends put behind a document, so that a blank line closes its last entry. -/
  trailingNewlines : Nat := 3
  reportTrailingWhitespace : Bool := true
deriving DecidableEq, Repr

/-- A document with the line ends put behind it. -/
def prepare (source : String) (newlines : Nat) : String :=
  source ++ String.ofList (List.replicate newlines '\n')

namespace Options

/-- Whether a complaint is reported. -/
def reports (o : Options) (c : Complaint) : Bool :=
  o.reportTrailingWhitespace || c != .trailingWhitespace

end Options

namespace Stream

def diagnose (path : String) (cs : List (Position × Complaint)) : List Diagnostic :=
  cs.map fun (p, c) => c.diagnostic path p

/-- The first pass: the tokens of a text. -/
def scan (text path : String) (options : Options) : Stream :=
  let pieces := Piece.ofText text.toList
  ⟨Piece.tokens {} pieces,
    diagnose path ((Piece.complaints {} pieces).filter fun (_, c) => options.reports c)⟩

/-- The second pass: levels of indentation. -/
def indent (s : Stream) (path : String) : Stream :=
  ⟨resolveLevels s.tokens, s.diagnostics ++ diagnose path (levelComplaints s.tokens)⟩

/-- The third pass: nested frames. -/
def bracket (s : Stream) (path : String) : Stream :=
  ⟨bracketFrames s.tokens, s.diagnostics ++ diagnose path (frameComplaints s.tokens)⟩

end Stream

/-- The passes up to `last` over a document. -/
def lexUpTo (last : Pass) (source path : String) (options : Options) : Stream :=
  let scanned := Stream.scan (prepare source options.trailingNewlines) path options
  match last with
  | .scan => scanned
  | .indent => scanned.indent path
  | .bracket => (scanned.indent path).bracket path

/-- All passes over a document. -/
def lex (source path : String) (options : Options) : Stream := lexUpTo .bracket source path options

end SectionLexer
