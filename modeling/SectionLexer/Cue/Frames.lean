import SectionLexer.Cue

/-! Frames. A stack of open frames follows the cues, and every change of it is written out. -/
namespace SectionLexer

/-- A change of the open frames, innermost first, with the tokens that it writes. -/
abbrev Edit := List Frame → List Token × List Frame

namespace Edit

def write (ts : List Token) : Edit := fun stack => (ts, stack)

def opening (f : Frame) (p : Position) : Edit := fun stack =>
  ([Token.mark (.opening f) p], f :: stack)

/-- Closes `f` if it is the innermost open frame. -/
def closing (f : Frame) (p : Position) : Edit
  | [] => ([], [])
  | g :: stack => if g = f then ([Token.mark (.closing f) p], stack) else ([], g :: stack)

/-- Closes every open frame, innermost first. -/
def closingAll (p : Position) : Edit := fun stack =>
  (stack.map fun f => Token.mark (.closing f) p, [])

/-- One change, then another. -/
def andThen (a b : Edit) : Edit := fun stack =>
  ((a stack).1 ++ (b (a stack).2).1, (b (a stack).2).2)

def when (c : Bool) (a : Edit) : Edit := if c then a else write []

/-- Closes an argument with what is open in it, as far as the frames are the innermost ones. -/
def closingArgument (p : Position) : Edit :=
  closing .sect p |>.andThen (closing .argumentGroup p) |>.andThen (closing .argument p)

/-- Opens an argument, and a group in it where a section header follows. -/
def openingArgument (p : Position) (header : Bool) : Edit :=
  opening .argument p |>.andThen (when header (opening .argumentGroup p))

end Edit

namespace Cue

/-- What a cue does to the open frames; `header` tells whether a section header follows it. -/
def edit (c : Cue) (header : Bool) : Edit :=
  match c with
  | .header name colon => fun stack =>
    (Edit.when stack.isEmpty (Edit.opening .topLevelGroup name.position)
      |>.andThen (Edit.closing .sect name.position)
      |>.andThen (Edit.opening .sect name.position)
      |>.andThen (Edit.write [name, colon])) stack
  | .dot (some t) _ => Edit.openingArgument t.position header
  | .dot none t =>
    (Edit.closingArgument t.position).andThen (Edit.openingArgument t.position header)
  | .dedent t => Edit.closingArgument t.position
  | .blankLine t => Edit.closingAll t.position
  | .strayIndent _ | .lineEnd _ => Edit.write []
  | .other t => Edit.write [t]

def headerFirst : List Cue → Bool
  | c :: _ => c.isHeader
  | [] => false

/-- The tokens of cues inside the open frames `stack`. What is left open is closed at `last`. -/
def bracket (stack : List Frame) (last : Position) : List Cue → List Token
  | [] => (Edit.closingAll last stack).1
  | c :: cs =>
    let (ts, next) := c.edit (headerFirst cs) stack
    ts ++ bracket next c.position cs

end Cue

/-- Changes of level and section headers turned into nested frames. -/
def bracketFrames (ts : List Token) : List Token := Cue.bracket [] {} (Cue.ofTokens ts)

/-- What is wrong with the nesting. -/
def frameComplaints (ts : List Token) : List (Position × Complaint) :=
  (Cue.ofTokens ts).filterMap Cue.complaint?

end SectionLexer
