import SectionLexer.Frame
import SectionLexer.Position

/-! Tokens, shared by the three passes. -/
namespace SectionLexer

/-- What a token stands for. Literals carry text of the document; spaces, line ends and dots decide
levels; an indentation mark records a change of level; an opening or closing mark bounds a frame. -/
inductive Kind where
  | name
  | colon
  | text
  | formulation
  | argumentText
  | textBlock
  | id
  | comma
  | space
  | newline
  | dotSpace
  | indent
  | unindent
  | lineBreak
  | opening (frame : Frame)
  | closing (frame : Frame)
deriving DecidableEq, Repr

namespace Kind

def label : Kind → String
  | name => "Name"
  | colon => "Colon"
  | text => "Text"
  | formulation => "Formulation"
  | argumentText => "ArgumentText"
  | textBlock => "TextBlock"
  | id => "Id"
  | comma => "Comma"
  | space => "Space"
  | newline => "Newline"
  | dotSpace => "DotSpace"
  | indent => "Indent"
  | unindent => "UnIndent"
  | lineBreak => "LineBreak"
  | opening frame => "Begin" ++ frame.label
  | closing frame => "End" ++ frame.label

instance : ToString Kind := ⟨label⟩

def all : List Kind :=
  [name, colon, text, formulation, argumentText, textBlock, id, comma, space, newline, dotSpace,
    indent, unindent, lineBreak] ++ Frame.all.map opening ++ Frame.all.map closing

theorem mem_all (k : Kind) : k ∈ all := by
  cases k with
  | opening f => simp [all, Frame.mem_all]
  | closing f => simp [all, Frame.mem_all]
  | _ => simp [all]

/-- The kind with the given label. -/
def ofLabel? (s : String) : Option Kind := all.find? (·.label == s)

theorem ofLabel?_label (k : Kind) : ofLabel? k.label = some k := by
  cases k with
  | opening f => cases f <;> decide
  | closing f => cases f <;> decide
  | _ => decide

def isLiteral : Kind → Bool
  | name | colon | text | formulation | argumentText | textBlock | id | comma => true
  | _ => false

def isOpening : Kind → Bool
  | opening _ => true
  | _ => false

def isClosing : Kind → Bool
  | closing _ => true
  | _ => false

/-- The frame that an opening or closing mark bounds. -/
def frame? : Kind → Option Frame
  | opening f | closing f => some f
  | _ => none

end Kind

/-- A token stands at the place of its first character. -/
structure Token where
  kind : Kind
  text : String
  position : Position
deriving DecidableEq, Repr

namespace Token

/-- A token with no text of its own, at the place of what caused it. -/
def mark (kind : Kind) (position : Position) : Token := ⟨kind, "", position⟩

/-- A literal is shown as its text, any other token as its kind. -/
def display (t : Token) : String := if t.kind.isLiteral then t.text else "<" ++ t.kind.label ++ ">"

def shift (t : Token) (bytes rows : Nat) : Token :=
  { t with position := t.position.shift bytes rows }

theorem mark_shift (k : Kind) (p : Position) (b r : Nat) :
    (mark k p).shift b r = mark k (p.shift b r) := rfl

end Token

end SectionLexer
