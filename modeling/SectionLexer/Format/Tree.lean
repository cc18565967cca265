import SectionLexer.Text.Escape
import SectionLexer.Token

/-! Tokens as an indented tree: one line a token, two spaces for each frame around it. -/
namespace SectionLexer.Tree

/-- A literal shows its text, on one line. -/
def label (t : Token) : String :=
  if t.kind.isLiteral then t.kind.label ++ " " ++ Text.quoted t.text else t.kind.label

def line (depth : Nat) (t : Token) : String :=
  String.ofList (List.replicate (2 * depth) ' ') ++ label t ++ "\n"

/-- The lines of tokens inside `depth` frames. A closing mark stands below its opening mark. -/
def lines (depth : Nat) : List Token → List String
  | [] => []
  | t :: ts =>
    if t.kind.isOpening then line depth t :: lines (depth + 1) ts
    else if t.kind.isClosing then line (depth - 1) t :: lines (depth - 1) ts
    else line depth t :: lines depth ts

def render (ts : List Token) : String := String.join (lines 0 ts)

end SectionLexer.Tree
