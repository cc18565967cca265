import SectionLexer.Token

/-! Whether opening and closing marks are nested, and the first point where they are not. -/
namespace SectionLexer

/-- The first violation of the nesting. -/
inductive Imbalance where
  | unopened (frame : Frame) (position : Position)
  | mismatched (expected found : Frame) (position : Position)
  | unclosed (count : Nat) (innermost : Frame)
deriving DecidableEq, Repr

def Imbalance.message : Imbalance → String
  | unopened f p => s!"{p}: End{f} with no open frame"
  | mismatched e f p => s!"{p}: End{f} does not close the open {e}"
  | unclosed n f => s!"{n} frame(s) left open at end of stream, innermost {f}"

/-- The first violation among tokens inside the open frames `stack`, innermost first. -/
def imbalance? : List Frame → List Token → Option Imbalance
  | [], [] => none
  | f :: stack, [] => some (.unclosed (stack.length + 1) f)
  | stack, t :: ts =>
    match t.kind with
    | .opening f => imbalance? (f :: stack) ts
    | .closing f =>
      match stack with
      | [] => some (.unopened f t.position)
      | g :: below => if g = f then imbalance? below ts else some (.mismatched g f t.position)
    | _ => imbalance? stack ts

/-- Well nested: nothing, or a frame around well nested tokens, then well nested tokens. Tokens that
are no marks may stand anywhere. -/
inductive Balanced : List Token → Prop where
  | nil : Balanced []
  | skip {t : Token} {ts : List Token} : t.kind.frame? = none → Balanced ts → Balanced (t :: ts)
  | frame {f : Frame} {o c : Token} {ts us : List Token} : o.kind = .opening f →
      c.kind = .closing f → Balanced ts → Balanced us → Balanced (o :: ts ++ c :: us)

end SectionLexer
