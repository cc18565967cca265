import SectionLexer.Run

/-! Levels of indentation. Each change of level is written out, one mark for each level. -/
namespace SectionLexer

/-- The marks at `p` that lead from level `old` to level `new`. -/
def climb (old new : Nat) (p : Position) : List Token :=
  if old < new then List.replicate (new - old) (Token.mark .indent p)
  else List.replicate (old - new) (Token.mark .unindent p)

@[simp] theorem climb_self (n : Nat) (p : Position) : climb n n p = [] := by simp [climb]

namespace Run

/-- The level of a line with `n` leading spaces, a dot counting for one more. -/
def lineLevel (n : Nat) (dotted : Bool) : Nat := n / 2 + dotted.toNat

/-- The mark of a blank line, at the second of several line ends. -/
def lineBreak : List Token → List Token
  | [] => []
  | t :: _ => [Token.mark .lineBreak t.position]

/-- The level behind line ends, and where it is reached: a line that does not set its own starts at
level zero, and so does the end of the tokens. -/
def afterNewline (level : Nat) (p : Position) : List Run → Nat × Position
  | [] => (0, p)
  | r :: _ => if r.setsLevel then (level, p) else (0, r.first.position)

/-- The tokens of runs that follow level `level`. The last level is left at `last`. -/
def resolve (level : Nat) (last : Position) : List Run → List Token
  | [] => climb level 0 last
  | newlines t more :: rs =>
    let (next, p) := afterNewline level t.position rs
    t :: lineBreak more ++ climb level next p ++ resolve next t.position rs
  | spaces t more d :: rs =>
    let next := lineLevel (more.length + 1) d.isSome
    climb level next t.position ++ d.toList ++ resolve next t.position rs
  | dot t :: rs => climb level 1 t.position ++ t :: resolve 1 t.position rs
  | other t :: rs => t :: resolve level t.position rs

end Run

/-- Spaces and dots resolved into changes of level, several line ends into a blank line. -/
def resolveLevels (ts : List Token) : List Token := Run.resolve 0 {} (Run.ofTokens ts)

/-- What is wrong with the indentation. -/
def levelComplaints (ts : List Token) : List (Position × Complaint) :=
  (Run.ofTokens ts).filterMap Run.complaint?

end SectionLexer
