import SectionLexer.Diagnostic
import SectionLexer.Token

/-! Runs of tokens that decide a level together: line ends, leading spaces with the dot behind them,
a dot on its own. Every other token is a run of one. -/
namespace SectionLexer

inductive Run where
  | newlines (first : Token) (more : List Token)
  | spaces (first : Token) (more : List Token) (dot : Option Token)
  | dot (t : Token)
  | other (t : Token)
deriving DecidableEq, Repr

namespace Run

def tokens : Run → List Token
  | newlines t more => t :: more
  | spaces t more d => t :: more ++ d.toList
  | dot t => [t]
  | other t => [t]

def first : Run → Token
  | newlines t _ | spaces t _ _ | dot t | other t => t

/-- Puts a token in front of the runs of what follows it. -/
def attach (t : Token) (rs : List Run) : List Run :=
  match t.kind, rs with
  | .newline, newlines u more :: rs => newlines t (u :: more) :: rs
  | .newline, rs => newlines t [] :: rs
  | .space, spaces u more d :: rs => spaces t (u :: more) d :: rs
  | .space, dot u :: rs => spaces t [] (some u) :: rs
  | .space, rs => spaces t [] none :: rs
  | .dotSpace, rs => dot t :: rs
  | _, rs => other t :: rs

/-- The longest runs of a token list. -/
def ofTokens (ts : List Token) : List Run := ts.foldr attach []

@[simp] theorem ofTokens_nil : ofTokens [] = [] := rfl

@[simp] theorem ofTokens_cons (t : Token) (ts : List Token) :
    ofTokens (t :: ts) = attach t (ofTokens ts) := rfl

theorem flatMap_tokens_attach (t : Token) (rs : List Run) :
    (attach t rs).flatMap tokens = t :: rs.flatMap tokens := by
  unfold attach
  split <;> simp [tokens]

/-- Nothing is lost. -/
theorem flatMap_tokens_ofTokens (ts : List Token) : (ofTokens ts).flatMap tokens = ts := by
  induction ts with
  | nil => rfl
  | cons t ts ih => rw [ofTokens_cons, flatMap_tokens_attach, ih]

/-- Whether the line that starts here sets its own level. -/
def setsLevel : Run → Bool
  | spaces .. | dot _ => true
  | _ => false

/-- Two spaces are a level. -/
def complaint? : Run → Option (Position × Complaint)
  | spaces t more _ =>
    if (more.length + 1) % 2 = 0 then none else some (t.position, .oddIndent (more.length + 1))
  | _ => none

end Run

end SectionLexer
