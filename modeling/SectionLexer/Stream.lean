import SectionLexer.Diagnostic
import SectionLexer.Token

/-! A token stream: the tokens that are left to read, and all that was found wrong on the way. -/
namespace SectionLexer

structure Stream where
  tokens : List Token
  diagnostics : List Diagnostic
deriving DecidableEq, Repr

namespace Stream

variable (s : Stream)

def hasNext : Bool := !s.tokens.isEmpty

/-- The token `n` places ahead. -/
def peekNth (n : Nat) : Option Token := s.tokens[n]?

def peek : Option Token := s.peekNth 0

def peekIs (n : Nat) (k : Kind) : Bool := (s.peekNth n).any (·.kind == k)

def next : Option Token × Stream := (s.tokens.head?, { s with tokens := s.tokens.tail })

/-- The stream behind its first `n` tokens. -/
def drop (n : Nat) : Stream := { s with tokens := s.tokens.drop n }

def hasErrors : Bool := s.diagnostics.any Diagnostic.isError

theorem drop_succ (n : Nat) : s.drop (n + 1) = s.next.2.drop n := by simp [drop, next]

theorem peekNth_next (n : Nat) : s.next.2.peekNth n = s.peekNth (n + 1) := by
  simp [peekNth, next]

theorem peek_eq_next : s.peek = s.next.1 := by
  simp [peek, peekNth, next, List.head?_eq_getElem?]

end Stream

end SectionLexer
