import SectionLexer.Diagnostic
import SectionLexer.Token

/-! Cues: tokens that open or close frames together. -/
namespace SectionLexer

inductive Cue where
  /-- The header of a section. -/
  | header (name colon : Token)
  /-- A dot, with the change of level that leads to it. -/
  | dot (indent : Option Token) (dot : Token)
  | dedent (t : Token)
  | blankLine (t : Token)
  /-- A change of level that leads to no dot. -/
  | strayIndent (t : Token)
  | lineEnd (t : Token)
  | other (t : Token)
deriving DecidableEq, Repr

namespace Cue

def tokens : Cue → List Token
  | header name colon => [name, colon]
  | dot i t => i.toList ++ [t]
  | dedent t | blankLine t | strayIndent t | lineEnd t | other t => [t]

def first : Cue → Token
  | header t _ | dot (some t) _ | dot none t => t
  | dedent t | blankLine t | strayIndent t | lineEnd t | other t => t

def position (c : Cue) : Position := c.first.position

def isHeader : Cue → Bool
  | header .. => true
  | _ => false

/-- The cue of a token on its own. -/
def single (t : Token) : Cue :=
  match t.kind with
  | .dotSpace => dot none t
  | .unindent => dedent t
  | .lineBreak => blankLine t
  | .indent => strayIndent t
  | .newline => lineEnd t
  | _ => other t

/-- Puts a token in front of the cues of what follows it. -/
def attach (t : Token) (cs : List Cue) : List Cue :=
  match t.kind, cs with
  | .name, other u :: cs => if u.kind = .colon then header t u :: cs else other t :: other u :: cs
  | .indent, dot none u :: cs => dot (some t) u :: cs
  | _, cs => single t :: cs

def ofTokens (ts : List Token) : List Cue := ts.foldr attach []

@[simp] theorem ofTokens_nil : ofTokens [] = [] := rfl

@[simp] theorem ofTokens_cons (t : Token) (ts : List Token) :
    ofTokens (t :: ts) = attach t (ofTokens ts) := rfl

theorem tokens_single (t : Token) : (single t).tokens = [t] := by
  unfold single
  split <;> rfl

theorem flatMap_tokens_attach (t : Token) (cs : List Cue) :
    (attach t cs).flatMap tokens = t :: cs.flatMap tokens := by
  unfold attach
  split
  · split <;> simp [tokens]
  · simp [tokens]
  · simp [tokens_single]

/-- Nothing is lost. -/
theorem flatMap_tokens_ofTokens (ts : List Token) : (ofTokens ts).flatMap tokens = ts := by
  induction ts with
  | nil => rfl
  | cons t ts ih => rw [ofTokens_cons, flatMap_tokens_attach, ih]

/-- A level deeper than the line before is for dots. -/
def complaint? : Cue → Option (Position × Complaint)
  | strayIndent t => some (t.position, .unexpectedIndent)
  | _ => none

end Cue

end SectionLexer
