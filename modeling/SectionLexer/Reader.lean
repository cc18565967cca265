import SectionLexer.Position

/-! A cursor over the characters of a text, each with its place. -/
namespace SectionLexer

structure Reader where
  chars : Array (Char × Position)
  index : Nat := 0
  /-- The place behind all characters. -/
  finish : Position
deriving DecidableEq, Repr

namespace Reader

/-- The place behind a text of so many bytes, told by its last character. -/
def finishBehind (bytes : Nat) : Option (Char × Position) → Position
  | none => {}
  | some (c, p) => if c = '\n' then ⟨bytes, p.row + 1, 0⟩ else ⟨bytes, p.row, p.column + 1⟩

def ofText (s : List Char) : Reader :=
  let chars := (placeChars {} s).toArray
  ⟨chars, 0, finishBehind (byteLength s) chars.back?⟩

variable (r : Reader)

def hasNext : Bool := r.index < r.chars.size

/-- The character `n` places ahead. -/
def peekNth (n : Nat) : Option Char := r.chars[r.index + n]?.map Prod.fst

def peek : Option Char := r.peekNth 0

/-- The place of the next character, or the one behind all of them. -/
def position : Position := (r.chars[r.index]?.map Prod.snd).getD r.finish

/-- The next character with its place, and the reader behind it. -/
def next : Option (Char × Position) × Reader :=
  match r.chars[r.index]? with
  | none => (none, r)
  | some c => (some c, { r with index := r.index + 1 })

/-- Reads on until `offset` bytes of the text are read, or all of it. -/
def advanceTo (r : Reader) (offset : Nat) : Reader :=
  if r.hasNext ∧ r.position.offset < offset then
    { r with index := r.index + 1 }.advanceTo offset
  else r
termination_by r.chars.size - r.index
decreasing_by
  simp only [hasNext, decide_eq_true_eq] at *
  omega

end Reader

end SectionLexer
