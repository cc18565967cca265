/-!
Places in a text. The place after a text is its length in bytes, the number of its line ends,
and the number of characters after the last one.
-/
namespace SectionLexer

/-- A place counted from zero: bytes of the text, lines, and characters of the line before it. -/
structure Position where
  offset : Nat := 0
  row : Nat := 0
  column : Nat := 0
deriving DecidableEq, Repr, Inhabited

/-- The length of a text in UTF-8 bytes. -/
def byteLength (s : List Char) : Nat := s.foldr (fun c n => c.utf8Size + n) 0

/-- The number of line ends in a text. -/
def lineEnds (s : List Char) : Nat := s.count '\n'

/-- The characters after the last line end. -/
def lastLine (s : List Char) : List Char := (s.reverse.takeWhile (· ≠ '\n')).reverse

@[simp] theorem byteLength_nil : byteLength [] = 0 := rfl

@[simp] theorem byteLength_cons (c : Char) (s : List Char) :
    byteLength (c :: s) = c.utf8Size + byteLength s := rfl

@[simp] theorem byteLength_append (s t : List Char) :
    byteLength (s ++ t) = byteLength s + byteLength t := by
  induction s with
  | nil => simp
  | cons c s ih => simp [ih, Nat.add_assoc]

@[simp] theorem lineEnds_nil : lineEnds [] = 0 := rfl

@[simp] theorem lineEnds_append (s t : List Char) :
    lineEnds (s ++ t) = lineEnds s + lineEnds t := by simp [lineEnds]

theorem lastLine_append_newline (s : List Char) : lastLine (s ++ ['\n']) = [] := by
  simp [lastLine]

theorem lastLine_append_singleton (s : List Char) {c : Char} (h : c ≠ '\n') :
    lastLine (s ++ [c]) = lastLine s ++ [c] := by
  simp [lastLine, h]

namespace Position

/-- The place after one more character. -/
def step (p : Position) (c : Char) : Position :=
  if c = '\n' then ⟨p.offset + c.utf8Size, p.row + 1, 0⟩
  else ⟨p.offset + c.utf8Size, p.row, p.column + 1⟩

/-- The place after a text that starts at `p`. -/
def after (p : Position) (s : List Char) : Position := s.foldl step p

/-- The same place in a text that is preceded by whole lines of the given size. -/
def shift (p : Position) (bytes rows : Nat) : Position :=
  ⟨p.offset + bytes, p.row + rows, p.column⟩

/-- Shown the way editors count, from one. -/
instance : ToString Position := ⟨fun p => s!"{p.row + 1}:{p.column + 1}"⟩

variable (p : Position)

@[simp] theorem after_nil : p.after [] = p := rfl

@[simp] theorem after_cons (c : Char) (s : List Char) :
    p.after (c :: s) = (p.step c).after s := rfl

@[simp] theorem after_append (s t : List Char) : p.after (s ++ t) = (p.after s).after t := by
  simp [after]

@[simp] theorem step_offset (c : Char) : (p.step c).offset = p.offset + c.utf8Size := by
  unfold step; split <;> rfl

@[simp] theorem after_offset (s : List Char) : (p.after s).offset = p.offset + byteLength s := by
  induction s generalizing p with
  | nil => simp
  | cons c s ih => simp [ih, Nat.add_assoc]

theorem offset_lt_step (c : Char) : p.offset < (p.step c).offset := by
  have := c.utf8Size_pos
  rw [step_offset]; omega

theorem offset_le_after (s : List Char) : p.offset ≤ (p.after s).offset := by
  rw [after_offset]; omega

@[simp] theorem shift_zero : p.shift 0 0 = p := rfl

theorem shift_step (c : Char) (b r : Nat) : (p.shift b r).step c = (p.step c).shift b r := by
  by_cases h : c = '\n' <;> simp [step, shift, h] <;> omega

theorem shift_after (s : List Char) (b r : Nat) :
    (p.shift b r).after s = (p.after s).shift b r := by
  induction s generalizing p with
  | nil => rfl
  | cons c s ih => simp [shift_step, ih]

/-- The place after a text, read off the text alone. -/
def ofText (s : List Char) : Position := ⟨byteLength s, lineEnds s, (lastLine s).length⟩

theorem after_eq_ofText (s : List Char) : after {} s = ofText s := by
  obtain ⟨t, rfl⟩ : ∃ t : List Char, s = t.reverse := ⟨s.reverse, by simp⟩
  induction t with
  | nil => rfl
  | cons c t ih =>
    rw [List.reverse_cons, after_append, ih]
    by_cases h : c = '\n'
    · subst h
      simp [ofText, step, lineEnds, lastLine_append_newline]
    · simp [ofText, step, h, lineEnds, lastLine_append_singleton _ h]

end Position

/-- Every character of a text that starts at `p`, with its place. -/
def placeChars (p : Position) : List Char → List (Char × Position)
  | [] => []
  | c :: s => (c, p) :: placeChars (p.step c) s

end SectionLexer
