import SectionLexer.Diagnostic
import SectionLexer.Literal
import SectionLexer.Token

/-! The pieces that a text is made of. Each piece knows its spelling, the token it yields, and what
is wrong with it; its place is where the pieces before it end. -/
namespace SectionLexer

inductive Piece where
  | name (word : List Char)
  | colon
  | dotSpace
  | newline
  /-- One leading space of a line that goes on. -/
  | space
  /-- `missing` when no argument stands before it. -/
  | comma (missing : Bool)
  /-- What stands between double quotes, as it is spelled. -/
  | text (raw : List Char) (closed : Bool)
  | formulation (quote : Quote) (body : List Char) (closed : Bool)
  | plain (s : List Char)
  | textBlock (body : List Char) (closed : Bool)
  | id (body : List Char) (closed : Bool)
  /-- A space that means nothing, `trailing` when it starts a run of spaces before the end of a line
  of arguments. -/
  | gap (trailing : Bool)
  | unrecognized (c : Char)
  /-- The rest of a line that stands where only a comma may. -/
  | skipped (rest : List Char)
deriving DecidableEq, Repr

namespace Piece

/-- The closing delimiter, if it was found. -/
def ending (closed : Bool) (delimiter : List Char) : List Char := if closed then delimiter else []

def spelling : Piece → List Char
  | name word => word
  | colon => [':']
  | dotSpace => ['.', ' ']
  | newline => ['\n']
  | space => [' ']
  | comma _ => [',']
  | text raw closed => '"' :: raw ++ ending closed ['"']
  | formulation q body closed => q.char :: body ++ ending closed [q.char]
  | plain s => s
  | textBlock body closed => ':' :: ':' :: body ++ ending closed [':', ':']
  | id body closed => '[' :: body ++ ending closed [']']
  | gap _ => [' ']
  | unrecognized c => [c]
  | skipped rest => rest

/-- The kind and the text of the token that a piece yields. -/
def content? : Piece → Option (Kind × List Char)
  | name word => some (.name, word)
  | colon => some (.colon, [':'])
  | dotSpace => some (.dotSpace, ['.', ' '])
  | newline => some (.newline, ['\n'])
  | space => some (.space, [' '])
  | comma _ => some (.comma, [','])
  | text raw _ => some (.text, Literal.unescape raw)
  | formulation _ body _ => some (.formulation, body)
  | plain s => some (.argumentText, s)
  | textBlock body _ => some (.textBlock, body)
  | id body _ => some (.id, body)
  | gap _ | unrecognized _ | skipped _ => none

/-- The token of a piece that starts at `p`. -/
def token? (p : Position) (x : Piece) : Option Token :=
  x.content?.map fun (kind, s) => ⟨kind, String.ofList s, p⟩

/-- A text without the spaces at its end. -/
def trimRight (s : List Char) : List Char := (s.reverse.dropWhile (· == ' ')).reverse

/-- What is wrong with a literal that starts at `p`. -/
def unclosed (e : Enclosure) (closed : Bool) (p : Position) : Option (Position × Complaint) :=
  if closed then none else some (p, .unterminated e)

/-- What is wrong with a piece that starts at `p`, and where. A plain argument with a bracket left
open is not also told of the spaces at its end. -/
def complaint? (p : Position) : Piece → Option (Position × Complaint)
  | comma true => some (p, .missingArgument)
  | text _ closed => unclosed .text closed p
  | formulation q _ closed => unclosed (.formulation q) closed p
  | textBlock _ closed => unclosed .textBlock closed p
  | id _ closed => unclosed .id closed p
  | plain s =>
    match Bracket.openAfter s with
    | b :: _ => some (p, .unterminated (.bracket b))
    | [] =>
      if trimRight s = s then none else some (p.after (trimRight s), .trailingWhitespace)
  | gap true => some (p, .trailingWhitespace)
  | unrecognized c => some (p, .unrecognized c)
  | skipped _ => some (p, .missingComma)
  | _ => none

/-- All that can be wrong with a piece that starts at `p`. Only the spaces at the end of an argument
are told of behind its start. -/
inductive Faulty (p : Position) : Piece → Position × Complaint → Prop
  | unterminated {x : Piece} {e : Enclosure} : Faulty p x (p, .unterminated e)
  | missingArgument : Faulty p (comma true) (p, .missingArgument)
  | missingComma {rest : List Char} : Faulty p (skipped rest) (p, .missingComma)
  | unrecognized {d : Char} : Faulty p (unrecognized d) (p, .unrecognized d)
  | gap : Faulty p (gap true) (p, .trailingWhitespace)
  | trailing {s : List Char} :
    trimRight s ≠ s → Faulty p (plain s) (p.after (trimRight s), .trailingWhitespace)

theorem faulty_of_complaint {x : Piece} {p : Position} {c : Position × Complaint}
    (h : x.complaint? p = some c) : Faulty p x c := by
  have hunclosed {x : Piece} {e : Enclosure} {closed : Bool} (h : unclosed e closed p = some c) :
      Faulty p x c := by
    cases closed <;> cases h
    exact .unterminated
  cases x with
  | text | formulation | textBlock | id => exact hunclosed h
  | plain s =>
    simp only [complaint?] at h
    split at h
    · cases h
      exact .unterminated
    · split at h
      · cases h
      · rename_i htrim
        cases h
        exact .trailing htrim
  | comma missing =>
    cases missing <;> cases h
    exact .missingArgument
  | gap trailing =>
    cases trailing <;> cases h
    exact .gap
  | unrecognized =>
    cases h
    exact .unrecognized
  | skipped =>
    cases h
    exact .missingComma
  | name | colon | dotSpace | newline | space => cases h

/-- Every piece with its place, the first one at `p`. -/
def place (p : Position) : List Piece → List (Position × Piece)
  | [] => []
  | x :: xs => (p, x) :: place (p.after x.spelling) xs

/-- The tokens of pieces that start at `p`. -/
def tokens (p : Position) (xs : List Piece) : List Token :=
  (place p xs).filterMap fun (p, x) => x.token? p

/-- The complaints about pieces that start at `p`. -/
def complaints (p : Position) (xs : List Piece) : List (Position × Complaint) :=
  (place p xs).filterMap fun (p, x) => x.complaint? p

/-- What a list of pieces spells. -/
def spell (xs : List Piece) : List Char := xs.flatMap spelling

@[simp] theorem spell_nil : spell [] = [] := rfl

@[simp] theorem spell_cons (x : Piece) (xs : List Piece) :
    spell (x :: xs) = x.spelling ++ spell xs := rfl

@[simp] theorem spell_append (xs ys : List Piece) : spell (xs ++ ys) = spell xs ++ spell ys := by
  simp [spell]

@[simp] theorem place_nil (p : Position) : place p [] = [] := rfl

@[simp] theorem place_cons (p : Position) (x : Piece) (xs : List Piece) :
    place p (x :: xs) = (p, x) :: place (p.after x.spelling) xs := rfl

theorem place_append (p : Position) (xs ys : List Piece) :
    place p (xs ++ ys) = place p xs ++ place (p.after (spell xs)) ys := by
  induction xs generalizing p with
  | nil => rfl
  | cons x xs ih => simp [ih]

theorem tokens_append (p : Position) (xs ys : List Piece) :
    tokens p (xs ++ ys) = tokens p xs ++ tokens (p.after (spell xs)) ys := by
  simp [tokens, place_append]

theorem complaints_append (p : Position) (xs ys : List Piece) :
    complaints p (xs ++ ys) = complaints p xs ++ complaints (p.after (spell xs)) ys := by
  simp [complaints, place_append]

end Piece

end SectionLexer
