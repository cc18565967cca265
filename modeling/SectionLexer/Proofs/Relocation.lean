import SectionLexer.Cue.Frames
import SectionLexer.Run.Levels

/-! The second and the third pass look at kinds only. Tokens that are moved to other places give the
same tokens and complaints, moved with them. -/
namespace SectionLexer

variable (f : Position → Position)

/-- A token at another place. -/
def Token.moved (t : Token) : Token := { t with position := f t.position }

/-- A complaint about another place. -/
def movedComplaint (c : Position × Complaint) : Position × Complaint := (f c.1, c.2)

@[simp] theorem Token.moved_kind (t : Token) : (t.moved f).kind = t.kind := rfl

@[simp] theorem Token.moved_position (t : Token) : (t.moved f).position = f t.position := rfl

@[simp] theorem Token.moved_mark (k : Kind) (p : Position) :
    (Token.mark k p).moved f = Token.mark k (f p) := rfl

namespace Run

def moved : Run → Run
  | newlines t more => newlines (t.moved f) (more.map (·.moved f))
  | spaces t more d => spaces (t.moved f) (more.map (·.moved f)) (d.map (·.moved f))
  | dot t => dot (t.moved f)
  | other t => other (t.moved f)

@[simp] theorem setsLevel_moved (r : Run) : (r.moved f).setsLevel = r.setsLevel := by
  cases r <;> rfl

@[simp] theorem first_moved (r : Run) : (r.moved f).first = r.first.moved f := by
  cases r <;> rfl

theorem attach_moved (t : Token) (rs : List Run) :
    attach (t.moved f) (rs.map (moved f)) = (attach t rs).map (moved f) := by
  rcases rs with _ | ⟨r, rs⟩
  · cases h : t.kind <;> simp [attach, h, moved]
  · cases r <;> cases h : t.kind <;> simp [attach, h, moved]

theorem ofTokens_moved (ts : List Token) :
    ofTokens (ts.map (·.moved f)) = (ofTokens ts).map (moved f) := by
  induction ts with
  | nil => rfl
  | cons t ts ih => simp [ih, attach_moved]

theorem climb_moved (old new : Nat) (p : Position) :
    climb old new (f p) = (climb old new p).map (·.moved f) := by
  unfold climb
  split <;> simp

theorem afterNewline_moved (level : Nat) (p : Position) (rs : List Run) :
    afterNewline level (f p) (rs.map (moved f)) =
      ((afterNewline level p rs).1, f (afterNewline level p rs).2) := by
  cases rs with
  | nil => rfl
  | cons r rs => cases h : r.setsLevel <;> simp [afterNewline, h]

theorem lineBreak_moved (ts : List Token) :
    lineBreak (ts.map (·.moved f)) = (lineBreak ts).map (·.moved f) := by
  cases ts <;> rfl

theorem resolve_moved (level : Nat) (last : Position) (rs : List Run) :
    resolve level (f last) (rs.map (moved f)) = (resolve level last rs).map (·.moved f) := by
  induction rs generalizing level last with
  | nil => exact climb_moved f level 0 last
  | cons r rs ih =>
    cases r with
    | newlines t more =>
      have hnext := afterNewline_moved f level t.position rs
      simp [moved, resolve, hnext, ih, climb_moved, lineBreak_moved]
    | spaces t more d => cases d <;> simp [moved, resolve, ih, climb_moved]
    | dot t => simp [moved, resolve, ih, climb_moved]
    | other t => simp [moved, resolve, ih]

/-- At level zero nothing is left to climb down at the end. -/
theorem resolve_zero (p q : Position) (rs : List Run) : resolve 0 p rs = resolve 0 q rs := by
  cases rs with
  | nil => simp [resolve]
  | cons r rs => cases r <;> rfl

theorem complaint?_moved (r : Run) :
    (r.moved f).complaint? = r.complaint?.map (movedComplaint f) := by
  cases r with
  | spaces t more d =>
    simp only [moved, complaint?, List.length_map, Token.moved_position]
    split <;> rfl
  | _ => rfl

end Run

theorem resolveLevels_moved (ts : List Token) :
    resolveLevels (ts.map (·.moved f)) = (resolveLevels ts).map (·.moved f) := by
  rw [resolveLevels, Run.ofTokens_moved, Run.resolve_zero {} (f {}), Run.resolve_moved]
  rfl

theorem levelComplaints_moved (ts : List Token) :
    levelComplaints (ts.map (·.moved f)) = (levelComplaints ts).map (movedComplaint f) := by
  simp only [levelComplaints, Run.ofTokens_moved, List.filterMap_map, List.map_filterMap]
  congr 1
  funext r
  exact Run.complaint?_moved f r

namespace Edit

/-- An edit that writes its tokens at other places. -/
def moved (a : Edit) : Edit := fun stack => ((a stack).1.map (·.moved f), (a stack).2)

@[simp] theorem write_moved (ts : List Token) :
    (write ts).moved f = write (ts.map (·.moved f)) := rfl

@[simp] theorem opening_moved (g : Frame) (p : Position) :
    (opening g p).moved f = opening g (f p) := rfl

@[simp] theorem closing_moved (g : Frame) (p : Position) :
    (closing g p).moved f = closing g (f p) := by
  funext stack
  cases stack with
  | nil => rfl
  | cons h stack => by_cases hg : h = g <;> simp [moved, closing, hg]

@[simp] theorem closingAll_moved (p : Position) :
    (closingAll p).moved f = closingAll (f p) := by
  funext stack
  simp [moved, closingAll]

@[simp] theorem andThen_moved (a b : Edit) :
    (a.andThen b).moved f = (a.moved f).andThen (b.moved f) := by
  funext stack
  simp [moved, andThen]

@[simp] theorem when_moved (c : Bool) (a : Edit) : (when c a).moved f = when c (a.moved f) := by
  cases c <;> rfl

@[simp] theorem closingArgument_moved (p : Position) :
    (closingArgument p).moved f = closingArgument (f p) := by
  simp [closingArgument]

@[simp] theorem openingArgument_moved (p : Position) (header : Bool) :
    (openingArgument p header).moved f = openingArgument (f p) header := by
  simp [openingArgument]

end Edit

namespace Cue

def moved : Cue → Cue
  | header name colon => header (name.moved f) (colon.moved f)
  | dot i t => dot (i.map (·.moved f)) (t.moved f)
  | dedent t => dedent (t.moved f)
  | blankLine t => blankLine (t.moved f)
  | strayIndent t => strayIndent (t.moved f)
  | lineEnd t => lineEnd (t.moved f)
  | other t => other (t.moved f)

@[simp] theorem isHeader_moved (c : Cue) : (c.moved f).isHeader = c.isHeader := by
  cases c <;> rfl

@[simp] theorem position_moved (c : Cue) : (c.moved f).position = f c.position := by
  cases c with
  | dot i t => cases i <;> rfl
  | _ => rfl

theorem single_moved (t : Token) : single (t.moved f) = (single t).moved f := by
  cases h : t.kind <;> simp [single, h, moved]

theorem attach_moved (t : Token) (cs : List Cue) :
    attach (t.moved f) (cs.map (moved f)) = (attach t cs).map (moved f) := by
  rcases cs with _ | ⟨c, cs⟩
  · cases h : t.kind <;> simp [attach, h, single_moved]
  · cases c with
    | other u =>
      by_cases hu : u.kind = .colon <;> cases h : t.kind <;>
        simp [attach, h, hu, moved, single_moved]
    | dot i u => cases i <;> cases h : t.kind <;> simp [attach, h, moved, single_moved]
    | _ => cases h : t.kind <;> simp [attach, h, moved, single_moved]

theorem ofTokens_moved (ts : List Token) :
    ofTokens (ts.map (·.moved f)) = (ofTokens ts).map (moved f) := by
  induction ts with
  | nil => rfl
  | cons t ts ih => simp [ih, attach_moved]

theorem headerFirst_moved (cs : List Cue) : headerFirst (cs.map (moved f)) = headerFirst cs := by
  cases cs with
  | nil => rfl
  | cons c cs => simp [headerFirst]

theorem edit_moved (c : Cue) (header : Bool) :
    (c.moved f).edit header = (c.edit header).moved f := by
  cases c with
  | header name colon =>
    funext stack
    cases stack with
    | nil => rfl
    | cons g stack =>
      by_cases hg : g = .sect <;>
        simp [moved, edit, Edit.moved, Edit.andThen, Edit.when, Edit.write, Edit.opening,
          Edit.closing, hg]
  | dot i t => cases i <;> simp [moved, edit]
  | _ => simp [moved, edit]

theorem bracket_moved (stack : List Frame) (last : Position) (cs : List Cue) :
    bracket stack (f last) (cs.map (moved f)) = (bracket stack last cs).map (·.moved f) := by
  induction cs generalizing stack last with
  | nil => simp [bracket, Edit.closingAll]
  | cons c cs ih => simp [bracket, headerFirst_moved, edit_moved, Edit.moved, ih]

/-- Outside of all frames nothing is left to close at the end. -/
theorem bracket_nil (p q : Position) (cs : List Cue) : bracket [] p cs = bracket [] q cs := by
  cases cs <;> rfl

theorem complaint?_moved (c : Cue) :
    (c.moved f).complaint? = c.complaint?.map (movedComplaint f) := by
  cases c <;> rfl

end Cue

theorem bracketFrames_moved (ts : List Token) :
    bracketFrames (ts.map (·.moved f)) = (bracketFrames ts).map (·.moved f) := by
  rw [bracketFrames, Cue.ofTokens_moved, Cue.bracket_nil {} (f {}), Cue.bracket_moved]
  rfl

theorem frameComplaints_moved (ts : List Token) :
    frameComplaints (ts.map (·.moved f)) = (frameComplaints ts).map (movedComplaint f) := by
  simp only [frameComplaints, Cue.ofTokens_moved, List.filterMap_map, List.map_filterMap]
  congr 1
  funext c
  exact Cue.complaint?_moved f c

end SectionLexer
