import SectionLexer.Cue.Frames

/-! Replaying the marks that are written leads to the stack that they were written for. -/
namespace SectionLexer

/-- Reads tokens inside open frames, and follows the closing marks among them. -/
structure ReplaysClosings {α : Type} (F : List Frame → List Token → α) : Prop where
  closing : ∀ f p stack ts, F (f :: stack) (Token.mark (.closing f) p :: ts) = F stack ts

/-- Follows the opening marks too. -/
structure Replays {α : Type} (F : List Frame → List Token → α) : Prop extends
    ReplaysClosings F where
  opening : ∀ f p stack ts, F stack (Token.mark (.opening f) p :: ts) = F (f :: stack) ts

variable {α : Type} {F : List Frame → List Token → α}

namespace Edit

/-- The stack that an edit leaves is the one that its tokens lead to. -/
def Tracks (F : List Frame → List Token → α) (a : Edit) : Prop :=
  ∀ stack ts, F stack ((a stack).1 ++ ts) = F (a stack).2 ts

variable {a b : Edit}

theorem nothing_tracks : (write []).Tracks F := fun _ _ => rfl

theorem opening_tracks (hF : Replays F) (f : Frame) (p : Position) : (opening f p).Tracks F :=
  fun stack ts => hF.opening f p stack ts

theorem closing_tracks (hF : ReplaysClosings F) (f : Frame) (p : Position) :
    (closing f p).Tracks F := by
  intro stack ts
  rcases stack with _ | ⟨g, stack⟩
  · rfl
  · by_cases h : g = f
    · subst h
      simpa [closing] using hF.closing g p stack ts
    · simp [closing, h]

theorem closingAll_tracks (hF : ReplaysClosings F) (p : Position) : (closingAll p).Tracks F := by
  intro stack ts
  induction stack with
  | nil => rfl
  | cons f stack ih => exact (hF.closing f p stack _).trans ih

theorem andThen_tracks (ha : a.Tracks F) (hb : b.Tracks F) : (a.andThen b).Tracks F := by
  intro stack ts
  simp only [andThen, List.append_assoc]
  rw [ha, hb]

theorem when_tracks (c : Bool) (ha : a.Tracks F) : (when c a).Tracks F := by
  cases c with
  | true => exact ha
  | false => exact nothing_tracks

theorem closingArgument_tracks (hF : ReplaysClosings F) (p : Position) :
    (closingArgument p).Tracks F :=
  andThen_tracks (andThen_tracks (closing_tracks hF .sect p) (closing_tracks hF .argumentGroup p))
    (closing_tracks hF .argument p)

theorem openingArgument_tracks (hF : Replays F) (p : Position) (header : Bool) :
    (openingArgument p header).Tracks F :=
  andThen_tracks (opening_tracks hF .argument p)
    (when_tracks header (opening_tracks hF .argumentGroup p))

end Edit

namespace Cue

/-- The tokens of a cue that are written as they are. -/
def kept : Cue → List Token
  | header name colon => [name, colon]
  | other t => [t]
  | _ => []

/-- One step: what a cue does to the stack is written, and behind it what is kept of the cue. -/
theorem edit_replays (hF : Replays F) (c : Cue) (header : Bool) (stack : List Frame)
    (ts : List Token) :
    F stack ((c.edit header stack).1 ++ ts) = F (c.edit header stack).2 (c.kept ++ ts) := by
  have hC : ReplaysClosings F := hF.toReplaysClosings
  cases c with
  | header name colon =>
    have hopen := Edit.when_tracks stack.isEmpty
      (Edit.opening_tracks hF .topLevelGroup name.position)
    have hclose := Edit.andThen_tracks hopen (Edit.closing_tracks hC .sect name.position)
    have hsect := Edit.andThen_tracks hclose (Edit.opening_tracks hF .sect name.position)
    simpa [edit, Edit.andThen, Edit.write, kept] using hsect stack ([name, colon] ++ ts)
  | dot i t =>
    cases i with
    | some u => exact Edit.openingArgument_tracks hF u.position header stack ts
    | none =>
      exact Edit.andThen_tracks (Edit.closingArgument_tracks hC t.position)
        (Edit.openingArgument_tracks hF t.position header) stack ts
  | dedent t => exact Edit.closingArgument_tracks hC t.position stack ts
  | blankLine t => exact Edit.closingAll_tracks hC t.position stack ts
  | strayIndent t | lineEnd t => exact Edit.nothing_tracks stack ts
  | other t => rfl

theorem bracket_replays (hF : Replays F) (c : Cue) (cs : List Cue) (stack : List Frame)
    (last : Position) :
    F stack (bracket stack last (c :: cs)) =
      F (c.edit (headerFirst cs) stack).2
        (c.kept ++ bracket (c.edit (headerFirst cs) stack).2 c.position cs) :=
  edit_replays hF c (headerFirst cs) stack _

theorem bracket_nil_replays (hF : Replays F) (stack : List Frame) (last : Position) :
    F stack (bracket stack last []) = F [] [] := by
  simpa [bracket, Edit.closingAll] using Edit.closingAll_tracks hF.toReplaysClosings last stack []

theorem kept_subset_tokens (c : Cue) : ∀ t ∈ c.kept, t ∈ c.tokens := by
  intro t ht
  cases c <;> simp_all [kept, tokens]

end Cue

end SectionLexer
