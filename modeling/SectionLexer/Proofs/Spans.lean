import Mathlib.Data.List.Flatten
import SectionLexer.Proofs.Content
import SectionLexer.Proofs.Isolation
import SectionLexer.Proofs.Order
import SectionLexer.Proofs.Positions
import SectionLexer.Proofs.TrailingNewlines

/-! The order of the third pass. What it writes for a cue stands where the cue starts, and what is
open at the end is closed where the last cue starts. So no frame ends before it begins, unless the
tokens stop right behind a section header or a dot. -/
namespace SectionLexer

variable {ts : List Token} {t : Token} {p : Position} {stack : List Frame}

namespace Cue

variable {c : Cue} {cs : List Cue}

/-- The places where a cue writes: where it starts, and a header at its colon. -/
def places : Cue → List Position
  | header name colon => [name.position, colon.position]
  | c => [c.position]

theorem position_of_closingAll (h : t ∈ (Edit.closingAll p stack).1) : t.position = p := by
  have hwrites : (Edit.closingAll p).Writes (·.position = p) := Edit.closingAll_writes fun _ => rfl
  exact hwrites stack t h

/-- The marks of a header stand where it starts, in front of its name. -/
theorem edit_header_split (name colon : Token) (b : Bool) (stack : List Frame) :
    ∃ out, ((header name colon).edit b stack).1 = out ++ [name, colon] ∧
      ∀ t ∈ out, t.position = name.position := by
  let marks := (Edit.when stack.isEmpty (Edit.opening .topLevelGroup name.position)).andThen
    (Edit.closing .sect name.position) |>.andThen (Edit.opening .sect name.position)
  have hmarks : marks.Writes (·.position = name.position) :=
    Edit.andThen_writes (Edit.andThen_writes (Edit.when_writes _ (Edit.opening_writes rfl))
      (Edit.closing_writes rfl)) (Edit.opening_writes rfl)
  exact ⟨(marks stack).1, rfl, hmarks stack⟩

/-- All that is written for a cue stands where the cue starts, but for the colon of a header. -/
theorem edit_split (c : Cue) (b : Bool) (stack : List Frame) : ∃ out, ∃ l : Option Token,
    (c.edit b stack).1 = out ++ l.toList ∧ (∀ t ∈ out, t.position = c.position) ∧
      ∀ t ∈ l, ∃ name, c = header name t := by
  have hstays {c : Cue} (h : (c.edit b).Writes (·.position = c.position)) :
      ∃ out, ∃ l : Option Token, (c.edit b stack).1 = out ++ l.toList ∧
        (∀ t ∈ out, t.position = c.position) ∧ ∀ t ∈ l, ∃ name, c = header name t :=
    ⟨_, none, (List.append_nil _).symm, h stack, by simp⟩
  cases c with
  | header name colon =>
    obtain ⟨out, hedit, hout⟩ := edit_header_split name colon b stack
    refine ⟨out ++ [name], some colon, by simp [hedit],
      List.forall_mem_append.2 ⟨hout, by simp [position, first]⟩, fun t ht => ⟨name, ?_⟩⟩
    rw [← Option.some.inj ht]
  | dot i t =>
    cases i with
    | none =>
      exact hstays (Edit.andThen_writes (Edit.closingArgument_writes fun _ _ => rfl)
        (Edit.openingArgument_writes (fun _ _ => rfl) b))
    | some u => exact hstays (Edit.openingArgument_writes (fun _ _ => rfl) b)
  | dedent t => exact hstays (Edit.closingArgument_writes fun _ _ => rfl)
  | blankLine t => exact hstays (Edit.closingAll_writes fun _ => rfl)
  | strayIndent | lineEnd => exact hstays (Edit.write_writes (List.forall_mem_nil _))
  | other t =>
    refine hstays fun stack u hu => ?_
    rw [List.mem_singleton.1 hu]
    rfl

theorem position_mem_places (c : Cue) : c.position ∈ c.places := by
  cases c <;> simp [places, position, first]

theorem edit_places {b : Bool} (h : t ∈ (c.edit b stack).1) : t.position ∈ c.places := by
  obtain ⟨out, l, heq, hout, hl⟩ := c.edit_split b stack
  rw [heq] at h
  rcases List.mem_append.1 h with h | h
  · rw [hout t h]
    exact c.position_mem_places
  · obtain ⟨name, rfl⟩ := hl t (Option.mem_toList.1 h)
    simp [places]

/-- Places in the order of the text. -/
def PlacesInOrder (cs : List Cue) : Prop :=
  (cs.flatMap places).Pairwise fun p q => p.offset ≤ q.offset

theorem edit_inOrder (h : c.places.Pairwise fun p q => p.offset ≤ q.offset) (b : Bool)
    (stack : List Frame) : InOrder (c.edit b stack).1 := by
  obtain ⟨out, l, heq, hout, hl⟩ := c.edit_split b stack
  rw [heq]
  refine (inOrder_of_position hout).append (by cases l <;> simp [InOrder]) fun t ht u hu => ?_
  obtain ⟨name, rfl⟩ := hl u (Option.mem_toList.1 hu)
  rw [hout t ht]
  exact List.rel_of_pairwise_cons h (by simp)

theorem bracket_places (h : t ∈ bracket stack p cs) :
    t.position ∈ cs.flatMap places ∨ cs = [] ∧ t.position = p := by
  induction cs generalizing stack p with
  | nil => exact .inr ⟨rfl, position_of_closingAll h⟩
  | cons c cs ih =>
    rw [List.flatMap_cons]
    left
    rcases List.mem_append.1 h with h | h
    · exact List.mem_append_left _ (edit_places h)
    · rcases ih h with h | ⟨-, h⟩
      · exact List.mem_append_right _ h
      · rw [h]
        exact List.mem_append_left _ c.position_mem_places

/-- What is open at the end is closed where the last cue starts. Unless that is a header, nothing
was written behind it. -/
theorem bracket_inOrder (h : PlacesInOrder cs) (hlast : ∀ c ∈ cs.getLast?, c.isHeader = false)
    (stack : List Frame) (last : Position) : InOrder (bracket stack last cs) := by
  induction cs generalizing stack last with
  | nil => exact inOrder_of_position fun t ht => position_of_closingAll ht
  | cons c cs ih =>
    obtain ⟨hc, hcs, hcross⟩ := List.pairwise_append.1 h
    have hrest : ∀ c ∈ cs.getLast?, c.isHeader = false := by
      cases cs with
      | nil => simp
      | cons d cs => simpa using hlast
    refine (edit_inOrder hc _ stack).append (ih hcs hrest _ _) fun t ht u hu => ?_
    rcases bracket_places hu with hmem | ⟨rfl, hplace⟩
    · exact hcross _ (edit_places ht) _ hmem
    -- the last cue is no header, so it writes where it starts, and there the rest is closed
    · have hplaces : c.places = [c.position] := by
        cases c with
        | header => cases hlast _ rfl
        | _ => rfl
      have hwritten := edit_places ht
      rw [hplaces, List.mem_singleton] at hwritten
      exact Nat.le_of_eq (by rw [hwritten, hplace])

theorem places_sublist (c : Cue) : c.places.Sublist (c.tokens.map (·.position)) := by
  cases c with
  | dot i t => cases i <;> simp [places, tokens, position, first]
  | _ => simp [places, tokens, position, first]

theorem placesInOrder_ofTokens (h : InOrder ts) : PlacesInOrder (ofTokens ts) := by
  have hsub : ((ofTokens ts).flatMap places).Sublist (ts.map (·.position)) := by
    conv => rhs; rw [← flatMap_tokens_ofTokens ts]
    rw [List.map_flatMap]
    exact List.Sublist.flatMap_right _ fun c _ => c.places_sublist
  have hts : (ts.map (·.position)).Pairwise fun p q => p.offset ≤ q.offset :=
    List.pairwise_map.2 h
  exact hts.sublist hsub

/-- A dot is a cue of its own, unless a change of level leads to it. -/
theorem ofTokens_append_dot {d : Token} (hts : ∀ i ∈ ts.getLast?, i.kind ≠ .indent)
    (hd : d.kind = .dotSpace) (us : List Token) :
    ofTokens (ts ++ d :: us) = ofTokens ts ++ .dot none d :: ofTokens us := by
  have hdot : ofTokens (d :: us) = .dot none d :: ofTokens us := by simp [attach, single, hd]
  induction ts with
  | nil => exact hdot
  | cons t ts ih =>
    rcases ts with _ | ⟨v, ts⟩
    · have ht : t.kind ≠ .indent := hts t rfl
      rw [List.singleton_append, ofTokens_cons, hdot]
      cases h : t.kind <;> simp_all [attach, single]
    · have hrest := ih (by simpa using hts)
      have hne : ofTokens (v :: ts) ≠ [] := attach_ne_nil v _
      rw [List.cons_append, ofTokens_cons, hrest, attach_append hne]
      rfl

end Cue

/-- Tokens that close a frame early: they end in a section header, or they leave the level of a dot
in front of the dot, where no change of level leads to it. -/
inductive EndsEarly : List Token → Prop where
  | header {front : List Token} {name colon : Token} : name.kind = .name → colon.kind = .colon →
      EndsEarly (front ++ [name, colon])
  | dot {front more : List Token} {d u : Token} : (∀ i ∈ front.getLast?, i.kind ≠ .indent) →
      d.kind = .dotSpace → u.kind = .unindent → u.position.offset < d.position.offset →
      EndsEarly (front ++ d :: u :: more)

theorem bracketFrames_inOrder (h : InOrder ts) (hts : ¬ EndsEarly ts) :
    InOrder (bracketFrames ts) := by
  refine Cue.bracket_inOrder (Cue.placesInOrder_ofTokens h) (fun c hc => ?_) [] {}
  obtain ⟨cs, hcs⟩ := List.getLast?_eq_some_iff.1 hc
  cases c with
  | header name colon =>
    obtain ⟨hname, hcolon⟩ := Cue.ofTokens_fits ts (.header name colon) (by simp [hcs])
    rw [← Cue.flatMap_tokens_ofTokens ts, hcs, List.flatMap_append] at hts
    exact absurd (.header hname hcolon) hts
  | _ => rfl

theorem not_inOrder_of_lt {out rest : List Token} {u : Token} (h : ts = out ++ t :: u :: rest)
    (hlt : u.position.offset < t.position.offset) : ¬ InOrder ts := by
  intro hts
  rw [h] at hts
  have hle := List.rel_of_pairwise_cons (List.pairwise_append.1 hts).2.1 (List.mem_cons_self ..)
  exact Nat.not_le_of_lt hlt hle

theorem not_endsEarly_of_inOrder (h : InOrder ts) (hlast : ∀ t ∈ ts.getLast?, t.kind ≠ .colon) :
    ¬ EndsEarly ts := by
  rintro (⟨-, hcolon⟩ | ⟨-, -, -, hlt⟩)
  · exact hlast _ (by simp) hcolon
  · exact not_inOrder_of_lt rfl hlt h

variable {front : List Token} {m i d : Token} {k : Nat} {q : Position}

/-- Behind a blank line nothing is left to close, wherever its levels are left. -/
theorem bracketFrames_blankLine_inOrder (hm : m.kind = .newline)
    (h : InOrder (front ++ [m, .mark .lineBreak p])) (k : Nat) (q : Position) :
    InOrder (bracketFrames (front ++ [m, .mark .lineBreak p] ++
      List.replicate k (.mark .unindent q))) := by
  -- the levels may as well be left at the blank line
  have hmove : bracketFrames (front ++ [m, .mark .lineBreak p] ++
      List.replicate k (.mark .unindent q)) =
      bracketFrames (front ++ [m, .mark .lineBreak p] ++
        List.replicate k (.mark .unindent p)) := by
    obtain ⟨out, _, hout⟩ := bracketFrames_blankLine front hm p k
    have hq := (hout [] q).1
    have hp := (hout [] p).1
    simp only [List.append_nil] at hq hp
    simp [hq, hp]
  have horder : InOrder (front ++ [m, .mark .lineBreak p] ++
      List.replicate k (.mark .unindent p)) := by
    have hlast : InOrder (front ++ [m] ++ [.mark .lineBreak p]) := by simpa using h
    exact h.append_unindents (fun t ht => hlast.offset_le_last t (by simpa using ht)) k
  rw [hmove]
  refine bracketFrames_inOrder horder (not_endsEarly_of_inOrder horder fun t ht => ?_)
  rcases mem_getLast?_append_replicate ht with ht | rfl
  · simp at ht
    simp [← ht, Token.mark]
  · simp [Token.mark]

/-- A change of level that leads to a dot takes the dot to where it stands itself. -/
theorem bracketFrames_dot_inOrder (hi : i.kind = .indent) (hd : d.kind = .dotSpace)
    (h : InOrder (front ++ [i] ++ List.replicate k (.mark .unindent q))) :
    InOrder (bracketFrames (front ++ [i, d] ++ List.replicate k (.mark .unindent q))) := by
  let marks := List.replicate k (Cue.dedent (.mark .unindent q))
  have hcues : Cue.ofTokens (front ++ [i, d] ++ List.replicate k (.mark .unindent q)) =
      Cue.ofTokens front ++ .dot (some i) d :: marks := by
    rw [Cue.ofTokens_append_unindents, Cue.ofTokens_append (by simp [hi])]
    simp [Cue.attach, Cue.single, hi, hd, marks]
  have hstray : Cue.ofTokens (front ++ [i] ++ List.replicate k (.mark .unindent q)) =
      Cue.ofTokens front ++ .strayIndent i :: marks := by
    rw [Cue.ofTokens_append_unindents, Cue.ofTokens_append (by simp [hi])]
    simp [Cue.attach, Cue.single, hi, marks]
  have hplaces := Cue.placesInOrder_ofTokens h
  rw [hstray] at hplaces
  rw [bracketFrames, hcues]
  refine Cue.bracket_inOrder ?_ (fun c hc => ?_) [] {}
  -- the dot writes where a change of level would that leads to no dot
  · simpa [Cue.PlacesInOrder, Cue.places, Cue.position, Cue.first] using hplaces
  · rw [List.getLast?_append_of_ne_nil _ (List.cons_ne_nil _ _)] at hc
    rcases List.mem_cons.1 (List.mem_of_getLast? hc) with rfl | hc
    · rfl
    · rw [List.eq_of_mem_replicate hc]
      rfl

/-- A dot behind which all levels are left, at `q` in front of it. -/
theorem bracketFrames_leave_inOrder (hd : d.kind = .dotSpace) (hlt : q.offset < d.position.offset)
    (h : InOrder front) (hq : ∀ t ∈ front, t.position.offset ≤ q.offset)
    (hts : ¬ EndsEarly (front ++ d :: List.replicate (k + 1) (.mark .unindent q))) :
    InOrder (bracketFrames (front ++ d :: List.replicate (k + 1) (.mark .unindent q))) := by
  by_cases hlead : ∀ i ∈ front.getLast?, i.kind ≠ .indent
  · exact absurd (.dot hlead hd rfl hlt) hts
  · push Not at hlead
    obtain ⟨i, hlast, hi⟩ := hlead
    obtain ⟨front, rfl⟩ := List.getLast?_eq_some_iff.1 hlast
    simpa using bracketFrames_dot_inOrder hi hd (h.append_unindents hq (k + 1))

/-- Unless the tokens end early, no frame ends before it begins. -/
theorem bracketFrames_resolveLevels_inOrder (h : StrictlyInOrder ts)
    (hts : ¬ EndsEarly (resolveLevels ts)) : InOrder (bracketFrames (resolveLevels ts)) := by
  by_cases hne : ts = []
  · subst hne
    exact .nil
  obtain ⟨r, out, next, hlast⟩ := exists_lastRun h hne
  -- only a blank line and a dot behind spaces stand behind the start of the last run
  have hbehind (hr : ∀ t ∈ r.written next, t.position = r.first.position) :
      InOrder (bracketFrames (resolveLevels ts)) :=
    bracketFrames_inOrder (hlast.inOrder_of_position hr) hts
  cases r with
  | newlines t more =>
    cases more with
    | nil => exact hbehind (by simp [Run.written, Run.lineBreak, Run.first])
    | cons u more =>
      rw [hlast.resolved]
      exact bracketFrames_blankLine_inOrder hlast.fits.1 hlast.inOrder _ _
  | spaces t more d =>
    let marks := climb next (Run.lineLevel (more.length + 1) d.isSome) t.position
    have hmarks : ∀ u ∈ marks, u.position = t.position := fun u hu => position_climb hu
    cases d with
    | none => exact hbehind (List.forall_mem_append.2 ⟨hmarks, by simp⟩)
    | some d =>
      have hlt : t.position.offset < d.position.offset :=
        List.rel_of_pairwise_cons hlast.strictlyInOrder (by simp)
      have hfront : InOrder (out ++ marks) := hlast.inOrder.sublist (by simp [Run.written, marks])
      have hend : resolveLevels ts = out ++ marks ++ d ::
          List.replicate ((more.length + 1) / 2 + 1) (.mark .unindent t.position) := by
        rw [hlast.resolved]
        simp [Run.written, Run.leads, Run.first, Run.lineLevel, marks]
      rw [hend] at hts ⊢
      exact bracketFrames_leave_inOrder (hlast.fits.2.2 d rfl) hlt hfront
        (List.forall_mem_append.2 ⟨hlast.before, offset_le_of_position hmarks⟩) hts
  | dot t =>
    refine hbehind (List.forall_mem_append.2 ⟨fun u hu => position_climb hu, ?_⟩)
    simp [Run.first]
  | other t => exact hbehind (by simp [Run.written, Run.first])

/-- Tokens that end in a line end do not end early, nor do those that end in a literal other than a
colon. -/
theorem bracketFrames_inOrder_of_getLast? (h : StrictlyInOrder ts)
    (hend : ∀ t ∈ ts.getLast?, t.kind ∉ [Kind.colon, .space, .dotSpace]) :
    InOrder (bracketFrames (resolveLevels ts)) := by
  by_cases hne : ts = []
  · subst hne
    exact .nil
  obtain ⟨r, out, next, hlast⟩ := exists_lastRun h hne
  rw [← hlast.last] at hend
  have hbehind {t : Token} (hr : r.written next = [t]) (ht : t.position = r.first.position)
      (hcolon : t.kind ≠ .colon) : InOrder (bracketFrames (resolveLevels ts)) := by
    have horder : InOrder (resolveLevels ts) := hlast.inOrder_of_position (by simp [hr, ht])
    refine bracketFrames_inOrder horder (not_endsEarly_of_inOrder horder fun u hu => ?_)
    rw [hlast.resolved, hr] at hu
    rcases mem_getLast?_append_replicate hu with hu | rfl
    · obtain rfl : t = u := by simpa using hu
      exact hcolon
    · simp [Token.mark]
  cases r with
  | newlines t more =>
    cases more with
    | nil => exact hbehind rfl rfl (by simp [hlast.fits.1])
    | cons u more =>
      rw [hlast.resolved]
      exact bracketFrames_blankLine_inOrder hlast.fits.1 hlast.inOrder _ _
  | spaces t more d =>
    have hkinds : ∀ u ∈ (Run.spaces t more d).tokens,
        u.kind ∈ [Kind.colon, .space, .dotSpace] := by
      obtain ⟨ht, hmore, hd⟩ := hlast.fits
      refine List.forall_mem_append.2 ⟨List.forall_mem_cons.2 ⟨by simp [ht], fun u hu => ?_⟩,
        fun u hu => ?_⟩
      · simp [hmore u hu]
      · simp [hd u (Option.mem_toList.1 hu)]
    obtain ⟨u, hu⟩ : ∃ u, (Run.spaces t more d).tokens.getLast? = some u :=
      ⟨_, List.getLast?_eq_some_getLast (List.cons_ne_nil _ _)⟩
    exact absurd (hkinds u (List.mem_of_getLast? hu)) (hend u hu)
  | dot t =>
    have ht : t.kind = .dotSpace := hlast.fits
    exact absurd (hend t rfl) (by simp [ht])
  | other t => exact hbehind rfl rfl fun ht => hend t rfl (by simp [ht])

/-! Tokens that end early. -/

/-- What is written for the first cues may depend on the ones behind them, if these start with a
header. -/
theorem Cue.bracket_split (cs ds : List Cue) (stack : List Frame) (last : Position) :
    ∃ out left p, bracket stack last (cs ++ ds) = out ++ bracket left p ds := by
  induction cs generalizing stack last with
  | nil => exact ⟨[], stack, last, rfl⟩
  | cons c cs ih =>
    obtain ⟨out, left, p, hrest⟩ :=
      ih (c.edit (headerFirst (cs ++ ds)) stack).2 c.position
    refine ⟨(c.edit (headerFirst (cs ++ ds)) stack).1 ++ out, left, p, ?_⟩
    simp [bracket, hrest]

/-- The section of a last header is closed where the header starts, behind its colon. -/
theorem exists_of_lastHeader {name colon : Token} (hname : name.kind = .name)
    (hcolon : colon.kind = .colon) (front : List Token) :
    ∃ out rest, bracketFrames (front ++ [name, colon]) =
      out ++ name :: colon :: .mark (.closing .sect) name.position :: rest := by
  obtain ⟨out, left, p, hout⟩ :=
    Cue.bracket_split (Cue.ofTokens front) [.header name colon] [] {}
  have hcues : Cue.ofTokens (front ++ [name, colon]) =
      Cue.ofTokens front ++ [.header name colon] := by
    rw [Cue.ofTokens_append (by simp [hname])]
    simp [Cue.attach, Cue.single, hname, hcolon]
  obtain ⟨marks, hmarks, -⟩ := Cue.edit_header_split name colon false left
  refine ⟨out ++ marks, closings (belowSection left) name.position, ?_⟩
  have hlast : Cue.bracket left p [.header name colon] =
      ((Cue.header name colon).edit false left).1 ++
        closings ((Cue.header name colon).edit false left).2 name.position := rfl
  rw [bracketFrames, hcues, hout, hlast, hmarks, Cue.edit_header_snd]
  simp [closings]

/-- A dot that no change of level leads to opens an argument, which is closed where the level of the
dot is left. -/
theorem exists_of_dot {d u : Token} (hfront : ∀ i ∈ front.getLast?, i.kind ≠ .indent)
    (hd : d.kind = .dotSpace) (hu : u.kind = .unindent) (more : List Token) :
    ∃ out rest, bracketFrames (front ++ d :: u :: more) =
      out ++ .mark (.opening .argument) d.position ::
        .mark (.closing .argument) u.position :: rest := by
  have hcues : Cue.ofTokens (front ++ d :: u :: more) =
      Cue.ofTokens front ++ .dot none d :: .dedent u :: Cue.ofTokens more := by
    have hdedent : Cue.ofTokens (u :: more) = .dedent u :: Cue.ofTokens more := by
      rw [Cue.ofTokens_cons, Cue.attach_single (by simp [hu]) (by simp [hu])]
      simp [Cue.single, hu]
    rw [Cue.ofTokens_append_dot hfront hd, hdedent]
  obtain ⟨out, left, p, hout⟩ := Cue.bracket_split (Cue.ofTokens front)
    (.dot none d :: .dedent u :: Cue.ofTokens more) [] {}
  let below := (Edit.closingArgument d.position left).2
  have hclose : Edit.closingArgument u.position (.argument :: below) =
      ([.mark (.closing .argument) u.position], below) :=
    closingArgument_append (b := [.argument]) (by simp [IsArgument]) below u.position
  refine ⟨out ++ (Edit.closingArgument d.position left).1,
    Cue.bracket below u.position (Cue.ofTokens more), ?_⟩
  have hopen : (Cue.dot none d).edit false left = ((Edit.closingArgument d.position left).1 ++
      [.mark (.opening .argument) d.position], .argument :: below) := rfl
  have hdot (cs : List Cue) : Cue.bracket left p (.dot none d :: .dedent u :: cs) =
      ((Cue.dot none d).edit false left).1 ++
        ((Edit.closingArgument u.position ((Cue.dot none d).edit false left).2).1 ++
          Cue.bracket (Edit.closingArgument u.position ((Cue.dot none d).edit false left).2).2
            u.position cs) := rfl
  rw [bracketFrames, hcues, hout, hdot, hopen, hclose]
  simp

/-! All passes. -/

variable {source path : String} {o : Options}

/-- Literals stay where they stand. -/
theorem lex_filter_literal (source path : String) (o : Options) :
    (lex source path o).tokens.filter (·.kind.isLiteral) =
      (scanned source o).1.filter (·.kind.isLiteral) := by
  rw [← filterMap_landmarks, landmarks_lex, filterMap_announced]
  rfl

/-- Two literals that stand one behind the other in the output stand so in the text. -/
theorem offset_lt_of_literals {out rest : List Token} {t u : Token}
    (h : (lex source path o).tokens = out ++ t :: u :: rest) (ht : t.kind.isLiteral = true)
    (hu : u.kind.isLiteral = true) : t.position.offset < u.position.offset := by
  have hsub : [t, u].Sublist ((lex source path o).tokens.filter (·.kind.isLiteral)) := by
    rw [h, List.filter_append]
    exact List.sublist_append_of_sublist_right (by simp [ht, hu])
  rw [lex_filter_literal] at hsub
  have horder : StrictlyInOrder [t, u] :=
    (scanned_places source o).2.sublist (hsub.trans List.filter_sublist)
  exact List.rel_of_pairwise_cons horder (by simp)

theorem not_inOrder_of_endsEarly (h : EndsEarly (lexUpTo .indent source path o).tokens) :
    ¬ InOrder (lex source path o).tokens := by
  have hlex : (lex source path o).tokens =
      bracketFrames (lexUpTo .indent source path o).tokens := rfl
  generalize (lexUpTo .indent source path o).tokens = ts at h hlex
  cases h with
  | @header front name colon hname hcolon =>
    obtain ⟨out, rest, hout⟩ := exists_of_lastHeader hname hcolon front
    have hlt : name.position.offset < colon.position.offset :=
      offset_lt_of_literals (hlex.trans hout) (by rw [hname]; rfl) (by rw [hcolon]; rfl)
    have hlast : (lex source path o).tokens = out ++ [name] ++ colon ::
        .mark (.closing .sect) name.position :: rest := by simp [hlex, hout]
    exact not_inOrder_of_lt hlast hlt
  | @dot front more d u hfront hd hu hlt =>
    obtain ⟨out, rest, hout⟩ := exists_of_dot hfront hd hu more
    exact not_inOrder_of_lt (hlex.trans hout) hlt

/-- The last token of a document with line ends put behind it is a line end, or a literal that takes
the line ends in. -/
theorem scanned_getLast? (h : 0 < o.trailingNewlines) :
    ∀ t ∈ (scanned source o).1.getLast?, t.kind = .newline ∨ t.kind.TakesIn := by
  obtain ⟨n, hn⟩ : ∃ n, o.trailingNewlines = n + 1 := ⟨o.trailingNewlines - 1, by omega⟩
  intro t ht
  by_cases hopen : EndsOpen source
  · obtain ⟨ts, k, s, p, cs, hk, hscan⟩ := scanned_open hopen o.reportTrailingWhitespace
    rw [hscan o.trailingNewlines] at ht
    obtain rfl : _ = t := by simpa using ht
    exact .inr hk
  · left
    let p := Position.after {} source.toList
    let ends := Piece.ofText (List.replicate (n + 1) '\n')
    have hnewlines := areNewlines_replicate (n + 1)
    have hscan : (scanned source o).1 =
        Piece.tokens {} (Piece.ofText source.toList) ++ Piece.tokens p ends := by
      simp only [scanned, prepare, hn, String.toList_append, String.toList_ofList,
        Piece.ofText_append_newlines hopen hnewlines, Piece.tokens_append, Piece.spell_ofText, p,
        ends]
    have hends : Piece.tokens p ends ≠ [] := by
      have hfirst : ends = .newline :: Piece.ofText (List.replicate n '\n') :=
        Piece.cut_newline _ _
      rw [hfirst]
      exact List.cons_ne_nil _ _
    rw [hscan, List.getLast?_append_of_ne_nil _ hends] at ht
    exact (Piece.tokens_newlines hnewlines p).1 t (List.mem_of_getLast? ht)

/-- A document is turned into tokens in the order of the text, no frame ending before it begins,
just when the second pass does not end early. With a line end put behind the document it
never does. -/
theorem lex_inOrder_iff (source path : String) (o : Options) :
    (InOrder (lex source path o).tokens ↔
      ¬ EndsEarly (lexUpTo .indent source path o).tokens) ∧
      (0 < o.trailingNewlines → InOrder (lex source path o).tokens) := by
  have hscan := (scanned_places source o).2
  refine ⟨⟨fun h hearly => not_inOrder_of_endsEarly hearly h, fun h => ?_⟩, fun h => ?_⟩
  · exact bracketFrames_resolveLevels_inOrder hscan h
  · refine bracketFrames_inOrder_of_getLast? hscan fun t ht => ?_
    rcases scanned_getLast? h t ht with hk | hk
    · simp [hk]
    · simp only [Kind.TakesIn, List.mem_cons, List.not_mem_nil, or_false] at hk
      rcases hk with hk | hk | hk | hk <;> simp [hk]

/-- With a line end behind it, an argument that was opened on the last line is closed there. -/
theorem lex_inOrder_iff_newline :
    0 < (Options.mk 1 true).trailingNewlines ∧
      InOrder (lex "a:\n. b\n  . c\n  . " "a" ⟨1, true⟩).tokens :=
  ⟨by decide, (lex_inOrder_iff "a:\n. b\n  . c\n  . " "a" ⟨1, true⟩).2 (by decide)⟩

/-- With none, the argument that opens at the last dot ends where the line of the dot starts. -/
theorem not_lex_inOrder : ¬ InOrder (lex "a:\n. b\n  . c\n  . " "a" ⟨0, true⟩).tokens := by
  have hoffsets : (lex "a:\n. b\n  . c\n  . " "a" ⟨0, true⟩).tokens.map (·.position.offset) =
      [0, 0, 0, 1, 3, 5, 7, 11, 15, 15, 13, 13, 13, 13] := by decide +kernel
  intro h
  have hsorted : ((lex "a:\n. b\n  . c\n  . " "a" ⟨0, true⟩).tokens.map
      (·.position.offset)).Pairwise (· ≤ ·) := List.pairwise_map.2 h
  rw [hoffsets] at hsorted
  exact absurd hsorted (by decide)

end SectionLexer
