import SectionLexer.Proofs.Document.Lines
import SectionLexer.Proofs.Frames
import SectionLexer.Proofs.Levels

/-! The lines of a written document, as the second and the third pass nest them. -/
namespace SectionLexer

/-- A token whose place does not matter. -/
def Token.bare (c : Kind × List Char) : Token := ⟨c.1, String.ofList c.2, {}⟩

@[simp] theorem Token.bare_kind (c : Kind × List Char) : (Token.bare c).kind = c.1 := rfl

@[simp] theorem Token.bare_position (c : Kind × List Char) : (Token.bare c).position = {} := rfl

@[simp] theorem Token.content_bare (c : Kind × List Char) : (Token.bare c).content = c := by
  simp [Token.content, Token.bare]

@[simp] theorem Token.content_mark (k : Kind) (p : Position) : (Token.mark k p).content = (k, []) :=
  rfl

/-- What two passes make of tokens: contents, and what is wrong with levels and with frames. -/
structure Nested where
  contents : List (Kind × List Char)
  levelFaults : List (Position × Complaint)
  frameFaults : List (Position × Complaint)

namespace Nested

/-- The same with contents in front. -/
def behind (n : Nested) (cs : List (Kind × List Char)) : Nested :=
  { n with contents := cs ++ n.contents }

@[simp] theorem behind_behind (n : Nested) (cs ds : List (Kind × List Char)) :
    (n.behind ds).behind cs = n.behind (cs ++ ds) := by simp [behind]

end Nested

def closingMarks (fs : List Frame) : List (Kind × List Char) := fs.map fun f => (.closing f, [])

@[simp] theorem content_closings (fs : List Frame) (p : Position) :
    (closings fs p).map Token.content = closingMarks fs := by simp [closings, closingMarks]

@[simp] theorem closingMarks_append (fs gs : List Frame) :
    closingMarks (fs ++ gs) = closingMarks fs ++ closingMarks gs := by simp [closingMarks]

/-- The levels that tokens lead to from `level`. -/
def levelled (level : Nat) (cs : List (Kind × List Char)) : List Token :=
  Run.resolve level {} (Run.ofTokens (cs.map Token.bare))

/-- Tokens that follow level `level` inside the open frames `stack`. -/
def nest (level : Nat) (stack : List Frame) (cs : List (Kind × List Char)) : Nested where
  contents := (Cue.bracket stack {} (Cue.ofTokens (levelled level cs))).map Token.content
  levelFaults := levelComplaints (cs.map Token.bare)
  frameFaults := frameComplaints (levelled level cs)

variable {level : Nat} {stack : List Frame} {cs : List (Kind × List Char)}

/-- Literals of arguments. -/
def InArgument (c : Kind × List Char) : Prop :=
  c.1 ∈ [Kind.text, .formulation, .argumentText, .comma]

theorem attach_inArgument {c : Kind × List Char} (hc : InArgument c) :
    (∀ rs, Run.attach (Token.bare c) rs = .other (Token.bare c) :: rs) ∧
      ∀ qs, Cue.attach (Token.bare c) qs = .other (Token.bare c) :: qs := by
  obtain ⟨k, s⟩ := c
  simp only [InArgument, List.mem_cons, List.not_mem_nil, or_false] at hc
  rcases hc with rfl | rfl | rfl | rfl <;> simp [Run.attach, Cue.attach, Cue.single]

theorem nest_inArgument {c : Kind × List Char} (hc : InArgument c) :
    nest level stack (c :: cs) = (nest level stack cs).behind [c] := by
  obtain ⟨hr, hq⟩ := attach_inArgument hc
  simp [nest, levelled, levelComplaints, frameComplaints, hr, hq, Run.resolve, Run.complaint?,
    Cue.complaint?, List.filterMap_cons, Cue.bracket, Cue.edit, Edit.write, Cue.position, Cue.first,
    Nested.behind]

theorem nest_arguments {ds : List (Kind × List Char)} (hd : ∀ c ∈ ds, InArgument c) :
    nest level stack (ds ++ cs) = (nest level stack cs).behind ds := by
  induction ds with
  | nil => rfl
  | cons c ds ih =>
    rw [List.cons_append, nest_inArgument (hd c (by simp)), ih fun d hm => hd d (by simp [hm])]
    simp

/-- What is closed and opened in front of a section. -/
def enteringMarks : List Frame → List (Kind × List Char)
  | [] => [(.opening .topLevelGroup, [])]
  | .sect :: _ => [(.closing .sect, [])]
  | _ => []

def headerContents (name : List Char) : List (Kind × List Char) := [(.name, name), (.colon, [':'])]

theorem levelled_header (name : List Char) :
    levelled level (headerContents name ++ cs) =
      (headerContents name).map Token.bare ++ levelled level cs := by
  simp [levelled, headerContents, Run.attach, Run.resolve]

theorem ofTokens_header (name : List Char) (ts : List Token) :
    Cue.ofTokens ((headerContents name).map Token.bare ++ ts) =
      .header (Token.bare (.name, name)) (Token.bare (.colon, [':'])) :: Cue.ofTokens ts := by
  simp [headerContents, Cue.attach, Cue.single]

theorem edit_header_fst (name : List Char) (stack : List Frame) (b : Bool) :
    ((Cue.header (Token.bare (.name, name)) (Token.bare (.colon, [':']))).edit b stack).1.map
        Token.content = enteringMarks stack ++ (.opening .sect, []) :: headerContents name := by
  rcases stack with _ | ⟨f, stack⟩
  · simp [enteringMarks, headerContents, Cue.edit, Edit.andThen, Edit.when, Edit.opening,
      Edit.closing, Edit.write]
  · cases f <;> simp [enteringMarks, headerContents, Cue.edit, Edit.andThen, Edit.when,
      Edit.opening, Edit.closing, Edit.write]

theorem nest_header (name : List Char) :
    nest level stack (headerContents name ++ cs) =
      (nest level (.sect :: belowSection stack) cs).behind
        (enteringMarks stack ++ (.opening .sect, []) :: headerContents name) := by
  have hout := edit_header_fst name stack (Cue.headerFirst (Cue.ofTokens (levelled level cs)))
  have hf : levelComplaints ((headerContents name ++ cs).map Token.bare) =
      levelComplaints (cs.map Token.bare) := by
    simp [levelComplaints, headerContents, Run.attach, Run.complaint?, List.filterMap_cons]
  rw [List.map_append] at hf
  simp only [nest, hf, levelled_header, ofTokens_header, Cue.bracket, List.map_append, hout,
    Cue.edit_header_snd, frameComplaints, Nested.behind]
  simp [List.filterMap_cons, Cue.complaint?, Cue.position, Cue.first]

/-! Line ends, with what the next line starts with. -/

/-- The line end in front of a line that sets its own level. -/
theorem levelled_lineEnd (level : Nat) {r : Run} {rs : List Run}
    (hr : Run.ofTokens (cs.map Token.bare) = r :: rs) (hl : r.setsLevel = true) :
    levelled level (lineEnd :: cs) = Token.bare lineEnd :: levelled level cs ∧
      levelComplaints ((lineEnd :: cs).map Token.bare) = levelComplaints (cs.map Token.bare) := by
  have hn : Run.ofTokens ((lineEnd :: cs).map Token.bare) =
      .newlines (Token.bare lineEnd) [] :: r :: rs := by
    rw [List.map_cons, Run.ofTokens_cons, hr]
    cases r <;> first | rfl | cases hl
  constructor
  · simp only [levelled, hn, hr]
    simp [Run.resolve, Run.afterNewline, hl, Run.lineBreak]
  · simp only [levelComplaints, hn, hr]
    rfl

/-- A line end in front of leading spaces, two for each of `depth + 1` levels. -/
theorem levelled_leading (level depth : Nat) {d : Option (Kind × List Char)} {rs : List Run}
    (hr : Run.ofTokens (cs.map Token.bare) =
      .spaces (.bare (.space, [' '])) (List.replicate (2 * depth + 1) (.bare (.space, [' '])))
        (d.map Token.bare) :: rs) :
    levelled level (lineEnd :: cs) =
        Token.bare lineEnd :: (climb level (depth + 1 + d.isSome.toNat) {} ++
          ((d.map Token.bare).toList ++ Run.resolve (depth + 1 + d.isSome.toNat) {} rs)) ∧
      levelComplaints ((lineEnd :: cs).map Token.bare) = rs.filterMap Run.complaint? := by
  have hlevel : Run.lineLevel (2 * depth + 1 + 1) d.isSome = depth + 1 + d.isSome.toNat := by
    simp only [Run.lineLevel]
    omega
  have heven : (2 * depth + 1 + 1) % 2 = 0 := by omega
  obtain ⟨hlev, hcom⟩ := levelled_lineEnd level hr rfl
  constructor
  · rw [hlev, levelled, hr]
    simp [Run.resolve, hlevel]
  · rw [hcom, levelComplaints, hr]
    simp [Run.complaint?, heven]

theorem levelled_dot (level depth : Nat) (cs : List (Kind × List Char)) :
    levelled level (lineEnd :: (leadingSpaces depth ++ dotMark :: cs)) =
        Token.bare lineEnd :: (climb level (depth + 1) {} ++
          Token.bare dotMark :: levelled (depth + 1) cs) ∧
      levelComplaints ((lineEnd :: (leadingSpaces depth ++ dotMark :: cs)).map Token.bare) =
        levelComplaints (cs.map Token.bare) := by
  cases depth with
  | zero => exact levelled_lineEnd level (r := .dot (Token.bare dotMark)) rfl rfl
  | succ depth =>
    refine levelled_leading level depth (d := some dotMark) ?_
    have hspaces := Run.ofTokens_spaces_dot (t := .bare (.space, [' '])) (u := .bare dotMark) rfl
      rfl (2 * depth + 1) (cs.map Token.bare)
    simpa [leadingSpaces, Nat.mul_add] using hspaces

theorem ofTokens_header_runs (name : List Char) (cs : List (Kind × List Char)) :
    Run.ofTokens ((headerContents name ++ cs).map Token.bare) =
      .other (Token.bare (.name, name)) :: .other (Token.bare (.colon, [':'])) ::
        Run.ofTokens (cs.map Token.bare) := by
  simp [headerContents, Run.attach]

/-- A line end in front of a header at the start of its line. -/
theorem levelled_lineEnd_name (level : Nat) (name : List Char) (cs : List (Kind × List Char)) :
    levelled level (lineEnd :: (headerContents name ++ cs)) =
        Token.bare lineEnd :: (climb level 0 {} ++ levelled 0 (headerContents name ++ cs)) ∧
      levelComplaints ((lineEnd :: (headerContents name ++ cs)).map Token.bare) =
        levelComplaints ((headerContents name ++ cs).map Token.bare) := by
  have hruns := ofTokens_header_runs name cs
  have hn : Run.ofTokens ((lineEnd :: (headerContents name ++ cs)).map Token.bare) =
      .newlines (Token.bare lineEnd) [] ::
        Run.ofTokens ((headerContents name ++ cs).map Token.bare) := by
    rw [List.map_cons, Run.ofTokens_cons, hruns]
    rfl
  constructor
  · simp only [levelled, hn, hruns]
    simp [Run.resolve, Run.afterNewline, Run.setsLevel, Run.lineBreak, Run.first]
  · simp only [levelComplaints, hn]
    rfl

theorem levelled_name (level depth : Nat) (name : List Char) (cs : List (Kind × List Char)) :
    levelled level (lineEnd :: (leadingSpaces depth ++ (headerContents name ++ cs))) =
        Token.bare lineEnd :: (climb level depth {} ++ levelled depth (headerContents name ++ cs)) ∧
      levelComplaints
          ((lineEnd :: (leadingSpaces depth ++ (headerContents name ++ cs))).map Token.bare) =
        levelComplaints ((headerContents name ++ cs).map Token.bare) := by
  cases depth with
  | zero => exact levelled_lineEnd_name level name cs
  | succ depth =>
    have hspaces := Run.ofTokens_spaces_other (t := .bare (.space, [' ']))
      (u := .bare (.name, name)) rfl (by simp) (by simp) (by simp) (2 * depth + 1)
      (((.colon, [':']) :: cs).map Token.bare)
    have hr : Run.ofTokens ((leadingSpaces (depth + 1) ++ (headerContents name ++ cs)).map
          Token.bare) =
        .spaces (.bare (.space, [' '])) (List.replicate (2 * depth + 1) (.bare (.space, [' '])))
          none :: Run.ofTokens ((headerContents name ++ cs).map Token.bare) := by
      simpa [leadingSpaces, Nat.mul_add, headerContents, Run.attach] using hspaces
    exact levelled_leading level depth (d := none) hr

/-! Frames at the start of a line. -/

theorem bracket_lineEnd (qs : List Cue) :
    Cue.bracket stack {} (.lineEnd (Token.bare lineEnd) :: qs) = Cue.bracket stack {} qs := rfl

theorem dedents_faultless (n : Nat) (t : Token) :
    (List.replicate n (Cue.dedent t)).filterMap Cue.complaint? = [] := by
  simp [Cue.complaint?]

theorem frameComplaints_unindents (n : Nat) (ts : List Token) :
    frameComplaints (Token.bare lineEnd :: (List.replicate n (Token.mark .unindent {}) ++ ts)) =
      frameComplaints ts := by
  have hdedents := dedents_faultless n (.mark .unindent {})
  simp only [frameComplaints, Cue.ofTokens_cons, Cue.ofTokens_unindents]
  simp [Cue.attach, lineEnd, Cue.single, Cue.complaint?, List.filterMap_cons, hdedents]

/-- A section in line with one before it: what is open in that one is closed. -/
theorem nest_sibling {bs : List (List Frame)} (hb : AreArguments bs) (stack : List Frame)
    (depth : Nat) (name : List Char) (cs : List (Kind × List Char)) :
    nest (depth + bs.length) (bs.flatten ++ stack)
        (lineEnd :: (leadingSpaces depth ++ (headerContents name ++ cs))) =
      (nest depth stack (headerContents name ++ cs)).behind (closingMarks bs.flatten) := by
  obtain ⟨hlev, hcom⟩ := levelled_name (depth + bs.length) depth name cs
  simp only [nest, hlev, hcom, climb_down, frameComplaints_unindents, Nested.behind]
  simp only [Cue.ofTokens_cons, Cue.ofTokens_unindents]
  have hq := Cue.bracket_dedents hb stack {}
    (Cue.ofTokens (levelled depth (headerContents name ++ cs)))
  simp [Cue.attach, lineEnd, Cue.single, Cue.bracket, Cue.edit, Edit.write, Cue.position, Cue.first,
    hq]

/-- The frames that a dot opens, innermost first. -/
def dotFrames (header : Bool) : List Frame :=
  if header then [.argumentGroup, .argument] else [.argument]

def openingMarks (fs : List Frame) : List (Kind × List Char) :=
  fs.reverse.map fun f => (.opening f, [])

theorem openingArgument_eq (header : Bool) (stack : List Frame) (p : Position) :
    ((Edit.openingArgument p header stack).1.map Token.content,
      (Edit.openingArgument p header stack).2) =
        (openingMarks (dotFrames header), dotFrames header ++ stack) := by
  cases header <;> rfl

theorem bracket_dot_none (header : Bool) {b : List Frame} (hb : IsArgument b)
    (stack : List Frame) (qs : List Cue)
    (hh : Cue.headerFirst qs = header) :
    (Cue.bracket (b ++ stack) {} (.dot none (Token.bare dotMark) :: qs)).map Token.content =
      closingMarks b ++ (openingMarks (dotFrames header) ++
        (Cue.bracket (dotFrames header ++ stack) {} qs).map Token.content) := by
  obtain ⟨hout, hstack⟩ := Prod.mk.inj (openingArgument_eq header stack {})
  have hclose := closingArgument_append hb stack {}
  simp [Cue.bracket, Cue.edit, Edit.andThen, hclose, hh, hout, hstack, Cue.position, Cue.first]

theorem bracket_dot_some (header : Bool) (t : Token) (stack : List Frame) (qs : List Cue)
    (hh : Cue.headerFirst qs = header) :
    (Cue.bracket stack {} (.dot (some (Token.mark .indent {})) t :: qs)).map Token.content =
      openingMarks (dotFrames header) ++
        (Cue.bracket (dotFrames header ++ stack) {} qs).map Token.content := by
  obtain ⟨hout, hstack⟩ := Prod.mk.inj (openingArgument_eq header stack {})
  simp [Cue.bracket, Cue.edit, hh, hout, hstack, Cue.position, Cue.first, Token.mark]

/-- The first dot of a section leads one level deeper. -/
theorem nest_first_dot (depth : Nat) {header : Bool}
    (hh : Cue.headerFirst (Cue.ofTokens (levelled (depth + 1) cs)) = header) :
    nest depth stack (lineEnd :: (leadingSpaces depth ++ dotMark :: cs)) =
      (nest (depth + 1) (dotFrames header ++ stack) cs).behind
        (openingMarks (dotFrames header)) := by
  obtain ⟨hlev, hcom⟩ := levelled_dot depth depth cs
  have hq : Cue.ofTokens (levelled depth (lineEnd :: (leadingSpaces depth ++ dotMark :: cs))) =
      .lineEnd (Token.bare lineEnd) ::
        .dot (some (Token.mark .indent {})) (Token.bare dotMark) ::
          Cue.ofTokens (levelled (depth + 1) cs) := by
    rw [hlev, climb_up]
    rfl
  have hout := bracket_dot_some header (Token.bare dotMark) stack _ hh
  simp only [nest, frameComplaints, hcom, hq, Nested.behind, ← hout]
  rfl

/-- Any other dot closes the argument before it, whose inner arguments are closed by their
levels. -/
theorem nest_next_dot {bs : List (List Frame)} (hbs : AreArguments bs) {b : List Frame}
    (hb : IsArgument b) (stack : List Frame) (depth : Nat) {header : Bool}
    (hh : Cue.headerFirst (Cue.ofTokens (levelled (depth + 1) cs)) = header) :
    nest (depth + 1 + bs.length) (bs.flatten ++ (b ++ stack))
        (lineEnd :: (leadingSpaces depth ++ dotMark :: cs)) =
      (nest (depth + 1) (dotFrames header ++ stack) cs).behind
        (closingMarks bs.flatten ++ (closingMarks b ++ openingMarks (dotFrames header))) := by
  obtain ⟨hlev, hcom⟩ := levelled_dot (depth + 1 + bs.length) depth cs
  have hq : Cue.ofTokens (levelled (depth + 1 + bs.length)
        (lineEnd :: (leadingSpaces depth ++ dotMark :: cs))) =
      .lineEnd (Token.bare lineEnd) ::
        (List.replicate bs.length (.dedent (Token.mark .unindent {})) ++
          .dot none (Token.bare dotMark) :: Cue.ofTokens (levelled (depth + 1) cs)) := by
    rw [hlev, climb_down, Cue.ofTokens_cons, Cue.ofTokens_unindents]
    rfl
  have hout := bracket_dot_none header hb stack _ hh
  have hbs' := Cue.bracket_dedents hbs (b ++ stack) {}
    (.dot none (Token.bare dotMark) :: Cue.ofTokens (levelled (depth + 1) cs))
  have hc := dedents_faultless bs.length (.mark .unindent {})
  simp only [nest, frameComplaints, hcom, hq, Nested.behind]
  rw [bracket_lineEnd, hbs', List.map_append, content_closings, hout]
  simp [List.filterMap_cons, Cue.complaint?, hc]

theorem nest_dot {bs : List (List Frame)} (hb : AreArguments bs) (stack : List Frame)
    (depth : Nat) {header : Bool}
    (hh : Cue.headerFirst (Cue.ofTokens (levelled (depth + 1) cs)) = header) :
    nest (depth + bs.length) (bs.flatten ++ stack)
        (lineEnd :: (leadingSpaces depth ++ dotMark :: cs)) =
      (nest (depth + 1) (dotFrames header ++ stack) cs).behind
        (closingMarks bs.flatten ++ openingMarks (dotFrames header)) := by
  rcases List.eq_nil_or_concat bs with rfl | ⟨bs, b, rfl⟩
  · exact nest_first_dot depth hh
  · rw [List.concat_eq_append] at hb ⊢
    obtain ⟨hbs, hlast⟩ := areArguments_append.1 hb
    have hnext := nest_next_dot hbs (hlast b (by simp)) stack depth hh
    have hlen : depth + (bs ++ [b]).length = depth + 1 + bs.length := by
      simp only [List.length_append, List.length_singleton]
      omega
    rw [hlen]
    simpa using hnext

/-! Blank lines, and the end. -/

theorem bracket_blankLine (stack : List Frame) (n : Nat) (qs : List Cue) :
    (Cue.bracket stack {} (.blankLine (Token.mark .lineBreak {}) ::
        (List.replicate n (.dedent (Token.mark .unindent {})) ++ qs))).map Token.content =
      closingMarks stack ++ (Cue.bracket [] {} qs).map Token.content := by
  have hdedents := Cue.bracket_nil_dedents n {} qs
  change (closings stack {} ++ Cue.bracket [] {} (_ ++ qs)).map Token.content = _
  rw [hdedents, List.map_append, content_closings]

theorem levelled_blank (level : Nat) (name : List Char) (cs : List (Kind × List Char)) :
    levelled level (lineEnd :: lineEnd :: (headerContents name ++ cs)) =
        Token.bare lineEnd :: Token.mark .lineBreak {} ::
          (List.replicate level (Token.mark .unindent {}) ++
            levelled 0 (headerContents name ++ cs)) ∧
      levelComplaints ((lineEnd :: lineEnd :: (headerContents name ++ cs)).map Token.bare) =
        levelComplaints ((headerContents name ++ cs).map Token.bare) := by
  have hruns := ofTokens_header_runs name cs
  have hn : Run.ofTokens ((lineEnd :: lineEnd :: (headerContents name ++ cs)).map Token.bare) =
      .newlines (Token.bare lineEnd) [Token.bare lineEnd] ::
        Run.ofTokens ((headerContents name ++ cs).map Token.bare) := by
    rw [List.map_cons, List.map_cons, Run.ofTokens_cons, Run.ofTokens_cons, hruns]
    rfl
  constructor
  · simp only [levelled, hn, hruns]
    simp [Run.resolve, Run.afterNewline, Run.setsLevel, Run.lineBreak, Run.first, climb]
  · simp only [levelComplaints, hn]
    rfl

/-- A blank line closes everything. -/
theorem nest_blank (name : List Char) :
    nest level stack (lineEnd :: lineEnd :: (headerContents name ++ cs)) =
      (nest 0 [] (headerContents name ++ cs)).behind (closingMarks stack) := by
  obtain ⟨hlev, hcom⟩ := levelled_blank level name cs
  have hq : Cue.ofTokens (levelled level (lineEnd :: lineEnd :: (headerContents name ++ cs))) =
      .lineEnd (Token.bare lineEnd) :: .blankLine (Token.mark .lineBreak {}) ::
        (List.replicate level (.dedent (Token.mark .unindent {})) ++
          Cue.ofTokens (levelled 0 (headerContents name ++ cs))) := by
    rw [hlev, Cue.ofTokens_cons, Cue.ofTokens_cons, Cue.ofTokens_unindents]
    rfl
  have hc := dedents_faultless level (.mark .unindent {})
  simp only [nest, frameComplaints, hcom, hq, Nested.behind]
  rw [bracket_lineEnd, bracket_blankLine]
  simp [List.filterMap_cons, Cue.complaint?, hc]

theorem levelled_lineEnds (level n : Nat) :
    levelled level (List.replicate (n + 1) lineEnd) =
        Token.bare lineEnd :: (Run.lineBreak (List.replicate n (Token.bare lineEnd)) ++
          List.replicate level (Token.mark .unindent {})) ∧
      levelComplaints ((List.replicate (n + 1) lineEnd).map Token.bare) = [] := by
  have hn : Run.ofTokens ((List.replicate (n + 1) lineEnd).map Token.bare) =
      [.newlines (Token.bare lineEnd) (List.replicate n (Token.bare lineEnd))] := by
    rw [List.map_replicate, List.replicate_succ]
    refine Run.ofTokens_newlines rfl fun u hu => ?_
    rw [(List.mem_replicate.1 hu).2]
    rfl
  constructor
  · simp only [levelled, hn]
    simp [Run.resolve, Run.afterNewline, climb]
  · simp only [levelComplaints, hn]
    rfl

theorem content_bracket_nil (stack : List Frame) :
    (Cue.bracket stack {} []).map Token.content = closingMarks stack := by
  simpa [Cue.bracket, Edit.closingAll, closings] using content_closings stack {}

theorem ofTokens_lineEnd (ts : List Token) :
    Cue.ofTokens (Token.bare lineEnd :: ts) = .lineEnd (Token.bare lineEnd) :: Cue.ofTokens ts :=
  rfl

theorem ofTokens_lineBreak (ts : List Token) :
    Cue.ofTokens (Token.mark .lineBreak {} :: ts) =
      .blankLine (Token.mark .lineBreak {}) :: Cue.ofTokens ts := rfl

/-- The cues of the line ends at the end of a document. -/
theorem ofTokens_lineEnds (level n : Nat) :
    Cue.ofTokens (levelled level (List.replicate (n + 1) lineEnd)) =
      .lineEnd (Token.bare lineEnd) ::
        ((if n = 0 then [] else [.blankLine (Token.mark .lineBreak {})]) ++
          List.replicate level (.dedent (Token.mark .unindent {}))) := by
  have hdedents := Cue.ofTokens_unindents level {} []
  simp only [List.append_nil, Cue.ofTokens_nil] at hdedents
  rw [(levelled_lineEnds level n).1, ofTokens_lineEnd]
  cases n with
  | zero => simp [Run.lineBreak, hdedents]
  | succ n =>
    rw [List.replicate_succ]
    exact congrArg _ ((ofTokens_lineBreak _).trans (congrArg _ hdedents))

/-- At the end of a document all that is open is closed, with or without a blank line. -/
theorem nest_end {bs : List (List Frame)} (hb : AreArguments bs) (stack : List Frame) (n : Nat) :
    nest bs.length (bs.flatten ++ stack) (List.replicate (n + 1) lineEnd) =
      ⟨closingMarks (bs.flatten ++ stack), [], []⟩ := by
  have hcom := (levelled_lineEnds bs.length n).2
  have hq := ofTokens_lineEnds bs.length n
  have hc := dedents_faultless bs.length (.mark .unindent {})
  simp only [nest, frameComplaints, hcom, hq, Nested.mk.injEq, true_and]
  rw [bracket_lineEnd]
  cases n with
  | zero =>
    have hclose := Cue.bracket_dedents hb stack {} []
    rw [List.append_nil] at hclose
    constructor
    · simp [hclose, content_bracket_nil]
    · simp [List.filterMap_cons, Cue.complaint?, hc]
  | succ n =>
    have hblank := bracket_blankLine (bs.flatten ++ stack) bs.length []
    rw [List.append_nil] at hblank
    constructor
    · simp [hblank, content_bracket_nil, closingMarks]
    · simp [List.filterMap_cons, Cue.complaint?, hc]

end SectionLexer
