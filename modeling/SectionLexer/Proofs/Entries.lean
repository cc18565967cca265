import SectionLexer.Proofs.Depth
import SectionLexer.Proofs.Landmarks
import SectionLexer.Proofs.Placement

/-! Entries: the literals that stand in a group of the top level. A section header outside of all
arguments opens the group, a blank line closes it, and what comes before the header stands in
none. -/
namespace SectionLexer

/-- What decides whether a literal stands in a group: the number of arguments that are open, and
whether a section header was reached outside of them. -/
structure Standing where
  arguments : Nat
  entered : Bool
deriving DecidableEq, Repr

namespace Standing

/-- At the start of a document, and behind a blank line. -/
def start : Standing := ⟨0, false⟩

def opening (st : Standing) : Standing := { st with arguments := st.arguments + 1 }

def closing (st : Standing) : Standing := { st with arguments := st.arguments - 1 }

def header (st : Standing) : Standing := { st with entered := st.entered || st.arguments == 0 }

/-- Behind token `t` of the second pass, which `ts` follows. -/
def step (st : Standing) (t : Token) (ts : List Token) : Standing :=
  match t.kind with
  | .name => if headerNext (t :: ts) then st.header else st
  | .dotSpace => st.closing.opening
  | .indent => if startsDotted ts then st.opening else st
  | .unindent => st.closing
  | .lineBreak => start
  | _ => st

/-- In the open frames `stack`. -/
def ofStack (stack : List Frame) : Standing :=
  ⟨stack.count .argument, stack.contains .topLevelGroup⟩

end Standing

/-- The literals among tokens of the second pass, each with its standing. A name stands where the
header that it starts leads to. -/
def standings (st : Standing) : List Token → List (Token × Standing)
  | [] => []
  | t :: ts =>
    (if t.kind.isLiteral then [(t, st.step t ts)] else []) ++ standings (st.step t ts) ts

variable {stack : List Frame} {ts : List Token} {p : Position}

/-! Standings in stacked frames. -/

/-- An argument counts once, and holds no group of the top level. -/
theorem ofStack_append {b : List Frame} (hb : IsArgument b) (below : List Frame) :
    Standing.ofStack (b ++ below) = (Standing.ofStack below).opening := by
  simp only [IsArgument, List.mem_cons, List.not_mem_nil, or_false] at hb
  rcases hb with rfl | rfl | rfl | rfl <;> simp [Standing.ofStack, Standing.opening]

/-- Outside of all arguments there is a group around every frame. -/
theorem Stacked.contains_group (h : Stacked stack) (hne : stack ≠ [])
    (hcount : stack.count .argument = 0) : stack.contains .topLevelGroup = true := by
  by_cases htop : stack.head? = some .argumentGroup
  · obtain ⟨below, rfl⟩ := List.head?_eq_some_iff.1 htop
    obtain ⟨outer, rfl⟩ := h.argument_of_group
    simp at hcount
  · rcases h.shape htop with rfl | rfl | rfl | ⟨b, below, hb, -, -, rfl⟩
    · contradiction
    · rfl
    · rfl
    · have hopen := congrArg Standing.arguments (ofStack_append hb below)
      exact absurd (hcount.symm.trans hopen) (Nat.succ_ne_zero _).symm

theorem Stacked.standing_eq_start_iff (h : Stacked stack) :
    Standing.ofStack stack = .start ↔ stack = [] := by
  refine ⟨fun hstart => ?_, fun hnil => hnil ▸ rfl⟩
  by_contra hne
  have hcount : stack.count .argument = 0 := congrArg Standing.arguments hstart
  have hout : stack.contains .topLevelGroup = false := congrArg Standing.entered hstart
  rw [h.contains_group hne hcount] at hout
  cases hout

theorem Stacked.standing_header (h : Stacked stack) :
    Standing.ofStack (.sect :: belowSection stack) = (Standing.ofStack stack).header := by
  cases stack with
  | nil => rfl
  | cons f below =>
    have hsame : (Standing.ofStack (f :: below)).header = Standing.ofStack (f :: below) := by
      cases hcount : (f :: below).count .argument with
      | zero =>
        have hgroup := h.contains_group (List.cons_ne_nil f below) hcount
        simp only [Standing.ofStack, Standing.header, hgroup, Bool.true_or]
      | succ n => simp [Standing.ofStack, Standing.header, hcount]
    rw [hsame]
    cases f <;> simp [belowSection, Standing.ofStack]

theorem standing_openingArgument (p : Position) (header : Bool) (stack : List Frame) :
    Standing.ofStack (Edit.openingArgument p header stack).2 =
      (Standing.ofStack stack).opening := by
  cases header with
  | false => exact ofStack_append (b := [.argument]) (by simp [IsArgument]) stack
  | true => exact ofStack_append (b := [.argumentGroup, .argument]) (by simp [IsArgument]) stack

theorem Stacked.standing_closingArgument (h : Stacked stack)
    (htop : stack.head? ≠ some .argumentGroup) (p : Position) :
    Standing.ofStack (Edit.closingArgument p stack).2 = (Standing.ofStack stack).closing := by
  rcases h.shape htop with rfl | rfl | rfl | ⟨b, below, hb, -, -, rfl⟩
  · rfl
  · rfl
  · rfl
  · rw [closingArgument_append hb, ofStack_append hb]
    rfl

/-! The third pass, cue by cue. -/

namespace Cue

variable {c : Cue} {cs : List Cue}

def stand (c : Cue) (st : Standing) : Standing :=
  match c with
  | .header _ _ => st.header
  | .dot (some _) _ => st.opening
  | .dot none _ => st.closing.opening
  | .dedent _ => st.closing
  | .blankLine _ => .start
  | .strayIndent _ | .lineEnd _ | .other _ => st

/-- The literals of cues, each with its standing. -/
def standings (st : Standing) : List Cue → List (Token × Standing)
  | [] => []
  | c :: cs => (c.kept.filter (·.kind.isLiteral)).map (·, c.stand st) ++ standings (c.stand st) cs

/-- One step: a cue leads from standing to standing as it leads from frames to frames. -/
theorem standing_edit (hs : Stacked stack)
    (htop : stack.head? = some .argumentGroup → c.isHeader = true) (b : Bool) :
    Standing.ofStack (c.edit b stack).2 = c.stand (Standing.ofStack stack) := by
  cases c with
  | header name colon =>
    rw [edit_header_snd]
    exact hs.standing_header
  | dot i t =>
    cases i with
    | some u => exact standing_openingArgument u.position b stack
    | none =>
      have hclosed := hs.standing_closingArgument (top_ne_group htop rfl) t.position
      exact (standing_openingArgument t.position b _).trans (congrArg Standing.opening hclosed)
  | dedent t => exact hs.standing_closingArgument (top_ne_group htop rfl) t.position
  | blankLine t | strayIndent t | lineEnd t | other t => rfl

/-- A whole run, from any stacked frames. -/
theorem standings_bracket (hu : ∀ c ∈ cs, Unmarked c.tokens) (hs : Stacked stack)
    (htop : stack.head? = some .argumentGroup → headerFirst cs = true) (last : Position) :
    (literalStates moveFrames stack (bracket stack last cs)).map
        (fun (t, stack) => (t, Standing.ofStack stack)) =
      standings (Standing.ofStack stack) cs := by
  induction cs generalizing stack last with
  | nil =>
    rw [bracket_nil_replays literalStates_replays]
    rfl
  | cons c cs ih =>
    obtain ⟨hs', htop'⟩ := edit_stacked hs htop (headerFirst cs)
    have hrest := ih (fun d hd => hu d (by simp [hd])) hs' htop' c.position
    have hkept : Unmarked c.kept := fun t ht => hu c (by simp) t (c.kept_subset_tokens t ht)
    rw [bracket_replays literalStates_replays, literalStates_append (hkept.moveFrames_eq _),
      List.map_append, hrest, standings, standing_edit hs htop]
    simp [standing_edit hs htop]

/-- The standings of cues are those of the tokens that they are read from. -/
theorem standings_ofTokens (st : Standing) (ts : List Token) :
    standings st (ofTokens ts) = SectionLexer.standings st ts := by
  induction ts generalizing st with
  | nil => rfl
  | cons t ts ih =>
    by_cases hname : t.kind = .name
    · cases hn : colon? ts with
      | none =>
        rw [ofTokens_name hname hn, standings, ih]
        simp [SectionLexer.standings, Standing.step, stand, kept, headerNext, hname, hn,
          Kind.isLiteral]
      | some u =>
        obtain ⟨us, rfl, hu⟩ := exists_of_colon? hn
        rw [ofTokens_header hname hu, standings, SectionLexer.standings, ← ih,
          ofTokens_colon hu, standings]
        simp [Standing.step, stand, kept, headerNext, hname, hn, hu, Kind.isLiteral]
    · by_cases hindent : t.kind = .indent
      · rw [SectionLexer.standings, ← ih]
        rcases ofTokens_indent hindent ts with ⟨hdot, hstray⟩ | ⟨hdot, u, cs, hcs, hcue⟩
        · rw [hstray, standings]
          simp [stand, kept, Standing.step, hindent, hdot, Kind.isLiteral]
        · rw [hcue, hcs, standings, standings]
          simp [stand, kept, Standing.step, hindent, hdot, Kind.isLiteral]
          rfl
      · rw [ofTokens_cons, attach_single hname hindent, standings, ih, SectionLexer.standings]
        cases hk : t.kind <;> simp_all [single, stand, kept, Standing.step, Kind.isLiteral]

end Cue

/-- The literals that stand in a group of the top level are exactly those that a section header
outside of all arguments comes before since the last blank line, or that such a header starts with.
All others are handed on outside of any group. -/
theorem standings_lex (source path : String) (o : Options) :
    (literalStates moveFrames [] (lex source path o).tokens).map
        (fun (t, stack) => (t, Standing.ofStack stack)) =
      standings .start (lexUpTo .indent source path o).tokens := by
  have hu : Unmarked (lexUpTo .indent source path o).tokens :=
    resolveLevels_unmarked (Stream.scan_unmarked _ path o)
  have hcues : ∀ c ∈ Cue.ofTokens (lexUpTo .indent source path o).tokens, Unmarked c.tokens :=
    fun c hc t ht => hu t (Cue.mem_of_mem_ofTokens hc t ht)
  have hs : Stacked [] := trivial
  rw [← Cue.standings_ofTokens]
  exact Cue.standings_bracket hcues hs (by simp) {}

/-! The marks that open groups of the top level. -/

namespace Cue

variable {c : Cue} {cs : List Cue}

/-- The places of the headers that are reached outside of all arguments and all groups. -/
def entrances (st : Standing) : List Cue → List Position
  | [] => []
  | c :: cs =>
    (if c.isHeader ∧ st = .start then [c.position] else []) ++ entrances (c.stand st) cs

theorem filter_opening_eq_nil {a : Edit} (h : a.Writes (·.kind ≠ .opening .topLevelGroup))
    (stack : List Frame) : (a stack).1.filter (·.kind = .opening .topLevelGroup) = [] :=
  List.filter_eq_nil_iff.2 fun t ht => by simpa using h stack t ht

/-- One step: a header opens a group if no frame is open, and nothing else opens one. -/
theorem filter_opening_edit (hs : Stacked stack) (hu : Unmarked c.tokens) (b : Bool) :
    ((c.edit b stack).1.filter (·.kind = .opening .topLevelGroup)).map Token.position =
      if c.isHeader ∧ Standing.ofStack stack = .start then [c.position] else [] := by
  have hkept : ∀ t ∈ c.tokens, t.kind ≠ .opening .topLevelGroup := hu.kind_ne nofun
  by_cases hc : c.isHeader = true
  · cases c with
    | header name colon =>
      have hname := hkept name (by simp [tokens])
      have hcolon := hkept colon (by simp [tokens])
      cases stack with
      | nil =>
        simp [edit, Edit.when, Edit.andThen, Edit.opening, Edit.closing, Edit.write, Token.mark,
          isHeader, position, first, Standing.ofStack, Standing.start, hname, hcolon]
      | cons f below =>
        have hin : Standing.ofStack (f :: below) ≠ .start :=
          mt hs.standing_eq_start_iff.1 (List.cons_ne_nil f below)
        cases f <;>
          simp [edit, Edit.when, Edit.andThen, Edit.opening, Edit.closing, Edit.write, Token.mark,
            hin, hname, hcolon]
    | _ => cases hc
  · have hwrites : (c.edit b).Writes (·.kind ≠ .opening .topLevelGroup) :=
      edit_writes hkept (by simp [Token.mark]) (by simp [Token.mark]) (fun h => absurd h hc)
        (by simp [Token.mark]) b
    rw [filter_opening_eq_nil hwrites stack, if_neg fun h => hc h.1, List.map_nil]

/-- A whole run, from any stacked frames. -/
theorem filter_opening_bracket (hu : ∀ c ∈ cs, Unmarked c.tokens) (hs : Stacked stack)
    (htop : stack.head? = some .argumentGroup → headerFirst cs = true) (last : Position) :
    ((bracket stack last cs).filter (·.kind = .opening .topLevelGroup)).map Token.position =
      entrances (Standing.ofStack stack) cs := by
  induction cs generalizing stack last with
  | nil =>
    have hwrites : (Edit.closingAll last).Writes (·.kind ≠ .opening .topLevelGroup) :=
      Edit.closingAll_writes (by simp [Token.mark])
    rw [bracket, filter_opening_eq_nil hwrites stack, entrances, List.map_nil]
  | cons c cs ih =>
    obtain ⟨hs', htop'⟩ := edit_stacked hs htop (headerFirst cs)
    have hrest := ih (fun d hd => hu d (by simp [hd])) hs' htop' c.position
    rw [bracket, List.filter_append, List.map_append, hrest,
      filter_opening_edit hs (hu c List.mem_cons_self), standing_edit hs htop, entrances]

end Cue

/-- A group of the top level opens at each section header that is reached outside of all arguments
and of all groups, and nowhere else. -/
theorem opening_groups_lex (source path : String) (o : Options) :
    ((lex source path o).tokens.filter (·.kind = .opening .topLevelGroup)).map Token.position =
      Cue.entrances .start (Cue.ofTokens (lexUpTo .indent source path o).tokens) := by
  have hu : Unmarked (lexUpTo .indent source path o).tokens :=
    resolveLevels_unmarked (Stream.scan_unmarked _ path o)
  have hs : Stacked [] := trivial
  exact Cue.filter_opening_bracket (fun c hc t ht => hu t (Cue.mem_of_mem_ofTokens hc t ht)) hs
    (by simp) {}

/-- An id is handed on outside of all frames, and nothing is wrong with it. -/
theorem not_literals_in_group : ¬ ∀ source path, (lex source path {}).diagnostics = [] →
    ∀ l ∈ literalStates moveFrames [] (lex source path {}).tokens, Frame.topLevelGroup ∈ l.2 := by
  intro h
  have hclean : (lex "[x]" "a" {}).diagnostics = [] := by decide +kernel
  have hin := h "[x]" "a" hclean
  revert hin
  decide +kernel

end SectionLexer
