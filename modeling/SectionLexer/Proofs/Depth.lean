import SectionLexer.Proofs.Frames
import SectionLexer.Proofs.Kinds
import SectionLexer.Proofs.Levels
import SectionLexer.Proofs.Replay

/-! Nesting follows indentation: the level of a line is the number of arguments that are open. -/
namespace SectionLexer

variable {σ : Type} {step : σ → Kind → σ} {s : σ} {ts us vs : List Token} {n m : Nat}
  {stack : List Frame}

/-- The literals among tokens, each with the state that the tokens before it lead to. -/
def literalStates (step : σ → Kind → σ) : σ → List Token → List (Token × σ)
  | _, [] => []
  | s, t :: ts =>
    let rest := literalStates step (step s t.kind) ts
    if t.kind.isLiteral then (t, s) :: rest else rest

/-- Marks of indentation, counted with their sign. -/
def countLevel : Int → Kind → Int
  | n, .indent => n + 1
  | n, .unindent => n - 1
  | n, _ => n

/-- Opening marks put a frame on the stack, closing marks take one off. -/
def moveFrames : List Frame → Kind → List Frame
  | stack, .opening f => f :: stack
  | stack, .closing _ => stack.tail
  | stack, _ => stack

theorem Unmarked.moveFrames_eq (hu : Unmarked ts) (stack : List Frame) :
    ∀ t ∈ ts, moveFrames stack t.kind = stack := by
  intro t ht
  have hframe := hu t ht
  unfold moveFrames
  split <;> simp_all [Kind.frame?]

theorem literalStates_append (h : ∀ t ∈ ts, step s t.kind = s) (us : List Token) :
    literalStates step s (ts ++ us) =
      (ts.filter (·.kind.isLiteral)).map (·, s) ++ literalStates step s us := by
  induction ts with
  | nil => rfl
  | cons t ts ih =>
    have ht := h t (by simp)
    have hts := ih fun u hu => h u (by simp [hu])
    cases hl : t.kind.isLiteral <;> simp [literalStates, ht, hts, hl]

/-- Tokens with no literal among them only move the state. -/
theorem literalStates_silent (h : ∀ t ∈ ts, t.kind.isLiteral = false) :
    literalStates step s (ts ++ us) =
      literalStates step (ts.foldl (fun s t => step s t.kind) s) us := by
  induction ts generalizing s with
  | nil => rfl
  | cons t ts ih =>
    have hts := ih (s := step s t.kind) fun u hu => h u (by simp [hu])
    simpa [literalStates, h t (by simp)] using hts

theorem literalStates_replays : Replays (literalStates moveFrames) where
  opening _ _ _ _ := rfl
  closing _ _ _ _ := rfl

/-! Levels against open arguments, cue by cue. Behind a blank line nothing is open, and the levels
that are left one by one are no longer those of arguments. -/

/-- From `level`, with `opened` arguments open, every cue stands where the two agree, but for the
levels that are left behind a blank line. -/
def Keeps : (level opened : Nat) → List Cue → Prop
  | _, _, [] => True
  | level, opened, .dot (some _) _ :: cs => level = opened ∧ Keeps (level + 1) (opened + 1) cs
  | level, opened, .dot none _ :: cs => level = opened ∧ 0 < level ∧ Keeps level opened cs
  | level, opened, .dedent _ :: cs => 0 < level ∧ Keeps (level - 1) (opened - 1) cs
  | level, _, .blankLine _ :: cs => Keeps level 0 cs
  | _, _, .strayIndent _ :: _ => False
  | level, opened, .lineEnd _ :: cs => Keeps level opened cs
  | level, opened, .header _ _ :: cs | level, opened, .other _ :: cs =>
    level = opened ∧ Keeps level opened cs

/-- The stack at a level, with `opened` arguments open. -/
structure InStep (level opened : Nat) (stack : List Frame) : Prop where
  openAt : OpenAt opened stack
  eq_nil : opened < level → stack = []

theorem InStep.of_eq (h : OpenAt n stack) : InStep n n stack :=
  ⟨h, fun hlt => absurd hlt (Nat.lt_irrefl n)⟩

theorem InStep.leave (h : InStep n m stack) (hn : 0 < n) (p : Position) :
    InStep (n - 1) (m - 1) (Edit.closingArgument p stack).2 := by
  by_cases hlt : m < n
  · obtain rfl := h.eq_nil hlt
    have hm : m = 0 := h.openAt.count.symm
    subst hm
    exact ⟨OpenAt.nil, fun _ => rfl⟩
  · obtain ⟨k, rfl⟩ : ∃ k, m = k + 1 := ⟨m - 1, by omega⟩
    exact ⟨h.openAt.closing p, fun hk => absurd hk (by omega)⟩

/-- The literals, each with the number of arguments open before it. -/
def argumentCounts (ls : List (Token × List Frame)) : List (Token × Int) :=
  ls.map fun (t, stack) => (t, stack.count .argument)

theorem Cue.not_literal_of_fits {c : Cue} (hc : c.Fits) (hk : c.kept = []) :
    ∀ t ∈ c.tokens, t.kind.isLiteral = false := by
  cases c with
  | header | other => cases hk
  | dot i t => cases i <;> simp_all [Fits, tokens, Kind.isLiteral]
  | dedent t | blankLine t | strayIndent t | lineEnd t =>
    simp_all [Fits, tokens, Kind.isLiteral]

theorem kept_inStep {level : Nat} (hu : Unmarked ts)
    (hlevel : ∀ t ∈ ts, t.kind ≠ .indent ∧ t.kind ≠ .unindent) (h : OpenAt level stack)
    (hrest : literalStates countLevel level us =
      argumentCounts (literalStates moveFrames stack vs)) :
    literalStates countLevel level (ts ++ us) =
      argumentCounts (literalStates moveFrames stack (ts ++ vs)) := by
  have hcount : ∀ t ∈ ts, countLevel level t.kind = level := by
    intro t ht
    obtain ⟨hi, hd⟩ := hlevel t ht
    unfold countLevel
    split <;> simp_all
  rw [literalStates_append hcount, literalStates_append (hu.moveFrames_eq stack), hrest]
  simp [argumentCounts, h.count]

/-- The run: as long as the cues keep level and open arguments in step, the literals stand at equal
depths. -/
theorem literalStates_bracket {cs : List Cue} (hfit : ∀ c ∈ cs, c.Fits)
    (hmark : ∀ c ∈ cs, Unmarked c.tokens) {level opened : Nat} (hkeep : Keeps level opened cs)
    (hs : InStep level opened stack) (last : Position) :
    literalStates countLevel level (cs.flatMap Cue.tokens) =
      argumentCounts (literalStates moveFrames stack (Cue.bracket stack last cs)) := by
  induction cs generalizing level opened stack last with
  | nil =>
    rw [Cue.bracket_nil_replays literalStates_replays]
    rfl
  | cons c cs ih =>
    have hfits : c.Fits := hfit c (by simp)
    have hu : Unmarked c.tokens := hmark c (by simp)
    have ih' {level opened : Nat} {stack : List Frame} (hk : Keeps level opened cs)
        (hi : InStep level opened stack) :=
      ih (fun d hd => hfit d (by simp [hd])) (fun d hd => hmark d (by simp [hd])) hk hi
    rw [Cue.bracket_replays literalStates_replays, List.flatMap_cons]
    cases c with
    | header name colon =>
      obtain ⟨rfl, hkeep⟩ := hkeep
      obtain ⟨hn, hcolon⟩ := hfits
      rw [Cue.edit_header_snd]
      refine kept_inStep hu ?_ hs.openAt.enter (ih' hkeep (.of_eq hs.openAt.enter) _)
      simp [Cue.tokens, hn, hcolon]
    | dot i t =>
      obtain ⟨hi, ht⟩ := id hfits
      cases i with
      | some u =>
        obtain ⟨rfl, hkeep⟩ := hkeep
        have huk : u.kind = .indent := hi u rfl
        have hopen := hs.openAt.opening u.position (Cue.headerFirst cs)
        rw [literalStates_silent (Cue.not_literal_of_fits hfits rfl)]
        simp only [Cue.tokens, List.foldl, Option.toList, List.cons_append, List.nil_append,
          huk, ht, countLevel]
        exact ih' hkeep (.of_eq hopen) u.position
      | none =>
        obtain ⟨rfl, hpos, hkeep⟩ := hkeep
        obtain ⟨k, rfl⟩ : ∃ k, level = k + 1 := ⟨level - 1, by omega⟩
        have hopen := (hs.openAt.closing t.position).opening t.position (Cue.headerFirst cs)
        rw [literalStates_silent (Cue.not_literal_of_fits hfits rfl)]
        simp only [Cue.tokens, List.foldl, Option.toList, List.nil_append, ht, countLevel]
        exact ih' hkeep (.of_eq hopen) t.position
    | dedent t =>
      obtain ⟨hpos, hkeep⟩ := hkeep
      have ht : t.kind = .unindent := hfits
      have hcast : (level : Int) - 1 = ((level - 1 : Nat) : Int) := by omega
      rw [literalStates_silent (Cue.not_literal_of_fits hfits rfl)]
      simp only [Cue.tokens, List.foldl, ht, countLevel, hcast]
      exact ih' hkeep (hs.leave hpos t.position) t.position
    | blankLine t =>
      have ht : t.kind = .lineBreak := hfits
      rw [literalStates_silent (Cue.not_literal_of_fits hfits rfl)]
      simp only [Cue.tokens, List.foldl, ht, countLevel]
      exact ih' hkeep ⟨OpenAt.nil, fun _ => rfl⟩ t.position
    | strayIndent t => exact hkeep.elim
    | lineEnd t =>
      have ht : t.kind = .newline := hfits
      rw [literalStates_silent (Cue.not_literal_of_fits hfits rfl)]
      simp only [Cue.tokens, List.foldl, ht, countLevel]
      exact ih' hkeep hs t.position
    | other t =>
      obtain ⟨rfl, hkeep⟩ := hkeep
      refine kept_inStep hu ?_ hs.openAt (ih' hkeep hs _)
      simp only [Cue.Fits, List.mem_cons, not_or] at hfits
      simp [Cue.tokens, hfits]

/-! Why levels and arguments are in step: a dot stands at a level of its own, one deeper than the
line before at most, and a blank line is followed by level zero. -/

/-- A level entered is for the dot behind it. -/
theorem frameComplaints_cons (t : Token) (ts : List Token) :
    frameComplaints (t :: ts) =
      (if t.kind = .indent ∧ startsDotted ts = false then [(t.position, .unexpectedIndent)]
        else []) ++ frameComplaints ts := by
  by_cases hindent : t.kind = .indent
  · rcases Cue.ofTokens_indent hindent ts with ⟨hdot, hstray⟩ | ⟨hdot, u, cs, hcs, hcue⟩
    · rw [frameComplaints, hstray, if_pos ⟨hindent, hdot⟩]
      rfl
    · rw [frameComplaints, frameComplaints, hcue, hcs, if_neg (by simp [hdot])]
      rfl
  · rw [if_neg fun h => hindent h.1, List.nil_append, frameComplaints, frameComplaints,
      Cue.ofTokens_cons]
    unfold Cue.attach
    split
    · next u cs _ hcs =>
      rw [hcs]
      split <;> rfl
    · contradiction
    · have hfault : (Cue.single t).complaint? = none := by
        unfold Cue.single
        split <;> simp_all [Cue.complaint?]
      exact List.filterMap_cons_none hfault

theorem frameComplaints_tail {t : Token} (h : frameComplaints (t :: ts) = []) :
    frameComplaints ts = [] := by
  rw [frameComplaints_cons, List.append_eq_nil_iff] at h
  exact h.2

theorem frameComplaints_of_append (h : frameComplaints (ts ++ us) = []) :
    frameComplaints us = [] := by
  induction ts with
  | nil => exact h
  | cons t ts ih => exact ih (frameComplaints_tail h)

variable {level opened : Nat}

theorem keeps_literal {t : Token} (ht : t.kind.isLiteral = true)
    (h : Keeps level level (Cue.ofTokens ts)) : Keeps level level (Cue.ofTokens (t :: ts)) := by
  rw [Cue.ofTokens_cons]
  unfold Cue.attach
  split
  · next u cs _ hcs =>
    rw [hcs] at h
    split
    · exact ⟨rfl, h.2⟩
    · exact ⟨rfl, h⟩
  · next u cs hk _ =>
    rw [hk] at ht
    cases ht
  · have hsingle : Cue.single t = .other t := by
      unfold Cue.single
      split <;> simp_all [Kind.isLiteral]
    rw [hsingle]
    exact ⟨rfl, h⟩

/-- A level is entered by the dot behind it. -/
theorem keeps_indent {p : Position} (hstray : frameComplaints (.mark .indent p :: ts) = [])
    (h : Keeps (level + 1) (level + 1) (Cue.ofTokens ts)) :
    Keeps level level (Cue.ofTokens (.mark .indent p :: ts)) := by
  have hindent : (Token.mark .indent p).kind = .indent := rfl
  rcases Cue.ofTokens_indent hindent ts with ⟨hdot, -⟩ | ⟨-, u, cs, hcs, hcue⟩
  · simp [frameComplaints_cons, Token.mark, hdot] at hstray
  · rw [hcs] at h
    rw [hcue]
    exact ⟨rfl, h.2.2⟩

theorem keeps_indents {p : Position} {k : Nat}
    (hstray : frameComplaints (List.replicate k (.mark .indent p) ++ ts) = [])
    (h : Keeps (level + k) (level + k) (Cue.ofTokens ts)) :
    Keeps level level (Cue.ofTokens (List.replicate k (.mark .indent p) ++ ts)) := by
  induction k generalizing level with
  | zero => exact h
  | succ k ih =>
    have hlevel : level + 1 + k = level + (k + 1) := by omega
    exact keeps_indent hstray (ih (frameComplaints_tail hstray) (by rwa [hlevel]))

theorem keeps_unindents {p : Position} {k : Nat} (hk : k ≤ level)
    (h : Keeps (level - k) (opened - k) (Cue.ofTokens ts)) :
    Keeps level opened (Cue.ofTokens (List.replicate k (.mark .unindent p) ++ ts)) := by
  rw [Cue.ofTokens_unindents]
  induction k generalizing level opened with
  | zero => exact h
  | succ k ih =>
    refine ⟨by omega, ih (by omega) ?_⟩
    rwa [Nat.sub_sub, Nat.sub_sub, Nat.add_comm 1 k]

theorem keeps_climb {old new : Nat} {p : Position}
    (hstray : frameComplaints (climb old new p ++ ts) = [])
    (h : Keeps new new (Cue.ofTokens ts)) :
    Keeps old old (Cue.ofTokens (climb old new p ++ ts)) := by
  by_cases hlt : old < new
  · obtain ⟨k, rfl⟩ : ∃ k, new = old + k := ⟨new - old, by omega⟩
    rw [climb_up] at hstray ⊢
    exact keeps_indents hstray h
  · obtain ⟨k, rfl⟩ : ∃ k, old = new + k := ⟨old - new, by omega⟩
    rw [climb_down]
    refine keeps_unindents (by omega) ?_
    rwa [Nat.add_sub_cancel]

theorem keeps_dotSpace {t : Token} (ht : t.kind = .dotSpace) (hpos : 0 < level)
    (h : Keeps level level (Cue.ofTokens ts)) : Keeps level level (Cue.ofTokens (t :: ts)) := by
  have hcue : Cue.ofTokens (t :: ts) = .dot none t :: Cue.ofTokens ts := by
    simp [Cue.attach, Cue.single, ht]
  rw [hcue]
  exact ⟨rfl, hpos, h⟩

theorem keeps_newline {t : Token} (ht : t.kind = .newline)
    (h : Keeps level opened (Cue.ofTokens ts)) : Keeps level opened (Cue.ofTokens (t :: ts)) := by
  have hcue : Cue.ofTokens (t :: ts) = .lineEnd t :: Cue.ofTokens ts := by
    simp [Cue.attach, Cue.single, ht]
  rw [hcue]
  exact h

/-- Behind a blank line nothing is open at any level. -/
theorem keeps_blankLine {p q : Position} (h : Keeps 0 0 (Cue.ofTokens ts)) :
    Keeps level level
      (Cue.ofTokens (.mark .lineBreak p :: (climb level 0 q ++ ts))) := by
  rw [climb_zero]
  change Keeps level 0 (Cue.ofTokens (_ ++ ts))
  exact keeps_unindents (Nat.le_refl level) (by simpa using h)

/-- No blank line is followed by a line that sets its own level. -/
def ResetsLevels (rs : List Run) : Prop :=
  ∀ t more r, [.newlines t more, r] <:+: rs → more ≠ [] → r.setsLevel = false

theorem afterNewline_blank (level : Nat) {rs : List Run} {t : Token} {more : List Token}
    (h : ResetsLevels (.newlines t more :: rs)) (hmore : more ≠ []) (p : Position) :
    (Run.afterNewline level p rs).1 = 0 := by
  cases rs with
  | nil => rfl
  | cons r rs =>
    have hr := h t more r ⟨[], rs, rfl⟩ hmore
    simp [Run.afterNewline, hr]

theorem keeps_resolve {rs : List Run} (hfit : ∀ r ∈ rs, r.Fits)
    (hother : ∀ t, .other t ∈ rs → t.kind.isLiteral = true) (hreset : ResetsLevels rs)
    (last : Position) (hstray : frameComplaints (Run.resolve level last rs) = []) :
    Keeps level level (Cue.ofTokens (Run.resolve level last rs)) := by
  induction rs generalizing level last with
  | nil =>
    rw [Run.resolve, ← List.append_nil (climb level 0 last)] at hstray ⊢
    exact keeps_climb hstray trivial
  | cons r rs ih =>
    have hr : r.Fits := hfit r (by simp)
    have ih' {level : Nat} (last : Position)
        (hs : frameComplaints (Run.resolve level last rs) = []) :=
      ih (fun s hs => hfit s (by simp [hs])) (fun t ht => hother t (by simp [ht]))
        (fun t more s h => hreset t more s (h.trans (List.suffix_cons r rs).isInfix)) last hs
    cases r with
    | newlines t more =>
      obtain ⟨next, p, hnext⟩ : ∃ next p, Run.afterNewline level t.position rs = (next, p) :=
        ⟨_, _, rfl⟩
      simp only [Run.resolve, hnext, List.cons_append, List.append_assoc] at hstray ⊢
      have hback := frameComplaints_of_append (frameComplaints_tail hstray)
      have hrest := ih' t.position (frameComplaints_of_append hback)
      refine keeps_newline hr.1 ?_
      cases more with
      | nil => exact keeps_climb hback hrest
      | cons u more =>
        have hzero := afterNewline_blank level hreset (by simp) t.position
        rw [hnext] at hzero
        obtain rfl : next = 0 := hzero
        exact keeps_blankLine hrest
    | spaces t more d =>
      obtain ⟨-, -, hd⟩ := hr
      simp only [Run.resolve, List.append_assoc] at hstray ⊢
      have hback := frameComplaints_of_append hstray
      have hrest := ih' t.position (frameComplaints_of_append hback)
      refine keeps_climb hstray ?_
      cases d with
      | none => exact hrest
      | some u => exact keeps_dotSpace (hd u rfl) (by simp [Run.lineLevel]) hrest
    | dot t =>
      have hrest := ih' t.position (frameComplaints_tail (frameComplaints_of_append hstray))
      exact keeps_climb hstray (keeps_dotSpace hr (by omega) hrest)
    | other t =>
      exact keeps_literal (hother t (by simp)) (ih' t.position (frameComplaints_tail hstray))

/-! The same of tokens. -/

theorem Run.tokens_eq (r : Run) : ∃ more, r.tokens = r.first :: more := by
  cases r <;> exact ⟨_, rfl⟩

theorem Run.first_kind {r : Run} (hr : r.Fits) (hs : r.setsLevel = true) :
    r.first.kind = .space ∨ r.first.kind = .dotSpace := by
  cases r with
  | spaces t more d => exact .inl hr.1
  | dot t => exact .inr hr
  | newlines | other => cases hs

/-- The two line ends of a blank line stand right in front of what follows it. -/
theorem infix_of_blank {t : Token} {more : List Token} {r : Run}
    (h : [.newlines t more, r] <:+: Run.ofTokens ts) (hmore : more ≠ []) :
    ∃ u v, [u, v, r.first] <:+: ts ∧ u.kind = .newline ∧ v.kind = .newline := by
  have hfit : (Run.newlines t more).Fits := Run.ofTokens_fits ts _ (h.subset (by simp))
  obtain ⟨pre, post, heq⟩ := h
  obtain ⟨after, hafter⟩ := r.tokens_eq
  have hts := Run.flatMap_tokens_ofTokens ts
  rw [← heq] at hts
  obtain ⟨front, v, rfl⟩ := List.eq_nil_or_concat more |>.resolve_left hmore
  obtain ⟨hv, hfront⟩ : v.kind = .newline ∧ ∀ u ∈ t :: front, u.kind = .newline := by
    obtain ⟨ht, hall⟩ := hfit
    exact ⟨hall v (by simp), by simpa [ht] using fun u hu => hall u (by simp [hu])⟩
  obtain ⟨start, u, hstart⟩ := List.eq_nil_or_concat (t :: front) |>.resolve_left (by simp)
  refine ⟨u, v, ⟨pre.flatMap Run.tokens ++ start, after ++ post.flatMap Run.tokens, ?_⟩,
    hfront u (by simp [hstart]), hv⟩
  have hblock : (Run.newlines t (front ++ [v])).tokens = start ++ [u, v] := by
    rw [List.concat_eq_append] at hstart
    rw [Run.tokens, ← List.cons_append, hstart, List.append_assoc]
    rfl
  rw [← hts]
  simp [hafter, hblock]

theorem resetsLevels_ofTokens (h : ∀ t u v, [t, u, v] <:+: ts → t.kind = .newline →
    u.kind = .newline → v.kind ≠ .space ∧ v.kind ≠ .dotSpace) :
    ResetsLevels (Run.ofTokens ts) := by
  intro t more r hr hmore
  obtain ⟨u, v, hin, hu, hv⟩ := infix_of_blank hr hmore
  obtain ⟨hspace, hdot⟩ := h u v r.first hin hu hv
  have hfit := Run.ofTokens_fits ts r (hr.subset (by simp))
  cases hs : r.setsLevel with
  | false => rfl
  | true => rcases Run.first_kind hfit hs with hk | hk <;> contradiction

theorem Cue.complaint_of_mem {c : Position × Complaint} (h : c ∈ frameComplaints ts) :
    c.2 = .unexpectedIndent := by
  obtain ⟨q, -, hq⟩ := List.mem_filterMap.1 h
  cases q <;> cases hq
  rfl

theorem frameComplaints_eq_nil {source path : String} {o : Options}
    (h : ∀ d ∈ (lex source path o).diagnostics, d.pass ≠ .bracket) :
    frameComplaints (lexUpTo .indent source path o).tokens = [] := by
  rw [List.eq_nil_iff_forall_not_mem]
  rintro ⟨p, c⟩ hc
  obtain rfl : c = .unexpectedIndent := Cue.complaint_of_mem hc
  refine h (Complaint.diagnostic path p .unexpectedIndent) ?_ rfl
  refine List.mem_append_right _ (List.mem_map.2 ⟨_, hc, rfl⟩)

/-- What decides no level is a literal. -/
theorem scanned_other (source path : String) (o : Options) (t : Token)
    (ht : .other t ∈ Run.ofTokens (lexUpTo .scan source path o).tokens) :
    t.kind.isLiteral = true := by
  obtain ⟨hn, hs, hd⟩ : (Run.other t).Fits := Run.ofTokens_fits _ _ ht
  have hmem : t ∈ (lexUpTo .scan source path o).tokens := by
    rw [← Run.flatMap_tokens_ofTokens (lexUpTo .scan source path o).tokens]
    exact List.mem_flatMap.2 ⟨_, ht, by simp [Run.tokens]⟩
  rcases Piece.kind_tokens {} _ t hmem with h | h
  · exact h
  · simp_all

/-- Where nothing is indented too far and no blank line is followed by an indented line or a dot,
every literal stands inside as many arguments as its line has levels. -/
theorem level_eq_openArguments {source path : String} {o : Options}
    (hclean : ∀ d ∈ (lex source path o).diagnostics, d.pass ≠ .bracket)
    (hblank : ∀ t u v, [t, u, v] <:+: (lexUpTo .scan source path o).tokens → t.kind = .newline →
      u.kind = .newline → v.kind ≠ .space ∧ v.kind ≠ .dotSpace) :
    literalStates countLevel 0 (lexUpTo .indent source path o).tokens =
      argumentCounts (literalStates moveFrames [] (lex source path o).tokens) := by
  have hstray := frameComplaints_eq_nil hclean
  have hother := scanned_other source path o
  have hunmarked := resolveLevels_unmarked (Stream.scan_unmarked
    (prepare source o.trailingNewlines) path o)
  have hkeep : Keeps 0 0 (Cue.ofTokens (lexUpTo .indent source path o).tokens) :=
    keeps_resolve (Run.ofTokens_fits _) hother (resetsLevels_ofTokens hblank) {} hstray
  have hmark : ∀ c ∈ Cue.ofTokens (lexUpTo .indent source path o).tokens, Unmarked c.tokens :=
    fun c hc t ht => hunmarked t (Cue.mem_of_mem_ofTokens hc t ht)
  have hrun := literalStates_bracket (Cue.ofTokens_fits _) hmark hkeep (.of_eq OpenAt.nil) {}
  rw [Cue.flatMap_tokens_ofTokens] at hrun
  exact hrun

/-- A section in an argument: its three literals stand at level one, inside one argument. -/
theorem level_eq_openArguments_section :
    literalStates countLevel 0 (lexUpTo .indent ". A: b" "a" {}).tokens =
        argumentCounts (literalStates moveFrames [] (lex ". A: b" "a" {}).tokens) ∧
      (argumentCounts (literalStates moveFrames [] (lex ". A: b" "a" {}).tokens)).map Prod.snd =
        [1, 1, 1] := by
  refine ⟨level_eq_openArguments (by decide) fun t u v hin ht hu => ?_, by decide⟩
  have hdot : ∃ d rest, (lexUpTo .scan ". A: b" "a" {}).tokens = d :: rest ∧
      d.kind = .dotSpace ∧ ∀ x ∈ rest, x.kind ≠ .space ∧ x.kind ≠ .dotSpace :=
    ⟨_, _, rfl, rfl, by decide⟩
  obtain ⟨d, rest, hts, hd, hrest⟩ := hdot
  rw [hts] at hin
  rcases List.infix_cons_iff.1 hin with h | h
  · obtain rfl : t = d := (List.cons_prefix_cons.1 h).1
    rw [hd] at ht
    cases ht
  · exact hrest v (h.subset (by simp))

end SectionLexer
