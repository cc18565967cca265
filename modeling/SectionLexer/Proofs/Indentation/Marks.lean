import Mathlib.Data.List.SplitBy
import SectionLexer.Proofs.Depth
import SectionLexer.Proofs.Indentation.Rules

/-! The marks of level that the second pass writes: the fewest that lead to the level that the rules
of indentation give. -/
namespace SectionLexer

/-- Of line ends that stand together, the first one and the mark of a blank line at the second. -/
def collapse : List Token → List Token
  | t :: u :: _ => [t, .mark .lineBreak u.position]
  | ts => ts

/-- Tokens without their spaces, line ends that stand together collapsed. -/
def withoutSpaces (ts : List Token) : List Token :=
  ((ts.splitBy fun t u => t.kind == .newline && u.kind == .newline).flatMap collapse).filter
    (·.kind != .space)

def Kind.changesLevel : Kind → Bool
  | indent | unindent => true
  | _ => false

/-- The level behind tokens. -/
def levelAfter (n : Int) (ts : List Token) : Int := ts.foldl (fun n t => countLevel n t.kind) n

/-- The tokens that change no level, each with the count of the marks before it. -/
def withCounts : Int → List Token → List (Token × Int)
  | _, [] => []
  | n, t :: ts =>
    if t.kind.changesLevel then withCounts (countLevel n t.kind) ts else (t, n) :: withCounts n ts

/-- The marks of level in front of each token that is none. -/
def gaps (ts : List Token) : List (List Token) := (ts.splitOnP (!·.kind.changesLevel)).dropLast

variable {t : Token} {ts us : List Token} {is lead : List Item} {level next : Nat} {n : Int}
  {p : Position}

/-- What leads from `level` to the level in force at the next token that is kept, of kind `k` if
there is one: nothing, the start of a line, a dot, or spaces from `p` on. -/
inductive Lead (level : Nat) (p : Position) : List Item → Option Kind → Nat → Prop
  | keep {k : Option Kind} : Lead level p [] k level
  | reset {k : Option Kind} : Lead level p [] k 0
  | dot : Lead level p [] (some .dotSpace) 1
  | spaces {k : Option Kind} (n : Nat) :
    Lead level p [.spaces p n (k == some .dotSpace) level] k
      (Run.lineLevel n (k == some .dotSpace))

/-- Items as marks and tokens: in front of each token one climb to its level, and at the end all
levels are left, perhaps behind a last climb. -/
inductive Marked : Nat → List Item → List Token → Prop
  | done {level next : Nat} {p : Position} {lead : List Item} (q : Position) :
    Lead level p lead none next → Marked level lead (climb level next p ++ climb next 0 q)
  | step {level next : Nat} {p : Position} {t : Token} {lead is : List Item} {ts : List Token} :
    Lead level p lead t.kind next → t.kind.changesLevel = false → Marked next is ts →
      Marked level (lead ++ .token t next :: is) (climb level next p ++ t :: ts)

theorem Marked.cons (ht : t.kind.changesLevel = false) (h : Marked level is ts) :
    Marked level (.token t level :: is) (t :: ts) := by
  have hstep : Marked level ([] ++ .token t level :: is) (climb level level {} ++ t :: ts) :=
    .step .keep ht h
  rwa [climb_self] at hstep

/-- A token at the level in force has no marks in front of it. -/
theorem Marked.of_cons (h : Marked level (.token t level :: is) (t :: ts)) :
    t.kind.changesLevel = false ∧ Marked level is ts := by
  generalize his : Item.token t level :: is = is' at h
  generalize hts : t :: ts = ts' at h
  cases h with
  | done q hlead => cases hlead <;> cases his
  | @step _ next p u lead is' ts' hlead hu hrest =>
    generalize some u.kind = k at hlead
    cases hlead with
    | spaces n => cases his
    | keep | reset | dot =>
      cases his
      rw [climb_self] at hts
      cases hts
      exact ⟨hu, hrest⟩

namespace Run

variable {r : Run} {rs : List Run}

/-- A line that does not set its own level starts with the level it is given. -/
theorem starts_of_not_setsLevel (hfit : ∀ r ∈ rs, r.Fits) (hapart : rs.IsChain Apart)
    (h : ∀ r ∈ rs.head?, r.setsLevel = false) (level : Nat) (last : Position) :
    rs = [] ∨ ∃ t is ts, t.kind ≠ .dotSpace ∧ items level rs = .token t level :: is ∧
      resolve level last rs = t :: ts := by
  cases rs with
  | nil => exact .inl rfl
  | cons r rs =>
    have hr : r.Fits := hfit r (by simp)
    have hrs : ∀ s ∈ rs, s.Fits := fun s hs => hfit s (by simp [hs])
    cases r with
    | newlines t more =>
      have hhead := (List.isChain_cons.1 hapart).1
      rw [items_lineEnds hr hrs hhead t.position, resolve]
      exact .inr ⟨t, _, _, by simp [hr.1], rfl, rfl⟩
    | spaces t more d | dot t => exact absurd (h _ rfl) (by simp [setsLevel])
    | other t => exact .inr ⟨t, _, _, hr.2.2, items_other hr, rfl⟩

theorem marked_behind (hfit : ∀ r ∈ rs, r.Fits) (hapart : rs.IsChain Apart)
    (h : ∀ r ∈ rs.head?, r.setsLevel = false) {last : Position}
    (hlead : ∀ k, k ≠ some .dotSpace → Lead level p lead k next)
    (hrest : Marked next (items next rs) (resolve next last rs)) :
    Marked level (lead ++ items next rs) (climb level next p ++ resolve next last rs) := by
  rcases starts_of_not_setsLevel hfit hapart h next last with rfl | ⟨t, is, ts, hdot, his, hts⟩
  · rw [show items next [] = [] from rfl, List.append_nil]
    exact .done last (hlead none (by simp))
  · rw [his, hts] at hrest ⊢
    obtain ⟨ht, hrest⟩ := hrest.of_cons
    exact .step (hlead t.kind (by simpa using hdot)) ht hrest

theorem afterNewline_cases (level : Nat) (p : Position) (rs : List Run) :
    (afterNewline level p rs).1 = level ∨
      (afterNewline level p rs).1 = 0 ∧ ∀ r ∈ rs.head?, r.setsLevel = false := by
  cases rs with
  | nil => exact .inr ⟨rfl, by simp⟩
  | cons r rs => cases hr : r.setsLevel <;> simp [afterNewline, hr]

/-- The second pass writes the marks that the rules ask for. -/
theorem resolve_marked (hfit : ∀ r ∈ rs, r.Fits) (hapart : rs.IsChain Apart)
    (hmarks : ∀ t ∈ rs.flatMap tokens, t.kind.changesLevel = false) (level : Nat)
    (last : Position) : Marked level (items level rs) (resolve level last rs) := by
  induction rs generalizing level last with
  | nil =>
    have hdone : Marked level [] (climb level level last ++ climb level 0 last) :=
      .done last .keep
    rwa [climb_self] at hdone
  | cons r rs ih =>
    have hr : r.Fits := hfit r (by simp)
    have hrs : ∀ s ∈ rs, s.Fits := fun s hs => hfit s (by simp [hs])
    obtain ⟨hhead, htail⟩ := List.isChain_cons.1 hapart
    have hmark : ∀ t ∈ r.tokens, t.kind.changesLevel = false :=
      fun t ht => hmarks t (by simp [ht])
    have hrest (level : Nat) (last : Position) :
        Marked level (items level rs) (resolve level last rs) :=
      ih hrs htail (fun t ht => hmarks t (by simp [ht])) level last
    cases r with
    | newlines t more =>
      rw [items_lineEnds hr hrs hhead t.position]
      simp only [resolve, List.cons_append, List.append_assoc]
      refine .cons (hmark t (by simp [tokens])) ?_
      have hnext := afterNewline_cases level t.position rs
      obtain ⟨next, q, hq⟩ : ∃ next q, afterNewline level t.position rs = (next, q) :=
        ⟨_, _, rfl⟩
      rw [hq] at hnext ⊢
      have hbehind : Marked level (items next rs)
          (climb level next q ++ resolve next t.position rs) := by
        obtain rfl | ⟨rfl, hsets⟩ := hnext
        · rw [climb_self]
          exact hrest next t.position
        · exact marked_behind hrs htail hsets (fun _ _ => .reset) (hrest 0 t.position)
      cases more with
      | nil => exact hbehind
      | cons u more => exact .cons rfl hbehind
    | spaces t more d =>
      rw [items_spaces hr hrs hhead, resolve]
      have hlead {k : Option Kind} (hk : (k == some .dotSpace) = d.isSome) : Lead level t.position
          [.spaces t.position (more.length + 1) d.isSome level] k
          (lineLevel (more.length + 1) d.isSome) := hk ▸ .spaces (more.length + 1)
      cases d with
      | none =>
        simpa using marked_behind hrs htail hhead (fun k hk => hlead (by simpa using hk))
          (hrest _ t.position)
      | some u =>
        have hu : u.kind = .dotSpace := hr.2.2 u rfl
        simpa using Marked.step (hlead (by simp [hu])) (hmark u (by simp [tokens]))
          (hrest _ t.position)
    | dot t =>
      have ht : t.kind = .dotSpace := hr
      rw [items_dot ht, resolve]
      have hlead : Lead level t.position [] t.kind 1 := ht ▸ .dot
      exact .step hlead (hmark t (by simp [tokens])) (hrest 1 t.position)
    | other t =>
      rw [items_other hr, resolve]
      exact .cons (hmark t (by simp [tokens])) (hrest level t.position)

end Run

/-- The second pass on tokens without marks of level. -/
theorem resolveLevels_marked (h : ∀ t ∈ ts, t.kind.changesLevel = false) :
    Marked 0 (items 0 .nothing ts) (resolveLevels ts) := by
  have hmarks : ∀ t ∈ (Run.ofTokens ts).flatMap Run.tokens, t.kind.changesLevel = false := by
    rwa [Run.flatMap_tokens_ofTokens]
  have hmarked :=
    Run.resolve_marked (Run.ofTokens_fits ts) (Run.ofTokens_apart ts) hmarks 0 {}
  rwa [Run.items, Run.flatMap_tokens_ofTokens] at hmarked

/-! Counts of marks. -/

theorem changesLevel_climb {old new : Nat} (h : t ∈ climb old new p) :
    t.kind.changesLevel = true := by
  rcases mem_climb h with rfl | rfl <;> rfl

theorem levelAfter_append (n : Int) (ts us : List Token) :
    levelAfter n (ts ++ us) = levelAfter (levelAfter n ts) us := List.foldl_append

theorem levelAfter_indents (n : Int) (k : Nat) (p : Position) :
    levelAfter n (List.replicate k (.mark .indent p)) = n + k := by
  induction k generalizing n with
  | zero => simp [levelAfter]
  | succ k ih =>
    have hrest := ih (n + 1)
    simp only [levelAfter, List.replicate_succ, List.foldl_cons, Token.mark, countLevel] at hrest ⊢
    omega

theorem levelAfter_unindents (n : Int) (k : Nat) (p : Position) :
    levelAfter n (List.replicate k (.mark .unindent p)) = n - k := by
  induction k generalizing n with
  | zero => simp [levelAfter]
  | succ k ih =>
    have hrest := ih (n - 1)
    simp only [levelAfter, List.replicate_succ, List.foldl_cons, Token.mark, countLevel] at hrest ⊢
    omega

/-- A climb is one way. -/
theorem climb_cases (old new : Nat) (p : Position) :
    (∃ k, new = old + k ∧ climb old new p = List.replicate k (.mark .indent p)) ∨
      ∃ k, old = new + k ∧ climb old new p = List.replicate k (.mark .unindent p) := by
  by_cases h : old ≤ new
  · obtain ⟨k, rfl⟩ := Nat.exists_eq_add_of_le h
    exact .inl ⟨k, rfl, climb_up old k p⟩
  · obtain ⟨k, rfl⟩ := Nat.exists_eq_add_of_le (Nat.le_of_not_le h)
    exact .inr ⟨k, rfl, climb_down new k p⟩

theorem levelAfter_climb_add (n : Int) (old new : Nat) (p : Position) :
    levelAfter n (climb old new p) = n + new - old := by
  obtain ⟨k, rfl, hk⟩ | ⟨k, rfl, hk⟩ := climb_cases old new p
  · rw [hk, levelAfter_indents]
    omega
  · rw [hk, levelAfter_unindents]
    omega

theorem levelAfter_climb (old new : Nat) (p : Position) :
    levelAfter old (climb old new p) = new := by
  rw [levelAfter_climb_add]
  omega

/-- Marks change the level one by one. -/
theorem natAbs_levelAfter_le (n : Int) (ts : List Token) :
    (levelAfter n ts - n).natAbs ≤ ts.length := by
  induction ts generalizing n with
  | nil => simp [levelAfter]
  | cons t ts ih =>
    have hrest := ih (countLevel n t.kind)
    have hone : (countLevel n t.kind - n).natAbs ≤ 1 := by
      unfold countLevel
      split <;> omega
    change (levelAfter (countLevel n t.kind) ts - n).natAbs ≤ ts.length + 1
    omega

/-- Marks of one kind only, and no fewer of them lead as far. -/
structure IsShortest (gap : List Token) : Prop where
  oneWay : ¬ (Kind.indent ∈ gap.map (·.kind) ∧ Kind.unindent ∈ gap.map (·.kind))
  length_le : ∀ us, levelAfter 0 us = levelAfter 0 gap → gap.length ≤ us.length

theorem isShortest_climb (old new : Nat) (p : Position) : IsShortest (climb old new p) where
  oneWay := by
    obtain ⟨k, -, hk⟩ | ⟨k, -, hk⟩ := climb_cases old new p <;>
      simp [hk, Token.mark]
  length_le us hus := by
    have hle := natAbs_levelAfter_le 0 us
    rw [hus, levelAfter_climb_add] at hle
    obtain ⟨k, rfl, hk⟩ | ⟨k, rfl, hk⟩ := climb_cases old new p
    · rw [hk, List.length_replicate]
      omega
    · rw [hk, List.length_replicate]
      omega

theorem withCounts_climb (old new : Nat) (p : Position) (us : List Token) :
    withCounts old (climb old new p ++ us) = withCounts new us := by
  have hmarks (ts : List Token) (h : ∀ t ∈ ts, t.kind.changesLevel = true) (n : Int) :
      withCounts n (ts ++ us) = withCounts (levelAfter n ts) us := by
    induction ts generalizing n with
    | nil => rfl
    | cons t ts ih =>
      rw [List.cons_append, withCounts, if_pos (h t (by simp))]
      exact ih (fun u hu => h u (by simp [hu])) _
  rw [hmarks _ (fun t ht => changesLevel_climb ht), levelAfter_climb]

/-- No tokens at the front lead below zero. -/
def NeverBelow (n : Int) (ts : List Token) : Prop := ∀ front, front <+: ts → 0 ≤ levelAfter n front

theorem NeverBelow.append (ht : NeverBelow n ts) (hu : NeverBelow (levelAfter n ts) us) :
    NeverBelow n (ts ++ us) := by
  intro front hfront
  rcases List.prefix_or_prefix_of_prefix hfront (List.prefix_append ts us) with h | h
  · exact ht front h
  · obtain ⟨back, rfl⟩ := h
    rw [levelAfter_append]
    exact hu back ((List.prefix_append_right_inj ts).1 hfront)

theorem neverBelow_climb (old new : Nat) (p : Position) : NeverBelow old (climb old new p) := by
  intro front hfront
  obtain ⟨k, rfl, hk⟩ | ⟨k, rfl, hk⟩ := climb_cases old new p
  · rw [hk] at hfront
    rw [(List.prefix_replicate_iff.1 hfront).2, levelAfter_indents]
    omega
  · rw [hk] at hfront
    obtain ⟨hle, heq⟩ := List.prefix_replicate_iff.1 hfront
    rw [heq, levelAfter_unindents]
    omega

theorem gaps_cons {gap : List Token} (hgap : ∀ u ∈ gap, u.kind.changesLevel = true)
    (ht : t.kind.changesLevel = false) (ts : List Token) : gaps (gap ++ t :: ts) = gap :: gaps ts := by
  have hone : gap.splitOnP (!·.kind.changesLevel) = [gap] :=
    List.splitOnP_eq_singleton fun u hu => by simp [hgap u hu]
  rw [gaps, List.splitOnP_append_cons gap ts (by simp [ht]), hone, List.singleton_append,
    List.dropLast_cons_of_ne_nil (List.splitOnP_ne_nil _ ts), gaps]

theorem gaps_marks {gap : List Token} (hgap : ∀ u ∈ gap, u.kind.changesLevel = true) :
    gaps gap = [] := by
  rw [gaps, List.splitOnP_eq_singleton fun u hu => by simp [hgap u hu], List.dropLast_singleton]

theorem filter_marks {gap : List Token} (hgap : ∀ u ∈ gap, u.kind.changesLevel = true) :
    gap.filter (!·.kind.changesLevel) = [] :=
  List.filter_eq_nil_iff.2 fun u hu => by simp [hgap u hu]

theorem countLevel_eq (ht : t.kind.changesLevel = false) (n : Int) : countLevel n t.kind = n := by
  unfold countLevel
  split <;> simp_all [Kind.changesLevel]

theorem Lead.tokens {k : Option Kind} (h : Lead level p lead k next) :
    lead.filterMap Item.token? = [] := by
  cases h <;> rfl

namespace Marked

theorem withCounts_eq (h : Marked level is ts) :
    withCounts level ts = (is.filterMap Item.token?).map fun (t, n) => (t, (n : Int)) := by
  induction h with
  | @done level next p lead q hlead =>
    rw [withCounts_climb, ← List.append_nil (climb next 0 q), withCounts_climb, hlead.tokens]
    rfl
  | @step level next p t lead is ts hlead ht _ ih =>
    simp [withCounts_climb, withCounts, ht, ih, hlead.tokens, Item.token?]

theorem isShortest_of_gap (h : Marked level is ts) : ∀ gap ∈ gaps ts, IsShortest gap := by
  induction h with
  | @done level next p lead q =>
    have hmarks : ∀ u ∈ climb level next p ++ climb next 0 q, u.kind.changesLevel = true :=
      List.forall_mem_append.2 ⟨fun _ => changesLevel_climb, fun _ => changesLevel_climb⟩
    simp [gaps_marks hmarks]
  | @step level next p t lead is ts hlead ht _ ih =>
    rw [gaps_cons (fun _ => changesLevel_climb) ht]
    exact List.forall_mem_cons.2 ⟨isShortest_climb level next p, ih⟩

theorem neverBelow (h : Marked level is ts) : NeverBelow level ts := by
  induction h with
  | @done level next p lead q =>
    refine (neverBelow_climb level next p).append ?_
    rw [levelAfter_climb]
    exact neverBelow_climb next 0 q
  | @step level next p t lead is ts hlead ht _ ih =>
    refine (neverBelow_climb level next p).append ?_
    rw [levelAfter_climb]
    intro front hfront
    rcases List.prefix_cons_iff.1 hfront with rfl | ⟨back, rfl, hback⟩
    · simp [levelAfter]
    · have hrest := ih back hback
      simpa [levelAfter, countLevel_eq ht] using hrest

theorem levelAfter_eq (h : Marked level is ts) : levelAfter level ts = 0 := by
  induction h with
  | done =>
    rw [levelAfter_append, levelAfter_climb, levelAfter_climb]
    rfl
  | @step level next p t lead is ts hlead ht _ ih =>
    rw [levelAfter_append, levelAfter_climb]
    simpa [levelAfter, countLevel_eq ht] using ih

end Marked

/-! What is kept of the tokens. -/

namespace Run

variable {r : Run} {rs : List Run}

/-- What is kept of a run apart from the level. -/
def unleveled : Run → List Token
  | newlines t more => t :: lineBreak more
  | spaces _ _ d => d.toList
  | dot t | other t => [t]

theorem filter_resolve (hmarks : ∀ t ∈ rs.flatMap tokens, t.kind.changesLevel = false)
    (level : Nat) (last : Position) :
    (resolve level last rs).filter (!·.kind.changesLevel) = rs.flatMap unleveled := by
  have hclimb (old new : Nat) (p : Position) :
      (climb old new p).filter (!·.kind.changesLevel) = [] :=
    filter_marks fun _ => changesLevel_climb
  induction rs generalizing level last with
  | nil => exact hclimb level 0 last
  | cons r rs ih =>
    have hr : ∀ t ∈ r.tokens, t.kind.changesLevel = false := fun t ht => hmarks t (by simp [ht])
    have hrs (level : Nat) (last : Position) := ih (fun t ht => hmarks t (by simp [ht])) level last
    cases r with
    | newlines t more =>
      have ht := hr t (by simp [tokens])
      have hbreak : (lineBreak more).filter (!·.kind.changesLevel) = lineBreak more := by
        cases more <;> rfl
      simp [resolve, hclimb, hrs, ht, hbreak, unleveled]
    | spaces t more d =>
      cases d with
      | none => simp [resolve, hclimb, hrs, unleveled]
      | some u =>
        have hu := hr u (by simp [tokens])
        simp [resolve, hclimb, hrs, hu, unleveled]
    | dot t | other t =>
      have ht := hr t (by simp [tokens])
      simp [resolve, hclimb, hrs, ht, unleveled]

end Run

theorem withoutSpaces_append
    (h : ∀ t ∈ ts.getLast?, ∀ u ∈ us.head?, (t.kind == .newline && u.kind == .newline) = false) :
    withoutSpaces (ts ++ us) = withoutSpaces ts ++ withoutSpaces us := by
  rw [withoutSpaces, List.splitBy_append h, List.flatMap_append, List.filter_append]
  rfl

theorem withoutSpaces_newlines (ht : t.kind = .newline) (hts : ∀ u ∈ ts, u.kind = .newline) :
    withoutSpaces (t :: ts) = t :: Run.lineBreak ts := by
  have hall : ∀ u ∈ t :: ts, u.kind = .newline := List.forall_mem_cons.2 ⟨ht, hts⟩
  have hpairs : (t :: ts).Pairwise fun u v => u.kind == .newline && v.kind == .newline :=
    List.pairwise_of_forall_mem_list fun u hu v hv => by simp [hall u hu, hall v hv]
  rw [withoutSpaces, List.splitBy_of_isChain (List.cons_ne_nil t ts) hpairs.isChain]
  cases ts <;> simp [collapse, Run.lineBreak, Token.mark, ht]

theorem withoutSpaces_of_no_newline (h : ∀ t ∈ ts, t.kind ≠ .newline) :
    withoutSpaces ts = ts.filter (·.kind != .space) := by
  induction ts with
  | nil => rfl
  | cons t ts ih =>
    have ht : t.kind ≠ .newline := h t (by simp)
    have hone : withoutSpaces [t] = [t].filter (·.kind != .space) := rfl
    rw [← List.singleton_append, withoutSpaces_append (by simp [ht]), hone,
      ih fun u hu => h u (by simp [hu]), List.filter_append]

namespace Run

variable {rs : List Run}

theorem head_tokens (hfit : ∀ r ∈ rs, r.Fits) (h : ∀ r ∈ rs.head?, r.isNewlines = false) :
    ∀ u ∈ (rs.flatMap tokens).head?, u.kind ≠ .newline := by
  cases rs with
  | nil => simp
  | cons r rs =>
    have hr : r.Fits := hfit r (by simp)
    cases r with
    | newlines t more => exact absurd (h _ rfl) (by simp [isNewlines])
    | spaces t more d => simp [tokens, hr.1]
    | dot t => simp [tokens, show t.kind = .dotSpace from hr]
    | other t => simp [tokens, hr.1]

theorem withoutSpaces_tokens (hfit : ∀ r ∈ rs, r.Fits) (hapart : rs.IsChain Apart) :
    withoutSpaces (rs.flatMap tokens) = rs.flatMap unleveled := by
  induction rs with
  | nil => rfl
  | cons r rs ih =>
    have hr : r.Fits := hfit r (by simp)
    have hrs : ∀ s ∈ rs, s.Fits := fun s hs => hfit s (by simp [hs])
    obtain ⟨hhead, htail⟩ := List.isChain_cons.1 hapart
    rw [List.flatMap_cons, List.flatMap_cons, ← ih hrs htail]
    cases r with
    | newlines t more =>
      have hnext := head_tokens hrs hhead
      rw [withoutSpaces_append fun u _ v hv => by simp [hnext v hv], tokens,
        withoutSpaces_newlines hr.1 hr.2, unleveled]
    | spaces t more d =>
      obtain ⟨ht, hmore, hd⟩ := hr
      have hline : ∀ u ∈ (spaces t more d).tokens, u.kind ≠ .newline := by
        intro u hu
        simp only [tokens, List.mem_append, List.mem_cons, Option.mem_toList] at hu
        rcases hu with (rfl | hu) | hu
        · simp [ht]
        · simp [hmore u hu]
        · simp [hd u hu]
      have hspaces : (t :: more).filter (·.kind != .space) = [] :=
        List.filter_eq_nil_iff.2 (List.forall_mem_cons.2 ⟨by simp [ht], fun u hu => by
          simp [hmore u hu]⟩)
      have hdot : d.toList.filter (·.kind != .space) = d.toList :=
        List.filter_eq_self.2 fun u hu => by simp [hd u (Option.mem_toList.1 hu)]
      rw [withoutSpaces_append fun u hu v _ => by simp [hline u (List.mem_of_getLast? hu)],
        withoutSpaces_of_no_newline hline, tokens, List.filter_append, hspaces, hdot]
      rfl
    | dot t =>
      have ht : t.kind = .dotSpace := hr
      rw [withoutSpaces_append (by simp [tokens, ht]), tokens,
        withoutSpaces_of_no_newline (by simp [ht])]
      simp [ht, unleveled]
    | other t =>
      obtain ⟨hn, hs, -⟩ := hr
      rw [withoutSpaces_append (by simp [tokens, hn]), tokens,
        withoutSpaces_of_no_newline (by simp [hn])]
      simp [hs, unleveled]

end Run

theorem filter_resolveLevels (h : ∀ t ∈ ts, t.kind.changesLevel = false) :
    (resolveLevels ts).filter (!·.kind.changesLevel) = withoutSpaces ts := by
  have hmarks : ∀ t ∈ (Run.ofTokens ts).flatMap Run.tokens, t.kind.changesLevel = false := by
    rwa [Run.flatMap_tokens_ofTokens]
  rw [resolveLevels, Run.filter_resolve hmarks,
    ← Run.withoutSpaces_tokens (Run.ofTokens_fits ts) (Run.ofTokens_apart ts),
    Run.flatMap_tokens_ofTokens]

/-- The second pass follows the rules. Apart from its marks of level it hands on its tokens without
their spaces, with line ends collapsed into blank lines. At each token the marks before it count up
to the level in force, those right in front of it are as few as that takes, and there are never more
marks down than up; in the end there are as many. -/
theorem indent_follows_rules {s : Stream} (h : ∀ t ∈ s.tokens, t.kind.changesLevel = false)
    (path : String) :
    let out := (s.indent path).tokens
    out.filter (!·.kind.changesLevel) = withoutSpaces s.tokens ∧
      withCounts 0 out =
        ((items 0 .nothing s.tokens).filterMap Item.token?).map (fun (t, n) => (t, (n : Int))) ∧
      (∀ gap ∈ gaps out, IsShortest gap) ∧ NeverBelow 0 out ∧ levelAfter 0 out = 0 := by
  have hmarked := resolveLevels_marked h
  exact ⟨filter_resolveLevels h, hmarked.withCounts_eq, hmarked.isShortest_of_gap,
    hmarked.neverBelow, hmarked.levelAfter_eq⟩

/-- A dot at level two, a blank line, and a line that leaves both levels. -/
theorem indent_follows_rules_blankLine :
    let s : Stream := ⟨[.mark .space {}, .mark .space {}, .mark .dotSpace {}, .mark .newline {},
      .mark .newline {}, .mark .colon {}], []⟩
    (∀ t ∈ s.tokens, t.kind.changesLevel = false) ∧
      withCounts 0 (s.indent "a").tokens = [(.mark .dotSpace {}, 2), (.mark .newline {}, 2),
        (.mark .lineBreak {}, 2), (.mark .colon {}, 0)] := by
  intro s
  have h : ∀ t ∈ s.tokens, t.kind.changesLevel = false := by decide
  exact ⟨h, (indent_follows_rules h "a").2.1⟩

end SectionLexer
