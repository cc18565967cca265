import SectionLexer.Proofs.Depth

/-! The order of the second pass. Its tokens stand in the order of the text, but for the marks that
leave all levels at the end: these stand where the last run starts. -/
namespace SectionLexer

/-- Tokens that stand in the order of the text. -/
def InOrder (ts : List Token) : Prop :=
  ts.Pairwise fun t u => t.position.offset ≤ u.position.offset

/-- Tokens in the order of the text, no two of them at one place. -/
def StrictlyInOrder (ts : List Token) : Prop :=
  ts.Pairwise fun t u => t.position.offset < u.position.offset

variable {ts us out : List Token} {t u : Token} {p q : Position} {k : Nat}

theorem InOrder.append (ht : InOrder ts) (hu : InOrder us)
    (h : ∀ t ∈ ts, ∀ u ∈ us, t.position.offset ≤ u.position.offset) : InOrder (ts ++ us) :=
  List.pairwise_append.2 ⟨ht, hu, h⟩

theorem offset_lt_of_append (h : StrictlyInOrder (ts ++ us)) (hp : p ∈ ts.map (·.position))
    (hq : q ∈ us.map (·.position)) : p.offset < q.offset := by
  obtain ⟨t, ht, rfl⟩ := List.mem_map.1 hp
  obtain ⟨u, hu, rfl⟩ := List.mem_map.1 hq
  exact (List.pairwise_append.1 h).2.2 t ht u hu

/-- The first token stands before all others. -/
theorem first_offset_le (h : StrictlyInOrder (t :: ts)) (hp : p ∈ (t :: ts).map (·.position)) :
    t.position.offset ≤ p.offset := by
  obtain ⟨u, hu, rfl⟩ := List.mem_map.1 hp
  rcases List.mem_cons.1 hu with rfl | hu
  · exact Nat.le_refl _
  · exact Nat.le_of_lt (List.rel_of_pairwise_cons h hu)

theorem offset_le_of_position (h : ∀ t ∈ ts, t.position = p) :
    ∀ t ∈ ts, t.position.offset ≤ p.offset := fun t ht => Nat.le_of_eq (by rw [h t ht])

/-- Tokens at one place are in order. -/
theorem inOrder_of_position (h : ∀ t ∈ ts, t.position = p) : InOrder ts :=
  List.pairwise_of_forall_mem_list fun t ht u hu => Nat.le_of_eq (by rw [h t ht, h u hu])

theorem position_climb {old new : Nat} (h : t ∈ climb old new p) : t.position = p := by
  rcases mem_climb h with rfl | rfl <;> rfl

theorem InOrder.offset_le_last (h : InOrder (ts ++ [u])) :
    ∀ t ∈ ts ++ [u], t.position.offset ≤ u.position.offset := by
  intro t ht
  rcases List.mem_append.1 ht with ht | ht
  · exact (List.pairwise_append.1 h).2.2 t ht u (by simp)
  · exact Nat.le_of_eq (by rw [List.mem_singleton.1 ht])

theorem InOrder.append_unindents (h : InOrder ts)
    (hle : ∀ t ∈ ts, t.position.offset ≤ p.offset) (k : Nat) :
    InOrder (ts ++ List.replicate k (.mark .unindent p)) := by
  have hmarks : ∀ u ∈ List.replicate k (Token.mark .unindent p), u.position = p :=
    fun u hu => congrArg Token.position (List.eq_of_mem_replicate hu)
  refine h.append (inOrder_of_position hmarks) fun t ht u hu => ?_
  rw [hmarks u hu]
  exact hle t ht

theorem mem_getLast?_append_replicate
    (h : u ∈ (ts ++ List.replicate k t).getLast?) : u ∈ ts.getLast? ∨ u = t := by
  cases k with
  | zero =>
    left
    simpa using h
  | succ k =>
    right
    simpa [List.replicate_succ', ← List.append_assoc, eq_comm] using h

namespace Run

variable {r : Run} {rs : List Run} {level : Nat}

/-- What is written for a run itself, behind level `level`. -/
def written (level : Nat) : Run → List Token
  | newlines t more => t :: lineBreak more
  | spaces t more d => climb level (lineLevel (more.length + 1) d.isSome) t.position ++ d.toList
  | dot t => climb level 1 t.position ++ [t]
  | other t => [t]

/-- The level that a run leads to from level `level`. -/
def leads (level : Nat) : Run → Nat
  | newlines _ _ | other _ => level
  | spaces _ more d => lineLevel (more.length + 1) d.isSome
  | dot _ => 1

theorem resolve_singleton (r : Run) (level : Nat) (last : Position) :
    resolve level last [r] = r.written level ++ climb (r.leads level) 0 r.first.position := by
  cases r <;> simp [resolve, afterNewline, written, leads, first]

/-- A run changes the level where it starts, but for line ends: these leave it where the line behind
them starts. -/
theorem resolve_cons (r : Run) (rs : List Run) (level : Nat) (last : Position) :
    ∃ between next, resolve level last (r :: rs) =
        r.written level ++ (between ++ resolve next r.first.position rs) ∧
      ∀ t ∈ between, ∃ s ∈ rs.head?, t.position = s.first.position := by
  cases r with
  | newlines t more =>
    rcases rs with _ | ⟨s, rs⟩
    · exact ⟨[], level, by simp [resolve, afterNewline, written, first], by simp⟩
    · cases hs : s.setsLevel with
      | true => exact ⟨[], level, by simp [resolve, afterNewline, written, first, hs], by simp⟩
      | false =>
        refine ⟨climb level 0 s.first.position, 0, ?_, fun t ht => ⟨s, rfl, position_climb ht⟩⟩
        simp [resolve, afterNewline, written, first, hs]
  | spaces t more d => exact ⟨[], _, rfl, by simp⟩
  | dot t =>
    refine ⟨[], 1, ?_, by simp⟩
    simp [resolve, written, first]
  | other t => exact ⟨[], level, rfl, by simp⟩

/-- All that is written for a run stands where the run starts, but for the mark of a blank line and
the dot behind spaces. -/
theorem written_split (r : Run) (level : Nat) : ∃ out, ∃ l : Option Token,
    r.written level = out ++ l.toList ∧ (∀ t ∈ out, t.position = r.first.position) ∧
      ∀ t ∈ l, t.position ∈ r.tokens.map (·.position) := by
  cases r with
  | newlines t more =>
    cases more with
    | nil => exact ⟨[t], none, rfl, by simp [first], by simp⟩
    | cons u more =>
      refine ⟨[t], some (.mark .lineBreak u.position), rfl, by simp [first], ?_⟩
      simp [tokens, Token.mark]
  | spaces t more d =>
    refine ⟨_, d, rfl, fun u hu => position_climb hu, fun u hu => ?_⟩
    obtain rfl : d = some u := hu
    simp [tokens]
  | dot t =>
    refine ⟨climb level 1 t.position ++ [t], none, by simp [written], fun u hu => ?_, by simp⟩
    rcases List.mem_append.1 hu with hu | hu
    · exact position_climb hu
    · rw [List.mem_singleton.1 hu, first]
  | other t => exact ⟨[t], none, rfl, by simp [first], by simp⟩

theorem first_mem_positions (r : Run) : r.first.position ∈ r.tokens.map (·.position) := by
  obtain ⟨more, hr⟩ := r.tokens_eq
  simp [hr]

theorem written_positions (h : t ∈ r.written level) :
    t.position ∈ r.tokens.map (·.position) := by
  obtain ⟨out, l, heq, hout, hl⟩ := r.written_split level
  rw [heq] at h
  rcases List.mem_append.1 h with h | h
  · rw [hout t h]
    exact r.first_mem_positions
  · exact hl t (Option.mem_toList.1 h)

theorem written_inOrder (h : StrictlyInOrder r.tokens) (level : Nat) :
    InOrder (r.written level) := by
  obtain ⟨out, l, heq, hout, hl⟩ := r.written_split level
  rw [heq]
  refine (inOrder_of_position hout).append (by cases l <;> simp [InOrder]) fun t ht u hu => ?_
  obtain ⟨more, hr⟩ := r.tokens_eq
  rw [hout t ht]
  exact first_offset_le (hr ▸ h) (hr ▸ hl u (Option.mem_toList.1 hu))

/-- One run in front of others: what is written before the others is in the order of the text, and
so is what they write behind it. -/
theorem resolve_step {s : Run} (hne : rs ≠ [])
    (h : StrictlyInOrder (s.tokens ++ rs.flatMap tokens)) (level : Nat) (last : Position) :
    ∃ out next, resolve level last (s :: rs) = out ++ resolve next s.first.position rs ∧
      InOrder out ∧
      (∀ t ∈ out, t.position ∈ (s.tokens ++ rs.flatMap tokens).map (·.position)) ∧
      ∀ t ∈ out, ∀ p ∈ (rs.flatMap tokens).map (·.position),
        t.position.offset ≤ p.offset := by
  obtain ⟨hs, hrs, -⟩ := List.pairwise_append.1 h
  obtain ⟨between, next, heq, hbetween⟩ := resolve_cons s rs level last
  -- the changes of level behind line ends stand where the rest starts
  obtain ⟨u, us, hus, hu⟩ : ∃ u us, rs.flatMap tokens = u :: us ∧
      ∀ t ∈ between, t.position = u.position := by
    obtain ⟨s', rs', rfl⟩ := List.exists_cons_of_ne_nil hne
    obtain ⟨more, hmore⟩ := s'.tokens_eq
    refine ⟨s'.first, more ++ rs'.flatMap tokens, by simp [hmore], fun t ht => ?_⟩
    simpa using hbetween t ht
  rw [hus] at h hrs ⊢
  have hbefore : ∀ t ∈ s.written level ++ between,
      ∀ p ∈ (u :: us).map (·.position), t.position.offset ≤ p.offset := by
    intro t ht p hp
    rcases List.mem_append.1 ht with ht | ht
    · exact Nat.le_of_lt (offset_lt_of_append h (written_positions ht) hp)
    · rw [hu t ht]
      exact first_offset_le hrs hp
  refine ⟨s.written level ++ between, next, by rw [heq, List.append_assoc], ?_, ?_, hbefore⟩
  · refine (written_inOrder hs level).append (inOrder_of_position hu) fun t ht v hv => ?_
    exact hbefore t (List.mem_append_left _ ht) _ (by simp [hu v hv])
  · rw [List.map_append]
    refine List.forall_mem_append.2 ⟨fun t ht => ?_, fun t ht => ?_⟩
    · exact List.mem_append_left _ (written_positions ht)
    · simp [hu t ht]

/-- The second pass behind level `level`: tokens in the order of the text, up to those of the last
run, then the marks that leave all levels. These stand where the last run starts. -/
theorem resolve_concat (rs : List Run) (r : Run) (h : StrictlyInOrder ((rs ++ [r]).flatMap tokens))
    (level : Nat) (last : Position) :
    ∃ out next, resolve level last (rs ++ [r]) = out ++ r.written next ++
        climb (r.leads next) 0 r.first.position ∧
      InOrder (out ++ r.written next) ∧
      (∀ t ∈ out, t.position.offset ≤ r.first.position.offset) ∧
      ∀ t ∈ out ++ r.written next, t.position ∈ ((rs ++ [r]).flatMap tokens).map (·.position) := by
  induction rs generalizing level last with
  | nil =>
    rw [List.nil_append, List.flatMap_singleton] at h ⊢
    exact ⟨[], level, resolve_singleton r level last, written_inOrder h level, by simp,
      fun t ht => written_positions ht⟩
  | cons s rs ih =>
    rw [List.cons_append, List.flatMap_cons] at h ⊢
    have hrs : StrictlyInOrder ((rs ++ [r]).flatMap tokens) := (List.pairwise_append.1 h).2.1
    have hr : r.first.position ∈ ((rs ++ [r]).flatMap tokens).map (·.position) := by
      rw [List.flatMap_append, List.map_append, List.flatMap_singleton]
      exact List.mem_append_right _ r.first_mem_positions
    obtain ⟨front, next, heq, hfront, hmem, hbefore⟩ :=
      resolve_step (by simp) h level last
    -- the marks at the end belong to the last run, which is one of the rest
    obtain ⟨out, next', hsplit, hout, hfirst, hrest⟩ := ih hrs next s.first.position
    refine ⟨front ++ out, next', by simp [heq, hsplit], ?_, ?_, ?_⟩
    · rw [List.append_assoc]
      exact hfront.append hout fun t ht u hu => hbefore t ht _ (hrest u hu)
    · exact List.forall_mem_append.2 ⟨fun t ht => hbefore t ht _ hr, hfirst⟩
    · rw [List.append_assoc]
      refine List.forall_mem_append.2 ⟨hmem, fun t ht => ?_⟩
      rw [List.map_append]
      exact List.mem_append_right _ (hrest t ht)

end Run

/-- What the second pass makes of tokens with the last run `r`, which it reads at level `next`: the
tokens `out` for the runs before it, what is written for `r`, and the marks that leave all
levels. -/
structure LastRun (ts : List Token) (r : Run) (out : List Token) (next : Nat) : Prop where
  fits : r.Fits
  last : r.tokens.getLast? = ts.getLast?
  strictlyInOrder : StrictlyInOrder r.tokens
  resolved : resolveLevels ts = out ++ r.written next ++
    List.replicate (r.leads next) (.mark .unindent r.first.position)
  inOrder : InOrder (out ++ r.written next)
  before : ∀ t ∈ out, t.position.offset ≤ r.first.position.offset

theorem exists_lastRun (h : StrictlyInOrder ts) (hne : ts ≠ []) :
    ∃ r out next, LastRun ts r out next := by
  have hts := Run.flatMap_tokens_ofTokens ts
  rcases List.eq_nil_or_concat (Run.ofTokens ts) with hnil | ⟨rs, r, hrs⟩
  · rw [hnil] at hts
    exact absurd hts.symm hne
  · rw [List.concat_eq_append] at hrs
    rw [hrs] at hts
    have hr : ts = rs.flatMap Run.tokens ++ r.tokens := by
      rw [← hts, List.flatMap_append, List.flatMap_singleton]
    have hlast : r.tokens.getLast? = ts.getLast? := by
      obtain ⟨more, hmore⟩ := r.tokens_eq
      simp [hr, hmore, List.getLast?_append, List.getLast?_cons]
    obtain ⟨out, next, hsplit, hout, hfirst, -⟩ :=
      Run.resolve_concat rs r (hts.symm ▸ h) 0 {}
    rw [climb_zero, ← hrs] at hsplit
    have htokens : StrictlyInOrder (rs.flatMap Run.tokens ++ r.tokens) := hr ▸ h
    exact ⟨r, out, next, Run.ofTokens_fits ts r (by simp [hrs]), hlast,
      (List.pairwise_append.1 htokens).2.1, hsplit, hout, hfirst⟩

/-- A run that writes nowhere but where it starts writes in front of the marks at the end. -/
theorem LastRun.inOrder_of_position {r : Run} {next : Nat} (h : LastRun ts r out next)
    (hr : ∀ t ∈ r.written next, t.position = r.first.position) : InOrder (resolveLevels ts) := by
  rw [h.resolved]
  exact h.inOrder.append_unindents
    (List.forall_mem_append.2 ⟨h.before, offset_le_of_position hr⟩) _

/-- The second pass writes tokens in the order of the text, but for the marks at the end. -/
theorem resolveLevels_split (h : StrictlyInOrder ts) :
    ∃ front k q, resolveLevels ts = front ++ List.replicate k (.mark .unindent q) ∧
      InOrder front := by
  by_cases hne : ts = []
  · subst hne
    exact ⟨[], 0, {}, rfl, .nil⟩
  · obtain ⟨r, out, next, hr⟩ := exists_lastRun h hne
    exact ⟨_, _, _, hr.resolved, hr.inOrder⟩

end SectionLexer
