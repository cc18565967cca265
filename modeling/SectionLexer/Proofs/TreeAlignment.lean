import Mathlib.Data.Set.Card
import SectionLexer.Proofs.Completion
import SectionLexer.Proofs.TreeReading

/-! The lines of a tree stand as deep as there are frames around their tokens. -/
namespace SectionLexer

variable {f : Frame} {stack below above : List Frame} {ks : List Kind}
  {ts us vs rest : List Token} {t o c : Token} {i j k : Nat}

/-! Which marks belong together. -/

/-- The token `j` of `ts` opens a frame that the token `k` closes. -/
def Paired (ts : List Token) (j k : Nat) : Prop :=
  ∃ us o vs c ws f, ts = us ++ o :: (vs ++ c :: ws) ∧ us.length = j ∧ j + 1 + vs.length = k ∧
    o.kind = .opening f ∧ c.kind = .closing f ∧ Balanced vs

/-- The opening marks of the frames that are open in front of the token `i`. -/
def openBefore (ts : List Token) (i : Nat) : Set Nat := {j | ∃ k, Paired ts j k ∧ j < i ∧ i ≤ k}

/-- The opening marks of the frames that are open around the token `i`. -/
def openAround (ts : List Token) (i : Nat) : Set Nat := {j | ∃ k, Paired ts j k ∧ j < i ∧ i < k}

/-- What opens the frames `stack`, outermost first, with balanced tokens around the opening
marks. -/
inductive Opens : List Token → List Frame → Prop
  | none {us : List Token} : Balanced us → Opens us []
  | frame {f : Frame} {below : List Frame} {us vs : List Token} {o : Token} : Opens us below →
      o.kind = .opening f → Balanced vs → Opens (us ++ o :: vs) (f :: below)

theorem Balanced.append (h : Balanced ts) (h' : Balanced us) : Balanced (ts ++ us) :=
  (balanced_append_iff (h.replay?_eq [])).2 (.done h')

theorem Opens.append (h : Opens us stack) (hv : Balanced vs) : Opens (us ++ vs) stack := by
  cases h with
  | none hu => exact .none (hu.append hv)
  | frame hu ho hin =>
    rw [List.append_assoc, List.cons_append]
    exact .frame hu ho (hin.append hv)

theorem Opens.of_replay? (h : replay? [] (us.map Token.kind) = some stack) : Opens us stack := by
  induction us using List.reverseRecOn generalizing stack with
  | nil =>
    obtain rfl : [] = stack := by simpa using h
    exact .none .nil
  | append_singleton us t ih =>
    rw [List.map_append, replay?_append] at h
    obtain ⟨below, hbelow, hlast⟩ := Option.bind_eq_some_iff.1 h
    rw [List.map_cons, List.map_nil] at hlast
    cases hk : t.kind with
    | opening f =>
      rw [hk, replay?_opening, replay?_nil, Option.some_inj] at hlast
      rw [← hlast]
      exact (ih hbelow).frame hk .nil
    | closing f =>
      rw [hk, replay?_closing_iff] at hlast
      obtain ⟨outer, rfl, houter⟩ := hlast
      obtain rfl : outer = stack := by simpa using houter
      cases ih hbelow with
      | @frame f _ us vs o hu ho hv =>
        have hframe : Balanced (o :: vs ++ t :: []) := .frame ho hk hv .nil
        simpa using hu.append hframe
    | _ =>
      rw [replay?_unmarked (by rw [hk]; rfl), replay?_nil, Option.some_inj] at hlast
      rw [← hlast]
      exact (ih hbelow).append (.skip (by rw [hk]; rfl) .nil)

theorem replay?_above (h : replay? stack ks = some above) (below : List Frame) :
    replay? (stack ++ below) ks = some (above ++ below) := by
  induction ks generalizing stack with
  | nil =>
    obtain rfl : stack = above := by simpa using h
    exact replay?_nil
  | cons k ks ih =>
    cases k with
    | opening f =>
      rw [replay?_opening] at h ⊢
      exact ih h
    | closing f =>
      obtain ⟨outer, rfl, houter⟩ := replay?_closing_iff.1 h
      exact replay?_closing_iff.2 ⟨outer ++ below, rfl, ih houter⟩
    | _ =>
      rw [replay?_unmarked rfl] at h ⊢
      exact ih h

/-- Balanced tokens close what they open. -/
theorem not_balanced_opening (ho : o.kind = .opening f) (hv : Completable vs) :
    ¬ Balanced (us ++ o :: vs) := by
  intro h
  obtain ⟨above, habove⟩ := completable_iff.1 hv
  rw [balanced_iff, List.map_append, List.map_cons, ho, replay?_append] at h
  obtain ⟨below, -, hlast⟩ := Option.bind_eq_some_iff.1 h
  rw [replay?_opening] at hlast
  have hopen := hlast.symm.trans (replay?_above habove (f :: below))
  simp at hopen

/-- A prefix that ends among `q`. -/
theorem append_eq_append_cons {α : Type} {x y p q r : List α} {a : α}
    (h : x ++ y = p ++ a :: (q ++ r)) (hp : p.length < x.length)
    (hq : x.length ≤ p.length + 1 + q.length) : ∃ q₁ q₂, q = q₁ ++ q₂ ∧ x = p ++ a :: q₁ ∧
      y = q₂ ++ r := by
  refine ⟨q.take (x.length - (p.length + 1)), q.drop (x.length - (p.length + 1)), by simp, ?_⟩
  have hlength : (p ++ a :: q.take (x.length - (p.length + 1))).length = x.length := by
    simp
    omega
  refine List.append_inj ?_ hlength.symm
  rw [h, List.append_assoc, List.cons_append, ← List.append_assoc (q.take _), List.take_append_drop]

theorem openBefore_eq_empty (hu : Balanced us) : openBefore (us ++ rest) us.length = ∅ := by
  rw [Set.eq_empty_iff_forall_notMem]
  rintro j ⟨k, ⟨a, o, v, c, w, f, hts, rfl, rfl, ho, -, hv⟩, hj, hk⟩
  obtain ⟨v₁, v₂, rfl, rfl, -⟩ := append_eq_append_cons hts hj hk
  exact not_balanced_opening ho ⟨v₂, hv⟩ hu

theorem openBefore_frame (hu : Opens us below) (ho : o.kind = .opening f) (hv : Balanced vs)
    (hrest : Finishes (f :: below) rest) :
    openBefore (us ++ o :: vs ++ rest) (us ++ o :: vs).length =
      insert us.length (openBefore (us ++ o :: vs ++ rest) us.length) := by
  ext j
  rw [Set.mem_insert_iff]
  constructor
  · rintro ⟨k, ⟨a, p, v, c, w, g, hts, rfl, rfl, hp, hc, hbalanced⟩, hj, hk⟩
    obtain ⟨v₁, v₂, rfl, hprefix, -⟩ := append_eq_append_cons hts hj hk
    rcases Nat.lt_trichotomy a.length us.length with hlt | heq | hlt
    · rw [List.length_append, List.length_cons] at hk
      exact .inr ⟨_, ⟨a, p, _, c, w, g, hts, rfl, rfl, hp, hc, hbalanced⟩, hlt, by omega⟩
    · exact .inl heq
    · -- A frame that opens in `vs` also closes there.
      have hle : a.length ≤ us.length + 1 + vs.length := by
        have hlength := congrArg List.length hprefix
        simp only [List.length_append, List.length_cons] at hlength
        omega
      have hsplit : a ++ p :: v₁ = us ++ o :: (vs ++ []) := by rw [List.append_nil, hprefix]
      obtain ⟨b₁, b₂, rfl, -, hb⟩ := append_eq_append_cons hsplit hlt hle
      rw [List.append_nil] at hb
      rw [← hb] at hv
      exact absurd hv (not_balanced_opening hp ⟨v₂, hbalanced⟩)
  · rintro (rfl | ⟨k, ⟨a, p, v, c, w, g, hts, rfl, rfl, hp, hc, hbalanced⟩, hj, hk⟩)
    · obtain ⟨b, w, c, rfl, hb, hc, -⟩ := hrest.split
      exact ⟨_, ⟨us, o, vs ++ b, c, w, f, by simp, rfl, rfl, ho, hc, hv.append hb⟩, by simp,
        by simp +arith⟩
    · -- A frame that closes in `vs` also opens there.
      have hlength : (us ++ o :: vs).length = us.length + 1 + vs.length := by simp +arith
      refine ⟨_, ⟨a, p, v, c, w, g, hts, rfl, rfl, hp, hc, hbalanced⟩, by omega, ?_⟩
      by_contra hlt
      rw [List.append_assoc] at hts
      obtain ⟨v₁, v₂, rfl, rfl, hbehind⟩ := append_eq_append_cons hts hj hk
      cases v₂ with
      | nil =>
        obtain ⟨rfl, -⟩ : o = c ∧ _ := by simpa using hbehind
        cases ho.symm.trans hc
      | cons q v₂ =>
        obtain ⟨rfl, hsame⟩ : o = q ∧ vs ++ rest = v₂ ++ c :: w := by simpa using hbehind
        simp only [hlength, List.length_append, List.length_cons] at hlt
        obtain ⟨z, rfl⟩ := List.prefix_of_prefix_length_le ⟨c :: w, hsame.symm⟩ ⟨rest, rfl⟩
          (by omega)
        exact not_balanced_opening ho ⟨z, hv⟩ hbalanced

/-- There are as many opening marks of open frames as there are open frames. -/
theorem ncard_openBefore (hu : Opens us stack) (hrest : Finishes stack rest) :
    (openBefore (us ++ rest) us.length).ncard = stack.length := by
  induction hu generalizing rest with
  | none hu => rw [openBefore_eq_empty hu, Set.ncard_empty, List.length_nil]
  | @frame f below us vs o hu ho hv ih =>
    have hbehind : Finishes below (o :: vs ++ rest) := by
      obtain ⟨b, w, c, rfl, hb, hc, hw⟩ := hrest.split
      rw [List.cons_append, ← List.append_assoc]
      exact (Finishes.close (hv.append hb) hc hw).frame ho
    have houter := ih hbehind
    rw [← List.append_assoc] at houter
    have hbefore : ∀ j ∈ openBefore (us ++ o :: vs ++ rest) us.length, j < us.length := by
      rintro j ⟨k, -, hj, -⟩
      exact hj
    have hfinite : (openBefore (us ++ o :: vs ++ rest) us.length).Finite :=
      (Set.finite_lt_nat us.length).subset hbefore
    have hnew : us.length ∉ openBefore (us ++ o :: vs ++ rest) us.length :=
      fun h => Nat.lt_irrefl _ (hbefore _ h)
    rw [openBefore_frame hu ho hv hrest, Set.ncard_insert_of_notMem hnew hfinite, houter,
      List.length_cons]

theorem Paired.getElem? (h : Paired ts j k) : ∃ o c f, ts[j]? = some o ∧ ts[k]? = some c ∧
    o.kind = .opening f ∧ c.kind = .closing f := by
  obtain ⟨a, o, v, c, w, f, rfl, rfl, rfl, ho, hc, -⟩ := h
  refine ⟨o, c, f, by simp, ?_, ho, hc⟩
  rw [List.getElem?_append_right (by omega)]
  simp [Nat.add_assoc, Nat.add_comm 1]

namespace Tree

/-- How many spaces a line starts with. -/
def indentation (l : String) : Nat := (l.toList.takeWhile (· = ' ')).length

@[simp] theorem indentation_line (depth : Nat) (t : Token) :
    indentation (line depth t) = 2 * depth := by
  rw [indentation, toList_line, (takeWhile_lineText depth t _).1, List.length_replicate]

theorem lines_append (depth : Nat) (us vs : List Token) :
    lines depth (us ++ vs) = lines depth us ++ lines (us.foldl depthBehind depth) vs := by
  induction us generalizing depth with
  | nil => rfl
  | cons t us ih => simp [ih]

theorem length_lines (depth : Nat) (ts : List Token) : (lines depth ts).length = ts.length := by
  induction ts generalizing depth with
  | nil => rfl
  | cons t ts ih => simp [ih]

theorem exists_of_mem_lines {depth : Nat} {l : String} (hl : l ∈ lines depth ts) :
    ∃ s, l.toList = s ++ ['\n'] ∧ '\n' ∉ s := by
  induction ts generalizing depth with
  | nil => cases hl
  | cons t ts ih =>
    rw [lines_cons, List.mem_cons] at hl
    rcases hl with rfl | hl
    · exact ⟨_, toList_line _ t, newline_notMem_lineText _ t⟩
    · exact ih hl

/-- Where no closing mark is misplaced, the depth counts the open frames. -/
theorem foldl_depthBehind (h : replay? stack (us.map Token.kind) = some above) :
    us.foldl depthBehind stack.length = above.length := by
  induction us generalizing stack with
  | nil =>
    obtain rfl : stack = above := by simpa using h
    rfl
  | cons t us ih =>
    rw [List.map_cons] at h
    rw [List.foldl_cons, depthBehind, lineDepth]
    cases hk : t.kind with
    | opening f =>
      rw [hk, replay?_opening] at h
      exact ih h
    | closing f =>
      rw [hk, replay?_closing_iff] at h
      obtain ⟨outer, rfl, hrest⟩ := h
      exact ih hrest
    | _ =>
      rw [replay?_unmarked (by rw [hk]; rfl)] at h
      exact ih h

/-- The line of a token stands as deep as there are frames around the token. -/
theorem ncard_openAround (hu : replay? [] (us.map Token.kind) = some stack)
    (hrest : Finishes stack (t :: vs)) :
    (openAround (us ++ t :: vs) us.length).ncard = lineDepth stack.length t := by
  have ht : (us ++ t :: vs)[us.length]? = some t := by simp
  cases hclosing : t.kind.isClosing with
  | false =>
    have hsame : openAround (us ++ t :: vs) us.length = openBefore (us ++ t :: vs) us.length := by
      ext j
      refine exists_congr fun k => and_congr_right fun hpaired => and_congr_right fun _ => ?_
      refine ⟨Nat.le_of_lt, fun hk => Nat.lt_of_le_of_ne hk ?_⟩
      rintro rfl
      obtain ⟨-, c, f, -, hc, -, hkind⟩ := hpaired.getElem?
      obtain rfl : t = c := Option.some_inj.1 (ht.symm.trans hc)
      simp [hkind, Kind.isClosing] at hclosing
    rw [hsame, ncard_openBefore (.of_replay? hu) hrest, lineDepth, hclosing]
    rfl
  | true =>
    have hsame : openAround (us ++ t :: vs) us.length =
        openBefore (us ++ [t] ++ vs) (us ++ [t]).length := by
      rw [List.append_assoc, List.singleton_append, List.length_append, List.length_singleton]
      ext j
      refine exists_congr fun k => and_congr_right fun hpaired => and_congr_left fun _ => ?_
      refine ⟨Nat.lt_succ_of_lt, fun hj => Nat.lt_of_le_of_ne (Nat.le_of_lt_succ hj) ?_⟩
      rintro rfl
      obtain ⟨o, -, f, ho, -, hkind, -⟩ := hpaired.getElem?
      obtain rfl : t = o := Option.some_inj.1 (ht.symm.trans ho)
      simp [hkind, Kind.isClosing] at hclosing
    cases hk : t.kind with
    | closing f =>
      obtain ⟨below, rfl, hvs⟩ := hrest.of_closing hk
      have hbehind : replay? [] ((us ++ [t]).map Token.kind) = some below := by
        rw [List.map_append, replay?_append, hu, List.map_cons, List.map_nil, hk]
        exact replay?_closing_iff.2 ⟨below, rfl, replay?_nil⟩
      rw [hsame, ncard_openBefore (.of_replay? hbehind) hvs, lineDepth, hclosing]
      rfl
    | _ => simp [hk, Kind.isClosing] at hclosing

/-- The line of a token in balanced tokens. -/
theorem getElem?_lines (h : Balanced (us ++ t :: vs)) : ∃ stack,
    replay? [] (us.map Token.kind) = some stack ∧ Finishes stack (t :: vs) ∧
    (lines 0 (us ++ t :: vs))[us.length]? = some (line (lineDepth stack.length t) t) := by
  obtain ⟨stack, hstack⟩ := completable_iff.1 ⟨t :: vs, h⟩
  have hdepth := foldl_depthBehind hstack
  rw [List.length_nil] at hdepth
  refine ⟨stack, hstack, (balanced_append_iff hstack).1 h, ?_⟩
  rw [lines_append, hdepth, lines_cons, List.getElem?_append_right (length_lines 0 us).le,
    length_lines, Nat.sub_self]
  rfl

theorem indentation_lines (h : Balanced ts) (hi : i < ts.length) :
    (lines 0 ts)[i]?.map indentation = some (2 * (openAround ts i).ncard) := by
  have hsplit : ts = ts.take i ++ ts[i] :: ts.drop (i + 1) := by
    rw [← List.drop_eq_getElem_cons hi, List.take_append_drop]
  have hlength : (ts.take i).length = i := List.length_take_of_le hi.le
  rw [hsplit] at h
  obtain ⟨stack, hstack, hrest, hline⟩ := getElem?_lines h
  have hcount := ncard_openAround hstack hrest
  rw [← hsplit, hlength] at hline hcount
  rw [hline, hcount, Option.map_some, indentation_line]

/-- Marks that belong together stand equally deep. -/
theorem indentation_paired (h : Balanced ts) (hpaired : Paired ts j k) :
    (lines 0 ts)[j]?.map indentation = (lines 0 ts)[k]?.map indentation := by
  obtain ⟨us, o, vs, c, ws, f, rfl, rfl, rfl, ho, hc, hv⟩ := hpaired
  obtain ⟨stack, hstack, -, hopening⟩ := getElem?_lines h
  have hinside : replay? [] ((us ++ o :: vs).map Token.kind) = some (f :: stack) := by
    rw [List.map_append, replay?_append, hstack, List.map_cons, ho]
    exact replay?_opening.trans (hv.replay?_eq _)
  have hsplit : us ++ o :: (vs ++ c :: ws) = us ++ o :: vs ++ c :: ws := by simp
  have hlength : us.length + 1 + vs.length = (us ++ o :: vs).length := by simp +arith
  rw [hopening, hsplit, hlength]
  rw [hsplit] at h
  obtain ⟨inner, hinner, -, hclosing⟩ := getElem?_lines h
  obtain rfl : f :: stack = inner := Option.some_inj.1 (hinside.symm.trans hinner)
  rw [hclosing, Option.map_some, Option.map_some, indentation_line, indentation_line]
  simp [lineDepth, ho, hc, Kind.isClosing]

/-- Every opening mark among balanced tokens belongs to a closing mark behind it. -/
theorem exists_paired_opening (h : Balanced (us ++ o :: vs)) (ho : o.kind = .opening f) :
    ∃ k, Paired (us ++ o :: vs) us.length k := by
  obtain ⟨stack, -, hrest, -⟩ := getElem?_lines h
  obtain ⟨b, w, c, rfl, hb, hc, -⟩ := (hrest.of_opening ho).split
  exact ⟨_, us, o, b, c, w, f, rfl, rfl, rfl, ho, hc, hb⟩

/-- Every closing mark among balanced tokens belongs to an opening mark in front of it. -/
theorem exists_paired_closing (h : Balanced (us ++ c :: vs)) (hc : c.kind = .closing f) :
    ∃ j, Paired (us ++ c :: vs) j us.length := by
  obtain ⟨stack, hstack, hrest, -⟩ := getElem?_lines h
  obtain ⟨below, rfl, -⟩ := hrest.of_closing hc
  cases Opens.of_replay? hstack with
  | @frame f below us b o hu ho hb =>
    exact ⟨us.length, us, o, b, c, vs, f, by simp, rfl, by simp +arith, ho, hc, hb⟩

/-- In front of a closing mark among balanced tokens there is a frame to leave. -/
theorem foldl_depthBehind_pos (h : Balanced (us ++ c :: vs)) (hc : c.kind = .closing f) :
    0 < us.foldl depthBehind 0 := by
  obtain ⟨stack, hstack, hrest, -⟩ := getElem?_lines h
  obtain ⟨below, rfl, -⟩ := hrest.of_closing hc
  have hdepth := foldl_depthBehind hstack
  rw [List.length_nil] at hdepth
  rw [hdepth, List.length_cons]
  exact Nat.succ_pos _

/-- The kinds of tokens and the texts of the literals can be read back from the tree, which has a
line for each token. Where the frames are nested, a line stands as deep as there are frames around
its token, the two marks of a frame stand equally deep, and the depth is not zero in front of a
closing mark. -/
theorem lossless_aligned (ts : List Token) :
    read (render ts) = some (ts.map Token.shown) ∧
    (render ts = String.join (lines 0 ts) ∧ (lines 0 ts).length = ts.length ∧
      ∀ l ∈ lines 0 ts, ∃ s, l.toList = s ++ ['\n'] ∧ '\n' ∉ s) ∧
    (imbalance? [] ts = none →
      (∀ i < ts.length, (lines 0 ts)[i]?.map indentation = some (2 * (openAround ts i).ncard)) ∧
      (∀ j k, Paired ts j k →
        (lines 0 ts)[j]?.map indentation = (lines 0 ts)[k]?.map indentation) ∧
      ∀ us t vs f, ts = us ++ t :: vs →
        (t.kind = .opening f → ∃ k, Paired ts us.length k) ∧
        (t.kind = .closing f → (∃ j, Paired ts j us.length) ∧
          lines 0 ts = lines 0 us ++ lines (us.foldl depthBehind 0) (t :: vs) ∧
          0 < us.foldl depthBehind 0)) := by
  refine ⟨read_join_lines 0 ts, ⟨rfl, length_lines 0 ts, ?_⟩, fun h => ?_⟩
  · exact fun l => exists_of_mem_lines
  · rw [imbalance?_none_iff] at h
    refine ⟨fun i hi => indentation_lines h hi, fun j k => indentation_paired h, ?_⟩
    rintro us t vs f rfl
    exact ⟨exists_paired_opening h, fun hc =>
      ⟨exists_paired_closing h hc, lines_append 0 us (t :: vs), foldl_depthBehind_pos h hc⟩⟩

/-- An argument in a section, with a text of two lines. -/
theorem lossless_aligned_argument :
    let ts : List Token := [.mark (.opening .sect) {}, .mark (.opening .argument) {},
      ⟨.textBlock, "a\n\"b", {}⟩, .mark (.closing .argument) {}, .mark (.closing .sect) {}]
    read (render ts) = some (ts.map Token.shown) ∧ imbalance? [] ts = none ∧ Paired ts 1 3 ∧
    (lines 0 ts)[2]?.map indentation = some (2 * (openAround ts 2).ncard) ∧
    (lines 0 ts)[1]?.map indentation = (lines 0 ts)[3]?.map indentation ∧
    0 < (ts.take 3).foldl depthBehind 0 := by
  intro ts
  obtain ⟨hread, -, haligned⟩ := lossless_aligned ts
  obtain ⟨hdepth, hpaired, hmarks⟩ := haligned (by decide)
  have hpair : Paired ts 1 3 :=
    ⟨[ts[0]], ts[1], [ts[2]], ts[3], [ts[4]], .argument, rfl, rfl, rfl, rfl, rfl, .skip rfl .nil⟩
  exact ⟨hread, by decide, hpair, hdepth 2 (by decide), hpaired 1 3 hpair,
    ((hmarks (ts.take 3) ts[3] [ts[4]] .argument rfl).2 rfl).2.2⟩

end Tree

end SectionLexer
