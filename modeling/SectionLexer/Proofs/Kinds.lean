import SectionLexer.Lexing

/-! The kinds of tokens that each pass hands on, and the kinds that runs and cues are made of. -/
namespace SectionLexer

/-- Tokens with no opening or closing mark among them. -/
def Unmarked (ts : List Token) : Prop := ∀ t ∈ ts, t.kind.frame? = none

variable {ts : List Token}

theorem Unmarked.cons {t : Token} (h : Unmarked (t :: ts)) : t.kind.frame? = none ∧ Unmarked ts :=
  ⟨h t (by simp), fun u hu => h u (by simp [hu])⟩

theorem Unmarked.kind_ne {k : Kind} (h : Unmarked ts) (hk : k.frame? ≠ none) :
    ∀ t ∈ ts, t.kind ≠ k := by
  rintro t ht rfl
  exact hk (h t ht)

theorem mem_climb {old new : Nat} {p : Position} {t : Token} (h : t ∈ climb old new p) :
    t = .mark .indent p ∨ t = .mark .unindent p := by
  unfold climb at h
  split at h
  · exact .inl (List.mem_replicate.1 h).2
  · exact .inr (List.mem_replicate.1 h).2

namespace Run

/-- The tokens of a run have the kinds that the run stands for. -/
def Fits : Run → Prop
  | newlines t more => t.kind = .newline ∧ ∀ u ∈ more, u.kind = .newline
  | spaces t more d => t.kind = .space ∧ (∀ u ∈ more, u.kind = .space) ∧ ∀ u ∈ d, u.kind = .dotSpace
  | dot t => t.kind = .dotSpace
  | other t => t.kind ≠ .newline ∧ t.kind ≠ .space ∧ t.kind ≠ .dotSpace

theorem attach_fits (t : Token) {rs : List Run} (h : ∀ r ∈ rs, r.Fits) :
    ∀ r ∈ attach t rs, r.Fits := by
  have htail {r : Run} {rs : List Run} (hr : r.Fits) (hrs : ∀ s ∈ rs, s.Fits) :
      ∀ s ∈ r :: rs, s.Fits := by
    intro s hs
    rcases List.mem_cons.1 hs with rfl | hs
    · exact hr
    · exact hrs s hs
  unfold attach
  split
  case h_1 u more rs hk =>
    have hu : (newlines u more).Fits := h _ (by simp)
    exact htail ⟨hk, by simpa [Fits] using hu⟩ fun s hs => h s (by simp [hs])
  case h_2 hk _ => exact htail ⟨hk, by simp⟩ h
  case h_3 u more d rs hk =>
    obtain ⟨hu, hmore, hd⟩ : (spaces u more d).Fits := h _ (by simp)
    exact htail ⟨hk, by simpa using ⟨hu, hmore⟩, hd⟩ fun s hs => h s (by simp [hs])
  case h_4 u rs hk =>
    have hu : (dot u).Fits := h _ (by simp)
    exact htail ⟨hk, by simp, by simpa [Fits] using hu⟩ fun s hs => h s (by simp [hs])
  case h_5 hk _ _ => exact htail ⟨hk, by simp, by simp⟩ h
  case h_6 hk => exact htail hk h
  case h_7 hn hs hd => exact htail (by simp_all [Fits]) h

theorem ofTokens_fits (ts : List Token) : ∀ r ∈ ofTokens ts, r.Fits := by
  induction ts with
  | nil => simp
  | cons t ts ih => exact attach_fits t ih

theorem head?_of_ofTokens {r : Run} {rs : List Run} (h : ofTokens ts = r :: rs) :
    ts.head? = some r.first := by
  have hts := flatMap_tokens_ofTokens ts
  rw [h, List.flatMap_cons] at hts
  rw [← hts]
  cases r <;> rfl

/-- The tokens of a run that are handed on. -/
def kept : Run → List Token
  | newlines t _ | dot t | other t => [t]
  | spaces _ _ d => d.toList

theorem kept_subset_tokens (r : Run) : ∀ t ∈ r.kept, t ∈ r.tokens := by
  intro t ht
  cases r <;> simp_all [kept, tokens]

/-- What is neither kept nor a change of level is the mark of a blank line, at the second of several
line ends. -/
theorem resolve_forall {P : Token → Prop} (hi : ∀ p, P (.mark .indent p))
    (hu : ∀ p, P (.mark .unindent p)) {rs : List Run}
    (hb : ∀ t u more, newlines t (u :: more) ∈ rs → P (.mark .lineBreak u.position))
    (h : ∀ r ∈ rs, ∀ t ∈ r.kept, P t) (level : Nat) (last : Position) :
    ∀ t ∈ resolve level last rs, P t := by
  have hclimb (old new : Nat) (p : Position) : ∀ t ∈ climb old new p, P t := by
    intro t ht
    rcases mem_climb ht with rfl | rfl
    · exact hi p
    · exact hu p
  induction rs generalizing level last with
  | nil => exact hclimb level 0 last
  | cons r rs ih =>
    have hr : ∀ t ∈ r.kept, P t := h r (by simp)
    have hrs (level : Nat) (last : Position) : ∀ t ∈ resolve level last rs, P t :=
      ih (fun t u more hmem => hb t u more (by simp [hmem])) (fun s hs => h s (by simp [hs]))
        level last
    intro t ht
    cases r with
    | newlines u more =>
      have hblank : ∀ t ∈ lineBreak more, P t := by
        cases more with
        | nil => simp [lineBreak]
        | cons v more => simpa [lineBreak] using hb u v more (by simp)
      simp only [resolve, List.cons_append, List.mem_cons, List.mem_append] at ht
      rcases ht with rfl | (ht | ht) | ht
      · exact hr t (by simp [kept])
      · exact hblank t ht
      · exact hclimb _ _ _ t ht
      · exact hrs _ _ t ht
    | spaces u more d =>
      simp only [resolve, List.mem_append] at ht
      rcases ht with (ht | ht) | ht
      · exact hclimb _ _ _ t ht
      · exact hr t ht
      · exact hrs _ _ t ht
    | dot u =>
      simp only [resolve, List.mem_append, List.mem_cons] at ht
      rcases ht with ht | rfl | ht
      · exact hclimb _ _ _ t ht
      · exact hr t (by simp [kept])
      · exact hrs _ _ t ht
    | other u =>
      rcases List.mem_cons.1 ht with rfl | ht
      · exact hr t (by simp [kept])
      · exact hrs _ _ t ht

end Run

theorem resolveLevels_forall {P : Kind → Prop} (hi : P .indent) (hu : P .unindent)
    (hb : P .lineBreak) (h : ∀ t ∈ ts, P t.kind) : ∀ t ∈ resolveLevels ts, P t.kind := by
  refine Run.resolve_forall (P := fun t => P t.kind) (fun _ => hi) (fun _ => hu)
    (fun _ _ _ _ => hb) (fun r hr t ht => h t ?_) 0 {}
  rw [← Run.flatMap_tokens_ofTokens ts]
  exact List.mem_flatMap.2 ⟨r, hr, r.kept_subset_tokens t ht⟩

/-- Whether a dot follows. -/
def startsDotted (ts : List Token) : Bool := ts.head?.any (·.kind == .dotSpace)

namespace Cue

/-- The tokens of a cue have the kinds that the cue stands for. -/
def Fits : Cue → Prop
  | header name colon => name.kind = .name ∧ colon.kind = .colon
  | dot i t => (∀ u ∈ i, u.kind = .indent) ∧ t.kind = .dotSpace
  | dedent t => t.kind = .unindent
  | blankLine t => t.kind = .lineBreak
  | strayIndent t => t.kind = .indent
  | lineEnd t => t.kind = .newline
  | other t => t.kind ∉ [Kind.dotSpace, .unindent, .lineBreak, .indent, .newline]

theorem single_fits (t : Token) : (single t).Fits := by
  unfold single
  split <;> simp_all [Fits]

theorem attach_fits (t : Token) {cs : List Cue} (h : ∀ c ∈ cs, c.Fits) :
    ∀ c ∈ attach t cs, c.Fits := by
  have htail {c : Cue} {cs : List Cue} (hc : c.Fits) (hcs : ∀ d ∈ cs, d.Fits) :
      ∀ d ∈ c :: cs, d.Fits := by
    intro d hd
    rcases List.mem_cons.1 hd with rfl | hd
    · exact hc
    · exact hcs d hd
  unfold attach
  split
  case h_1 u cs hk =>
    split
    · rename_i hu
      exact htail ⟨hk, hu⟩ fun d hd => h d (by simp [hd])
    · exact htail (by simp [Fits, hk]) h
  case h_2 u cs hk =>
    obtain ⟨-, hu⟩ : (dot none u).Fits := h _ (by simp)
    exact htail ⟨by simpa using hk, hu⟩ fun d hd => h d (by simp [hd])
  case h_3 => exact htail (single_fits t) h

theorem ofTokens_fits (ts : List Token) : ∀ c ∈ ofTokens ts, c.Fits := by
  induction ts with
  | nil => simp
  | cons t ts ih => exact attach_fits t ih

theorem head?_of_ofTokens {c : Cue} {cs : List Cue} (h : ofTokens ts = c :: cs) :
    ts.head? = some c.first := by
  have hts := flatMap_tokens_ofTokens ts
  rw [h, List.flatMap_cons] at hts
  rw [← hts]
  cases c with
  | dot i t => cases i <;> rfl
  | _ => rfl

theorem attach_single {t : Token} (hn : t.kind ≠ .name) (hi : t.kind ≠ .indent) (cs : List Cue) :
    attach t cs = single t :: cs := by
  unfold attach
  split <;> first | contradiction | rfl

/-- A change of level and the dot behind it are one cue. -/
theorem ofTokens_indent {t : Token} (ht : t.kind = .indent) (ts : List Token) :
    startsDotted ts = false ∧ ofTokens (t :: ts) = strayIndent t :: ofTokens ts ∨
      startsDotted ts = true ∧
        ∃ u cs, ofTokens ts = dot none u :: cs ∧ ofTokens (t :: ts) = dot (some t) u :: cs := by
  rw [ofTokens_cons]
  unfold attach
  split
  · next hk _ => rw [ht] at hk; cases hk
  · next u cs _ hcs =>
    have hhead : ts.head? = some u := head?_of_ofTokens hcs
    have hfit : (dot none u).Fits := ofTokens_fits ts _ (by simp [hcs])
    exact .inr ⟨by simp [startsDotted, hhead, hfit.2], u, cs, hcs, rfl⟩
  · next hdot =>
    refine .inl ⟨?_, by simp [single, ht]⟩
    cases ts with
    | nil => rfl
    | cons u us =>
      have hu : u.kind ≠ .dotSpace := fun hd => hdot u (ofTokens us) ht (by simp [attach, single, hd])
      simpa [startsDotted] using hu

theorem mem_of_mem_ofTokens {c : Cue} (hc : c ∈ ofTokens ts) : ∀ t ∈ c.tokens, t ∈ ts := by
  intro t ht
  rw [← flatMap_tokens_ofTokens ts]
  exact List.mem_flatMap.2 ⟨c, hc, ht⟩

end Cue

theorem Kind.frame?_of_isLiteral {k : Kind} (h : k.isLiteral = true) : k.frame? = none := by
  cases k <;> first | rfl | cases h

/-- The kinds that a text is read as. -/
theorem Piece.kind_content {x : Piece} {k : Kind} {s : List Char} (h : x.content? = some (k, s)) :
    k.isLiteral = true ∨ k ∈ [Kind.space, .newline, .dotSpace] := by
  cases x <;> cases h <;> decide

theorem Piece.kind_tokens (p : Position) (xs : List Piece) : ∀ t ∈ Piece.tokens p xs,
    t.kind.isLiteral = true ∨ t.kind ∈ [Kind.space, .newline, .dotSpace] := by
  intro t ht
  obtain ⟨⟨q, x⟩, -, hx⟩ := List.mem_filterMap.1 ht
  obtain ⟨⟨k, s⟩, hc, rfl⟩ := Option.map_eq_some_iff.1 hx
  exact Piece.kind_content hc

theorem resolveLevels_unmarked (h : Unmarked ts) : Unmarked (resolveLevels ts) :=
  resolveLevels_forall (P := fun k => k.frame? = none) rfl rfl rfl h

theorem Stream.scan_unmarked (text path : String) (o : Options) :
    Unmarked (Stream.scan text path o).tokens := by
  intro t ht
  rcases Piece.kind_tokens {} _ t ht with h | h
  · exact Kind.frame?_of_isLiteral h
  · simp only [List.mem_cons, List.not_mem_nil, or_false] at h
    rcases h with h | h | h <;> rw [h] <;> rfl

end SectionLexer
