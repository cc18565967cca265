import SectionLexer.Proofs.Depth
import SectionLexer.Proofs.Landmarks

/-! What the second and the third pass keep of a text. -/
namespace SectionLexer

/-! The literals among the landmarks, and what stands between frames. -/

def Landmark.literal? : Landmark → Option Token
  | literal t => some t
  | argument | group | sect _ => none

theorem filterMap_landmarks (ts : List Token) :
    (landmarks ts).filterMap Landmark.literal? = ts.filter (·.kind.isLiteral) := by
  induction ts with
  | nil => rfl
  | cons t ts ih =>
    rw [landmarks, List.filterMap_append, ih]
    cases hk : t.kind with
    | opening f => cases f <;> simp [hk, Kind.isLiteral, Landmark.literal?]
    | _ => simp [hk, Kind.isLiteral, Landmark.literal?]

theorem filterMap_announced (ts : List Token) :
    (announced ts).filterMap Landmark.literal? = ts.filter (·.kind.isLiteral) := by
  induction ts with
  | nil => rfl
  | cons t ts ih =>
    rw [announced, List.filterMap_append, ih]
    cases hk : t.kind with
    | name =>
      cases colon? ts <;> simp [hk, Kind.isLiteral, Landmark.literal?, List.filterMap_cons]
    | dotSpace => cases headerNext ts <;> simp [hk, Kind.isLiteral, Landmark.literal?]
    | _ => simp [hk, Kind.isLiteral, Landmark.literal?]

theorem filter_unmarked_replays :
    Replays fun _ ts => ts.filter (·.kind.frame? = none) where
  opening _ _ _ _ := rfl
  closing _ _ _ _ := rfl

/-- What is no mark of a frame is kept of a cue. -/
theorem Cue.filter_unmarked_bracket {cs : List Cue} (hu : ∀ c ∈ cs, Unmarked c.tokens)
    (stack : List Frame) (last : Position) :
    (bracket stack last cs).filter (·.kind.frame? = none) = cs.flatMap kept := by
  induction cs generalizing stack last with
  | nil => exact bracket_nil_replays filter_unmarked_replays stack last
  | cons c cs ih =>
    have hkept : c.kept.filter (·.kind.frame? = none) = c.kept :=
      List.filter_eq_self.2 fun t ht => by simpa using hu c (by simp) t (c.kept_subset_tokens t ht)
    rw [bracket_replays filter_unmarked_replays, List.filter_append, hkept,
      ih (fun d hd => hu d (by simp [hd])), List.flatMap_cons]

/-- The levels that a text leads to stand between literals, line ends and dots. -/
theorem kind_indent (source path : String) (o : Options) :
    ∀ t ∈ (lexUpTo .indent source path o).tokens, t.kind.isLiteral = true ∨
      t.kind ∈ [Kind.dotSpace, .unindent, .lineBreak, .indent, .newline] := by
  refine Run.resolve_forall (P := fun t => t.kind.isLiteral = true ∨
    t.kind ∈ [Kind.dotSpace, .unindent, .lineBreak, .indent, .newline])
    (fun _ => by simp [Token.mark]) (fun _ => by simp [Token.mark])
    (fun _ _ _ _ => by simp [Token.mark]) (fun r hr t ht => ?_) 0 {}
  have hfit := Run.ofTokens_fits _ r hr
  cases r with
  | newlines u more =>
    obtain rfl := List.mem_singleton.1 ht
    exact .inr (by simp [hfit.1])
  | spaces u more d => exact .inr (by simp [hfit.2.2 t (by simpa [Run.kept] using ht)])
  | dot u =>
    obtain rfl := List.mem_singleton.1 ht
    exact .inr (by simp [show t.kind = .dotSpace from hfit])
  | other u =>
    obtain rfl := List.mem_singleton.1 ht
    exact .inl (scanned_other source path o t hr)

theorem kind_lex (source path : String) (o : Options) :
    ∀ t ∈ (lex source path o).tokens, t.kind.isLiteral = true ∨ t.kind.frame? ≠ none := by
  intro t ht
  by_cases hframe : t.kind.frame? = none
  · have hu : Unmarked (lexUpTo .indent source path o).tokens :=
      resolveLevels_unmarked (Stream.scan_unmarked _ path o)
    have hmem : t ∈ (lex source path o).tokens.filter (·.kind.frame? = none) :=
      List.mem_filter.2 ⟨ht, by simpa using hframe⟩
    have hkept : (lex source path o).tokens.filter (·.kind.frame? = none) =
        (Cue.ofTokens (lexUpTo .indent source path o).tokens).flatMap Cue.kept :=
      Cue.filter_unmarked_bracket (fun c hc t ht => hu t (Cue.mem_of_mem_ofTokens hc t ht)) [] {}
    rw [hkept] at hmem
    obtain ⟨c, hc, hct⟩ := List.mem_flatMap.1 hmem
    have hfit := Cue.ofTokens_fits _ c hc
    have htokens := Cue.mem_of_mem_ofTokens hc t (c.kept_subset_tokens t hct)
    left
    cases c with
    | header name colon =>
      rcases List.mem_cons.1 hct with rfl | hct
      · rw [hfit.1]
        rfl
      · obtain rfl := List.mem_singleton.1 hct
        rw [hfit.2]
        rfl
    | other u =>
      obtain rfl := List.mem_singleton.1 hct
      exact (kind_indent source path o t htokens).resolve_right hfit
    | _ => cases hct
  · exact .inr hframe

/-- Nothing is lost, repeated, moved or made up. Apart from the marks of frames only literals are
left, and they are those of the first pass. Between them, in the order of the text, an argument
opens for each dot, a group for each dot with a section header right behind it, and a section for
each header, right in front of the name and the colon of that header. -/
theorem lex_keeps_content (source path : String) (o : Options) :
    ((lex source path o).tokens.all fun t => t.kind.isLiteral || t.kind.frame? != none) = true ∧
      (lex source path o).tokens.filter (·.kind.isLiteral) =
        (lexUpTo .scan source path o).tokens.filter (·.kind.isLiteral) ∧
      landmarks (lex source path o).tokens = announced (lexUpTo .scan source path o).tokens := by
  have hlandmarks := landmarks_lex source path o
  refine ⟨?_, ?_, hlandmarks⟩
  · refine List.all_eq_true.2 fun t ht => ?_
    simpa using kind_lex source path o t ht
  · rw [← filterMap_landmarks, hlandmarks, filterMap_announced]

end SectionLexer
