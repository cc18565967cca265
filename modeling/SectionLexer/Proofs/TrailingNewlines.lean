import Mathlib.Data.List.Forall2
import SectionLexer.Proofs.Junctions
import SectionLexer.Proofs.OpenEnds
import SectionLexer.Proofs.Replay
import SectionLexer.Proofs.Stages

/-! However many line ends are put behind a document, it is read the same. The end of the tokens
closes what the last line ends would have closed. -/
namespace SectionLexer

variable {ts us : List Token} {t u : Token} {stack : List Frame}

/-- The closing marks of open frames, wherever they stand. -/
def Closes (stack : List Frame) (ts : List Token) : Prop :=
  ts.map (fun t => (t.kind, t.text)) = stack.map fun f => (Kind.closing f, "")

theorem closes_replaysClosings : ReplaysClosings Closes where
  closing f p stack ts := by simp [Closes, Token.mark]

theorem Closes.isClosing (h : Closes stack ts) : ∀ t ∈ ts, t.kind.isClosing = true := by
  intro t ht
  have hmem : (t.kind, t.text) ∈ stack.map fun f => (Kind.closing f, "") := by
    rw [← h]
    exact List.mem_map_of_mem ht
  obtain ⟨f, -, hf⟩ := List.mem_map.1 hmem
  rw [← (Prod.mk.inj hf).1]
  rfl

/-- Tokens of one kind and text, in one place unless they are closing marks. -/
structure Token.Matches (t u : Token) : Prop where
  kind : t.kind = u.kind
  text : t.text = u.text
  position : t.kind.isClosing = false → t.position = u.position

theorem Closes.forall₂ (ht : Closes stack ts) (hu : Closes stack us) :
    List.Forall₂ Token.Matches ts us := by
  induction stack generalizing ts us with
  | nil =>
    obtain rfl : ts = [] := List.map_eq_nil_iff.1 ht
    obtain rfl : us = [] := List.map_eq_nil_iff.1 hu
    exact .nil
  | cons f stack ih =>
    obtain ⟨t, ts, rfl, hft, hts⟩ := List.map_eq_cons_iff.1 ht
    obtain ⟨u, us, rfl, hfu, hus⟩ := List.map_eq_cons_iff.1 hu
    obtain ⟨hkt, htt⟩ := Prod.mk.inj hft
    obtain ⟨hku, htu⟩ := Prod.mk.inj hfu
    have hmatch : t.Matches u :=
      ⟨hkt.trans hku.symm, htt.trans htu.symm, fun h => by rw [hkt] at h; cases h⟩
    exact .cons hmatch (ih hts hus)

/-- What stands behind the last level of a document: nothing opens any more. -/
def Token.Settles (t : Token) : Prop := t.kind ∈ [Kind.newline, .lineBreak, .unindent]

namespace Run

theorem settles_climb (level : Nat) (p : Position) : ∀ t ∈ climb level 0 p, t.Settles := by
  intro t ht
  rw [climb_zero] at ht
  rw [(List.mem_replicate.1 ht).2]
  simp [Token.Settles, Token.mark]

/-- Line ends leave all levels, and so does the end of the tokens. -/
theorem resolve_lineEnds (hts : ∀ t ∈ ts, t.kind = .newline) (level : Nat) (last : Position) :
    ∀ t ∈ resolve level last (ofTokens ts), t.Settles := by
  cases ts with
  | nil => exact settles_climb level last
  | cons u ts =>
    have hu : u.Settles := by simp [Token.Settles, hts u (by simp)]
    rw [ofTokens_newlines (hts u (by simp)) fun v hv => hts v (by simp [hv])]
    intro t ht
    simp only [resolve, afterNewline, climb_self, List.append_nil, List.cons_append,
      List.mem_cons, List.mem_append] at ht
    rcases ht with rfl | ht | ht
    · exact hu
    · cases ts with
      | nil => cases ht
      | cons v ts =>
        obtain rfl : t = Token.mark .lineBreak v.position := by simpa [lineBreak] using ht
        simp [Token.Settles, Token.mark]
    · exact settles_climb level _ t ht

end Run

theorem levelComplaints_newlines (hts : ∀ t ∈ ts, t.kind = .newline) : levelComplaints ts = [] := by
  cases ts with
  | nil => rfl
  | cons t ts =>
    rw [levelComplaints, Run.ofTokens_newlines (hts t (by simp)) fun u hu => hts u (by simp [hu])]
    rfl

/-- Levels with line ends behind the tokens. -/
theorem resolveLevels_lineEnds (ts : List Token) :
    ∃ front, ∀ ends, (∀ t ∈ ends, t.kind = .newline) →
      levelComplaints (ts ++ ends) = levelComplaints ts ∧
        ∃ back, resolveLevels (ts ++ ends) = front ++ back ∧ ∀ t ∈ back, t.Settles := by
  obtain ⟨front, ends₀, rfl, hfront, hends₀⟩ := exists_lineEnds ts
  obtain ⟨out, level, p, hout⟩ := Run.resolve_behind (Run.not_isNewlines_getLast hfront) 0 {}
  have hruns (ends : List Token) (hends : ∀ t ∈ ends, t.kind = .newline) :
      Run.ofTokens (front ++ ends) = Run.ofTokens front ++ Run.ofTokens ends :=
    Run.ofTokens_append_newlines hfront fun t ht => hends t (List.mem_of_mem_head? ht)
  have hquiet (ends : List Token) (hends : ∀ t ∈ ends, t.kind = .newline) :
      levelComplaints (front ++ ends) = levelComplaints front := by
    have hnone := levelComplaints_newlines hends
    simp only [levelComplaints] at hnone ⊢
    rw [hruns ends hends, List.filterMap_append, hnone, List.append_nil]
  refine ⟨out, fun ends hends => ?_⟩
  have hall : ∀ t ∈ ends₀ ++ ends, t.kind = .newline :=
    List.forall_mem_append.2 ⟨hends₀, hends⟩
  rw [List.append_assoc]
  constructor
  · rw [hquiet _ hall, hquiet _ hends₀]
  · refine ⟨_, ?_, Run.resolve_lineEnds hall level p⟩
    rw [resolveLevels, hruns _ hall, hout]

namespace Cue

theorem ofTokens_settled (h : ∀ t ∈ ts, t.Settles) : ofTokens ts = ts.map single := by
  induction ts with
  | nil => rfl
  | cons t ts ih =>
    have ht : t.Settles := h t (by simp)
    simp only [Token.Settles, List.mem_cons, List.not_mem_nil, or_false] at ht
    rw [ofTokens_cons, ih fun u hu => h u (by simp [hu])]
    refine attach_single ?_ ?_ _ <;> rcases ht with ht | ht | ht <;> simp [ht]

theorem single_of_settles (h : t.Settles) :
    (single t).isHeader = false ∧ (single t).complaint? = none := by
  simp only [Token.Settles, List.mem_cons, List.not_mem_nil, or_false] at h
  rcases h with h | h | h <;> simp [single, h, isHeader, complaint?]

theorem headerFirst_settled (h : ∀ t ∈ ts, t.Settles) : headerFirst (ofTokens ts) = false := by
  rw [ofTokens_settled h]
  cases ts with
  | nil => rfl
  | cons t ts => exact (single_of_settles (h t (by simp))).1

theorem complaints_settled (h : ∀ t ∈ ts, t.Settles) : frameComplaints ts = [] := by
  rw [frameComplaints, ofTokens_settled h, List.filterMap_map]
  exact List.filterMap_eq_nil_iff.2 fun t ht => (single_of_settles (h t ht)).2

/-- Nothing but closing marks is written behind the last level. -/
theorem bracket_settled (h : ∀ t ∈ ts, t.Settles) (stack : List Frame) (last : Position) :
    Closes stack (bracket stack last (ofTokens ts)) := by
  have hC := closes_replaysClosings
  rw [ofTokens_settled h]
  induction ts generalizing stack last with
  | nil =>
    have hclose := Edit.closingAll_tracks hC last stack []
    rw [List.append_nil] at hclose
    exact hclose.mpr rfl
  | cons t ts ih =>
    have ht : t.Settles := h t (by simp)
    have hrest (stack : List Frame) (p : Position) :
        Closes stack (bracket stack p (ts.map single)) :=
      ih (fun u hu => h u (by simp [hu])) stack p
    simp only [Token.Settles, List.mem_cons, List.not_mem_nil, or_false] at ht
    rcases ht with ht | ht | ht
    · simpa [bracket, single, ht, edit, Edit.write] using hrest stack _
    · have hclose := Edit.closingAll_tracks hC t.position stack
      simp only [List.map_cons, bracket, single, ht, edit, hclose]
      exact hrest [] _
    · have hclose := Edit.closingArgument_tracks hC t.position stack
      simp only [List.map_cons, bracket, single, ht, edit, hclose]
      exact hrest _ _

end Cue

/-- Whatever line ends stand behind tokens: the same frames, closed at the end or before it. -/
theorem passes_lineEnds (ts : List Token) :
    ∃ out stack cs, ∀ ends, (∀ t ∈ ends, t.kind = .newline) →
      (∃ back, bracketFrames (resolveLevels (ts ++ ends)) = out ++ back ∧ Closes stack back) ∧
        levelComplaints (ts ++ ends) = levelComplaints ts ∧
        frameComplaints (resolveLevels (ts ++ ends)) = cs := by
  obtain ⟨front, hlevels⟩ := resolveLevels_lineEnds ts
  obtain ⟨out, stack, p, hout⟩ := Cue.bracket_append (Cue.ofTokens front) [] {}
  refine ⟨out, stack, frameComplaints front, fun ends hends => ?_⟩
  obtain ⟨hcomplaints, back, hback, hsettles⟩ := hlevels ends hends
  have hcues : Cue.ofTokens (front ++ back) = Cue.ofTokens front ++ Cue.ofTokens back := by
    refine Cue.ofTokens_append fun u hu => ?_
    have hkind : u.Settles := hsettles u (List.mem_of_mem_head? hu)
    simp only [Token.Settles, List.mem_cons, List.not_mem_nil, or_false] at hkind
    rcases hkind with hk | hk | hk <;> simp [hk]
  rw [hback]
  refine ⟨⟨Cue.bracket stack p (Cue.ofTokens back), ?_, Cue.bracket_settled hsettles stack p⟩,
    hcomplaints, ?_⟩
  · rw [bracketFrames, hcues, hout _ (Cue.headerFirst_settled hsettles)]
  · have hquiet := Cue.complaints_settled hsettles
    simp only [frameComplaints] at hquiet ⊢
    rw [hcues, List.filterMap_append, hquiet, List.append_nil]

/-- The kinds of literals that may take the line ends behind a document in. -/
def Kind.TakesIn (k : Kind) : Prop := k ∈ [Kind.text, .formulation, .textBlock, .argumentText]

/-- The levels behind a literal at the end do not depend on its text. -/
theorem resolveLevels_literal (ts : List Token) {k : Kind} (hk : k.TakesIn) (p : Position) :
    ∃ front level, ∀ w,
      resolveLevels (ts ++ [⟨k, w, p⟩]) = front ++ ⟨k, w, p⟩ :: climb level 0 p ∧
        levelComplaints (ts ++ [⟨k, w, p⟩]) = levelComplaints ts := by
  have hrun (w : String) : Run.ofTokens [⟨k, w, p⟩] = [.other ⟨k, w, p⟩] := by
    refine Run.ofTokens_cons_of_not_decidesLevel ?_ []
    simp only [Kind.TakesIn, List.mem_cons, List.not_mem_nil, or_false] at hk
    rcases hk with rfl | rfl | rfl | rfl <;> simp [Token.DecidesLevel]
  have hruns (w : String) : Run.ofTokens (ts ++ [⟨k, w, p⟩]) =
      Run.ofTokens ts ++ [.other ⟨k, w, p⟩] := by
    rw [Run.ofTokens_append fun t _ => ?_, hrun]
    rw [hrun]
    exact Run.attach_other_cons t _ []
  obtain ⟨front, level, q, hfront⟩ :=
    Run.resolve_append (Run.ofTokens ts) [.other ⟨k, "", p⟩] 0 {}
  refine ⟨front, level, fun w => ⟨?_, ?_⟩⟩
  · rw [resolveLevels, hruns, hfront [.other ⟨k, w, p⟩] fun _ _ _ => rfl]
    rfl
  · simp [levelComplaints, hruns, Run.complaint?]

/-- A literal at the end is handed on as it is, whatever its text. -/
theorem passes_literal (ts : List Token) {k : Kind} (hk : k.TakesIn) (p : Position) :
    ∃ before after cs, (∀ t ∈ after, t.kind.isClosing = true) ∧ ∀ w,
      bracketFrames (resolveLevels (ts ++ [⟨k, w, p⟩])) = before ++ ⟨k, w, p⟩ :: after ∧
        levelComplaints (ts ++ [⟨k, w, p⟩]) = levelComplaints ts ∧
        frameComplaints (resolveLevels (ts ++ [⟨k, w, p⟩])) = cs := by
  obtain ⟨front, level, hlevels⟩ := resolveLevels_literal ts hk p
  obtain ⟨before, stack, q, hout⟩ := Cue.bracket_append (Cue.ofTokens front) [] {}
  have hsettles := Run.settles_climb level p
  have hcues (w : String) : Cue.ofTokens (front ++ ⟨k, w, p⟩ :: climb level 0 p) =
      Cue.ofTokens front ++ .other ⟨k, w, p⟩ :: Cue.ofTokens (climb level 0 p) := by
    simp only [Kind.TakesIn, List.mem_cons, List.not_mem_nil, or_false] at hk
    rcases hk with rfl | rfl | rfl | rfl <;> exact Cue.ofTokens_append (by simp)
  refine ⟨before, Cue.bracket stack p (Cue.ofTokens (climb level 0 p)), frameComplaints front,
    (Cue.bracket_settled hsettles stack p).isClosing, fun w => ?_⟩
  obtain ⟨hresolve, hcomplaints⟩ := hlevels w
  rw [hresolve]
  refine ⟨?_, hcomplaints, ?_⟩
  · rw [bracketFrames, hcues, hout _ rfl]
    rfl
  · have hquiet := Cue.complaints_settled hsettles
    simp only [frameComplaints] at hquiet ⊢
    rw [hcues, List.filterMap_append, List.filterMap_cons_none rfl, hquiet, List.append_nil]

/-! All passes. -/

variable {source path : String}

theorem areNewlines_replicate (n : Nat) : AreNewlines (List.replicate n '\n') :=
  fun _ hc => (List.mem_replicate.1 hc).2

theorem scanned_closed (h : ¬ EndsOpen source) (report : Bool) : ∃ ts cs, ∀ n, ∃ ends,
    (∀ t ∈ ends, t.kind = .newline) ∧ scanned source ⟨n, report⟩ = (ts ++ ends, cs) := by
  refine ⟨Piece.tokens {} (Piece.ofText source.toList),
    Piece.complaints {} (Piece.ofText source.toList), fun n => ?_⟩
  have hends := areNewlines_replicate n
  obtain ⟨hnewlines, hnone⟩ := Piece.tokens_newlines hends (Position.after {} source.toList)
  refine ⟨_, hnewlines, ?_⟩
  simp [scanned, prepare, Piece.ofText_append_newlines h hends, Piece.tokens_append,
    Piece.complaints_append, Piece.spell_ofText, hnone]

theorem scanned_open (h : EndsOpen source) (report : Bool) : ∃ ts k s p cs, Kind.TakesIn k ∧
    ∀ n, scanned source ⟨n, report⟩ = (ts ++ [⟨k, prepare s n, p⟩], cs) := by
  obtain ⟨xs, x, hx, hcut⟩ := Piece.cut_open (endsOpen_iff.1 h)
  let p := Position.after {} (Piece.spell xs)
  obtain ⟨k, s, hk, htoken⟩ := Piece.grow_token hx p
  refine ⟨Piece.tokens {} xs, k, String.ofList s, p,
    Piece.complaints {} xs ++ (x.complaint? p).toList, hk, fun n => ?_⟩
  have hends := areNewlines_replicate n
  have hpieces : Piece.ofText (source.toList ++ List.replicate n '\n') =
      xs ++ [x.grow (List.replicate n '\n')] := hcut _ hends
  have htokens : Piece.tokens p [x.grow (List.replicate n '\n')] =
      [⟨k, prepare (String.ofList s) n, p⟩] := by
    simp [Piece.tokens, htoken _ hends, prepare]
  have hcomplaints : Piece.complaints p [x.grow (List.replicate n '\n')] =
      (x.complaint? p).toList := by
    cases hc : x.complaint? p <;> simp [Piece.complaints, Piece.grow_complaint hx hends, hc]
  simp [scanned, prepare, hpieces, Piece.tokens_append, Piece.complaints_append, htokens,
    hcomplaints, p]

/-- The first pass complains about the document alone. -/
theorem scanned_complaints (source : String) (o : Options) :
    (scanned source o).2 = Piece.complaints {} (Piece.ofText source.toList) := by
  have hnone : (scanned source ⟨0, o.reportTrailingWhitespace⟩).2 =
      Piece.complaints {} (Piece.ofText source.toList) := by simp [scanned, prepare]
  rw [← hnone]
  by_cases hopen : EndsOpen source
  · obtain ⟨ts, k, s, p, cs, -, hscan⟩ := scanned_open hopen o.reportTrailingWhitespace
    rw [hscan o.trailingNewlines, hscan 0]
  · obtain ⟨ts, cs, hscan⟩ := scanned_closed hopen o.reportTrailingWhitespace
    obtain ⟨ends, -, hn⟩ := hscan o.trailingNewlines
    obtain ⟨ends₀, -, hzero⟩ := hscan 0
    rw [hn, hzero]

/-- A document ends inside of a literal just when the first pass over it says so, whatever line ends
are put behind it. -/
theorem endsOpen_iff_scanned (o : Options) : EndsOpen source ↔
    ∃ p e, (p, Complaint.unterminated e) ∈ (scanned source o).2 ∧ e ≠ .id := by
  rw [scanned_complaints]
  exact Iff.rfl

theorem diagnostics_eq_of_passComplaints {o o' : Options}
    (h : ∀ pass, passComplaints source o pass = passComplaints source o' pass) :
    (lex source path o).diagnostics = (lex source path o').diagnostics := by
  simp only [lex_diagnostics, h]

theorem Token.forall₂_matches_append (out : List Token) (ht : Closes stack ts)
    (hu : Closes stack us) : List.Forall₂ Token.Matches (out ++ ts) (out ++ us) := by
  have hsame : List.Forall₂ Token.Matches out out :=
    List.forall₂_same.2 fun t _ => ⟨rfl, rfl, fun _ => rfl⟩
  exact List.rel_append hsame (ht.forall₂ hu)

/-- However many line ends are put behind a document, the same is reported. The tokens are the same
too, but for the places of closing marks. A literal that is open at the end of the document takes
the line ends in; only closing marks stand behind it. -/
theorem lex_trailingNewlines (source path : String) (report : Bool) (n m : Nat) :
    let one := lex source path ⟨n, report⟩
    let other := lex source path ⟨m, report⟩
    one.diagnostics = other.diagnostics ∧
      (¬ EndsOpen source → List.Forall₂ Token.Matches one.tokens other.tokens) ∧
      (EndsOpen source → ∃ before k s p after, Kind.TakesIn k ∧
        (∀ t ∈ after, t.kind.isClosing = true) ∧
        one.tokens = before ++ ⟨k, prepare s n, p⟩ :: after ∧
        other.tokens = before ++ ⟨k, prepare s m, p⟩ :: after) := by
  by_cases hopen : EndsOpen source
  · obtain ⟨ts, k, s, p, cs, hk, hscan⟩ := scanned_open hopen report
    obtain ⟨before, after, cs', hafter, hpasses⟩ := passes_literal ts hk p
    refine ⟨diagnostics_eq_of_passComplaints fun pass => ?_, fun h => absurd hopen h,
      fun _ => ⟨before, k, s, p, after, hk, hafter, ?_, ?_⟩⟩
    · obtain ⟨-, hlevels, hframes⟩ := hpasses (prepare s n)
      obtain ⟨-, hlevels', hframes'⟩ := hpasses (prepare s m)
      cases pass with
      | scan => simp only [passComplaints, scanned_complaints]; rfl
      | indent => simp only [passComplaints, hscan, hlevels, hlevels']
      | bracket => simp only [passComplaints, hscan, hframes, hframes']
    · rw [lex_tokens, hscan, (hpasses (prepare s n)).1]
    · rw [lex_tokens, hscan, (hpasses (prepare s m)).1]
  · obtain ⟨ts, cs, hscan⟩ := scanned_closed hopen report
    obtain ⟨out, stack, cs', hpasses⟩ := passes_lineEnds ts
    obtain ⟨ends, hends, hn⟩ := hscan n
    obtain ⟨ends', hends', hm⟩ := hscan m
    obtain ⟨⟨back, htokens, hback⟩, hlevels, hframes⟩ := hpasses ends hends
    obtain ⟨⟨back', htokens', hback'⟩, hlevels', hframes'⟩ := hpasses ends' hends'
    refine ⟨diagnostics_eq_of_passComplaints fun pass => ?_, fun _ => ?_, fun h => absurd h hopen⟩
    · cases pass with
      | scan => simp only [passComplaints, scanned_complaints]; rfl
      | indent => simp only [passComplaints, hn, hm, hlevels, hlevels']
      | bracket => simp only [passComplaints, hn, hm, hframes, hframes']
    · rw [lex_tokens, lex_tokens, hn, hm, htokens, htokens']
      exact Token.forall₂_matches_append out hback hback'

/-- A quoted text that is open at the end. -/
theorem lex_trailingNewlines_text :
    let one := lex ": \"a" "a" ⟨0, true⟩
    let other := lex ": \"a" "a" ⟨3, true⟩
    EndsOpen ": \"a" ∧ ∃ before k s p after, Kind.TakesIn k ∧
      (∀ t ∈ after, t.kind.isClosing = true) ∧
      one.tokens = before ++ ⟨k, prepare s 0, p⟩ :: after ∧
      other.tokens = before ++ ⟨k, prepare s 3, p⟩ :: after := by
  have hopen : EndsOpen ": \"a" := by decide +kernel
  exact ⟨hopen, (lex_trailingNewlines ": \"a" "a" true 0 3).2.2 hopen⟩

end SectionLexer
