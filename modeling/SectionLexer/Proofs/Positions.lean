import SectionLexer.Proofs.Cut
import SectionLexer.Proofs.Junctions
import SectionLexer.Proofs.Order
import SectionLexer.Proofs.Relocation
import SectionLexer.Proofs.Stages

/-! Where tokens and diagnostics stand: each at the place of a character of the document, and in the
order of the text. The pieces of a text share its characters out among them; the later passes make
up no place of their own. -/
namespace SectionLexer

variable {α β γ : Type} {R : Nat → Nat → Prop}

/-- What is read off parts that stand one behind the other, each at the place of something in its
part, stands in the same order. -/
theorem pairwise_filterMap_of_flatMap {as : List α} {parts : α → List β} {g : α → Option γ}
    {place : β → Position} {place' : γ → Position}
    (h : (as.flatMap parts).Pairwise fun x y => R (place x).offset (place y).offset)
    (hg : ∀ a ∈ as, ∀ c ∈ g a, place' c ∈ (parts a).map place) :
    (as.filterMap g).Pairwise fun c d => R (place' c).offset (place' d).offset := by
  refine List.pairwise_filterMap.2 ((List.pairwise_flatMap.1 h).2.imp_of_mem ?_)
  intro a b ha hb hab c hc d hd
  obtain ⟨x, hx, hplace⟩ := List.mem_map.1 (hg a ha c hc)
  obtain ⟨y, hy, hplace'⟩ := List.mem_map.1 (hg b hb d hd)
  rw [← hplace, ← hplace']
  exact hab x hx y hy

theorem place_mem_of_filterMap {as : List α} {parts : α → List β} {g : α → Option γ}
    {place : β → Position} {place' : γ → Position} {c : γ}
    (hg : ∀ a ∈ as, ∀ c ∈ g a, place' c ∈ (parts a).map place) (hc : c ∈ as.filterMap g) :
    place' c ∈ (as.flatMap parts).map place := by
  obtain ⟨a, ha, hac⟩ := List.mem_filterMap.1 hc
  rw [List.map_flatMap]
  exact List.mem_flatMap.2 ⟨a, ha, hg a ha c hac⟩

/-! The characters of a text, and the pieces that they make up. -/

theorem placeChars_append (p : Position) (s t : List Char) :
    placeChars p (s ++ t) = placeChars p s ++ placeChars (p.after s) t := by
  induction s generalizing p with
  | nil => rfl
  | cons c s ih => simp [placeChars, ih]

theorem offset_le_placeChars {p : Position} {s : List Char} :
    ∀ x ∈ placeChars p s, p.offset ≤ x.2.offset := by
  induction s generalizing p with
  | nil => simp [placeChars]
  | cons c s ih =>
    intro x hx
    rcases List.mem_cons.1 hx with rfl | hx
    · exact Nat.le_refl _
    · exact Nat.le_trans (Nat.le_of_lt (p.offset_lt_step c)) (ih x hx)

/-- Every character of a text stands in front of its end. -/
theorem placeChars_offset_lt {p : Position} {s : List Char} :
    ∀ x ∈ placeChars p s, x.2.offset < (p.after s).offset := by
  induction s generalizing p with
  | nil => simp [placeChars]
  | cons c s ih =>
    intro x hx
    rcases List.mem_cons.1 hx with rfl | hx
    · exact Nat.lt_of_lt_of_le (p.offset_lt_step c) ((p.step c).offset_le_after s)
    · exact ih x hx

theorem pairwise_placeChars (p : Position) (s : List Char) :
    (placeChars p s).Pairwise fun x y => x.2.offset < y.2.offset := by
  induction s generalizing p with
  | nil => exact .nil
  | cons c s ih =>
    refine .cons (fun x hx => ?_) (ih _)
    exact Nat.lt_of_lt_of_le (p.offset_lt_step c) (offset_le_placeChars x hx)

/-- Behind the front of a text stands a character, if the text goes on there. -/
theorem after_mem_placeChars (p : Position) {s t : List Char} (ht : t ≠ []) :
    p.after s ∈ (placeChars p (s ++ t)).map Prod.snd := by
  obtain ⟨c, t, rfl⟩ := List.exists_cons_of_ne_nil ht
  simp [placeChars_append, placeChars]

namespace Piece

variable {p q : Position} {x : Piece}

/-- The characters of a piece that starts at `p`, with their places. -/
def chars (a : Position × Piece) : List (Char × Position) := placeChars a.1 a.2.spelling

theorem flatMap_chars (p : Position) (xs : List Piece) :
    (place p xs).flatMap chars = placeChars p (spell xs) := by
  induction xs generalizing p with
  | nil => rfl
  | cons x xs ih => simp [ih, chars, placeChars_append]

theorem start_mem_chars (p : Position) (hx : x.spelling ≠ []) : p ∈ (chars (p, x)).map Prod.snd :=
  after_mem_placeChars p (s := []) hx

/-- A piece is told of at one of its characters. -/
theorem complaint_mem_chars (hx : x.spelling ≠ []) {c : Position × Complaint}
    (h : x.complaint? p = some c) : c.1 ∈ (chars (p, x)).map Prod.snd := by
  have hstart : p ∈ (chars (p, x)).map Prod.snd := start_mem_chars p hx
  cases faulty_of_complaint h with
  | @trailing s htrim =>
    -- the spaces at the end of the argument start behind what is left without them
    have ht : trimRight s ++ s.rtakeWhile (· == ' ') = s := List.rdropWhile_append_rtakeWhile
    have hne : s.rtakeWhile (· == ' ') ≠ [] := by
      intro hnil
      rw [hnil, List.append_nil] at ht
      exact htrim ht
    have hmem := after_mem_placeChars p (s := trimRight s) hne
    rw [ht] at hmem
    exact hmem
  | _ => exact hstart

theorem token_mem_chars (hx : x.spelling ≠ []) {t : Token} (h : x.token? p = some t) :
    t.position ∈ (chars (p, x)).map Prod.snd := by
  obtain ⟨⟨k, s⟩, -, rfl⟩ := Option.map_eq_some_iff.1 h
  exact start_mem_chars p hx

theorem spelling_ne_nil_of_place {s : List Char} {a : Position × Piece}
    (h : a ∈ place p (ofText s)) : a.2.spelling ≠ [] := by
  obtain ⟨us, vs, hcut, -⟩ := mem_place h
  exact spelling_ne_nil_of_cut hcut

theorem flatMap_chars_ofText (p : Position) (s : List Char) :
    (place p (ofText s)).flatMap chars = placeChars p s := by
  rw [flatMap_chars, spell_ofText]

/-- What is read off pieces one by one stands at their characters, in the order of the text. -/
theorem place_filterMap {g : Position × Piece → Option γ} {place' : γ → Position}
    (hg : ∀ a, a.2.spelling ≠ [] → ∀ c ∈ g a, place' c ∈ (chars a).map Prod.snd) (s : List Char) :
    (∀ c ∈ (place p (ofText s)).filterMap g, place' c ∈ (placeChars p s).map Prod.snd) ∧
      ((place p (ofText s)).filterMap g).Pairwise
        fun c d => (place' c).offset < (place' d).offset := by
  have hplace : ∀ a ∈ place p (ofText s), ∀ c ∈ g a, place' c ∈ (chars a).map Prod.snd :=
    fun a ha => hg a (spelling_ne_nil_of_place ha)
  have horder := pairwise_placeChars p s
  rw [← flatMap_chars_ofText] at horder ⊢
  exact ⟨fun c hc => place_mem_of_filterMap hplace hc, pairwise_filterMap_of_flatMap horder hplace⟩

end Piece

/-! The later passes. -/

/-- A pass that looks at kinds only makes up no place. -/
theorem positions_of_moved {F : List Token → List Token} (hnil : F [] = [])
    (hF : ∀ f ts, F (ts.map (·.moved f)) = (F ts).map (·.moved f)) (ts : List Token) :
    ∀ t ∈ F ts, t.position ∈ ts.map (·.position) := by
  cases ts with
  | nil => simp [hnil]
  | cons u us =>
    -- every place but those of the tokens is moved to the first token, which moves no token
    let f (p : Position) : Position :=
      if p ∈ (u :: us).map (·.position) then p else u.position
    have hf (p : Position) : f p ∈ (u :: us).map (·.position) := by
      by_cases hp : p ∈ (u :: us).map (·.position)
      · simpa only [f, if_pos hp] using hp
      · simp only [f, if_neg hp]
        simp
    have hfix : (u :: us).map (·.moved f) = u :: us := by
      refine (List.map_congr_left fun t ht => ?_).trans (List.map_id _)
      have hmem : t.position ∈ (u :: us).map (·.position) := List.mem_map_of_mem ht
      simp only [Token.moved, f, if_pos hmem, id]
    intro t ht
    rw [← hfix, hF] at ht
    obtain ⟨t, -, rfl⟩ := List.mem_map.1 ht
    exact hf t.position

variable {ts : List Token}

theorem Run.complaint_mem_positions {r : Run} {c : Position × Complaint}
    (h : r.complaint? = some c) : c.1 ∈ r.tokens.map (·.position) := by
  cases r with
  | spaces t more d =>
    simp only [complaint?] at h
    split at h <;> cases h
    exact (spaces t more d).first_mem_positions
  | newlines | dot | other => cases h

theorem Cue.complaint_mem_positions {d : Cue} {c : Position × Complaint}
    (h : d.complaint? = some c) : c.1 ∈ d.tokens.map (·.position) := by
  cases d with
  | strayIndent t =>
    cases h
    simp [tokens]
  | header | dot | dedent | blankLine | lineEnd | other => cases h

theorem levelComplaints_positions (ts : List Token) :
    ∀ c ∈ levelComplaints ts, c.1 ∈ ts.map (·.position) := by
  intro c hc
  have hmem : c.1 ∈ ((Run.ofTokens ts).flatMap Run.tokens).map (·.position) :=
    place_mem_of_filterMap (fun _ _ _ h => Run.complaint_mem_positions h) hc
  rwa [Run.flatMap_tokens_ofTokens] at hmem

theorem frameComplaints_positions (ts : List Token) :
    ∀ c ∈ frameComplaints ts, c.1 ∈ ts.map (·.position) := by
  intro c hc
  have hmem : c.1 ∈ ((Cue.ofTokens ts).flatMap Cue.tokens).map (·.position) :=
    place_mem_of_filterMap (fun _ _ _ h => Cue.complaint_mem_positions h) hc
  rwa [Cue.flatMap_tokens_ofTokens] at hmem

theorem levelComplaints_inOrder (h : StrictlyInOrder ts) :
    (levelComplaints ts).Pairwise fun c d => c.1.offset < d.1.offset := by
  rw [← Run.flatMap_tokens_ofTokens ts] at h
  exact pairwise_filterMap_of_flatMap h fun _ _ _ hc => Run.complaint_mem_positions hc

theorem frameComplaints_inOrder (h : InOrder ts) :
    (frameComplaints ts).Pairwise fun c d => c.1.offset ≤ d.1.offset := by
  rw [← Cue.flatMap_tokens_ofTokens ts] at h
  exact pairwise_filterMap_of_flatMap h fun _ _ _ hc => Cue.complaint_mem_positions hc

theorem Cue.ofTokens_append_unindents (ts : List Token) (k : Nat) (q : Position) :
    ofTokens (ts ++ List.replicate k (.mark .unindent q)) =
      ofTokens ts ++ List.replicate k (dedent (.mark .unindent q)) := by
  have hmarks : ofTokens (List.replicate k (.mark .unindent q)) =
      List.replicate k (dedent (.mark .unindent q)) := by
    simpa using ofTokens_unindents k q []
  rw [ofTokens_append, hmarks]
  intro u hu
  have hu : u = .mark .unindent q := List.eq_of_mem_replicate (List.mem_of_mem_head? hu)
  simp [hu, Token.mark]

/-- Levels that are left at the end are told of nowhere. -/
theorem frameComplaints_append_unindents (ts : List Token) (k : Nat) (q : Position) :
    frameComplaints (ts ++ List.replicate k (.mark .unindent q)) = frameComplaints ts := by
  rw [frameComplaints, Cue.ofTokens_append_unindents, List.filterMap_append]
  simp [frameComplaints, Cue.complaint?]

theorem frameComplaints_resolveLevels_inOrder (h : StrictlyInOrder ts) :
    (frameComplaints (resolveLevels ts)).Pairwise fun c d => c.1.offset ≤ d.1.offset := by
  obtain ⟨front, k, q, hsplit, hfront⟩ := resolveLevels_split h
  rw [hsplit, frameComplaints_append_unindents]
  exact frameComplaints_inOrder hfront

/-! All passes. -/

variable {source path : String} {o : Options}

/-- The places of the characters of a document, with the line ends put behind it. -/
def places (source : String) (o : Options) : List Position :=
  (placeChars {} (prepare source o.trailingNewlines).toList).map Prod.snd

theorem scanned_places (source : String) (o : Options) :
    (∀ t ∈ (scanned source o).1, t.position ∈ places source o) ∧
      StrictlyInOrder (scanned source o).1 :=
  Piece.place_filterMap (fun _ hx _ ht => Piece.token_mem_chars hx ht) _

theorem scanned_complaints_places (source : String) (o : Options) :
    (∀ c ∈ (scanned source o).2, c.1 ∈ places source o) ∧
      (scanned source o).2.Pairwise fun c d => c.1.offset < d.1.offset :=
  Piece.place_filterMap (fun _ hx _ hc => Piece.complaint_mem_chars hx hc) _

/-- Tokens that stand at places of a document. -/
def InText (source : String) (o : Options) (ts : List Token) : Prop :=
  ∀ t ∈ ts, t.position ∈ places source o

theorem inText_of_positions {us : List Token} (h : InText source o ts)
    (hus : ∀ u ∈ us, u.position ∈ ts.map (·.position)) : InText source o us := by
  intro u hu
  obtain ⟨t, ht, hplace⟩ := List.mem_map.1 (hus u hu)
  exact hplace ▸ h t ht

theorem lexUpTo_inText (last : Pass) (source path : String) (o : Options) :
    InText source o (lexUpTo last source path o).tokens := by
  have hscan : InText source o (scanned source o).1 := (scanned_places source o).1
  have hindent : InText source o (resolveLevels (scanned source o).1) :=
    inText_of_positions hscan (positions_of_moved rfl resolveLevels_moved _)
  cases last with
  | scan => exact hscan
  | indent => exact hindent
  | bracket => exact inText_of_positions hindent (positions_of_moved rfl bracketFrames_moved _)

theorem passComplaints_places (source : String) (o : Options) (pass : Pass) :
    ∀ c ∈ passComplaints source o pass, c.1 ∈ places source o := by
  intro c hc
  cases pass with
  | scan => exact (scanned_complaints_places source o).1 c (List.mem_filter.1 hc).1
  | indent =>
    obtain ⟨t, ht, hplace⟩ := List.mem_map.1 (levelComplaints_positions _ c hc)
    exact hplace ▸ lexUpTo_inText .scan source "" o t ht
  | bracket =>
    obtain ⟨t, ht, hplace⟩ := List.mem_map.1 (frameComplaints_positions _ c hc)
    exact hplace ▸ lexUpTo_inText .indent source "" o t ht

/-- How the offsets of what one pass complains about follow each other: no two complaints of the
first or of the second pass stand at one place. -/
def Pass.Follows : Pass → Nat → Nat → Prop
  | .scan | .indent => (· < ·)
  | .bracket => (· ≤ ·)

theorem passComplaints_inOrder (source : String) (o : Options) (pass : Pass) :
    (passComplaints source o pass).Pairwise fun c d => pass.Follows c.1.offset d.1.offset := by
  have hscan := (scanned_places source o).2
  cases pass with
  | scan => exact (scanned_complaints_places source o).2.filter _
  | indent => exact levelComplaints_inOrder hscan
  | bracket => exact frameComplaints_resolveLevels_inOrder hscan

theorem diagnostics_sublist (last : Pass) (source path : String) (o : Options) :
    (lexUpTo last source path o).diagnostics.Sublist (lex source path o).diagnostics := by
  cases last with
  | scan =>
    exact (List.sublist_append_left _ _).trans (List.sublist_append_left _ _)
  | indent => exact List.sublist_append_left _ _
  | bracket => exact List.Sublist.refl _

/-- Every token and every diagnostic stands at a character of the document. The tokens of the first
pass and the diagnostics of each pass stand in the order of the text, and only diagnostics of the
last pass may stand at one place. -/
theorem lexUpTo_placed (last : Pass) (source path : String) (o : Options) :
    let s := lexUpTo last source path o
    let places := (placeChars {} (prepare source o.trailingNewlines).toList).map Prod.snd
    (∀ t ∈ s.tokens, t.position ∈ places) ∧
      (∀ d ∈ s.diagnostics, d.position ∈ places) ∧
      (lexUpTo .scan source path o).tokens.Pairwise
        (fun t u => t.position.offset < u.position.offset) ∧
      (s.diagnostics.filter (·.pass == .scan)).Pairwise
        (fun d e => d.position.offset < e.position.offset) ∧
      (s.diagnostics.filter (·.pass == .indent)).Pairwise
        (fun d e => d.position.offset < e.position.offset) ∧
      (s.diagnostics.filter (·.pass == .bracket)).Pairwise
        (fun d e => d.position.offset ≤ e.position.offset) := by
  intro s places
  have hsub := diagnostics_sublist last source path o
  have horder (pass : Pass) : (s.diagnostics.filter (·.pass == pass)).Pairwise
      fun d e => pass.Follows d.position.offset e.position.offset := by
    refine List.Pairwise.sublist (hsub.filter _) ?_
    rw [filter_diagnostics]
    exact List.pairwise_map.2 (passComplaints_inOrder source o pass)
  refine ⟨lexUpTo_inText last source path o, fun d hd => ?_, (scanned_places source o).2,
    horder .scan, horder .indent, horder .bracket⟩
  have hmem : d ∈ (lex source path o).diagnostics.filter (·.pass == d.pass) :=
    List.mem_filter.2 ⟨hsub.mem hd, by simp⟩
  rw [filter_diagnostics] at hmem
  obtain ⟨c, hc, rfl⟩ := List.mem_map.1 hmem
  exact passComplaints_places source o _ c hc

/-- A text that is open at the end is told of where it starts, and the closing marks behind it stand
at characters too. -/
theorem lexUpTo_placed_unclosed :
    let s := lexUpTo .bracket "a: \"b" "a" ⟨0, true⟩
    let places := (placeChars {} (prepare "a: \"b" 0).toList).map Prod.snd
    (∃ t ∈ s.tokens, t.kind.isClosing = true ∧ t.position ∈ places) ∧
      ∃ d ∈ s.diagnostics, d.position = ⟨3, 0, 3⟩ ∧ d.position ∈ places := by
  intro s places
  obtain ⟨htokens, hdiagnostics, -⟩ := lexUpTo_placed .bracket "a: \"b" "a" ⟨0, true⟩
  obtain ⟨t, ht, hclosing⟩ : ∃ t ∈ s.tokens, t.kind.isClosing = true := by decide +kernel
  obtain ⟨d, hd, hplace⟩ : ∃ d ∈ s.diagnostics, d.position = ⟨3, 0, 3⟩ := by decide +kernel
  exact ⟨⟨t, ht, hclosing, htokens t ht⟩, d, hd, hplace, hdiagnostics d hd⟩

end SectionLexer
