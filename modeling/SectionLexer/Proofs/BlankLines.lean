import SectionLexer.Proofs.Placement
import SectionLexer.Proofs.Reached
import SectionLexer.Proofs.Resumption

/-! Blank lines. A mark of a blank line stands at the end of a line without tokens: one that holds
nothing but spaces and characters that are reported as unrecognized. Nothing else ends a top level
group, but the end of the document. -/
namespace SectionLexer

/-- At `p` a line ends that holds nothing but spaces, and characters that are reported as
unrecognized where they stand. -/
def EndsBlankLine (path : String) (ds : List Diagnostic) (text : List Char) (p : Position) : Prop :=
  ∃ before line after, text = before ++ '\n' :: (line ++ '\n' :: after) ∧
    p = .ofText (before ++ '\n' :: line) ∧
    ∀ x ∈ placeChars (.ofText (before ++ ['\n'])) line, x.1 = ' ' ∨
      x.1 ≠ '\n' ∧ (Complaint.unrecognized x.1).diagnostic path x.2 ∈ ds

namespace Piece

variable {m n : Mode} {c : Char} {s : List Char} {x : Piece} {us vs zs : List Piece} {p : Position}

/-- The pieces of a line without tokens. -/
def IsBlank (x : Piece) : Prop := x = gap false ∨ ∃ d, d ≠ '\n' ∧ x = unrecognized d

/-- A lexeme without a token is a space or is not recognized, and a lexeme may stand behind it. -/
theorem Reads.isBlank {start : Bool} (h : Reads (.line start) c s x n) (hx : x.content? = none) :
    x.IsBlank ∧ ∃ start, n = .line start := by
  cases h with
  | blank => exact ⟨.inl rfl, _, rfl⟩
  | unrecognized hnone =>
    refine ⟨.inr ⟨c, ?_, rfl⟩, _, rfl⟩
    rintro rfl
    cases hnone
  | _ => cases hx

/-- Behind a line end, pieces without a token make a line blank. -/
theorem isBlank_of_ofText (h : ofText s = us ++ newline :: (zs ++ vs))
    (hzs : ∀ z ∈ zs, z.content? = none) : ∀ z ∈ zs, z.IsBlank := by
  obtain ⟨m, c, t, n, hread, -, hcut⟩ := read_of_cut h
  obtain rfl : n = .line true := by
    cases hread
    rfl
  -- as long as no token is read, a lexeme is read next
  let P (us : List Piece) (m : Mode) (_ : List Char) : Prop := (∀ x ∈ us, x.content? = none) →
    (∃ start, m = .line start) ∧ ∀ x ∈ us, x.IsBlank
  have hstart : P [] (.line true) (spell (zs ++ vs)) := fun _ => ⟨⟨true, rfl⟩, by simp⟩
  have hstep {us : List Piece} {m : Mode} {c : Char} {t : List Char} {x : Piece} {n : Mode}
      {r : List Char} (hP : P us m (c :: t)) (hread : Reads m c t x n)
      (_ : c :: t = x.spelling ++ r) : P (us ++ [x]) n r := by
    intro hsilent
    obtain ⟨⟨start, rfl⟩, hblank⟩ := hP fun y hy => hsilent y (by simp [hy])
    obtain ⟨hxblank, hline⟩ := hread.isBlank (hsilent x (by simp))
    exact ⟨hline, List.forall_mem_append.2 ⟨hblank, List.forall_mem_singleton.2 hxblank⟩⟩
  obtain ⟨n, hP, -⟩ := cut_induction hstart hstep hcut.symm
  exact (hP hzs).2

theorem content_eq_none_of_tokens (h : tokens p zs = []) : ∀ z ∈ zs, z.content? = none := by
  intro z hz
  obtain ⟨us, vs, rfl⟩ := List.append_of_mem hz
  simp only [tokens_append, tokens_cons, List.append_eq_nil_iff, Option.toList_eq_nil_iff] at h
  simpa [token?] using h.2.1

/-- Between two line ends that follow each other as tokens stand pieces without a token. -/
theorem exists_of_newlines {front back : List Token} {t u : Token}
    (h : tokens {} (ofText s) = front ++ t :: u :: back) (ht : t.kind = .newline)
    (hu : u.kind = .newline) :
    ∃ us zs vs, ofText s = us ++ newline :: (zs ++ newline :: vs) ∧
      (∀ z ∈ zs, z.content? = none) ∧ u.position = .ofText (spell us ++ '\n' :: spell zs) := by
  obtain ⟨us, x, ws, hcut, hx, -, hback⟩ := exists_of_tokens h
  obtain ⟨rfl, -⟩ := eq_newline_of_token? hx ht
  obtain ⟨zs, y, vs, rfl, hy, hzs, -⟩ :=
    exists_of_tokens (hback.symm.trans (List.nil_append _).symm)
  obtain ⟨rfl, hplace⟩ := eq_newline_of_token? hy hu
  refine ⟨us, zs, vs, hcut, content_eq_none_of_tokens hzs.symm, ?_⟩
  rw [← hplace, ← Position.after_eq_ofText]
  simp [spelling]

end Piece

variable {text path : String} {o : Options} {us vs zs : List Piece}

theorem endsBlankLine_of_ofText
    (h : Piece.ofText text.toList = us ++ .newline :: (zs ++ .newline :: vs))
    (hzs : ∀ z ∈ zs, z.content? = none) :
    EndsBlankLine path (Stream.scan text path o).diagnostics text.toList
      (.ofText (Piece.spell us ++ '\n' :: Piece.spell zs)) := by
  refine ⟨Piece.spell us, Piece.spell zs, Piece.spell vs, ?_, rfl, fun x hx => ?_⟩
  · have htext := Piece.spell_ofText text.toList
    rw [h] at htext
    simpa [Piece.spelling] using htext.symm
  · rw [← Piece.flatMap_chars] at hx
    obtain ⟨⟨q, z⟩, hz, hchar⟩ := List.mem_flatMap.1 hx
    obtain ⟨front, back, rfl, hq⟩ := Piece.mem_place hz
    rcases Piece.isBlank_of_ofText h hzs z (by simp) with rfl | ⟨d, hd, rfl⟩
    · obtain rfl := List.mem_singleton.1 hchar
      exact .inl rfl
    · obtain rfl := List.mem_singleton.1 hchar
      have hcut : Piece.ofText text.toList =
          (us ++ .newline :: front) ++ .unrecognized d :: (back ++ .newline :: vs) := by
        simpa using h
      have hplace : Position.after {} (Piece.spell (us ++ .newline :: front)) = q := by
        rw [hq, ← Position.after_eq_ofText]
        simp [Piece.spelling]
      refine .inr ⟨hd, mem_scan_diagnostics hcut ?_ (by simp)⟩
      rw [hplace]
      rfl

/-! The second pass. -/

/-- The mark of a blank line stands at the second of two line ends that follow each other. -/
theorem exists_of_lineBreak {ts : List Token} (hts : ∀ t ∈ ts, t.kind ≠ .lineBreak) {t : Token}
    (ht : t ∈ resolveLevels ts) (hk : t.kind = .lineBreak) :
    ∃ front u v back, ts = front ++ u :: v :: back ∧ u.kind = .newline ∧ v.kind = .newline ∧
      t.position = v.position := by
  let P (t : Token) : Prop := t.kind = .lineBreak →
    ∃ front u v back, ts = front ++ u :: v :: back ∧ u.kind = .newline ∧ v.kind = .newline ∧
      t.position = v.position
  have hblank (u v : Token) (more : List Token)
      (hmem : Run.newlines u (v :: more) ∈ Run.ofTokens ts) :
      P (.mark .lineBreak v.position) := by
    intro _
    obtain ⟨hu, hmore⟩ := Run.ofTokens_fits ts _ hmem
    obtain ⟨front, back, hsplit⟩ := List.append_of_mem hmem
    refine ⟨front.flatMap Run.tokens, u, v, more ++ back.flatMap Run.tokens, ?_, hu,
      hmore v (by simp), rfl⟩
    rw [← Run.flatMap_tokens_ofTokens ts, hsplit]
    simp [Run.tokens]
  have hkept (r : Run) (hr : r ∈ Run.ofTokens ts) (u : Token) (hu : u ∈ r.kept) : P u := by
    refine fun hk => absurd hk (hts u ?_)
    rw [← Run.flatMap_tokens_ofTokens ts]
    exact List.mem_flatMap.2 ⟨r, hr, r.kept_subset_tokens u hu⟩
  have hlevel (k : Kind) (hne : k ≠ .lineBreak) (p : Position) : P (.mark k p) :=
    fun h => absurd h hne
  exact Run.resolve_forall (P := P) (hlevel .indent (by decide)) (hlevel .unindent (by decide))
    hblank hkept 0 {} t ht hk

theorem scan_ne_lineBreak (text path : String) (o : Options) :
    ∀ t ∈ (Stream.scan text path o).tokens, t.kind ≠ .lineBreak := by
  intro t ht hk
  have hkind := Piece.kind_tokens {} _ t ht
  rw [hk] at hkind
  exact absurd hkind (by decide)

theorem EndsBlankLine.mono {ds ds' : List Diagnostic} {s : List Char} {p : Position}
    (hds : ds ⊆ ds') (h : EndsBlankLine path ds s p) : EndsBlankLine path ds' s p := by
  obtain ⟨before, line, after, hs, hp, hline⟩ := h
  refine ⟨before, line, after, hs, hp, fun x hx => ?_⟩
  rcases hline x hx with hspace | ⟨hne, hd⟩
  · exact .inl hspace
  · exact .inr ⟨hne, hds hd⟩

theorem lineBreak_endsBlankLine {source : String} {t : Token}
    (ht : t ∈ (lexUpTo .indent source path o).tokens) (hk : t.kind = .lineBreak) :
    EndsBlankLine path (lexUpTo .indent source path o).diagnostics
      (prepare source o.trailingNewlines).toList t.position := by
  obtain ⟨front, u, v, back, hscan, hu, hv, hplace⟩ :=
    exists_of_lineBreak (scan_ne_lineBreak _ path o) ht hk
  obtain ⟨us, zs, vs, hcut, hzs, hend⟩ := Piece.exists_of_newlines hscan hu hv
  rw [hplace, hend]
  exact (endsBlankLine_of_ofText hcut hzs).mono (List.subset_append_left _ _)

/-! The third pass. -/

variable {c : Cue} {cs : List Cue} {stack : List Frame} {last : Position} {front back : List Token}
  {t : Token}

theorem Stacked.of_append {fs gs : List Frame} (h : Stacked (fs ++ gs)) : Stacked gs := by
  induction fs with
  | nil => exact h
  | cons f fs ih => exact ih h.2

namespace Cue

/-- Only a blank line closes a top level group. -/
theorem edit_keeps_group (hu : Unmarked c.tokens) (hc : ∀ l, c ≠ blankLine l) (b : Bool) :
    (c.edit b).Writes (·.kind ≠ .closing .topLevelGroup) := by
  have hkept : ∀ t ∈ c.tokens, t.kind ≠ .closing .topLevelGroup := hu.kind_ne nofun
  exact edit_writes hkept (by simp [Token.mark]) (by simp [Token.mark]) (by simp [Token.mark])
    (fun l hl => absurd hl (hc l)) b

/-- A whole run: a top level group is closed at a blank line, or at the end as the outermost
frame. -/
theorem closing_group_bracket (hu : ∀ c ∈ cs, Unmarked c.tokens) (hs : Stacked stack)
    (htop : stack.head? = some .argumentGroup → headerFirst cs = true)
    (h : bracket stack last cs = front ++ t :: back) (ht : t.kind = .closing .topLevelGroup) :
    (∃ l, blankLine l ∈ cs ∧ l.position = t.position) ∨ back = [] := by
  induction cs generalizing stack last front with
  | nil =>
    obtain ⟨fs, gs, rfl, -, hgs⟩ := List.map_eq_append_iff.1 h
    obtain ⟨f, below, rfl, rfl, rfl⟩ := List.map_eq_cons_iff.1 hgs
    obtain rfl : f = .topLevelGroup := by simpa [Token.mark] using ht
    obtain rfl := hs.of_append.nil_of_group
    exact .inr rfl
  | cons c cs ih =>
    obtain ⟨hs', htop'⟩ := edit_stacked hs htop (headerFirst cs)
    have hrest {front : List Token} (h : bracket (c.edit (headerFirst cs) stack).2 c.position cs =
        front ++ t :: back) :
        (∃ l, blankLine l ∈ c :: cs ∧ l.position = t.position) ∨ back = [] := by
      rcases ih (fun d hd => hu d (by simp [hd])) hs' htop' h with ⟨l, hl, hplace⟩ | hback
      · exact .inl ⟨l, by simp [hl], hplace⟩
      · exact .inr hback
    rcases List.append_eq_append_iff.1 h with ⟨out, -, hout⟩ | ⟨out, hedit, hout⟩
    · exact hrest hout
    · cases out with
      | nil => exact hrest (hout.symm.trans (List.nil_append _).symm)
      | cons u out =>
        obtain ⟨rfl, -⟩ := List.cons.inj hout
        have hmem : t ∈ (c.edit (headerFirst cs) stack).1 := hedit ▸ by simp
        left
        cases c with
        | blankLine l =>
          have hplace : (Edit.closingAll l.position).Writes (·.position = l.position) :=
            Edit.closingAll_writes fun _ => rfl
          exact ⟨l, by simp, (hplace stack t hmem).symm⟩
        | _ => exact absurd ht (edit_keeps_group (hu _ (by simp)) (by simp) _ stack t hmem)

end Cue

/-- Blank lines. The mark of a blank line stands at the end of a line that holds nothing but spaces
and characters that are reported as unrecognized. A top level group is closed at such a mark, or as
the last token of the document. -/
theorem lineBreaks_end_blankLines (source path : String) (o : Options) :
    (∀ t ∈ (lexUpTo .indent source path o).tokens, t.kind = .lineBreak →
      EndsBlankLine path (lexUpTo .indent source path o).diagnostics
        (prepare source o.trailingNewlines).toList t.position) ∧
    ∀ front t back, (lex source path o).tokens = front ++ t :: back →
      t.kind = .closing .topLevelGroup →
      (∃ l ∈ (lexUpTo .indent source path o).tokens,
        l.kind = .lineBreak ∧ l.position = t.position) ∨ back = [] := by
  refine ⟨fun t ht hk => lineBreak_endsBlankLine ht hk, fun front t back h hk => ?_⟩
  have hunmarked : Unmarked (lexUpTo .indent source path o).tokens :=
    resolveLevels_unmarked (Stream.scan_unmarked _ path o)
  have hu : ∀ c ∈ Cue.ofTokens (lexUpTo .indent source path o).tokens, Unmarked c.tokens :=
    fun c hc t ht => hunmarked t (Cue.mem_of_mem_ofTokens hc t ht)
  have hs : Stacked [] := trivial
  rcases Cue.closing_group_bracket hu hs (by simp) h hk with ⟨l, hl, hplace⟩ | hback
  · exact .inl ⟨l, Cue.mem_of_mem_ofTokens hl l (by simp [Cue.tokens]), Cue.ofTokens_fits _ _ hl,
      hplace⟩
  · exact .inr hback

/-- A line that holds a character that no token starts with. -/
theorem lineBreaks_end_blankLines_unrecognized :
    EndsBlankLine "p" (lexUpTo .indent "a:\n%\n. b" "p" {}).diagnostics
      (prepare "a:\n%\n. b" 3).toList ⟨4, 1, 1⟩ := by
  have hmem : Token.mark .lineBreak ⟨4, 1, 1⟩ ∈ (lexUpTo .indent "a:\n%\n. b" "p" {}).tokens := by
    decide +kernel
  exact (lineBreaks_end_blankLines "a:\n%\n. b" "p" {}).1 _ hmem rfl

/-- Such a line is not made of spaces. -/
theorem not_lineBreaks_end_spaces : ¬ ∀ (source path : String) (o : Options),
    ∀ t ∈ (lexUpTo .indent source path o).tokens, t.kind = .lineBreak →
      ∃ before n after, (prepare source o.trailingNewlines).toList =
          before ++ '\n' :: (List.replicate n ' ' ++ '\n' :: after) ∧
        t.position = .ofText (before ++ '\n' :: List.replicate n ' ') := by
  intro h
  have hmem : Token.mark .lineBreak ⟨4, 1, 1⟩ ∈ (lexUpTo .indent "a:\n%\n. b" "p" {}).tokens := by
    decide +kernel
  obtain ⟨before, n, after, htext, hplace⟩ := h "a:\n%\n. b" "p" {} _ hmem rfl
  have hsplit : (prepare "a:\n%\n. b" 3).toList =
      ['a', ':', '\n', '%'] ++ "\n. b\n\n\n".toList := by decide +kernel
  have hlength : byteLength ['a', ':', '\n', '%'] =
      byteLength (before ++ '\n' :: List.replicate n ' ') :=
    congrArg Position.offset hplace
  have hfront : ['a', ':', '\n', '%'] = before ++ '\n' :: List.replicate n ' ' := by
    have htail : ['a', ':', '\n', '%'] ++ "\n. b\n\n\n".toList =
        before ++ '\n' :: List.replicate n ' ' ++ '\n' :: after := by
      rw [← hsplit, List.append_assoc]
      exact htext
    exact append_inj_of_byteLength htail hlength
  have hlast : (before ++ '\n' :: List.replicate n ' ').getLast? ∈ [some '\n', some ' '] := by
    rw [List.getLast?_append, List.getLast?_cons, List.getLast?_replicate]
    split <;> simp
  rw [← hfront] at hlast
  exact absurd hlast (by decide)

end SectionLexer
