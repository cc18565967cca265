import SectionLexer.Proofs.Isolation

/-! Scanning may resume behind every line end that is scanned as one: no literal reaches over it,
nothing in front of it looks past it, and a line starts behind it. -/
namespace SectionLexer

variable {w path : String} {o : Options}

namespace Piece

/-- A token of a line end stands for nothing else. -/
theorem eq_newline_of_token? {x : Piece} {p : Position} {t : Token} (h : x.token? p = some t)
    (ht : t.kind = .newline) : x = newline ∧ p = t.position := by
  obtain ⟨hcontent, hp⟩ := content_of_token? h
  rw [ht] at hcontent
  cases x with
  | newline => exact ⟨rfl, hp⟩
  | _ => cases hcontent

theorem grow_ne_newline {x : Piece} (h : x.IsOpen) (u : List Char) : x.grow u ≠ newline := by
  intro hgrow
  cases x with
  | text | formulation | textBlock | plain => cases hgrow
  | _ => cases h

/-- Where a literal is open, a line end belongs to it. -/
theorem not_endsOpen_of_newline {t : Token}
    (ht : t ∈ tokens {} (ofText (w.toList ++ ['\n']))) (hkind : t.kind = .newline)
    (hplace : t.position.offset = byteLength w.toList) : ¬ EndsOpen w := by
  intro hopen
  obtain ⟨xs, x, hx, hgrow⟩ := cut_open (endsOpen_iff.1 hopen)
  have hcut : ofText (w.toList ++ ['\n']) = xs ++ [x.grow ['\n']] :=
    hgrow ['\n'] (by simp [AreNewlines])
  obtain ⟨⟨p, y⟩, hy, htoken⟩ := List.mem_filterMap.1 ht
  obtain ⟨rfl, rfl⟩ := eq_newline_of_token? htoken hkind
  obtain ⟨us, vs, hsplit, hp⟩ := mem_place hy
  have hspell : spell (us ++ newline :: vs) = w.toList ++ ['\n'] := by rw [← hsplit, spell_ofText]
  have hstart : byteLength (spell us) = byteLength w.toList := by simpa [hp] using hplace
  rw [hcut] at hsplit
  -- the open piece is the last one, but behind the line end there is nothing left for it
  obtain rfl | ⟨vs, z, rfl⟩ := List.eq_nil_or_concat vs
  · exact grow_ne_newline hx _ (List.singleton_inj.1 (List.append_inj' hsplit rfl).2)
  · rw [List.concat_eq_append, ← List.cons_append, ← List.append_assoc] at hsplit hspell
    obtain rfl := List.singleton_inj.1 (List.append_inj' hsplit rfl).2
    have hpos : 0 < byteLength (x.grow ['\n']).spelling := by
      rw [grow_spelling hx]
      exact byteLength_pos (by simp)
    have hlength := congrArg byteLength hspell
    simp only [spell_append, spell_cons, spell_nil, byteLength_append, hstart,
      show newline.spelling = ['\n'] from rfl] at hlength
    omega

end Piece

/-- Scanning resumes behind a line end. What is in front of it is scanned as if the text ended
there, and what is behind it as if it stood alone, but for its place. -/
theorem scan_resumes
    (h : ∃ t ∈ (Stream.scan (w ++ "\n") path o).tokens, t.kind = .newline ∧
      t.position.offset = byteLength w.toList) (v : String) :
    let u := w ++ "\n"
    let bytes := byteLength u.toList
    let rows := lineEnds u.toList
    (Stream.scan (u ++ v) path o).tokens =
        (Stream.scan u path o).tokens ++ (Stream.scan v path o).tokens.map (·.shift bytes rows) ∧
      (Stream.scan (u ++ v) path o).diagnostics =
        (Stream.scan u path o).diagnostics ++
          (Stream.scan v path o).diagnostics.map (·.shift bytes rows) := by
  intro u bytes rows
  obtain ⟨t, ht, hkind, hplace⟩ := h
  have hu : u.toList = w.toList ++ ['\n'] := by simp [u]
  have hopen : ¬ EndsOpen w := by
    refine Piece.not_endsOpen_of_newline ?_ hkind hplace
    simpa [Stream.scan] using ht
  have hpieces : Piece.ofText (u ++ v).toList = Piece.ofText u.toList ++ Piece.ofText v.toList := by
    have hfront := Piece.ofText_newline hopen []
    have hwhole := Piece.ofText_newline hopen v.toList
    rw [String.toList_append, hu, List.append_assoc, hfront]
    simpa [Piece.ofText, Piece.cut] using hwhole
  have hend : Position.after {} u.toList = Position.shift {} bytes rows := by
    rw [Position.after_eq_ofText, hu, Position.ofText_append_newline, ← hu]
  constructor
  · simp only [Stream.scan, hpieces, Piece.tokens_append, Piece.spell_ofText, hend,
      Piece.tokens_shift]
    rfl
  · simp only [Stream.scan, hpieces, Piece.complaints_append, Piece.spell_ofText, hend,
      Piece.complaints_shift, Stream.diagnose, List.filter_append, List.filter_map,
      List.map_append, List.map_map]
    rfl

/-- Behind a text block of two lines, with a line end in it that scanning does not resume at. -/
theorem scan_resumes_textBlock :
    let u := "::a\nb::c  " ++ "\n"
    let whole := Stream.scan (u ++ "x: %") "p" {}
    let first := Stream.scan u "p" {}
    let second := Stream.scan "x: %" "p" {}
    (∃ t ∈ first.tokens, t.kind = .newline ∧ t.position.offset = 10) ∧
      whole.tokens = first.tokens ++ second.tokens.map (·.shift 11 2) ∧
      whole.diagnostics = first.diagnostics ++ second.diagnostics.map (·.shift 11 2) := by
  intro u whole first second
  have h : ∃ t ∈ first.tokens, t.kind = .newline ∧ t.position.offset = 10 := by decide +kernel
  exact ⟨h, scan_resumes h "x: %"⟩

end SectionLexer
