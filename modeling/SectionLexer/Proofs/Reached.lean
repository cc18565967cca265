import SectionLexer.Proofs.Positions
import SectionLexer.Proofs.Segments

/-! Points that scanning comes to: the pieces behind it, what may stand there, and the text that is
left. What is reported of the next piece is what is wrong with that piece alone. -/
namespace SectionLexer

/-- What is reported of the text between two places. -/
def Diagnostic.Within (p q : Position) (d : Diagnostic) : Prop :=
  p.offset ≤ d.position.offset ∧ d.position.offset < q.offset

instance (p q : Position) (d : Diagnostic) : Decidable (d.Within p q) :=
  inferInstanceAs (Decidable (_ ∧ _))

namespace Piece

/-- Scanning `text` cuts off the pieces `us`, then goes on in mode `m` with the text `rest`. -/
def Reaches (text : List Char) (us : List Piece) (m : Mode) (rest : List Char) : Prop :=
  ofText text = us ++ cut m 0 rest

variable {text rest : List Char} {us vs : List Piece} {m : Mode} {x : Piece} {p : Position}

/-- One piece is read off what is left. -/
theorem Reaches.step (h : Reaches text us m rest) {c : Char} {s t : List Char} {n : Mode}
    (hrest : rest = c :: s) (hr : read m c s = (x, n)) (hs : rest = x.spelling ++ t) :
    Reaches text (us ++ [x]) n t := by
  subst hrest
  rw [Reaches, h, cut_of_read hr hs, List.append_assoc, List.singleton_append]

/-- The pieces that are cut off spell what is in front of the text that is left. -/
theorem Reaches.text_eq (h : Reaches text us m rest) : text = spell us ++ rest := by
  have hspell := congrArg spell h
  rwa [spell_ofText, spell_append, spell_cut] at hspell

theorem Reaches.ofText_eq (h : Reaches text (us ++ [x]) m rest) :
    ofText text = us ++ x :: cut m 0 rest := by
  rw [h, List.append_assoc, List.singleton_append]

theorem complaint_offset (hx : x.spelling ≠ []) {c : Position × Complaint}
    (h : x.complaint? p = some c) :
    p.offset ≤ c.1.offset ∧ c.1.offset < (p.after x.spelling).offset := by
  obtain ⟨y, hy, hplace⟩ := List.mem_map.1 (complaint_mem_chars hx h)
  rw [← hplace]
  exact ⟨offset_le_placeChars y hy, placeChars_offset_lt y hy⟩

/-- What is wrong with pieces stands between their start and their end. -/
theorem complaints_offset (hxs : ∀ x ∈ us, x.spelling ≠ []) :
    ∀ c ∈ complaints p us,
      p.offset ≤ c.1.offset ∧ c.1.offset < (p.after (spell us)).offset := by
  intro c hc
  obtain ⟨⟨q, x⟩, hplace, hx⟩ := List.mem_filterMap.1 hc
  obtain ⟨front, back, rfl, rfl⟩ := mem_place hplace
  obtain ⟨hle, hlt⟩ := complaint_offset (hxs x (by simp)) hx
  have hstart := p.offset_le_after (spell front)
  have hend := ((p.after (spell front)).after x.spelling).offset_le_after (spell back)
  rw [spell_append, spell_cons, Position.after_append, Position.after_append]
  omega

theorem spelling_ne_nil_of_ofText (h : ofText text = us ++ vs) :
    ∀ x ∈ us ++ vs, x.spelling ≠ [] := by
  intro x hx
  obtain ⟨front, back, hsplit⟩ := List.append_of_mem hx
  exact spelling_ne_nil_of_cut (h.trans hsplit)

end Piece

section

open Piece

variable {text path : String} {o : Options} {us vs : List Piece} {x : Piece}

theorem scan_tokens_eq (h : ofText text.toList = us ++ x :: vs) :
    (Stream.scan text path o).tokens = tokens {} us ++
      ((x.token? (.ofText (spell us))).toList ++
        tokens ((Position.ofText (spell us)).after x.spelling) vs) := by
  rw [← Position.after_eq_ofText, ← tokens_cons, ← tokens_append, ← h]
  rfl

theorem mem_scan_diagnostics_iff {d : Diagnostic} :
    d ∈ (Stream.scan text path o).diagnostics ↔
      ∃ c ∈ complaints {} (ofText text.toList), o.reports c.2 = true ∧
        c.2.diagnostic path c.1 = d := by
  simp only [Stream.scan, Stream.diagnose, List.mem_map, List.mem_filter, and_assoc]

/-- Between the start and the end of a piece, what is wrong with that piece is reported and nothing
else. -/
theorem filter_scan_within (h : ofText text.toList = us ++ x :: vs) (path : String) (o : Options) :
    let p := Position.ofText (spell us)
    (Stream.scan text path o).diagnostics.filter (·.Within p (p.after x.spelling)) =
      Stream.diagnose path ((x.complaint? p).toList.filter fun c => o.reports c.2) := by
  intro p
  let within (c : Position × Complaint) : Bool :=
    decide ((c.2.diagnostic path c.1).Within p (p.after x.spelling))
  have hne := spelling_ne_nil_of_ofText h
  have hbefore : ∀ c ∈ complaints {} us, ¬ within c = true := by
    intro c hc hin
    have hlt := (complaints_offset (fun y hy => hne y (by simp [hy])) c hc).2
    rw [Position.after_eq_ofText] at hlt
    exact Nat.not_le.2 hlt (of_decide_eq_true hin).1
  have hbehind : ∀ c ∈ complaints (p.after x.spelling) vs, ¬ within c = true := by
    intro c hc hin
    have hle := (complaints_offset (fun y hy => hne y (by simp [hy])) c hc).1
    exact Nat.not_lt.2 hle (of_decide_eq_true hin).2
  have hown : ∀ c ∈ (x.complaint? p).toList, within c = true := by
    intro c hc
    exact decide_eq_true (complaint_offset (hne x (by simp)) (Option.mem_toList.1 hc))
  have hcomplaints : complaints {} (ofText text.toList) = complaints {} us ++
      ((x.complaint? p).toList ++ complaints (p.after x.spelling) vs) := by
    rw [h, complaints_append, complaints_cons, Position.after_eq_ofText]
  have hkeep : (complaints {} (ofText text.toList)).filter within = (x.complaint? p).toList := by
    rw [hcomplaints, List.filter_append, List.filter_append, List.filter_eq_nil_iff.2 hbefore,
      List.filter_eq_nil_iff.2 hbehind, List.filter_eq_self.2 hown, List.nil_append,
      List.append_nil]
  simp only [Stream.scan, Stream.diagnose, List.filter_map]
  rw [← hkeep, List.filter_comm]
  rfl

theorem mem_scan_within_iff (h : ofText text.toList = us ++ x :: vs) (d : Diagnostic) :
    d ∈ (Stream.scan text path o).diagnostics ∧
        d.Within (.ofText (spell us)) ((Position.ofText (spell us)).after x.spelling) ↔
      ∃ c, x.complaint? (.ofText (spell us)) = some c ∧ o.reports c.2 = true ∧
        c.2.diagnostic path c.1 = d := by
  have hfilter := filter_scan_within h path o
  have hmem := congrArg (d ∈ ·) hfilter
  simpa [Stream.diagnose, and_assoc, -List.filter_filter] using hmem

end

end SectionLexer
