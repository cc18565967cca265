import SectionLexer.Proofs.Neighbours
import SectionLexer.Proofs.Reached

/-! The shape of argument lists in what the first pass yields: which tokens stand around arguments
and commas, and that a comma is reported where the argument in front of it is missing. -/
namespace SectionLexer

/-- The shape of argument lists around a token with `front` before it and `back` behind it. -/
structure ArgumentShape (path : String) (ds : List Diagnostic) (front : List Token) (t : Token)
    (back : List Token) : Prop where
  argument_front : t.kind.IsArgument → ∃ u ∈ front.getLast?, u.kind.AsksArgument
  argument_back : t.kind.IsArgument → ∀ u ∈ back.head?, u.kind = .comma ∨ u.kind = .newline
  colon_back : t.kind = .colon →
    ∀ u ∈ back.head?, u.kind.IsArgument ∨ u.kind = .comma ∨ u.kind = .newline
  comma_front : t.kind = .comma →
    ∃ u ∈ front.getLast?, u.kind.IsArgument ∨ u.kind.AsksArgument
  comma_missing : t.kind = .comma →
    (⟨.error, .scan, "expected an argument", t.position, path⟩ ∈ ds ↔
      ¬ ∃ u ∈ front.getLast?, u.kind.IsArgument)
  space_front : t.kind = .space → ∀ u ∈ front.getLast?, u.kind = .newline ∨ u.kind = .space
  text_ne : t.kind = .argumentText → t.text ≠ ""

namespace Piece

variable {m n : Mode} {c : Char} {s : List Char} {x : Piece} {us vs : List Piece} {b : Bool}
  {j : Option Kind} {p q : Position}

/-- A comma misses its argument just where the last token is not one. -/
theorem Reads.missing_iff (h : Reads m c s (.comma b) n) (hm : m.Behind j (c :: s)) :
    b = true ↔ ¬ ∃ i ∈ j, i.IsArgument := by
  cases h with
  | missing =>
    refine ⟨fun _ => ?_, fun _ => rfl⟩
    rintro ⟨i, hi, hargument⟩
    obtain ⟨i', hi', hasks⟩ := hm
    obtain rfl := Option.mem_unique hi hi'
    exact hasks.not_isArgument hargument
  | comma => exact ⟨nofun, fun hnot => absurd hm hnot⟩

theorem missing_iff (h : ofText s = us ++ comma b :: vs) :
    b = true ↔ ¬ ∃ u ∈ (tokens {} us).getLast?, u.kind.IsArgument := by
  obtain ⟨m, c, t, n, hread, hbehind⟩ := reads_behind h
  rw [hread.missing_iff hbehind, endKind]
  simp

theorem eq_comma_of_token? {t : Token} (h : x.token? p = some t) (ht : t.kind = .comma) :
    ∃ b, x = comma b := by
  have hcontent := (content_of_token? h).1
  rw [ht] at hcontent
  cases x with
  | comma b => exact ⟨b, rfl⟩
  | _ => cases hcontent

theorem eq_comma_of_complaint (h : x.complaint? p = some (q, .missingArgument)) :
    x = comma true ∧ q = p := by
  cases faulty_of_complaint h
  exact ⟨rfl, rfl⟩

/-- An argument is never empty that is written without quotes. -/
theorem text_ne_of_tokens {front back : List Token} {t : Token}
    (h : tokens {} (ofText s) = front ++ t :: back) (ht : t.kind = .argumentText) :
    t.text ≠ "" := by
  obtain ⟨us, x, vs, hcut, hx, -, -⟩ := exists_of_tokens h
  have hne := spelling_ne_nil_of_cut hcut
  have hcontent := (content_of_token? hx).1
  rw [ht] at hcontent
  cases x with
  | plain w =>
    intro hempty
    rw [hempty] at hcontent
    cases hcontent
    exact hne rfl
  | _ => cases hcontent

end Piece

variable {text path : String} {o : Options} {front back : List Token} {t : Token}

/-- A comma is reported just if the token in front of it is no argument. -/
theorem missingArgument_mem_iff (h : (Stream.scan text path o).tokens = front ++ t :: back)
    (ht : t.kind = .comma) :
    ⟨.error, .scan, "expected an argument", t.position, path⟩ ∈
        (Stream.scan text path o).diagnostics ↔
      ¬ ∃ u ∈ front.getLast?, u.kind.IsArgument := by
  obtain ⟨us, x, vs, hcut, hx, rfl, -⟩ := Piece.exists_of_tokens h
  obtain ⟨b, rfl⟩ := Piece.eq_comma_of_token? hx ht
  rw [← Piece.missing_iff hcut]
  cases hx
  constructor
  · intro hmem
    rw [Position.after_eq_ofText] at hmem
    obtain ⟨c, hc, -⟩ := (mem_scan_within_iff hcut _).1
      ⟨hmem, Nat.le_refl _, Position.offset_lt_step _ ','⟩
    cases b with
    | true => rfl
    | false => cases hc
  · rintro rfl
    exact mem_scan_diagnostics (c := .missingArgument) hcut rfl (by simp)

/-- No more than such commas are reported. -/
theorem exists_of_missingArgument {d : Diagnostic} (hd : d ∈ (Stream.scan text path o).diagnostics)
    (h : d.message = "expected an argument") :
    ∃ front t back, (Stream.scan text path o).tokens = front ++ t :: back ∧ t.kind = .comma ∧
      d = ⟨.error, .scan, "expected an argument", t.position, path⟩ := by
  obtain ⟨⟨q, c⟩, hc, -, rfl⟩ := mem_scan_diagnostics_iff.1 hd
  obtain rfl := Complaint.eq_missingArgument_of_message h
  obtain ⟨⟨p, x⟩, hplace, hx⟩ := List.mem_filterMap.1 hc
  obtain ⟨rfl, rfl⟩ := Piece.eq_comma_of_complaint hx
  obtain ⟨us, vs, hcut, rfl⟩ := Piece.mem_place hplace
  rw [Position.after_eq_ofText]
  exact ⟨Piece.tokens {} us, _, _, scan_tokens_eq hcut, rfl, rfl⟩

/-- Argument lists. Arguments stand behind a colon, a dot or a comma, and in front of a comma, a
line end or the end of the text. An error tells of a missing argument at every comma that no
argument stands in front of, and nowhere else. -/
theorem argumentLists_shaped (text path : String) (o : Options) :
    (∀ front t back, (Stream.scan text path o).tokens = front ++ t :: back →
      ArgumentShape path (Stream.scan text path o).diagnostics front t back) ∧
    ∀ d ∈ (Stream.scan text path o).diagnostics, d.message = "expected an argument" →
      ∃ front t back, (Stream.scan text path o).tokens = front ++ t :: back ∧ t.kind = .comma ∧
        d = ⟨.error, .scan, "expected an argument", t.position, path⟩ := by
  refine ⟨fun front t back h => ?_, fun d hd => exists_of_missingArgument hd⟩
  have hfront := Piece.follows_of_tokens h
  have hback : ∀ u ∈ back.head?, Kind.Follows (some t.kind) u.kind := by
    intro u hu
    obtain ⟨back', rfl⟩ := List.head?_eq_some_iff.1 hu
    have hnext := Piece.follows_of_tokens (h.trans (List.append_cons front t (u :: back')))
    simpa using hnext
  exact {
    argument_front := by simpa using hfront.argument
    argument_back := fun ht u hu => (hback u hu).behindArgument t.kind rfl ht
    colon_back := fun ht u hu => (hback u hu).behindColon (by simp [ht])
    comma_front := by simpa using hfront.comma
    comma_missing := missingArgument_mem_iff h
    space_front := by simpa using hfront.space
    text_ne := Piece.text_ne_of_tokens h }

/-- A missing argument behind a colon, one behind a comma, and one in front of a line end. -/
theorem argumentLists_shaped_missing :
    let s := Stream.scan "a:, x,, \"y\" z,\n" "p" {}
    ∃ front t back, s.tokens = front ++ t :: back ∧ t.kind = .comma ∧ t.position.offset = 6 ∧
      ¬ ∃ u ∈ front.getLast?, u.kind.IsArgument := by
  intro s
  have hd : (⟨.error, .scan, "expected an argument", ⟨6, 0, 6⟩, "p"⟩ : Diagnostic) ∈
      s.diagnostics := by decide +kernel
  obtain ⟨hshape, hmissing⟩ := argumentLists_shaped "a:, x,, \"y\" z,\n" "p" {}
  obtain ⟨front, t, back, h, ht, heq⟩ := hmissing _ hd rfl
  have hposition : t.position = ⟨6, 0, 6⟩ := (congrArg Diagnostic.position heq).symm
  refine ⟨front, t, back, h, ht, by rw [hposition], ?_⟩
  rw [← (hshape front t back h).comma_missing ht, hposition]
  exact hd

end SectionLexer
