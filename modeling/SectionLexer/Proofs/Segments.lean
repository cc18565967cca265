import SectionLexer.Lexing
import SectionLexer.Proofs.Cut

/-! The first pass loses nothing without saying so: a text is made of what its tokens are written
as, of single spaces, and of what is complained about. -/
namespace SectionLexer

/-- How a token with a text of its own is written, with its closing delimiter or without. -/
inductive Spells : Kind → List Char → (closed : Bool) → List Char → Prop where
  | name {s : List Char} {closed : Bool} : Spells .name s closed s
  | argumentText {s : List Char} {closed : Bool} : Spells .argumentText s closed s
  | colon {closed : Bool} : Spells .colon [':'] closed [':']
  | dotSpace {closed : Bool} : Spells .dotSpace ['.', ' '] closed ['.', ' ']
  | comma {closed : Bool} : Spells .comma [','] closed [',']
  | space {closed : Bool} : Spells .space [' '] closed [' ']
  | newline {closed : Bool} : Spells .newline ['\n'] closed ['\n']
  | formulation {s : List Char} {closed : Bool} (q : Quote) :
      Spells .formulation s closed (q.char :: (s ++ if closed then [q.char] else []))
  | text {raw : List Char} {closed : Bool} :
      Spells .text (Literal.unescape raw) closed ('"' :: (raw ++ if closed then ['"'] else []))
  | textBlock {s : List Char} {closed : Bool} :
      Spells .textBlock s closed (':' :: ':' :: (s ++ if closed then [':', ':'] else []))
  | id {s : List Char} {closed : Bool} :
      Spells .id s closed ('[' :: (s ++ if closed then [']'] else []))

/-- The literals that end in a closing delimiter. -/
def Kind.IsEnclosed (k : Kind) : Prop := k ∈ [Kind.text, .formulation, .textBlock, .id]

/-- A text that starts at a place, as the tokens and the diagnostics account for it. -/
inductive Segmented (path : String) (ds : List Diagnostic) :
    Position → List Token → List Char → Prop where
  | done {p : Position} : Segmented path ds p [] []
  /-- A token starts at its own place. It lacks its closing delimiter where that is reported. -/
  | token {t : Token} {ts : List Token} {closed : Bool} {w s : List Char} :
      Spells t.kind t.text.toList closed w →
      (t.kind.IsEnclosed →
        (closed = false ↔ ∃ e, (Complaint.unterminated e).diagnostic path t.position ∈ ds)) →
      Segmented path ds (t.position.after w) ts s → Segmented path ds t.position (t :: ts) (w ++ s)
  | space {p : Position} {ts : List Token} {s : List Char} :
      Segmented path ds (p.after [' ']) ts s → Segmented path ds p ts (' ' :: s)
  | unrecognized {p : Position} {ts : List Token} {c : Char} {s : List Char} :
      (Complaint.unrecognized c).diagnostic path p ∈ ds →
      Segmented path ds (p.after [c]) ts s → Segmented path ds p ts (c :: s)
  /-- What does not follow an argument is left out up to the end of the line. -/
  | skipped {p : Position} {ts : List Token} {w s : List Char} :
      Complaint.missingComma.diagnostic path p ∈ ds → w ≠ [] → '\n' ∉ w →
      (∀ c ∈ s.head?, c = '\n') →
      Segmented path ds (p.after w) ts s → Segmented path ds p ts (w ++ s)

/-! The first words of a message tell what it is about. -/

theorem take_toList_append {s w : String} (t : String) {n : Nat} (h : n ≤ s.toList.length)
    (hw : s.toList.take n = w.toList) : (s ++ t).toList.take n = w.toList := by
  rw [String.toList_append, List.take_append_of_le_length h, hw]

namespace Complaint

/-- What the message starts with. -/
def start : Complaint → String
  | unterminated _ => "expected a te"
  | missingArgument => "expected an a"
  | missingComma => "expected a , "
  | trailingWhitespace => "unnecessary t"
  | unrecognized _ => "Unrecognized "
  | oddIndent _ => "expected an e"
  | unexpectedIndent => "unexpected in"

theorem take_message (c : Complaint) : c.message.toList.take 13 = c.start.toList := by
  cases c with
  | unterminated e =>
    change ("expected a terminating " ++ e.terminator).toList.take 13 = "expected a te".toList
    exact take_toList_append _ (by decide) (by decide)
  | oddIndent n =>
    change ("expected an even indent but found " ++ toString n).toList.take 13 =
      "expected an e".toList
    exact take_toList_append _ (by decide) (by decide)
  | unrecognized c =>
    change ("Unrecognized character '" ++ Text.asciiEscape c ++ "'").toList.take 13 =
      "Unrecognized ".toList
    rw [String.append_assoc]
    exact take_toList_append _ (by decide) (by decide)
  | missingArgument | missingComma | trailingWhitespace | unexpectedIndent => decide

theorem start_eq_of_message {c d : Complaint} (h : c.message = d.message) : c.start = d.start := by
  apply String.toList_injective
  rw [← take_message, ← take_message, h]

theorem eq_unterminated_of_message {c : Complaint} {e : Enclosure}
    (h : c.message = (unterminated e).message) : ∃ e', c = unterminated e' := by
  have hstart := start_eq_of_message h
  cases c with
  | unterminated e' => exact ⟨e', rfl⟩
  | _ => simp [start] at hstart

theorem eq_missingArgument_of_message {c : Complaint}
    (h : c.message = missingArgument.message) : c = missingArgument := by
  have hstart := start_eq_of_message h
  cases c with
  | missingArgument => rfl
  | _ => simp [start] at hstart

end Complaint

/-- What is reported as unterminated at a place was complained about there. -/
theorem Complaint.eq_of_diagnostic_unterminated {c : Complaint} {e : Enclosure} {path : String}
    {p q : Position} (h : c.diagnostic path q = (unterminated e).diagnostic path p) :
    q = p ∧ ∃ e', c = unterminated e' :=
  ⟨congrArg Diagnostic.position h, eq_unterminated_of_message (congrArg Diagnostic.message h)⟩

/-! Pieces as segments. -/

namespace Piece

variable {x : Piece} {p q : Position}

/-- A piece is written as its token is, and lacks its closing delimiter just where it says so. -/
theorem spells_of_content {k : Kind} {s : List Char} (h : x.content? = some (k, s)) :
    ∃ closed, Spells k s closed x.spelling ∧ (k.IsEnclosed → ∀ p,
      (closed = false ↔ ∃ e, x.complaint? p = some (p, .unterminated e))) := by
  cases x with
  | text raw closed =>
    cases h
    exact ⟨closed, .text, fun _ p => by cases closed <;> simp [complaint?, unclosed]⟩
  | formulation q body closed =>
    cases h
    exact ⟨closed, .formulation q, fun _ p => by cases closed <;> simp [complaint?, unclosed]⟩
  | textBlock body closed =>
    cases h
    exact ⟨closed, .textBlock, fun _ p => by cases closed <;> simp [complaint?, unclosed]⟩
  | id body closed =>
    cases h
    exact ⟨closed, .id, fun _ p => by cases closed <;> simp [complaint?, unclosed]⟩
  | name | colon | dotSpace | newline | space | comma | plain =>
    cases h
    exact ⟨true, by constructor, by simp [Kind.IsEnclosed]⟩
  | gap | unrecognized | skipped => cases h

/-- A literal without its end is complained about where it starts. -/
theorem eq_of_complaint_unterminated {e : Enclosure}
    (h : x.complaint? q = some (p, .unterminated e)) : q = p := by
  cases faulty_of_complaint h
  rfl

end Piece

section

variable {text path : String} {o : Options} {x : Piece} {us vs : List Piece}

theorem mem_scan_diagnostics {c : Complaint} {q : Position}
    (h : Piece.ofText text.toList = us ++ x :: vs)
    (hc : x.complaint? (Position.after {} (Piece.spell us)) = some (q, c))
    (hreport : c ≠ .trailingWhitespace) :
    c.diagnostic path q ∈ (Stream.scan text path o).diagnostics := by
  refine List.mem_map.2 ⟨(q, c), List.mem_filter.2 ⟨?_, by simp [Options.reports, hreport]⟩, rfl⟩
  exact Piece.mem_complaints_of_cut h {} hc

/-- No other piece is reported as unterminated where this one starts. -/
theorem unterminated_iff (h : Piece.ofText text.toList = us ++ x :: vs) {p : Position}
    (hp : p = Position.after {} (Piece.spell us)) :
    (∃ e, x.complaint? p = some (p, .unterminated e)) ↔ ∃ e,
      (Complaint.unterminated e).diagnostic path p ∈ (Stream.scan text path o).diagnostics := by
  constructor
  · rintro ⟨e, he⟩
    exact ⟨e, mem_scan_diagnostics h (hp ▸ he) (by simp)⟩
  · rintro ⟨e, he⟩
    obtain ⟨⟨q, c⟩, hmem, hd⟩ := List.mem_map.1 he
    obtain ⟨rfl, e', rfl⟩ := Complaint.eq_of_diagnostic_unterminated hd
    obtain ⟨⟨q', y⟩, hplace, hy⟩ := List.mem_filterMap.1 (List.mem_filter.1 hmem).1
    obtain rfl := Piece.eq_of_complaint_unterminated hy
    obtain ⟨us', vs', heq, hq⟩ := Piece.mem_place hplace
    have hstart : byteLength (Piece.spell us) = byteLength (Piece.spell us') := by
      have hoffset := congrArg Position.offset (hp.symm.trans hq)
      simpa using hoffset
    obtain ⟨-, rfl, -⟩ := Piece.start_unique (Piece.spelling_ne_nil_of_cut h)
      (Piece.spelling_ne_nil_of_cut heq) (h.symm.trans heq) hstart
    exact ⟨e', hy⟩

theorem skipped_stops {rest : List Char}
    (h : Piece.ofText text.toList = us ++ .skipped rest :: vs) :
    rest ≠ [] ∧ '\n' ∉ rest ∧ ∀ c ∈ (Piece.spell vs).head?, c = '\n' := by
  obtain ⟨m, c, t, n, hread, hsplit, -⟩ := Piece.read_of_cut h
  cases hread with
  | skipped hc =>
    refine ⟨List.cons_ne_nil _ _, fun hmem => ?_, Piece.skipped_head? hsplit⟩
    rcases List.mem_cons.1 hmem with rfl | hmem
    · exact hc.2.2 rfl
    · have hline := List.all_eq_true.1 (List.all_takeWhile (p := (· ≠ '\n')) (l := t)) '\n' hmem
      simp at hline

theorem segmented_pieces (path : String) (o : Options) (xs : List Piece) (us : List Piece)
    (h : Piece.ofText text.toList = us ++ xs) :
    Segmented path (Stream.scan text path o).diagnostics (Position.after {} (Piece.spell us))
      (Piece.tokens (Position.after {} (Piece.spell us)) xs) (Piece.spell xs) := by
  induction xs generalizing us with
  | nil => exact .done
  | cons x xs ih =>
    have hrest := ih (us ++ [x]) (by simpa using h)
    simp only [Piece.spell_append, Position.after_append, Piece.spell_cons, Piece.spell_nil,
      List.append_nil] at hrest
    generalize hp : Position.after {} (Piece.spell us) = p at *
    cases hc : x.content? with
    | some c =>
      obtain ⟨k, s⟩ := c
      obtain ⟨closed, hspells, hclosed⟩ := Piece.spells_of_content hc
      have htokens : Piece.tokens p (x :: xs) =
          ⟨k, String.ofList s, p⟩ :: Piece.tokens (p.after x.spelling) xs := by
        simp [Piece.tokens, Piece.token?, hc]
      rw [htokens, Piece.spell_cons]
      refine .token (t := ⟨k, String.ofList s, p⟩) (by simpa using hspells) (fun hk => ?_) hrest
      exact (hclosed hk p).trans (unterminated_iff h hp.symm)
    | none =>
      have htokens : Piece.tokens p (x :: xs) = Piece.tokens (p.after x.spelling) xs := by
        simp [Piece.tokens, Piece.token?, hc]
      rw [htokens, Piece.spell_cons]
      cases x with
      | gap trailing => exact .space hrest
      | unrecognized c =>
        exact .unrecognized (mem_scan_diagnostics h (by rw [hp]; rfl) (by simp)) hrest
      | skipped rest =>
        obtain ⟨hne, hline, hstop⟩ := skipped_stops h
        exact .skipped (mem_scan_diagnostics h (by rw [hp]; rfl) (by simp)) hne hline hstop hrest
      | _ => cases hc

/-- The first pass accounts for the whole text, from its start to its end: every character belongs
to a token that stands in its place, is a space that means nothing, or is complained about. -/
theorem scan_segmented (text path : String) (o : Options) :
    Segmented path (Stream.scan text path o).diagnostics {} (Stream.scan text path o).tokens
      text.toList := by
  have hall := segmented_pieces path o (Piece.ofText text.toList) [] rfl
  rw [Piece.spell_ofText] at hall
  exact hall

end

end SectionLexer
