import SectionLexer.Proofs.Reporting
import SectionLexer.Proofs.TreeReading

/-! Diagnostics take a line each: no message has a line end in it, whatever character of the
document it is about. -/
namespace SectionLexer

variable {d : Diagnostic} {ds : List Diagnostic}

namespace Text

theorem newline_notMem_asciiEscape (c : Char) : '\n' ∉ (asciiEscape c).toList := by
  fun_cases asciiEscape c with
  | case1 | case2 | case3 | case4 | case5 | case6 => decide
  | case7 =>
    rw [Char.toString, String.toList_singleton, List.mem_singleton]
    exact fun h => absurd h.symm (by assumption)
  | case8 => exact newline_notMem_codePoint c

theorem newline_notMem_toString (n : Nat) : '\n' ∉ (toString n).toList := by
  rw [Nat.toString_eq_repr, Nat.toList_repr]
  intro h
  cases Nat.isDigit_of_mem_toDigits (by decide) (by decide) h

end Text

theorem newline_notMem_append {s t : String} (hs : '\n' ∉ s.toList) (ht : '\n' ∉ t.toList) :
    '\n' ∉ (s ++ t).toList := by
  rw [String.toList_append, List.mem_append, not_or]
  exact ⟨hs, ht⟩

namespace Complaint

theorem newline_notMem_terminator (e : Enclosure) : '\n' ∉ e.terminator.toList := by
  cases e with
  | text | textBlock | id => decide
  | formulation q => cases q <;> decide
  | bracket b => cases b <;> decide

/-- A message is one line. What it quotes of the document is escaped. -/
theorem newline_notMem_message (c : Complaint) : '\n' ∉ c.message.toList := by
  cases c with
  | unterminated e => exact newline_notMem_append (by decide) (newline_notMem_terminator e)
  | unrecognized c =>
    have hquoted := newline_notMem_append (s := "Unrecognized character '") (by decide)
      (Text.newline_notMem_asciiEscape c)
    exact newline_notMem_append hquoted (by decide)
  | oddIndent n => exact newline_notMem_append (by decide) (Text.newline_notMem_toString n)
  | missingArgument | missingComma | trailingWhitespace | unexpectedIndent => decide

end Complaint

theorem Position.newline_notMem_toString (p : Position) : '\n' ∉ (toString p).toList := by
  have hrow := Text.newline_notMem_toString (p.row + 1)
  have hcolumn := Text.newline_notMem_toString (p.column + 1)
  exact newline_notMem_append (newline_notMem_append hrow (by decide)) hcolumn

namespace Diagnostic

theorem newline_notMem_display (hpath : '\n' ∉ d.path.toList) (hmessage : '\n' ∉ d.message.toList) :
    '\n' ∉ d.display.toList := by
  have hposition := Position.newline_notMem_toString d.position
  have hseverity : '\n' ∉ (toString d.severity).toList := by cases d.severity <;> decide
  have hpass : '\n' ∉ (toString d.pass).toList := by cases d.pass <;> decide
  simp only [display, String.toList_append, List.mem_append, not_or]
  exact ⟨⟨⟨⟨⟨⟨⟨⟨hpath, by decide⟩, hposition⟩, by decide⟩, hseverity⟩, by decide⟩, hpass⟩,
    by decide⟩, hmessage⟩

/-- Renderings of one line each are the lines of all of them together. -/
theorem split_displayAll (hne : ds ≠ []) (h : ∀ d ∈ ds, '\n' ∉ d.display.toList) :
    ((displayAll ds).split '\n').toList.map String.Slice.copy = ds.map display := by
  have hlines : ∀ l ∈ ds.map display, '\n' ∉ l.toList := by simpa using h
  have hsplit := String.toList_split_intercalate hlines
  rw [if_neg (by simpa using hne)] at hsplit
  exact hsplit

end Diagnostic

/-- However far the passes go, what they find wrong is told in messages of one line; so the
diagnostics of a document whose path is one line are the lines of the text that shows them. -/
theorem displayAll_lines (last : Pass) (source path : String) (o : Options) :
    let ds := (lexUpTo last source path o).diagnostics
    (∀ d ∈ ds, '\n' ∉ d.message.toList) ∧
    ('\n' ∉ path.toList → ds ≠ [] →
      ((Diagnostic.displayAll ds).split '\n').toList.map String.Slice.copy =
        ds.map Diagnostic.display) := by
  intro ds
  have hds : ∀ d ∈ ds, d.path = path ∧ '\n' ∉ d.message.toList := by
    intro d hd
    rw [show ds = _ from lexUpTo_diagnostics last source path o] at hd
    obtain ⟨⟨p, c⟩, -, rfl⟩ := List.mem_map.1 hd
    exact ⟨rfl, c.newline_notMem_message⟩
  refine ⟨fun d hd => (hds d hd).2, fun hpath hne => ?_⟩
  refine Diagnostic.split_displayAll hne fun d hd => ?_
  obtain ⟨hd, hmessage⟩ := hds d hd
  exact Diagnostic.newline_notMem_display (hd ▸ hpath) hmessage

/-- A carriage return and a line separator, which a terminal would break lines at, and an odd
indent. -/
theorem displayAll_lines_escaped :
    let ds := (lexUpTo .bracket "a: x \n   \r\u2028" "doc" {}).diagnostics
    '\n' ∉ "doc".toList ∧ ds ≠ [] ∧
    ((Diagnostic.displayAll ds).split '\n').toList.map String.Slice.copy =
      ["doc:1:5: warning[phase1]: unnecessary trailing whitespace",
        "doc:2:4: error[phase1]: Unrecognized character '\\r'",
        "doc:2:5: error[phase1]: Unrecognized character '\\u\x7b2028\x7d'",
        "doc:2:1: error[phase2]: expected an even indent but found 3",
        "doc:2:1: error[phase3]: unexpected indent"] := by
  intro ds
  have hpath : '\n' ∉ "doc".toList := by decide
  have hne : ds ≠ [] := by decide +kernel
  refine ⟨hpath, hne, ((displayAll_lines .bracket _ "doc" {}).2 hpath hne).trans ?_⟩
  decide +kernel

end SectionLexer
