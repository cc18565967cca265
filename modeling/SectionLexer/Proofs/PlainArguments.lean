import SectionLexer.Proofs.Reached
import SectionLexer.Proofs.Reading

/-! Where plain arguments end: in front of the first comma or line end that no bracket encloses.
What is wrong with them is told at their start, or at the spaces in front of that separator. -/
namespace SectionLexer

/-- A start of a text that leaves no bracket open, with a comma or a line end behind it. The
brackets in `stack` are open in front of it. -/
def Separated (stack : List Bracket) (s w : List Char) : Prop :=
  w.foldl Bracket.track stack = [] ∧ ∃ c t, s = w ++ c :: t ∧ (c = ',' ∨ c = '\n')

/-- The shortest part at the start of `r`, but not nothing, that a comma or a line end outside of
brackets follows, or all of `r` if there is none. -/
def PlainPrefix (r w : List Char) : Prop :=
  (w ≠ [] ∧ Separated [] r w ∧ ∀ q, q ≠ [] → Separated [] r q → w.length ≤ q.length) ∨
    (∀ q, q ≠ [] → ¬ Separated [] r q) ∧ w = r

variable {stack : List Bracket} {c : Char} {s q : List Char}

theorem Separated.of_cons (h : Separated stack (c :: s) (c :: q)) :
    Separated (Bracket.track stack c) s q := by
  obtain ⟨hstack, d, t, hs, hd⟩ := h
  exact ⟨hstack, d, t, (List.cons.inj hs).2, hd⟩

theorem Separated.cons (h : Separated (Bracket.track stack c) s q) :
    Separated stack (c :: s) (c :: q) := by
  obtain ⟨hstack, d, t, hs, hd⟩ := h
  exact ⟨hstack, d, t, congrArg (c :: ·) hs, hd⟩

/-- Brackets stay open only up to the end of the text. -/
theorem PlainPrefix.openAfter_eq_cons_iff {r w rest : List Char} (h : PlainPrefix r w)
    (hr : r = w ++ rest) {b : Bracket} {below : List Bracket} :
    Bracket.openAfter w = b :: below ↔ rest = [] ∧ Bracket.openAfter r = b :: below := by
  constructor
  · intro hopen
    rcases h with ⟨-, ⟨hclosed, -⟩, -⟩ | ⟨-, rfl⟩
    · cases hopen.symm.trans hclosed
    · exact ⟨by simpa using hr, hopen⟩
  · rintro ⟨rfl, hopen⟩
    rwa [hr, List.append_nil] at hopen

namespace Literal

/-- A plain argument ends in front of a separator or at the end of the text. -/
theorem plainText_separated (stack : List Bracket) (s : List Char) :
    Separated stack s (plainText stack s) ∨ plainText stack s = s := by
  induction s generalizing stack with
  | nil => exact .inr rfl
  | cons c s ih =>
    unfold plainText
    split
    · rename_i hstop
      obtain ⟨hstack, hc⟩ : stack = [] ∧ (c = ',' ∨ c = '\n') := by simpa using hstop
      exact .inl ⟨hstack, c, s, rfl, hc⟩
    · rcases ih (Bracket.track stack c) with h | h
      · exact .inl h.cons
      · exact .inr (congrArg (c :: ·) h)

/-- It goes no further than to any such separator. -/
theorem plainText_length_le (h : Separated stack s q) : (plainText stack s).length ≤ q.length := by
  induction s generalizing stack q with
  | nil => exact Nat.zero_le _
  | cons c s ih =>
    cases q with
    | nil =>
      obtain ⟨rfl, d, t, hs, hd⟩ := h
      obtain ⟨rfl, rfl⟩ := List.cons.inj hs
      simp [plainText, hd]
    | cons d q =>
      obtain ⟨-, e, t, hs, -⟩ := id h
      obtain ⟨rfl, -⟩ := List.cons.inj hs
      unfold plainText
      split
      · exact Nat.zero_le _
      · exact Nat.succ_le_succ (ih h.of_cons)

end Literal

namespace Piece

theorem trimRight_append_replicate {u : List Char} (h : u.getLast? ≠ some ' ') (n : Nat) :
    trimRight (u ++ List.replicate n ' ') = u := by
  have hu : (u.reverse.dropWhile (· == ' ')).reverse = u := trimRight_eq_self h
  rw [trimRight, List.reverse_append, List.reverse_replicate,
    List.dropWhile_append_of_pos (by simp), hu]

theorem getLast?_trimRight (w : List Char) : (trimRight w).getLast? ≠ some ' ' := by
  intro h
  rw [trimRight, List.getLast?_reverse] at h
  have hnot := List.head?_dropWhile_not (· == ' ') w.reverse
  rw [h] at hnot
  simp at hnot

theorem exists_eq_trimRight_append (w : List Char) :
    ∃ n, w = trimRight w ++ List.replicate n ' ' := by
  have hspaces : ∀ c ∈ w.rtakeWhile (· == ' '), c = ' ' := by
    intro c hc
    simpa using List.mem_rtakeWhile_imp hc
  refine ⟨(w.rtakeWhile (· == ' ')).length, ?_⟩
  rw [← List.eq_replicate_of_mem hspaces]
  exact List.rdropWhile_append_rtakeWhile.symm

variable {text : List Char} {us : List Piece} {fresh : Bool} {w : List Char} {p : Position}

/-- A plain argument is told either of a bracket left open or of the spaces at its end. -/
theorem complaint_plain_iff {x : Position × Complaint} : (plain w).complaint? p = some x ↔
    (∃ b below, Bracket.openAfter w = b :: below ∧ x = (p, .unterminated (.bracket b))) ∨
      Bracket.openAfter w = [] ∧ ∃ u n, w = u ++ List.replicate (n + 1) ' ' ∧
        u.getLast? ≠ some ' ' ∧ x = (p.after u, .trailingWhitespace) := by
  cases hopen : Bracket.openAfter w with
  | cons b below => simp [complaint?, hopen, eq_comm]
  | nil =>
    have htrailing : (plain w).complaint? p =
        if trimRight w = w then none else some (p.after (trimRight w), .trailingWhitespace) := by
      simp only [complaint?, hopen]
    rw [htrailing]
    constructor
    · intro h
      split at h
      · cases h
      · rename_i hne
        obtain ⟨n, hw⟩ := exists_eq_trimRight_append w
        cases n with
        | zero => exact absurd (by simpa using hw.symm) hne
        | succ n => exact .inr ⟨rfl, _, n, hw, getLast?_trimRight w, (Option.some.inj h).symm⟩
    · rintro (⟨b, below, h, -⟩ | ⟨-, u, n, rfl, hu, rfl⟩)
      · cases h
      · rw [trimRight_append_replicate hu, if_neg (by simp)]

theorem plainText_plainPrefix (hc : c ∉ plainBarriers) (s : List Char) :
    PlainPrefix (c :: s) (Literal.plainText [] (c :: s)) := by
  have hread : Reads (.argument true) c s (.plain (Literal.plainText [] (c :: s)))
      (.separator true) := .plain hc
  have hne : Literal.plainText [] (c :: s) ≠ [] := hread.spelling_ne_nil
  by_cases hnone : ∀ q, q ≠ [] → ¬ Separated [] (c :: s) q
  · right
    refine ⟨hnone, ?_⟩
    rcases Literal.plainText_separated [] (c :: s) with h | h
    · exact absurd h (hnone _ hne)
    · exact h
  · left
    refine ⟨hne, ?_, fun q _ hq => Literal.plainText_length_le hq⟩
    rcases Literal.plainText_separated [] (c :: s) with h | h
    · exact h
    · -- all of the text would be longer than the part in front of a separator
      push Not at hnone
      obtain ⟨q, -, hq⟩ := hnone
      have hle := Literal.plainText_length_le hq
      obtain ⟨-, d, t, hs, -⟩ := hq
      rw [h, hs, List.length_append, List.length_cons] at hle
      omega

end Piece

/-- Plain arguments. Where one starts, its token carries the text up to the first separator outside
of brackets, character for character, and scanning goes on in front of that separator. If the text
ends inside of brackets, the innermost one is reported at the start of the argument. If not, spaces
at the end of the argument are, at the first of them. Nothing else is reported of it. -/
theorem plainArguments_end {text path : String} {o : Options} {us : List Piece} {fresh : Bool}
    (hc : c ∉ plainBarriers) (h : Piece.Reaches text.toList us (.argument fresh) (c :: s)) :
    let p := Position.ofText (Piece.spell us)
    ∃ w rest, c :: s = w ++ rest ∧ PlainPrefix (c :: s) w ∧
      Piece.Reaches text.toList (us ++ [.plain w]) (.separator true) rest ∧
      (Stream.scan text path o).tokens = Piece.tokens {} us ++
        ⟨.argumentText, String.ofList w, p⟩ ::
          Piece.tokens (p.after w) (Piece.cut (.separator true) 0 rest) ∧
      ∀ d, d ∈ (Stream.scan text path o).diagnostics ∧ d.Within p (p.after w) ↔
        (∃ b below, rest = [] ∧ Bracket.openAfter (c :: s) = b :: below ∧
          d = ⟨.error, .scan, "expected a terminating " ++ b.closer.toString, p, path⟩) ∨
        Bracket.openAfter w = [] ∧ o.reportTrailingWhitespace = true ∧
          ∃ u n, w = u ++ List.replicate (n + 1) ' ' ∧ u.getLast? ≠ some ' ' ∧
            d = ⟨.warning, .scan, "unnecessary trailing whitespace", p.after u, path⟩ := by
  intro p
  generalize hw : Literal.plainText [] (c :: s) = w
  obtain ⟨rest, hrest⟩ := Literal.plainText_split [] (c :: s)
  have hprefix := Piece.plainText_plainPrefix hc s
  have hread := Piece.plain_read_of_notMem fresh hc s
  rw [hw] at hrest hprefix hread
  have hbehind := h.step rfl hread hrest
  refine ⟨w, rest, hrest, hprefix, hbehind, ?_, fun d => ?_⟩
  · exact scan_tokens_eq hbehind.ofText_eq
  · refine (mem_scan_within_iff hbehind.ofText_eq d).trans ?_
    simp only [Piece.complaint_plain_iff, hprefix.openAfter_eq_cons_iff hrest]
    constructor
    · rintro ⟨x, ⟨b, below, ⟨hend, hopen⟩, rfl⟩ | ⟨hopen, u, n, hu, hlast, rfl⟩, hreport, rfl⟩
      · exact .inl ⟨b, below, hend, hopen, rfl⟩
      · exact .inr ⟨hopen, by simpa [Options.reports] using hreport, u, n, hu, hlast, rfl⟩
    · rintro (⟨b, below, hend, hopen, rfl⟩ | ⟨hopen, hreport, u, n, hu, hlast, rfl⟩)
      · refine ⟨_, .inl ⟨b, below, ⟨hend, hopen⟩, rfl⟩, by simp [Options.reports], rfl⟩
      · refine ⟨_, .inr ⟨hopen, u, n, hu, hlast, rfl⟩, by simp [Options.reports, hreport], rfl⟩

/-- A comma and a line end inside brackets, closers that match nothing, and spaces at the end. -/
theorem plainArguments_end_nested :
    let r := "f(x, [y)\n]) ]  , z".toList
    let us := [Piece.name ['a'], .colon]
    'f' ∉ plainBarriers ∧
      Piece.Reaches ('a' :: ':' :: r) us (.argument true) r ∧
      ∃ w rest, r = w ++ rest ∧ PlainPrefix r w ∧
        Piece.Reaches ('a' :: ':' :: r) (us ++ [.plain w]) (.separator true) rest ∧
        (Stream.scan "a:f(x, [y)\n]) ]  , z" "p" {}).tokens = Piece.tokens {} us ++
          ⟨.argumentText, String.ofList w, ⟨2, 0, 2⟩⟩ ::
            Piece.tokens (Position.after ⟨2, 0, 2⟩ w) (Piece.cut (.separator true) 0 rest) := by
  intro r us
  have hc : 'f' ∉ plainBarriers := by decide
  have h : Piece.Reaches "a:f(x, [y)\n]) ]  , z".toList us (.argument true) r := by
    unfold Piece.Reaches
    decide +kernel
  obtain ⟨w, rest, hsplit, hprefix, hbehind, htokens, -⟩ :=
    @plainArguments_end _ _ "a:f(x, [y)\n]) ]  , z" "p" {} us true hc h
  exact ⟨hc, h, w, rest, hsplit, hprefix, hbehind, htokens⟩

end SectionLexer
