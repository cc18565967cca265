import SectionLexer.Format.Tree
import SectionLexer.Number.Decimal

/-! The tree that shows tokens tells their kinds and the texts of the literals: they can be read
back from it. -/
namespace SectionLexer

/-! Quoted texts. -/

namespace Text

/-- Reads a character as quoted texts show it. A double quote by itself ends the text. -/
def unescape : List Char → Option (Char × List Char)
  | '\\' :: '0' :: s => some ('\x00', s)
  | '\\' :: 't' :: s => some ('\t', s)
  | '\\' :: 'r' :: s => some ('\r', s)
  | '\\' :: 'n' :: s => some ('\n', s)
  | '\\' :: '"' :: s => some ('"', s)
  | '\\' :: '\\' :: s => some ('\\', s)
  | '\\' :: 'u' :: '\x7b' :: s =>
    let digits := s.takeWhile (· ≠ '\x7d')
    some (Char.ofNat (Decimal.digitsValue 16 digits), s.drop (digits.length + 1))
  | '\\' :: _ | '"' :: _ | [] => none
  | c :: s => some (c, s)

theorem unescape_length {s rest : List Char} {c : Char} (h : unescape s = some (c, rest)) :
    rest.length < s.length := by
  revert h
  fun_cases unescape s <;> intro h <;> cases h <;> simp +arith

/-- Reads characters up to the closing quote, behind which nothing may stand. -/
def unquote (s : List Char) : Option (List Char) :=
  if s = ['"'] then some [] else
    match h : unescape s with
    | none => none
    | some (c, rest) =>
      have := unescape_length h
      (unquote rest).map (c :: ·)
termination_by s.length

theorem isAlphanum_digitChar : ∀ d < 16, (Nat.digitChar d).isAlphanum = true := by decide

theorem isAlphanum_of_mem_toDigits {n : Nat} {c : Char} (h : c ∈ Nat.toDigits 16 n) :
    c.isAlphanum = true := by
  induction n using Nat.strongRecOn with
  | ind n ih =>
    rw [Nat.toDigits_eq_if (by decide)] at h
    split at h
    · next hn =>
      obtain rfl : c = Nat.digitChar n := by simpa using h
      exact isAlphanum_digitChar n hn
    · next hn =>
      rw [List.mem_append, List.mem_singleton] at h
      rcases h with h | rfl
      · exact ih (n / 16) (by omega) h
      · exact isAlphanum_digitChar (n % 16) (Nat.mod_lt _ (by decide))

theorem digitsValue_append (ds : List Char) (c : Char) :
    Decimal.digitsValue 16 (ds ++ [c]) =
      16 * Decimal.digitsValue 16 ds + Decimal.digitsValue 16 [c] := by
  simp [Decimal.digitsValue]

theorem digitsValue_digitChar : ∀ d < 16, Decimal.digitsValue 16 [Nat.digitChar d] = d := by
  decide

/-- The digits of a number have it as their value. -/
theorem digitsValue_toDigits (n : Nat) : Decimal.digitsValue 16 (Nat.toDigits 16 n) = n := by
  induction n using Nat.strongRecOn with
  | ind n ih =>
    rw [Nat.toDigits_eq_if (by decide)]
    split
    · next hn => exact digitsValue_digitChar n hn
    · next hn =>
      rw [digitsValue_append, ih (n / 16) (by omega),
        digitsValue_digitChar (n % 16) (Nat.mod_lt _ (by decide))]
      omega

theorem toList_codePoint (c : Char) :
    (codePoint c).toList = '\\' :: 'u' :: '\x7b' :: (Nat.toDigits 16 c.toNat ++ ['\x7d']) := by
  simp [codePoint]

theorem unescape_codePoint (c : Char) (rest : List Char) :
    unescape ((codePoint c).toList ++ rest) = some (c, rest) := by
  have hdigits : ∀ d ∈ Nat.toDigits 16 c.toNat, d ≠ '\x7d' := by
    rintro d hd rfl
    cases isAlphanum_of_mem_toDigits hd
  have htake : (Nat.toDigits 16 c.toNat ++ '\x7d' :: rest).takeWhile (· ≠ '\x7d') =
      Nat.toDigits 16 c.toNat := by
    rw [List.takeWhile_append_of_pos (by simpa using hdigits)]
    simp
  rw [toList_codePoint]
  simp only [List.cons_append, List.append_assoc, List.nil_append, unescape, htake,
    digitsValue_toDigits, Char.ofNat_toNat]
  simp

theorem unescape_plain {c : Char} (hb : c ≠ '\\') (hq : c ≠ '"') (rest : List Char) :
    unescape (c :: rest) = some (c, rest) := by
  rw [unescape.eq_def]
  split <;> simp_all

/-- What a character is shown as is read back as that character. -/
theorem unescape_quotedEscape (c : Char) (rest : List Char) :
    unescape ((quotedEscape c).toList ++ rest) = some (c, rest) := by
  fun_cases quotedEscape c with
  | case1 | case2 | case3 | case4 | case5 | case6 => rfl
  | case7 => exact unescape_codePoint c rest
  | case8 =>
    rw [Char.toString, String.toList_singleton, List.singleton_append]
    exact unescape_plain (by assumption) (by assumption) rest

theorem toList_quoted (s : String) :
    (quoted s).toList = '"' :: (s.toList.flatMap (fun c => (quotedEscape c).toList) ++ ['"']) := by
  simp [quoted, String.toList_join, List.flatMap_map]

theorem unquote_flatMap (cs : List Char) :
    unquote (cs.flatMap (fun c => (quotedEscape c).toList) ++ ['"']) = some cs := by
  induction cs with
  | nil => rw [unquote.eq_def]; rfl
  | cons c cs ih =>
    have hread := unescape_quotedEscape c (cs.flatMap (fun c => (quotedEscape c).toList) ++ ['"'])
    rw [List.flatMap_cons, List.append_assoc, unquote]
    split
    · next hend =>
      rw [hend] at hread
      cases hread
    · split
      · next hnone => cases hread.symm.trans hnone
      · next d rest hsome =>
        cases hread.symm.trans hsome
        rw [ih, Option.map_some]

theorem newline_notMem_codePoint (c : Char) : '\n' ∉ (codePoint c).toList := by
  have hdigits : '\n' ∉ Nat.toDigits 16 c.toNat := fun h => by
    cases isAlphanum_of_mem_toDigits h
  simpa [toList_codePoint] using hdigits

/-- A character is shown on one line. -/
theorem newline_notMem_quotedEscape (c : Char) : '\n' ∉ (quotedEscape c).toList := by
  fun_cases quotedEscape c with
  | case1 | case2 | case3 | case4 | case5 | case6 => decide
  | case7 => exact newline_notMem_codePoint c
  | case8 =>
    rw [Char.toString, String.toList_singleton, List.mem_singleton]
    exact fun h => absurd h.symm (by assumption)

end Text

/-! Lines. -/

/-- What the tree tells of a token. -/
def Token.shown (t : Token) : Kind × Option String :=
  (t.kind, if t.kind.isLiteral then some t.text else none)

namespace Tree

/-- Reads the label of a token, and the text that stands behind that of a literal. -/
def readLabel (s : List Char) : Option (Kind × Option String) :=
  match Kind.ofLabel? (String.ofList (s.takeWhile (· ≠ ' '))), s.dropWhile (· ≠ ' ') with
  | some k, [] => some (k, none)
  | some k, ' ' :: '"' :: rest => (Text.unquote rest).map fun text => (k, some (String.ofList text))
  | _, _ => none

/-- Reads tokens back from a tree, a line at a time, whatever the lines start with. -/
def read (s : String) : Option (List (Kind × Option String)) :=
  (s.toList.splitOn '\n').dropLast.mapM fun l => readLabel (l.dropWhile (· = ' '))

/-- A line of a tree without its end. -/
def lineText (depth : Nat) (t : Token) : List Char :=
  List.replicate (2 * depth) ' ' ++ (label t).toList

theorem toList_line (depth : Nat) (t : Token) :
    (line depth t).toList = lineText depth t ++ ['\n'] := by
  simp [line, lineText]

/-- The label of a kind is a word. -/
theorem kindLabel_word (k : Kind) :
    k.label.toList ≠ [] ∧ ∀ c ∈ k.label.toList, c ≠ ' ' ∧ c ≠ '\n' := by
  have hword : (!k.label.toList.isEmpty && k.label.toList.all fun c => c != ' ' && c != '\n') := by
    cases k with
    | opening f | closing f => cases f <;> rfl
    | _ => rfl
  simpa using hword

theorem toList_label (t : Token) : (label t).toList = t.kind.label.toList ++
    if t.kind.isLiteral then ' ' :: (Text.quoted t.text).toList else [] := by
  rw [label]
  split <;> simp [*]

theorem readLabel_label (t : Token) : readLabel (label t).toList = some t.shown := by
  have hword : ∀ c ∈ t.kind.label.toList, decide (c ≠ ' ') = true := by
    simpa using fun c hc => ((kindLabel_word t.kind).2 c hc).1
  rw [readLabel, toList_label, List.takeWhile_append_of_pos hword,
    List.dropWhile_append_of_pos hword, Token.shown]
  cases t.kind.isLiteral with
  | false => simp [Kind.ofLabel?_label]
  | true => simp [Text.toList_quoted, Text.unquote_flatMap, Kind.ofLabel?_label]

theorem newline_notMem_lineText (depth : Nat) (t : Token) : '\n' ∉ lineText depth t := by
  have hlabel : '\n' ∉ t.kind.label.toList := fun h => ((kindLabel_word t.kind).2 _ h).2 rfl
  have htext : '\n' ∉ (Text.quoted t.text).toList := by
    simp [Text.toList_quoted, Text.newline_notMem_quotedEscape]
  rw [lineText, toList_label]
  split <;> simp [hlabel, htext]

/-- The spaces that a line starts with, and what stands behind them. -/
theorem takeWhile_lineText (depth : Nat) (t : Token) (rest : List Char) :
    (lineText depth t ++ rest).takeWhile (· = ' ') = List.replicate (2 * depth) ' ' ∧
      (lineText depth t ++ rest).dropWhile (· = ' ') = (label t).toList ++ rest := by
  obtain ⟨hlabel, hword⟩ := kindLabel_word t.kind
  obtain ⟨c, cs, hc⟩ := List.exists_cons_of_ne_nil hlabel
  have hspace : c ≠ ' ' := (hword c (by simp [hc])).1
  rw [lineText, toList_label, hc, List.append_assoc,
    List.takeWhile_append_of_pos (by simp), List.dropWhile_append_of_pos (by simp)]
  simp [hspace]

/-- The depth of the line of `t`, where lines are at `depth`. -/
def lineDepth (depth : Nat) (t : Token) : Nat := if t.kind.isClosing then depth - 1 else depth

/-- The depth of the lines behind that of `t`. -/
def depthBehind (depth : Nat) (t : Token) : Nat :=
  if t.kind.isOpening then depth + 1 else lineDepth depth t

@[simp] theorem lines_cons (depth : Nat) (t : Token) (ts : List Token) :
    lines depth (t :: ts) = line (lineDepth depth t) t :: lines (depthBehind depth t) ts := by
  rw [lines]
  cases hk : t.kind <;> simp [lineDepth, depthBehind, hk, Kind.isOpening, Kind.isClosing]

theorem splitOn_join_lines (depth : Nat) (t : Token) (ts : List Token) :
    ((String.join (lines depth (t :: ts))).toList.splitOn '\n').dropLast =
      lineText (lineDepth depth t) t ::
        ((String.join (lines (depthBehind depth t) ts)).toList.splitOn '\n').dropLast := by
  rw [lines_cons, String.toList_join, String.toList_join, List.flatMap_cons, toList_line,
    List.append_assoc, List.singleton_append, List.splitOn_append_cons_self,
    List.splitOn_eq_singleton (newline_notMem_lineText _ t), List.singleton_append,
    List.dropLast_cons_of_ne_nil (List.splitOn_ne_nil _ _)]

theorem read_join_lines (depth : Nat) (ts : List Token) :
    read (String.join (lines depth ts)) = some (ts.map Token.shown) := by
  induction ts generalizing depth with
  | nil => rfl
  | cons t ts ih =>
    have hrest := ih (depthBehind depth t)
    have hlabel := (takeWhile_lineText (lineDepth depth t) t []).2
    rw [List.append_nil, List.append_nil] at hlabel
    rw [read] at hrest
    rw [read, splitOn_join_lines, List.mapM_cons, hrest, hlabel, readLabel_label]
    rfl

end Tree

end SectionLexer
