import Mathlib.Order.Bounds.Basic
import SectionLexer.Proofs.Reached
import SectionLexer.Proofs.TextEnds

/-! Where text blocks and ids end. A text block ends at the first two colons that no backslash
stands in front of, an id at the first bracket that balances its own. -/
namespace SectionLexer

variable {r : List Char} {c : Char} {n : Nat}

/-! What stands behind the opening mark. -/

/-- Two colons stand `n` characters behind the opening mark, with no backslash in front of them. -/
def BlockStop (r : List Char) (n : Nat) : Prop :=
  r[n]? = some ':' ∧ r[n + 1]? = some ':' ∧ (n = 0 ∨ r[n - 1]? ≠ some '\\')

/-- A closing bracket stands `n` characters behind the opening mark, and closes the outermost of
`depth + 1` open brackets. -/
def IdStop (depth : Nat) (r : List Char) (n : Nat) : Prop :=
  r[n]? = some ']' ∧ (r.take (n + 1)).count ']' = (r.take (n + 1)).count '[' + (depth + 1)

theorem blockStop_cons (h : c = '\\' → r.head? ≠ some ':') :
    BlockStop (c :: r) (n + 1) ↔ BlockStop r n := by
  cases n with
  | zero =>
    simp only [BlockStop, List.getElem?_cons_succ, true_or, and_true]
    constructor
    · rintro ⟨hfirst, hsecond, -⟩
      exact ⟨hfirst, hsecond⟩
    · rintro ⟨hfirst, hsecond⟩
      refine ⟨hfirst, hsecond, .inr fun hc => ?_⟩
      rw [← List.head?_eq_getElem?] at hfirst
      exact h (by simpa using hc) hfirst
  | succ n => simp [BlockStop]

theorem blockStop_escape : BlockStop ('\\' :: ':' :: r) (n + 2) ↔ BlockStop r n := by
  cases n with
  | zero => simp [BlockStop]
  | succ n => simp [BlockStop]

theorem idStop_opener {depth : Nat} :
    IdStop depth ('[' :: r) (n + 1) ↔ IdStop (depth + 1) r n := by
  simp only [IdStop, List.getElem?_cons_succ, List.take_succ_cons, List.count_cons]
  refine and_congr_right fun _ => ?_
  simp
  omega

theorem idStop_closer {depth : Nat} :
    IdStop (depth + 1) (']' :: r) (n + 1) ↔ IdStop depth r n := by
  simp only [IdStop, List.getElem?_cons_succ, List.take_succ_cons, List.count_cons]
  refine and_congr_right fun _ => ?_
  simp
  omega

theorem idStop_cons {depth : Nat} (hopener : c ≠ '[') (hcloser : c ≠ ']') :
    IdStop depth (c :: r) (n + 1) ↔ IdStop depth r n := by
  simp [IdStop, hopener, hcloser]

theorem idStop_zero {depth : Nat} : IdStop depth (c :: r) 0 ↔ c = ']' ∧ depth = 0 := by
  constructor
  · rintro ⟨hc, hcount⟩
    obtain rfl : c = ']' := by simpa using hc
    refine ⟨rfl, ?_⟩
    simp at hcount
    omega
  · rintro ⟨rfl, rfl⟩
    simp [IdStop]

namespace Literal

theorem blockStop_of_closed (h : (blockBody r).2 = true) :
    BlockStop r (blockBody r).1.length := by
  fun_induction blockBody r with
  | case1 => cases h
  | case2 s => simp [BlockStop]
  | case3 s ih => exact blockStop_escape.2 (ih h)
  | case4 c s hcolon hescape ih =>
    refine (blockStop_cons fun hc hs => ?_).2 (ih h)
    obtain ⟨t, rfl⟩ := List.head?_eq_some_iff.1 hs
    exact hescape t hc rfl

/-- It goes no further than to any such colons. -/
theorem blockBody_length_le (h : BlockStop r n) :
    (blockBody r).2 = true ∧ (blockBody r).1.length ≤ n := by
  fun_induction blockBody r generalizing n with
  | case1 => simp [BlockStop] at h
  | case2 s => exact ⟨rfl, Nat.zero_le _⟩
  | case3 s ih =>
    rcases n with _ | _ | n
    · simp [BlockStop] at h
    · simp [BlockStop] at h
    · obtain ⟨hclosed, hle⟩ := ih (blockStop_escape.1 h)
      exact ⟨hclosed, Nat.add_le_add_right hle 2⟩
  | case4 c s hcolon hescape ih =>
    cases n with
    | zero =>
      obtain ⟨hc, hs, -⟩ := h
      obtain ⟨t, rfl⟩ := List.head?_eq_some_iff.1 (List.head?_eq_getElem?.trans hs)
      exact absurd rfl (hcolon t (by simpa using hc))
    | succ n =>
      have hnext : c = '\\' → s.head? ≠ some ':' := by
        intro hc hs
        obtain ⟨t, rfl⟩ := List.head?_eq_some_iff.1 hs
        exact hescape t hc rfl
      obtain ⟨hclosed, hle⟩ := ih ((blockStop_cons hnext).1 h)
      exact ⟨hclosed, Nat.succ_le_succ hle⟩

theorem idStop_of_closed {depth : Nat} (h : (idBody depth r).2 = true) :
    IdStop depth r (idBody depth r).1.length ∧ '\n' ∉ (idBody depth r).1 := by
  fun_induction idBody depth r with
  | case1 => cases h
  | case2 => cases h
  | case3 depth s hnewline ih =>
    obtain ⟨hstop, hline⟩ := ih h
    exact ⟨idStop_opener.2 hstop, by simpa using hline⟩
  | case4 => exact ⟨idStop_zero.2 ⟨rfl, rfl⟩, by simp⟩
  | case5 s depth hnewline hopener ih =>
    obtain ⟨hstop, hline⟩ := ih h
    exact ⟨idStop_closer.2 hstop, by simpa using hline⟩
  | case6 depth c s hnewline hopener hcloser ih =>
    obtain ⟨hstop, hline⟩ := ih h
    exact ⟨(idStop_cons hopener hcloser).2 hstop, by simpa [Ne.symm hnewline] using hline⟩

/-- It goes no further than to any bracket of its line that balances its own. -/
theorem idBody_length_le {depth : Nat} (h : IdStop depth r n) (hline : '\n' ∉ r.take n) :
    (idBody depth r).2 = true ∧ (idBody depth r).1.length ≤ n := by
  fun_induction idBody depth r generalizing n with
  | case1 => simp [IdStop] at h
  | case2 =>
    cases n with
    | zero => simp [IdStop] at h
    | succ n => simp at hline
  | case3 depth s hnewline ih =>
    cases n with
    | zero => simp [IdStop] at h
    | succ n =>
      obtain ⟨hclosed, hle⟩ := ih (idStop_opener.1 h) (by simpa using hline)
      exact ⟨hclosed, Nat.succ_le_succ hle⟩
  | case4 => exact ⟨rfl, Nat.zero_le _⟩
  | case5 s depth hnewline hopener ih =>
    cases n with
    | zero => exact absurd (idStop_zero.1 h).2 (Nat.succ_ne_zero depth)
    | succ n =>
      obtain ⟨hclosed, hle⟩ := ih (idStop_closer.1 h) (by simpa using hline)
      exact ⟨hclosed, Nat.succ_le_succ hle⟩
  | case6 depth c s hnewline hopener hcloser ih =>
    cases n with
    | zero => exact absurd (idStop_zero.1 h).1 hcloser
    | succ n =>
      have hline' : '\n' ∉ s.take n := fun hmem => hline (by simp [hmem])
      obtain ⟨hclosed, hle⟩ := ih ((idStop_cons hopener hcloser).1 h) hline'
      exact ⟨hclosed, Nat.succ_le_succ hle⟩

/-- Without such a bracket it takes its line up to the end. -/
theorem idBody_unclosed {depth : Nat} (h : (idBody depth r).2 = false) :
    (idBody depth r).1 = r.takeWhile (· ≠ '\n') := by
  fun_induction idBody depth r with
  | case1 => rfl
  | case2 => simp
  | case3 depth s hnewline ih => simp [ih h]
  | case4 => cases h
  | case5 s depth hnewline hopener ih => simp [ih h]
  | case6 depth c s hnewline hopener hcloser ih => simp [ih h, hnewline]

end Literal

/-! The same, counted from the start of the text. -/

/-- Two colons stand at `i` behind the mark at `start` that opens a text block, with no backslash in
front of them. -/
def EndsBlock (text : List Char) (start i : Nat) : Prop :=
  start + 2 ≤ i ∧ text[i]? = some ':' ∧ text[i + 1]? = some ':' ∧
    (i = start + 2 ∨ text[i - 1]? ≠ some '\\')

/-- The bracket at `i` closes as many as are opened from the bracket at `start` on. -/
def BalancesId (text : List Char) (start i : Nat) : Prop :=
  start < i ∧ text[i]? = some ']' ∧
    ((text.take (i + 1)).drop start).count ']' = ((text.take (i + 1)).drop start).count '['

variable {u : List Char}

theorem getElem?_length_add (u w : List Char) (n : Nat) : (u ++ w)[u.length + n]? = w[n]? := by
  simp [List.getElem?_append_right]

theorem endsBlock_iff :
    EndsBlock (u ++ ':' :: ':' :: r) u.length (u.length + 2 + n) ↔ BlockStop r n := by
  have hfirst := getElem?_length_add u (':' :: ':' :: r) (n + 2)
  have hsecond := getElem?_length_add u (':' :: ':' :: r) (n + 3)
  have hbefore := getElem?_length_add u (':' :: ':' :: r) (n + 1)
  have hindex : u.length + 2 + n = u.length + (n + 2) := by omega
  rw [EndsBlock, BlockStop, hindex, hfirst, Nat.add_assoc, hsecond]
  cases n with
  | zero => simp
  | succ n => simp [hbefore]

theorem balancesId_iff :
    BalancesId (u ++ '[' :: r) u.length (u.length + 1 + n) ↔ IdStop 0 r n := by
  have hbracket := getElem?_length_add u ('[' :: r) (n + 1)
  have hindex : u.length + 1 + n = u.length + (n + 1) := by omega
  have htaken : ((u ++ '[' :: r).take (u.length + (n + 1) + 1)).drop u.length =
      '[' :: r.take (n + 1) := by
    rw [Nat.add_assoc, List.take_length_add_append, List.drop_left]
    rfl
  rw [BalancesId, IdStop, hindex, hbracket, htaken]
  simp

theorem isLeast_endsBlock (h : (Literal.blockBody r).2 = true) :
    IsLeast {i | EndsBlock (u ++ ':' :: ':' :: r) u.length i}
      (u.length + 2 + (Literal.blockBody r).1.length) := by
  refine ⟨endsBlock_iff.2 (Literal.blockStop_of_closed h), fun i hi => ?_⟩
  obtain ⟨n, rfl⟩ := Nat.exists_eq_add_of_le hi.1
  exact Nat.add_le_add_left (Literal.blockBody_length_le (endsBlock_iff.1 hi)).2 _

theorem closed_of_endsBlock {i : Nat} (h : EndsBlock (u ++ ':' :: ':' :: r) u.length i) :
    (Literal.blockBody r).2 = true := by
  obtain ⟨n, rfl⟩ := Nat.exists_eq_add_of_le h.1
  exact (Literal.blockBody_length_le (endsBlock_iff.1 h)).1

/-- An id with its end ends at the first bracket that balances its own, on the same line. -/
theorem isLeast_balancesId (h : (Literal.idBody 0 r).2 = true) :
    IsLeast {i | BalancesId (u ++ '[' :: r) u.length i}
      (u.length + 1 + (Literal.idBody 0 r).1.length) := by
  obtain ⟨hstop, hline⟩ := Literal.idStop_of_closed h
  refine ⟨balancesId_iff.2 hstop, fun i hi => ?_⟩
  obtain ⟨n, rfl⟩ := Nat.exists_eq_add_of_le hi.1
  refine Nat.add_le_add_left ?_ _
  by_contra hlt
  -- a bracket in front of the end would stand on the same line
  obtain ⟨t, ht⟩ := Literal.idBody_split 0 r
  have hbody : r.take n = (Literal.idBody 0 r).1.take n := by
    conv_lhs => rw [ht]
    rw [List.append_assoc, List.take_append_of_le_length (by omega)]
  have hle := Literal.idBody_length_le (balancesId_iff.1 hi)
    (hbody ▸ fun hmem => hline (List.mem_of_mem_take hmem))
  exact hlt hle.2

theorem take_drop_append (u v w : List Char) :
    ((u ++ (v ++ w)).take (u.length + v.length)).drop u.length = v := by
  rw [List.take_length_add_append, List.take_left, List.drop_left]

theorem take_drop_bracket (u r : List Char) (n : Nat) :
    ((u ++ '[' :: r).take (u.length + 1 + n)).drop u.length = '[' :: r.take n := by
  rw [Nat.add_assoc, Nat.add_comm 1, List.take_length_add_append, List.drop_left]
  rfl

/-- What stands between the marks of a text block, and behind them. -/
theorem exists_of_endsBlock {i : Nat}
    (h : IsLeast {i | EndsBlock (u ++ ':' :: ':' :: r) u.length i} i) : ∃ body rest,
      Literal.blockBody r = (body, true) ∧ r = body ++ [':', ':'] ++ rest ∧
      ((u ++ ':' :: ':' :: r).take i).drop (u.length + 2) = body ∧
      (u ++ ':' :: ':' :: r).drop (i + 2) = rest := by
  have hclosed := closed_of_endsBlock h.1
  obtain ⟨rest, hr⟩ := Literal.blockBody_split r
  obtain rfl := h.unique (isLeast_endsBlock hclosed)
  generalize hbody : (Literal.blockBody r).1 = body at hr
  rw [hclosed, if_pos rfl] at hr
  refine ⟨body, rest, Prod.ext hbody hclosed, hr, ?_, ?_⟩
  · have hslice := take_drop_append (u ++ [':', ':']) body (':' :: ':' :: rest)
    simpa [hr] using hslice
  · have hindex : u.length + 2 + body.length + 2 =
        (u ++ ':' :: ':' :: (body ++ [':', ':'])).length := by
      simp
      omega
    have hsplit : u ++ ':' :: ':' :: r = u ++ ':' :: ':' :: (body ++ [':', ':']) ++ rest := by
      simp [hr]
    rw [hindex, hsplit, List.drop_left]

/-- What stands between the brackets of an id, and behind them. -/
theorem exists_of_balancesId {i : Nat}
    (h : IsLeast {i | BalancesId (u ++ '[' :: r) u.length i} i)
    (hline : '\n' ∉ ((u ++ '[' :: r).take i).drop u.length) : ∃ body rest,
      Literal.idBody 0 r = (body, true) ∧ r = body ++ [']'] ++ rest ∧
      ((u ++ '[' :: r).take i).drop (u.length + 1) = body ∧
      (u ++ '[' :: r).drop (i + 1) = rest := by
  have hclosed : (Literal.idBody 0 r).2 = true := by
    obtain ⟨n, rfl⟩ := Nat.exists_eq_add_of_le h.1.1
    rw [take_drop_bracket] at hline
    exact (Literal.idBody_length_le (balancesId_iff.1 h.1) (by simpa using hline)).1
  obtain ⟨rest, hr⟩ := Literal.idBody_split 0 r
  obtain rfl := h.unique (isLeast_balancesId hclosed)
  generalize hbody : (Literal.idBody 0 r).1 = body at hr
  rw [hclosed, if_pos rfl] at hr
  refine ⟨body, rest, Prod.ext hbody hclosed, hr, ?_, ?_⟩
  · have hslice := take_drop_append (u ++ ['[']) body (']' :: rest)
    simpa [hr] using hslice
  · have hindex : u.length + 1 + body.length + 1 = (u ++ '[' :: (body ++ [']'])).length := by
      simp
      omega
    have hsplit : u ++ '[' :: r = u ++ '[' :: (body ++ [']']) ++ rest := by
      simp [hr]
    rw [hindex, hsplit, List.drop_left]

/-- An id with its end has no line end in it. -/
theorem notMem_of_closed (h : (Literal.idBody 0 r).2 = true) :
    '\n' ∉ ((u ++ '[' :: r).take (u.length + 1 + (Literal.idBody 0 r).1.length)).drop u.length := by
  obtain ⟨rest, hr⟩ := Literal.idBody_split 0 r
  have hline := (Literal.idStop_of_closed h).2
  have hbody : r.take (Literal.idBody 0 r).1.length = (Literal.idBody 0 r).1 := by
    conv_lhs => arg 2; rw [hr]
    rw [List.append_assoc, List.take_left]
  rw [take_drop_bracket, hbody]
  simpa using hline

theorem blockBody_of_not_endsBlock (h : ∀ i, ¬ EndsBlock (u ++ ':' :: ':' :: r) u.length i) :
    Literal.blockBody r = (r, false) := by
  have hopen : (Literal.blockBody r).2 = false := by
    by_contra hclosed
    exact h _ (isLeast_endsBlock (Bool.of_not_eq_false hclosed)).1
  simpa using Literal.blockBody_open hopen (u := []) (by simp [AreNewlines])

theorem idBody_of_newline
    (h : ∀ i, IsLeast {i | BalancesId (u ++ '[' :: r) u.length i} i →
      '\n' ∈ ((u ++ '[' :: r).take i).drop u.length) :
    Literal.idBody 0 r = (r.takeWhile (· ≠ '\n'), false) := by
  have hopen : (Literal.idBody 0 r).2 = false := by
    by_contra hclosed
    have hclosed := Bool.of_not_eq_false hclosed
    exact notMem_of_closed hclosed (h _ (isLeast_balancesId hclosed))
  exact Prod.ext (Literal.idBody_unclosed hopen) hopen

/-! The first pass. -/

/-- Behind the pieces `us` the first pass makes one token of the piece `x`, of kind `k` and with the
text `body`, and goes on with `rest`. Of what it reports, `ds` alone stands in the text of `x`. -/
structure Takes (text path : String) (o : Options) (us : List Piece) (x : Piece) (k : Kind)
    (body rest : List Char) (ds : List Diagnostic) : Prop where
  resumes : Piece.Reaches text.toList (us ++ [x]) (.line false) rest
  tokens : (Stream.scan text path o).tokens = Piece.tokens {} us ++
    ⟨k, String.ofList body, .ofText (Piece.spell us)⟩ ::
      Piece.tokens (.ofText (Piece.spell (us ++ [x]))) (Piece.cut (.line false) 0 rest)
  reported : (Stream.scan text path o).diagnostics.filter
    (·.Within (.ofText (Piece.spell us)) (.ofText (Piece.spell (us ++ [x])))) = ds

variable {text path : String} {o : Options} {us : List Piece} {start : Bool} {x : Piece} {k : Kind}
  {body rest s : List Char}

theorem ofText_spell_concat (us : List Piece) (x : Piece) :
    Position.ofText (Piece.spell (us ++ [x])) =
      (Position.ofText (Piece.spell us)).after x.spelling := by
  rw [← Position.after_eq_ofText, ← Position.after_eq_ofText, Piece.spell_append,
    Position.after_append, Piece.spell_cons, Piece.spell_nil, List.append_nil]

/-- A piece that is read where scanning comes to is taken. -/
theorem takes_of_read (path : String) (o : Options)
    (h : Piece.Reaches text.toList us (.line start) (c :: s))
    (hread : Piece.read (.line start) c s = (x, .line false)) (hs : c :: s = x.spelling ++ rest)
    (hx : x.content? = some (k, body)) :
    Takes text path o us x k body rest (Stream.diagnose path
      ((x.complaint? (.ofText (Piece.spell us))).toList.filter fun c => o.reports c.2)) := by
  have hbehind := h.step rfl hread hs
  have htoken : x.token? (.ofText (Piece.spell us)) =
      some ⟨k, String.ofList body, .ofText (Piece.spell us)⟩ := by
    rw [Piece.token?, hx]
    rfl
  refine ⟨hbehind, ?_, ?_⟩
  · rw [ofText_spell_concat, scan_tokens_eq hbehind.ofText_eq, htoken]
    rfl
  · rw [ofText_spell_concat]
    exact filter_scan_within hbehind.ofText_eq path o

theorem diagnose_unclosed (e : Enclosure) (closed : Bool) (p : Position) :
    Stream.diagnose path ((Piece.unclosed e closed p).toList.filter fun c => o.reports c.2) =
      if closed then [] else [(Complaint.unterminated e).diagnostic path p] := by
  cases closed with
  | true => rfl
  | false => simp [Piece.unclosed, Stream.diagnose, Options.reports]

theorem textBlock_takes (path : String) (o : Options)
    (h : Piece.Reaches text.toList us (.line start) (':' :: ':' :: r))
    {closed : Bool} (hbody : Literal.blockBody r = (body, closed))
    (hr : r = body ++ Piece.ending closed [':', ':'] ++ rest) :
    Takes text path o us (.textBlock body closed) .textBlock body rest (if closed then [] else
      [⟨.error, .scan, "expected a terminating ::", .ofText (Piece.spell us), path⟩]) := by
  have hread : Piece.read (.line start) ':' (':' :: r) = (.textBlock body closed, .line false) := by
    simp [Piece.read, Piece.lexeme, Lexeme.first?, hbody]
  have htakes := takes_of_read path o h hread (by rw [hr]; rfl) rfl
  rwa [show (Piece.textBlock body closed).complaint? _ = Piece.unclosed .textBlock closed _ from rfl,
    diagnose_unclosed] at htakes

theorem id_takes (path : String) (o : Options)
    (h : Piece.Reaches text.toList us (.line start) ('[' :: r))
    {closed : Bool} (hbody : Literal.idBody 0 r = (body, closed))
    (hr : r = body ++ Piece.ending closed [']'] ++ rest) :
    Takes text path o us (.id body closed) .id body rest (if closed then [] else
      [⟨.error, .scan, "expected a terminating ]", .ofText (Piece.spell us), path⟩]) := by
  have hread : Piece.read (.line start) '[' r = (.id body closed, .line false) := by
    simp [Piece.read, Piece.lexeme, Lexeme.first?, hbody]
  have htakes := takes_of_read path o h hread (by rw [hr]; rfl) rfl
  rwa [show (Piece.id body closed).complaint? _ = Piece.unclosed .id closed _ from rfl,
    diagnose_unclosed] at htakes

/-- Every token was made where scanning came to. -/
theorem exists_of_mem_scan {t : Token} (ht : t ∈ (Stream.scan text path o).tokens) :
    ∃ us m c s x n, t.position = .ofText (Piece.spell us) ∧
      Piece.Reaches text.toList us m (c :: s) ∧ Piece.Reads m c s x n ∧
      x.content? = some (t.kind, t.text.toList) := by
  obtain ⟨front, back, hsplit⟩ := List.append_of_mem ht
  obtain ⟨us, x, vs, hpieces, htoken, -⟩ := Piece.exists_of_tokens hsplit
  obtain ⟨m, -, hcut⟩ :=
    Piece.cut_induction (P := fun _ _ _ => True) trivial (fun _ _ _ => trivial) hpieces
  obtain ⟨c, s, n, hrest, hread, -⟩ := Piece.read_of_cons_cut hcut
  obtain ⟨hcontent, hplace⟩ := Piece.content_of_token? htoken
  refine ⟨us, m, c, s, x, n, ?_, ?_, hread, hcontent⟩
  · rw [← hplace, Position.after_eq_ofText]
  · rw [Piece.Reaches, ← hrest, hcut, ← hpieces]

/-- Text blocks and ids. Where a text block opens, it holds the characters up to the first two
colons that no backslash stands in front of, and scanning goes on behind them; without such colons
it holds the rest of the text, and that is reported where it opens. Where an id opens, it holds the
characters up to the first bracket that balances its own, if its line goes on to there, and scanning
goes on behind the bracket; if not it holds the rest of its line, and that is reported. Nothing else
is reported of either, and there are no other tokens of these kinds. -/
theorem textBlocks_ids_end (text path : String) (o : Options) :
    (∀ (us : List Piece) (start : Bool) (r : List Char),
      Piece.Reaches text.toList us (.line start) (':' :: ':' :: r) →
      let s := (Piece.spell us).length
      (∀ i, IsLeast {i | EndsBlock text.toList s i} i →
        let body := (text.toList.take i).drop (s + 2)
        Takes text path o us (.textBlock body true) .textBlock body (text.toList.drop (i + 2)) []) ∧
      ((∀ i, ¬ EndsBlock text.toList s i) →
        let body := text.toList.drop (s + 2)
        Takes text path o us (.textBlock body false) .textBlock body []
          [⟨.error, .scan, "expected a terminating ::", .ofText (Piece.spell us), path⟩])) ∧
    (∀ (us : List Piece) (start : Bool) (r : List Char),
      Piece.Reaches text.toList us (.line start) ('[' :: r) →
      let s := (Piece.spell us).length
      (∀ i, IsLeast {i | BalancesId text.toList s i} i →
        '\n' ∉ (text.toList.take i).drop s →
        let body := (text.toList.take i).drop (s + 1)
        Takes text path o us (.id body true) .id body (text.toList.drop (i + 1)) []) ∧
      ((∀ i, IsLeast {i | BalancesId text.toList s i} i → '\n' ∈ (text.toList.take i).drop s) →
        let line := (text.toList.drop (s + 1)).takeWhile (· ≠ '\n')
        Takes text path o us (.id line false) .id line
          ((text.toList.drop (s + 1)).dropWhile (· ≠ '\n'))
          [⟨.error, .scan, "expected a terminating ]", .ofText (Piece.spell us), path⟩])) ∧
    ∀ t ∈ (Stream.scan text path o).tokens,
      (t.kind = .textBlock → ∃ us start r, t.position = .ofText (Piece.spell us) ∧
        Piece.Reaches text.toList us (.line start) (':' :: ':' :: r)) ∧
      (t.kind = .id → ∃ us start r, t.position = .ofText (Piece.spell us) ∧
        Piece.Reaches text.toList us (.line start) ('[' :: r)) := by
  refine ⟨?_, ?_, ?_⟩
  · intro us start r h s
    have htext := h.text_eq
    constructor
    · intro i hi body
      rw [htext] at hi
      obtain ⟨content, rest, hread, hr, hbody, hrest⟩ := exists_of_endsBlock hi
      have htakes := textBlock_takes path o h hread hr
      rw [← htext] at hbody hrest
      rwa [← hbody, ← hrest] at htakes
    · intro hnone body
      have hbody : body = r := by simp [body, s, htext]
      rw [htext] at hnone
      rw [hbody]
      exact textBlock_takes path o h (blockBody_of_not_endsBlock hnone) (by simp [Piece.ending])
  · intro us start r h s
    have htext := h.text_eq
    constructor
    · intro i hi hline body
      rw [htext] at hi hline
      obtain ⟨content, rest, hread, hr, hbody, hrest⟩ := exists_of_balancesId hi hline
      have htakes := id_takes path o h hread hr
      rw [← htext] at hbody hrest
      rwa [← hbody, ← hrest] at htakes
    · intro hnone line
      have hdrop : text.toList.drop (s + 1) = r := by simp [s, htext]
      have hline : line = r.takeWhile (· ≠ '\n') := by simp only [line, hdrop]
      rw [htext] at hnone
      rw [hline, hdrop]
      exact id_takes path o h (idBody_of_newline hnone) (by simp [Piece.ending])
  · intro t ht
    obtain ⟨us, m, c, s, x, n, hplace, hreaches, hread, hcontent⟩ := exists_of_mem_scan ht
    constructor
    · intro hkind
      rw [hkind] at hcontent
      cases hread with
      | textBlock => exact ⟨us, _, _, hplace, hreaches⟩
      | _ => cases hcontent
    · intro hkind
      rw [hkind] at hcontent
      cases hread with
      | id => exact ⟨us, _, _, hplace, hreaches⟩
      | _ => cases hcontent

/-- A backslash in front of three colons hides the first of them only. The id behind the text block
has no bracket that balances its own. -/
theorem textBlocks_ids_end_backslash :
    let text := "::\\:::[a[b\n"
    let block := Piece.textBlock ['\\', ':'] true
    IsLeast {i | EndsBlock text.toList 0 i} 4 ∧ (∀ i, ¬ BalancesId text.toList 6 i) ∧
      Takes text "p" {} [] block .textBlock ['\\', ':'] ['[', 'a', '[', 'b', '\n'] [] ∧
      Takes text "p" {} [block] (.id ['a', '[', 'b'] false) .id ['a', '[', 'b'] ['\n']
        [⟨.error, .scan, "expected a terminating ]", ⟨6, 0, 6⟩, "p"⟩] := by
  intro text block
  let behind := ['\\', ':', ':', ':', '[', 'a', '[', 'b', '\n']
  have htext : text.toList = ':' :: ':' :: behind := by decide
  have hblock : IsLeast {i | EndsBlock text.toList 0 i} 4 := by
    rw [htext]
    exact isLeast_endsBlock (u := []) (r := behind) rfl
  have hid : ∀ i, ¬ BalancesId text.toList 6 i := by
    intro i h
    exact absurd (List.mem_of_getElem? h.2.1) (by decide)
  obtain ⟨hblocks, hids, -⟩ := textBlocks_ids_end text "p" {}
  have hstart : Piece.Reaches text.toList [] (.line true) (':' :: ':' :: behind) :=
    congrArg Piece.ofText htext
  have htakes := (hblocks [] true behind hstart).1 4 hblock
  simp only [htext] at htakes
  have htakes' := (hids [block] false _ htakes.resumes).2 fun i hi => absurd hi.1 (hid i)
  simp only [htext] at htakes'
  exact ⟨hblock, hid, htakes, htakes'⟩

end SectionLexer
