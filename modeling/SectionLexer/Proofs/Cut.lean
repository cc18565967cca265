import Mathlib.Data.List.Induction
import SectionLexer.Document
import SectionLexer.Piece.OfText

/-! Where the pieces of a text come from: what each kind of piece is read from and what may stand
behind it, and that no two pieces start at one place. -/
namespace SectionLexer

theorem byteLength_pos {s : List Char} (h : s ≠ []) : 0 < byteLength s := by
  cases s with
  | nil => contradiction
  | cons c s =>
    have := c.utf8Size_pos
    rw [byteLength_cons]
    omega

/-- Equally long starts of one text are the same. -/
theorem append_inj_of_byteLength {s t s' t' : List Char} (h : s ++ t = s' ++ t')
    (hlength : byteLength s = byteLength s') : s = s' := by
  rcases List.append_eq_append_iff.1 h with ⟨u, rfl, -⟩ | ⟨u, rfl, -⟩
  · rcases u with _ | ⟨c, u⟩
    · simp
    · have := byteLength_pos (List.cons_ne_nil c u)
      rw [byteLength_append] at hlength
      omega
  · rcases u with _ | ⟨c, u⟩
    · simp
    · have := byteLength_pos (List.cons_ne_nil c u)
      rw [byteLength_append] at hlength
      omega

namespace Piece

variable {m : Mode} {s : List Char} {x : Piece} {us vs : List Piece}

/-- The piece that is read where a text goes on with `c` and then `s`, and what may stand behind
it. -/
inductive Reads : Mode → Char → List Char → Piece → Mode → Prop
  | name {start : Bool} {c : Char} {s w : List Char} :
    Lexeme.first? (c :: s) = some (.name, w) → Reads (.line start) c s (.name w) (.line false)
  | colon {start : Bool} {s : List Char} :
    s.head? ≠ some ':' → Reads (.line start) ':' s .colon (.argument true)
  | dotSpace {start : Bool} {s : List Char} : Reads (.line start) '.' (' ' :: s) .dotSpace
      (if Lexeme.headerAhead s then .line false else .argument true)
  | textBlock {start : Bool} {s : List Char} : Reads (.line start) ':' (':' :: s)
      (.textBlock (Literal.blockBody s).1 (Literal.blockBody s).2) (.line false)
  | id {start : Bool} {s : List Char} : Reads (.line start) '[' s
      (.id (Literal.idBody 0 s).1 (Literal.idBody 0 s).2) (.line false)
  | newline {m : Mode} {s : List Char} : Reads m '\n' s .newline (.line true)
  | space {s : List Char} : blankAhead s = false → Reads (.line true) ' ' s .space (.line true)
  | blank {start : Bool} {s : List Char} :
    (start = true → blankAhead s = true) → Reads (.line start) ' ' s (.gap false) (.line start)
  | unrecognized {start : Bool} {c : Char} {s : List Char} :
    Lexeme.first? (c :: s) = none → Reads (.line start) c s (.unrecognized c) (.line false)
  | gapBefore {fresh : Bool} {s : List Char} :
    Reads (.argument fresh) ' ' s (.gap (fresh && blankAhead s)) (.argument false)
  | gapBehind {fresh : Bool} {s : List Char} :
    Reads (.separator fresh) ' ' s (.gap (fresh && blankAhead s)) (.separator false)
  | missing {fresh : Bool} {s : List Char} :
    Reads (.argument fresh) ',' s (.comma true) (.argument true)
  | comma {fresh : Bool} {s : List Char} :
    Reads (.separator fresh) ',' s (.comma false) (.argument true)
  | text {fresh : Bool} {s : List Char} : Reads (.argument fresh) '"' s
      (.text (Literal.rawText s).1 (Literal.rawText s).2) (.separator true)
  | formulation {fresh : Bool} {s : List Char} (q : Quote) : Reads (.argument fresh) q.char s
      (.formulation q (Literal.formulationBody q s).1 (Literal.formulationBody q s).2)
      (.separator true)
  | plain {fresh : Bool} {c : Char} {s : List Char} : c ∉ plainBarriers →
    Reads (.argument fresh) c s (.plain (Literal.plainText [] (c :: s))) (.separator true)
  | skipped {fresh : Bool} {c : Char} {s : List Char} : c ≠ ' ' ∧ c ≠ ',' ∧ c ≠ '\n' →
    Reads (.separator fresh) c s (.skipped (c :: s.takeWhile (· ≠ '\n'))) (.line false)

theorem reads_lexeme (start : Bool) (c : Char) (s : List Char) :
    Reads (.line start) c s (lexeme start c s).1 (lexeme start c s).2 := by
  unfold lexeme
  split
  case h_1 w h => exact .name h
  case h_8 h => exact .unrecognized h
  all_goals
    rename_i h
    obtain ⟨rfl, t, ht⟩ := Lexeme.first?_eq_mark h (by decide)
    cases ht
  · refine .colon fun hs => ?_
    obtain ⟨t, rfl⟩ := List.head?_eq_some_iff.1 hs
    cases h
  · exact .dotSpace
  · exact .textBlock
  · exact .id
  · exact .newline
  · simp only [List.append_eq, List.nil_append]
    split
    · rename_i hspace
      obtain ⟨rfl, hblank⟩ : start = true ∧ blankAhead t = false := by simpa using hspace
      exact .space hblank
    · rename_i hspace
      exact .blank (by simpa using hspace)

theorem reads_argument (fresh : Bool) {c : Char} (s : List Char)
    (hc : c ≠ ' ' ∧ c ≠ ',' ∧ c ≠ '\n') :
    Reads (.argument fresh) c s (argument c s) (.separator true) := by
  unfold argument
  split
  · subst c
    exact .text
  · rename_i hquote
    split
    · rename_i q hq
      obtain rfl := Quote.eq_char_of_ofChar? hq
      exact .formulation q
    · rename_i hnone
      refine .plain fun hbarrier => ?_
      simp only [plainBarriers, List.mem_cons, List.not_mem_nil, or_false] at hbarrier
      rcases hbarrier with h | h | h | h | rfl | rfl
      · exact hc.1 h
      · exact hc.2.1 h
      · exact hc.2.2 h
      · exact hquote h
      · simp [Quote.ofChar?_char] at hnone
      · simp [Quote.ofChar?_char] at hnone

/-- One step of reading. -/
theorem reads_read (m : Mode) (c : Char) (s : List Char) :
    Reads m c s (read m c s).1 (read m c s).2 := by
  cases m with
  | line start => exact reads_lexeme start c s
  | argument fresh =>
    simp only [read]
    split
    · subst c
      exact .newline
    · split
      · subst c
        exact .gapBefore
      · split
        · subst c
          exact .missing
        · rename_i hn hs hc
          exact reads_argument fresh s ⟨hs, hc, hn⟩
  | separator fresh =>
    simp only [read]
    split
    · subst c
      exact .newline
    · split
      · subst c
        exact .gapBehind
      · split
        · subst c
          exact .comma
        · rename_i hn hs hc
          exact .skipped ⟨hs, hc, hn⟩

/-- What is left out of a line ends with the line. -/
theorem skipped_head? {c : Char} {t : List Char}
    (h : c :: s = (skipped (c :: s.takeWhile (· ≠ '\n'))).spelling ++ t) :
    ∀ d ∈ t.head?, d = '\n' := by
  have hs : s.takeWhile (· ≠ '\n') ++ s.dropWhile (· ≠ '\n') = s :=
    List.takeWhile_append_dropWhile
  obtain rfl : t = s.dropWhile (· ≠ '\n') :=
    List.append_cancel_left ((List.cons.inj h).2.symm.trans hs.symm)
  intro d hd
  have hhead := List.head?_dropWhile_not (· ≠ '\n') s
  rw [hd] at hhead
  simpa using hhead

/-- A piece that is read, then the pieces of what its spelling leaves. -/
theorem cut_of_read {n : Mode} {c : Char} {t : List Char} (hr : read m c s = (x, n))
    (hs : c :: s = x.spelling ++ t) : cut m 0 (c :: s) = x :: cut n 0 t := by
  have hdrop : (c :: s).drop x.spelling.length = t := by
    rw [hs]
    exact List.drop_left
  rw [cut_cons, hr, hdrop]

/-- The first piece is read where what is left is spelled by it and the pieces behind it. -/
theorem read_of_cons_cut (h : cut m 0 s = x :: vs) : ∃ c t n, s = c :: t ∧ Reads m c t x n ∧
    s = x.spelling ++ spell vs ∧ vs = cut n 0 (spell vs) := by
  cases s with
  | nil => cases h
  | cons c t =>
    have hspell := spell_cut m (c :: t)
    rw [h, spell_cons] at hspell
    rw [cut_cons] at h
    obtain ⟨rfl, hvs⟩ := List.cons.inj h
    refine ⟨c, t, _, rfl, reads_read m c t, hspell.symm, ?_⟩
    rw [← hvs, spell_cut]

/-- What holds at the start of a text, and is kept by reading a piece, holds wherever scanning comes
to. -/
theorem cut_induction {P : List Piece → Mode → List Char → Prop} (hstart : P [] m s)
    (hstep : ∀ {us m c t x n r}, P us m (c :: t) → Reads m c t x n → c :: t = x.spelling ++ r →
      P (us ++ [x]) n r)
    (h : cut m 0 s = us ++ vs) : ∃ n, P us n (spell vs) ∧ cut n 0 (spell vs) = vs := by
  induction us using List.reverseRecOn generalizing vs with
  | nil =>
    rw [List.nil_append] at h
    rw [← h, spell_cut]
    exact ⟨m, hstart, rfl⟩
  | append_singleton us x ih =>
    obtain ⟨n, hP, hcut⟩ := ih (by simpa using h)
    obtain ⟨c, t, n', hspell, hread, hsplit, hvs⟩ := read_of_cons_cut hcut
    rw [hspell] at hP hsplit
    exact ⟨n', hstep hP hread hsplit, hvs.symm⟩

/-- Every piece was read where what is left is spelled by it and the pieces behind it. -/
theorem read_of_cut (h : cut m 0 s = us ++ x :: vs) :
    ∃ m' c t n, Reads m' c t x n ∧ c :: t = x.spelling ++ spell vs ∧
      vs = cut n 0 (spell vs) := by
  obtain ⟨m', -, hcut⟩ :=
    cut_induction (P := fun _ _ _ => True) trivial (fun _ _ _ => trivial) h
  obtain ⟨c, t, n, hspell, hread, hsplit, hvs⟩ := read_of_cons_cut hcut
  exact ⟨m', c, t, n, hread, hspell.symm.trans hsplit, hvs⟩

theorem Reads.spelling_ne_nil {n : Mode} {c : Char} (h : Reads m c s x n) : x.spelling ≠ [] := by
  cases h with
  | name hname =>
    obtain ⟨d, t, -, -, rfl⟩ := Lexeme.first?_eq_name hname
    exact List.cons_ne_nil _ _
  | plain hc =>
    simp only [plainBarriers, List.mem_cons, not_or] at hc
    simp [spelling, Literal.plainText, hc]
  | _ => exact List.cons_ne_nil _ _

theorem spelling_ne_nil_of_cut (h : cut m 0 s = us ++ x :: vs) : x.spelling ≠ [] := by
  obtain ⟨m', c, t, n, hread, -⟩ := read_of_cut h
  exact hread.spelling_ne_nil

/-- Pieces that start behind equally long texts are the same piece. -/
theorem start_unique {us' vs' : List Piece} {y : Piece} (hx : x.spelling ≠ [])
    (hy : y.spelling ≠ []) (h : us ++ x :: vs = us' ++ y :: vs')
    (hstart : byteLength (spell us) = byteLength (spell us')) : us = us' ∧ x = y ∧ vs = vs' := by
  rcases List.append_eq_append_iff.1 h with ⟨ws, rfl, hws⟩ | ⟨ws, rfl, hws⟩
  · rcases ws with _ | ⟨w, ws⟩
    · obtain ⟨rfl, rfl⟩ := List.cons.inj hws
      simp
    · obtain ⟨rfl, -⟩ := List.cons.inj hws
      have := byteLength_pos hx
      rw [spell_append, spell_cons, byteLength_append, byteLength_append] at hstart
      omega
  · rcases ws with _ | ⟨w, ws⟩
    · obtain ⟨rfl, rfl⟩ := List.cons.inj hws
      simp
    · obtain ⟨rfl, -⟩ := List.cons.inj hws
      have := byteLength_pos hy
      rw [spell_append, spell_cons, byteLength_append, byteLength_append] at hstart
      omega

/-- A placed piece stands behind what the pieces in front of it spell. -/
theorem mem_place {p q : Position} {xs : List Piece} (h : (q, x) ∈ place p xs) :
    ∃ us vs, xs = us ++ x :: vs ∧ q = p.after (spell us) := by
  induction xs generalizing p with
  | nil => cases h
  | cons y ys ih =>
    rcases List.mem_cons.1 h with h | h
    · obtain ⟨rfl, rfl⟩ := Prod.mk.inj h
      exact ⟨[], ys, rfl, rfl⟩
    · obtain ⟨us, vs, rfl, rfl⟩ := ih h
      exact ⟨y :: us, vs, rfl, by simp⟩

theorem tokens_cons (p : Position) (x : Piece) (xs : List Piece) :
    tokens p (x :: xs) = (x.token? p).toList ++ tokens (p.after x.spelling) xs := by
  cases h : x.token? p <;> simp [tokens, h]

theorem complaints_cons (p : Position) (x : Piece) (xs : List Piece) :
    complaints p (x :: xs) = (x.complaint? p).toList ++ complaints (p.after x.spelling) xs := by
  cases h : x.complaint? p <;> simp [complaints, h]

/-- A token tells what its piece holds, and where the piece starts. -/
theorem content_of_token? {p : Position} {t : Token} (h : x.token? p = some t) :
    x.content? = some (t.kind, t.text.toList) ∧ p = t.position := by
  obtain ⟨⟨k, w⟩, hcontent, rfl⟩ := Option.map_eq_some_iff.1 h
  exact ⟨by simpa using hcontent, rfl⟩

/-- Where tokens come apart, so do the pieces that yield them. -/
theorem exists_of_tokens {p : Position} {xs : List Piece} {front back : List Token} {t : Token}
    (h : tokens p xs = front ++ t :: back) :
    ∃ us x vs, xs = us ++ x :: vs ∧ x.token? (p.after (spell us)) = some t ∧
      front = tokens p us ∧ back = tokens ((p.after (spell us)).after x.spelling) vs := by
  induction xs generalizing p front with
  | nil => simp [tokens] at h
  | cons y ys ih =>
    rw [tokens_cons] at h
    have hskip {front' : List Token} (hfront : front = (y.token? p).toList ++ front')
        (hrest : tokens (p.after y.spelling) ys = front' ++ t :: back) :
        ∃ us x vs, y :: ys = us ++ x :: vs ∧ x.token? (p.after (spell us)) = some t ∧
          front = tokens p us ∧ back = tokens ((p.after (spell us)).after x.spelling) vs := by
      obtain ⟨us, x, vs, rfl, hx, rfl, hback⟩ := ih hrest
      exact ⟨y :: us, x, vs, rfl, by simpa using hx, by rw [hfront, tokens_cons],
        by simpa using hback⟩
    cases hy : y.token? p with
    | none =>
      rw [hy] at h hskip
      exact hskip rfl h
    | some u =>
      rw [hy] at h hskip
      cases front with
      | nil =>
        obtain ⟨rfl, hback⟩ := List.cons.inj h
        exact ⟨[], y, ys, rfl, hy, rfl, hback.symm⟩
      | cons v front =>
        obtain ⟨rfl, hrest⟩ := List.cons.inj h
        exact hskip rfl hrest

theorem mem_complaints_of_cut {c : Position × Complaint} (h : cut m 0 s = us ++ x :: vs)
    (p : Position) (hc : x.complaint? (p.after (spell us)) = some c) :
    c ∈ complaints p (cut m 0 s) := by
  rw [h, complaints_append]
  exact List.mem_append_right _ (List.mem_filterMap.2 ⟨_, List.mem_cons_self, hc⟩)

end Piece

end SectionLexer
