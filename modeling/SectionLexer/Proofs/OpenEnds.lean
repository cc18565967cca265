import SectionLexer.Proofs.Cut
import SectionLexer.Proofs.TextEnds

/-! Where a text comes apart: at every line end, unless a literal is open there. -/
namespace SectionLexer

variable {s t u : List Char} {m : Mode} {c : Char}

theorem takeWhile_newline {p : Char → Bool} (hp : p '\n' = false) (s t : List Char) :
    (s ++ '\n' :: t).takeWhile p = s.takeWhile p := by
  induction s with
  | nil => simp [hp]
  | cons c s ih => simp [List.takeWhile_cons, ih]

theorem blankAhead_newline (s t : List Char) : blankAhead (s ++ '\n' :: t) = blankAhead s := by
  induction s with
  | nil => rfl
  | cons c s ih =>
    by_cases hc : c = ' '
    · simpa [blankAhead, hc] using ih
    · simp [blankAhead, hc]

namespace Lexeme

theorem isNameCharacter_newline : isNameCharacter '\n' = false := by decide +kernel

/-- Without a mark at its start, a text starts with a name or with nothing. -/
theorem first?_unmarked (hcolon : c ≠ ':') (hdot : c = '.' → ∀ t, s ≠ ' ' :: t)
    (hbracket : c ≠ '[') (hnewline : c ≠ '\n') (hspace : c ≠ ' ') :
    first? (c :: s) =
      if isLetter c then some (name, c :: s.takeWhile isNameCharacter) else none :=
  first?.eq_8 c s (fun _ hc => absurd hc hcolon) hcolon (fun t hc => hdot hc t) hbracket hnewline
    hspace

/-- No lexeme but a line end reaches over one. -/
theorem first?_newline (hs : s ≠ []) (t : List Char) : first? (s ++ '\n' :: t) = first? s := by
  fun_cases first? s with
  | case1 => contradiction
  | case2 | case4 | case5 | case6 | case7 => rfl
  | case3 s hcolon =>
    exact first?.eq_3 _ (append_ne_cons hcolon fun _ => by simp)
  | case8 c s _ hcolon hdot hbracket hnewline hspace hl
  | case9 c s _ hcolon hdot hbracket hnewline hspace hl =>
    have hnext : c = '.' → ∀ u, s ++ '\n' :: t ≠ ' ' :: u := fun hc =>
      append_ne_cons (fun u => hdot u hc) fun _ => by simp
    rw [List.cons_append, first?_unmarked hcolon hnext hbracket hnewline hspace]
    simp [hl, takeWhile_newline isNameCharacter_newline]

theorem headerAhead_newline (s t : List Char) : headerAhead (s ++ '\n' :: t) = headerAhead s := by
  rcases s with _ | ⟨c, s⟩
  · rfl
  · unfold headerAhead
    rw [first?_newline (List.cons_ne_nil c s)]
    split
    · rename_i w hw
      obtain ⟨_, _, hs, _, hw⟩ := first?_eq_name hw
      have hle : w.length ≤ (c :: s).length := by
        rw [hs, hw, List.length_cons, List.length_cons]
        exact Nat.succ_le_succ (List.takeWhile_prefix _).length_le
      rw [List.drop_append_of_le_length hle]
      cases (c :: s).drop w.length with
      | nil => rfl
      | cons d u => rw [first?_newline (List.cons_ne_nil d u)]
    · rfl

end Lexeme

namespace Piece

/-- A literal that lacks its end, and that a line end does not end either. -/
def IsOpen : Piece → Prop
  | text _ closed | formulation _ _ closed | textBlock _ closed => closed = false
  | plain s => Bracket.openAfter s ≠ []
  | _ => False

instance : DecidablePred IsOpen
  | text _ closed | formulation _ _ closed | textBlock _ closed =>
    inferInstanceAs (Decidable (closed = false))
  | plain s => inferInstanceAs (Decidable (Bracket.openAfter s ≠ []))
  | name _ | colon | dotSpace | newline | space | comma _ | id _ _ | gap _ | unrecognized _
  | skipped _ => inferInstanceAs (Decidable False)

/-- An open literal that goes on. -/
def grow (u : List Char) : Piece → Piece
  | text raw closed => text (raw ++ u) closed
  | formulation q body closed => formulation q (body ++ u) closed
  | textBlock body closed => textBlock (body ++ u) closed
  | plain s => plain (s ++ u)
  | x => x

/-! What is not open is read as if the text ended with its line. -/

theorem argument_closed (h : ¬ (argument c s).IsOpen) (t : List Char) :
    argument c (s ++ '\n' :: t) = argument c s := by
  revert h
  unfold argument
  split
  · intro h
    rw [Literal.rawText_closed (by simpa [IsOpen] using h)]
  · split
    · intro h
      rw [Literal.formulationBody_closed (by simpa [IsOpen] using h)]
    · intro h
      have hbalanced : (Literal.plainText [] (c :: s)).foldl Bracket.track [] = [] := by
        simpa [IsOpen, Bracket.openAfter] using h
      rw [← List.cons_append, Literal.plainText_newline hbalanced]

theorem lexeme_closed {start : Bool} (h : ¬ (lexeme start c s).1.IsOpen) (t : List Char) :
    lexeme start c (s ++ '\n' :: t) = lexeme start c s := by
  have hfirst := Lexeme.first?_newline (List.cons_ne_nil c s) t
  revert h
  unfold lexeme
  rw [← List.cons_append, hfirst]
  split
  case h_3 hdot =>
    obtain ⟨rfl, u, hu⟩ := Lexeme.first?_eq_mark hdot (by decide)
    cases hu
    simp [Lexeme.headerAhead_newline]
  case h_4 hblock =>
    obtain ⟨rfl, u, hu⟩ := Lexeme.first?_eq_mark hblock (by decide)
    cases hu
    intro h
    have hbody := Literal.blockBody_closed (s := u) (by simpa [IsOpen] using h) ('\n' :: t)
    simp [hbody]
  case h_5 => simp [Literal.idBody_newline]
  case h_7 => simp [blankAhead_newline]
  all_goals exact fun _ => rfl

theorem read_closed (h : ¬ (read m c s).1.IsOpen) (t : List Char) :
    read m c (s ++ '\n' :: t) = read m c s := by
  cases m with
  | line start => exact lexeme_closed h t
  | argument fresh =>
    simp only [read, blankAhead_newline] at h ⊢
    split
    · rfl
    · rename_i hn
      split
      · rfl
      · rename_i hs
        split
        · rfl
        · rename_i hc
          rw [if_neg hn, if_neg hs, if_neg hc] at h
          rw [argument_closed h]
  | separator fresh =>
    have hrest := takeWhile_newline (p := (· ≠ '\n')) (by simp) s t
    simp only [read, blankAhead_newline, hrest]

/-! What is open takes in all that is left, and all line ends behind that. -/

theorem argument_open (h : (argument c s).IsOpen) (hu : AreNewlines u) :
    argument c (s ++ u) = (argument c s).grow u ∧ (argument c s).spelling = c :: s := by
  revert h
  unfold argument
  split
  · rename_i hc
    intro h
    have hopen : (Literal.rawText s).2 = false := h
    have hall : Literal.rawText s = (s, false) := by
      simpa using Literal.rawText_open (u := []) hopen (by simp [AreNewlines])
    rw [Literal.rawText_open hopen hu, hall]
    simp [grow, spelling, ending, hc]
  · split
    · rename_i q hq
      obtain rfl := Quote.eq_char_of_ofChar? hq
      intro h
      have hopen : (Literal.formulationBody q s).2 = false := h
      have hall : Literal.formulationBody q s = (s, false) := by
        simpa using Literal.formulationBody_open (u := []) hopen (by simp [AreNewlines])
      rw [Literal.formulationBody_open hopen hu, hall]
      simp [grow, spelling, ending]
    · intro h
      have hall : Literal.plainText [] (c :: s) = c :: s := by
        simpa using Literal.plainText_open (u := []) h (by simp [AreNewlines])
      rw [← List.cons_append, Literal.plainText_open h hu, hall]
      exact ⟨rfl, rfl⟩

theorem lexeme_open {start : Bool} (h : (lexeme start c s).1.IsOpen) (hu : AreNewlines u) :
    lexeme start c (s ++ u) = ((lexeme start c s).1.grow u, (lexeme start c s).2) ∧
      (lexeme start c s).1.spelling = c :: s := by
  obtain ⟨v, hv⟩ : ∃ w, Lexeme.first? (c :: s) = some (.textBlockMarker, w) := by
    unfold lexeme at h
    split at h
    case h_4 w hw => exact ⟨w, hw⟩
    case h_7 => split at h <;> cases h
    all_goals cases h
  obtain ⟨rfl, t, ht⟩ := Lexeme.first?_eq_mark hv (by decide)
  cases ht
  have hopen : (Literal.blockBody t).2 = false := h
  have hall : Literal.blockBody t = (t, false) := by
    simpa using Literal.blockBody_open (u := []) hopen (by simp [AreNewlines])
  have hgrown := Literal.blockBody_open hopen hu
  simp [lexeme, Lexeme.first?, hall, hgrown, grow, spelling, ending]

theorem read_open (h : (read m c s).1.IsOpen) (hu : AreNewlines u) :
    read m c (s ++ u) = ((read m c s).1.grow u, (read m c s).2) ∧
      (read m c s).1.spelling = c :: s := by
  cases m with
  | line start => exact lexeme_open h hu
  | argument fresh =>
    simp only [read] at h ⊢
    split at h
    · cases h
    · split at h
      · cases h
      · split at h
        · cases h
        · rename_i hn hs hc
          obtain ⟨hgrown, hspelling⟩ := argument_open h hu
          simp [hn, hs, hc, hgrown, hspelling]
  | separator fresh =>
    simp only [read] at h
    split at h
    · cases h
    · split at h
      · cases h
      · split at h <;> cases h

theorem grow_spelling {x : Piece} (h : x.IsOpen) (u : List Char) :
    (x.grow u).spelling = x.spelling ++ u := by
  cases x with
  | text raw closed | formulation q body closed | textBlock body closed =>
    obtain rfl : closed = false := h
    simp [grow, spelling, ending]
  | plain s => rfl
  | _ => cases h

/-! Whole texts. -/

theorem cut_newline (m : Mode) (t : List Char) :
    cut m 0 ('\n' :: t) = newline :: cut (.line true) 0 t :=
  cut_of_read (by cases m <;> rfl) rfl

/-- Behind a text with no open literal, a line end starts afresh. -/
theorem cut_closed (h : ∀ x ∈ cut m 0 s, ¬ x.IsOpen) (t : List Char) :
    cut m 0 (s ++ '\n' :: t) = cut m 0 s ++ newline :: cut (.line true) 0 t := by
  generalize hcut : cut m 0 s = xs at h
  induction xs generalizing m s with
  | nil =>
    cases s with
    | nil => exact cut_newline m t
    | cons c s =>
      rw [cut_cons] at hcut
      cases hcut
  | cons x xs ih =>
    cases s with
    | nil => cases hcut
    | cons c s =>
      obtain ⟨y, m', hstep⟩ : ∃ y m', read m c s = (y, m') := ⟨_, _, rfl⟩
      obtain ⟨-, u, hsplit⟩ := read_split m c s
      rw [hstep] at hsplit
      rw [cut_of_read hstep hsplit] at hcut
      obtain ⟨rfl, hxs⟩ := List.cons.inj hcut
      have hread : read m c (s ++ '\n' :: t) = (y, m') := by
        rw [read_closed (by simpa [hstep] using h y (by simp)), hstep]
      have hsplit' : c :: (s ++ '\n' :: t) = y.spelling ++ (u ++ '\n' :: t) := by
        rw [← List.cons_append, hsplit, List.append_assoc]
      rw [List.cons_append, cut_of_read hread hsplit', ih hxs fun z hz => h z (by simp [hz])]
      rfl

/-- An open literal is the last piece of a text, and goes on over the line ends behind it. -/
theorem cut_open (h : ∃ x ∈ cut m 0 s, IsOpen x) :
    ∃ xs x, IsOpen x ∧ ∀ u, AreNewlines u → cut m 0 (s ++ u) = xs ++ [x.grow u] := by
  generalize hcut : cut m 0 s = ys at h
  induction ys generalizing m s with
  | nil => simp at h
  | cons y ys ih =>
    cases s with
    | nil => cases hcut
    | cons c s =>
      obtain ⟨y, m', hstep⟩ : ∃ y m', read m c s = (y, m') := ⟨_, _, rfl⟩
      obtain ⟨-, v, hsplit⟩ := read_split m c s
      rw [hstep] at hsplit
      rw [cut_of_read hstep hsplit] at hcut
      obtain ⟨rfl, hys⟩ := List.cons.inj hcut
      by_cases hopen : y.IsOpen
      · refine ⟨[], y, hopen, fun u hu => ?_⟩
        have hopen' : (read m c s).1.IsOpen := by
          rw [hstep]
          exact hopen
        obtain ⟨hread, hspelling⟩ := read_open hopen' hu
        rw [hstep] at hread hspelling
        have hall : c :: (s ++ u) = (y.grow u).spelling ++ [] := by
          rw [grow_spelling hopen, hspelling]
          simp
        exact cut_of_read hread hall
      · have hrest : ∃ x ∈ ys, IsOpen x := by
          obtain ⟨x, hmem, hx⟩ := h
          rcases List.mem_cons.1 hmem with rfl | hmem
          · exact absurd hx hopen
          · exact ⟨x, hmem, hx⟩
        obtain ⟨xs, x, hx, hxs⟩ := ih hys hrest
        refine ⟨y :: xs, x, hx, fun u hu => ?_⟩
        -- what is not open is read as before, whether line ends follow or the end of the text
        have hread : read m c (s ++ u) = (y, m') := by
          cases u with
          | nil => rw [List.append_nil, hstep]
          | cons d u =>
            obtain rfl := hu d (by simp)
            rw [read_closed (by simpa [hstep] using hopen), hstep]
        have hsplit' : c :: (s ++ u) = y.spelling ++ (v ++ u) := by
          rw [← List.cons_append, hsplit, List.append_assoc]
        rw [List.cons_append, cut_of_read hread hsplit', hxs u hu]
        rfl

/-! What is reported of it. -/

theorem isOpen_iff {x : Piece} (p : Position) :
    x.IsOpen ↔ ∃ q e, x.complaint? p = some (q, .unterminated e) ∧ e ≠ .id := by
  cases x with
  | text raw closed | formulation q body closed | textBlock body closed =>
    cases closed with
    | false => exact ⟨fun _ => ⟨p, _, rfl, by simp⟩, fun _ => rfl⟩
    | true => simp [IsOpen, complaint?, unclosed]
  | id body closed => cases closed <;> simp [IsOpen, complaint?, unclosed]
  | plain s =>
    cases hopen : Bracket.openAfter s with
    | nil =>
      simp only [IsOpen, complaint?, hopen]
      split <;> simp
    | cons b stack =>
      simp only [IsOpen, complaint?, hopen]
      exact ⟨fun _ => ⟨p, _, rfl, by simp⟩, fun _ => List.cons_ne_nil b stack⟩
  | comma missing => cases missing <;> simp [IsOpen, complaint?]
  | gap trailing => cases trailing <;> simp [IsOpen, complaint?]
  | _ => simp [IsOpen, complaint?]

theorem grow_complaint {x : Piece} (h : x.IsOpen) {u : List Char} (hu : AreNewlines u)
    (p : Position) : (x.grow u).complaint? p = x.complaint? p := by
  cases x with
  | plain s =>
    have hopen : Bracket.openAfter (s ++ u) = Bracket.openAfter s := by
      simp [Bracket.openAfter, Literal.track_newlines hu]
    obtain ⟨b, stack, hs⟩ := List.exists_cons_of_ne_nil (show Bracket.openAfter s ≠ [] from h)
    simp [grow, complaint?, hopen, hs]
  | _ => rfl

/-- The token of an open literal, with its text left open. -/
theorem grow_token {x : Piece} (h : x.IsOpen) (p : Position) :
    ∃ k s, k ∈ [Kind.text, .formulation, .textBlock, .argumentText] ∧
      ∀ u, AreNewlines u → (x.grow u).token? p = some ⟨k, String.ofList (s ++ u), p⟩ := by
  cases x with
  | text raw closed =>
    refine ⟨.text, Literal.unescape raw, by simp, fun u hu => ?_⟩
    simp [grow, token?, content?, Literal.unescape_append raw hu]
  | formulation q body closed => exact ⟨.formulation, body, by simp, fun _ _ => rfl⟩
  | textBlock body closed => exact ⟨.textBlock, body, by simp, fun _ _ => rfl⟩
  | plain s => exact ⟨.argumentText, s, by simp, fun _ _ => rfl⟩
  | _ => cases h

end Piece

/-- Whether a document ends inside of a literal that a line end does not end: one is reported as
unterminated, and it is no id. -/
def EndsOpen (source : String) : Prop :=
  ∃ p e, (p, .unterminated e) ∈ Piece.complaints {} (Piece.ofText source.toList) ∧ e ≠ .id

theorem endsOpen_iff {source : String} :
    EndsOpen source ↔ ∃ x ∈ Piece.ofText source.toList, Piece.IsOpen x := by
  constructor
  · rintro ⟨p, e, hmem, he⟩
    obtain ⟨⟨q, x⟩, hplace, hx⟩ := List.mem_filterMap.1 hmem
    obtain ⟨us, vs, hxs, -⟩ := Piece.mem_place hplace
    exact ⟨x, by simp [hxs], (Piece.isOpen_iff q).2 ⟨p, e, hx, he⟩⟩
  · rintro ⟨x, hmem, hx⟩
    obtain ⟨us, vs, hxs⟩ := List.append_of_mem hmem
    obtain ⟨q, e, hc, he⟩ := (Piece.isOpen_iff (Position.after {} (Piece.spell us))).1 hx
    exact ⟨q, e, Piece.mem_complaints_of_cut hxs {} hc, he⟩

instance (source : String) : Decidable (EndsOpen source) := decidable_of_iff _ endsOpen_iff.symm

namespace Piece

/-- Outside of open literals the line ends behind a document are read one by one. -/
theorem ofText_newline {d : String} (h : ¬ EndsOpen d) (s : List Char) :
    ofText (d.toList ++ '\n' :: s) = ofText d.toList ++ newline :: ofText s := by
  refine cut_closed (fun x hx hopen => h ?_) s
  exact endsOpen_iff.2 ⟨x, hx, hopen⟩

theorem ofText_newlines {s : List Char} (hs : AreNewlines s) :
    ∀ x ∈ ofText s, x = newline :=
  hs.induct (P := fun s => ∀ x ∈ ofText s, x = newline) (by simp [ofText, cut]) fun s ih => by
    rw [ofText, cut_newline]
    exact List.forall_mem_cons.2 ⟨rfl, ih⟩

theorem ofText_append_newlines {d : String} (h : ¬ EndsOpen d) {s : List Char}
    (hs : AreNewlines s) : ofText (d.toList ++ s) = ofText d.toList ++ ofText s := by
  cases s with
  | nil => simp [ofText, cut]
  | cons c s =>
    obtain rfl := hs c (by simp)
    rw [ofText_newline h]
    exact congrArg (ofText d.toList ++ ·) (cut_newline _ s).symm

theorem tokens_newlines {s : List Char} (hs : AreNewlines s) (p : Position) :
    (∀ t ∈ tokens p (ofText s), t.kind = .newline) ∧ complaints p (ofText s) = [] := by
  have hplaced : ∀ y ∈ place p (ofText s), y.2 = newline := by
    rintro ⟨q, x⟩ hx
    obtain ⟨us, vs, hxs, -⟩ := mem_place hx
    exact ofText_newlines hs x (by simp [hxs])
  constructor
  · intro t ht
    obtain ⟨⟨q, x⟩, hx, htoken⟩ := List.mem_filterMap.1 ht
    obtain rfl : x = newline := hplaced _ hx
    cases htoken
    rfl
  · refine List.filterMap_eq_nil_iff.2 fun ⟨q, x⟩ hx => ?_
    obtain rfl : x = newline := hplaced _ hx
    rfl

end Piece

end SectionLexer
