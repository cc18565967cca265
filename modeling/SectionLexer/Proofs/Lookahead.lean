import SectionLexer.Proofs.Landmarks
import SectionLexer.Proofs.OpenEnds
import SectionLexer.Proofs.Placement
import SectionLexer.Proofs.Reading

/-! A dot looks ahead in the text for a section header. The tokens behind the dot bear it out: a
name with its colon where a header was seen, an argument, a separator or nothing where none was. -/
namespace SectionLexer

variable {ts us front back : List Token} {t d : Token} {p : Position}

namespace Piece

variable {xs : List Piece} {m : Mode} {c : Char} {s : List Char}

/-- A header is cut into its name and its colon. -/
theorem cut_header (n : SectionName) (start : Bool) (hs : s.head? ≠ some ':') :
    cut (.line start) 0 (n.chars ++ ':' :: s) = name n.chars :: colon :: cut (.argument true) 0 s := by
  have hfirst : Lexeme.first? (n.first :: (n.more ++ ':' :: s)) = some (.name, n.chars) :=
    first?_name n (by simp; decide)
  have hname : read (.line start) n.first (n.more ++ ':' :: s) = (name n.chars, .line false) := by
    simp [read, lexeme, hfirst]
  have hcolon : read (.line false) ':' s = (colon, .argument true) := by
    simp [read, lexeme, first?_colon hs]
  have hrest : cut (.line false) 0 (':' :: s) = colon :: cut (.argument true) 0 s :=
    cut_of_read hcolon rfl
  rw [← hrest]
  exact cut_of_read hname rfl

/-- Every argument is a token. -/
theorem content_argument (c : Char) (s : List Char) : ∃ k w,
    (argument c s).content? = some (k, w) ∧ k ∈ [Kind.text, .formulation, .argumentText] := by
  unfold argument
  split
  · exact ⟨.text, _, rfl, by decide⟩
  · split
    · exact ⟨.formulation, _, rfl, by decide⟩
    · exact ⟨.argumentText, _, rfl, by decide⟩

/-- Where an argument is asked for, the next token is one, or what ends it. -/
theorem kind_head_argument (fresh : Bool) (s : List Char) (p : Position) :
    ∀ t ∈ (tokens p (cut (.argument fresh) 0 s)).head?,
      t.kind ∈ [Kind.text, .formulation, .argumentText, .comma, .newline] := by
  induction s generalizing fresh p with
  | nil => simp [cut, tokens]
  | cons c s ih =>
    intro t ht
    rw [cut_cons, tokens_cons] at ht
    simp only [read] at ht
    split at ht
    · obtain rfl := Option.some.inj ht
      simp
    · split at ht
      · exact ih false _ t ht
      · split at ht
        · obtain rfl := Option.some.inj ht
          simp
        · obtain ⟨k, w, hc, hk⟩ := content_argument c s
          rw [token?, hc] at ht
          obtain rfl := Option.some.inj ht
          simp only [List.mem_cons, List.not_mem_nil, or_false] at hk ⊢
          tauto

/-- The tokens of a text behind a dot, by what the dot saw ahead. -/
theorem tokens_behind_dot (p : Position) (s : List Char) :
    (Lexeme.headerAhead s = true ∧ ∃ (n : SectionName) (more : List Token),
        tokens p (cut (.line false) 0 s) =
          ⟨.name, String.ofList n.chars, p⟩ :: ⟨.colon, ":", p.after n.chars⟩ :: more) ∨
      Lexeme.headerAhead s = false ∧ ∀ t ∈ (tokens p (cut (.argument true) 0 s)).head?,
        t.kind ∈ [Kind.text, .formulation, .argumentText, .comma, .newline] := by
  cases hheader : Lexeme.headerAhead s with
  | true =>
    obtain ⟨n, u, rfl, hu⟩ := headerAhead_iff.1 hheader
    refine .inl ⟨rfl, n, tokens ((p.after n.chars).after [':']) (cut (.argument true) 0 u), ?_⟩
    rw [cut_header n false hu, tokens_cons, tokens_cons]
    rfl
  | false => exact .inr ⟨rfl, kind_head_argument true s p⟩

end Piece

/-! What opens for a dot. -/

theorem announced_append (h : ∀ u ∈ us.head?, u.kind ≠ .name ∧ u.kind ≠ .colon) :
    announced (ts ++ us) = announced ts ++ announced us := by
  have hcolon (ts : List Token) : colon? (ts ++ us) = colon? ts := by
    rcases ts with _ | ⟨t, ts⟩
    · rcases us with _ | ⟨u, us⟩
      · rfl
      · exact colon?_of_ne (h u rfl).2 us
    · rfl
  have hheader (ts : List Token) : headerNext (ts ++ us) = headerNext ts := by
    rcases ts with _ | ⟨t, ts⟩
    · rcases us with _ | ⟨u, us⟩
      · rfl
      · simp [headerNext, (h u rfl).1]
    · simp [headerNext, hcolon]
  induction ts with
  | nil => rfl
  | cons t ts ih => simp [announced, hcolon, hheader, ih]

/-- An argument is announced for each dot. -/
theorem count_announced (ts : List Token) :
    (announced ts).count .argument = ts.countP (·.kind == .dotSpace) := by
  induction ts with
  | nil => rfl
  | cons t ts ih =>
    rw [announced, List.count_append, ih]
    cases hk : t.kind with
    | dotSpace => cases headerNext ts <;> simp [hk] <;> omega
    | name => cases colon? ts <;> simp [hk]
    | _ => simp [hk, Kind.isLiteral]

/-- No group is announced but for a dot. -/
theorem announced_ne_group (ts : List Token) (ls : List Landmark) : announced ts ≠ .group :: ls := by
  induction ts with
  | nil => simp [announced]
  | cons t ts ih =>
    rw [announced]
    cases hk : t.kind with
    | dotSpace => cases headerNext ts <;> simp
    | name => cases colon? ts <;> simp
    | _ => simp [Kind.isLiteral, ih]

/-- A token shows at most one landmark. -/
theorem landmarks_cons (t : Token) (ts : List Token) : ∃ l : Option Landmark,
    landmarks (t :: ts) = l.toList ++ landmarks ts ∧
      (l = some .argument ↔ t.kind = .opening .argument) ∧
      (l = some .group ↔ t.kind = .opening .argumentGroup) := by
  cases hk : t.kind with
  | opening f =>
    cases f with
    | topLevelGroup => exact ⟨none, by simp [landmarks, hk, Kind.isLiteral], by simp, by simp⟩
    | sect => exact ⟨some (.sect (ts.take 2)), by simp [landmarks, hk], by simp, by simp⟩
    | argumentGroup => exact ⟨some .group, by simp [landmarks, hk], by simp, by simp⟩
    | argument => exact ⟨some .argument, by simp [landmarks, hk], by simp, by simp⟩
  | name | colon | text | formulation | argumentText | textBlock | id | comma =>
    exact ⟨some (.literal t), by simp [landmarks, hk, Kind.isLiteral], by simp, by simp⟩
  | _ => exact ⟨none, by simp [landmarks, hk, Kind.isLiteral], by simp, by simp⟩

/-- A landmark of an argument or of a group is that of an opening mark. -/
theorem exists_of_landmarks {f : Frame} {l : Landmark} {as bs : List Landmark}
    (hl : (f, l) ∈ [(Frame.argument, Landmark.argument), (.argumentGroup, .group)])
    (h : landmarks ts = as ++ l :: bs) :
    ∃ before t after, ts = before ++ t :: after ∧ t.kind = .opening f ∧ landmarks after = bs ∧
      before.countP (·.kind == .opening .argument) = as.count .argument := by
  induction ts generalizing as with
  | nil => simp [landmarks] at h
  | cons u us ih =>
    obtain ⟨shown, hshown, hargument, hgroup⟩ := landmarks_cons u us
    rw [hshown] at h
    cases shown with
    | none =>
      obtain ⟨before, t, after, rfl, ht, hafter, hcount⟩ := ih h
      have hu : u.kind ≠ .opening .argument := by simpa using hargument
      exact ⟨u :: before, t, after, rfl, ht, hafter, by simp [hu, hcount]⟩
    | some a =>
      rcases as with _ | ⟨b, as⟩
      · obtain ⟨rfl, hbs⟩ := List.cons.inj h
        refine ⟨[], u, us, rfl, ?_, hbs, rfl⟩
        simp only [List.mem_cons, Prod.mk.injEq, List.not_mem_nil, or_false] at hl
        rcases hl with ⟨rfl, rfl⟩ | ⟨rfl, rfl⟩
        · exact hargument.1 rfl
        · exact hgroup.1 rfl
      · obtain ⟨rfl, hrest⟩ := List.cons.inj h
        obtain ⟨before, t, after, rfl, ht, hafter, hcount⟩ := ih hrest
        have ha : a = .argument ↔ u.kind = .opening .argument := by simpa using hargument
        exact ⟨u :: before, t, after, rfl, ht, hafter, by
          simp [List.countP_cons, List.count_cons, hcount, ha]⟩

/-- A group opens right behind the mark of its argument. -/
theorem suffix_of_group {source path : String} {o : Options}
    (h : (lex source path o).tokens = front ++ t :: back) (ht : t.kind = .opening .argumentGroup) :
    [Kind.opening .argument] <:+ front.map Token.kind := by
  have hin : InPlace [] [] ((lex source path o).tokens.map Token.kind) :=
    inPlace_bracketFrames (resolveLevels_unmarked (Stream.scan_unmarked _ path o))
  rw [h, List.map_append, List.map_cons, ht] at hin
  obtain ⟨stack, -, -, hbetween, -⟩ := hin.after
  simpa using hbetween.1

/-- What opens for a dot: an argument, and right behind its mark a group if a header follows the
dot. -/
theorem exists_argument_of_dot {source path : String} {o : Options}
    (hscan : (lexUpTo .scan source path o).tokens = front ++ d :: back) (hd : d.kind = .dotSpace) :
    ∃ before t after, (lex source path o).tokens = before ++ t :: after ∧
      t.kind = .opening .argument ∧
      before.countP (·.kind == .opening .argument) = front.countP (·.kind == .dotSpace) ∧
      ((∃ u ∈ after.head?, u.kind = .opening .argumentGroup) ↔ headerNext back = true) := by
  have hlandmarks := landmarks_lex source path o
  have hapart : ∀ u ∈ (d :: back).head?, u.kind ≠ .name ∧ u.kind ≠ .colon := by simp [hd]
  rw [hscan, announced_append hapart, announced, hd] at hlandmarks
  have hsplit : landmarks (lex source path o).tokens = announced front ++ .argument ::
      ((if headerNext back then [.group] else []) ++ announced back) := by
    rw [hlandmarks]
    cases headerNext back <;> rfl
  obtain ⟨before, t, after, htokens, ht, hafter, hcount⟩ :=
    exists_of_landmarks (f := .argument) (by simp) hsplit
  refine ⟨before, t, after, htokens, ht, by rw [hcount, count_announced], ?_⟩
  constructor
  · rintro ⟨u, hu, hgroup⟩
    obtain ⟨rest, rfl⟩ := List.head?_eq_some_iff.1 hu
    obtain ⟨l, hl, -, hiff⟩ := landmarks_cons u rest
    rw [hl, hiff.2 hgroup] at hafter
    cases hheader : headerNext back with
    | true => rfl
    | false =>
      rw [hheader] at hafter
      exact absurd hafter.symm (announced_ne_group back _)
  · intro hheader
    have hgroup : landmarks after = [] ++ .group :: announced back := by
      rw [hafter, hheader]
      rfl
    obtain ⟨between, u, rest, rfl, hu, -, hnone⟩ :=
      exists_of_landmarks (f := .argumentGroup) (by simp) hgroup
    -- no argument opens between the mark of this one and that of the group
    have hcons : (lex source path o).tokens = (before ++ t :: between) ++ u :: rest := by
      simp [htokens]
    obtain ⟨pre, hpre⟩ := suffix_of_group hcons hu
    rcases List.eq_nil_or_concat between with rfl | ⟨between, v, rfl⟩
    · exact ⟨u, rfl, hu⟩
    · have hlast : pre ++ [.opening .argument] =
          (before ++ t :: between).map Token.kind ++ [v.kind] := by simpa using hpre
      obtain ⟨-, hv⟩ := List.append_inj' hlast rfl
      simp [List.countP_append, ← (List.cons.inj hv).1] at hnone

/-- A name and its colon show as a header. -/
theorem headerNext_eq_true_iff : headerNext ts = true ↔
    ∃ name colon more, ts = name :: colon :: more ∧ name.kind = .name ∧ colon.kind = .colon := by
  constructor
  · intro h
    rcases ts with _ | ⟨name, ts⟩
    · cases h
    · simp only [headerNext, Bool.and_eq_true, beq_iff_eq] at h
      obtain ⟨colon, hcolon⟩ := Option.isSome_iff_exists.1 h.2
      obtain ⟨more, rfl, hk⟩ := exists_of_colon? hcolon
      exact ⟨name, colon, more, rfl, h.1, hk⟩
  · rintro ⟨name, colon, more, rfl, hname, hcolon⟩
    simp [headerNext, colon?, hname, hcolon, Option.filter]

/-- A dot token stands for a dot in the text. What is read behind it depends on whether a header
follows. -/
theorem exists_behind_dot {text path : String} {o : Options}
    (hscan : (Stream.scan text path o).tokens = front ++ d :: back) (hd : d.kind = .dotSpace) :
    ∃ s rest, text.toList = s ++ rest ∧ byteLength s = d.position.offset + 2 ∧
      ((Lexeme.headerAhead rest = true ∧ ∃ (n : SectionName) (more : List Token),
          back = ⟨.name, String.ofList n.chars, Position.ofText s⟩ ::
            ⟨.colon, ":", (Position.ofText s).after n.chars⟩ :: more) ∨
        Lexeme.headerAhead rest = false ∧ ∀ t ∈ back.head?,
          t.kind ∈ [Kind.text, .formulation, .argumentText, .comma, .newline]) := by
  obtain ⟨us, x, vs, hcut, htoken, -, hback⟩ := Piece.exists_of_tokens hscan
  have hx : x = .dotSpace := by
    cases x <;> cases htoken <;> first | rfl | cases hd
  subst hx
  obtain rfl := Option.some.inj htoken
  obtain ⟨m, c, t, n, hread, hsplit, hvs⟩ := Piece.read_of_cut hcut
  have hnext : n = if Lexeme.headerAhead (Piece.spell vs) then .line false else .argument true := by
    cases hread with
    | @dotSpace start s =>
      obtain rfl : s = Piece.spell vs := by simpa [Piece.spelling] using hsplit
      rfl
  have htext := Piece.spell_ofText text.toList
  rw [hcut] at htext
  have hplace : (Position.after {} (Piece.spell us)).after Piece.dotSpace.spelling =
      Position.ofText (Piece.spell us ++ ['.', ' ']) := by
    rw [← Position.after_eq_ofText, Position.after_append]
    rfl
  rw [hplace] at hback
  rw [hnext] at hvs
  refine ⟨Piece.spell us ++ ['.', ' '], Piece.spell vs, ?_, ?_, ?_⟩
  · simpa [Piece.spelling] using htext.symm
  · have hdot : byteLength ['.', ' '] = 2 := by decide
    simp [hdot]
  · rw [hback, hvs, Piece.spell_cut]
    rcases Piece.tokens_behind_dot (Position.ofText (Piece.spell us ++ ['.', ' ']))
      (Piece.spell vs) with ⟨hheader, hmore⟩ | ⟨hheader, hkind⟩
    · exact .inl ⟨hheader, by simpa [hheader] using hmore⟩
    · exact .inr ⟨hheader, by simpa [hheader] using hkind⟩

/-- A header is seen behind a dot in the text just when the next token is a name. That name starts
right behind the dot, and the next token is its colon, right behind the name. Where no header is
seen, an argument, a comma, a line end or nothing is next. So just where a header follows the dot in
the text, the argument that opens for the dot starts with a group. -/
theorem headerAhead_iff_next {source path : String} {o : Options}
    (hscan : (lexUpTo .scan source path o).tokens = front ++ d :: back) (hd : d.kind = .dotSpace) :
    ∃ s rest, (prepare source o.trailingNewlines).toList = s ++ rest ∧
      byteLength s = d.position.offset + 2 ∧
      (Lexeme.headerAhead rest = true ↔ ∃ t ∈ back.head?, t.kind = .name) ∧
      (Lexeme.headerAhead rest = true → ∃ name colon more, back = name :: colon :: more ∧
        name.kind = .name ∧ name.position.offset = d.position.offset + 2 ∧ colon.kind = .colon ∧
        colon.position.offset = name.position.offset + byteLength name.text.toList) ∧
      (Lexeme.headerAhead rest = false → ∀ t ∈ back.head?,
        t.kind ∈ [Kind.text, .formulation, .argumentText, .comma, .newline]) ∧
      ∃ before t after, (lex source path o).tokens = before ++ t :: after ∧
        t.kind = .opening .argument ∧
        before.countP (·.kind == .opening .argument) = front.countP (·.kind == .dotSpace) ∧
        ((∃ u ∈ after.head?, u.kind = .opening .argumentGroup) ↔ StartsWithHeader rest) := by
  obtain ⟨s, rest, htext, hs, hcases⟩ := exists_behind_dot hscan hd
  obtain ⟨before, t, after, htokens, ht, hcount, hgroup⟩ := exists_argument_of_dot hscan hd
  refine ⟨s, rest, htext, hs, ?_⟩
  rw [← Piece.headerAhead_iff]
  rcases hcases with ⟨hheader, n, more, rfl⟩ | ⟨hheader, hkind⟩
  · have hoffset : (Position.ofText s).offset = d.position.offset + 2 := hs
    have hnext : headerNext (⟨.name, String.ofList n.chars, Position.ofText s⟩ ::
        ⟨.colon, ":", (Position.ofText s).after n.chars⟩ :: more) = true := rfl
    refine ⟨by simp [hheader], fun _ => ⟨_, _, more, rfl, rfl, hoffset, rfl, by simp⟩,
      by simp [hheader], before, t, after, htokens, ht, hcount, ?_⟩
    rw [hgroup, hnext, hheader]
  · have hname : ¬ ∃ t ∈ back.head?, t.kind = .name := by
      rintro ⟨u, hu, hk⟩
      have hmem := hkind u hu
      rw [hk] at hmem
      exact absurd hmem (by decide)
    have hnext : headerNext back = false := by
      rw [Bool.eq_false_iff]
      intro h
      obtain ⟨name, colon, more, rfl, hk, -⟩ := headerNext_eq_true_iff.1 h
      exact hname ⟨name, rfl, hk⟩
    refine ⟨iff_of_false (by simp [hheader]) hname, by simp [hheader], fun _ => hkind, before, t,
      after, htokens, ht, hcount, ?_⟩
    rw [hgroup, hnext, hheader]

/-- A section behind a dot: a header is seen, the next token is its name, and a group opens. -/
theorem headerAhead_iff_next_section :
    ∃ d back, (lexUpTo .scan ". A: b" "a" {}).tokens = d :: back ∧ d.kind = .dotSpace ∧
      (∃ t ∈ back.head?, t.kind = .name) ∧
      ∃ s rest, (prepare ". A: b" 3).toList = s ++ rest ∧ byteLength s = d.position.offset + 2 ∧
        Lexeme.headerAhead rest = true ∧
        ∃ before t after, (lex ". A: b" "a" {}).tokens = before ++ t :: after ∧
          t.kind = .opening .argument ∧ ∃ u ∈ after.head?, u.kind = .opening .argumentGroup := by
  obtain ⟨d, back, hscan, hd, hname⟩ :
      ∃ d back, (lexUpTo .scan ". A: b" "a" {}).tokens = [] ++ d :: back ∧ d.kind = .dotSpace ∧
        ∃ t ∈ back.head?, t.kind = .name := ⟨_, _, rfl, rfl, _, rfl, rfl⟩
  obtain ⟨s, rest, htext, hs, hnext, -, -, before, t, after, htokens, ht, -, hgroup⟩ :=
    headerAhead_iff_next hscan hd
  have hheader := hnext.2 hname
  exact ⟨d, back, hscan, hd, hname, s, rest, htext, hs, hheader, before, t, after, htokens, ht,
    hgroup.2 (Piece.headerAhead_iff.1 hheader)⟩

end SectionLexer
