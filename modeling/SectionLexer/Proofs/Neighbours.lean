import SectionLexer.Proofs.Cut

/-! Which tokens stand next to each other in what the first pass yields. What may be read at a point
is settled by the token in front of it, and by what is left of the text. -/
namespace SectionLexer

variable {j : Option Kind} {k : Kind}

namespace Kind

/-- The kinds of argument. -/
def IsArgument (k : Kind) : Prop := k ∈ [text, formulation, argumentText]

/-- The kinds that ask for an argument behind them. -/
def AsksArgument (k : Kind) : Prop := k ∈ [colon, dotSpace, comma]

instance (k : Kind) : Decidable k.IsArgument :=
  inferInstanceAs (Decidable (k ∈ [text, formulation, argumentText]))

instance (k : Kind) : Decidable k.AsksArgument :=
  inferInstanceAs (Decidable (k ∈ [colon, dotSpace, comma]))

theorem AsksArgument.not_isArgument (h : k.AsksArgument) : ¬ k.IsArgument := by
  simp only [AsksArgument, List.mem_cons, List.not_mem_nil, or_false] at h
  rcases h with rfl | rfl | rfl <;> decide

/-- A token of kind `k` may stand behind one of kind `j`, or at the start of a text if there is
none. -/
structure Follows (j : Option Kind) (k : Kind) : Prop where
  argument : k.IsArgument → ∃ i ∈ j, i.AsksArgument
  comma : k = .comma → ∃ i ∈ j, i.IsArgument ∨ i.AsksArgument
  space : k = .space → ∀ i ∈ j, i = .newline ∨ i = .space
  behindArgument : ∀ i ∈ j, i.IsArgument → k = .comma ∨ k = .newline
  behindColon : .colon ∈ j → k.IsArgument ∨ k = .comma ∨ k = .newline

/-- What does not start with a line end stands neither behind an argument nor behind a colon. -/
theorem Follows.lexeme (hj : ∀ i ∈ j, ¬ (i.IsArgument ∨ i = .colon))
    (hk : ¬ k.IsArgument ∧ k ≠ .comma)
    (hspace : k = .space → ∀ i ∈ j, i = .newline ∨ i = .space) : Follows j k where
  argument h := absurd h hk.1
  comma h := absurd h hk.2
  space := hspace
  behindArgument i hi h := absurd (.inl h) (hj i hi)
  behindColon h := absurd (.inr rfl) (hj _ h)

theorem Follows.newline : Follows j .newline where
  argument h := absurd h (by decide)
  comma h := nomatch h
  space h := nomatch h
  behindArgument _ _ _ := .inr rfl
  behindColon _ := .inr (.inr rfl)

theorem Follows.of_isArgument (hj : ∃ i ∈ j, i.AsksArgument) (hk : k.IsArgument) :
    Follows j k where
  argument _ := hj
  comma h := absurd (h ▸ hk) (by decide)
  space h := absurd (h ▸ hk) (by decide)
  behindArgument i hi h := by
    obtain ⟨i', hi', hasks⟩ := hj
    obtain rfl := Option.mem_unique hi hi'
    exact absurd h hasks.not_isArgument
  behindColon _ := .inl hk

theorem Follows.of_comma (hj : ∃ i ∈ j, i.IsArgument ∨ i.AsksArgument) : Follows j .comma where
  argument h := absurd h (by decide)
  comma _ := hj
  space h := nomatch h
  behindArgument _ _ _ := .inl rfl
  behindColon _ := .inr (.inl rfl)

end Kind

/-- What may be read where the last token is of kind `j` and the text goes on with `s`. An argument
is followed by a lexeme only where the rest of its line was left out. -/
def Mode.Behind (j : Option Kind) (s : List Char) : Mode → Prop
  | .line true => ∀ i ∈ j, i = .newline ∨ i = .space
  | .line false => ∀ i ∈ j, i.IsArgument ∨ i = .colon → ∀ c ∈ s.head?, c = '\n'
  | .argument _ => ∃ i ∈ j, i.AsksArgument
  | .separator _ => ∃ i ∈ j, i.IsArgument

theorem Mode.Behind.line {start : Bool} {c : Char} {s : List Char}
    (h : Behind j (c :: s) (.line start)) (hc : c ≠ '\n') :
    ∀ i ∈ j, ¬ (i.IsArgument ∨ i = .colon) := by
  intro i hi
  cases start with
  | true => rcases h i hi with rfl | rfl <;> decide
  | false => exact fun hk => hc (h i hi hk c (by simp))

theorem Mode.Behind.of_not {s : List Char} (h : ∀ i ∈ j, ¬ (i.IsArgument ∨ i = .colon)) :
    Behind j s (.line false) := fun i hi hk => absurd hk (h i hi)

namespace Piece

/-- The kind of the last token up to a piece, `j` being the kind of the last one in front of it. -/
def lastKind (j : Option Kind) (x : Piece) : Option Kind := (x.content?.map Prod.fst).or j

variable {m n : Mode} {c : Char} {s r : List Char} {x : Piece} {us vs : List Piece}

theorem lastKind_of_content {w : List Char} (hx : x.content? = some (k, w)) :
    lastKind j x = some k := by simp [lastKind, hx]

/-- A lexeme goes on with its line unless it asks for an argument. -/
theorem behind_of_content {w : List Char} (hx : x.content? = some (k, w))
    (hk : ¬ (k.IsArgument ∨ k = .colon)) : Mode.Behind (lastKind j x) s (.line false) := by
  rw [lastKind_of_content hx]
  exact .of_not (by simpa using hk)

theorem ne_newline_of_first? {w : List Char} (h : Lexeme.first? (c :: s) = some (.name, w)) :
    c ≠ '\n' := by
  rintro rfl
  cases h

/-- A token that is read may stand behind the last one. -/
theorem Reads.follows (h : Reads m c s x n) (hm : m.Behind j (c :: s)) {w : List Char}
    (hx : x.content? = some (k, w)) : Kind.Follows j k := by
  cases h with
  | name hname =>
    cases hx
    exact .lexeme (hm.line (ne_newline_of_first? hname)) (by decide) nofun
  | colon | dotSpace | textBlock | id =>
    cases hx
    exact .lexeme (hm.line (by decide)) (by decide) nofun
  | newline =>
    cases hx
    exact .newline
  | space =>
    cases hx
    exact .lexeme (hm.line (by decide)) (by decide) fun _ => hm
  | missing =>
    cases hx
    obtain ⟨i, hi, hasks⟩ := hm
    exact .of_comma ⟨i, hi, .inr hasks⟩
  | comma =>
    cases hx
    obtain ⟨i, hi, hargument⟩ := hm
    exact .of_comma ⟨i, hi, .inl hargument⟩
  | text | formulation | plain =>
    cases hx
    exact .of_isArgument hm (by decide)
  | blank | unrecognized | gapBefore | gapBehind | skipped => cases hx

/-- Reading a piece keeps what may be read next in step with the last token. -/
theorem Reads.behind (h : Reads m c s x n) (hm : m.Behind j (c :: s))
    (hs : c :: s = x.spelling ++ r) : n.Behind (lastKind j x) r := by
  cases h with
  | name | textBlock | id => exact behind_of_content rfl (by decide)
  | colon | missing | comma => exact ⟨_, rfl, by decide⟩
  | dotSpace =>
    split
    · exact behind_of_content rfl (by decide)
    · exact ⟨.dotSpace, rfl, by decide⟩
  | newline | space =>
    intro i hi
    cases hi
    decide
  | @blank start =>
    -- inside a line a space follows neither an argument nor a colon
    cases start with
    | true => exact hm
    | false => exact .of_not (hm.line (by decide))
  | unrecognized hnone =>
    refine .of_not (hm.line ?_)
    rintro rfl
    cases hnone
  | gapBefore | gapBehind => exact hm
  | text => exact ⟨.text, rfl, by decide⟩
  | formulation => exact ⟨.formulation, rfl, by decide⟩
  | plain => exact ⟨.argumentText, rfl, by decide⟩
  | skipped => exact fun _ _ _ => skipped_head? hs

/-- The kind of the last token that pieces yield. -/
def endKind (xs : List Piece) : Option Kind := (tokens {} xs).getLast?.map Token.kind

theorem endKind_append (us : List Piece) (x : Piece) :
    endKind (us ++ [x]) = lastKind (endKind us) x := by
  unfold endKind
  rw [tokens_append, tokens_cons]
  cases hx : x.content? <;> simp [lastKind, token?, tokens, hx]

/-- Every piece is read where its kind may stand behind the last token. -/
theorem reads_behind (h : ofText s = us ++ x :: vs) :
    ∃ m c t n, Reads m c t x n ∧ m.Behind (endKind us) (c :: t) := by
  let P (us : List Piece) (m : Mode) (s : List Char) : Prop := m.Behind (endKind us) s
  have hstart : P [] (.line true) s := by
    intro i hi
    cases hi
  have hstep {us : List Piece} {m : Mode} {c : Char} {t : List Char} {x : Piece} {n : Mode}
      {r : List Char} (hP : P us m (c :: t)) (hread : Reads m c t x n)
      (hsplit : c :: t = x.spelling ++ r) : P (us ++ [x]) n r := by
    change n.Behind (endKind (us ++ [x])) r
    rw [endKind_append]
    exact hread.behind hP hsplit
  obtain ⟨m, hP, hcut⟩ := cut_induction hstart hstep h
  obtain ⟨c, t, n, hspell, hread, -⟩ := read_of_cons_cut hcut
  rw [hspell] at hP
  exact ⟨m, c, t, n, hread, hP⟩

/-- Every token of a text may stand behind the one in front of it. -/
theorem follows_of_tokens {front back : List Token} {t : Token}
    (h : tokens {} (ofText s) = front ++ t :: back) :
    Kind.Follows (front.getLast?.map Token.kind) t.kind := by
  obtain ⟨us, x, vs, hcut, hx, rfl, -⟩ := exists_of_tokens h
  obtain ⟨m, c, r, n, hread, hbehind⟩ := reads_behind hcut
  exact hread.follows hbehind (content_of_token? hx).1

end Piece

end SectionLexer
