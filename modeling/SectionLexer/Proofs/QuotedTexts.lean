import SectionLexer.Proofs.Reached
import SectionLexer.Proofs.Reading

/-! Quoted texts: a backslash in front of every double quote spells any text that does not end in a
backslash, and no other text has a spelling, nor any text a second one. -/
namespace SectionLexer

variable {s : List Char}

namespace Literal

/-- What a closed quoted text holds is the spelling of a text. A backslash at the end of that text
would stand in front of the closing quote. -/
theorem exists_escape_of_closed (h : (rawText s).2 = true) :
    ∃ t, (rawText s).1 = escape t ∧ t.getLast? ≠ some '\\' := by
  fun_induction rawText s with
  | case1 => cases h
  | case2 s => exact ⟨[], rfl, by simp⟩
  | case3 s ih =>
    obtain ⟨t, ht, hlast⟩ := ih h
    refine ⟨'"' :: t, congrArg ('\\' :: '"' :: ·) ht, ?_⟩
    cases t with
    | nil => decide
    | cons d t => simpa [List.getLast?_cons] using hlast
  | case4 c s hquote hescape ih =>
    obtain ⟨t, ht, hlast⟩ := ih h
    have hc : c ≠ '"' := by simpa using hquote
    refine ⟨c :: t, ?_, ?_⟩
    · have hstep : escape (c :: t) = c :: escape t := escape.eq_3 c t hc
      rw [hstep, ← ht]
      rfl
    · cases t with
      | cons d t => simpa [List.getLast?_cons] using hlast
      | nil =>
        -- nothing more stands in front of the closing quote
        obtain ⟨u, hu⟩ := rawText_split s
        have hclosed : (rawText s).2 = true := h
        rw [ht, hclosed] at hu
        intro hc
        exact hescape u (by simpa using hc) hu

end Literal

namespace Piece

variable {text t r c : List Char} {us vs : List Piece} {fresh : Bool}

/-- A spelling in double quotes is one piece, whatever follows it. -/
theorem Reaches.quotedText (ht : t.getLast? ≠ some '\\') (h : Reaches text us (.argument fresh)
      ('"' :: (Literal.escape t ++ '"' :: r))) :
    Reaches text (us ++ [.text (Literal.escape t) true]) (.separator true) r :=
  h.step rfl (quoted_read fresh ht r) (by simp [spelling, ending])

/-- What a closed quoted text holds, in whatever text it is found. -/
theorem exists_escape_of_ofText (h : ofText text = us ++ .text c true :: vs) :
    ∃ t, c = Literal.escape t ∧ t.getLast? ≠ some '\\' := by
  obtain ⟨m, d, s, n, hread, -⟩ := read_of_cut h
  generalize hx : Piece.text c true = x at hread
  cases hread with
  | text =>
    obtain ⟨rfl, hclosed⟩ := Piece.text.inj hx
    exact Literal.exists_escape_of_closed hclosed.symm
  | _ => cases hx

/-- Any spelling stands in some text. -/
theorem exists_quotedText (ht : t.getLast? ≠ some '\\') :
    ∃ text us vs, ofText text = us ++ .text (Literal.escape t) true :: vs := by
  let s := '"' :: (Literal.escape t ++ ['"'])
  have hcolon : Reaches (':' :: s) [] (.line true) (':' :: s) := rfl
  have hread : read (.line true) ':' s = (colon, .argument true) := by
    simp [read, lexeme, first?_colon (t := s) (by simp [s])]
  have hargument := (hcolon.step rfl hread rfl).quotedText ht
  exact ⟨_, _, _, hargument.ofText_eq⟩

/-- The token of a quoted text carries the text. -/
theorem tokens_of_escape {text path : String} {o : Options}
    (h : ofText text.toList = us ++ .text (Literal.escape t) true :: vs) :
    let p := Position.ofText (spell us)
    (Stream.scan text path o).tokens = tokens {} us ++ ⟨.text, String.ofList t, p⟩ ::
      tokens (p.after ('"' :: (Literal.escape t ++ ['"']))) vs := by
  intro p
  have htoken : (Piece.text (Literal.escape t) true).token? p =
      some ⟨.text, String.ofList t, p⟩ := by
    simp [token?, content?, Literal.unescape_escape]
  rw [scan_tokens_eq h, htoken]
  rfl

end Piece

/-- Texts between double quotes. The spelling of a text that does not end in a backslash is read as
that text, whatever follows, and nothing is reported of it. What any closed quoted text holds is the
spelling of the text that its token carries. So just the texts that do not end in a backslash are
expressed, each by one spelling. -/
theorem quotedTexts_escaped :
    (∀ (text path : String) (o : Options) (us : List Piece) (fresh : Bool) (t r : List Char),
      t.getLast? ≠ some '\\' →
      Piece.Reaches text.toList us (.argument fresh) ('"' :: (Literal.escape t ++ '"' :: r)) →
      let p := Position.ofText (Piece.spell us)
      let q := p.after ('"' :: (Literal.escape t ++ ['"']))
      Piece.Reaches text.toList (us ++ [.text (Literal.escape t) true]) (.separator true) r ∧
        (Stream.scan text path o).tokens = Piece.tokens {} us ++ ⟨.text, String.ofList t, p⟩ ::
          Piece.tokens q (Piece.cut (.separator true) 0 r) ∧
        ∀ d ∈ (Stream.scan text path o).diagnostics, ¬ d.Within p q) ∧
    (∀ (text path : String) (o : Options) (us vs : List Piece) (c : List Char),
      Piece.ofText text.toList = us ++ .text c true :: vs →
      let p := Position.ofText (Piece.spell us)
      let q := p.after ('"' :: (c ++ ['"']))
      ∃ t, Literal.escape t = c ∧ t.getLast? ≠ some '\\' ∧
        (Stream.scan text path o).tokens =
          Piece.tokens {} us ++ ⟨.text, String.ofList t, p⟩ :: Piece.tokens q vs) ∧
    ∀ t : List Char, t.getLast? ≠ some '\\' ↔ ∃! c, Literal.unescape c = t ∧
      ∃ text us vs, Piece.ofText text = us ++ .text c true :: vs := by
  refine ⟨?_, ?_, ?_⟩
  · intro text path o us fresh t r ht h p q
    have hbehind := h.quotedText ht
    refine ⟨hbehind, ?_, ?_⟩
    · exact Piece.tokens_of_escape hbehind.ofText_eq
    · intro d hd hwithin
      obtain ⟨c, hc, -⟩ := (mem_scan_within_iff hbehind.ofText_eq d).1 ⟨hd, hwithin⟩
      cases hc
  · intro text path o us vs c h p q
    obtain ⟨t, rfl, ht⟩ := Piece.exists_escape_of_ofText h
    exact ⟨t, rfl, ht, Piece.tokens_of_escape h⟩
  · intro t
    constructor
    · intro ht
      refine ⟨Literal.escape t, ⟨Literal.unescape_escape t, Piece.exists_quotedText ht⟩, ?_⟩
      rintro c ⟨hc, text, us, vs, h⟩
      obtain ⟨t', rfl, -⟩ := Piece.exists_escape_of_ofText h
      rw [← hc, Literal.unescape_escape]
    · rintro ⟨c, ⟨rfl, text, us, vs, h⟩, -⟩
      obtain ⟨t, rfl, ht⟩ := Piece.exists_escape_of_ofText h
      rwa [Literal.unescape_escape]

/-- Two backslashes, a quote and a line end, in front of a text that would go on with a quote. -/
theorem quotedTexts_escaped_backslashes :
    let t := ['\\', '\\', '"', '\n']
    let text := "a:\"\\\\\\\"\n\"\"b"
    t.getLast? ≠ some '\\' ∧
      Piece.Reaches text.toList [.name ['a'], .colon] (.argument true)
        ('"' :: (Literal.escape t ++ '"' :: ['"', 'b'])) ∧
      Piece.Reaches text.toList [.name ['a'], .colon, .text (Literal.escape t) true]
        (.separator true) ['"', 'b'] ∧
      ∃ t', Literal.escape t' = Literal.escape t ∧ t'.getLast? ≠ some '\\' := by
  intro t text
  have ht : t.getLast? ≠ some '\\' := by decide
  have h : Piece.Reaches text.toList [.name ['a'], .colon] (.argument true)
      ('"' :: (Literal.escape t ++ '"' :: ['"', 'b'])) := by
    unfold Piece.Reaches
    decide +kernel
  obtain ⟨hread, hclosed, -⟩ := quotedTexts_escaped
  obtain ⟨hbehind, -, -⟩ := hread text "p" {} _ _ t _ ht h
  obtain ⟨t', ht', hlast, -⟩ := hclosed text "p" {} _ _ _ hbehind.ofText_eq
  exact ⟨ht, h, hbehind, t', ht', hlast⟩

end SectionLexer
