import SectionLexer.Proofs.Junctions
import SectionLexer.Proofs.OpenEnds
import SectionLexer.Proofs.Relocation
import SectionLexer.Proofs.Stages

/-! A blank line takes everything back to the start: what stands behind it is read as a document of
its own. -/
namespace SectionLexer

variable {ts us : List Token} {t u : Token}

namespace Run

theorem afterNewline_ofTokens (hus : ∀ v ∈ us.head?, ¬ v.DecidesLevel) (level : Nat)
    (p : Position) : ∃ q, afterNewline level p (ofTokens us) = (0, q) := by
  cases us with
  | nil => exact ⟨p, rfl⟩
  | cons v us =>
    rw [ofTokens_cons_of_not_decidesLevel (hus v rfl)]
    exact ⟨v.position, rfl⟩

/-- Behind a blank line the levels start anew. -/
theorem resolve_blankLine (hus : ∀ v ∈ us.head?, ¬ v.DecidesLevel) (level : Nat)
    (last : Position) (t u : Token) (more : List Token) :
    ∃ q, resolve level last (newlines t (u :: more) :: ofTokens us) =
      t :: Token.mark .lineBreak u.position ::
        (List.replicate level (Token.mark .unindent q) ++ resolveLevels us) := by
  obtain ⟨q, hq⟩ := afterNewline_ofTokens hus level t.position
  refine ⟨q, ?_⟩
  simp only [resolve, hq, climb_zero, lineBreak, resolveLevels, resolve_zero t.position {}]
  simp

end Run

/-- The line ends around a blank line, with those in front of them. -/
theorem exists_blankLine (ts : List Token) (ht : t.kind = .newline) (hu : u.kind = .newline) :
    ∃ front m m' ends, ts ++ [t, u] = front ++ m :: m' :: ends ∧
      (∀ v ∈ front.getLast?, v.kind ≠ .newline) ∧ ∀ v ∈ m :: m' :: ends, v.kind = .newline := by
  obtain ⟨front, ends, rfl, hfront, hends⟩ := exists_lineEnds ts
  have hall : ∀ v ∈ ends ++ [t, u], v.kind = .newline := by
    intro v hv
    rcases List.mem_append.1 hv with hv | hv
    · exact hends v hv
    · simp only [List.mem_cons, List.not_mem_nil, or_false] at hv
      rcases hv with rfl | rfl
      · exact ht
      · exact hu
  rw [List.append_assoc]
  rcases ends with _ | ⟨m, _ | ⟨m', ends⟩⟩
  · exact ⟨front, t, u, [], rfl, hfront, hall⟩
  · exact ⟨front, m, t, [u], rfl, hfront, hall⟩
  · exact ⟨front, m, m', ends ++ [t, u], rfl, hfront, hall⟩

/-- What stands before a blank line is resolved without regard to what stands behind it, but for the
place where its levels are left. -/
theorem resolveLevels_blankLine (ts : List Token) (ht : t.kind = .newline)
    (hu : u.kind = .newline) :
    ∃ front m p n cs, m.kind = .newline ∧ ∀ more us, (∀ v ∈ more, v.kind = .newline) →
      (∀ v ∈ us.head?, ¬ v.DecidesLevel) →
      levelComplaints (ts ++ t :: u :: (more ++ us)) = cs ++ levelComplaints us ∧
      ∃ q, resolveLevels (ts ++ t :: u :: (more ++ us)) = front ++ m :: Token.mark .lineBreak p ::
        (List.replicate n (Token.mark .unindent q) ++ resolveLevels us) := by
  obtain ⟨front, m, m', ends, hsplit, hfront, hends⟩ := exists_blankLine ts ht hu
  obtain ⟨out, level, p, hout⟩ := Run.resolve_behind (Run.not_isNewlines_getLast hfront) 0 {}
  refine ⟨out, m, m'.position, level, levelComplaints front, hends m (by simp),
    fun more us hmore hus => ?_⟩
  have htokens : ts ++ t :: u :: (more ++ us) = front ++ (m :: (m' :: ends ++ more) ++ us) := by
    have hcons : ts ++ t :: u :: (more ++ us) = ts ++ [t, u] ++ (more ++ us) := by simp
    rw [hcons, hsplit]
    simp
  have hall : ∀ v ∈ m' :: ends ++ more, v.kind = .newline := by
    intro v hv
    rcases List.mem_append.1 hv with hv | hv
    · exact hends v (List.mem_cons_of_mem m hv)
    · exact hmore v hv
  have hruns : Run.ofTokens (ts ++ t :: u :: (more ++ us)) =
      Run.ofTokens front ++ .newlines m (m' :: ends ++ more) :: Run.ofTokens us := by
    have hm : m.kind = .newline := hends m (by simp)
    have hbehind : ∀ v ∈ us.head?, v.kind ≠ .newline := fun v hv hk =>
      hus v hv (by simp [Token.DecidesLevel, hk])
    rw [htokens, Run.ofTokens_append_newlines hfront (by simpa using hm),
      Run.ofTokens_newlines_append hm hall hbehind]
  obtain ⟨q, hq⟩ := Run.resolve_blankLine hus level p m m' (ends ++ more)
  constructor
  · rw [levelComplaints, hruns, List.filterMap_append]
    rfl
  · refine ⟨q, ?_⟩
    rw [resolveLevels, hruns, hout]
    exact congrArg (out ++ ·) hq

/-- Behind a blank line no frame is open. -/
theorem bracketFrames_blankLine (front : List Token) {m : Token} (hm : m.kind = .newline)
    (p : Position) (n : Nat) :
    ∃ out cs, ∀ us q,
      let ts := front ++ m :: Token.mark .lineBreak p ::
        (List.replicate n (Token.mark .unindent q) ++ us)
      bracketFrames ts = out ++ bracketFrames us ∧
        frameComplaints ts = cs ++ frameComplaints us := by
  obtain ⟨out, left, last, hout⟩ := Cue.bracket_append (Cue.ofTokens front) [] {}
  refine ⟨out ++ closings left p, frameComplaints front, fun us q => ?_⟩
  have hcues : Cue.ofTokens (front ++ m :: Token.mark .lineBreak p ::
      (List.replicate n (Token.mark .unindent q) ++ us)) =
      Cue.ofTokens front ++ .lineEnd m :: .blankLine (Token.mark .lineBreak p) ::
        (List.replicate n (.dedent (Token.mark .unindent q)) ++ Cue.ofTokens us) := by
    rw [Cue.ofTokens_append (by simp [hm]), Cue.ofTokens_cons, Cue.ofTokens_cons,
      Cue.ofTokens_unindents]
    simp [Cue.attach, Cue.single, hm, Token.mark]
  constructor
  · have hclosed : Cue.bracket left last (.lineEnd m :: .blankLine (Token.mark .lineBreak p) ::
        (List.replicate n (.dedent (Token.mark .unindent q)) ++ Cue.ofTokens us)) =
        closings left p ++ Cue.bracket [] p
          (List.replicate n (.dedent (Token.mark .unindent q)) ++ Cue.ofTokens us) := rfl
    rw [bracketFrames, hcues, hout _ rfl, hclosed, Cue.bracket_nil p q, Cue.bracket_nil_dedents,
      Cue.bracket_nil q {}, List.append_assoc]
    rfl
  · have hdedents : (List.replicate n (Cue.dedent (Token.mark .unindent q))).filterMap
        Cue.complaint? = [] := List.filterMap_replicate_of_none rfl
    rw [frameComplaints, hcues, List.filterMap_append, List.filterMap_cons_none rfl,
      List.filterMap_cons_none rfl, List.filterMap_append, hdedents]
    rfl

/-- The second and the third pass over tokens with a blank line among them. -/
theorem passes_blankLine (ts : List Token) (ht : t.kind = .newline) (hu : u.kind = .newline) :
    ∃ out cs cs', ∀ more us, (∀ v ∈ more, v.kind = .newline) →
      (∀ v ∈ us.head?, ¬ v.DecidesLevel) →
      let vs := ts ++ t :: u :: (more ++ us)
      bracketFrames (resolveLevels vs) = out ++ bracketFrames (resolveLevels us) ∧
        levelComplaints vs = cs ++ levelComplaints us ∧
        frameComplaints (resolveLevels vs) = cs' ++ frameComplaints (resolveLevels us) := by
  obtain ⟨front, m, p, n, cs, hm, hlevels⟩ := resolveLevels_blankLine ts ht hu
  obtain ⟨out, cs', hframes⟩ := bracketFrames_blankLine front hm p n
  refine ⟨out, cs, cs', fun more us hmore hus => ?_⟩
  obtain ⟨hcomplaints, q, htokens⟩ := hlevels more us hmore hus
  obtain ⟨hbracket, hstray⟩ := hframes (resolveLevels us) q
  simp only [htokens]
  exact ⟨hbracket, hcomplaints, hstray⟩

/-! The first pass. -/

/-- Behind a line end a line starts. -/
theorem Position.ofText_append_newline (s : List Char) :
    ofText (s ++ ['\n']) = shift {} (byteLength (s ++ ['\n'])) (lineEnds (s ++ ['\n'])) := by
  simp [ofText, shift, lastLine_append_newline]

namespace Piece

variable {b r : Nat}

theorem place_shift (p : Position) (xs : List Piece) :
    place (p.shift b r) xs = (place p xs).map fun (q, x) => (q.shift b r, x) := by
  induction xs generalizing p with
  | nil => rfl
  | cons x xs ih => simp [Position.shift_after, ih]

theorem complaint?_shift (p : Position) (x : Piece) :
    x.complaint? (p.shift b r) = (x.complaint? p).map (movedComplaint (·.shift b r)) := by
  cases x with
  | text raw closed | formulation q body closed | textBlock body closed | id body closed =>
    cases closed <;> rfl
  | plain s =>
    simp only [complaint?, Position.shift_after]
    split
    · rfl
    · split <;> rfl
  | comma missing => cases missing <;> rfl
  | gap trailing => cases trailing <;> rfl
  | _ => rfl

theorem tokens_shift (p : Position) (xs : List Piece) :
    tokens (p.shift b r) xs = (tokens p xs).map (·.moved (·.shift b r)) := by
  simp only [tokens, place_shift, List.filterMap_map, List.map_filterMap]
  congr 1
  funext y
  obtain ⟨q, x⟩ := y
  cases h : x.content? <;> simp [token?, h, Token.moved]

theorem complaints_shift (p : Position) (xs : List Piece) :
    complaints (p.shift b r) xs = (complaints p xs).map (movedComplaint (·.shift b r)) := by
  simp only [complaints, place_shift, List.filterMap_map, List.map_filterMap]
  congr 1
  funext y
  exact complaint?_shift y.1 y.2

/-- Behind a blank line a text is read as if it stood alone, but for its place. -/
theorem tokens_blankLine {d : String} (h : ¬ EndsOpen d) :
    ∃ t u, t.kind = .newline ∧ u.kind = .newline ∧ ∀ s,
      let f := (Position.shift · (byteLength d.toList + 2) (lineEnds d.toList + 2))
      tokens {} (ofText (d.toList ++ '\n' :: '\n' :: s)) =
          tokens {} (ofText d.toList) ++ t :: u :: (tokens {} (ofText s)).map (·.moved f) ∧
        complaints {} (ofText (d.toList ++ '\n' :: '\n' :: s)) =
          complaints {} (ofText d.toList) ++ (complaints {} (ofText s)).map (movedComplaint f) := by
  let p := Position.after {} d.toList
  refine ⟨⟨.newline, String.ofList ['\n'], p⟩, ⟨.newline, String.ofList ['\n'], p.after ['\n']⟩,
    rfl, rfl, fun s => ?_⟩
  have hpieces : ofText (d.toList ++ '\n' :: '\n' :: s) =
      ofText d.toList ++ newline :: newline :: ofText s := by
    rw [ofText_newline h]
    exact congrArg (_ ++ newline :: ·) (cut_newline _ s)
  have hplace : (p.after ['\n']).after ['\n'] =
      Position.shift {} (byteLength d.toList + 2) (lineEnds d.toList + 2) := by
    have hend : (p.after ['\n']).after ['\n'] = Position.ofText (d.toList ++ ['\n'] ++ ['\n']) := by
      rw [← Position.after_eq_ofText, Position.after_append, Position.after_append]
    rw [hend, Position.ofText_append_newline]
    simp [lineEnds]
    rfl
  rw [hpieces, tokens_append, complaints_append, spell_ofText]
  constructor
  · rw [← tokens_shift, ← hplace]
    rfl
  · rw [← complaints_shift, ← hplace]
    rfl

/-- A text that starts with a letter starts with a name. -/
theorem tokens_letter {c : Char} (hc : isLetter c = true) (s : List Char) (p : Position) :
    ∀ t ∈ (tokens p (ofText (c :: s))).head?, t.kind = .name := by
  have hne {d : Char} (hd : isLetter d = false) : c ≠ d := by
    rintro rfl
    rw [hd] at hc
    cases hc
  have hfirst : Lexeme.first? (c :: s) = some (.name, c :: s.takeWhile isNameCharacter) := by
    rw [Lexeme.first?_unmarked (hne (by decide +kernel))
      (fun hdot => absurd hdot (hne (by decide +kernel))) (hne (by decide +kernel))
      (hne (by decide +kernel)) (hne (by decide +kernel)), if_pos hc]
  intro t ht
  rw [ofText, cut_cons] at ht
  simp only [read, lexeme, hfirst] at ht
  cases ht
  rfl

end Piece

/-! All passes. -/

/-- The first pass over two documents with a blank line between them, and over the first of them. -/
theorem scanned_blankLine {d₁ : String} {o : Options} (ho : 2 ≤ o.trailingNewlines)
    (h₁ : ¬ EndsOpen d₁) : ∃ ts t u more, t.kind = .newline ∧ u.kind = .newline ∧
      (∀ v ∈ more, v.kind = .newline) ∧ (scanned d₁ o).1 = ts ++ t :: u :: (more ++ []) ∧
      ∀ d₂, let f := (Position.shift · (byteLength d₁.toList + 2) (lineEnds d₁.toList + 2))
        (scanned (d₁ ++ "\n\n" ++ d₂) o).1 =
            ts ++ t :: u :: ([] ++ (scanned d₂ o).1.map (·.moved f)) ∧
          (scanned (d₁ ++ "\n\n" ++ d₂) o).2 =
            (scanned d₁ o).2 ++ (scanned d₂ o).2.map (movedComplaint f) := by
  obtain ⟨t, u, ht, hu, hscan⟩ := Piece.tokens_blankLine h₁
  -- alone, the first document has its blank line from the line ends put behind it
  obtain ⟨n, hn⟩ : ∃ n, o.trailingNewlines = n + 2 := ⟨o.trailingNewlines - 2, by omega⟩
  have hends : AreNewlines (List.replicate n '\n') := fun c hc => (List.mem_replicate.1 hc).2
  have htext : (prepare d₁ o.trailingNewlines).toList =
      d₁.toList ++ '\n' :: '\n' :: List.replicate n '\n' := by
    simp [prepare, hn, List.replicate_succ]
  obtain ⟨hmore, hnone⟩ := Piece.tokens_newlines hends {}
  obtain ⟨htokens, hcomplaints⟩ := hscan (List.replicate n '\n')
  rw [hnone] at hcomplaints
  refine ⟨_, t, u, _, ht, hu, ?_, by simpa [scanned, htext] using htokens, fun d₂ => ?_⟩
  · intro v hv
    obtain ⟨w, hw, rfl⟩ := List.mem_map.1 hv
    exact hmore w hw
  · have hwhole : (prepare (d₁ ++ "\n\n" ++ d₂) o.trailingNewlines).toList =
        d₁.toList ++ '\n' :: '\n' :: (prepare d₂ o.trailingNewlines).toList := by
      simp [prepare]
    have htwo := hscan (prepare d₂ o.trailingNewlines).toList
    simpa [scanned, htext, hwhole, hcomplaints] using htwo

theorem scanned_letter {d : String} (h : ∃ c ∈ d.toList.head?, isLetter c = true) (o : Options) :
    ∀ t ∈ (scanned d o).1.head?, t.kind = .name := by
  obtain ⟨c, hc, hletter⟩ := h
  obtain ⟨s, hs⟩ := List.head?_eq_some_iff.1 hc
  have htext : (prepare d o.trailingNewlines).toList =
      c :: (s ++ List.replicate o.trailingNewlines '\n') := by
    simp [prepare, hs]
  simp only [scanned, htext]
  exact Piece.tokens_letter hletter _ {}

/-- The passes over two documents with a blank line between them. -/
theorem passes_of_blankLine {d₁ d₂ : String} {o : Options} (ho : 2 ≤ o.trailingNewlines)
    (h₁ : ¬ EndsOpen d₁) (h₂ : ∃ c ∈ d₂.toList.head?, isLetter c = true) :
    let f := (Position.shift · (byteLength d₁.toList + 2) (lineEnds d₁.toList + 2))
    let whole := d₁ ++ "\n\n" ++ d₂
    bracketFrames (resolveLevels (scanned whole o).1) =
        bracketFrames (resolveLevels (scanned d₁ o).1) ++
          (bracketFrames (resolveLevels (scanned d₂ o).1)).map (·.moved f) ∧
      ∀ pass, passComplaints whole o pass =
        passComplaints d₁ o pass ++ (passComplaints d₂ o pass).map (movedComplaint f) := by
  intro f whole
  obtain ⟨ts, t, u, more, ht, hu, hmore, hfirst, hscan⟩ := scanned_blankLine ho h₁
  obtain ⟨hwhole, hcomplaints⟩ := hscan d₂
  have hname : ∀ v ∈ ((scanned d₂ o).1.map (·.moved f)).head?, ¬ v.DecidesLevel := by
    intro v hv
    rw [List.head?_map] at hv
    obtain ⟨w, hw, rfl⟩ := Option.map_eq_some_iff.1 hv
    have hkind : w.kind = .name := scanned_letter h₂ o w hw
    simp [Token.DecidesLevel, hkind]
  obtain ⟨out, cs, cs', hpasses⟩ := passes_blankLine ts ht hu
  obtain ⟨htokens₁, hlevels₁, hframes₁⟩ := hpasses more [] hmore (by simp)
  obtain ⟨htokens, hlevels, hframes⟩ := hpasses [] _ (by simp) hname
  rw [← hfirst] at htokens₁ hlevels₁ hframes₁
  rw [← hwhole] at htokens hlevels hframes
  have hnone : bracketFrames (resolveLevels []) = [] := rfl
  have hnoLevels : levelComplaints [] = [] := rfl
  have hnoFrames : frameComplaints (resolveLevels []) = [] := rfl
  rw [hnone, List.append_nil] at htokens₁
  rw [hnoLevels, List.append_nil] at hlevels₁
  rw [hnoFrames, List.append_nil] at hframes₁
  constructor
  · rw [htokens, htokens₁, resolveLevels_moved, bracketFrames_moved]
  · intro pass
    cases pass with
    | scan =>
      simp only [passComplaints, whole, hcomplaints, List.filter_append, List.filter_map]
      rfl
    | indent => rw [passComplaints, hlevels, ← hlevels₁, levelComplaints_moved]; rfl
    | bracket =>
      rw [passComplaints, hframes, ← hframes₁, resolveLevels_moved, frameComplaints_moved]
      rfl

/-- A blank line isolates: behind a document that no literal is open at the end of, and a blank
line, a document that starts with a letter is read as if it stood alone, but for its place. The
first one is read as if it stood alone, whatever is wrong with it and whatever it leaves open. -/
theorem lex_blankLine {d₁ d₂ path : String} {o : Options} (ho : 2 ≤ o.trailingNewlines)
    (h₁ : ¬ EndsOpen d₁) (h₂ : ∃ c ∈ d₂.toList.head?, isLetter c = true) :
    let bytes := byteLength d₁.toList + 2
    let rows := lineEnds d₁.toList + 2
    let whole := lex (d₁ ++ "\n\n" ++ d₂) path o
    whole.tokens = (lex d₁ path o).tokens ++ (lex d₂ path o).tokens.map (·.shift bytes rows) ∧
      ∀ pass, whole.diagnostics.filter (·.pass == pass) =
        (lex d₁ path o).diagnostics.filter (·.pass == pass) ++
          ((lex d₂ path o).diagnostics.filter (·.pass == pass)).map (·.shift bytes rows) := by
  intro bytes rows whole
  obtain ⟨htokens, hcomplaints⟩ := passes_of_blankLine ho h₁ h₂
  constructor
  · simp only [whole, lex_tokens, htokens]
    rfl
  · intro pass
    simp only [whole, filter_diagnostics, hcomplaints, Stream.diagnose, List.map_append,
      List.map_map]
    rfl

/-- Behind an argument that is left open and a line with an odd indent. -/
theorem lex_blankLine_oddIndent :
    let d₁ := ". a\n   ?"
    let whole := lex (d₁ ++ "\n\n" ++ "b") "a" {}
    ¬ EndsOpen d₁ ∧
      whole.tokens = (lex d₁ "a" {}).tokens ++ (lex "b" "a" {}).tokens.map (·.shift 10 3) ∧
      ∀ pass, whole.diagnostics.filter (·.pass == pass) =
        (lex d₁ "a" {}).diagnostics.filter (·.pass == pass) ++
          ((lex "b" "a" {}).diagnostics.filter (·.pass == pass)).map (·.shift 10 3) := by
  have h₁ : ¬ EndsOpen ". a\n   ?" := by decide +kernel
  have h₂ : ∃ c ∈ "b".toList.head?, isLetter c = true := ⟨'b', rfl, by decide +kernel⟩
  exact ⟨h₁, lex_blankLine (by decide) h₁ h₂⟩

end SectionLexer
