import SectionLexer.Proofs.LineStarts
import SectionLexer.Proofs.Replay

/-! The literals of a text stay in their order, and between them the dots and the section headers
are where arguments, groups and sections open. -/
namespace SectionLexer

variable {ts us : List Token} {t u : Token}

/-- What a document consists of, in the order it is written. -/
inductive Landmark where
  | literal (t : Token)
  /-- An argument opens. -/
  | argument
  /-- A group of sections opens. -/
  | group
  /-- A section opens, in front of two tokens. -/
  | sect (header : List Token)
deriving DecidableEq, Repr

/-- The landmarks among nested frames. -/
def landmarks : List Token → List Landmark
  | [] => []
  | t :: ts =>
    (match t.kind with
      | .opening .argument => [.argument]
      | .opening .argumentGroup => [.group]
      | .opening .sect => [.sect (ts.take 2)]
      | k => if k.isLiteral then [.literal t] else []) ++ landmarks ts

/-- The colon that tokens start with. -/
def colon? (ts : List Token) : Option Token := ts.head?.filter (·.kind == .colon)

theorem colon?_of_ne (h : t.kind ≠ .colon) (ts : List Token) : colon? (t :: ts) = none := by
  simp [colon?, Option.filter, h]

/-- Whether tokens start with a section header: a name and, right behind it, a colon. -/
def headerNext : List Token → Bool
  | [] => false
  | t :: ts => t.kind == .name && (colon? ts).isSome

theorem exists_of_colon? (h : colon? ts = some u) : ∃ us, ts = u :: us ∧ u.kind = .colon := by
  obtain ⟨hhead, hu⟩ := Option.filter_eq_some_iff.1 h
  cases ts with
  | nil => cases hhead
  | cons v us =>
    obtain rfl := Option.some.inj hhead
    exact ⟨us, rfl, by simpa using hu⟩

/-- The landmarks that tokens announce before there are frames: a dot an argument, a dot in front of
a header also a group, and each header a section. -/
def announced : List Token → List Landmark
  | [] => []
  | t :: ts =>
    (match t.kind with
      | .dotSpace => if headerNext ts then [.argument, .group] else [.argument]
      | .name => (colon? ts).toList.map (fun u => .sect [t, u]) ++ [.literal t]
      | k => if k.isLiteral then [.literal t] else []) ++ announced ts

/-! The third pass, cue by cue. -/

theorem landmarks_replaysClosings : ReplaysClosings fun _ ts => landmarks ts where
  closing _ _ _ _ := rfl

/-- What a dot shows; `header` tells whether a section header follows it. -/
def dotLandmarks (header : Bool) : List Landmark :=
  if header then [.argument, .group] else [.argument]

theorem landmarks_openingArgument (p : Position) (header : Bool) (stack : List Frame)
    (ts : List Token) : landmarks ((Edit.openingArgument p header stack).1 ++ ts) =
      dotLandmarks header ++ landmarks ts := by
  cases header <;> rfl

namespace Cue

variable {c : Cue} {cs : List Cue}

/-- The landmarks that a cue shows; `header` tells whether a section header follows it. -/
def shown (c : Cue) (header : Bool) : List Landmark :=
  match c with
  | .header name colon => [.sect [name, colon], .literal name, .literal colon]
  | .dot _ _ => dotLandmarks header
  | .other t => if t.kind.isLiteral then [.literal t] else []
  | .dedent _ | .blankLine _ | .strayIndent _ | .lineEnd _ => []

def allShown : List Cue → List Landmark
  | [] => []
  | c :: cs => c.shown (headerFirst cs) ++ allShown cs

/-- One step: what is written for a cue shows its landmarks and no others. -/
theorem landmarks_edit (hfit : c.Fits) (hu : Unmarked c.tokens) (b : Bool) (stack : List Frame)
    (ts : List Token) :
    landmarks ((c.edit b stack).1 ++ ts) = c.shown b ++ landmarks ts := by
  have hC := landmarks_replaysClosings
  cases c with
  | header name colon =>
    obtain ⟨hname, hcolon⟩ := hfit
    have hgroup : (Edit.when stack.isEmpty (Edit.opening .topLevelGroup name.position)).Tracks
        fun _ ts => landmarks ts := Edit.when_tracks _ fun _ _ => rfl
    have hentry := Edit.andThen_tracks hgroup (Edit.closing_tracks hC .sect name.position) stack
      (Token.mark (.opening .sect) name.position :: name :: colon :: ts)
    simp only [edit, Edit.andThen, Edit.opening, Edit.write, List.append_assoc, List.cons_append,
      List.nil_append] at hentry ⊢
    rw [hentry]
    simp [landmarks, Token.mark, hname, hcolon, Kind.isLiteral, shown]
  | dot i t =>
    cases i with
    | some u => exact landmarks_openingArgument u.position b stack ts
    | none =>
      have hclose := Edit.closingArgument_tracks hC t.position stack
      simp only [edit, Edit.andThen, List.append_assoc]
      rw [hclose]
      exact landmarks_openingArgument t.position b _ ts
  | dedent t => exact Edit.closingArgument_tracks hC t.position stack ts
  | blankLine t => exact Edit.closingAll_tracks hC t.position stack ts
  | strayIndent t | lineEnd t => rfl
  | other t =>
    have hframe : t.kind.frame? = none := hu t (by simp [tokens])
    simp only [edit, Edit.write, List.cons_append, List.nil_append, landmarks, shown]
    cases hk : t.kind with
    | opening f => rw [hk] at hframe; cases hframe
    | _ => rfl

/-- A whole run. -/
theorem landmarks_bracket (hfit : ∀ c ∈ cs, c.Fits) (hu : ∀ c ∈ cs, Unmarked c.tokens)
    (stack : List Frame) (last : Position) : landmarks (bracket stack last cs) = allShown cs := by
  induction cs generalizing stack last with
  | nil =>
    have hclose := Edit.closingAll_tracks landmarks_replaysClosings last stack []
    simpa [bracket, landmarks, allShown] using hclose
  | cons c cs ih =>
    have hrest := ih (fun d hd => hfit d (by simp [hd])) (fun d hd => hu d (by simp [hd]))
    rw [bracket, landmarks_edit (hfit c (by simp)) (hu c (by simp)), hrest, allShown]

/-! Cues against the tokens that they are read from. -/

theorem ofTokens_colon (hu : u.kind = .colon) : ofTokens (u :: ts) = other u :: ofTokens ts := by
  simp [attach, single, hu]

theorem ofTokens_name (ht : t.kind = .name) (hn : colon? ts = none) :
    ofTokens (t :: ts) = other t :: ofTokens ts := by
  rw [ofTokens_cons]
  unfold attach
  split
  case h_1 u cs _ hcs =>
    have hhead := head?_of_ofTokens hcs
    have hu : u.kind ≠ .colon := by simpa [colon?, hhead, first] using hn
    rw [if_neg hu, hcs]
  case h_2 hk _ => rw [ht] at hk; cases hk
  case h_3 => simp [single, ht]

theorem ofTokens_header (ht : t.kind = .name) (hu : u.kind = .colon) :
    ofTokens (t :: u :: ts) = header t u :: ofTokens ts := by
  rw [ofTokens_cons, ofTokens_colon hu]
  simp [attach, ht, hu]

theorem headerFirst_ofTokens (ts : List Token) : headerFirst (ofTokens ts) = headerNext ts := by
  cases ts with
  | nil => rfl
  | cons t ts =>
    by_cases ht : t.kind = .name
    · cases hn : colon? ts with
      | none => simp [ofTokens_name ht hn, headerFirst, isHeader, headerNext, hn]
      | some u =>
        obtain ⟨us, rfl, hu⟩ := exists_of_colon? hn
        simp [ofTokens_header ht hu, headerFirst, isHeader, headerNext, ht, hn]
    · have hfirst : headerFirst (attach t (ofTokens ts)) = false := by
        unfold attach
        split
        · contradiction
        · rfl
        · unfold single
          split <;> rfl
      simp [hfirst, headerNext, ht]

/-- The landmarks that cues show are announced by their tokens. -/
theorem allShown_ofTokens (ts : List Token) : allShown (ofTokens ts) = announced ts := by
  induction ts with
  | nil => rfl
  | cons t ts ih =>
    by_cases hname : t.kind = .name
    · cases hn : colon? ts with
      | none =>
        rw [ofTokens_name hname hn, allShown, ih, announced]
        simp [shown, hname, hn, Kind.isLiteral]
      | some u =>
        obtain ⟨us, rfl, hu⟩ := exists_of_colon? hn
        rw [ofTokens_colon hu] at ih
        simp only [ofTokens_header hname hu, allShown]
        rw [announced, ← ih]
        simp [allShown, shown, hname, hn, hu, Kind.isLiteral]
    · by_cases hindent : t.kind = .indent
      · have hcue : allShown (ofTokens (t :: ts)) = allShown (ofTokens ts) := by
          rcases ofTokens_indent hindent ts with ⟨-, hstray⟩ | ⟨-, u, cs, hcs, hdot⟩
          · rw [hstray]
            rfl
          · rw [hdot, hcs]
            rfl
        rw [hcue, ih]
        simp [announced, hindent, Kind.isLiteral]
      · rw [ofTokens_cons, attach_single hname hindent, allShown, headerFirst_ofTokens, ih,
          announced]
        cases hk : t.kind <;> simp_all [single, shown, dotLandmarks, Kind.isLiteral]

end Cue

/-! The second pass, run by run. -/

/-- Tokens that announce nothing. -/
def Silent (t : Token) : Prop := t.kind.isLiteral = false ∧ t.kind ≠ .dotSpace

theorem announced_silent (h : ∀ t ∈ ts, Silent t) : announced (ts ++ us) = announced us := by
  induction ts with
  | nil => rfl
  | cons t ts ih =>
    obtain ⟨hl, hd⟩ := h t (by simp)
    have hts := ih fun v hv => h v (by simp [hv])
    have hsilent : announced (t :: (ts ++ us)) = announced (ts ++ us) := by
      rw [announced]
      cases hk : t.kind <;> simp_all [Kind.isLiteral]
    rw [List.cons_append, hsilent, hts]

/-- A token that is no dot sees no further than to a colon. -/
theorem announced_cons (hd : t.kind ≠ .dotSpace) (hcolon : colon? ts = colon? us)
    (h : announced ts = announced us) : announced (t :: ts) = announced (t :: us) := by
  rw [announced, announced, hcolon, h]
  cases hk : t.kind <;> simp_all

theorem silent_of_kind {k : Kind} (h : t.kind = k) (hk : k.isLiteral = false ∧ k ≠ .dotSpace) :
    Silent t := by
  rwa [Silent, h]

theorem climb_silent {old new : Nat} {p : Position} : ∀ t ∈ climb old new p, Silent t := by
  intro t ht
  rcases mem_climb ht with rfl | rfl
  · exact silent_of_kind (k := .indent) rfl (by decide)
  · exact silent_of_kind (k := .unindent) rfl (by decide)

theorem lineBreak_silent (ts : List Token) : ∀ t ∈ Run.lineBreak ts, Silent t := by
  cases ts with
  | nil => simp [Run.lineBreak]
  | cons t ts =>
    intro u hu
    obtain rfl := List.mem_singleton.1 hu
    exact silent_of_kind (k := .lineBreak) rfl (by decide)

namespace Run

variable {r : Run} {rs : List Run}

theorem colon?_climb {old new : Nat} {p : Position} (h : colon? ts = none) :
    colon? (climb old new p ++ ts) = none := by
  cases hc : climb old new p with
  | nil => exact h
  | cons u us =>
    have hmem : u ∈ climb old new p := by rw [hc]; exact List.mem_cons_self
    rcases mem_climb hmem with rfl | rfl <;> rfl

theorem headerNext_climb {old new : Nat} {p : Position} (h : headerNext ts = false) :
    headerNext (climb old new p ++ ts) = false := by
  cases hc : climb old new p with
  | nil => exact h
  | cons u us =>
    have hmem : u ∈ climb old new p := by rw [hc]; exact List.mem_cons_self
    rcases mem_climb hmem with rfl | rfl <;> rfl

/-- What tokens start with when their runs are resolved, leading spaces apart. -/
theorem colon?_resolve (hfit : ∀ r ∈ rs, r.Fits) (hs : ∀ r ∈ rs.head?, r.isSpaces = false)
    (level : Nat) (last : Position) :
    colon? (resolve level last rs) = colon? (rs.flatMap tokens) := by
  rcases rs with _ | ⟨r, rs⟩
  · have hout : colon? (climb level 0 last ++ []) = none := colon?_climb rfl
    rwa [List.append_nil] at hout
  · cases r with
    | newlines t more => rfl
    | spaces t more d => cases hs _ rfl
    | dot t =>
      have hr : (dot t).Fits := hfit _ (by simp)
      have ht : t.kind ≠ .colon := by rw [show t.kind = .dotSpace from hr]; decide
      rw [resolve, colon?_climb (colon?_of_ne ht _)]
      exact (colon?_of_ne ht _).symm
    | other t => rfl

theorem headerNext_resolve (hfit : ∀ r ∈ rs, r.Fits) (hchain : rs.IsChain MayPrecede)
    (hs : ∀ r ∈ rs.head?, r.isSpaces = false) (level : Nat) (last : Position) :
    headerNext (resolve level last rs) = headerNext (rs.flatMap tokens) := by
  rcases rs with _ | ⟨r, rs⟩
  · have hout : headerNext (climb level 0 last ++ []) = false := headerNext_climb rfl
    rwa [List.append_nil] at hout
  · have hr : r.Fits := hfit r (by simp)
    cases r with
    | newlines t more =>
      have hout (ts : List Token) : headerNext (t :: ts) = false := by
        simp [headerNext, show t.kind = .newline from hr.1]
      exact (hout _).trans (hout _).symm
    | spaces t more d => cases hs _ rfl
    | dot t =>
      have hout (ts : List Token) : headerNext (t :: ts) = false := by
        simp [headerNext, show t.kind = .dotSpace from hr]
      rw [resolve, headerNext_climb (hout _)]
      exact (hout _).symm
    | other t =>
      have hnext := colon?_resolve (fun s hs => hfit s (by simp [hs]))
        (not_isSpaces_of_chain hchain (by simp)) level t.position
      simp [resolve, headerNext, hnext, tokens]

/-- A whole run. -/
theorem announced_resolve (hfit : ∀ r ∈ rs, r.Fits) (hchain : rs.IsChain MayPrecede)
    (level : Nat) (last : Position) :
    announced (resolve level last rs) = announced (rs.flatMap tokens) := by
  induction rs generalizing level last with
  | nil =>
    have hout : announced (climb level 0 last ++ []) = [] := announced_silent climb_silent
    rwa [List.append_nil] at hout
  | cons r rs ih =>
    have hr : r.Fits := hfit r (by simp)
    have hfit' : ∀ s ∈ rs, s.Fits := fun s hs => hfit s (by simp [hs])
    have hchain' : rs.IsChain MayPrecede := (List.isChain_cons.1 hchain).2
    have hrest (level : Nat) (last : Position) := ih hfit' hchain' level last
    -- no line starts behind a dot, so the same header is seen on both sides
    have hdot (hn : ∀ t more, r ≠ newlines t more) {t : Token} (ht : t.kind = .dotSpace)
        (level : Nat) (last : Position) : announced (t :: resolve level last rs) =
          announced (t :: rs.flatMap tokens) := by
      have hheader := headerNext_resolve hfit' hchain' (not_isSpaces_of_chain hchain hn) level last
      rw [announced, announced, hheader, hrest, ht]
    rw [List.flatMap_cons]
    cases r with
    | newlines t more =>
      have hline : ∀ u ∈ t :: more, Silent u := by
        intro u hu
        have hk : u.kind = .newline := by
          rcases List.mem_cons.1 hu with rfl | hu
          · exact hr.1
          · exact hr.2 u hu
        exact silent_of_kind hk (by decide)
      rw [tokens, announced_silent hline]
      simp only [resolve, List.cons_append, List.append_assoc]
      rw [← List.singleton_append, announced_silent (by simp [hline]),
        announced_silent (lineBreak_silent more), announced_silent climb_silent]
      exact hrest _ t.position
    | spaces t more d =>
      obtain ⟨ht, hmore, hd⟩ := hr
      have hspaces : ∀ u ∈ t :: more, Silent u := by
        intro u hu
        have hk : u.kind = .space := by
          rcases List.mem_cons.1 hu with rfl | hu
          · exact ht
          · exact hmore u hu
        exact silent_of_kind hk (by decide)
      simp only [tokens, resolve, List.append_assoc]
      rw [announced_silent hspaces, announced_silent climb_silent]
      cases d with
      | none => exact hrest _ t.position
      | some u => exact hdot (by simp) (hd u rfl) _ t.position
    | dot t =>
      rw [resolve, announced_silent climb_silent]
      exact hdot (by simp) hr 1 t.position
    | other t =>
      have hcolon := colon?_resolve hfit' (not_isSpaces_of_chain hchain (by simp)) level t.position
      exact announced_cons hr.2.2 hcolon (hrest level t.position)

end Run
/-! All passes. -/

/-- The tokens of the first pass announce what the frames of the third one show. -/
theorem landmarks_lex (source path : String) (o : Options) :
    landmarks (lex source path o).tokens = announced (lexUpTo .scan source path o).tokens := by
  have hu : Unmarked (lexUpTo .indent source path o).tokens :=
    resolveLevels_unmarked (Stream.scan_unmarked _ path o)
  have hframes : landmarks (lex source path o).tokens =
      Cue.allShown (Cue.ofTokens (lexUpTo .indent source path o).tokens) :=
    Cue.landmarks_bracket (Cue.ofTokens_fits _)
      (fun c hc t ht => hu t (Cue.mem_of_mem_ofTokens hc t ht)) [] {}
  have hlevels : announced (lexUpTo .indent source path o).tokens =
      announced (lexUpTo .scan source path o).tokens := by
    have hrun := Run.announced_resolve (Run.ofTokens_fits _) (isChain_scan source path o) 0 {}
    rwa [Run.flatMap_tokens_ofTokens] at hrun
  rw [hframes, Cue.allShown_ofTokens, hlevels]

end SectionLexer
