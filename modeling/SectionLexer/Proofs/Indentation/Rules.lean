import Mathlib.Data.List.Chain
import SectionLexer.Proofs.Junctions

/-! The rules of indentation: the level in force at a token depends on the spaces or the line ends
right in front of it, and on the level in force before these. -/
namespace SectionLexer

/-- What stands right in front of a token: line ends, spaces from some place on, or neither. -/
inductive Front where
  | nothing
  | newlines (count : Nat)
  | spaces (first : Position) (width : Nat)
deriving DecidableEq, Repr

/-- What the rules read off tokens: the longest runs of spaces, each with the level in force before
it, and the tokens that are kept, each with the level in force at it. -/
inductive Item where
  | spaces (first : Position) (width : Nat) (dotted : Bool) (before : Nat)
  | token (t : Token) (level : Nat)
deriving DecidableEq, Repr

namespace Front

/-- What stands in front of the token behind `t`. -/
def behind (f : Front) (t : Token) : Front :=
  match t.kind, f with
  | .newline, newlines n => newlines (n + 1)
  | .newline, _ => newlines 1
  | .space, spaces p n => spaces p (n + 1)
  | .space, _ => spaces t.position 1
  | _, _ => nothing

/-- The level in force at a token of kind `k`, if `level` is in force at the token before it. -/
def levelAt (f : Front) (level : Nat) (k : Kind) : Nat :=
  match k, f with
  | .dotSpace, spaces _ n => n / 2 + 1
  | .dotSpace, _ => 1
  | _, spaces _ n => n / 2
  | .newline, newlines _ => level
  | _, newlines _ => 0
  | _, nothing => level

/-- What is kept of a token that is no space: of several line ends the first one, and at the second
one the mark of a blank line. -/
def kept (f : Front) (t : Token) : List Token :=
  match t.kind, f with
  | .newline, newlines 1 => [.mark .lineBreak t.position]
  | .newline, newlines (_ + 2) => []
  | _, _ => [t]

/-- The run of spaces that ends in front of a token of kind `k`, or of none. -/
def run (f : Front) (level : Nat) (k : Option Kind) : List Item :=
  match f with
  | spaces p n => [.spaces p n (k == some .dotSpace) level]
  | _ => []

end Front

/-- All items of tokens behind level `level`. -/
def items (level : Nat) (f : Front) : List Token → List Item
  | [] => f.run level none
  | t :: ts =>
    if t.kind = .space then items level (f.behind t) ts
    else
      f.run level t.kind ++ (f.kept t).map (.token · (f.levelAt level t.kind)) ++
        items (f.levelAt level t.kind) (f.behind t) ts

namespace Item

/-- A kept token, with the level in force at it. -/
def token? : Item → Option (Token × Nat)
  | token t n => some (t, n)
  | spaces .. => none

end Item

variable {t : Token} {ts us : List Token} {level : Nat} {p : Position}

/-- A token that is neither a line end nor a space ends what stands in front of it. -/
theorem items_cons (hn : t.kind ≠ .newline) (hs : t.kind ≠ .space) (f : Front) :
    items level f (t :: ts) = f.run level t.kind ++
      .token t (f.levelAt level t.kind) :: items (f.levelAt level t.kind) .nothing ts := by
  have hkept : f.kept t = [t] := by
    unfold Front.kept
    split <;> simp_all
  have hbehind : f.behind t = .nothing := by
    unfold Front.behind
    split <;> simp_all
  simp [items, hs, hkept, hbehind]

theorem levelAt_other (hn : t.kind ≠ .newline) (hd : t.kind ≠ .dotSpace) (f : Front) :
    f.levelAt level t.kind = match f with
      | .nothing => level
      | .newlines _ => 0
      | .spaces _ n => n / 2 := by
  unfold Front.levelAt
  split <;> simp_all

theorem items_newlines (h : ∀ u ∈ ts, u.kind = .newline) (k : Nat) (us : List Token) :
    items level (.newlines (k + 2)) (ts ++ us) = items level (.newlines (k + 2 + ts.length)) us := by
  induction ts generalizing k with
  | nil => rfl
  | cons t ts ih =>
    have ht : t.kind = .newline := h t (by simp)
    have hrest := ih (fun u hu => h u (by simp [hu])) (k + 1)
    simp only [List.cons_append, items, ht, Front.run, Front.kept, Front.levelAt, Front.behind]
    simpa [Nat.add_assoc, Nat.add_comm, Nat.add_left_comm] using hrest

/-- Line ends keep the level. -/
theorem items_lineEnds (ht : t.kind = .newline) (hts : ∀ u ∈ ts, u.kind = .newline)
    (us : List Token) :
    items level .nothing (t :: ts ++ us) =
      .token t level :: (Run.lineBreak ts).map (.token · level) ++
        items level (.newlines (ts.length + 1)) us := by
  cases ts with
  | nil => simp [items, ht, Front.run, Front.kept, Front.levelAt, Front.behind, Run.lineBreak]
  | cons u ts =>
    have hu : u.kind = .newline := hts u (by simp)
    have hrest : items level (.newlines (0 + 2)) (ts ++ us) = _ :=
      items_newlines (fun v hv => hts v (by simp [hv])) 0 us
    simp only [List.cons_append, items, ht, hu, Front.run, Front.kept, Front.levelAt, Front.behind,
      Run.lineBreak]
    simpa [Nat.add_assoc, Nat.add_comm, Nat.add_left_comm] using hrest

theorem items_spaces (h : ∀ u ∈ ts, u.kind = .space) (k : Nat) (us : List Token) :
    items level (.spaces p k) (ts ++ us) = items level (.spaces p (k + ts.length)) us := by
  induction ts generalizing k with
  | nil => rfl
  | cons t ts ih =>
    have ht : t.kind = .space := h t (by simp)
    have hrest := ih (fun u hu => h u (by simp [hu])) (k + 1)
    simp only [List.cons_append, items, ht, Front.behind]
    simpa [Nat.add_assoc, Nat.add_comm, Nat.add_left_comm] using hrest

theorem items_leadingSpaces (ht : t.kind = .space) (hts : ∀ u ∈ ts, u.kind = .space)
    (us : List Token) : items level .nothing (t :: ts ++ us) =
      items level (.spaces t.position (ts.length + 1)) us := by
  have hrest : items level (.spaces t.position 1) (ts ++ us) = _ := items_spaces hts 1 us
  rw [Nat.add_comm, ← hrest]
  simp [items, ht, Front.behind]

/-! Items run by run. -/

namespace Run

variable {r : Run} {rs : List Run}

/-- Longest runs: line ends do not go on behind line ends, nor spaces behind spaces, and a dot
belongs to the spaces in front of it. -/
def Apart : Run → Run → Prop
  | newlines .., s => s.isNewlines = false
  | spaces _ _ none, s => s.setsLevel = false
  | _, _ => True

theorem attach_apart (t : Token) (h : rs.IsChain Apart) : (attach t rs).IsChain Apart := by
  unfold attach
  split
  case h_1 u more rs _ =>
    obtain ⟨hhead, htail⟩ := List.isChain_cons.1 h
    exact List.isChain_cons.2 ⟨hhead, htail⟩
  case h_2 hne =>
    refine List.isChain_cons.2 ⟨fun s hs => ?_, h⟩
    obtain ⟨rs, rfl⟩ := List.head?_eq_some_iff.1 hs
    cases s with
    | newlines u more => exact absurd rfl (hne u more rs)
    | _ => rfl
  case h_3 u more d rs _ =>
    obtain ⟨hhead, htail⟩ := List.isChain_cons.1 h
    refine List.isChain_cons.2 ⟨fun s hs => ?_, htail⟩
    cases d with
    | none => exact hhead s hs
    | some v => trivial
  case h_4 => exact List.isChain_cons.2 ⟨fun _ _ => trivial, (List.isChain_cons.1 h).2⟩
  case h_5 hspaces hdot =>
    refine List.isChain_cons.2 ⟨fun s hs => ?_, h⟩
    obtain ⟨rs, rfl⟩ := List.head?_eq_some_iff.1 hs
    cases s with
    | spaces u more d => exact absurd rfl (hspaces u more d rs)
    | dot u => exact absurd rfl (hdot u rs)
    | _ => rfl
  case h_6 => exact List.isChain_cons.2 ⟨fun _ _ => trivial, h⟩
  case h_7 => exact List.isChain_cons.2 ⟨fun _ _ => trivial, h⟩

theorem ofTokens_apart (ts : List Token) : (ofTokens ts).IsChain Apart := by
  induction ts with
  | nil => exact .nil
  | cons t ts ih => exact attach_apart t ih

/-- The items of runs behind level `level`. -/
def items (level : Nat) (rs : List Run) : List Item :=
  SectionLexer.items level .nothing (rs.flatMap tokens)

theorem items_dot (ht : t.kind = .dotSpace) :
    items level (dot t :: rs) = .token t 1 :: items 1 rs := by
  have hcons : SectionLexer.items level .nothing (t :: rs.flatMap tokens) = _ :=
    items_cons (by simp [ht]) (by simp [ht]) .nothing
  simpa [items, tokens, Front.run, Front.levelAt, ht] using hcons

theorem items_other (hr : (other t).Fits) :
    items level (other t :: rs) = .token t level :: items level rs := by
  obtain ⟨hn, hs, hd⟩ := hr
  have hcons : SectionLexer.items level .nothing (t :: rs.flatMap tokens) = _ :=
    items_cons hn hs .nothing
  simpa [items, tokens, Front.run, levelAt_other hn hd] using hcons

/-- Line ends lead to level zero, unless the line behind them sets its own level. -/
theorem items_lineEnds {more : List Token} (hr : (newlines t more).Fits) (hfit : ∀ r ∈ rs, r.Fits)
    (h : ∀ r ∈ rs.head?, r.isNewlines = false) (p : Position) :
    items level (newlines t more :: rs) =
      .token t level :: (lineBreak more).map (.token · level) ++
        items (afterNewline level p rs).1 rs := by
  have hbehind : SectionLexer.items level (.newlines (more.length + 1)) (rs.flatMap tokens) =
      items (afterNewline level p rs).1 rs := by
    cases rs with
    | nil => rfl
    | cons r rs =>
      have hr : r.Fits := hfit r (by simp)
      cases r with
      | newlines t more => exact absurd (h _ rfl) (by simp [isNewlines])
      | spaces t more d =>
        simp [items, tokens, SectionLexer.items, hr.1, Front.behind, afterNewline, setsLevel]
      | dot t =>
        have ht : t.kind = .dotSpace := hr
        simp [items, tokens, items_cons, ht, Front.run, Front.levelAt]
      | other t =>
        obtain ⟨hn, hs, hd⟩ := hr
        simp [items, tokens, items_cons hn hs, levelAt_other hn hd, Front.run, afterNewline,
          setsLevel]
  rw [← hbehind]
  exact SectionLexer.items_lineEnds hr.1 hr.2 _

/-- Spaces set the level of their line. -/
theorem items_spaces {more : List Token} {d : Option Token} (hr : (spaces t more d).Fits)
    (hfit : ∀ r ∈ rs, r.Fits) (h : ∀ r ∈ rs.head?, (spaces t more d).Apart r) :
    items level (spaces t more d :: rs) =
      .spaces t.position (more.length + 1) d.isSome level ::
        d.toList.map (.token · (lineLevel (more.length + 1) d.isSome)) ++
        items (lineLevel (more.length + 1) d.isSome) rs := by
  obtain ⟨ht, hmore, hd⟩ := hr
  rw [items, List.flatMap_cons, tokens, List.append_assoc, items_leadingSpaces ht hmore]
  cases d with
  | some u =>
    have hu : u.kind = .dotSpace := hd u rfl
    rw [Option.toList, List.singleton_append,
      items_cons (show u.kind ≠ .newline by simp [hu]) (by simp [hu])]
    simp [hu, Front.run, Front.levelAt, lineLevel, items]
  | none =>
    cases rs with
    | nil => rfl
    | cons r rs =>
      have hr : r.Fits := hfit r (by simp)
      cases r with
      | newlines t more =>
        simp [items, tokens, SectionLexer.items, hr.1, Front.run, Front.behind, Front.kept,
          Front.levelAt, lineLevel]
      | spaces t more d | dot t => exact absurd (h _ rfl) (by simp [Apart, setsLevel])
      | other t =>
        obtain ⟨hn, hs, hd⟩ := hr
        simp [items, tokens, items_cons hn hs, levelAt_other hn hd, Front.run, lineLevel, hd]

end Run

end SectionLexer
