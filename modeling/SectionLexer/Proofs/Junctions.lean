import Mathlib.Data.List.DropRight
import SectionLexer.Proofs.Frames
import SectionLexer.Proofs.Kinds
import SectionLexer.Proofs.Levels

/-! Tokens behind other tokens. What the passes make of the first ones does not depend on the rest,
and the rest depends on the level and the open frames that the first ones leave, and on no more. -/
namespace SectionLexer

variable {ts us : List Token} {t u : Token}

/-- Line ends, leading spaces and dots decide the level of a line. -/
def Token.DecidesLevel (t : Token) : Prop := t.kind ∈ [Kind.newline, .space, .dotSpace]

namespace Run

variable {rs qs : List Run}

def isNewlines : Run → Bool
  | newlines .. => true
  | _ => false

theorem attach_ne_nil (t : Token) (rs : List Run) : attach t rs ≠ [] := by
  unfold attach
  split <;> simp

/-- A token reaches no further than into the first run behind it. -/
theorem attach_append (hrs : rs ≠ []) (t : Token) (qs : List Run) :
    attach t (rs ++ qs) = attach t rs ++ qs := by
  obtain ⟨r, rs, rfl⟩ := List.exists_cons_of_ne_nil hrs
  cases r <;> cases h : t.kind <;> simp [attach, h]

theorem ofTokens_append
    (h : ∀ t ∈ ts.getLast?, attach t (ofTokens us) = attach t [] ++ ofTokens us) :
    ofTokens (ts ++ us) = ofTokens ts ++ ofTokens us := by
  induction ts with
  | nil => rfl
  | cons t ts ih =>
    rcases ts with _ | ⟨v, ts⟩
    · exact h t (by simp)
    · have hrest := ih (by simpa using h)
      have hne : ofTokens (v :: ts) ≠ [] := attach_ne_nil v _
      rw [List.cons_append, ofTokens_cons, hrest, attach_append hne]
      rfl

theorem attach_other_cons (t u : Token) (rs : List Run) :
    attach t (other u :: rs) = attach t [] ++ other u :: rs := by
  cases h : t.kind <;> simp [attach, h]

theorem ofTokens_cons_of_not_decidesLevel (h : ¬ t.DecidesLevel) (ts : List Token) :
    ofTokens (t :: ts) = other t :: ofTokens ts := by
  simp only [Token.DecidesLevel, List.mem_cons, List.not_mem_nil, or_false, not_or] at h
  exact attach_other h.1 h.2.1 h.2.2 _

theorem attach_attach_newline (ht : t.kind ≠ .newline) (hu : u.kind = .newline) (rs : List Run) :
    attach t (attach u rs) = attach t [] ++ attach u rs := by
  rcases rs with _ | ⟨r, rs⟩
  · cases h : t.kind <;> simp_all [attach]
  · cases r <;> cases h : t.kind <;> simp_all [attach]

/-- Where line ends start, a run starts. -/
theorem ofTokens_append_newlines (hts : ∀ v ∈ ts.getLast?, v.kind ≠ .newline)
    (hus : ∀ v ∈ us.head?, v.kind = .newline) :
    ofTokens (ts ++ us) = ofTokens ts ++ ofTokens us := by
  refine ofTokens_append fun v hv => ?_
  cases us with
  | nil => simp
  | cons u us => exact attach_attach_newline (hts v hv) (hus u rfl) _

/-- The last run of tokens that end in no line end is none of line ends. -/
theorem not_isNewlines_getLast (h : ∀ t ∈ ts.getLast?, t.kind ≠ .newline) :
    ∀ r ∈ (ofTokens ts).getLast?, r.isNewlines = false := by
  intro r hr
  obtain ⟨rs, hrs⟩ := List.getLast?_eq_some_iff.1 hr
  cases r with
  | newlines u more =>
    obtain ⟨hu, hmore⟩ : (newlines u more).Fits := ofTokens_fits ts _ (by simp [hrs])
    have hts := flatMap_tokens_ofTokens ts
    rw [hrs, List.flatMap_append] at hts
    obtain ⟨v, hv⟩ : ∃ v, (u :: more).getLast? = some v := ⟨_, List.getLast?_cons⟩
    have hlast : ts.getLast? = some v := by simp [← hts, tokens, hv]
    have hkind : v.kind = .newline := by
      rcases List.mem_cons.1 (List.mem_of_getLast? hv) with rfl | hmem
      · exact hu
      · exact hmore v hmem
    exact absurd hkind (h v hlast)
  | _ => rfl

/-- Runs that look the same to line ends in front of them. -/
def LookAlike (qs qs' : List Run) : Prop :=
  ∀ level p, afterNewline level p qs = afterNewline level p qs'

/-- What follows is resolved as it is behind any runs that lead to the same level. The last of the
runs looks ahead if it is one of line ends. -/
theorem resolve_append (rs qs₀ : List Run) (level : Nat) (last : Position) :
    ∃ out next p, ∀ qs, ((∃ r ∈ rs.getLast?, r.isNewlines = true) → LookAlike qs qs₀) →
      resolve level last (rs ++ qs) = out ++ resolve next p qs := by
  induction rs generalizing level last with
  | nil => exact ⟨[], level, last, fun _ _ => rfl⟩
  | cons r rs ih =>
    have hlast {qs : List Run}
        (h : (∃ s ∈ (r :: rs).getLast?, s.isNewlines = true) → LookAlike qs qs₀) :
        (∃ s ∈ rs.getLast?, s.isNewlines = true) → LookAlike qs qs₀ := by
      rintro ⟨s, hs, hn⟩
      refine h ⟨s, ?_, hn⟩
      cases rs with
      | nil => cases hs
      | cons _ _ => simpa using hs
    cases r with
    | newlines t more =>
      obtain ⟨out, next, p, hrest⟩ :=
        ih (afterNewline level t.position (rs ++ qs₀)).1 t.position
      refine ⟨t :: lineBreak more ++ climb level (afterNewline level t.position (rs ++ qs₀)).1
        (afterNewline level t.position (rs ++ qs₀)).2 ++ out, next, p, fun qs hqs => ?_⟩
      -- line ends look at the run behind them, which is one of `rs` unless they are the last
      have hahead : afterNewline level t.position (rs ++ qs) =
          afterNewline level t.position (rs ++ qs₀) := by
        cases rs with
        | nil => exact hqs ⟨_, rfl, rfl⟩ level t.position
        | cons _ _ => rfl
      simp only [List.cons_append, resolve, hahead, hrest qs (hlast hqs), List.append_assoc]
    | spaces t more d =>
      obtain ⟨out, next, p, hrest⟩ := ih (lineLevel (more.length + 1) d.isSome) t.position
      refine ⟨climb level (lineLevel (more.length + 1) d.isSome) t.position ++ d.toList ++ out,
        next, p, fun qs hqs => ?_⟩
      simp only [List.cons_append, resolve, hrest qs (hlast hqs), List.append_assoc]
    | dot t =>
      obtain ⟨out, next, p, hrest⟩ := ih 1 t.position
      refine ⟨climb level 1 t.position ++ t :: out, next, p, fun qs hqs => ?_⟩
      simp only [List.cons_append, resolve, hrest qs (hlast hqs), List.append_assoc]
    | other t =>
      obtain ⟨out, next, p, hrest⟩ := ih level t.position
      refine ⟨t :: out, next, p, fun qs hqs => ?_⟩
      simp only [List.cons_append, resolve, hrest qs (hlast hqs)]

theorem resolve_behind (h : ∀ r ∈ rs.getLast?, r.isNewlines = false) (level : Nat)
    (last : Position) :
    ∃ out next p, ∀ qs, resolve level last (rs ++ qs) = out ++ resolve next p qs := by
  obtain ⟨out, next, p, hout⟩ := resolve_append rs [] level last
  refine ⟨out, next, p, fun qs => hout qs ?_⟩
  rintro ⟨r, hr, hn⟩
  rw [h r hr] at hn
  cases hn

end Run

/-- Tokens, with the line ends that they end in. -/
theorem exists_lineEnds (ts : List Token) : ∃ front ends, ts = front ++ ends ∧
    (∀ t ∈ front.getLast?, t.kind ≠ .newline) ∧ ∀ t ∈ ends, t.kind = .newline := by
  refine ⟨ts.rdropWhile (·.kind == .newline), ts.rtakeWhile (·.kind == .newline),
    List.rdropWhile_append_rtakeWhile.symm, fun t ht => ?_, fun t ht => ?_⟩
  · obtain ⟨hne, rfl⟩ := List.mem_getLast?_eq_getLast ht
    simpa using List.rdropWhile_last_not _ _ hne
  · simpa using List.mem_rtakeWhile_imp ht

namespace Cue

variable {cs ds : List Cue}

theorem attach_ne_nil (t : Token) (cs : List Cue) : attach t cs ≠ [] := by
  unfold attach
  split
  · split <;> simp
  · simp
  · simp

theorem attach_append (hcs : cs ≠ []) (t : Token) (ds : List Cue) :
    attach t (cs ++ ds) = attach t cs ++ ds := by
  obtain ⟨c, cs, rfl⟩ := List.exists_cons_of_ne_nil hcs
  cases c with
  | other u => by_cases hu : u.kind = .colon <;> cases h : t.kind <;> simp [attach, h, hu]
  | dot i u => cases i <;> cases h : t.kind <;> simp [attach, h]
  | _ => cases h : t.kind <;> simp [attach, h]

/-- Only a colon and a dot belong to what stands before them. -/
theorem attach_apart (t : Token) {c : Cue} (hcolon : ∀ u, c = other u → u.kind ≠ .colon)
    (hdot : ∀ u, c ≠ dot none u) (cs : List Cue) : attach t (c :: cs) = attach t [] ++ c :: cs := by
  cases c with
  | other u =>
    have hu : u.kind ≠ .colon := hcolon u rfl
    cases h : t.kind <;> simp [attach, single, h, hu]
  | dot i u =>
    cases i with
    | none => exact absurd rfl (hdot u)
    | some v => cases h : t.kind <;> simp [attach, single, h]
  | _ => cases h : t.kind <;> simp [attach, single, h]

theorem ofTokens_append (h : ∀ u ∈ us.head?, u.kind ≠ .colon ∧ u.kind ≠ .dotSpace) :
    ofTokens (ts ++ us) = ofTokens ts ++ ofTokens us := by
  have hapart (t : Token) : attach t (ofTokens us) = attach t [] ++ ofTokens us := by
    cases hcs : ofTokens us with
    | nil => simp
    | cons c cs =>
      have hhead := head?_of_ofTokens hcs
      have hfit : c.Fits := ofTokens_fits us c (by simp [hcs])
      refine attach_apart t ?_ ?_ cs
      · rintro u rfl
        exact (h u hhead).1
      · rintro u rfl
        exact (h u hhead).2 hfit.2
  induction ts with
  | nil => rfl
  | cons t ts ih =>
    rw [List.cons_append, ofTokens_cons, ih, ofTokens_cons]
    cases hcs : ofTokens ts with
    | nil => exact hapart t
    | cons c cs => exact attach_append (List.cons_ne_nil c cs) t _

theorem headerFirst_append (h : headerFirst ds = false) (cs : List Cue) :
    headerFirst (cs ++ ds) = headerFirst cs := by
  cases cs with
  | nil => exact h
  | cons c cs => rfl

/-- What follows is bracketed as it is behind any cues that leave the same frames open. -/
theorem bracket_append (cs : List Cue) (stack : List Frame) (last : Position) :
    ∃ out left p, ∀ ds, headerFirst ds = false →
      bracket stack last (cs ++ ds) = out ++ bracket left p ds := by
  induction cs generalizing stack last with
  | nil => exact ⟨[], stack, last, fun _ _ => rfl⟩
  | cons c cs ih =>
    obtain ⟨out, left, p, hrest⟩ := ih (c.edit (headerFirst cs) stack).2 c.position
    refine ⟨(c.edit (headerFirst cs) stack).1 ++ out, left, p, fun ds hds => ?_⟩
    simp only [List.cons_append, bracket, headerFirst_append hds, hrest ds hds, List.append_assoc]

end Cue

end SectionLexer
