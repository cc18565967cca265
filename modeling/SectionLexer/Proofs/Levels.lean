import SectionLexer.Run.Levels

/-! How runs and levels are read off tokens. -/
namespace SectionLexer

theorem climb_down (n k : Nat) (p : Position) :
    climb (n + k) n p = List.replicate k (Token.mark .unindent p) := by
  have h : ¬ n + k < n := by omega
  simp [climb, h]

theorem climb_zero (n : Nat) (p : Position) :
    climb n 0 p = List.replicate n (Token.mark .unindent p) := by
  simpa using climb_down 0 n p

theorem climb_up (n k : Nat) (p : Position) :
    climb n (n + k) p = List.replicate k (Token.mark .indent p) := by
  cases k with
  | zero => simp
  | succ k => simp [climb]

namespace Run

variable {t u : Token}

/-- A token that decides no level is a run of its own. -/
theorem attach_other (hn : t.kind ≠ .newline) (hs : t.kind ≠ .space) (hd : t.kind ≠ .dotSpace)
    (rs : List Run) : attach t rs = other t :: rs := by
  unfold attach
  split <;> simp_all

theorem ofTokens_spaces_dot (ht : t.kind = .space) (hu : u.kind = .dotSpace) (n : Nat)
    (ts : List Token) :
    ofTokens (List.replicate (n + 1) t ++ u :: ts) =
      spaces t (List.replicate n t) (some u) :: ofTokens ts := by
  induction n with
  | zero => simp [attach, ht, hu]
  | succ n ih =>
    rw [List.replicate_succ, List.cons_append, ofTokens_cons, ih]
    simp [attach, ht, List.replicate_succ]

theorem ofTokens_spaces_other (ht : t.kind = .space) (hn : u.kind ≠ .newline)
    (hs : u.kind ≠ .space) (hd : u.kind ≠ .dotSpace) (n : Nat) (ts : List Token) :
    ofTokens (List.replicate (n + 1) t ++ u :: ts) =
      spaces t (List.replicate n t) none :: other u :: ofTokens ts := by
  induction n with
  | zero =>
    have hother : ofTokens (u :: ts) = other u :: ofTokens ts := attach_other hn hs hd _
    change attach t (ofTokens (u :: ts)) = _
    rw [hother]
    simp [attach, ht]
  | succ n ih =>
    rw [List.replicate_succ, List.cons_append, ofTokens_cons, ih]
    simp [attach, ht, List.replicate_succ]

theorem attach_newline_attach (ht : t.kind = .newline) (hu : u.kind ≠ .newline) (rs : List Run) :
    attach t (attach u rs) = newlines t [] :: attach u rs := by
  rcases rs with _ | ⟨r, rs⟩
  · cases h : u.kind <;> simp_all [attach]
  · cases r <;> cases h : u.kind <;> simp_all [attach]

/-- Line ends that stand together are one run. -/
theorem ofTokens_newlines_append {ts us : List Token} (ht : t.kind = .newline)
    (hts : ∀ v ∈ ts, v.kind = .newline) (hus : ∀ v ∈ us.head?, v.kind ≠ .newline) :
    ofTokens (t :: ts ++ us) = newlines t ts :: ofTokens us := by
  induction ts generalizing t with
  | nil =>
    cases us with
    | nil => simp [attach, ht]
    | cons u us => exact attach_newline_attach ht (hus u rfl) _
  | cons u ts ih =>
    have hrest := ih (hts u (by simp)) fun v hv => hts v (by simp [hv])
    rw [List.cons_append, ofTokens_cons, hrest]
    simp [attach, ht]

theorem ofTokens_newlines {ts : List Token} (ht : t.kind = .newline)
    (hts : ∀ v ∈ ts, v.kind = .newline) : ofTokens (t :: ts) = [newlines t ts] := by
  have hnone : ∀ v ∈ ([] : List Token).head?, v.kind ≠ .newline := by simp
  simpa using ofTokens_newlines_append ht hts hnone

end Run

end SectionLexer
