import Mathlib.Data.List.Chain
import SectionLexer.Proofs.Kinds
import SectionLexer.Proofs.Neighbours

/-! Leading spaces are read at the start of a line only: behind a line end, or at the start of a
text. -/
namespace SectionLexer

variable {ts : List Token} {t : Token}

/-- A space stands behind a line end or another space. -/
def Token.MayPrecede (t u : Token) : Prop :=
  u.kind = .space → t.kind = .newline ∨ t.kind = .space

namespace Run

variable {r : Run} {rs : List Run}

def isSpaces : Run → Bool
  | spaces .. => true
  | _ => false

/-- Leading spaces stand at the start of a line. -/
def MayPrecede (r s : Run) : Prop := s.isSpaces = true → ∃ t more, r = newlines t more

theorem not_isSpaces_of_chain (hchain : (r :: rs).IsChain MayPrecede)
    (hr : ∀ t more, r ≠ newlines t more) : ∀ s ∈ rs.head?, s.isSpaces = false := by
  intro s hs
  obtain ⟨hhead, -⟩ := List.isChain_cons.1 hchain
  cases h : s.isSpaces with
  | false => rfl
  | true =>
    obtain ⟨t, more, rfl⟩ := hhead s hs h
    exact absurd rfl (hr t more)

/-- Behind a token that is neither a line end nor a space stand no leading spaces. -/
theorem not_isSpaces_ofTokens (h : (t :: ts).IsChain Token.MayPrecede) (hn : t.kind ≠ .newline)
    (hs : t.kind ≠ .space) : ∀ r ∈ (ofTokens ts).head?, r.isSpaces = false := by
  intro r hr
  obtain ⟨rs, hrs⟩ := List.head?_eq_some_iff.1 hr
  cases r with
  | spaces u more d =>
    have hfit : (spaces u more d).Fits := ofTokens_fits ts _ (by simp [hrs])
    rcases (List.isChain_cons.1 h).1 u (head?_of_ofTokens hrs) hfit.1 with hk | hk
    · exact absurd hk hn
    · exact absurd hk hs
  | _ => rfl

theorem isChain_cons_of_not_isSpaces (hrs : rs.IsChain MayPrecede)
    (hs : ∀ s ∈ rs.head?, s.isSpaces = false) : (r :: rs).IsChain MayPrecede := by
  refine List.isChain_cons.2 ⟨fun s hmem hspaces => ?_, hrs⟩
  rw [hs s hmem] at hspaces
  cases hspaces

theorem isChain_newlines (hrs : rs.IsChain MayPrecede) (t : Token) (more : List Token) :
    (newlines t more :: rs).IsChain MayPrecede :=
  List.isChain_cons.2 ⟨fun _ _ _ => ⟨t, more, rfl⟩, hrs⟩

theorem isChain_ofTokens (h : ts.IsChain Token.MayPrecede) : (ofTokens ts).IsChain MayPrecede := by
  induction ts with
  | nil => exact .nil
  | cons t ts ih =>
    have hrs := ih (List.isChain_cons.1 h).2
    have hstart := not_isSpaces_ofTokens h
    rw [ofTokens_cons]
    generalize ofTokens ts = rs at hrs hstart
    unfold attach
    split
    case h_1 u more rs _ => exact isChain_newlines (List.isChain_cons.1 hrs).2 t (u :: more)
    case h_2 => exact isChain_newlines hrs t []
    case h_3 u more d rs _ =>
      exact isChain_cons_of_not_isSpaces (List.isChain_cons.1 hrs).2
        (not_isSpaces_of_chain hrs (by simp))
    case h_4 u rs _ =>
      exact isChain_cons_of_not_isSpaces (List.isChain_cons.1 hrs).2
        (not_isSpaces_of_chain hrs (by simp))
    case h_5 hne _ =>
      refine isChain_cons_of_not_isSpaces hrs fun s hs => ?_
      obtain ⟨rs', rfl⟩ := List.head?_eq_some_iff.1 hs
      cases s with
      | spaces u more d => exact absurd rfl (hne u more d rs')
      | _ => rfl
    case h_6 hk => exact isChain_cons_of_not_isSpaces hrs (hstart (by simp [hk]) (by simp [hk]))
    case h_7 => exact isChain_cons_of_not_isSpaces hrs (hstart (by simp_all) (by simp_all))

end Run

/-- Leading spaces are read at the start of a line only. -/
theorem isChain_tokens (s : List Char) :
    (Piece.tokens {} (Piece.ofText s)).IsChain Token.MayPrecede := by
  refine List.isChain_iff_forall_rel_of_append_cons_cons.2 fun t u front back h hspace => ?_
  have hfollows := Piece.follows_of_tokens (h.trans (List.append_cons front t (u :: back)))
  exact hfollows.space hspace t.kind (by simp)

/-- The first pass leaves leading spaces behind line ends only. -/
theorem isChain_scan (source path : String) (o : Options) :
    (Run.ofTokens (lexUpTo .scan source path o).tokens).IsChain Run.MayPrecede :=
  Run.isChain_ofTokens (isChain_tokens _)

end SectionLexer
