import SectionLexer.Lexing

/-! A document pass by pass: what each pass complains about, and what the passes after the first one
work on. -/
namespace SectionLexer

/-- What the first pass makes of a document: tokens and complaints. -/
def scanned (source : String) (o : Options) : List Token × List (Position × Complaint) :=
  let pieces := Piece.ofText (prepare source o.trailingNewlines).toList
  (Piece.tokens {} pieces, Piece.complaints {} pieces)

theorem lex_tokens (source path : String) (o : Options) :
    (lex source path o).tokens = bracketFrames (resolveLevels (scanned source o).1) := rfl

/-- The complaints of one pass over a document. -/
def passComplaints (source : String) (o : Options) (pass : Pass) : List (Position × Complaint) :=
  match pass with
  | .scan => (scanned source o).2.filter fun (_, c) => o.reports c
  | .indent => levelComplaints (scanned source o).1
  | .bracket => frameComplaints (resolveLevels (scanned source o).1)

theorem Piece.pass_of_complaint {x : Piece} {p : Position} {c : Position × Complaint}
    (h : x.complaint? p = some c) : c.2.pass = .scan := by
  cases faulty_of_complaint h <;> rfl

theorem pass_of_mem_passComplaints {source : String} {o : Options} {pass : Pass}
    {c : Position × Complaint} (h : c ∈ passComplaints source o pass) : c.2.pass = pass := by
  cases pass with
  | scan =>
    obtain ⟨⟨q, x⟩, -, hx⟩ := List.mem_filterMap.1 (List.mem_filter.1 h).1
    exact Piece.pass_of_complaint hx
  | indent =>
    obtain ⟨r, -, hr⟩ := List.mem_filterMap.1 h
    cases r with
    | spaces t more d =>
      simp only [Run.complaint?] at hr
      split at hr <;> cases hr
      rfl
    | _ => cases hr
  | bracket =>
    obtain ⟨r, -, hr⟩ := List.mem_filterMap.1 h
    cases r <;> cases hr
    rfl

theorem lex_diagnostics (source path : String) (o : Options) :
    (lex source path o).diagnostics =
      Stream.diagnose path (passComplaints source o .scan) ++
        Stream.diagnose path (passComplaints source o .indent) ++
        Stream.diagnose path (passComplaints source o .bracket) := rfl

theorem filter_diagnostics (source path : String) (o : Options) (pass : Pass) :
    (lex source path o).diagnostics.filter (·.pass == pass) =
      Stream.diagnose path (passComplaints source o pass) := by
  have hpass (q : Pass) :
      (Stream.diagnose path (passComplaints source o q)).filter (·.pass == pass) =
        if q = pass then Stream.diagnose path (passComplaints source o q) else [] := by
    have hq : ∀ d ∈ Stream.diagnose path (passComplaints source o q), d.pass = q := by
      intro d hd
      obtain ⟨c, hc, rfl⟩ := List.mem_map.1 hd
      exact pass_of_mem_passComplaints hc
    split
    · exact List.filter_eq_self.2 fun d hd => by simp_all
    · exact List.filter_eq_nil_iff.2 fun d hd => by simp_all
  rw [lex_diagnostics, List.filter_append, List.filter_append, hpass, hpass, hpass]
  cases pass <;> simp

end SectionLexer
