import SectionLexer.Proofs.Stages

/-! What the path and the report of trailing whitespace change: the path that is shown, the warnings
that are left out, and nothing else. -/
namespace SectionLexer

/-- The same problem in a document at another path. -/
def Diagnostic.withPath (path : String) (d : Diagnostic) : Diagnostic := { d with path := path }

/-- All that the passes up to `last` find wrong, reported or not. -/
def complaintsUpTo (last : Pass) (source : String) (newlines : Nat) : List (Position × Complaint) :=
  let (ts, cs) := scanned source ⟨newlines, true⟩
  match last with
  | .scan => cs
  | .indent => cs ++ levelComplaints ts
  | .bracket => cs ++ levelComplaints ts ++ frameComplaints (resolveLevels ts)

namespace Complaint

variable {c : Complaint}

theorem severity_eq_warning_iff : c.severity = .warning ↔ c = .trailingWhitespace := by
  cases c <;> simp [severity]

/-- Only the first pass complains about spaces. -/
theorem ne_trailingWhitespace_of_pass (h : c.pass ≠ .scan) : c ≠ .trailingWhitespace := by
  rintro rfl
  exact h rfl

end Complaint

variable {source path : String} {o : Options}

/-- The later passes complain about nothing that may be left out. -/
theorem filter_reports_passComplaints (source : String) (o : Options) {pass : Pass}
    (h : pass ≠ .scan) : (passComplaints source o pass).filter (fun (_, c) => o.reports c) =
      passComplaints source o pass := by
  refine List.filter_eq_self.2 fun c hc => ?_
  have hne : c.2 ≠ .trailingWhitespace :=
    Complaint.ne_trailingWhitespace_of_pass (by rwa [pass_of_mem_passComplaints hc])
  simp [Options.reports, hne]

/-- What is reported is what is found wrong, but for what the options leave out. -/
theorem lexUpTo_diagnostics (last : Pass) (source path : String) (o : Options) :
    (lexUpTo last source path o).diagnostics = Stream.diagnose path
      ((complaintsUpTo last source o.trailingNewlines).filter fun (_, c) => o.reports c) := by
  have hlevels := filter_reports_passComplaints source o (show Pass.indent ≠ .scan by decide)
  have hframes := filter_reports_passComplaints source o (show Pass.bracket ≠ .scan by decide)
  simp only [passComplaints] at hlevels hframes
  cases last with
  | scan => rfl
  | indent =>
    have hsplit : complaintsUpTo .indent source o.trailingNewlines =
        (scanned source o).2 ++ levelComplaints (scanned source o).1 := rfl
    rw [hsplit, List.filter_append, hlevels]
    exact List.map_append.symm
  | bracket =>
    have hsplit : complaintsUpTo .bracket source o.trailingNewlines = (scanned source o).2 ++
        levelComplaints (scanned source o).1 ++
          frameComplaints (resolveLevels (scanned source o).1) := rfl
    rw [hsplit, List.filter_append, List.filter_append, hlevels, hframes]
    simp only [Stream.diagnose, List.map_append]
    rfl

theorem Options.reports_silent (n : Nat) (c : Complaint) :
    (Options.mk n false).reports c = (c.severity != .warning) := by
  cases c <;> rfl

/-- No option but the line ends behind the document changes a token. -/
theorem lexUpTo_tokens (last : Pass) (source p q : String) (n : Nat) (b c : Bool) :
    (lexUpTo last source p ⟨n, b⟩).tokens = (lexUpTo last source q ⟨n, c⟩).tokens := by
  cases last <;> rfl

/-- Whether trailing whitespace is reported, and under which path, changes nothing but that: the
tokens are the same, and so are the diagnostics, but for the path that they show and for the
warnings, each of them one of trailing whitespace. In particular the same documents have errors. -/
theorem lexUpTo_silent (last : Pass) (source p q : String) (n : Nat) :
    let told := lexUpTo last source p ⟨n, true⟩
    let silent := lexUpTo last source q ⟨n, false⟩
    silent.tokens = told.tokens ∧
      silent.diagnostics =
        (told.diagnostics.filter (·.severity != .warning)).map (Diagnostic.withPath q) ∧
      (∀ d ∈ told.diagnostics, d.path = p ∧ (d.severity = .warning →
        d.pass = .scan ∧ d.message = "unnecessary trailing whitespace")) ∧
      silent.hasErrors = told.hasErrors := by
  intro told silent
  have htold : told.diagnostics = Stream.diagnose p (complaintsUpTo last source n) := by
    rw [lexUpTo_diagnostics]
    exact congrArg _ (List.filter_eq_self.2 fun _ _ => rfl)
  have hsilent : silent.diagnostics =
      (told.diagnostics.filter (·.severity != .warning)).map (Diagnostic.withPath q) := by
    rw [htold, lexUpTo_diagnostics, Stream.diagnose, Stream.diagnose, List.filter_map,
      List.map_map]
    simp only [Options.reports_silent]
    rfl
  refine ⟨lexUpTo_tokens last source q p n false true, hsilent, ?_, ?_⟩
  · rw [htold]
    intro d hd
    obtain ⟨⟨r, c⟩, -, rfl⟩ := List.mem_map.1 hd
    refine ⟨rfl, fun hwarning => ?_⟩
    obtain rfl : c = .trailingWhitespace := Complaint.severity_eq_warning_iff.1 hwarning
    exact ⟨rfl, rfl⟩
  · have hkept (d : Diagnostic) : (d.severity != .warning && d.isError) = d.isError := by
      rcases d with ⟨_ | _, _⟩ <;> rfl
    rw [Stream.hasErrors, hsilent, List.any_map, List.any_filter]
    exact congrArg (List.any told.diagnostics) (funext hkept)

/-- A space behind an argument is told of or not; the error behind it is told of in any case. -/
theorem lexUpTo_silent_space :
    let told := lexUpTo .bracket "a: x \n%" "p" ⟨3, true⟩
    let silent := lexUpTo .bracket "a: x \n%" "q" ⟨3, false⟩
    (∃ d ∈ told.diagnostics, d.severity = .warning ∧ d.pass = .scan ∧
      d.message = "unnecessary trailing whitespace") ∧
    silent.diagnostics = [Diagnostic.withPath "q"
      ((Complaint.unrecognized '%').diagnostic "p" ⟨6, 1, 0⟩)] := by
  intro told silent
  obtain ⟨-, hsilent, htold, -⟩ := lexUpTo_silent .bracket "a: x \n%" "p" "q" 3
  obtain ⟨d, hd, hwarning⟩ : ∃ d ∈ told.diagnostics, d.severity = .warning := by decide +kernel
  refine ⟨⟨d, hd, hwarning, (htold d hd).2 hwarning⟩, ?_⟩
  exact hsilent.trans (by decide +kernel)

end SectionLexer
