import SectionLexer.Settings.Loader

/-! The built-in settings, which are those of a document that is read without any. -/
namespace SectionLexer.Settings

/-- The layer below all others. -/
def builtIn : Layer :=
  let options : Options := {}
  let leaf (s : Scalar) : Value := .leaf none s
  [("lexing", .table none
      [("trailing_newlines", leaf (.int options.trailingNewlines)),
        ("report_trailing_whitespace", leaf (.bool options.reportTrailingWhitespace))]),
    ("output", .table none
      [("pipeline", leaf (.text "default")), ("format", leaf (.text Format.simple.label))])]

theorem parse?_builtInText : Toml.parse? none builtInText = some builtIn := by
  rw [Toml.parse?, builtInText, String.toList_join]
  decide +kernel

/-- What a document is read with if nothing is set. -/
theorem defaults_eq : defaults = .ok ⟨{}, "default", .simple⟩ := by
  have hlayer := Source.layer_of_parse? parse?_builtInText
  have hmerge : Library.standard.merge (Loader.sources {}) (Loader.overrides {}) =
      .ok (Value.lay .empty builtIn) := by
    change mergeSources [.ok (builtInText, none)] [] = _
    rw [mergeSources, List.mapM_cons, List.mapM_nil, hlayer]
    rfl
  have hread : ofValue Library.standard.toConversions (Value.lay .empty builtIn) =
      .ok ⟨{}, "default", .simple⟩ := rfl
  rw [defaults, Loader.build_of_merge hmerge, hread]
  rfl

end SectionLexer.Settings
