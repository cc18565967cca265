import SectionLexer.Balance
import SectionLexer.Command.Run
import SectionLexer.Proofs.Kinds
import SectionLexer.Proofs.Replay
import SectionLexer.Proofs.Settings.BuiltIn

/-! The frames that are written are nested: the tokens written so far open exactly the frames on the
stack. -/
namespace SectionLexer

variable {ts : List Token} {stack : List Frame}

theorem imbalance?_unmarked (h : Unmarked ts) (us : List Token) :
    imbalance? stack (ts ++ us) = imbalance? stack us := by
  induction ts with
  | nil => rfl
  | cons t ts ih =>
    obtain ⟨ht, hts⟩ := h.cons
    rw [List.cons_append, imbalance?.eq_def]
    cases hk : t.kind <;> simp_all [Kind.frame?]

theorem imbalance?_replays : Replays imbalance? where
  opening f p stack ts := by cases stack <;> rfl
  closing f p stack ts := by
    rw [imbalance?.eq_def]
    simp [Token.mark]

/-- A whole run, from any stack. -/
theorem Cue.imbalance?_bracket {cs : List Cue} (hc : ∀ c ∈ cs, Unmarked c.tokens)
    (stack : List Frame) (last : Position) : imbalance? stack (bracket stack last cs) = none := by
  induction cs generalizing stack last with
  | nil => exact bracket_nil_replays imbalance?_replays stack last
  | cons c cs ih =>
    have hkept : Unmarked c.kept := fun t ht => hc c (by simp) t (c.kept_subset_tokens t ht)
    rw [bracket_replays imbalance?_replays, imbalance?_unmarked hkept]
    exact ih (fun d hd => hc d (by simp [hd])) _ _

theorem imbalance?_bracketFrames (h : Unmarked ts) : imbalance? [] (bracketFrames ts) = none := by
  apply Cue.imbalance?_bracket
  intro c hc t ht
  apply h
  rw [← Cue.flatMap_tokens_ofTokens ts]
  exact List.mem_flatMap.2 ⟨c, hc, ht⟩

theorem imbalance?_lex (source path : String) (o : Options) :
    imbalance? [] (lex source path o).tokens = none :=
  imbalance?_bracketFrames (resolveLevels_unmarked (Stream.scan_unmarked _ path o))

/-! The check of a document. -/

theorem Stream.hasErrors_iff (s : Stream) :
    s.hasErrors = true ↔ ∃ d ∈ s.diagnostics, d.severity = .error := by
  simp [Stream.hasErrors, Diagnostic.isError]

theorem Command.run_check {files : Files} {path source : String} {name : Option String}
    {settings : Settings} (hs : Command.loadSettings (.ofFiles files name) = .ok settings)
    (hr : Command.readSource files path = .ok source) :
    (Command.check path name).run files =
      ⟨if (lex source path settings.lexing).hasErrors then 1 else 0,
        if (lex source path settings.lexing).hasErrors then "" else path ++ ": ok\n",
        Command.report (lex source path settings.lexing).diagnostics⟩ := by
  simp [Command.run, Command.runCheck, hs, hr, imbalance?_lex, bind, Except.bind, pure, Except.pure]

/-- Whatever the passes read, the frames that they write are balanced; so nothing but an error among
its diagnostics makes a document fail the check. -/
theorem frames_balanced :
    (∀ (s : Stream) (path : String), Unmarked s.tokens →
      imbalance? [] (s.bracket path).tokens = none ∧
        imbalance? [] ((s.indent path).bracket path).tokens = none) ∧
    (∀ source path o, imbalance? [] (lex source path o).tokens = none) ∧
    ∀ files path name settings source,
      Command.loadSettings (.ofFiles files name) = .ok settings →
      Command.readSource files path = .ok source →
      (((Command.check path name).run files).exit ≠ 0 ↔
        ∃ d ∈ (lex source path settings.lexing).diagnostics, d.severity = .error) ∧
      ((Command.check path name).run files).stderr =
        Command.report (lex source path settings.lexing).diagnostics := by
  refine ⟨fun s path h => ⟨imbalance?_bracketFrames h, ?_⟩, imbalance?_lex, ?_⟩
  · exact imbalance?_bracketFrames (resolveLevels_unmarked h)
  · intro files path name settings source hs hr
    rw [Command.run_check hs hr, ← Stream.hasErrors_iff]
    simp

/-- The same bytes at every path, and no settings file anywhere. -/
def Files.constant (bytes : List UInt8) : Files where
  isRegular _ := false
  read _ := .ok bytes

theorem Command.loadSettings_constant (bytes : List UInt8) :
    Command.loadSettings (.ofFiles (.constant bytes) none) =
      .ok ⟨{}, "default", .simple⟩ := by
  have htext : Settings.Library.standard.readFile (.constant bytes) Settings.defaultFile =
      .error (.missingFile Settings.defaultFile) := Settings.fileText_of_missing fun _ _ => rfl
  have hloader : Settings.Loader.ofFiles (.constant bytes) none = {} := by
    simp [Settings.Loader.ofFiles, Settings.Loader.addFile, htext]
  rw [hloader, Command.loadSettings, ← Settings.defaults, Settings.defaults_eq]
  rfl

/-- A stray change of level in front of a dot, and a file that is nothing but a dot. -/
theorem frames_balanced_dot :
    imbalance? [] (Stream.bracket ⟨[.mark .indent {}, .mark .indent {}, .mark .dotSpace {}], []⟩
      "a").tokens = none ∧
    ((Command.check "a" none).run (.constant [0x2E, 0x20])).stderr =
      Command.report (lex ". " "a" {}).diagnostics := by
  obtain ⟨hstream, -, hcheck⟩ := frames_balanced
  constructor
  · exact (hstream _ "a" (by simp [Unmarked, Token.mark, Kind.frame?])).1
  · exact (hcheck _ "a" none _ ". " (Command.loadSettings_constant _) rfl).2

end SectionLexer
