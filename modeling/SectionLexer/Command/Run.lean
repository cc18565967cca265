import SectionLexer.Balance
import SectionLexer.Command
import SectionLexer.Registry
import SectionLexer.Settings.Loader
import SectionLexer.Text.Trim

/-! Running a command over the files it can see. -/
namespace SectionLexer

/-- What a command leaves behind. -/
structure Outcome where
  exit : Nat
  stdout : String
  stderr : String
deriving DecidableEq, Repr

namespace Outcome

def success (stdout : String) : Outcome := ⟨0, stdout, ""⟩

def failure (stderr : String) : Outcome := ⟨1, "", stderr⟩

end Outcome

namespace Command

/-- Overrides a setting of the output by a value from the command line, if there is one. -/
def overrideOutput (loader : Settings.Loader) (key : String) (v : Option String) :
    Settings.Loader :=
  match v with
  | some v => loader.override ⟨Settings.Group.output.key, [.key key]⟩ (.leaf none (.text v))
  | none => loader

def loadSettings (loader : Settings.Loader) : Except Outcome Settings :=
  loader.build.mapError fun e => .failure ("Error loading settings: " ++ e.message ++ "\n")

/-- The text of a document. -/
def readSource (files : Files) (path : String) : Except Outcome String :=
  let failed (reason : String) : Except Outcome String :=
    .error (.failure ("Error reading file: " ++ reason ++ "\n"))
  match files.read path with
  | .error fault => failed fault.message
  | .ok bytes => match Utf8.decode? bytes with
    | none => failed Utf8.complaint
    | some source => .ok source

/-- Diagnostics as a command shows them. -/
def report (ds : List Diagnostic) : String :=
  if ds.isEmpty then "" else Diagnostic.displayAll ds ++ "\n"

def runExecute (files : Files) (path : String) (settings pipeline : Option String)
    (format : Option Format) : Except Outcome Outcome := do
  let loader := Settings.Loader.ofFiles files settings
  let loader := overrideOutput loader "pipeline" pipeline
  let loader := overrideOutput loader "format" (format.map Format.label)
  let settings ← loadSettings loader
  let source ← readSource files path
  let rendered := Registry.defaults.render settings.lexing settings.pipeline source path
    settings.format
  match rendered with
  | .error e => throw (.failure ("Execution error: " ++ e.message ++ "\n"))
  | .ok (text, stream) => return ⟨0, Text.trimEnd text ++ "\n", report stream.diagnostics⟩

/-- A document fails the check by an error among its diagnostics, or by frames out of balance. -/
def runCheck (files : Files) (path : String) (settings : Option String) :
    Except Outcome Outcome := do
  let settings ← loadSettings (.ofFiles files settings)
  let source ← readSource files path
  let stream := lex source path settings.lexing
  let imbalance := imbalance? [] stream.tokens
  let complaint := match imbalance with
    | some e => path ++ ": structure error: " ++ e.message ++ "\n"
    | none => ""
  let failed := stream.hasErrors || imbalance.isSome
  return ⟨if failed then 1 else 0, if failed then "" else path ++ ": ok\n",
    report stream.diagnostics ++ complaint⟩

/-- A name and a description for each configuration. -/
def listing (r : Registry) : String :=
  "Available processing configurations:\n\n" ++
    String.join (r.entries.map fun c => "  " ++ c.name ++ "\n    " ++ c.description ++ "\n")

def usageText : String :=
  "Usage:\n" ++
  "  mlg execute <path> [--config <config>] [--format <format>] [--settings <file>]\n" ++
  "  mlg check <path> [--settings <file>]\n" ++
  "  mlg list-configs\n"

end Command

def Notice.outcome : Notice → Outcome
  | version => .success "mlg 0.1.0\n"
  | help => .success Command.usageText
  | usage => ⟨2, "", Command.usageText⟩

namespace Command

def run (files : Files) (c : Command) : Outcome :=
  let result := match c with
    | execute path settings pipeline format => runExecute files path settings pipeline format
    | check path settings => runCheck files path settings
    | listConfigurations => .ok (.success (listing Registry.defaults))
  match result with
  | .ok outcome | .error outcome => outcome

/-- Runs what a command line asks for. -/
def runLine (files : Files) (args : List String) : Outcome :=
  match parse args with
  | .ok c => c.run files
  | .error notice => notice.outcome

/-- The files that a command may read. -/
def files : Command → List String
  | execute path settings _ _ | check path settings =>
    path :: Settings.candidates (settings.getD Settings.defaultFile)
  | listConfigurations => []

end Command

end SectionLexer
