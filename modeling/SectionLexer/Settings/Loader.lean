import SectionLexer.Settings.File
import SectionLexer.Toml.Document

/-! Settings from several layers. A later layer lies over an earlier one, and single overrides lie
over all layers. -/
namespace SectionLexer.Settings

/-- The text of the layer below all others. -/
def builtInText : String :=
  String.join
    ["# Built-in defaults for the mlg toolchain. User files are layered on top.\n",
      "\n",
      "[lexing]\n",
      "# Newlines appended to every document before lexing so that the last\n",
      "# top-level entry is always closed by a blank line.\n",
      "trailing_newlines = 3\n",
      "# Report spaces at the end of an argument or line.\n",
      "report_trailing_whitespace = true\n",
      "\n",
      "[output]\n",
      "pipeline = \"default\"\n",
      "format = \"simple\"\n"]

/-- The layer of a source. -/
def Source.layer (s : Source) : Except Error Layer := do
  let (text, origin) ← s
  match Toml.parse? origin text with
  | some layer => return layer
  | none => throw .malformed

theorem Source.layer_of_parse? {text : String} {origin : Option String} {layer : Layer}
    (h : Toml.parse? origin text = some layer) : Source.layer (.ok (text, origin)) = .ok layer := by
  simp only [Source.layer, bind, Except.bind, h]
  rfl

theorem Source.layer_error (e : Error) : Source.layer (.error e) = .error e := rfl

/-- Overrides in the order in which their paths were first set. The last override of a path is the
one that counts. -/
def lastOverrides (overrides : List (Path × Value)) : List (Path × Value) :=
  overrides.foldl (fun out (p, v) => put p v out) []

/-- Overrides over a root, in their order. -/
def Value.setAll (root : Value) (overrides : List (Path × Value)) : Value :=
  overrides.foldl (fun root (p, v) => root.setAt p v) root

/-- All layers in one value, and all overrides over them. The lowest layer that cannot be had is
complained about. -/
def mergeSources (sources : List Source) (overrides : List (Path × Value)) :
    Except Error Value := do
  let layers ← sources.mapM Source.layer
  return (layers.foldl Value.lay .empty).setAll (lastOverrides overrides)

/-- The library that settings are loaded with. -/
def Library.standard : Library where
  readFile := fileText
  parse? := Toml.parse?
  readPath := Path.parse
  merge := mergeSources
  toNat := Entry.toNat
  toBool := Entry.toBool
  toText := Entry.toText
  toFormat := Entry.toFormat
  readGroup := readGroup

/-- Sources from the lowest up, and overrides in the order in which they were set. -/
structure Loader where
  sources : List Source := [.ok (builtInText, none)]
  overrides : List (Path × Value) := []

namespace Loader

def addSource (l : Loader) (s : Source) : Loader := { l with sources := l.sources ++ [s] }

/-- Adds a layer in TOML. The origin is the file it was read from, if there is one. -/
def addToml (l : Loader) (text : String) (origin : Option String) : Loader :=
  l.addSource (.ok (text, origin))

/-- Adds a layer that should have been in a file. -/
def addMissingFile (l : Loader) (path : String) : Loader :=
  l.addSource (.error (.missingFile path))

/-- Overrides the setting at a path. -/
def override (l : Loader) (path : Path) (v : Value) : Loader :=
  { l with overrides := l.overrides ++ [(path, v)] }

/-- Overrides the setting at the path that a text spells. -/
def override? (l : Loader) (key : String) (v : Value) (lib : Library := .standard) :
    Except Error Loader :=
  match lib.readPath key with
  | .ok path => .ok (l.override path v)
  | .error fault => .error (.badPath fault)

/-- Adds the layer in a settings file. Only a file that is required has to be there and to be
text. -/
def addFile (l : Loader) (files : Files) (required : Bool) (name : String)
    (lib : Library := .standard) : Loader :=
  match lib.readFile files name with
  | .ok (text, path) => l.addToml text (some path)
  | .error e => if required then l.addSource (.error e) else l

/-- A loader with a settings file above the built-in layer. It is required if it is asked for. -/
def ofFiles (files : Files) (name : Option String) : Loader :=
  addFile {} files name.isSome (name.getD defaultFile)

def build (l : Loader) (lib : Library := .standard) : Except Error Settings := do
  (ofValue lib.toConversions (← lib.merge l.sources l.overrides)).mapError .misfit

variable {lib : Library} {l : Loader}

theorem build_of_merge {root : Value} (h : lib.merge l.sources l.overrides = .ok root) :
    l.build lib = (ofValue lib.toConversions root).mapError .misfit := by
  rw [build, h]
  rfl

theorem build_of_merge_error {e : Error} (h : lib.merge l.sources l.overrides = .error e) :
    l.build lib = .error e := by
  rw [build, h]
  rfl

end Loader

/-- The settings with nothing laid over them. -/
def defaults : Except Error Settings := Loader.build {}

end SectionLexer.Settings
