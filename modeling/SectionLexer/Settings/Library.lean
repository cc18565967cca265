import SectionLexer.Directory
import SectionLexer.Settings.Path
import SectionLexer.Settings.Reading
import SectionLexer.Text.Utf8

/-! What loading settings relies on: how files are found, texts are read, and values are merged and
converted. -/
namespace SectionLexer.Settings

inductive Error where
  | malformed
  | missingFile (path : String)
  | unreadable (fault : ReadFault)
  | notText
  | badPath (fault : PathFault)
  | misfit (m : Misfit)
deriving DecidableEq, Repr

def Error.message : Error → String
  | malformed => "TOML parse error"
  | missingFile path => "configuration file \"" ++ path ++ "\" not found"
  | unreadable fault => fault.message
  | notText => Utf8.complaint
  | badPath fault => fault.message
  | misfit m => m.message

/-- The fields of one layer. -/
abbrev Layer := List (String × Value)

/-- Where a layer comes from: a text in TOML, with the name of the file it was read from if there is
one, or the reason why there is no text. -/
abbrev Source := Except Error (String × Option String)

/-- The operations of a settings library. Loading takes them as they are. -/
structure Library extends Conversions where
  /-- The text of the settings file of a name, and the path to it. -/
  readFile (files : Files) (name : String) : Except Error (String × String)
  /-- The layer that a text in TOML spells. -/
  parse? (origin : Option String) (text : String) : Option Layer
  /-- The path that a dotted key spells. -/
  readPath (key : String) : Except PathFault Path
  /-- All sources and overrides in one value. Both are in the order in which they were given. -/
  merge (sources : List Source) (overrides : List (Path × Value)) : Except Error Value

/-- The path that a key of a layer spells, or the key as it is. -/
def Library.pathOf (lib : Library) (key : String) : Path :=
  match lib.readPath key with
  | .ok p => p
  | .error _ => ⟨key, []⟩

end SectionLexer.Settings
