import SectionLexer.Settings.Library

/-! Settings files: where one is looked for, and what reading it gives. -/
namespace SectionLexer.Settings

/-- The settings file that is used where none is asked for. -/
def defaultFile : String := "mlg.toml"

/-- A path up to the end of its last name; what ends in no name of its own has no such part. -/
def upToName? (path : String) : Option String :=
  let parts := path.splitOn "/"
  let kept := (parts.reverse.dropWhile fun part => part = "" || part = ".").reverse
  match kept.getLast? with
  | none | some ".." => none
  | some _ => some ("/".intercalate kept)

/-- The paths at which a settings file of a name is looked for. -/
def candidates (name : String) : List String :=
  name :: ((upToName? name).map (· ++ ".toml")).toList

/-- A path as seen from the working directory. -/
def relativePath (path : String) : String := "/".intercalate (pathParts path)

/-- The text of the settings file of a name, and the path to it. -/
def fileText (files : Files) (name : String) : Except Error (String × String) :=
  match (candidates name).find? files.isRegular with
  | none => .error (.missingFile name)
  | some path => match files.read path with
    | .error fault => .error (.unreadable fault)
    | .ok bytes => match Utf8.decode? bytes with
      | none => .error .notText
      | some text => .ok (text, relativePath path)

theorem fileText_of_missing {files : Files} {name : String}
    (h : ∀ path ∈ candidates name, files.isRegular path = false) :
    fileText files name = .error (.missingFile name) := by
  have hfind : (candidates name).find? files.isRegular = none := by
    simpa [List.find?_eq_none] using h
  rw [fileText, hfind]

end SectionLexer.Settings
