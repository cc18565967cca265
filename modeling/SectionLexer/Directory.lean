/-! Files as a program sees them: paths from a working directory, and what reading one gives. -/
namespace SectionLexer

/-- Why a file cannot be read. -/
inductive ReadFault where
  | missing
  | notDirectory
  | isDirectory
  | nameTooLong
  | other (reason : String)
deriving DecidableEq, Repr

def ReadFault.message : ReadFault → String
  | missing => "No such file or directory (os error 2)"
  | notDirectory => "Not a directory (os error 20)"
  | isDirectory => "Is a directory (os error 21)"
  | nameTooLong => "File name too long (os error 36)"
  | other reason => reason

/-- What can be learnt of files: whether a path leads to a regular file, and the bytes it leads
to. -/
structure Files where
  isRegular : String → Bool
  read : String → Except ReadFault (List UInt8)

/-- The names on a path. -/
def pathParts (path : String) : List String :=
  (path.splitOn "/").filter fun part => part != "" && part != "."

inductive Entry where
  | file (bytes : List UInt8)
  /-- A device that is always at its end. -/
  | device
  | directory (entries : List (String × Entry))
deriving Repr

/-- What stands in one directory. -/
abbrev Entries := List (String × Entry)

namespace Entry

/-- The most bytes a name may have. -/
def nameLimit : Nat := 255

/-- A path has fewer bytes than this. -/
def pathLimit : Nat := 4096

/-- Where the parts of a path lead from a directory, with the directories around it from the inside
out. Above the outermost one there are only directories. A file has nothing below it, not even
itself. -/
def walk (around : List Entries) : List String → Except ReadFault Entry
  | [] => .ok (.directory (around.headD []))
  | part :: parts =>
    if part = "" ∨ part = "." then walk around parts
    else if part = ".." then walk around.tail parts
    else if nameLimit < part.utf8ByteSize then .error .nameTooLong
    else match (around.headD []).lookup part with
      | none => .error .missing
      | some (.directory entries) => walk (entries :: around) parts
      | some entry => if parts.isEmpty then .ok entry else .error .notDirectory

/-- The directories that every path from the root can count on. -/
def root : Entries := [("dev", .directory [("null", .device)]), ("tmp", .directory [])]

/-- Where a path leads from a working directory. -/
def find (entries : Entries) (path : String) : Except ReadFault Entry :=
  if path = "" then .error .missing
  else if pathLimit ≤ path.utf8ByteSize then .error .nameTooLong
  else match path.splitOn "/" with
    | "" :: parts => walk [root] parts
    | parts => walk [entries] parts

def read : Entry → Except ReadFault (List UInt8)
  | file bytes => .ok bytes
  | device => .ok []
  | directory _ => .error .isDirectory

/-- Puts a file where a path says, with the directories on the way. -/
def place (bytes : List UInt8) : List String → Entries → Entries
  | [], entries => entries
  | [name], entries => (name, .file bytes) :: entries
  | name :: parts, entries =>
    let inner := match entries.lookup name with
      | some (.directory inner) => inner
      | _ => []
    (name, .directory (place bytes parts inner)) :: entries

example : walk [[("a", .file [])]] [".", "a"] = .ok (.file []) := rfl
example : walk [[("a", .file [])]] ["a", ""] = .error .notDirectory := rfl
example : walk [[("a", .file [])]] ["..", "a"] = .error .missing := rfl

end Entry

namespace Files

/-- The files of a working directory. -/
def ofEntries (entries : Entries) : Files where
  isRegular path := match Entry.find entries path with
    | .ok (.file _) => true
    | _ => false
  read path := (Entry.find entries path).bind Entry.read

/-- A working directory with the given files and nothing else. -/
def ofList (files : List (String × List UInt8)) : Files :=
  ofEntries <| files.foldl (fun entries (path, bytes) =>
    Entry.place bytes (pathParts path) entries) []

end Files

end SectionLexer
