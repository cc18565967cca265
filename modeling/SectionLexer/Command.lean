import SectionLexer.Format

/-! What a command line asks for. -/
namespace SectionLexer

inductive Command where
  /-- Writes the tokens of the document at a path. -/
  | execute (path : String) (settings pipeline : Option String) (format : Option Format)
  /-- Reports what is wrong with the document at a path. -/
  | check (path : String) (settings : Option String)
  | listConfigurations
deriving DecidableEq, Repr

/-- What is printed where no command is run. -/
inductive Notice where
  | version
  | help
  | usage
deriving DecidableEq, Repr

/-- The flags that take a value. -/
inductive Flag where
  | config
  | format
  | settings
deriving DecidableEq, Repr

namespace Flag

def long : Flag → String
  | config => "config"
  | format => "format"
  | settings => "settings"

def short : Flag → Char
  | config => 'c'
  | format => 'f'
  | settings => 's'

/-- Whether a flag takes a value. -/
def admits (f : Flag) (v : String) : Bool :=
  match f with
  | format => (Format.ofLabel? v).isSome
  | _ => true

end Flag

/-- One argument, read on its own. -/
inductive Word where
  | plain (text : String)
  | endOfFlags
  | flag (f : Flag) (attached : Option String)
  | help
  | unknown
deriving DecidableEq, Repr

namespace Word

/-- Whether an argument is read as a flag. A single hyphen is not. -/
def startsFlag (s : String) : Bool :=
  match s.toList with
  | '-' :: _ :: _ => true
  | _ => false

/-- A long flag has its value behind `=`. -/
def ofLong (flags : List Flag) (s : List Char) : Word :=
  let name := String.ofList (s.takeWhile (· != '='))
  let attached := match s.dropWhile (· != '=') with
    | _ :: v => some (String.ofList v)
    | [] => none
  match flags.find? (·.long == name) with
  | some f => .flag f attached
  | none => if name == "help" && attached.isNone then .help else .unknown

/-- A short flag has its value right behind it, or behind `=`. -/
def ofShort (flags : List Flag) (c : Char) (s : List Char) : Word :=
  let attached := match s with
    | [] => none
    | '=' :: v | v => some (String.ofList v)
  match flags.find? (·.short == c) with
  | some f => .flag f attached
  | none => if c = 'h' then .help else .unknown

def ofText (flags : List Flag) (s : String) : Word :=
  match s.toList with
  | ['-', '-'] => .endOfFlags
  | '-' :: '-' :: s => ofLong flags s
  | '-' :: c :: s => ofShort flags c s
  | _ => .plain s

end Word

/-- The arguments of one command. -/
structure Arguments where
  path : Option String := none
  values : List (Flag × String) := []
deriving DecidableEq, Repr

namespace Arguments

/-- Takes the path of the document, where a command has one. -/
def addPath (takesPath : Bool) (a : Arguments) (s : String) : Except Notice Arguments :=
  if takesPath && a.path.isNone then .ok { a with path := some s } else .error .usage

/-- Takes the value of a flag, which is given at most once. -/
def addValue (a : Arguments) (f : Flag) (v : String) : Except Notice Arguments :=
  if (a.values.lookup f).isNone && f.admits v then .ok { a with values := (f, v) :: a.values }
  else .error .usage

/-- Takes arguments from left to right. A value in an argument of its own does not look like a
flag. -/
def read (takesPath : Bool) (flags : List Flag) : Arguments → List String → Except Notice Arguments
  | a, [] => .ok a
  | a, s :: args =>
    match Word.ofText flags s, args with
    | .plain s, args => do read takesPath flags (← a.addPath takesPath s) args
    | .endOfFlags, args => args.foldlM (addPath takesPath) a
    | .flag f (some v), args => do read takesPath flags (← a.addValue f v) args
    | .flag f none, v :: args => do
      if Word.startsFlag v then throw .usage
      read takesPath flags (← a.addValue f v) args
    | .flag _ none, [] | .unknown, _ => .error .usage
    | .help, _ => .error .help

/-- The path, which has to be given. -/
def thePath (a : Arguments) : Except Notice String :=
  match a.path with
  | some path => .ok path
  | none => .error .usage

end Arguments

namespace Command

/-- The commands, and the one that explains them. -/
def names : List String := ["execute", "check", "list-configs", "help"]

def parse : List String → Except Notice Command
  | "execute" :: args => do
    let a ← Arguments.read true [.config, .format, .settings] {} args
    let format := a.values.lookup .format >>= Format.ofLabel?
    return .execute (← a.thePath) (a.values.lookup .settings) (a.values.lookup .config) format
  | "check" :: args => do
    let a ← Arguments.read true [.settings] {} args
    return .check (← a.thePath) (a.values.lookup .settings)
  | "list-configs" :: args => do
    let _ ← Arguments.read false [] {} args
    return .listConfigurations
  | ["help"] => .error .help
  | ["help", name] => .error (if names.contains name then .help else .usage)
  | s :: _ =>
    match s.toList with
    | '-' :: 'V' :: _ => .error .version
    | '-' :: 'h' :: _ => .error .help
    | _ =>
      .error (if s == "--version" then .version else if s == "--help" then .help else .usage)
  | [] => .error .usage

end Command

end SectionLexer
