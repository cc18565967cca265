import SectionLexer.Command.Run

/-! The command line program. -/
namespace SectionLexer

/-- A code of the system, which may be given as its opposite. -/
def isCode (n code : UInt32) : Bool := code = n || code = 0 - n

def faultOf : IO.Error → ReadFault
  | .noFileOrDirectory .. => .missing
  | .inappropriateType _ code _ => if isCode 20 code then .notDirectory else .isDirectory
  | e@(.invalidArgument _ code _) => if isCode 36 code then .nameTooLong else .other (toString e)
  | e => .other (toString e)

/-- The bytes of a file, if it can be read. -/
def readFile (name : String) : IO (Except ReadFault (List UInt8)) := do
  try
    return .ok (← IO.FS.readBinFile name).toList
  catch e =>
    return .error (faultOf e)

/-- Reads the files a command line asks for, then runs it. -/
def runProgram (args : List String) : IO Outcome := do
  let names := match Command.parse args with
    | .ok c => c.files
    | .error _ => []
  let found ← names.mapM fun name => return (name, ← readFile name)
  let read (name : String) := (found.lookup name).getD (.error .missing)
  return Command.runLine ⟨fun name => (read name).isOk, read⟩ args

end SectionLexer

def main (args : List String) : IO UInt32 := do
  let outcome ← SectionLexer.runProgram args
  IO.print outcome.stdout
  IO.eprint outcome.stderr
  return outcome.exit.toUInt32
