import MailMerge.Program

/-!
# The command line

The thin layer that carries out a task on the real system.  Each operation is performed as it is
asked for, and a fault of the system is handed to the task as the reply.
-/

namespace MailMerge.Host

set_option autoImplicit false

/-- The fault that an error of the system stands for. -/
def faultOf : IO.Error → Fault
  | .alreadyExists _ number _ | .otherError number _ | .resourceBusy number _
  | .resourceVanished number _ | .unsupportedOperation number _ | .hardwareFault number _
  | .unsatisfiedConstraints number _ | .illegalOperation number _ | .protocolError number _
  | .timeExpired number _ | .interrupted _ number _ | .noFileOrDirectory _ number _
  | .invalidArgument _ number _ | .permissionDenied _ number _ | .resourceExhausted _ number _
  | .inappropriateType _ number _ | .noSuchThing _ number _ => .system number.toNat
  | .unexpectedEof => .other "unexpected end of file"
  | .userError text => .other text

/-- Perform an action on a path that is text, and reply with its result or its fault. -/
def withPath {α : Type} (path : Path) (action : String → IO α) : IO (Except Fault α) := do
  match path.text? with
  | none => return .error (.other "the path is not text")
  | some text =>
    if path.hasNul then return .error .nulInPath
    try return .ok (← action text)
    catch error => return .error (faultOf error)

/-- The kind of the entry at a path.  A directory can be opened but not read. -/
def kindOf (path : String) : IO Kind := do
  let entry ← IO.FS.Handle.mk path .read
  try
    let _ ← entry.read 1
    return .file
  catch error => if faultOf error = .isADirectory then return .directory else throw error

/-- The content of a file. -/
def readFile (path : String) : IO Bytes := do
  let content ← IO.FS.readBinFile path
  return content.toList

/-- Add octets at the end of a file. -/
def appendFile (path : String) (octets : Bytes) : IO Unit := do
  let file ← IO.FS.Handle.mk path .append
  file.write (ByteArray.mk octets.toArray)

/-- The state of a program that is being carried out. -/
structure State where
  /-- Whether it has been cancelled. -/
  cancelled : Bool := false
  /-- How notices are displayed, if they are. -/
  display : Option Journal.Display := none

/-- Perform an operation. -/
def perform (state : IO.Ref State) : (operation : Operation) → IO operation.Reply
  | .kind path => withPath path kindOf
  | .read path => withPath path readFile
  | .createDirectory path => withPath path fun text => IO.FS.createDir text
  | .create path => withPath path fun text => IO.FS.writeBinFile text ByteArray.empty
  | .append path octets => withPath path fun text => appendFile text octets
  | .rename source destination => do
    match ← withPath destination fun text => pure text with
    | .error fault => return .error fault
    | .ok destination => withPath source fun source => IO.FS.rename source destination
  | .remove path => withPath path fun text => IO.FS.removeFile text
  | .isCancelled => return (← state.get).cancelled
  | .cancel => state.modify fun current => { current with cancelled := true }
  | .note notice => do
    match (← state.get).display.bind (·.line? notice) with
    | none => return ()
    | some line => IO.print line
  | .display display => state.modify fun current => { current with display := some display }
  | .variable name => return (← IO.getEnv name).map utf8
  | .print text => IO.print text
  | .printError text => IO.eprint text

/-- Carry out a task. -/
def execute {α : Type} (state : IO.Ref State) : Task α → IO α
  | .done value => return value
  | .ask operation next => do
    let reply ← perform state operation
    execute state (next reply)

/-- What is printed when help is wanted or the arguments are not understood. -/
def usage : String :=
  "Usage: rowmerge [OPTIONS]\n\nOptions:\n" ++
    String.join (Flags.Flag.all.map fun flag =>
      "  --" ++ flag.name ++ (if flag.takesValue then " <VALUE>" else "") ++ "\n")

end MailMerge.Host

/-- The program. -/
def main (arguments : List String) : IO UInt32 := do
  match MailMerge.Flags.parse (arguments.map MailMerge.utf8) with
  | .error fault =>
    if fault = .displayHelp then IO.print MailMerge.Host.usage
    else IO.eprint MailMerge.Host.usage
    return .ofNat fault.exitCode
  | .ok flags =>
    let state ← IO.mkRef {}
    let code ← MailMerge.Host.execute state (MailMerge.Program.run flags)
    return .ofNat code
