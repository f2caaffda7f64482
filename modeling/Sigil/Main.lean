import Sigil.Command.Execution

/-!
# The program

Runs command lines on the real file system.  What the commands do is settled elsewhere; here their
operations are tied to files and streams.
-/

namespace Sigil.Command

/-- Looks a path up among the files. -/
def findFile (path : String) : IO Found := do
  match ← (IO.FS.Handle.mk path .read).toBaseIO with
  | .error _ => return .absent
  | .ok handle =>
    match ← handle.readBinToEnd.toBaseIO with
    | .ok bytes => return .file bytes
    | .error e => return .closed (toString e)

/-- Makes an empty file. -/
def createFile (path : String) : IO Bool := do
  match ← (IO.FS.writeBinFile path .empty).toBaseIO with
  | .ok () => return true
  | .error _ => return false

/-- Everything on the standard input. -/
partial def readStandardInput : IO ByteArray := do
  let stdin ← IO.getStdin
  let rec more (bytes : ByteArray) : IO ByteArray := do
    let chunk ← stdin.read 65536
    if chunk.isEmpty then return bytes else more (bytes ++ chunk)
  more .empty

/-- Writes to the standard output. -/
def printBytes (bytes : ByteArray) : IO Unit := do
  let stdout ← IO.getStdout
  stdout.write bytes
  stdout.flush

/-- The operations on the real file system. -/
def realEffects : Effects IO where
  find := findFile
  standardInput := readStandardInput
  create := createFile
  write path bytes := IO.FS.writeBinFile path bytes
  print := printBytes

/-- The terminal takes colours. -/
def wantsColour : IO Bool := do
  if (← IO.getEnv "NO_COLOR").isSome then return false
  match ← IO.getEnv "TERM" with
  | some term => return term != "dumb"
  | none => return false

/-- Reports what kept a command line from being carried out. -/
def report : Verdict → IO Unit
  | .done => pure ()
  | .failed f => do
    IO.eprintln (f.fault.kind.code ++ ": " ++ f.fault.fullMessage)
    if let some hint := f.hint then IO.eprintln ("help: " ++ hint)
  | .refused .showHelp | .refused .showVersion => pure ()
  | .refused r => IO.eprintln (r.message ++ "\n\n" ++ helpText)

end Sigil.Command

/-- Carries out the command line and gives its exit status. -/
def main (args : List String) : IO UInt32 := do
  let verdict ← Sigil.Command.run Sigil.Command.realEffects args (← Sigil.Command.wantsColour)
  Sigil.Command.report verdict
  return verdict.exitStatus.toUInt32
