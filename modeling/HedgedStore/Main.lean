import HedgedStore.Command.Program
import HedgedStore.LogLine

/-! The program on a machine: its files, its environment and its streams. -/
namespace HedgedStore.Command

def fileFault : IO.Error → FileFault
  | .noFileOrDirectory _ _ _ => .missing
  | error@(.inappropriateType _ code _) =>
    if number code = 20 then .notDirectory
    else if number code = 21 then .directory
    else .other (toString error)
  | error@(.invalidArgument _ code _) =>
    if number code = 36 then .nameTooLong else .other (toString error)
  | error => .other (toString error)
where
  /-- Some calls give the number of an error with its sign turned. -/
  number (code : UInt32) : UInt32 := if code < 0x80000000 then code else 0 - code

def trying {α : Type} (action : IO α) : IO (Except FileFault α) := do
  try return .ok (← action)
  catch error => return .error (fileFault error)

def surroundings : IO Environment := do
  let listed ← try IO.FS.readBinFile "/proc/self/environ" catch _ => pure .empty
  let definitions := (listed.toList.splitBy fun a b => a != 0 && b != 0).filterMap fun bytes =>
    let name := bytes.takeWhile (· != 0x3D)
    let value := (bytes.dropWhile (· != 0x3D)).drop 1
    (String.fromUTF8? ⟨name.toArray⟩).map fun name => (name, value)
  return .ofBytes fun name => definitions.lookup name

def machine (environment : Environment) : World IO :=
  { environment
    contents := fun path => trying do return (← IO.FS.readBinFile path).toList
    save := fun path data => trying (IO.FS.writeBinFile path ⟨data.toArray⟩) }

/-- Runs the program. There is no transport in this build, so the store is never reached. -/
def execute (words : List String) : IO UInt32 := do
  let world := machine (← surroundings)
  let outcome ← run world Link.dead () ⟨← IO.monoNanosNow⟩ words
  let stdout ← IO.getStdout
  let stderr ← IO.getStderr
  stdout.write ⟨outcome.stdout.toArray⟩
  stdout.flush
  for event in outcome.log do
    stderr.putStrLn (if outcome.jsonLog then event.json else event.line)
  stderr.putStr outcome.metrics
  if let some error := outcome.error then stderr.putStr error.report
  stderr.flush
  return outcome.exitCode.toUInt32

end HedgedStore.Command

def main (words : List String) : IO UInt32 := HedgedStore.Command.execute words
