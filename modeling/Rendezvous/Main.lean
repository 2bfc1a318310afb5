import Rendezvous.CommandLine.Run

/-!
# The program

Reads the environment and the files that the arguments name, and writes what the run leaves behind.
-/

namespace Rendezvous

/-- The bytes of a file, if it can be read. -/
def readBytes? (path : String) : IO (Option (List UInt8)) := do
  try return some (← IO.FS.readBinFile path).toList
  catch _ => return none

/-- The variables of the environment, as the system lists them for the running program. -/
def environment : IO (List (String × String)) := do
  let bytes := (← readBytes? "/proc/self/environ").getD []
  let entry? (entry : List UInt8) : Option (String × String) :=
    let (name, value) := (Text.decodeLossy entry).span (· ≠ '=')
    if name.isEmpty then none else some (String.ofList name, String.ofList value.tail)
  return (bytes.splitOn 0).filterMap entry?

/-- The files that the arguments name. -/
def paths (environment : List (String × String)) (args : List String) : List String :=
  match CommandLine.parse environment args with
  | .ok (.run a) => a.input :: a.config?.toList
  | _ => []

end Rendezvous

open Rendezvous

/-- Runs the program. -/
def main (args : List String) : IO UInt32 := do
  let env ← environment
  let files ← (paths env args).mapM fun path => return (path, ← readBytes? path)
  let read (path : String) : Option (List UInt8) := (files.find? fun f => f.1 = path).bind Prod.snd
  let result := CommandLine.perform env read args
  for line in result.complaints do
    IO.eprintln line
  (← IO.getStdout).write ⟨result.output.toArray⟩
  return result.exit.toUInt32
