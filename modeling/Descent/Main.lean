/-
The program.

Fetches what the command needs, lets `CommandLine` decide, and writes the answer. The words
that it was called with are taken from the system as bytes, since the texts that come with
the call have lost what is no text in them, and the name.
-/
import Descent.CommandLine.Basic

set_option autoImplicit false

namespace Descent.CommandLine

/-- The system's error in the words that the program has for it. -/
def FileError.ofSystem : IO.Error → FileError
  | .noFileOrDirectory .. => .notFound
  | .inappropriateType _ code _ =>
    if code = 21 ∨ code = -21 then .isADirectory else .notADirectory
  | e => .other (toString e)

/-- What is read, or why it could not be. -/
def attempt (read : IO ByteArray) : IO (Except FileError ByteArray) := do
  try
    return .ok (← read)
  catch e =>
    return .error (.ofSystem e)

/-- The words in a row of bytes, where a zero stands behind each. -/
def splitWords (bytes : ByteArray) : List ByteArray :=
  (bytes.data.toList.splitOn 0).dropLast.map fun word => ⟨word.toArray⟩

/-- The words that the program was called with. Where the system does not tell, they are its own
name and the arguments as texts. -/
def calledWith (arguments : List String) : IO (List ByteArray) := do
  match ← attempt (IO.FS.readBinFile "/proc/self/cmdline") with
  | .ok bytes => return splitWords bytes
  | .error _ => return (programName :: arguments).map String.toUTF8

/-- Fetches what the command reads, and nothing else. -/
def fetch (words : List ByteArray) : IO Invocation := do
  let alone : Invocation := ⟨words, .ok .empty, fun _ => .error .notFound⟩
  match alone.request?.map fun r => Command.ofArguments r.arguments with
  | some .readInput => return { alone with input := ← attempt do (← IO.getStdin).readBinToEnd }
  | some (.readFile path) =>
    let content ← attempt (IO.FS.readBinFile path)
    return { alone with file := fun _ => content }
  | _ => return alone

/-- Ends as is said, with the code for the system. -/
def Ending.carryOut : Ending → IO UInt32
  | exit answer => do
    (← IO.getStdout).putStr answer.output
    (← IO.getStderr).putStr answer.errors
    return answer.code.toUInt32
  | panic => return 101
  | endless => do
    repeat IO.sleep 1000
    return 0

end Descent.CommandLine

open Descent.CommandLine in
def main (arguments : List String) : IO UInt32 := do
  let invocation ← fetch (← calledWith arguments)
  invocation.ending.carryOut
