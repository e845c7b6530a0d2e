/-
The command line.

The program reads one JSON value, from a file or from the standard input, and writes it
back in compact form. Its arguments are one path, or a hyphen for the standard input. A
request for help wins over everything else, wherever it stands.

A word that the program is called with is a row of bytes. All of them are taken for texts
before anything else is done, the name included, and where one is no text the run breaks
off there, even if another one asks for help.

All else that it does is a function from its words, its input and its files to an answer:
an exit code and what goes to the two outputs. Success writes to the one only, failure to
the other only. What a run says that breaks off is left out.
-/
import Descent.Json.Grammar
import Descent.CommandLine.Directory

set_option autoImplicit false

namespace Descent.CommandLine

/-- What the arguments ask for. -/
inductive Command where
  | help
  /-- Read the standard input. -/
  | readInput
  /-- Read the file at this path. -/
  | readFile (path : String)
  /-- Arguments that make no sense. -/
  | unknown (arguments : List String)
deriving DecidableEq, Repr

namespace Command

/-- The argument asks for help. -/
def isHelp (argument : String) : Bool :=
  argument == "--help" || argument == "-h"

/-- What the arguments ask for. -/
def ofArguments (arguments : List String) : Command :=
  if arguments.any isHelp then help
  else
    match arguments with
    | ["-"] => readInput
    | [path] => readFile path
    | arguments => unknown arguments

end Command

/-- What the program answers with when it ends by itself. -/
structure Answer where
  code : Nat
  output : String := ""
  errors : String := ""
deriving DecidableEq, Repr

/-- The name that the program goes by. -/
def programName : String := "backtrack-json"

/-- How the program is used. -/
def usage : String :=
  "USAGE:\n" ++
  "    backtrack-json <file>\n" ++
  "    backtrack-json -\n" ++
  "\n" ++
  "Calling `backtrack-json <file>` parses the JSON value in the given file and prints it back\n" ++
  "in compact form. Calling `backtrack-json -` does the same, but reads the value from stdin.\n" ++
  "Set `RUST_LOG=backtrack=debug` to log parse failures.\n"

/-- What is said of bytes that are no text. -/
def notText : String := "stream did not contain valid UTF-8"

namespace Answer

/-- An error, said in these words. -/
def failure (message : String) : Answer where
  code := 1
  errors := "Error: " ++ message ++ "\n"

/-- What is said of a file that could not be read. -/
def unreadable (path reason : String) : String :=
  "could not read '" ++ path ++ "': " ++ reason

end Answer

/-- How a run of the program ends. -/
inductive Ending where
  /-- By itself, with an answer. -/
  | exit (answer : Answer)
  /-- Broken off, as there was no way to go on. -/
  | panic
  /-- Not at all. -/
  | endless
deriving DecidableEq, Repr

namespace Ending

/-- What comes of a text: the value that it denotes, or where and why it denotes none. -/
def ofText (text : String) : Ending :=
  match Json.parse text with
  | .accepted v _ => exit { code := 0, output := v.render ++ "\n" }
  | .rejected e => exit (.failure e.render)
  | .fault => panic
  | .unfinished => endless

/-- What comes of what was read. Where it could not be read, or is no text, that is reported
as `say` puts it. -/
def ofContent (content : Except FileError ByteArray) (say : String → String) : Ending :=
  match content with
  | .error e => exit (.failure (say e.message))
  | .ok bytes =>
    match String.fromUTF8? bytes with
    | some text => ofText text
    | none => exit (.failure (say notText))

end Ending

/-! ## Requests -/

/-- What the program is asked for. -/
structure Request where
  /-- The name that it was called by, and then the arguments. -/
  words : List String
  /-- The standard input. -/
  input : Except FileError ByteArray
  /-- What is found at a path. -/
  file : String → Except FileError ByteArray

namespace Request

/-- The name that the program was called by, if any, or else its own. -/
def name (r : Request) : String :=
  r.words.head?.getD programName

/-- What stands behind the name. -/
def arguments (r : Request) : List String :=
  r.words.tail

end Request

/-- What the program does. -/
def Command.run (c : Command) (r : Request) : Ending :=
  match c with
  | help => .exit { code := 0, output := usage ++ "\n" }
  | readInput => .ofContent r.input id
  | readFile path => .ofContent (r.file path) (Answer.unreadable path)
  | unknown arguments => .exit {
      code := 1
      errors := "Error: " ++ r.name ++ " could not understand the command\n" ++
        "Alien arguments: " ++ String.intercalate "\n" arguments ++ "\n" ++ usage ++ "\n" }

/-- What comes of a request. -/
def Request.ending (r : Request) : Ending :=
  (Command.ofArguments r.arguments).run r

/-! ## The whole program -/

/-- What the program is started with. -/
structure Invocation where
  /-- The name that it was called by, and then the arguments, as the system has them. -/
  words : List ByteArray
  /-- The standard input. -/
  input : Except FileError ByteArray
  /-- What is found at a path. -/
  file : String → Except FileError ByteArray

namespace Invocation

/-- What is asked for, if all words are texts. -/
def request? (i : Invocation) : Option Request :=
  (i.words.mapM String.fromUTF8?).map fun words => ⟨words, i.input, i.file⟩

/-- The whole program. -/
def ending (i : Invocation) : Ending :=
  match i.request? with
  | some r => r.ending
  | none => .panic

end Invocation

/-- The whole program under its own name, with texts for arguments, when the standard input can be
read. -/
def run (arguments : List String) (input : ByteArray)
    (file : String → Except FileError ByteArray) : Ending :=
  Invocation.ending ⟨(programName :: arguments).map String.toUTF8, .ok input, file⟩

end Descent.CommandLine
