import Descent.Main
import Descent.Proofs.FailureSlot
import Descent.Proofs.Relocation
import Descent.Proofs.Pattern.Backtracking
import Descent.Proofs.Pattern.Spelling
import Descent.Proofs.Number.Parts
import Descent.Proofs.Token.Decimal
import Descent.Proofs.Token.Quoted
import Descent.Proofs.Token.Boolean
import Descent.Proofs.Reading
import Descent.Proofs.ChainReading
import Descent.Proofs.Blanks
import Descent.Proofs.Json.Derivation
import Descent.Proofs.Json.Soundness
import Descent.Proofs.Json.Completeness
import Descent.Proofs.Json.Parsing
import Descent.Proofs.Number.Rounding
import Descent.Proofs.Number.Positional
import Descent.Proofs.Json.RoundTrip
import Descent.Proofs.Verbatim
import Descent.Proofs.Places
import Descent.Proofs.Onward
import Descent.Proofs.Json.Termination
import Descent.Proofs.Atomicity
import Descent.Proofs.Unfolding
import Descent.Proofs.Lifetime
import Descent.Proofs.FoldReading
import Descent.Proofs.Token.Integer
import Descent.Proofs.Arithmetic.Evaluation
import Descent.Proofs.CommandLine
import Descent.Proofs.Repetition
import Descent.Proofs.ChainRun
import Descent.Proofs.Keeping
import Descent.Proofs.Choice
import Descent.Proofs.Decoration
import Descent.Proofs.ToEnd
import Descent.Proofs.Json.Rejection
import Descent.Proofs.Pattern.Bracketing
import Descent.Proofs.Token.Scanning
import Descent.Proofs.Token.IntegerRange
import Descent.Proofs.Number.Overflow
import Descent.Proofs.Token.LongestNumeral
import Descent.Proofs.Token.DecimalRange
import Descent.Proofs.ByteOrder
import Descent.Proofs.Json.DisplayedKeys
import Descent.Proofs.Json.Members
import Descent.Proofs.Folds
import Descent.Proofs.NestedChoice
import Descent.Proofs.LineAndColumn
import Descent.Proofs.Literal
import Descent.Proofs.Token.WhiteSpace
import Descent.Proofs.Stopping
import Descent.Proofs.Json.StandardText
