import StackLang.Text.Blank
import StackLang.Text.Digit
import StackLang.Text.Letter
import StackLang.Text.Quoted
import StackLang.Number.Layout
import StackLang.Number.Integer
import StackLang.Number.Numeral
import StackLang.Value.Operator
import StackLang.Token.Lexer
import StackLang.Program.Parser
import StackLang.Json.Reader
import StackLang.Json.Writer
import StackLang.Document.Load
import StackLang.Document.Run
import StackLang.Unchecked.Build
import StackLang.Unchecked.Write
import StackLang.Unchecked.Run
import StackLang.Value.Foreign
import StackLang.Command.Typed
import StackLang.Command.Path
import StackLang.Text.Utf8
import StackLang.Command.Options
import StackLang.Command.Files
import StackLang.Command.Session
import StackLang.Main
import StackLang.Proofs.Program.Grammar
import StackLang.Proofs.Program.Reading
import StackLang.Proofs.Program.Completeness
import StackLang.Proofs.Program.Soundness
import StackLang.Proofs.Program.Cuts
import StackLang.Proofs.Program.Viability
import StackLang.Proofs.Program.Refusal
import StackLang.Proofs.Machine.Evaluation
import StackLang.Proofs.Number.Numerals
import StackLang.Proofs.Token.Lexemes
import StackLang.Proofs.Token.Factoring
import StackLang.Proofs.Number.Decimals
import StackLang.Proofs.Number.Layouts
import StackLang.Proofs.Token.Rendering
import StackLang.Proofs.Program.Leaves
import StackLang.Proofs.Document.Loading
import StackLang.Proofs.Program.Sources
import StackLang.Proofs.Document.RoundTrip
import StackLang.Proofs.Json.Scalars
import StackLang.Proofs.Json.Texts
import StackLang.Proofs.Json.ReadBack
import StackLang.Proofs.Command.Trees
import StackLang.Proofs.Document.Running
import StackLang.Proofs.Command.Emission
import StackLang.Proofs.Machine.Failures
import StackLang.Proofs.Unchecked.Mirror
import StackLang.Proofs.Machine.Blocks
import StackLang.Proofs.Unchecked.Runs
import StackLang.Proofs.Machine.Strings
import StackLang.Proofs.Machine.Heights
import StackLang.Proofs.Machine.Telling
import StackLang.Proofs.Machine.Safety
import StackLang.Proofs.Machine.Encoding
import StackLang.Proofs.Machine.Tracing
import StackLang.Proofs.Program.Lines
import StackLang.Proofs.Program.Joining
import StackLang.Proofs.Token.Layout
import StackLang.Proofs.Program.Layout
import StackLang.Proofs.Command.Typed
import StackLang.Proofs.Machine.Integers
import StackLang.Proofs.Document.Executing
import StackLang.Proofs.Program.Origins
import StackLang.Proofs.Token.Unclosed
import StackLang.Proofs.Document.Overflow
import StackLang.Proofs.Machine.Stopping
import StackLang.Proofs.Command.Refused
import StackLang.Proofs.Machine.Bindings
import StackLang.Proofs.Machine.Input
import StackLang.Proofs.Machine.Messages
import StackLang.Proofs.Number.Order
import StackLang.Proofs.Number.Division
import StackLang.Proofs.Number.Nearest
import StackLang.Proofs.Machine.Conversions
import StackLang.Proofs.Program.Numbers
import StackLang.Proofs.Number.Shortest
import StackLang.Proofs.Number.FloatTexts
