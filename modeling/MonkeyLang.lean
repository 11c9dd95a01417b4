import MonkeyLang.Main
import MonkeyLang.Proofs.Parser.Batch
import MonkeyLang.Proofs.Parser.Simulation
import MonkeyLang.Proofs.Parser.Operation
import MonkeyLang.Proofs.Parser.Segment
import MonkeyLang.Proofs.Parser.Standard
import MonkeyLang.Proofs.Token.Concat
import MonkeyLang.Proofs.Parser.Isolation
import MonkeyLang.Proofs.Token.Munch
import MonkeyLang.Proofs.Parser.Lookahead
import MonkeyLang.Proofs.Program.RoundTrip
import MonkeyLang.Proofs.Parser.Progress
import MonkeyLang.Proofs.Parser.SourceOrder
import MonkeyLang.Proofs.Token.Boundary
import MonkeyLang.Proofs.Parser.Blame
import MonkeyLang.Proofs.Program.Layout
import MonkeyLang.Proofs.Text.Line
import MonkeyLang.Proofs.Diagnostic.Report
import MonkeyLang.Proofs.Token.Junction
import MonkeyLang.Proofs.CommandLine.Listing
import MonkeyLang.Proofs.CommandLine.Run
import MonkeyLang.Token.Reader
import MonkeyLang.Proofs.Token.Reader
import MonkeyLang.Proofs.Token.Session
import MonkeyLang.Proofs.Token.Drain
import MonkeyLang.Proofs.Text.Span
import MonkeyLang.Proofs.Text.Numeral
import MonkeyLang.Proofs.Node.Integer
import MonkeyLang.Proofs.Parser.Attempt
