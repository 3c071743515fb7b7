import Templating.Proofs.Eval.Depth
import Templating.Proofs.Eval.RoundTrip
import Templating.Syntax.Printer
import Templating.Proofs.Eval.Comprehension
import Templating.Proofs.Eval.Rank
import Templating.Proofs.Eval.Reentry
import Templating.Proofs.Eval.Signal
import Templating.Proofs.Eval.Termination
import Templating.Proofs.Eval.Account
import Templating.Proofs.Eval.Denote
import Templating.Proofs.Eval.Producer
import Templating.Proofs.Eval.SinglePass
import Templating.Proofs.Eval.Snapshot
import Templating.Proofs.Eval.Innermost
import Templating.Proofs.Calendar.Line
import Templating.Proofs.Eval.Grouping
import Templating.Proofs.Syntax.Unambiguous
import Templating.Proofs.Value.Comparison
import Templating.Proofs.Value.Printable
import Templating.Proofs.Eval.Scopes
import Templating.Proofs.Eval.Indexed
import Templating.Proofs.Value.Integer
import Templating.Proofs.Json.RoundTrip
import Templating.Proofs.Calendar.Division
import Templating.Proofs.Value.NumericEquality
import Templating.Proofs.Value.Sorting
import Templating.Proofs.Eval.Unpack
import Templating.Proofs.Value.Slice
import Templating.Proofs.Builtin.Find
import Templating.Proofs.Builtin.Split
import Templating.Proofs.Format.IntSpec
import Templating.Proofs.Format.IntText
import Templating.Proofs.Builtin.Embedded
import Templating.Proofs.Calendar.Week
import Templating.Proofs.Number.FloatText
import Templating.Proofs.Source.Span
