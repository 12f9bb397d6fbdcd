import TextKit.Main
import TextKit.Proofs.Ascii85.RoundTrip
import TextKit.Proofs.Ascii85.Canonical
import TextKit.Proofs.Ascii85.Faults
import TextKit.Proofs.Ascii85.Parts
import TextKit.Proofs.Ascii85.Lengths
import TextKit.Proofs.Ascii85.Continuation
import TextKit.Proofs.HeaderSafe.Escaping
import TextKit.Proofs.HeaderSafe.Tokens
import TextKit.Proofs.HeaderSafe.Image
import TextKit.Proofs.Sorting.Rearrangement
import TextKit.Proofs.Sorting.Bookkeeping
import TextKit.Proofs.Sorting.Production
import TextKit.Proofs.Sorting.Order
import TextKit.Proofs.Sorting.Sortedness
import TextKit.Proofs.Sorting.StableSort
import TextKit.Proofs.Sorting.LocalOrder
import TextKit.Proofs.Sorting.Comparisons
import TextKit.Proofs.Sorting.Runs
import TextKit.Proofs.Sorting.Laziness
import TextKit.Proofs.Sorting.Representation
import TextKit.Proofs.Sorting.Work
import TextKit.Proofs.Sorting.LinearOrder
import TextKit.Proofs.Sorting.Pivots
import TextKit.Proofs.Sorting.Partitioning
import TextKit.Proofs.Sorting.MergeSort
import TextKit.Proofs.Sorting.Insertion
import TextKit.Proofs.HeaderSafe.PartialEscapes
import TextKit.Proofs.Text.Trimming
import TextKit.Proofs.Text.Quoted
import TextKit.Proofs.FormatError
import TextKit.Proofs.HeaderSafe.Cuts
import TextKit.Proofs.HeaderSafe.Places
import TextKit.Proofs.HeaderSafe.Refusals
import TextKit.Proofs.Text.Utf8
import TextKit.Proofs.Command.SortKey
import TextKit.Proofs.Command.Arguments
import TextKit.Proofs.Text.Lines
import TextKit.Proofs.Command.Workspace
import TextKit.Proofs.Command.Response
import TextKit.Proofs.Command.OutputSetting
import TextKit.Proofs.Command.Session
import TextKit.Proofs.Command.Answers
import TextKit.Proofs.Command.LineSort
import TextKit.Proofs.Command.Pipelines
import TextKit.Proofs.Command.Resorting
import TextKit.Proofs.Command.EscapedText
