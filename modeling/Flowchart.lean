import Flowchart.Line.Operations
import Flowchart.Main
import Flowchart.Trace
import Flowchart.Proofs.Graph.Reachable
import Flowchart.Proofs.Layout.Boxes
import Flowchart.Proofs.Layout.NodeRanks
import Flowchart.Proofs.Repair.NormalForm
import Flowchart.Proofs.Writer.RoundTrip
import Flowchart.Proofs.Line.Marks
import Flowchart.Proofs.Text.Blanks
import Flowchart.Proofs.Graph.Blanks
import Flowchart.Proofs.Repair.Meaning
import Flowchart.Proofs.Writer.Repaired
import Flowchart.Proofs.Graph.Labels
import Flowchart.Proofs.Writer.FixedPoint
import Flowchart.Proofs.Graph.Records
import Flowchart.Proofs.Graph.Documents
import Flowchart.Proofs.Graph.EdgeIds
import Flowchart.Proofs.Graph.FreshIds
import Flowchart.Proofs.Layout.Arrangement
import Flowchart.Proofs.Layout.Reversals
import Flowchart.Proofs.Layout.Renaming
import Flowchart.Proofs.Load
import Flowchart.Proofs.Layout.EqualGraphs
import Flowchart.Proofs.Layout.Crossings
import Flowchart.Proofs.Layout.Anchors
import Flowchart.Proofs.Layout.Dummies
import Flowchart.Proofs.Layout.Centers
import Flowchart.Proofs.Repair.ManyAsides
import Flowchart.Proofs.Line.Brackets
import Flowchart.Proofs.Line.Spellings
import Flowchart.Proofs.Repair.Leftovers
import Flowchart.Proofs.Line.Alone
import Flowchart.Proofs.Repair.QuotedLabels
import Flowchart.Proofs.Repair.OneLine
import Flowchart.Proofs.Repair.EdgeLabels
import Flowchart.Proofs.Graph.Edits
import Flowchart.Proofs.Graph.Undo
import Flowchart.Proofs.Repair.Termination
import Flowchart.Proofs.Repair.Replies
import Flowchart.Proofs.Line.Cursors
import Flowchart.Proofs.Graph.Arrivals
