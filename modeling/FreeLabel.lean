import FreeLabel.Decimal.Layout
import FreeLabel.Main
import FreeLabel.Proofs.CommandLine
import FreeLabel.Proofs.Drawing.Opening
import FreeLabel.Proofs.Drawing.Placement
import FreeLabel.Proofs.Er.Columns
import FreeLabel.Proofs.Er.Faithful
import FreeLabel.Proofs.Er.Fields
import FreeLabel.Proofs.Files
import FreeLabel.Proofs.Flow.FixedPoint
import FreeLabel.Proofs.Flow.Pieces
import FreeLabel.Proofs.Insertion
import FreeLabel.Proofs.LineEnds
import FreeLabel.Proofs.Naming.Retraction
import FreeLabel.Proofs.Redirect.Flowchart
import FreeLabel.Proofs.Redirect.Reading
import FreeLabel.Proofs.Restore.Frame
import FreeLabel.Proofs.Restore.Unordered
import FreeLabel.Proofs.Results.Renderings
import FreeLabel.Proofs.Scheduler.Closing
import FreeLabel.Proofs.Scheduler.LastEdit
