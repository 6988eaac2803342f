import Windowing.Collection.Call
import Windowing.Journal
import Windowing.Rehearsal
import Windowing.Scalar.Binary
import Windowing.Table.Call
import Windowing.Viewport.Call
import Windowing.Proofs.Ensures
import Windowing.Proofs.Keyed
import Windowing.Proofs.Stock
import Windowing.Proofs.Tracking
import Windowing.Proofs.Conservation
import Windowing.Proofs.WindowBounds
import Windowing.Proofs.Collection.Aside
import Windowing.Proofs.Following
import Windowing.Proofs.Collection.Coherence
import Windowing.Proofs.Table.Aside
import Windowing.Proofs.Table.Cells
import Windowing.Proofs.Table.Coherence
import Windowing.Proofs.Custody
import Windowing.Proofs.Collection.Reports
import Windowing.Proofs.Mirrors
import Windowing.Proofs.Recording
import Windowing.Proofs.Collection.Recording
import Windowing.Proofs.Table.Recording
import Windowing.Proofs.Extent.Measures
import Windowing.Proofs.Extent.Afresh
import Windowing.Proofs.Exact
import Windowing.Proofs.Extent.Laid
import Windowing.Proofs.Extent.Built
import Windowing.Proofs.Extent.Window
import Windowing.Proofs.Repeating
import Windowing.Proofs.Scrolling
import Windowing.Proofs.Collection.Repeating
import Windowing.Proofs.Table.Repeating
import Windowing.Proofs.Idempotence
import Windowing.Proofs.Extent.Upheld
import Windowing.Proofs.Requests
import Windowing.Proofs.Collection.Leads
import Windowing.Proofs.Collection.Viewports
import Windowing.Proofs.Collection.Requests
import Windowing.Proofs.Viewports
import Windowing.Proofs.Table.Viewports
import Windowing.Proofs.Showing
import Windowing.Proofs.Collection.Showing
import Windowing.Proofs.Table.Showing
import Windowing.Proofs.Reaching
import Windowing.Proofs.Collection.Beside
import Windowing.Proofs.Table.Beside
import Windowing.Proofs.Remembering
import Windowing.Proofs.Placement
import Windowing.Proofs.Chronicle
import Windowing.Proofs.Telling
import Windowing.Proofs.Collection.CallOrder
import Windowing.Proofs.Extent.Trim
import Windowing.Proofs.Collection.Selections
import Windowing.Proofs.Collection.Lengths
import Windowing.Proofs.Rebinding
import Windowing.Proofs.LengthChanges
import Windowing.Proofs.Extent.WholeTracks
import Windowing.Proofs.KeptWindow
import Windowing.Proofs.Styling
import Windowing.Proofs.Collection.Styling
import Windowing.Proofs.Table.Styling
import Windowing.Proofs.SelectionStyles
import Windowing.Proofs.Extent.Checks
import Windowing.Proofs.Extent.Measured
import Windowing.Proofs.Faults
import Windowing.Proofs.Collection.Faults
import Windowing.Proofs.Table.Faults
import Windowing.Proofs.Serving
import Windowing.Proofs.Collection.Selecting
import Windowing.Proofs.Assertions
import Windowing.Proofs.Table.Reports
import Windowing.Proofs.Seated
import Windowing.Proofs.ScrollRange
import Windowing.Proofs.Bringing
import Windowing.Proofs.Stocking
import Windowing.Proofs.LargestWindow
import Windowing.Proofs.Strands
import Windowing.Proofs.Table.Axes
import Windowing.Proofs.Resizing
import Windowing.Proofs.Rounded
import Windowing.Proofs.Extent.PrefixSums
import Windowing.Proofs.Extent.OwnExtents
import Windowing.Proofs.Extent.Tracks
import Windowing.Proofs.Extent.Lanes
import Windowing.Proofs.SelectionRuns
import Windowing.Proofs.Tallies
import Windowing.Proofs.Collection.Rebinding
import Windowing.Proofs.Collection.PassWork
import Windowing.Proofs.Releasing
