import Stencil.Plan.Same
import Stencil.Plan.Show
import Stencil.Plan.Walk
import Stencil.Response
import Stencil.Session
import Stencil.Schema.Request
import Stencil.Session.Use
import Stencil.Tree.Same
import Stencil.Proofs.SideBySide.Bond
import Stencil.Proofs.SideBySide.Feed
import Stencil.Proofs.SideBySide.Call
import Stencil.Proofs.SideBySide.Evaluate
import Stencil.Proofs.SideBySide.Execute
import Stencil.Proofs.Reading.Enclosed
import Stencil.Proofs.Reading.Program
import Stencil.Proofs.Reading.Tokens
import Stencil.Proofs.Reading.Constant
import Stencil.Proofs.Merging.Literals
import Stencil.Proofs.Merging.Removed
import Stencil.Proofs.Merging.Exact
import Stencil.Proofs.Merging.Text
import Stencil.Proofs.Markup.Escape
import Stencil.Proofs.Markup.Spelling
import Stencil.Proofs.Markup.Tags
import Stencil.Proofs.Merging.Heads
import Stencil.Proofs.Markup.Marks
import Stencil.Proofs.Grammar.NameScanners
import Stencil.Proofs.Grammar.Yields
import Stencil.Proofs.Grammar.SurfaceNames
import Stencil.Proofs.Grammar.TreeNames
import Stencil.Proofs.Data.Operations
import Stencil.Proofs.Data.Functions
import Stencil.Proofs.Data.Writes
import Stencil.Proofs.Data.Feeds
import Stencil.Proofs.Data.Calls
import Stencil.Proofs.Data.Evaluate
import Stencil.Proofs.Markup.Written
import Stencil.Proofs.Markup.WellFormed
import Stencil.Proofs.Agreement.Takes
import Stencil.Proofs.Agreement.Spell
import Stencil.Proofs.Agreement.Scanners
import Stencil.Proofs.Agreement.Texts
import Stencil.Proofs.Agreement.Expressions
import Stencil.Proofs.Agreement.Means
import Stencil.Proofs.Places.Lengths
import Stencil.Proofs.Places.Surface
import Stencil.Proofs.Places.Errors
import Stencil.Proofs.Shape.Formed
import Stencil.Proofs.Shape.Read
import Stencil.Proofs.Places.Messages
import Stencil.Proofs.Places.Depth
import Stencil.Proofs.Shape.Generate
import Stencil.Proofs.Order.Acts
import Stencil.Proofs.Order.Merge
import Stencil.Proofs.Shape.Arguments
import Stencil.Proofs.Order.Raw
import Stencil.Proofs.SideBySide.Elsewhere
import Stencil.Proofs.Agreement.Controls
import Stencil.Proofs.Agreement.Attributes
import Stencil.Proofs.Agreement.Nodes
import Stencil.Proofs.Agreement.Rsx
import Stencil.Proofs.Agreement.Maud
import Stencil.Proofs.Agreement.Trees
import Stencil.Proofs.Agreement.Balanced
import Stencil.Proofs.Agreement.ReadsOnly
import Stencil.Proofs.Agreement.Verbatim
import Stencil.Proofs.Lifetime.Registry
import Stencil.Proofs.Lifetime.Cache
import Stencil.Proofs.Lifetime.Buffer
import Stencil.Proofs.Markup.Static
import Stencil.Proofs.Merging.Normal
import Stencil.Proofs.Checking.Paths
import Stencil.Proofs.Checking.Valid
import Stencil.Proofs.Places.Climbs
import Stencil.Proofs.Places.Spots
import Stencil.Proofs.Places.Order
import Stencil.Proofs.Places.Positions
import Stencil.Proofs.Places.Coordinates
import Stencil.Proofs.Checking.Stamped
import Stencil.Proofs.Checking.InOrder
import Stencil.Proofs.Order.Complete
import Stencil.Proofs.Lifetime.Refusals
import Stencil.Proofs.Grammar.LoopTrees
import Stencil.Proofs.Grammar.LoopHeads
import Stencil.Proofs.Layout.Idle
import Stencil.Proofs.Layout.Seam
import Stencil.Proofs.Layout.Reread
import Stencil.Proofs.Layout.Pieces
import Stencil.Proofs.Layout.Elements
import Stencil.Proofs.Layout.Controls
import Stencil.Proofs.Layout.Nodes
import Stencil.Proofs.Layout.Ahead
import Stencil.Proofs.Layout.Openings
import Stencil.Proofs.Layout.Frames
import Stencil.Proofs.Layout.Bodies
import Stencil.Proofs.Reading.Stands
import Stencil.Proofs.Merging.Decided
import Stencil.Proofs.Merging.StartTags
import Stencil.Proofs.Sameness.Bare
import Stencil.Proofs.Sameness.Passes
import Stencil.Proofs.Sameness.Compile
import Stencil.Proofs.Classes.Values
import Stencil.Proofs.Classes.Choices
import Stencil.Proofs.Agreement.Quotes
import Stencil.Proofs.Classes.Shorthands
import Stencil.Proofs.Components.Arguments
import Stencil.Proofs.Components.Calls
import Stencil.Proofs.Markup.Conversion
import Stencil.Proofs.Checking.CustomNames
import Stencil.Proofs.Layout.Collapse
import Stencil.Proofs.Markup.Entities
import Stencil.Proofs.Reading.Strings
import Stencil.Proofs.Reading.Spelled
import Stencil.Proofs.Checking.Quoting
