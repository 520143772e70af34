import ChainScript.Chain.Command
import ChainScript.Chain.Config
import ChainScript.Chain.Device
import ChainScript.Chain.Emission
import ChainScript.Chain.Error
import ChainScript.Chain.Format.Basic
import ChainScript.Chain.Format.Binary
import ChainScript.Chain.Format.Dot
import ChainScript.Chain.Format.Text
import ChainScript.Chain.Generator
import ChainScript.Chain.Graph
import ChainScript.Chain.Interchange
import ChainScript.Chain.Stats
import ChainScript.Chain.Storage
import ChainScript.Chain.Stream
import ChainScript.Chain.Sweep
import ChainScript.Chain.Tally
import ChainScript.Chain.Walk
import ChainScript.Chain.Word
import ChainScript.Chain.Workbench
import ChainScript.Decimal.Shortest
import ChainScript.Gallery.Callable
import ChainScript.Gallery.Types
import ChainScript.Gallery.Universe
import ChainScript.Json.Scan
import ChainScript.Ordered.Roster
import ChainScript.Ordered.Slots
import ChainScript.Ordered.Table
import ChainScript.Random
import ChainScript.Script.Builder
import ChainScript.Script.Builtin
import ChainScript.Script.Catalog
import ChainScript.Script.Error
import ChainScript.Script.Heap
import ChainScript.Script.Kind
import ChainScript.Script.Lens
import ChainScript.Script.Members
import ChainScript.Script.Object.Attribute
import ChainScript.Script.Object.Basic
import ChainScript.Script.Object.Call
import ChainScript.Script.Object.Convert
import ChainScript.Script.Object.Inspect
import ChainScript.Script.Object.Visit
import ChainScript.Script.Provider
import ChainScript.Script.Registry
import ChainScript.Script.Session.Basic
import ChainScript.Script.Session.Run
import ChainScript.Text.Blank
import ChainScript.Text.Case
import ChainScript.Text.CaseTable
import ChainScript.Text.Fold
import ChainScript.Text.Line
import ChainScript.Text.Printable
import ChainScript.Text.Quoted
import ChainScript.Text.Search
import ChainScript.Text.Utf8
import ChainScript.Time
import ChainScript.Proofs.Graph.Consistent
import ChainScript.Proofs.Random.Selection
import ChainScript.Proofs.Random.Period
import ChainScript.Proofs.Generator.Run
import ChainScript.Proofs.Binary.Reading
import ChainScript.Proofs.Graph.Regroup
import ChainScript.Proofs.Binary.RoundTrip
import ChainScript.Proofs.Object.Call
import ChainScript.Proofs.Graph.Content
import ChainScript.Proofs.Generator.Learned
import ChainScript.Proofs.Format.Plain
import ChainScript.Proofs.Generator.Staleness
import ChainScript.Proofs.Generator.Ageing
import ChainScript.Proofs.Heap.Places
import ChainScript.Proofs.Heap.Confined
import ChainScript.Proofs.Object.Confined
import ChainScript.Proofs.Object.Reach
import ChainScript.Proofs.Session.Onward
import ChainScript.Proofs.Session.Through
import ChainScript.Proofs.Text.Folding
import ChainScript.Proofs.Ordered.Alike
import ChainScript.Proofs.Graph.Alike
import ChainScript.Proofs.Generator.Alike
import ChainScript.Proofs.Format.Alike
import ChainScript.Proofs.Binary.Alike
import ChainScript.Proofs.Generator.Spelling
import ChainScript.Proofs.Generator.Replay
import ChainScript.Proofs.Generator.Session
import ChainScript.Proofs.Walk.Forward
import ChainScript.Proofs.Walk.Around
import ChainScript.Proofs.Registry.Indexed
import ChainScript.Proofs.Registry.Searched
import ChainScript.Proofs.Registry.Adopted
import ChainScript.Proofs.Heap.Kinds
import ChainScript.Proofs.Heap.Typed
import ChainScript.Proofs.Object.Typed
import ChainScript.Proofs.Object.World
import ChainScript.Proofs.Heap.Marks
import ChainScript.Proofs.Object.Guards
import ChainScript.Proofs.Object.Lending
import ChainScript.Proofs.Object.Heeding
import ChainScript.Proofs.Object.Alive
import ChainScript.Proofs.Generator.Ending
import ChainScript.Proofs.Binary.Loading
import ChainScript.Proofs.Format.Nodes
import ChainScript.Proofs.Generator.Reader
import ChainScript.Proofs.Members.Declared
import ChainScript.Proofs.Members.Overloads
import ChainScript.Proofs.Members.Captured
import ChainScript.Proofs.Object.Policies
import ChainScript.Proofs.Object.Uses
import ChainScript.Proofs.Heap.Replaced
import ChainScript.Proofs.Object.Cell
import ChainScript.Proofs.Object.Fields
import ChainScript.Proofs.Object.Handles
import ChainScript.Proofs.Heap.Paired
import ChainScript.Proofs.Object.Face
import ChainScript.Proofs.Object.Twin
import ChainScript.Proofs.Session.Twin
import ChainScript.Proofs.Registry.Imported
import ChainScript.Proofs.Graph.Addressed
import ChainScript.Proofs.Random.Uniform
import ChainScript.Proofs.Generator.Choices
import ChainScript.Proofs.Generator.Sweeping
import ChainScript.Proofs.Walk.Unbroken
import ChainScript.Proofs.Registry.Provided
import ChainScript.Proofs.Members.Latest
import ChainScript.Proofs.Members.Reopened
import ChainScript.Proofs.Object.Seen
import ChainScript.Proofs.Object.Hop
import ChainScript.Proofs.Object.Paths
import ChainScript.Proofs.Walk.Longer
import ChainScript.Proofs.Format.Accepted
import ChainScript.Proofs.Walk.Resumed
import ChainScript.Proofs.Format.Edges
import ChainScript.Proofs.Graph.Summary
import ChainScript.Proofs.Format.Emitted
import ChainScript.Proofs.Members.Overlaid
import ChainScript.Proofs.Registry.Reinstalled
import ChainScript.Proofs.Object.Raised
import ChainScript.Proofs.Object.Reflected
import ChainScript.Proofs.Tally.History
import ChainScript.Proofs.Tally.Search
import ChainScript.Proofs.Graph.Variants
