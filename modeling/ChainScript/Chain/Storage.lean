import ChainScript.Chain.Format.Binary
import ChainScript.Chain.Format.Dot
import ChainScript.Chain.Format.Text

/-!
# Storing and loading graphs

A graph is rendered in a format and the bytes are written to a sink.  A stored graph is read
as a list of records, which are inserted in order into an empty graph.

## Main definitions

* `Rendered`, `Graph.render` — the bytes of a graph, up to a word that cannot be written.
* `Stored`, `Graph.store` — what a sink takes of them, and the outcome.
* `readRecords`, `Graph.load` — the records of a file, and their graph.
-/

namespace ChainScript.Chain

/-- The bytes of a graph in a format.  They end early where a word cannot be written. -/
structure Rendered where
  bytes : List UInt8
  fault : Option IoFault := none

/-- The graph in a format. -/
def Graph.render (g : Graph) : Format → Rendered
  | .text => ⟨TextFormat.write g.records, none⟩
  | .binary =>
      let (bytes, fault) := BinaryFormat.write g.count g.records
      ⟨bytes, fault⟩
  | .dot => ⟨DotFormat.write g, none⟩

/-- What comes of writing a graph. -/
structure Stored where
  /-- The bytes that the sink took. -/
  taken : List UInt8
  /-- The number of records written, or why writing failed. -/
  outcome : Except ChainError Nat

/-- Writes the graph to a sink.  A sink that fails does so before a word that cannot be
written is reached. -/
def Graph.store (g : Graph) (format : Format) (sink : Sink) : Stored :=
  let rendered := g.render format
  { taken := sink.takes rendered.bytes
    outcome :=
      match sink.failure? rendered.bytes, rendered.fault with
      | some reason, _ => .error (.io (.device reason))
      | none, some fault => .error (.io fault)
      | none, none => .ok g.count }

/-- The records of a stored graph, in the order of the file.  Records of a text file are
created at `now`. -/
def readRecords (format : Format) (now : Instant) (input : Input) :
    Except ChainError (List Record) :=
  match format with
  | .text => TextFormat.read now input
  | .binary => BinaryFormat.read input
  | .dot => .error (.unsupported .dot "load")

/-- The graph of a stored graph. -/
def Graph.load (format : Format) (now : Instant) (input : Input) : Except ChainError Graph :=
  return Graph.ofRecords (← readRecords format now input)

end ChainScript.Chain
