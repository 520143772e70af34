import ChainScript.Chain.Device
import ChainScript.Chain.Storage

/-!
# Graphs written piece by piece

A graph goes to a device in many small writes: the fields of a binary file one by one, and of
formatted text every literal piece and every argument on its own.

## Main definitions

* `BinaryFormat.emit`, `TextFormat.emit`, `DotFormat.emit` — the writes of each format.
* `Graph.emit` — writes a graph and answers the number of its records.
-/

namespace ChainScript.Chain

open Text

/-- Writes the pieces of a formatted text. -/
def writePieces (pieces : List String) : Emission Unit := pieces.forM fun s => writeAll (bytes s)

namespace BinaryFormat

/-- Writes a word after its length.  Nothing is written of a word that is too long. -/
def emitWord (w : Word) : Emission Unit :=
  let text := bytes w.text
  if text.length ≤ maxWordSize then do
    writeAll (littleEndian 2 text.length)
    writeAll text
  else throw (.io (.wordTooLong text.length))

/-- Writes the fields of a record. -/
def emitRecord (r : Record) : Emission Unit := do
  (wordsOf r).forM emitWord
  writeAll [if r.2.terminal then 1 else 0]
  writeAll (littleEndian 8 r.2.createdAt.toUInt64.toNat)

/-- Writes a file, up to the first word that is too long. -/
def emit (count : Nat) (rs : List Record) : Emission Unit := do
  writeAll magic
  writeAll (littleEndian 2 version)
  writeAll (littleEndian 8 count)
  rs.forM emitRecord

end BinaryFormat

namespace TextFormat

/-- Writes the line of a record. -/
def emitRecord (r : Record) : Emission Unit :=
  writePieces [r.1.older.text, "\t", r.1.newer.text, "\t", r.2.word.text, "\t",
    flagDigit r.2.terminal, "\n"]

/-- Writes a line for each record. -/
def emit (rs : List Record) : Emission Unit := rs.forM emitRecord

end TextFormat

namespace DotFormat

/-- Writes the line of an edge. -/
def emitEdge (g : Graph) (e : Edge) (stroke : Stroke) : Emission Unit := do
  let next := e.source.shift e.word
  let next := (g.key? next).getD next
  writePieces ["  \"", escape (nodeLabel e.source), "\" -> \"", escape (nodeLabel next),
    "\" [label=\"", escape e.word.text, "\", weight=", toString stroke.weight]
  writePieces (if stroke.bold then [", style=bold"] else [])
  writePieces ["];\n"]

/-- Writes the lines of a drawing. -/
def emit (g : Graph) : Emission Unit := do
  writePieces ["digraph markov \x7b\n"]
  writePieces ["  node [shape=box];\n"]
  (edges g.records).entries.forM fun e => emitEdge g e.1 e.2
  writePieces ["\x7d\n"]

end DotFormat

/-- Writes the graph; answers the number of records. -/
def Graph.emit (g : Graph) (format : Format) : Emission Nat := do
  let written : Emission Unit := match format with
    | .text => TextFormat.emit g.records
    | .binary => BinaryFormat.emit g.count g.records
    | .dot => DotFormat.emit g
  written
  return g.count

end ChainScript.Chain
