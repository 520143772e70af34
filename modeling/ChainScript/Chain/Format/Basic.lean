/-!
# Formats

The forms in which a graph is written to a file.
-/

namespace ChainScript.Chain

/-- A form of a graph in a file. -/
inductive Format
  /-- One transition a line, with tabs between its fields. -/
  | text
  /-- Length-prefixed records with their times. -/
  | binary
  /-- A drawing of the graph; it can only be written. -/
  | dot
  deriving DecidableEq

namespace Format

/-- The name of the format. -/
def name : Format → String
  | text => "text"
  | binary => "binary"
  | dot => "dot"

/-- The form that diagnostics show. -/
def shown : Format → String
  | text => "TextPlain"
  | binary => "Binary"
  | dot => "Dot"

/-- A graph can be read back from the format. -/
def canLoad : Format → Bool
  | dot => false
  | _ => true

end Format

end ChainScript.Chain
