import ChainScript.Chain.Graph

/-!
# The drawing format

A graph as a drawing in the dot language: prefixes are nodes, and the records of one prefix
with one word are one edge, with their number as its weight and in bold where one of them is
terminal.  Prefixes and words are told apart up to case and named as they were first spelled.

## Main definitions

* `DotFormat.Edge`, `DotFormat.edges` — the edges of a drawing, in the order of first records.
* `DotFormat.nodeLabel`, `DotFormat.escape` — the name of a node, and its quoted form.
* `DotFormat.write` — the drawing.
-/

namespace ChainScript.Chain.DotFormat

/-- What the records of an edge have in common. -/
structure Edge where
  source : Prefix
  word : Word

instance : BEq Edge := ⟨fun a b => a.source == b.source && a.word == b.word⟩

instance : Hashable Edge := ⟨fun e => mixHash (hash e.source) (hash e.word)⟩

theorem Edge.beq_iff {a b : Edge} :
    (a == b) = true ↔ (a.source == b.source) = true ∧ (a.word == b.word) = true := by
  change (a.source == b.source && a.word == b.word) = true ↔ _
  simp

instance : EquivBEq Edge where
  rfl := Edge.beq_iff.2 ⟨BEq.rfl, BEq.rfl⟩
  symm h := Edge.beq_iff.2 ⟨BEq.symm (Edge.beq_iff.1 h).1, BEq.symm (Edge.beq_iff.1 h).2⟩
  trans h₁ h₂ := Edge.beq_iff.2
    ⟨BEq.trans (Edge.beq_iff.1 h₁).1 (Edge.beq_iff.1 h₂).1,
      BEq.trans (Edge.beq_iff.1 h₁).2 (Edge.beq_iff.1 h₂).2⟩

instance : LawfulHashable Edge where
  hash_eq a b h := by
    change mixHash (hash a.source) (hash a.word) = mixHash (hash b.source) (hash b.word)
    rw [hash_eq (Edge.beq_iff.1 h).1, hash_eq (Edge.beq_iff.1 h).2]

/-- How an edge is drawn. -/
structure Stroke where
  /-- The number of its records. -/
  weight : Nat
  /-- One of its records is terminal. -/
  bold : Bool

/-- The edges of the records, in the order of their first records. -/
def edges (rs : List Record) : Table Edge Stroke :=
  rs.foldl (fun t r =>
    t.update ⟨r.1, r.2.word⟩ ⟨0, false⟩ fun stroke =>
      ⟨stroke.weight + 1, stroke.bold || r.2.terminal⟩) Table.empty

/-- The name of the node of a prefix: its words with a space between them, or a caret at a
line's beginning. -/
def nodeLabel (p : Prefix) : String :=
  if p.isStart then "^" else " ".intercalate (p.tokens.map (·.text))

/-- The character in a quoted name: a quote or a backslash follows a backslash. -/
def escapeChar (c : Char) : List Char :=
  if c = '\\' ∨ c = '"' then ['\\', c] else [c]

/-- The text as it stands in a quoted name. -/
def escape (s : String) : String := String.ofList (s.toList.flatMap escapeChar)

/-- The text as a quoted name. -/
def quoted (s : String) : String := "\"" ++ escape s ++ "\""

/-- The line of an edge.  Its target is named as the graph spells it. -/
def edgeLine (g : Graph) (e : Edge) (stroke : Stroke) : String :=
  let next := e.source.shift e.word
  let next := (g.key? next).getD next
  "  " ++ quoted (nodeLabel e.source) ++ " -> " ++ quoted (nodeLabel next) ++
    " [label=" ++ quoted e.word.text ++ ", weight=" ++ toString stroke.weight ++
    (if stroke.bold then ", style=bold" else "") ++ "];\n"

/-- The lines of the drawing, newlines included. -/
def drawing (g : Graph) : List String :=
  ["digraph markov \x7b\n", "  node [shape=box];\n"] ++
    (edges g.records).entries.map (fun e => edgeLine g e.1 e.2) ++ ["\x7d\n"]

/-- The file of the drawing. -/
def write (g : Graph) : List UInt8 := (drawing g).flatMap Text.bytes

end ChainScript.Chain.DotFormat
