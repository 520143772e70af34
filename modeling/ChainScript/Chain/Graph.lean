import ChainScript.Chain.Tally
import ChainScript.Chain.Word
import ChainScript.Ordered.Table

/-!
# The transition graph

The graph sends every prefix to the bag of suffixes observed after it, in the order of
observation, and keeps the prefixes at which a line may begin.  Prefixes stand in the order
of their first record, so that a seeded walk can be replayed.  A tally of the bag sizes finds
the bag of the `k`-th record.

## Main definitions

* `Graph` — bags, tally, starts and record count.
* `Graph.records` — every record in bag order; the view that the operations are described by.
* `Graph.insert`, `Graph.removeNth`, `Graph.retainYounger` — the changes.
* `Graph.successors`, `Graph.key?` — look-ups, up to case.
-/

namespace ChainScript.Chain

/-- The records of a chain, by prefix. -/
structure Graph where
  /-- The suffixes observed after each prefix. -/
  bags : Table Prefix (Array Suffix)
  /-- The sizes of the bags. -/
  weights : Tally
  /-- The prefixes at which a line may begin. -/
  starts : Roster Prefix
  /-- The number of records. -/
  count : Nat

namespace Graph

/-- The graph without records: a line begins at the start prefix only. -/
def empty : Graph := ⟨Table.empty, Tally.empty, Roster.empty.insert Prefix.start, 0⟩

/-- The suffixes observed after the prefix. -/
def successors (g : Graph) (p : Prefix) : Array Suffix := (g.bags.find? p).getD #[]

/-- The prefix as the graph spells it. -/
def key? (g : Graph) (p : Prefix) : Option Prefix := g.bags.keys.find? p

/-- Every record, bag by bag. -/
def records (g : Graph) : List Record :=
  g.bags.entries.flatMap fun bag => bag.2.toList.map (bag.1, ·)

/-- Adds a record to the bag of its prefix.  A prefix that begins a line joins the starts with
its first record. -/
def insert (g : Graph) (p : Prefix) (s : Suffix) : Graph :=
  match g.bags.position? p with
  | some i =>
      { g with
        bags := g.bags.modifyAt i (·.push s)
        weights := g.weights.increment i
        count := g.count + 1 }
  | none =>
      { bags := g.bags.update p #[] (·.push s)
        weights := g.weights.push 1
        starts := if p.beginsLine then g.starts.insert p else g.starts
        count := g.count + 1 }

/-- The graph of the given records, inserted in order. -/
def ofRecords (rs : List Record) : Graph := rs.foldl (fun g r => g.insert r.1 r.2) empty

/-- The starts without a prefix whose bag has emptied; the start prefix always stays. -/
def dropStart (starts : Roster Prefix) (p : Prefix) : Roster Prefix :=
  if p.isStart then starts else starts.swapRemove p

/-- Removes the emptied bag at position `i`; the last bag moves into its place. -/
def removeBag (g : Graph) (i : Nat) : Graph :=
  let last := g.bags.size - 1
  let weights := if i = last then g.weights else g.weights.set i (g.weights.get last)
  { g with
    bags := g.bags.swapRemoveAt i
    weights := weights.pop
    starts := match g.bags.keys.members[i]? with
      | some p => dropStart g.starts p
      | none => g.starts }

/-- The bag without the suffix at position `i`; the last suffix moves into its place. -/
def swapRemoveSuffix (bag : Array Suffix) (i : Nat) : Array Suffix :=
  if h : i < bag.size then (bag.swap i (bag.size - 1) h (by omega)).pop else bag

/-- Removes the `k`-th record, counted across all bags, and returns its suffix; `none` where
there is no such record. -/
def removeNth (g : Graph) (k : Nat) : Option (Suffix × Graph) := do
  guard (k < g.count)
  let (i, offset) := g.weights.locate k
  let bag ← g.bags.values[i]?
  let removed ← bag[offset]?
  let emptied := bag.size == 1
  let g : Graph :=
    { g with
      bags := g.bags.modifyAt i (swapRemoveSuffix · offset)
      weights := g.weights.decrement i
      count := g.count - 1 }
  return (removed, if emptied then g.removeBag i else g)

/-- Drops the records created before `cutoff`, and with them the bags they leave empty. -/
def retainYounger (g : Graph) (cutoff : Instant) : Graph :=
  let aged := g.bags.mapValues (·.filter (cutoff ≤ ·.createdAt))
  let emptied := (aged.entries.filter (·.2.isEmpty)).map (·.1)
  let bags := aged.filter fun _ bag => !bag.isEmpty
  let sizes := bags.values.toList.map (·.size)
  { bags := bags
    weights := Tally.ofList sizes
    starts := emptied.foldl dropStart g.starts
    count := sizes.foldr (· + ·) 0 }

end Graph

end ChainScript.Chain
