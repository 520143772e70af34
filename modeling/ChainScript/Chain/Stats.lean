import ChainScript.Chain.Graph

/-!
# Statistics of a graph

Counts of words, transitions, records and prefixes, and the most frequent word.  Words and
prefixes are counted up to case.
-/

namespace ChainScript.Chain

/-- A summary of a graph. -/
structure Stats where
  /-- Different words. -/
  wordCount : Nat
  /-- Different pairs of a prefix and a word after it. -/
  transitions : Nat
  records : Nat
  /-- Prefixes that have a record. -/
  prefixes : Nat
  /-- Prefixes at which a line may begin. -/
  startPrefixes : Nat
  /-- The word with the most records, as it was first spelled; the earliest of several. -/
  mostCommonWord : Option String
  deriving DecidableEq

/-- How often each word was recorded, in the order of first records. -/
def wordCounts (rs : List Record) : Table Word Nat :=
  rs.foldl (fun t r => t.update r.2.word 0 (· + 1)) Table.empty

/-- The first entry with the greatest count. -/
def mostFrequent (entries : List (Word × Nat)) : Option (Word × Nat) :=
  entries.foldl (fun best e =>
    match best with
    | some b => if b.2 < e.2 then some e else best
    | none => some e) none

/-- The number of different words in a bag. -/
def distinctWords (bag : Array Suffix) : Nat :=
  (Roster.ofList (bag.toList.map (·.word))).size

/-- The summary of the graph. -/
def Graph.stats (g : Graph) : Stats :=
  let counts := wordCounts g.records
  { wordCount := counts.size
    transitions := (g.bags.values.toList.map distinctWords).foldr (· + ·) 0
    records := g.count
    prefixes := g.bags.size
    startPrefixes := g.starts.size
    mostCommonWord := (mostFrequent counts.entries).map (·.1.text) }

end ChainScript.Chain
