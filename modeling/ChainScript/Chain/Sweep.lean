import ChainScript.Chain.Config
import ChainScript.Chain.Graph
import ChainScript.Random

/-!
# Eviction

A sweep brings a graph back within its bounds.  First comes the age pass, which drops the
records past their age; it is left out while the last one is recent.  Then records are dropped
one by one, each a uniform choice among all, until the size bound holds.

## Main definitions

* `Graph.dropRandom` — drops a number of uniformly chosen records.
* `sweep` — the two passes.
* `Swept` — what a sweep leaves.
-/

namespace ChainScript.Chain

/-- What a sweep leaves. -/
structure Swept where
  graph : Graph
  /-- When the last age pass took place. -/
  lastCleanup : Instant
  /-- Records dropped by age. -/
  aged : Nat
  /-- Records dropped at random. -/
  dropped : Nat

/-- Drops `n` records, each chosen uniformly among those left. -/
def Graph.dropRandom (source : Source) : (n : Nat) → Graph → Draw Graph
  | 0, g => pure g
  | n + 1, g => do
      let k ← source.below g.count
      match g.removeNth k with
      | none => pure g
      | some (_, g) => dropRandom source n g

/-- The age pass, due when the last one lies before the cutoff, and then random drops down to
the greatest size. -/
def sweep (source : Source) (config : Config) (now lastCleanup : Instant) (g : Graph) :
    Draw Swept := do
  let cutoff := Instant.back now config.maxAge
  let due := lastCleanup < cutoff
  let aged := if due then g.retainYounger cutoff else g
  let left ← aged.dropRandom source (aged.count - config.maxSize)
  return { graph := left
           lastCleanup := if due then now else lastCleanup
           aged := g.count - aged.count
           dropped := aged.count - left.count }

end ChainScript.Chain
