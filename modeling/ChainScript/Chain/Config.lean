import ChainScript.Time

/-!
# Bounds on a chain

How many records a chain keeps and how old they may grow.
-/

namespace ChainScript.Chain

/-- The bounds that eviction enforces. -/
structure Config where
  /-- The greatest number of records. -/
  maxSize : Nat := 65535
  /-- Records older than this are dropped. -/
  maxAge : Duration := Duration.days 30
  deriving DecidableEq

end ChainScript.Chain
