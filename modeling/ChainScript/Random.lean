/-!
# Seeded uniform selection

A source of random words is a step function on a 64-bit state word.  A cursor carries the
state word and counts the words drawn.  Uniform selection below `n` draws words until one
falls under the largest multiple of `n`-sized blocks and takes its remainder, so that no
remainder is favoured.

A source may never yield an acceptable word.  Since the state is one word, it repeats after
`2 ^ 64` draws at the latest, so a selection that has not ended by then never ends; the result
is then `none`.

## Main definitions

* `Source` — a step function; `Source.lcg`, `Source.counter` and `Source.cycle` are three.
* `Cursor`, `Draw` — state word and draw count, and computations that draw.
* `Source.below`, `Source.pick` — uniform selection of an index and of an item.
-/

namespace ChainScript

/-- A source of random words: the word drawn from a state word, and the next state word. -/
structure Source where
  next : UInt64 → UInt64 × UInt64

/-- The state word of a source and the number of words drawn so far. -/
structure Cursor where
  word : UInt64
  draws : Nat := 0
  deriving DecidableEq

/-- A computation that draws random words; `none` when it draws for ever. -/
abbrev Draw (α : Type) := StateT Cursor Option α

namespace Source

/-- A linear congruential generator modulo `2 ^ 64`.  The low bits of its state are weak, so
the high half is folded into the word it yields. -/
def lcg : Source where
  next state :=
    let state := state * 6364136223846793005 + 1442695040888963407
    (state ^^^ (state >>> 33), state)

/-- Counts upwards and yields the count. -/
def counter : Source where
  next state := (state + 1, state + 1)

/-- Yields the given words in turn, starting where the state word points. -/
def cycle (words : Array UInt64) : Source where
  next state := ((words[state.toNat % words.size]?).getD 0, state + 1)

variable (source : Source)

/-- Draws one word. -/
def draw : Draw UInt64 := fun cursor =>
  let (word, state) := source.next cursor.word
  some (word, ⟨state, cursor.draws + 1⟩)

/-- The greatest word. -/
def maxWord : Nat := UInt64.size - 1

/-- Words below this bound are accepted in a selection below `n`: it is the greatest multiple
of `n` that is a word. -/
def zone (n : Nat) : Nat := maxWord - maxWord % n

/-- The index that a drawn word selects below `n`, if the word is accepted. -/
def accept? (n : Nat) (word : UInt64) : Option Nat :=
  if word.toNat < zone n then some (word.toNat % n) else none

/-- Draws until a word is accepted, at most `limit` words. -/
def belowWithin (n : Nat) : (limit : Nat) → Draw Nat
  | 0 => failure
  | limit + 1 => do
      match accept? n (← source.draw) with
      | some i => pure i
      | none => belowWithin n limit

/-- A uniform index below `n`; zero, without a draw, where `n` leaves no choice. -/
def below (n : Nat) : Draw Nat :=
  if n ≤ 1 then pure 0 else source.belowWithin n UInt64.size

/-- A uniform item; no draw is made where there is none or only one. -/
def pick {α : Type} (items : Array α) : Draw (Option α) := do
  if items.isEmpty then pure none
  else
    let i ← source.below items.size
    pure items[i]?

end Source

end ChainScript
