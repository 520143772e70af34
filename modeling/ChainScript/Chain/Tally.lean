/-!
# Tallies

A tally is a growable list of counts that answers two questions in logarithmic time: the sum
of its first `n` counts, and in which count the `k`-th of all counted things lies.  It keeps
partial sums in an array: cell `i`, counted from one, holds the sum of the `lowBit i` counts
that end with count `i`.

## Main definitions

* `lowBit` — the greatest power of two that divides a number.
* `Tally.sum`, `Tally.get` — the sum of the first counts, and one count.
* `Tally.push`, `Tally.pop`, `Tally.increment`, `Tally.decrement`, `Tally.set` — changes.
* `Tally.locate` — the count in which a position lies, and the offset in it.
-/

namespace ChainScript.Chain

/-- The greatest power of two that divides `n`; zero for zero. -/
def lowBit (n : Nat) : Nat :=
  if n = 0 then 0
  else if n % 2 = 1 then 1
  else 2 * lowBit (n / 2)
termination_by n
decreasing_by omega

theorem lowBit_pos {n : Nat} (h : 0 < n) : 0 < lowBit n := by
  induction n using Nat.strongRecOn with
  | ind n ih =>
      rw [lowBit]
      split
      · omega
      · split
        · omega
        · have := ih (n / 2) (by omega) (by omega)
          omega

theorem lowBit_le (n : Nat) : lowBit n ≤ n := by
  induction n using Nat.strongRecOn with
  | ind n ih =>
      rw [lowBit]
      split
      · omega
      · split
        · omega
        · have := ih (n / 2) (by omega)
          omega

/-- A list of counts, kept as partial sums. -/
structure Tally where
  cells : Array Nat

namespace Tally

/-- The tally of no counts. -/
def empty : Tally := ⟨#[]⟩

/-- How many counts there are. -/
def size (t : Tally) : Nat := t.cells.size

/-- The sum of the counts that end with count `i` or before it, counted from one. -/
def sumTo (t : Tally) (i : Nat) : Nat :=
  if _h : 0 < i then (t.cells[i - 1]?).getD 0 + t.sumTo (i - lowBit i) else 0
termination_by i
decreasing_by
  have := lowBit_pos _h
  omega

/-- The sum of the first `n` counts. -/
def sum (t : Tally) (n : Nat) : Nat := t.sumTo (min n t.size)

/-- The count at position `i`. -/
def get (t : Tally) (i : Nat) : Nat := t.sum (i + 1) - t.sum i

/-- Adds a count at the end. -/
def push (t : Tally) (count : Nat) : Tally :=
  let i := t.size + 1
  ⟨t.cells.push (count + (t.sum (i - 1) - t.sum (i - lowBit i)))⟩

/-- Removes the last count. -/
def pop (t : Tally) : Tally := ⟨t.cells.pop⟩

/-- Applies `f` to every partial sum that takes in count `i`, counted from one. -/
def changeFrom (f : Nat → Nat) (t : Tally) (i : Nat) : Tally :=
  if _h : 0 < i ∧ i ≤ t.cells.size then
    changeFrom f ⟨t.cells.modify (i - 1) f⟩ (i + lowBit i)
  else t
termination_by t.cells.size + 1 - i
decreasing_by
  have := lowBit_pos _h.1
  simp only [Array.size_modify]
  omega

/-- Adds one to the count at position `i`. -/
def increment (t : Tally) (i : Nat) : Tally := t.changeFrom (· + 1) (i + 1)

/-- Takes one from the count at position `i`. -/
def decrement (t : Tally) (i : Nat) : Tally := t.changeFrom (· - 1) (i + 1)

/-- Replaces the count at position `i`. -/
def set (t : Tally) (i count : Nat) : Tally :=
  let current := t.get i
  t.changeFrom (fun cell => cell - current + count) (i + 1)

/-- Descends by steps of `2 ^ (e - 1), …, 2, 1` from the first `pos` counts, past as many
counts as hold at most `k` things; `k` is counted from there. -/
def descend (t : Tally) : (e pos k : Nat) → Nat × Nat
  | 0, pos, k => (pos, k)
  | e + 1, pos, k =>
      let next := pos + (1 <<< e)
      match t.cells[next - 1]? with
      | some cell => if cell ≤ k then t.descend e next (k - cell) else t.descend e pos k
      | none => t.descend e pos k

/-- The count in which the `k`-th counted thing lies, and its offset in that count. -/
def locate (t : Tally) (k : Nat) : Nat × Nat := t.descend (Nat.log2 t.size + 1) 0 k

/-- The tally of the given counts. -/
def ofList (counts : List Nat) : Tally := counts.foldl push empty

end Tally

end ChainScript.Chain
