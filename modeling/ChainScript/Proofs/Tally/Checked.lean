import ChainScript.Proofs.Tally.Counts
import Mathlib.Data.Nat.Factorization.Basic

/-!
# Tallies in machine arithmetic

The numbers of a tally have no bound, and a difference of them stops at zero.  A machine has
neither: it goes wrong where a sum reaches `2 ^ 64`, where a difference would fall below zero, and
where a cell is looked up that is not there.  Every operation is written here once more with these
checks in it, and it fails at none of them on a tally of counts whose total stays below `2 ^ 64`.

What keeps the differences above zero is that a change visits only cells that sum up the changed
count (`Holds.bounds`).  Positions are not checked from above: the memory that holds the cells
bounds them.

## Main definitions

* `plus?`, `minus?` — sums and differences within the range of 64 bits.
* `Tally.sum?`, `Tally.get?` — the questions to a tally, step by step checked.
* `Tally.push?`, `Tally.increment?`, `Tally.decrement?`, `Tally.set?` — the changes.

## Main results

* `toNat_and_neg` — `lowBit` is what masking a machine number with its negative leaves.
* `Tally.sum?_spec`, `Tally.push?_spec`, … — no check fails, and the result is the one of the
  unchecked operation.
-/

namespace ChainScript.Chain

/-! ### Machine numbers -/

/-- A number and its negative have one bit in common, the lowest that is set. -/
theorem toNat_and_neg (x : UInt64) : (x &&& -x).toNat = lowBit x.toNat := by
  rcases Nat.eq_zero_or_pos x.toNat with hzero | hpos
  · obtain rfl : x = 0 := UInt64.toNat_inj.1 hzero
    rw [lowBit]
    rfl
  · obtain ⟨e, m, hm, hx⟩ := Nat.exists_eq_two_pow_mul_odd (Nat.ne_of_gt hpos)
    have hbit : ∀ i, x.toBitVec.getLsbD i = (decide (i ≥ e) && m.testBit (i - e)) := by
      intro i
      rw [← Nat.testBit_two_pow_mul, ← hx]
      rfl
    have hfirst : x.toBitVec.getLsbD e = true := by
      rw [hbit, Nat.sub_self, Nat.testBit_zero, Nat.odd_iff.1 hm]
      simp
    have hlow : lowBit x.toNat = 2 ^ e := by
      rw [hx, lowBit_two_pow_mul e m (Nat.odd_iff.1 hm)]
    rw [hlow]
    apply Nat.eq_of_testBit_eq
    intro i
    change (x.toBitVec &&& -x.toBitVec).getLsbD i = _
    rw [BitVec.getLsbD_and, BitVec.getLsbD_neg, Nat.testBit_two_pow]
    -- The negative keeps a bit where no lower one is set, and turns it round elsewhere.
    rcases Nat.lt_trichotomy i e with hi | rfl | hi
    · rw [hbit, decide_eq_false (Nat.not_le.2 hi), decide_eq_false (Nat.ne_of_gt hi)]
      rfl
    · have hnone : ¬∃ j < i, x.toBitVec.getLsbD j = true := by
        rintro ⟨j, hj, hset⟩
        rw [hbit, decide_eq_false (Nat.not_le.2 hj)] at hset
        cases hset
      rw [hfirst, decide_eq_false hnone]
      simp
    · have hsome : ∃ j < i, x.toBitVec.getLsbD j = true := ⟨e, hi, hfirst⟩
      rw [decide_eq_true hsome, decide_eq_false (Nat.ne_of_lt hi), Bool.and_true]
      cases hset : x.toBitVec.getLsbD i with
      | false => rfl
      | true =>
          rw [decide_eq_true (BitVec.lt_of_getLsbD hset)]
          rfl

/-- The sum, where it is below `2 ^ 64`. -/
def plus? (a b : Nat) : Option Nat := if a + b < 2 ^ 64 then some (a + b) else none

/-- The difference, where it is not below zero. -/
def minus? (a b : Nat) : Option Nat := if b ≤ a then some (a - b) else none

theorem plus?_of_lt {a b : Nat} (h : a + b < 2 ^ 64) : plus? a b = some (a + b) := if_pos h

theorem minus?_of_le {a b : Nat} (h : b ≤ a) : minus? a b = some (a - b) := if_pos h

namespace Tally

/-! ### Questions -/

/-- Cell `i`, counted from one. -/
def cell? (t : Tally) (i : Nat) : Option Nat := do t.cells[← minus? i 1]?

/-- The counts that end with count `i`, counted from one, added to `acc`. -/
def sumFrom? (t : Tally) (acc i : Nat) : Option Nat :=
  if _hi : 0 < i then
    match _h : minus? i (lowBit i) with
    | some rest => do t.sumFrom? (← plus? acc (← t.cell? i)) rest
    | none => none
  else some acc
termination_by i
decreasing_by
  have hlow := lowBit_pos _hi
  rw [minus?_of_le (lowBit_le i), Option.some.injEq] at _h
  omega

/-- The sum of the first `n` counts. -/
def sum? (t : Tally) (n : Nat) : Option Nat := t.sumFrom? 0 (min n t.size)

/-- The count at position `i`. -/
def get? (t : Tally) (i : Nat) : Option Nat := do minus? (← t.sum? (i + 1)) (← t.sum? i)

/-! ### Changes -/

/-- Adds a count at the end. -/
def push? (t : Tally) (count : Nat) : Option Tally := do
  let i := t.size + 1
  let covered ← minus? (← t.sum? (← minus? i 1)) (← t.sum? (← minus? i (lowBit i)))
  return ⟨t.cells.push (← plus? count covered)⟩

/-- Applies `f` to every partial sum that takes in count `i`, counted from one. -/
def changeFrom? (f : Nat → Option Nat) (t : Tally) (i : Nat) : Option Tally :=
  if _h : 0 < i ∧ i ≤ t.cells.size then
    match (t.cell? i).bind f with
    | some cell => changeFrom? f ⟨t.cells.setIfInBounds (i - 1) cell⟩ (i + lowBit i)
    | none => none
  else some t
termination_by t.cells.size + 1 - i
decreasing_by
  have := lowBit_pos _h.1
  simp only [Array.size_setIfInBounds]
  omega

/-- Adds one to the count at position `i`. -/
def increment? (t : Tally) (i : Nat) : Option Tally := t.changeFrom? (plus? · 1) (i + 1)

/-- Takes one from the count at position `i`. -/
def decrement? (t : Tally) (i : Nat) : Option Tally := t.changeFrom? (minus? · 1) (i + 1)

/-- Replaces the count at position `i`. -/
def set? (t : Tally) (i count : Nat) : Option Tally := do
  let current ← t.get? i
  t.changeFrom? (fun cell => do plus? (← minus? cell current) count) (i + 1)

/-! ### No check fails -/

variable {t : Tally} {counts : List Nat}

theorem cell?_spec (H : Holds t counts) {i : Nat} (hi : 0 < i) (hle : i ≤ counts.length) :
    t.cell? i = some ((counts.take i).sum - (counts.take (i - lowBit i)).sum) := by
  rw [cell?, minus?_of_le hi]
  exact H.cell i hi hle

/-- The ranges that are still to come sum up to no more than the total. -/
theorem sumFrom?_spec (H : Holds t counts) (htotal : counts.sum < 2 ^ 64) {acc i : Nat}
    (hi : i ≤ counts.length) (hacc : acc + (counts.take i).sum ≤ counts.sum) :
    t.sumFrom? acc i = some (acc + (counts.take i).sum) := by
  induction i using Nat.strongRecOn generalizing acc with
  | ind i ih =>
      rw [sumFrom?]
      split
      · next hpos =>
        have hlow := lowBit_pos hpos
        have hmono := sum_take_mono counts (Nat.sub_le i (lowBit i))
        rw [cell?_spec H hpos hi]
        split
        · next rest hrest =>
          rw [minus?_of_le (lowBit_le i), Option.some.injEq] at hrest
          subst hrest
          rw [Option.bind_eq_bind, Option.bind_some, plus?_of_lt (by omega), Option.bind_some,
            ih _ (by omega) (by omega) (by omega)]
          congr 1
          omega
        · next hnone =>
          rw [minus?_of_le (lowBit_le i)] at hnone
          cases hnone
      · next hzero =>
        obtain rfl : i = 0 := by omega
        simp

theorem sum?_spec (H : Holds t counts) (htotal : counts.sum < 2 ^ 64) (n : Nat) :
    t.sum? n = some (t.sum n) := by
  have hsize : t.size = counts.length := H.size_eq
  have hle : (counts.take (min n t.size)).sum ≤ counts.sum := by
    have := sum_take_mono counts (Nat.min_le_right n t.size)
    rwa [hsize, List.take_length, ← hsize] at this
  rw [sum?, sum, sumTo_spec H (by omega), sumFrom?_spec H htotal (by omega) (by omega),
    Nat.zero_add]

theorem get?_spec (H : Holds t counts) (htotal : counts.sum < 2 ^ 64) (i : Nat) :
    t.get? i = some (t.get i) := by
  have hmono : t.sum i ≤ t.sum (i + 1) := by
    rw [sum_spec H, sum_spec H]
    exact sum_take_mono counts (Nat.le_succ i)
  rw [get?, sum?_spec H htotal, sum?_spec H htotal]
  exact minus?_of_le hmono

theorem push?_spec (H : Holds t counts) {c : Nat} (htotal : counts.sum + c < 2 ^ 64) :
    t.push? c = some (t.push c) := by
  have hlow : 0 < lowBit (t.size + 1) := lowBit_pos (Nat.succ_pos t.size)
  have hmono : t.sum (t.size + 1 - lowBit (t.size + 1)) ≤ t.sum (t.size + 1 - 1) := by
    rw [sum_spec H, sum_spec H]
    exact sum_take_mono counts (by omega)
  have hle : t.sum (t.size + 1 - 1) ≤ counts.sum := by
    rw [Nat.add_sub_cancel, sum_spec H, H.size_eq, List.take_length]
  simp only [push?, minus?_of_le (Nat.succ_pos t.size), minus?_of_le (lowBit_le (t.size + 1)),
    Option.bind_eq_bind, Option.bind_some, sum?_spec H (show counts.sum < 2 ^ 64 by omega)]
  rw [minus?_of_le hmono, Option.bind_some, plus?_of_lt (by omega), Option.bind_some]
  rfl

theorem modify_eq_setIfInBounds {cells : Array Nat} {i cell : Nat} (h : cells[i]? = some cell)
    (g : Nat → Nat) : cells.modify i g = cells.setIfInBounds i (g cell) := by
  apply Array.ext_getElem?
  intro j
  rw [Array.getElem?_modify, Array.getElem?_setIfInBounds]
  split
  · next heq => rw [← heq, h, Option.map_some, if_pos (Array.getElem?_eq_some_iff.1 h).1]
  · rfl

/-- A checked change succeeds where it does so on every cell whose range takes in the count. -/
theorem changeFrom?_eq {f : Nat → Option Nat} {g : Nat → Nat} {i : Nat} (hi : 0 < i)
    (hf : ∀ j cell, t.cells[j]? = some cell → i ≤ j + 1 → j + 1 - lowBit (j + 1) < i →
      f cell = some (g cell)) : t.changeFrom? f i = some (t.changeFrom g i) := by
  fun_induction changeFrom g t i with
  | case1 t i h ih =>
      have hlow := lowBit_pos hi
      have hcell : t.cells[i - 1]? = some t.cells[i - 1] := Array.getElem?_eq_getElem (by omega)
      have hone := hf (i - 1) _ hcell (by omega) (by rw [Nat.sub_add_cancel hi]; omega)
      rw [changeFrom?, dif_pos h, cell?, minus?_of_le hi, Option.bind_eq_bind, Option.bind_some,
        hcell, Option.bind_some, hone]
      simp only
      rw [← modify_eq_setIfInBounds hcell]
      refine ih (by omega) ?_
      intro j cell hcell hle hreach
      -- The cells that are still to be visited differ from this one, so it changes none of them.
      have hne : i - 1 ≠ j := by omega
      rw [Array.getElem?_modify, if_neg hne] at hcell
      have := (reaches_iff hi (show i ≤ j + 1 by omega)).2 (.inr ⟨hle, hreach⟩)
      exact hf j cell hcell (by omega) this
  | case2 t i h => rw [changeFrom?, dif_neg h]

/-- A cell whose range takes in a count lies between the count and the total. -/
theorem Holds.bounds (H : Holds t counts) {i j cell : Nat} (hi : i < counts.length)
    (hcell : t.cells[j]? = some cell) (hle : i + 1 ≤ j + 1)
    (hreach : j + 1 - lowBit (j + 1) < i + 1) : counts[i] ≤ cell ∧ cell ≤ counts.sum := by
  have hj : j + 1 ≤ counts.length := H.size_eq ▸ (Array.getElem?_eq_some_iff.1 hcell).1
  have hsum := H.cell (j + 1) (Nat.succ_pos j) hj
  rw [Nat.add_sub_cancel, hcell, Option.some.injEq] at hsum
  have hcount := sum_take_add_getElem_le hi (Nat.le_of_lt_succ hreach) hle
  have htotal := sum_take_mono counts hj
  rw [List.take_length] at htotal
  omega

theorem increment?_spec (H : Holds t counts) {i : Nat} (hi : i < counts.length)
    (htotal : counts.sum + 1 < 2 ^ 64) : t.increment? i = some (t.increment i) := by
  refine changeFrom?_eq (Nat.succ_pos i) ?_
  intro j cell hcell hle hreach
  have hbounds := H.bounds hi hcell hle hreach
  exact plus?_of_lt (by omega)

theorem decrement?_spec (H : Holds t counts) {i : Nat} (hi : i < counts.length)
    (hpos : 0 < counts[i]) : t.decrement? i = some (t.decrement i) := by
  refine changeFrom?_eq (Nat.succ_pos i) ?_
  intro j cell hcell hle hreach
  have hbounds := H.bounds hi hcell hle hreach
  exact minus?_of_le (by omega)

/-- The total without the old count leaves room for the new one. -/
theorem set?_spec (H : Holds t counts) {i : Nat} (hi : i < counts.length) {c : Nat}
    (htotal : counts.sum < 2 ^ 64) (hroom : (counts.set i c).sum < 2 ^ 64) :
    t.set? i c = some (t.set i c) := by
  have hset := sum_set hi c
  rw [set?, get?_spec H htotal, Option.bind_eq_bind, Option.bind_some, get_spec H hi, set,
    get_spec H hi]
  refine changeFrom?_eq (Nat.succ_pos i) ?_
  intro j cell hcell hle hreach
  have hbounds := H.bounds hi hcell hle hreach
  rw [minus?_of_le hbounds.1, Option.bind_eq_bind, Option.bind_some]
  exact plus?_of_lt (by omega)

end Tally

end ChainScript.Chain
