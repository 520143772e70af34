import ChainScript.Chain.Tally
import Mathlib.Algebra.BigOperators.Group.List.Basic
import Mathlib.Algebra.Order.Ring.Nat
import Mathlib.Data.Nat.SuccPred

/-!
# Tallies hold lists of counts

A tally holds a list of counts when each of its cells is the sum of the counts in the range of
that cell.  Every operation on a tally is then the operation of the same name on the list, and
the search for a position finds the count in which it lies.

The one fact about `lowBit` that the changes need is `reaches_iff`: the cells whose range takes
in a count are the cells that `changeFrom` visits.

## Main definitions

* `Tally.Holds` — the tally represents the counts.
-/

namespace ChainScript.Chain

/-! ### Ranges of cells -/

theorem lowBit_two_mul (n : Nat) : lowBit (2 * n) = 2 * lowBit n := by
  rw [lowBit]
  split
  · next h =>
    have : n = 0 := by omega
    subst this
    rw [lowBit]; simp
  · rw [if_neg (by omega), show 2 * n / 2 = n by omega]

theorem lowBit_of_odd {n : Nat} (h : n % 2 = 1) : lowBit n = 1 := by
  rw [lowBit, if_neg (by omega), if_pos h]

/-- An odd multiple of a power of two is divided by no greater one. -/
theorem lowBit_two_pow_mul (e m : Nat) (h : m % 2 = 1) : lowBit (2 ^ e * m) = 2 ^ e := by
  induction e with
  | zero => simpa using lowBit_of_odd h
  | succ e ih => rw [Nat.pow_succ', Nat.mul_assoc, lowBit_two_mul, ih]

/-- The range of cell `j` takes in count `i` exactly when `j` is `i` or the range takes in the
next cell that a change of count `i` visits. -/
theorem reaches_iff {i j : Nat} (hi : 0 < i) (hij : i ≤ j) :
    j - lowBit j < i ↔ j = i ∨ (i + lowBit i ≤ j ∧ j - lowBit j < i + lowBit i) := by
  -- Halve both numbers together: an odd one decides, since its lowest bit is one.
  induction j using Nat.strongRecOn generalizing i with
  | ind j ih =>
      have hpos := lowBit_pos hi
      rcases Nat.mod_two_eq_zero_or_one j with hj | hj
      · obtain ⟨j', rfl⟩ : ∃ j', j = 2 * j' := ⟨j / 2, by omega⟩
        rw [lowBit_two_mul]
        rcases Nat.mod_two_eq_zero_or_one i with h | h
        · obtain ⟨i', rfl⟩ : ∃ i', i = 2 * i' := ⟨i / 2, by omega⟩
          rw [lowBit_two_mul]
          have := ih j' (by omega) (i := i') (by omega) (by omega)
          omega
        · rw [lowBit_of_odd h]
          omega
      · rw [lowBit_of_odd hj]
        rcases Nat.mod_two_eq_zero_or_one i with h | h
        · obtain ⟨i', rfl⟩ : ∃ i', i = 2 * i' := ⟨i / 2, by omega⟩
          rw [lowBit_two_mul] at hpos ⊢
          omega
        · rw [lowBit_of_odd h]
          omega

/-! ### Sums of first counts -/

theorem sum_take_add_one {counts : List Nat} {i : Nat} (hi : i < counts.length) :
    (counts.take (i + 1)).sum = (counts.take i).sum + counts[i] :=
  List.sum_take_succ counts i hi

theorem sum_take_mono (counts : List Nat) {m n : Nat} (h : m ≤ n) :
    (counts.take m).sum ≤ (counts.take n).sum := by
  induction counts generalizing m n with
  | nil => simp
  | cons c counts ih =>
      cases m with
      | zero => simp
      | succ m =>
          obtain ⟨n, rfl⟩ : ∃ n', n = n' + 1 := ⟨n - 1, by omega⟩
          simpa using ih (Nat.le_of_succ_le_succ h)

/-- A count is no greater than the sum of a range that takes it in. -/
theorem sum_take_add_getElem_le {counts : List Nat} {i m n : Nat} (hi : i < counts.length)
    (hm : m ≤ i) (hn : i < n) : (counts.take m).sum + counts[i] ≤ (counts.take n).sum := by
  have hbefore := sum_take_mono counts hm
  have hafter := sum_take_mono counts hn
  rw [sum_take_add_one hi] at hafter
  omega

/-- A count that is replaced changes exactly the sums that take it in. -/
theorem sum_take_set {counts : List Nat} {i : Nat} (hi : i < counts.length) (c n : Nat) :
    ((counts.set i c).take n).sum + (if i < n then counts[i] else 0) =
      (counts.take n).sum + (if i < n then c else 0) := by
  induction counts generalizing i n with
  | nil => simp at hi
  | cons d counts ih =>
      cases n with
      | zero => simp
      | succ n =>
          cases i with
          | zero => simp; omega
          | succ i =>
              have := ih (i := i) (by simpa using hi) n
              simp only [List.set_cons_succ, List.take_succ_cons, List.sum_cons,
                List.getElem_cons_succ, Nat.add_lt_add_iff_right]
              omega

theorem sum_set {counts : List Nat} {i : Nat} (hi : i < counts.length) (c : Nat) :
    (counts.set i c).sum + counts[i] = counts.sum + c := by
  have h := sum_take_set hi c counts.length
  rwa [if_pos hi, if_pos hi, List.take_length, List.take_of_length_le (by simp)] at h

namespace Tally

/-! ### Representation -/

/-- The tally represents the counts: cell `i`, counted from one, holds the sum of the counts
after the first `i - lowBit i` among the first `i`. -/
structure Holds (t : Tally) (counts : List Nat) : Prop where
  size_eq : t.size = counts.length
  cell : ∀ i, 0 < i → i ≤ counts.length →
    t.cells[i - 1]? = some ((counts.take i).sum - (counts.take (i - lowBit i)).sum)

theorem holds_empty : Holds empty [] where
  size_eq := rfl
  cell := by intro i hi h; simp at h; omega

variable {t : Tally} {counts : List Nat}

theorem sumTo_spec (H : Holds t counts) {i : Nat} (hi : i ≤ counts.length) :
    t.sumTo i = (counts.take i).sum := by
  induction i using Nat.strongRecOn with
  | ind i ih =>
      rw [sumTo]
      split
      · next hpos =>
        have hlow := lowBit_pos hpos
        have hmono := sum_take_mono counts (Nat.sub_le i (lowBit i))
        rw [H.cell i hpos hi, ih (i - lowBit i) (by omega) (by omega), Option.getD_some]
        omega
      · next hpos =>
        have : i = 0 := by omega
        simp [this]

theorem sum_spec (H : Holds t counts) (n : Nat) : t.sum n = (counts.take n).sum := by
  rw [sum, sumTo_spec H (by rw [H.size_eq]; omega), H.size_eq]
  rcases Nat.le_total n counts.length with h | h
  · rw [Nat.min_eq_left h]
  · rw [Nat.min_eq_right h, List.take_of_length_le h, List.take_length]

theorem get_spec (H : Holds t counts) {i : Nat} (hi : i < counts.length) :
    t.get i = counts[i] := by
  rw [get, sum_spec H, sum_spec H, sum_take_add_one hi]
  omega

/-! ### Changes -/

theorem push_spec (H : Holds t counts) (c : Nat) : Holds (t.push c) (counts ++ [c]) where
  size_eq := by simp [push, size, ← H.size_eq]
  cell := by
    intro i hi hle
    have hsize : t.cells.size = counts.length := H.size_eq
    have hlow := lowBit_pos hi
    rw [List.length_append, List.length_singleton] at hle
    simp only [push, Array.getElem?_push]
    by_cases hlast : i = counts.length + 1
    · subst hlast
      have hmono := sum_take_mono counts (show counts.length + 1 - lowBit (counts.length + 1) ≤
        counts.length by omega)
      rw [if_pos (by omega), sum_spec H, sum_spec H, H.size_eq, List.take_append,
        List.take_append_of_le_length (by omega)]
      simp only [Nat.add_sub_cancel, List.take_length] at hmono ⊢
      simp only [List.take_of_length_le (Nat.le_succ counts.length), List.sum_append,
        Nat.add_sub_cancel_left, List.take_succ_cons, List.take_zero, List.sum_singleton]
      congr 1
      omega
    · rw [if_neg (by omega), H.cell i hi (by omega), List.take_append_of_le_length (by omega),
        List.take_append_of_le_length (by omega)]

theorem pop_spec (H : Holds t counts) : Holds t.pop counts.dropLast where
  size_eq := by simp [pop, size, ← H.size_eq]
  cell := by
    intro i hi hle
    rw [List.length_dropLast] at hle
    have hsize : t.cells.size = counts.length := H.size_eq
    simp only [pop, Array.getElem?_pop, List.dropLast_eq_take, List.take_take]
    rw [if_pos (by omega), H.cell i hi (by omega), Nat.min_eq_left hle, Nat.min_eq_left (by omega)]

/-- `changeFrom` changes the cells whose range takes in the count, and no other. -/
theorem getElem?_changeFrom (f : Nat → Nat) (t : Tally) {i : Nat} (hi : 0 < i) (j : Nat) :
    (t.changeFrom f i).cells[j]? =
      if i ≤ j + 1 ∧ j + 1 - lowBit (j + 1) < i then (t.cells[j]?).map f else t.cells[j]? := by
  fun_induction changeFrom f t i with
  | case1 t i h ih =>
      rw [ih (by omega), Array.getElem?_modify]
      by_cases hij : i ≤ j + 1
      · have hreach := reaches_iff hi hij
        have hpos := lowBit_pos hi
        by_cases hji : i - 1 = j
        · rw [if_neg (by omega), if_pos hji, if_pos (by omega)]
        · rw [if_neg hji]
          congr 1
          ext
          omega
      · rw [if_neg (by omega), if_neg (by omega), if_neg (by omega)]
  | case2 t i h =>
      split
      · next hj => rw [Array.getElem?_eq_none (by omega), Option.map_none]
      · rfl

theorem size_changeFrom (f : Nat → Nat) (t : Tally) (i : Nat) :
    (t.changeFrom f i).size = t.size := by
  fun_induction changeFrom f t i with
  | case1 t i h ih => rw [ih]; simp [size]
  | case2 t i h => rfl

/-- A function that exchanges one count for another inside a sum, applied to the cells that
take the count in, replaces the count. -/
theorem changeFrom_spec (H : Holds t counts) {i : Nat} (hi : i < counts.length) (c : Nat)
    (f : Nat → Nat) (hf : ∀ x, counts[i] ≤ x → f x = x - counts[i] + c) :
    Holds (t.changeFrom f (i + 1)) (counts.set i c) where
  size_eq := by rw [size_changeFrom, H.size_eq, List.length_set]
  cell := by
    intro j hj hle
    rw [List.length_set] at hle
    have hfirst := sum_take_set hi c j
    have hrest := sum_take_set hi c (j - lowBit j)
    have hmono := sum_take_mono counts (Nat.sub_le j (lowBit j))
    rw [getElem?_changeFrom f t (Nat.succ_pos i), Nat.sub_add_cancel hj, H.cell j hj hle]
    by_cases hin : i + 1 ≤ j ∧ j - lowBit j < i + 1
    · rw [if_pos hin, Option.map_some]
      rw [if_pos (by omega), if_pos (by omega)] at hfirst
      rw [if_neg (by omega), if_neg (by omega)] at hrest
      have hcount := sum_take_add_getElem_le hi (show j - lowBit j ≤ i by omega) hin.1
      rw [hf _ (by omega)]
      congr 1
      omega
    · rw [if_neg hin]
      congr 1
      split at hfirst <;> split at hrest <;> omega

theorem increment_spec (H : Holds t counts) {i : Nat} (hi : i < counts.length) :
    Holds (t.increment i) (counts.set i (counts[i] + 1)) :=
  changeFrom_spec H hi _ _ fun x hx => by omega

/-- Only a count of at least one can be lowered. -/
theorem decrement_spec (H : Holds t counts) {i : Nat} (hi : i < counts.length)
    (hpos : 0 < counts[i]) : Holds (t.decrement i) (counts.set i (counts[i] - 1)) :=
  changeFrom_spec H hi _ _ fun x hx => by omega

theorem set_spec (H : Holds t counts) {i : Nat} (hi : i < counts.length) (c : Nat) :
    Holds (t.set i c) (counts.set i c) := by
  rw [set, get_spec H hi]
  exact changeFrom_spec H hi _ _ fun x hx => rfl

theorem ofList_spec (counts : List Nat) : Holds (ofList counts) counts := by
  have h : ∀ {t given}, Holds t given → Holds (counts.foldl push t) (given ++ counts) := by
    induction counts with
    | nil => intro t given H; simpa using H
    | cons c counts ih =>
        intro t given H
        simpa using ih (push_spec H c)
  simpa [ofList] using h holds_empty

/-! ### Search -/

/-- The search keeps the sum of the counts it has passed, and never passes the position. -/
theorem descend_spec (H : Holds t counts) (e pos k : Nat) (hpos : pos ≤ counts.length)
    (hdvd : 2 ^ e ∣ pos)
    (hk : (counts.take pos).sum + k < (counts.take (pos + 2 ^ e)).sum) :
    ∃ i off, t.descend e pos k = (i, off) ∧
      (counts.take i).sum + off = (counts.take pos).sum + k ∧
      (counts.take i).sum + off < (counts.take (i + 1)).sum := by
  induction e generalizing pos k with
  | zero => exact ⟨pos, k, rfl, rfl, hk⟩
  | succ e ih =>
      have hcell : lowBit (pos + 2 ^ e) = 2 ^ e := by
        obtain ⟨m, rfl⟩ := hdvd
        have : 2 ^ (e + 1) * m + 2 ^ e = 2 ^ e * (2 * m + 1) := by
          rw [Nat.pow_succ, Nat.mul_assoc, Nat.mul_add, Nat.mul_one]
        rw [this, lowBit_two_pow_mul e _ (by omega)]
      have hstep : pos + 2 ^ (e + 1) = pos + 2 ^ e + 2 ^ e := by rw [Nat.pow_succ]; omega
      have hhalf : 2 ^ e ∣ pos := Nat.dvd_trans (Nat.pow_dvd_pow 2 (Nat.le_succ e)) hdvd
      have htwo : 0 < 2 ^ e := Nat.two_pow_pos e
      simp only [descend, Nat.one_shiftLeft]
      by_cases hnext : pos + 2 ^ e ≤ counts.length
      · have hmono := sum_take_mono counts (Nat.le_add_right pos (2 ^ e))
        rw [H.cell (pos + 2 ^ e) (by omega) hnext, hcell, Nat.add_sub_cancel]
        simp only
        split
        · next hle =>
          obtain ⟨i, off, hd, hsum, hlt⟩ := ih (pos + 2 ^ e)
            (k - ((counts.take (pos + 2 ^ e)).sum - (counts.take pos).sum)) hnext
            ((Nat.dvd_add_right hhalf).2 (Nat.dvd_refl _)) (by rw [hstep] at hk; omega)
          exact ⟨i, off, hd, by omega, hlt⟩
        · next hlt => exact ih pos k hpos hhalf (by omega)
      · have hsize : t.cells.size = counts.length := H.size_eq
        rw [Array.getElem?_eq_none (by omega)]
        simp only
        rw [List.take_of_length_le (show counts.length ≤ pos + 2 ^ (e + 1) by omega)] at hk
        refine ih pos k hpos hhalf ?_
        rw [List.take_of_length_le (show counts.length ≤ pos + 2 ^ e by omega)]
        exact hk

/-- The search finds the count in which the position lies, and the offset in it. -/
theorem locate_spec (H : Holds t counts) {k : Nat} (hk : k < counts.sum) :
    ∃ i off, t.locate k = (i, off) ∧ ∃ hi : i < counts.length,
      (counts.take i).sum + off = k ∧ off < counts[i] := by
  have hlen : counts.length ≤ 2 ^ (Nat.log2 t.size + 1) := by
    rw [H.size_eq]
    exact Nat.le_of_lt Nat.lt_log2_self
  obtain ⟨i, off, hd, hsum, hlt⟩ := descend_spec H (Nat.log2 t.size + 1) 0 k
    (Nat.zero_le _) (Nat.dvd_zero _)
    (by rw [Nat.zero_add, List.take_of_length_le hlen]; simpa using hk)
  have hi : i < counts.length := by
    rcases Nat.lt_or_ge i counts.length with h | h
    · exact h
    · rw [List.take_of_length_le h, List.take_of_length_le (by omega)] at hlt
      omega
  rw [sum_take_add_one hi] at hlt
  exact ⟨i, off, hd, hi, by simpa using hsum, by omega⟩

end Tally

end ChainScript.Chain
