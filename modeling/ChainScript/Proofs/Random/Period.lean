import Mathlib.Data.Int.ModEq
import Mathlib.NumberTheory.Multiplicity
import Mathlib.RingTheory.Int.Basic
import ChainScript.Proofs.Random.Selection

/-!
# The period of the congruential generator

The multiplier of the generator leaves the remainder one modulo four and its increment is odd, so
its state word comes back after `2 ^ 64` steps and not before.  The word that it yields determines
the state word.  So every word is yielded once in each `2 ^ 64` draws, and a selection meets a word
that it accepts as soon as it has met all the others.

## Main results

* `Source.iterate_step_lcg_eq_iff` — when the state word comes back.
* `Source.nodup_of_drawList` — no word is yielded twice within a period.
* `Source.exists_below_lcg` — every selection ends, and when.
-/

namespace ChainScript

/-- A sum of powers of a number that leaves the remainder one modulo four is as often even as the
number of its terms. -/
theorem two_pow_dvd_geomSum_iff {a : ℤ} (ha : 4 ∣ a - 1) (hne : a ≠ 1) (k n : ℕ) :
    (2 : ℤ) ^ k ∣ ∑ i ∈ Finset.range n, a ^ i ↔ (2 : ℤ) ^ k ∣ n := by
  have hodd : ¬ (2 : ℤ) ∣ a := by omega
  have hlift := Int.two_pow_sub_pow' n ha hodd
  have hfinite : FiniteMultiplicity 2 (a - 1) :=
    Int.finiteMultiplicity_iff.2 ⟨by decide, by omega⟩
  rw [one_pow, ← geom_sum_mul, emultiplicity_mul Int.prime_two, add_comm,
    hfinite.emultiplicity_eq_multiplicity] at hlift
  have hsame := ENat.add_right_injective_of_ne_top (ENat.natCast_ne_top _) hlift
  rw [pow_dvd_iff_le_emultiplicity, hsame, pow_dvd_iff_le_emultiplicity]

namespace Source

/-! ### The state word -/

theorem step_lcg (word : UInt64) :
    lcg.step word = word * 6364136223846793005 + 1442695040888963407 := rfl

/-- The state word after some steps, up to multiples of the number of words. -/
theorem iterate_step_lcg_modEq (n : Nat) (word : UInt64) :
    ((lcg.step^[n] word).toNat : ℤ) ≡
      word.toNat + (∑ i ∈ Finset.range n, 6364136223846793005 ^ i) *
        (6364136223846793004 * word.toNat + 1442695040888963407) [ZMOD 2 ^ 64] := by
  induction n with
  | zero => simp [Int.ModEq.refl]
  | succ n ih =>
      have hstep : ∀ w : UInt64, ((lcg.step w).toNat : ℤ) ≡
          w.toNat * 6364136223846793005 + 1442695040888963407 [ZMOD 2 ^ 64] := by
        intro w
        rw [step_lcg, UInt64.toNat_add, UInt64.toNat_mul, Nat.mod_add_mod]
        push_cast
        exact Int.mod_modEq _ _
      rw [Function.iterate_succ_apply']
      have hnext := (hstep (lcg.step^[n] word)).trans ((ih.mul_right _).add_right _)
      rw [geom_sum_succ]
      convert hnext using 1
      ring

/-- **The state word comes back after `2 ^ 64` steps, and not before.** -/
theorem iterate_step_lcg_eq_iff (n : Nat) (word : UInt64) :
    lcg.step^[n] word = word ↔ 2 ^ 64 ∣ n := by
  have hclosed := iterate_step_lcg_modEq n word
  have hcoprime : IsCoprime ((2 : ℤ) ^ 64)
      (6364136223846793004 * word.toNat + 1442695040888963407) := by
    refine (Int.isCoprime_two_left.2 ?_).pow_left
    exact ⟨3182068111923396502 * word.toNat + 721347520444481703, by ring⟩
  have hback : lcg.step^[n] word = word ↔
      (word.toNat : ℤ) ≡ (lcg.step^[n] word).toNat [ZMOD 2 ^ 64] := by
    have hword : ∀ w : UInt64, (w.toNat : ℤ) % 2 ^ 64 = w.toNat := fun w =>
      Int.emod_eq_of_lt (by omega) (by have := w.toNat_lt; omega)
    rw [← UInt64.toNat_inj, Int.ModEq, hword, hword, eq_comm, Nat.cast_inj]
  rw [hback]
  calc (word.toNat : ℤ) ≡ (lcg.step^[n] word).toNat [ZMOD 2 ^ 64]
      ↔ (2 : ℤ) ^ 64 ∣ (∑ i ∈ Finset.range n, 6364136223846793005 ^ i) *
          (6364136223846793004 * word.toNat + 1442695040888963407) := by
        rw [← add_sub_cancel_left (word.toNat : ℤ) (_ * _), ← Int.modEq_iff_dvd]
        exact ⟨fun h => h.trans hclosed, fun h => h.trans hclosed.symm⟩
    _ ↔ (2 : ℤ) ^ 64 ∣ ∑ i ∈ Finset.range n, 6364136223846793005 ^ i :=
        ⟨hcoprime.dvd_of_dvd_mul_right, fun h => h.mul_right _⟩
    _ ↔ (2 : ℤ) ^ 64 ∣ n := two_pow_dvd_geomSum_iff (by norm_num) (by norm_num) 64 n
    _ ↔ 2 ^ 64 ∣ n := by exact_mod_cast Iff.rfl

/-- No state word comes twice within a period. -/
theorem injOn_iterate_step_lcg (word : UInt64) :
    Set.InjOn (fun n => lcg.step^[n] word) (Set.Iio (2 ^ 64)) := by
  have hlater : ∀ {i j : Nat}, i ≤ j → j < 2 ^ 64 → lcg.step^[i] word = lcg.step^[j] word →
      i = j := by
    intro i j hle hj heq
    have hback : lcg.step^[j - i] (lcg.step^[i] word) = lcg.step^[i] word := by
      rw [← Function.iterate_add_apply, Nat.sub_add_cancel hle, heq]
    rw [iterate_step_lcg_eq_iff] at hback
    have hzero := Nat.eq_zero_of_dvd_of_lt hback (by omega)
    omega
  intro i hi j hj heq
  rcases Nat.le_total i j with hle | hle
  · exact hlater hle hj heq
  · exact (hlater hle hi heq.symm).symm

/-! ### The words -/

/-- Folding the high half of a word into it twice gives the word back. -/
theorem xor_shiftRight_involutive : Function.Involutive fun w : UInt64 => w ^^^ (w >>> 33) := by
  intro w
  rw [← UInt64.toBitVec_inj]
  simp only [UInt64.toBitVec_xor, UInt64.toBitVec_shiftRight, UInt64.toBitVec_ofNat]
  ext i hi
  have hgone : w.toBitVec.getLsbD (33 + (33 + i)) = false := BitVec.getLsbD_of_ge _ _ (by omega)
  simp [hgone]

/-- No word comes twice within a period. -/
theorem nodup_of_drawList {n : Nat} (hn : n ≤ 2 ^ 64) {c c' : Cursor} {words : List UInt64}
    (h : lcg.drawList n c = some (words, c')) : words.Nodup := by
  rw [drawList_eq] at h
  obtain ⟨rfl, -⟩ := Prod.mk.inj (Option.some.inj h)
  refine List.Nodup.map_on ?_ List.nodup_range
  intro i hi j hj heq
  have hstate : lcg.step^[i] (lcg.step c.word) = lcg.step^[j] (lcg.step c.word) := by
    have hword : ∀ k, (lcg.next (lcg.step^[k] c.word)).1 =
        lcg.step^[k] (lcg.step c.word) ^^^ (lcg.step^[k] (lcg.step c.word) >>> 33) := by
      intro k
      rw [← Function.iterate_succ_apply, Function.iterate_succ_apply']
      rfl
    rw [hword, hword] at heq
    exact xor_shiftRight_involutive.injective heq
  exact injOn_iterate_step_lcg _ (Set.mem_Iio.2 (by have := List.mem_range.1 hi; omega))
    (Set.mem_Iio.2 (by have := List.mem_range.1 hj; omega)) hstate

/-- Every word comes in a period. -/
theorem mem_of_drawList {c c' : Cursor} {words : List UInt64}
    (h : lcg.drawList (2 ^ 64) c = some (words, c')) (word : UInt64) : word ∈ words := by
  have hnodup : (words.map UInt64.toNat).Nodup :=
    (nodup_of_drawList le_rfl h).map fun _ _ => UInt64.toNat_inj.1
  have hlength : (words.map UInt64.toNat).toFinset.card = 2 ^ 64 := by
    rw [List.toFinset_card_of_nodup hnodup, List.length_map, length_of_drawList h]
  have hsubset : (words.map UInt64.toNat).toFinset ⊆ Finset.range (2 ^ 64) := by
    intro n hn
    obtain ⟨w, -, rfl⟩ := List.mem_map.1 (List.mem_toFinset.1 hn)
    exact Finset.mem_range.2 w.toNat_lt
  have hall := Finset.eq_of_subset_of_card_le hsubset (by rw [Finset.card_range, hlength])
  have hmem : word.toNat ∈ (words.map UInt64.toNat).toFinset := by
    rw [hall]
    exact Finset.mem_range.2 word.toNat_lt
  obtain ⟨w, hw, heq⟩ := List.mem_map.1 (List.mem_toFinset.1 hmem)
  exact UInt64.toNat_inj.1 heq ▸ hw

/-! ### Selections -/

/-- **Every selection from the generator ends**, at the latest when it has met every word that it
rejects. -/
theorem exists_below_lcg {n : Nat} (hn : n < 2 ^ 64) (c : Cursor) :
    ∃ i c', lcg.below n c = some (i, c') ∧ c'.draws ≤ c.draws + (maxWord % n + 2) := by
  rw [below]
  split
  · exact ⟨0, c, rfl, Nat.le_add_right _ _⟩
  · next htwo =>
    have hmod : maxWord % n < n := Nat.mod_lt _ (by omega)
    obtain ⟨words, c₁, hdraws⟩ : ∃ words c₁, lcg.drawList (maxWord % n + 2) c = some (words, c₁) :=
      ⟨_, _, lcg.drawList_eq _ _⟩
    have hlength := length_of_drawList hdraws
    exact exists_belowWithin_of_drawList (by rw [UInt64.size]; omega) hdraws
      (exists_accept (nodup_of_drawList (by omega) hdraws) (by omega))

end Source

end ChainScript
