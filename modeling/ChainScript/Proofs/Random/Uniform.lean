import Mathlib.Data.Int.CardIntervalMod
import Mathlib.Data.Set.Card
import ChainScript.Proofs.Random.Selection

/-!
# Uniform selections

A selection below `n` cuts the words into blocks of `n`, one after another, and rejects the words
behind the last whole block of the greatest word, so each index is selected by one word of each
block.  The bound on the draws of a selection takes nothing away: a state word repeats before it
is reached, so a selection that rejects a word goes on as one that begins with the next word.

## Main definitions

* `Source.upcoming`, `Source.drawn` — the word that the next draw yields, and the cursor after it.
* `Fair` — a computation that begins with a uniform choice.

## Main results

* `Source.ncard_accept?` — how many words select an index.
* `Source.belowWithin_size_eq_none_iff` — the bound on the draws cuts no selection short.
* `Source.below_of_rejected` — a rejected word is passed over.
* `fair_below`, `Fair.bind` — a selection is fair, and so is what goes on from one.
-/

namespace ChainScript

namespace Source

/-! ### The words that select an index -/

/-- The words below the zone are whole blocks. -/
theorem zone_eq (n : Nat) : zone n = n * (maxWord / n) := by
  have := Nat.div_add_mod maxWord n
  rw [zone]
  omega

theorem accept?_eq_some_iff {n i : Nat} {word : UInt64} :
    accept? n word = some i ↔ word.toNat < zone n ∧ word.toNat % n = i := by
  rw [accept?]
  split
  · next hzone => simp [hzone]
  · next hzone => simp [hzone]

/-- **Equally many words select each index**: one of each whole block. -/
theorem ncard_accept? {n i : Nat} (hi : i < n) :
    {word : UInt64 | accept? n word = some i}.ncard = maxWord / n := by
  have hword : ∀ m, m < zone n → m < 2 ^ 64 := by
    intro m hm
    exact Nat.lt_of_lt_of_le hm ((Nat.sub_le _ _).trans (by decide))
  have himage : UInt64.toNat '' {word : UInt64 | accept? n word = some i} =
      ((Finset.range (zone n)).filter (· ≡ i [MOD n]) : Finset Nat) := by
    ext m
    simp only [Set.mem_image, Set.mem_ofPred_eq, accept?_eq_some_iff, Finset.coe_filter,
      Finset.mem_range, Nat.ModEq, Nat.mod_eq_of_lt hi]
    constructor
    · rintro ⟨word, hselects, rfl⟩
      exact hselects
    · intro hselects
      have htoNat := UInt64.toNat_ofNat_of_lt' (hword m hselects.1)
      exact ⟨UInt64.ofNat m, by rwa [htoNat], htoNat⟩
  have hpos : 0 < n := Nat.zero_lt_of_lt hi
  rw [← Set.ncard_image_of_injective _ fun _ _ => UInt64.toNat_inj.1, himage, Set.ncard_coe_finset,
    ← Nat.count_eq_card_filter_range, Nat.count_modEq_card _ hpos, zone_eq]
  simp [hpos]

/-! ### Selections that reject a word -/

variable (source : Source)

/-- The word that the next draw yields. -/
def upcoming (c : Cursor) : UInt64 := (source.next c.word).1

/-- The cursor after the next draw. -/
def drawn (c : Cursor) : Cursor := ⟨source.step c.word, c.draws + 1⟩

theorem upcoming_iterate (k : Nat) (c : Cursor) :
    source.upcoming (source.drawn^[k] c) = (source.next (source.step^[k] c.word)).1 := by
  induction k generalizing c with
  | zero => rfl
  | succ k ih => rw [Function.iterate_succ_apply, ih]; rfl

variable {source} {n i limit : Nat} {c : Cursor}

theorem belowWithin_of_accepted (h : accept? n (source.upcoming c) = some i) :
    source.belowWithin n (limit + 1) c = some (i, source.drawn c) := by
  rw [upcoming] at h
  rw [belowWithin_succ, h]
  rfl

theorem belowWithin_of_rejected (h : accept? n (source.upcoming c) = none) :
    source.belowWithin n (limit + 1) c = source.belowWithin n limit (source.drawn c) := by
  rw [upcoming] at h
  rw [belowWithin_succ, h]
  rfl

theorem belowWithin_eq_none_iff : source.belowWithin n limit c = none ↔
    ∀ k < limit, accept? n (source.upcoming (source.drawn^[k] c)) = none := by
  induction limit generalizing c with
  | zero => exact ⟨fun _ _ hk => absurd hk (Nat.not_lt_zero _), fun _ => rfl⟩
  | succ limit ih =>
      cases haccept : accept? n (source.upcoming c) with
      | some i =>
          rw [belowWithin_of_accepted haccept]
          constructor
          · intro h
            cases h
          · intro hall
            have hfirst := hall 0 (Nat.zero_lt_succ limit)
            rw [Function.iterate_zero_apply, haccept] at hfirst
            cases hfirst
      | none =>
          rw [belowWithin_of_rejected haccept, ih]
          constructor
          · intro hall k hk
            cases k with
            | zero => exact haccept
            | succ k => exact hall k (Nat.lt_of_succ_lt_succ hk)
          · intro hall k hk
            exact hall (k + 1) (Nat.succ_lt_succ hk)

/-- A greater bound does not change what is selected. -/
theorem belowWithin_add_one {r : Nat × Cursor} (h : source.belowWithin n limit c = some r) :
    source.belowWithin n (limit + 1) c = some r := by
  induction limit generalizing c with
  | zero => cases h
  | succ limit ih =>
      cases haccept : accept? n (source.upcoming c) with
      | some i =>
          rw [belowWithin_of_accepted haccept] at h ⊢
          exact h
      | none =>
          rw [belowWithin_of_rejected haccept] at h ⊢
          exact ih h

/-- Every state word that comes up comes up among the first `2 ^ 64`. -/
theorem exists_iterate_eq (f : UInt64 → UInt64) (word : UInt64) (m : Nat) :
    ∃ k < UInt64.size, f^[k] word = f^[m] word := by
  induction m using Nat.strongRecOn with
  | ind m ih =>
      by_cases hm : m < UInt64.size
      · exact ⟨m, hm, rfl⟩
      · have hmaps : ∀ k ∈ Finset.range (UInt64.size + 1),
            (f^[k] word).toNat ∈ Finset.range UInt64.size :=
          fun k _ => Finset.mem_range.2 (UInt64.toNat_lt _)
        obtain ⟨i, hi, j, hj, hij, heq⟩ :=
          Finset.exists_ne_map_eq_of_card_lt_of_maps_to (by simp) hmaps
        wlog hlt : i < j generalizing i j
        · exact this j hj i hi hij.symm heq.symm (by omega)
        have hj := Finset.mem_range.1 hj
        -- The `j`-th word is the `i`-th again, so `m` falls back by `j - i`.
        have hback : f^[m - j + i] word = f^[m] word := by
          rw [Function.iterate_add_apply, UInt64.toNat_inj.1 heq, ← Function.iterate_add_apply,
            Nat.sub_add_cancel (by omega)]
        obtain ⟨k, hk, hkm⟩ := ih (m - j + i) (by omega)
        exact ⟨k, hk, hkm.trans hback⟩

/-- **A selection that has not ended after `2 ^ 64` draws never ends.** -/
theorem belowWithin_size_eq_none_iff : source.belowWithin n UInt64.size c = none ↔
    ∀ k, accept? n (source.upcoming (source.drawn^[k] c)) = none := by
  rw [belowWithin_eq_none_iff]
  constructor
  · intro hall k
    obtain ⟨m, hm, hstep⟩ := exists_iterate_eq source.step c.word k
    rw [upcoming_iterate, ← hstep, ← upcoming_iterate]
    exact hall m hm
  · exact fun hall k _ => hall k

theorem below_of_accepted (hn : 2 ≤ n) (h : accept? n (source.upcoming c) = some i) :
    source.below n c = some (i, source.drawn c) := by
  rw [below, if_neg (by omega)]
  exact belowWithin_of_accepted h

/-- **A rejected word is passed over.** -/
theorem below_of_rejected (hn : 2 ≤ n) (h : accept? n (source.upcoming c) = none) :
    source.below n c = source.below n (source.drawn c) := by
  obtain ⟨limit, hsize⟩ : ∃ limit, UInt64.size = limit + 1 := ⟨UInt64.size - 1, rfl⟩
  have hpassed : source.belowWithin n UInt64.size c =
      source.belowWithin n limit (source.drawn c) := by
    rw [hsize, belowWithin_of_rejected h]
  rw [below, if_neg (by omega)]
  cases hrest : source.belowWithin n limit (source.drawn c) with
  | some r =>
      rw [hpassed, hrest, hsize]
      exact (belowWithin_add_one hrest).symm
  | none =>
      have hnever := belowWithin_size_eq_none_iff.1 (hpassed.trans hrest)
      rw [hpassed, hrest]
      exact (belowWithin_size_eq_none_iff.2 fun k => hnever (k + 1)).symm

end Source

/-! ### Fair computations -/

/-- The computation begins with a uniform choice below `n` and goes on along the chosen way.
Each way is chosen by `(2 ^ 64 - 1) / n` of the words that the first draw can yield; with any
other word the computation is as if it began at the next one. -/
structure Fair {α : Type} (n : Nat) (d : Source → Draw α) (way : Fin n → Source → Draw α) :
    Prop where
  ncard_eq : ∀ i : Fin n,
    {word : UInt64 | Source.accept? n word = some i.val}.ncard = (2 ^ 64 - 1) / n
  accepted : ∀ (source : Source) (c : Cursor) (i : Fin n),
    Source.accept? n (source.upcoming c) = some i.val → d source c = way i source (source.drawn c)
  rejected : ∀ (source : Source) (c : Cursor),
    (∀ i : Fin n, Source.accept? n (source.upcoming c) ≠ some i.val) →
      d source c = d source (source.drawn c)

section Fair

variable {α β : Type} {n : Nat}

/-- A selection below two or more is fair. -/
theorem fair_below (hn : 2 ≤ n) :
    Fair n (fun source => source.below n) fun i _ => pure i.val where
  ncard_eq i := Source.ncard_accept? i.isLt
  accepted _ _ _ h := Source.below_of_accepted hn h
  rejected := by
    intro source c hnone
    refine Source.below_of_rejected hn ?_
    cases haccept : Source.accept? n (source.upcoming c) with
    | none => rfl
    | some i => exact absurd haccept (hnone ⟨i, Source.lt_of_accept? (by omega) haccept⟩)

variable {d : Source → Draw α} {way : Fin n → Source → Draw α}

theorem Fair.bind (F : Fair n d way) (next : Source → α → Draw β) :
    Fair n (fun source => d source >>= next source)
      fun i source => way i source >>= next source where
  ncard_eq := F.ncard_eq
  accepted := by
    intro source c i h
    change (d source c).bind _ = (way i source (source.drawn c)).bind _
    rw [F.accepted source c i h]
  rejected := by
    intro source c hnone
    change (d source c).bind _ = (d source (source.drawn c)).bind _
    rw [F.rejected source c hnone]

/-- Ways that run alike may stand for each other. -/
theorem Fair.congr {way' : Fin n → Source → Draw α} (F : Fair n d way)
    (h : ∀ i source, way i source = way' i source) : Fair n d way' := by
  obtain rfl : way = way' := funext fun i => funext (h i)
  exact F

end Fair

end ChainScript
