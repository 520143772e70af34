import Mathlib.Data.Finset.Card
import Mathlib.Order.Interval.Finset.Nat
import ChainScript.Random

/-!
# Selections

A selection draws words until it accepts one.  It rejects fewer words than its bound, so among
different words that are more than those it accepts one.

## Main definitions

* `Source.drawList` — the words of some draws in a row.

## Main results

* `Source.below_lt` — a selected index is below the bound.
* `Source.exists_belowWithin_of_drawList` — a selection ends at the first word that it accepts.
* `Source.exists_accept` — different words are not all rejected.
-/

namespace ChainScript

namespace Source

/-! ### Draws in a row -/

section DrawList

variable (source : Source)

/-- The state word after a draw. -/
def step (word : UInt64) : UInt64 := (source.next word).2

/-- The words of the next `n` draws. -/
def drawList : (n : Nat) → Draw (List UInt64)
  | 0 => pure []
  | n + 1 => do
      let word ← source.draw
      let words ← drawList n
      return word :: words

theorem drawList_succ (n : Nat) (c : Cursor) :
    source.drawList (n + 1) c =
      (source.drawList n ⟨source.step c.word, c.draws + 1⟩).map fun r =>
        ((source.next c.word).1 :: r.1, r.2) := by
  rw [Option.map_eq_bind]
  rfl

theorem drawList_eq (n : Nat) (c : Cursor) :
    source.drawList n c =
      some ((List.range n).map fun i => (source.next (source.step^[i] c.word)).1,
        ⟨source.step^[n] c.word, c.draws + n⟩) := by
  induction n generalizing c with
  | zero => rfl
  | succ n ih =>
      rw [drawList_succ, ih, List.range_succ_eq_map, List.map_cons, List.map_map, Option.map_some,
        Nat.add_assoc, Nat.add_comm 1 n]
      rfl

end DrawList

variable {source : Source} {n i : Nat} {c c' : Cursor}

theorem length_of_drawList {words : List UInt64} (h : source.drawList n c = some (words, c')) :
    words.length = n := by
  rw [drawList_eq] at h
  obtain ⟨rfl, -⟩ := Prod.mk.inj (Option.some.inj h)
  rw [List.length_map, List.length_range]

/-! ### Selections -/

theorem belowWithin_succ (source : Source) (n limit : Nat) (c : Cursor) :
    source.belowWithin n (limit + 1) c =
      match accept? n (source.next c.word).1 with
      | some i => some (i, ⟨source.step c.word, c.draws + 1⟩)
      | none => source.belowWithin n limit ⟨source.step c.word, c.draws + 1⟩ := by
  cases haccept : accept? n (source.next c.word).1 with
  | some i =>
      simp only [belowWithin, draw, bind, StateT.bind, Option.bind, haccept]
      rfl
  | none =>
      simp only [belowWithin, draw, bind, StateT.bind, Option.bind, haccept]
      rfl

theorem lt_of_accept? {word : UInt64} (hn : 0 < n) (h : accept? n word = some i) : i < n := by
  rw [accept?] at h
  split at h
  · obtain rfl := Option.some.inj h
    exact Nat.mod_lt _ hn
  · cases h

theorem belowWithin_lt {limit : Nat} (hn : 0 < n)
    (h : source.belowWithin n limit c = some (i, c')) : i < n := by
  induction limit generalizing c with
  | zero => cases h
  | succ limit ih =>
      rw [belowWithin_succ] at h
      split at h
      · next j haccept =>
        obtain ⟨rfl, -⟩ := Prod.mk.inj (Option.some.inj h)
        exact lt_of_accept? hn haccept
      · exact ih h

/-- A selected index is below the bound. -/
theorem below_lt (hn : 0 < n) (h : source.below n c = some (i, c')) : i < n := by
  rw [below] at h
  split at h
  · obtain ⟨rfl, -⟩ : 0 = i ∧ c = c' := by
      simpa using (Option.some.inj h : (0, c) = (i, c'))
    exact hn
  · exact belowWithin_lt hn h

/-- A selection ends at the first word that it accepts. -/
theorem exists_belowWithin_of_drawList {limit draws : Nat} {words : List UInt64}
    (hlimit : draws ≤ limit) (h : source.drawList draws c = some (words, c'))
    (hwords : ∃ w ∈ words, (accept? n w).isSome) :
    ∃ i c₁, source.belowWithin n limit c = some (i, c₁) ∧ c₁.draws ≤ c.draws + draws := by
  induction draws generalizing limit c c' words with
  | zero =>
      obtain ⟨rfl, -⟩ := Prod.mk.inj (Option.some.inj h)
      obtain ⟨w, hw, -⟩ := hwords
      cases hw
  | succ draws ih =>
      obtain ⟨limit, rfl⟩ : ∃ k, limit = k + 1 := ⟨limit - 1, by omega⟩
      rw [drawList_succ] at h
      obtain ⟨⟨rest, c₂⟩, hrest, heq⟩ := Option.map_eq_some_iff.1 h
      obtain ⟨rfl, -⟩ := Prod.mk.inj heq
      rw [belowWithin_succ]
      cases haccept : accept? n (source.next c.word).1 with
      | some i => exact ⟨i, _, rfl, by simp⟩
      | none =>
          obtain ⟨w, hw, hsome⟩ := hwords
          have hrejected : w ≠ (source.next c.word).1 := by
            rintro rfl
            rw [haccept] at hsome
            cases hsome
          have hw := (List.mem_cons.1 hw).resolve_left hrejected
          obtain ⟨i, c₁, hbelow, hdraws⟩ :=
            ih (Nat.le_of_succ_le_succ hlimit) hrest ⟨w, hw, hsome⟩
          exact ⟨i, c₁, hbelow, hdraws.trans (by simp only; omega)⟩

/-- Different words are not all rejected where they are more than the rejected ones. -/
theorem exists_accept {words : List UInt64} (hnodup : words.Nodup)
    (hmany : maxWord % n + 1 < words.length) : ∃ w ∈ words, (accept? n w).isSome := by
  by_contra hnone
  have hrejected : (words.map UInt64.toNat).toFinset ⊆ Finset.Icc (zone n) maxWord := by
    intro m hm
    obtain ⟨w, hw, rfl⟩ := List.mem_map.1 (List.mem_toFinset.1 hm)
    have hlt : w.toNat ≤ maxWord := Nat.le_sub_one_of_lt w.toNat_lt
    refine Finset.mem_Icc.2 ⟨?_, hlt⟩
    by_contra hzone
    refine hnone ⟨w, hw, ?_⟩
    rw [accept?, if_pos (by omega)]
    rfl
  have hcard := Finset.card_le_card hrejected
  rw [List.toFinset_card_of_nodup (hnodup.map fun _ _ => UInt64.toNat_inj.1), List.length_map,
    Nat.card_Icc, zone] at hcard
  have hmod : maxWord % n ≤ maxWord := Nat.mod_le _ _
  omega

end Source

end ChainScript
