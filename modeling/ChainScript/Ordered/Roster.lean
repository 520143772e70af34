import Std.Data.HashMap

/-!
# Rosters

A roster is a set of keys in the order in which they were added, with a hash index from each
key to its position.  Keys are compared by their `BEq` instance, so two spellings that it
equates are one member and the first of them is kept.  Removal moves the last member into the
gap.

The index and the members are tied by one invariant, `index_iff`: the index sends a key to
position `i` exactly when the member at `i` equals the key.  Two equal members would need two
positions for one key, so members are pairwise different (`eq_of_beq_members`).

## Main definitions

* `Roster` — the members and their index.
* `Roster.position?`, `Roster.insert`, `Roster.swapRemoveAt`, `Roster.swapRemove`,
  `Roster.filter` — the operations.
-/

namespace ChainScript

/-- An insertion-ordered set of keys. -/
structure Roster (K : Type) [BEq K] [Hashable K] where
  /-- The keys, in order. -/
  members : Array K
  /-- Where each key stands. -/
  index : Std.HashMap K Nat
  /-- The index sends a key to the position of the member that equals it. -/
  index_iff : ∀ (k : K) (i : Nat),
    index[k]? = some i ↔ ∃ m : K, members[i]? = some m ∧ (m == k) = true

namespace Roster

variable {K : Type} [BEq K] [Hashable K]

/-- The roster without members. -/
def empty : Roster K where
  members := #[]
  index := {}
  index_iff := by simp

/-- How many members there are. -/
def size (r : Roster K) : Nat := r.members.size

/-- Where the key stands. -/
def position? (r : Roster K) (k : K) : Option Nat := r.index[k]?

/-- The key is a member. -/
def contains (r : Roster K) (k : K) : Bool := (r.position? k).isSome

/-- The member that equals the key, as it was first spelled. -/
def find? (r : Roster K) (k : K) : Option K := (r.position? k).bind fun i => r.members[i]?

theorem position?_eq_some_iff {r : Roster K} {k : K} {i : Nat} :
    r.position? k = some i ↔ ∃ m, r.members[i]? = some m ∧ (m == k) = true :=
  r.index_iff k i

/-- Equal members stand at one position. -/
theorem eq_of_beq_members {r : Roster K} [ReflBEq K] {i j : Nat} {a b : K}
    (ha : r.members[i]? = some a) (hb : r.members[j]? = some b) (hab : (a == b) = true) :
    i = j := by
  have h₁ : r.index[b]? = some i := (r.index_iff b i).2 ⟨a, ha, hab⟩
  have h₂ : r.index[b]? = some j := (r.index_iff b j).2 ⟨b, hb, BEq.rfl⟩
  exact Option.some.inj (h₁.symm.trans h₂)

variable [EquivBEq K] [LawfulHashable K]

/-- Adds a key that is no member yet at the end. -/
def push (r : Roster K) (k : K) (h : r.position? k = none) : Roster K where
  members := r.members.push k
  index := r.index.insert k r.members.size
  index_iff := by
    intro k' i
    rw [Std.HashMap.getElem?_insert, Array.getElem?_push]
    by_cases hk : (k == k') = true
    · simp only [hk, if_true, Option.some.injEq]
      constructor
      · rintro rfl
        exact ⟨k, by simp, hk⟩
      · rintro ⟨m, hm, hmk⟩
        split at hm
        · next hi => exact hi.symm
        · have hpos := (r.index_iff k i).2 ⟨m, hm, BEq.trans hmk (BEq.symm hk)⟩
          have hnone : r.index[k]? = none := h
          simp [hnone] at hpos
    · simp only [hk]
      rw [if_neg (by simp), r.index_iff]
      constructor
      · rintro ⟨m, hm, hmk⟩
        refine ⟨m, ?_, hmk⟩
        rw [if_neg, hm]
        rintro rfl
        simp at hm
      · rintro ⟨m, hm, hmk⟩
        split at hm
        · exact absurd (Option.some.inj hm ▸ hmk) hk
        · exact ⟨m, hm, hmk⟩

/-- Adds a key at the end unless it is a member. -/
def insert (r : Roster K) (k : K) : Roster K :=
  match h : r.position? k with
  | some _ => r
  | none => r.push k h

/-- Takes the last member away. -/
def pop (r : Roster K) : Roster K :=
  match hl : r.members.back? with
  | none => r
  | some l =>
      { members := r.members.pop
        index := r.index.erase l
        index_iff := by
          intro k i
          have hlast : r.members[r.members.size - 1]? = some l := by
            rw [← hl, Array.back?]
          rw [Std.HashMap.getElem?_erase, Array.getElem?_pop]
          by_cases hk : (l == k) = true
          · simp only [hk, if_true]
            constructor
            · intro h
              cases h
            · rintro ⟨m, hm, hmk⟩
              split at hm
              · next hi =>
                have := eq_of_beq_members hm hlast (BEq.trans hmk (BEq.symm hk))
                omega
              · cases hm
          · rw [if_neg hk, r.index_iff]
            constructor
            · rintro ⟨m, hm, hmk⟩
              refine ⟨m, ?_, hmk⟩
              rw [if_pos, hm]
              have hi : i < r.members.size := (Array.getElem?_eq_some_iff.1 hm).1
              rcases Nat.lt_or_ge i (r.members.size - 1) with h | h
              · exact h
              · have hie : i = r.members.size - 1 := by omega
                subst hie
                rw [hlast] at hm
                exact absurd (Option.some.inj hm ▸ hmk) hk
            · rintro ⟨m, hm, hmk⟩
              split at hm
              · exact ⟨m, hm, hmk⟩
              · cases hm }

/-- Puts `k`, which is no member, in the place of the member at position `i`. -/
def replaceAt (r : Roster K) (i : Nat) (hi : i < r.members.size) (k : K)
    (h : r.position? k = none) : Roster K where
  members := r.members.set i k hi
  index := (r.index.erase r.members[i]).insert k i
  index_iff := by
    have hold : r.members[i]? = some r.members[i] := Array.getElem?_eq_getElem hi
    intro k' j
    rw [Std.HashMap.getElem?_insert, Std.HashMap.getElem?_erase, Array.getElem?_set]
    by_cases hk : (k == k') = true
    · simp only [hk, if_true, Option.some.injEq]
      constructor
      · rintro rfl
        exact ⟨k, by simp, hk⟩
      · rintro ⟨m, hm, hmk⟩
        split at hm
        · assumption
        · have hpos := (r.index_iff k j).2 ⟨m, hm, BEq.trans hmk (BEq.symm hk)⟩
          have hnone : r.index[k]? = none := h
          simp [hnone] at hpos
    · rw [if_neg hk]
      by_cases ho : (r.members[i] == k') = true
      · rw [if_pos ho]
        constructor
        · intro h
          cases h
        · rintro ⟨m, hm, hmk⟩
          split at hm
          · exact absurd (Option.some.inj hm ▸ hmk) hk
          · next hij =>
            exact absurd (eq_of_beq_members hold hm (BEq.trans ho (BEq.symm hmk))) hij
      · rw [if_neg ho, r.index_iff]
        constructor
        · rintro ⟨m, hm, hmk⟩
          refine ⟨m, ?_, hmk⟩
          rw [if_neg, hm]
          rintro rfl
          rw [hold] at hm
          exact absurd (Option.some.inj hm ▸ hmk) ho
        · rintro ⟨m, hm, hmk⟩
          split at hm
          · exact absurd (Option.some.inj hm ▸ hmk) hk
          · exact ⟨m, hm, hmk⟩

/-- The last member is gone once it is taken away. -/
theorem position?_pop {r : Roster K} {l : K} (hl : r.members.back? = some l) :
    r.pop.position? l = none := by
  rw [position?, pop]
  split
  · next h => rw [hl] at h; cases h
  · next l' h =>
    have : l' = l := by rw [hl] at h; exact (Option.some.inj h).symm
    subst this
    simp

theorem members_pop (r : Roster K) : r.pop.members = r.members.pop := by
  rw [pop]
  split
  · next h =>
    have : r.members = #[] := by simpa using h
    simp [this]
  · rfl

/-- Removes the member at position `i`; the last member moves into its place. -/
def swapRemoveAt (r : Roster K) (i : Nat) : Roster K :=
  match hl : r.members.back? with
  | none => r
  | some l =>
      if hi : i < r.pop.members.size then
        r.pop.replaceAt i hi l (position?_pop hl)
      else if i = r.pop.members.size then r.pop
      else r

/-- Removes the key, if it is a member; the last member moves into its place. -/
def swapRemove (r : Roster K) (k : K) : Roster K :=
  match r.position? k with
  | some i => r.swapRemoveAt i
  | none => r

/-- The roster of the given keys: of equal ones the first is kept. -/
def ofList (ks : List K) : Roster K := ks.foldl insert empty

/-- The members that satisfy `p`, in order. -/
def filter (p : K → Bool) (r : Roster K) : Roster K := ofList (r.members.toList.filter p)

end Roster

end ChainScript
