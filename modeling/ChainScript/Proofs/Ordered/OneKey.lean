import ChainScript.Proofs.Ordered.Entries

/-!
# Two keys that are one

Keys that are equal but not the same have one place in every roster and every table.  Whichever
of them comes first is the one that is kept, and from then on they do the same: both are found
where it stands, a value is given to both at once, and both go together.

Only this is said of a pair of keys that are equal, whatever they are; which keys of a chain are
equal is another matter.

## Main definitions

* `OneKey` — no roster and no table tells the keys apart.

## Main results

* `oneKey_iff_beq` — the keys that nothing tells apart are those that are equal.
-/

namespace ChainScript

variable {K V : Type} [BEq K] [Hashable K] {k l : K}

/-! ### Look-ups -/

theorem Roster.position?_eq_of_beq [PartialEquivBEq K] (r : Roster K) (h : (k == l) = true) :
    r.position? k = r.position? l := by
  ext i
  rw [position?_eq_some_iff, position?_eq_some_iff]
  simp only [BEq.congr_right h]

/-- Both keys have a place, and it is the same, or neither has one. -/
theorem Roster.position?_cases [PartialEquivBEq K] (r : Roster K) (h : (k == l) = true) :
    (∃ i, r.position? k = some i ∧ r.position? l = some i) ∨
      r.position? k = none ∧ r.position? l = none := by
  rw [r.position?_eq_of_beq h]
  cases r.position? l with
  | none => exact .inr ⟨rfl, rfl⟩
  | some i => exact .inl ⟨i, rfl, rfl⟩

theorem Table.position?_cases [PartialEquivBEq K] (t : Table K V) (h : (k == l) = true) :
    (∃ i, t.position? k = some i ∧ t.position? l = some i) ∨
      t.position? k = none ∧ t.position? l = none :=
  t.keys.position?_cases h

/-! ### Changes in place -/

theorem Table.position?_modifyAt (t : Table K V) (i : Nat) (f : V → V) (m : K) :
    (t.modifyAt i f).position? m = t.position? m := rfl

theorem Table.modifyAt_modifyAt (t : Table K V) (i : Nat) (f g : V → V) :
    (t.modifyAt i f).modifyAt i g = t.modifyAt i (g ∘ f) := by
  have hvalues : (t.values.modify i f).modify i g = t.values.modify i (g ∘ f) := by
    apply Array.ext_getElem?
    intro j
    rw [Array.getElem?_modify, Array.getElem?_modify, Array.getElem?_modify]
    split
    · rw [Option.map_map]
    · rfl
  simp only [modifyAt, hvalues]

variable [EquivBEq K] [LawfulHashable K]

/-! ### Additions -/

theorem Roster.position?_push {r : Roster K} (hk : r.position? k = none) (m : K) :
    (r.push k hk).position? m = if k == m then some r.size else r.position? m := by
  rw [position?, push, Std.HashMap.getElem?_insert]
  rfl

/-- A key that has been added has a place. -/
theorem Roster.isSome_position?_insert (r : Roster K) (k : K) :
    ((r.insert k).position? k).isSome = true := by
  cases hk : r.position? k with
  | some i => rw [insert_of_some hk, hk]; rfl
  | none => rw [insert_of_none hk, position?_push, BEq.rfl]; rfl

theorem Table.position?_push {t : Table K V} {v : V} (hk : t.position? k = none) (m : K) :
    (t.push k v hk).position? m = if k == m then some t.size else t.position? m := by
  rw [position?, push, Roster.position?_push hk, Table.size, t.size_eq]
  rfl

theorem Table.modifyAt_push {t : Table K V} {v : V} (hk : t.position? k = none) (g : V → V) :
    (t.push k v hk).modifyAt t.size g = t.push k (g v) hk := by
  have hvalues : (t.values.push v).modify t.values.size g = t.values.push (g v) := by
    apply Array.ext_getElem?
    intro j
    rw [Array.getElem?_modify, Array.getElem?_push, Array.getElem?_push]
    split
    · next heq => rw [if_pos heq.symm, if_pos heq.symm]; rfl
    · next hne => rw [if_neg (Ne.symm hne), if_neg (Ne.symm hne)]
  simp only [modifyAt, push, size, hvalues]

/-! ### One key -/

/-- No roster and no table tells the keys apart. -/
structure OneKey (k l : K) : Prop where
  hash_eq : hash k = hash l
  /-- The keys have one place in a roster, and with it one spelling that is kept. -/
  position?_eq (r : Roster K) : r.position? k = r.position? l
  find?_eq (r : Roster K) : r.find? k = r.find? l
  swapRemove_eq (r : Roster K) : r.swapRemove k = r.swapRemove l
  /-- Whichever is added, the same keys are members, at the same positions. -/
  position?_insert (r : Roster K) (m : K) : (r.insert k).position? m = (r.insert l).position? m
  /-- The second to be added is a member already. -/
  insert_insert (r : Roster K) : (r.insert k).insert l = r.insert k
  /-- The keys have one value in a table. -/
  value_eq {V : Type} (t : Table K V) : t.find? k = t.find? l
  /-- Whichever is updated, the same values come about, at the same positions. -/
  values_update {V : Type} (t : Table K V) (fresh : V) (f : V → V) :
    (t.update k fresh f).values = (t.update l fresh f).values
  position?_update {V : Type} (t : Table K V) (fresh : V) (f : V → V) (m : K) :
    (t.update k fresh f).position? m = (t.update l fresh f).position? m
  /-- An update of the second changes what the update of the first has made. -/
  update_update {V : Type} (t : Table K V) (fresh fresh' : V) (f g : V → V) :
    (t.update k fresh f).update l fresh' g = t.update k fresh (g ∘ f)

theorem oneKey_of_beq (h : (k == l) = true) : OneKey k l where
  hash_eq := hash_eq h
  position?_eq r := r.position?_eq_of_beq h
  find?_eq r := by rw [Roster.find?, Roster.find?, r.position?_eq_of_beq h]
  swapRemove_eq r := by rw [Roster.swapRemove, Roster.swapRemove, r.position?_eq_of_beq h]
  position?_insert r m := by
    obtain ⟨i, hk, hl⟩ | ⟨hk, hl⟩ := r.position?_cases h
    · rw [Roster.insert_of_some hk, Roster.insert_of_some hl]
    · rw [Roster.insert_of_none hk, Roster.insert_of_none hl, Roster.position?_push,
        Roster.position?_push, BEq.congr_left h]
  insert_insert r := by
    have hsome := r.isSome_position?_insert k
    rw [(r.insert k).position?_eq_of_beq h] at hsome
    obtain ⟨i, hi⟩ := Option.isSome_iff_exists.1 hsome
    exact Roster.insert_of_some hi
  value_eq t := by
    rw [Table.find?, Table.find?, Table.position?, Table.position?, t.keys.position?_eq_of_beq h]
  values_update t fresh f := by
    obtain ⟨i, hk, hl⟩ | ⟨hk, hl⟩ := t.position?_cases h
    · rw [Table.update_of_some hk, Table.update_of_some hl]
    · rw [Table.update_of_none hk, Table.update_of_none hl, Table.push, Table.push]
  position?_update t fresh f m := by
    obtain ⟨i, hk, hl⟩ | ⟨hk, hl⟩ := t.position?_cases h
    · rw [Table.update_of_some hk, Table.update_of_some hl]
    · rw [Table.update_of_none hk, Table.update_of_none hl, Table.position?_push,
        Table.position?_push, BEq.congr_left h]
  update_update t fresh fresh' f g := by
    obtain ⟨i, hk, hl⟩ | ⟨hk, -⟩ := t.position?_cases h
    · rw [Table.update_of_some hk, Table.update_of_some hk,
        Table.update_of_some ((Table.position?_modifyAt t i f l).trans hl),
        Table.modifyAt_modifyAt]
    · have hl : (t.push k (f fresh) hk).position? l = some t.size := by
        rw [Table.position?_push, if_pos h]
      rw [Table.update_of_none hk, Table.update_of_none hk, Table.update_of_some hl,
        Table.modifyAt_push, Function.comp_apply]

/-- In the roster of the one alone, the other is found where they are equal. -/
theorem oneKey_iff_beq : OneKey k l ↔ (k == l) = true := by
  refine ⟨fun O => ?_, oneKey_of_beq⟩
  have hsome := (Roster.empty : Roster K).isSome_position?_insert k
  rw [O.position?_eq] at hsome
  obtain ⟨i, hi⟩ := Option.isSome_iff_exists.1 hsome
  obtain ⟨m, hm, hml⟩ := Roster.position?_eq_some_iff.1 hi
  have hlist : ((Roster.empty : Roster K).insert k).members.toList = [k] :=
    Roster.toList_insert_of_none (Std.HashMap.getElem?_empty)
  have hmem : m ∈ [k] := by
    rw [← hlist, Array.mem_toList_iff]
    exact Array.mem_of_getElem? hm
  rwa [List.mem_singleton.1 hmem] at hml

end ChainScript
