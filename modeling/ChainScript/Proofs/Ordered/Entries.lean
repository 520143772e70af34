import ChainScript.Ordered.Slots
import ChainScript.Ordered.Table
import Mathlib.Algebra.BigOperators.Group.List.Basic
import Mathlib.Algebra.Ring.Nat
import Mathlib.Data.Finset.Card
import Mathlib.Data.List.Pairwise
import Mathlib.Data.List.Sort
import Mathlib.Data.String.Basic

/-!
# Rosters and tables as lists

A roster is described by the list of its members and a table by the list of its entries.  Each
operation has one equation that says what it does to the list; look-ups are searches in it.
Equal keys occur once (`Roster.distinct_members`, `Table.distinct_entries`), so a search up to
the equality of keys finds one place.

A table that is filled from a list, each item under its key, groups the list by keys
(`Table.entries_foldl_update`): keys in the order of their first items, each spelled as in its
first item, with the items of the key in order.  Each item is under one of the keys
(`sum_length_filter_eraseDups`).

Named slots stand in the order of their names, so they are the same where they hold the same
(`Slots.ext_get?`).

## Main definitions

* `swapErase` — a list without an item, whose place the last item takes.
* `Distinct` — a list of pairwise different keys.
-/

namespace ChainScript

/-! ### Removal by moving the last item -/

/-- The list without its item at position `i`; the last item moves into the gap. -/
def swapErase {α : Type} (xs : List α) (i : Nat) : List α :=
  match xs.getLast? with
  | some last => if i < xs.length then (xs.set i last).dropLast else xs
  | none => []

section SwapErase

variable {α β : Type} {xs : List α} {i : Nat}

theorem swapErase_of_lt (hi : i < xs.length) :
    swapErase xs i = (xs.set i (xs[xs.length - 1])).dropLast := by
  rw [swapErase, List.getLast?_eq_getElem?, List.getElem?_eq_getElem (by omega)]
  simp only [if_pos hi]

theorem swapErase_of_ge (hi : xs.length ≤ i) : swapErase xs i = xs := by
  rw [swapErase]
  split
  · rw [if_neg (by omega)]
  · next h => exact (List.getLast?_eq_none_iff.1 h).symm

theorem getElem?_swapErase (hi : i < xs.length) (j : Nat) :
    (swapErase xs i)[j]? =
      if j + 1 < xs.length then (if i = j then xs[xs.length - 1]? else xs[j]?) else none := by
  have hlast : xs[xs.length - 1]? = some xs[xs.length - 1] := List.getElem?_eq_getElem (by omega)
  rw [swapErase_of_lt hi, List.getElem?_dropLast, List.length_set, List.getElem?_set, hlast]
  by_cases hj : j + 1 < xs.length
  · rw [if_pos (by omega), if_pos hj, if_pos hi]
  · rw [if_neg (by omega), if_neg hj]

theorem map_swapErase (f : α → β) (xs : List α) (i : Nat) :
    (swapErase xs i).map f = swapErase (xs.map f) i := by
  rcases Nat.lt_or_ge i xs.length with h | h
  · rw [swapErase_of_lt h, swapErase_of_lt (by simpa using h), List.map_dropLast, List.map_set]
    simp
  · rw [swapErase_of_ge h, swapErase_of_ge (by simpa using h)]

/-- Nothing but the item is lost. -/
theorem cons_swapErase_perm (hi : i < xs.length) : (xs[i] :: swapErase xs i).Perm xs := by
  obtain rfl | ⟨ys, last, rfl⟩ := List.eq_nil_or_concat' xs
  · simp at hi
  · have hlen : (ys ++ [last]).length = ys.length + 1 := by simp
    rw [swapErase_of_lt hi]
    rcases Nat.lt_or_ge i ys.length with h | h
    · have hset : ((ys.set i last) ++ [last]).dropLast = ys.set i last := by simp
      simp only [hlen, Nat.add_sub_cancel, List.getElem_concat_length, List.set_append_left i _ h,
        hset, List.getElem_append_left h]
      calc (ys[i] :: ys.set i last).Perm (ys[i] :: last :: ys.eraseIdx i) :=
            (List.set_perm_cons_eraseIdx h last).cons _
        _ |>.Perm (last :: ys[i] :: ys.eraseIdx i) := .swap ..
        _ |>.Perm (last :: ys) := (List.getElem_cons_eraseIdx_perm h).cons _
        _ |>.Perm (ys ++ [last]) := (List.perm_append_singleton last ys).symm
    · have hend : i = ys.length := by omega
      subst hend
      simpa using (List.perm_append_singleton last ys).symm

/-- An array loses an item so when its last item is swapped there and popped. -/
theorem toList_pop_swap {xs : Array α} (hi : i < xs.size) (hlast : xs.size - 1 < xs.size) :
    (xs.swap i (xs.size - 1) hi hlast).pop.toList = swapErase xs.toList i := by
  rw [swapErase_of_lt (by simpa using hi)]
  apply List.ext_getElem?
  intro j
  simp only [Array.toList_pop, Array.toList_swap, List.getElem?_dropLast, List.length_set,
    List.getElem?_set, Array.length_toList, Array.getElem_toList]
  split
  · next hj => rw [if_neg (by omega)]
  · rfl

theorem map_modify (f : α → β) {g : α → α} {k : β → β} (h : ∀ a, f (g a) = k (f a)) :
    (xs.modify i g).map f = (xs.map f).modify i k := by
  apply List.ext_getElem?
  intro j
  simp only [List.getElem?_map, List.getElem?_modify]
  cases xs[j]? with
  | none => rfl
  | some a => split <;> simp [h]

/-- The item that goes does not matter. -/
theorem swapErase_modify (f : α → α) (xs : List α) (i : Nat) :
    swapErase (xs.modify i f) i = swapErase xs i := by
  rcases Nat.lt_or_ge i xs.length with h | h
  · apply List.ext_getElem?
    intro j
    rw [getElem?_swapErase (by simpa using h), getElem?_swapErase h, List.length_modify]
    simp only [List.getElem?_modify]
    by_cases hj : j + 1 < xs.length
    · by_cases hij : i = j
      · simp [hj, hij, show ¬ j = xs.length - 1 by omega]
      · simp [hij]
    · simp [hj]
  · rw [List.modify_eq_self h]

end SwapErase

/-! ### Lists of different keys -/

/-- The keys are pairwise different. -/
def Distinct {K : Type} [BEq K] (ks : List K) : Prop := ks.Pairwise fun a b => (a == b) = false

section Distinct

variable {K : Type} [BEq K] [EquivBEq K]

theorem beq_eq_false_comm {a b : K} : (a == b) = false ↔ (b == a) = false := by
  rw [BEq.comm]

theorem Distinct.perm {ks ls : List K} (h : Distinct ks) (hp : ks.Perm ls) : Distinct ls :=
  hp.pairwise h fun hab => beq_eq_false_comm.1 hab

theorem Distinct.nodup {ks : List K} (h : Distinct ks) : ks.Nodup := by
  refine h.imp fun hne heq => ?_
  rw [heq, BEq.rfl] at hne
  cases hne

/-- Taking an item away leaves the keys that differ from it. -/
theorem Distinct.mem_swapErase {ks : List K} (h : Distinct ks) {i : Nat} (hi : i < ks.length)
    {k : K} : k ∈ swapErase ks i ↔ k ∈ ks ∧ (k == ks[i]) = false := by
  have hperm := cons_swapErase_perm hi
  have hcons := h.perm hperm.symm
  rw [← hperm.mem_iff, List.mem_cons]
  constructor
  · intro hk
    exact ⟨.inr hk, beq_eq_false_comm.1 (List.rel_of_pairwise_cons hcons hk)⟩
  · rintro ⟨rfl | hk, hne⟩
    · simp at hne
    · exact hk

/-- A key that is met again leaves the list of the first spellings as it is. -/
theorem eraseDups_concat (ks : List K) (k : K) :
    (ks ++ [k]).eraseDups =
      if ks.any (· == k) then ks.eraseDups else ks.eraseDups ++ [k] := by
  induction hn : ks.length using Nat.strongRecOn generalizing ks with
  | ind n ih =>
      cases ks with
      | nil => simp [List.eraseDups_cons]
      | cons a as =>
          rw [List.cons_append, List.eraseDups_cons, List.eraseDups_cons, List.filter_append]
          by_cases hka : (k == a) = true
          · have hak : (a == k) = true := BEq.symm hka
            simp [hka, hak]
          · have hak : (a == k) = false := beq_eq_false_comm.1 (by simpa using hka)
            have hlen : (as.filter fun b => !b == a).length < n := by
              have := List.length_filter_le (fun b => !b == a) as
              simp only [List.length_cons] at hn
              omega
            have hany : (as.filter fun b => !b == a).any (· == k) = as.any (· == k) := by
              rw [List.any_filter]
              congr 1
              funext b
              by_cases hbk : (b == k) = true
              · have hba : (b == a) = false := by
                  by_contra hba
                  exact hka (BEq.trans (BEq.symm hbk) (by simpa using hba))
                simp [hbk, hba]
              · simp [hbk]
            have hsingle : [k].filter (fun b => !b == a) = [k] := by simp [hka]
            rw [hsingle, ih _ hlen _ rfl, hany, List.any_cons, hak, Bool.false_or]
            split <;> simp

/-- A key occurs among the first spellings if it occurs at all. -/
theorem any_eraseDups (ks : List K) (k : K) : ks.eraseDups.any (· == k) = ks.any (· == k) := by
  induction ks using List.reverseRecOn with
  | nil => rfl
  | append_singleton ks a ih =>
      rw [eraseDups_concat, List.any_append]
      split
      · next hany =>
        rw [ih]
        by_cases hak : (a == k) = true
        · obtain ⟨b, hb, hba⟩ := List.any_eq_true.1 hany
          have : ks.any (· == k) = true := List.any_eq_true.2 ⟨b, hb, BEq.trans hba hak⟩
          simp [this]
        · simp [hak]
      · rw [List.any_append, ih]

/-- The first spellings are spellings. -/
theorem mem_of_mem_eraseDups {ks : List K} {k : K} (h : k ∈ ks.eraseDups) : k ∈ ks := by
  induction ks using List.reverseRecOn with
  | nil => cases h
  | append_singleton ks a ih =>
      rw [eraseDups_concat] at h
      split at h
      · exact List.mem_append_left _ (ih h)
      · cases List.mem_append.1 h with
        | inl h => exact List.mem_append_left _ (ih h)
        | inr h => exact List.mem_append_right _ h

/-- First spellings are pairwise different. -/
theorem distinct_eraseDups (ks : List K) : Distinct ks.eraseDups := by
  induction ks using List.reverseRecOn with
  | nil => exact .nil
  | append_singleton ks k ih =>
      rw [eraseDups_concat]
      split
      · exact ih
      · next hnew =>
        rw [← any_eraseDups, List.any_eq_true] at hnew
        refine List.pairwise_append.2 ⟨ih, List.pairwise_singleton _ _, fun a ha b hb => ?_⟩
        obtain rfl := List.mem_singleton.1 hb
        exact Bool.eq_false_iff.2 fun hab => hnew ⟨a, ha, hab⟩

/-- Every key of the list has a first spelling. -/
theorem exists_mem_eraseDups {ks : List K} {k : K} (h : k ∈ ks) :
    ∃ a ∈ ks.eraseDups, (a == k) = true := by
  rw [← List.any_eq_true, any_eraseDups, List.any_eq_true]
  exact ⟨k, h, BEq.rfl⟩

omit [EquivBEq K] in
theorem eraseDups_eq_nil_iff {ks : List K} : ks.eraseDups = [] ↔ ks = [] := by
  cases ks with
  | nil => exact iff_of_true List.eraseDups_nil rfl
  | cons k ks => simp [List.eraseDups_cons]

/-- What stands before a first spelling are the first spellings met before it. -/
theorem exists_append_of_eraseDups_eq {ks ls rs : List K} {k : K}
    (h : ks.eraseDups = ls ++ k :: rs) :
    ∃ before after, ks = before ++ k :: after ∧ before.eraseDups = ls := by
  induction ks using List.reverseRecOn generalizing rs with
  | nil => simp at h
  | append_singleton ks a ih =>
      rw [eraseDups_concat] at h
      split at h
      · obtain ⟨before, after, rfl, hbefore⟩ := ih h
        exact ⟨before, after ++ [a], by simp, hbefore⟩
      · obtain rfl | ⟨rs, b, rfl⟩ := List.eq_nil_or_concat' rs
        · obtain ⟨hks, rfl⟩ := List.append_inj' h rfl |>.imp_right List.singleton_inj.1
          exact ⟨ks, [], rfl, hks⟩
        · rw [← List.cons_append, ← List.append_assoc] at h
          obtain ⟨hks, rfl⟩ := List.append_inj' h rfl |>.imp_right List.singleton_inj.1
          obtain ⟨before, after, rfl, hbefore⟩ := ih hks
          exact ⟨before, after ++ [a], by simp, hbefore⟩

/-- Keys that are compared by what is made of them are as many as the different things made. -/
theorem length_eraseDups_eq_card {J : Type} [DecidableEq J] {f : K → J}
    (hf : ∀ a b, (a == b) = true ↔ f a = f b) (ks : List K) :
    ks.eraseDups.length = (ks.map f).toFinset.card := by
  have hnodup : (ks.eraseDups.map f).Nodup := by
    rw [List.Nodup, List.pairwise_map]
    refine (distinct_eraseDups ks).imp fun hab heq => ?_
    rw [(hf _ _).2 heq] at hab
    cases hab
  have hsame : (ks.eraseDups.map f).toFinset = (ks.map f).toFinset := by
    ext j
    rw [List.mem_toFinset, List.mem_toFinset, List.mem_map, List.mem_map]
    constructor
    · rintro ⟨k, hk, rfl⟩
      exact ⟨k, mem_of_mem_eraseDups hk, rfl⟩
    · rintro ⟨k, hk, rfl⟩
      obtain ⟨a, ha, hak⟩ := exists_mem_eraseDups hk
      exact ⟨a, ha, (hf _ _).1 hak⟩
  rw [← hsame, List.toFinset_card_of_nodup hnodup, List.length_map]

/-- What is made of what is counted is no more. -/
theorem card_toFinset_map_le {α β γ : Type} [DecidableEq β] [DecidableEq γ] (k : α → β) (f : β → γ)
    (as : List α) : (as.map fun a => f (k a)).toFinset.card ≤ (as.map k).toFinset.card := by
  have himage : (as.map fun a => f (k a)).toFinset = (as.map k).toFinset.image f := by
    ext c
    simp
  rw [himage]
  exact Finset.card_image_le

/-- Lists without a common key keep their first spellings apart. -/
theorem eraseDups_append_of_forall_ne {ks ls : List K}
    (h : ∀ k ∈ ks, ∀ l ∈ ls, (k == l) = false) :
    (ks ++ ls).eraseDups = ks.eraseDups ++ ls.eraseDups := by
  induction ls using List.reverseRecOn with
  | nil => simp
  | append_singleton ls l ih =>
      have hnone : ks.any (· == l) = false := by
        rw [List.any_eq_false]
        intro k hk
        simp [h k hk l (by simp)]
      rw [← List.append_assoc, eraseDups_concat, eraseDups_concat, List.any_append, hnone,
        Bool.false_or, ih fun k hk l' hl' => h k hk l' (List.mem_append_left _ hl')]
      split <;> simp

/-- Keys that are compared by what is made of them have the same first spellings. -/
theorem eraseDups_map {J : Type} [BEq J] [EquivBEq J] {f : J → K}
    (hf : ∀ a b, (f a == f b) = (a == b)) (js : List J) :
    (js.map f).eraseDups = js.eraseDups.map f := by
  induction js using List.reverseRecOn with
  | nil => rfl
  | append_singleton js j ih =>
      have hany : (js.map f).any (· == f j) = js.any (· == j) := by
        rw [List.any_map]
        exact congrArg _ (funext fun a => hf a j)
      rw [List.map_append, List.map_singleton, eraseDups_concat, eraseDups_concat, hany, ih]
      split <;> simp

/-- One of different keys at most equals a given one. -/
theorem sum_map_beq_of_distinct {ks : List K} (h : Distinct ks) (k : K) :
    (ks.map fun a => if k == a then 1 else 0).sum = if ks.any (· == k) then 1 else 0 := by
  induction ks with
  | nil => rfl
  | cons a ks ih =>
      obtain ⟨ha, hks⟩ := List.pairwise_cons.1 h
      rw [List.map_cons, List.sum_cons, ih hks, List.any_cons, BEq.comm]
      by_cases hak : (a == k) = true
      · have hnone : ks.any (· == k) = false := by
          rw [List.any_eq_false]
          intro b hb
          simp [← BEq.congr_right hak, BEq.comm (a := b), ha b hb]
        simp [hak, hnone]
      · simp [hak]

/-- The items of the different keys are all the items. -/
theorem sum_length_filter_eraseDups {α : Type} (key : α → K) (items : List α) :
    ((items.map key).eraseDups.map fun k => (items.filter (key · == k)).length).sum =
      items.length := by
  induction items using List.reverseRecOn with
  | nil => rfl
  | append_singleton items a ih =>
      have hlast (k : K) : ((items ++ [a]).filter (key · == k)).length =
          (items.filter (key · == k)).length + if key a == k then 1 else 0 := by
        rw [List.filter_append, List.length_append]
        by_cases hk : (key a == k) = true <;> simp [hk]
      have hold : (((items ++ [a]).map key).eraseDups.map
          fun k => (items.filter (key · == k)).length).sum = items.length := by
        rw [List.map_append, List.map_singleton, eraseDups_concat]
        split
        · exact ih
        · next hnew =>
          have hnone : items.filter (key · == key a) = [] := by
            simpa [List.filter_eq_nil_iff] using hnew
          rw [List.map_append, List.sum_append, ih, List.map_singleton, hnone]
          rfl
      have hany : ((items ++ [a]).map key).any (· == key a) = true := by simp
      simp only [hlast]
      rw [List.sum_map_add, hold, sum_map_beq_of_distinct (distinct_eraseDups _), any_eraseDups,
        if_pos hany, List.length_append, List.length_singleton]

end Distinct

/-! ### Rosters -/

namespace Roster

variable {K : Type} [BEq K] [Hashable K] {r : Roster K} {k : K}

theorem distinct_members [ReflBEq K] (r : Roster K) : Distinct r.members.toList := by
  refine List.pairwise_iff_getElem.2 ?_
  intro i j hi hj hij
  by_contra h
  have hi' : r.members[i]? = some r.members.toList[i] := by
    rw [← Array.getElem?_toList, List.getElem?_eq_getElem hi]
  have hj' : r.members[j]? = some r.members.toList[j] := by
    rw [← Array.getElem?_toList, List.getElem?_eq_getElem hj]
  have := eq_of_beq_members hi' hj' (by simpa using h)
  omega

theorem position?_eq_none_iff : r.position? k = none ↔ ∀ m ∈ r.members, (m == k) = false := by
  rw [Option.eq_none_iff_forall_ne_some]
  simp only [ne_eq, position?_eq_some_iff, not_exists, not_and, Bool.not_eq_true]
  constructor
  · intro h m hm
    obtain ⟨i, hi, rfl⟩ := Array.mem_iff_getElem.1 hm
    exact h i _ (Array.getElem?_eq_getElem hi)
  · intro h i m hm
    exact h m (Array.mem_of_getElem? hm)

/-- A look-up finds the member that the key spells. -/
theorem find?_eq_some_iff {m : K} : r.find? k = some m ↔ m ∈ r.members ∧ (m == k) = true := by
  rw [find?, Option.bind_eq_some_iff]
  constructor
  · rintro ⟨i, hi, hm⟩
    obtain ⟨m', hm', hbeq⟩ := position?_eq_some_iff.1 hi
    obtain rfl := Option.some.inj (hm'.symm.trans hm)
    exact ⟨Array.mem_of_getElem? hm, hbeq⟩
  · rintro ⟨hm, hbeq⟩
    obtain ⟨i, hi, rfl⟩ := Array.mem_iff_getElem.1 hm
    have hget := Array.getElem?_eq_getElem hi
    exact ⟨i, position?_eq_some_iff.2 ⟨_, hget, hbeq⟩, hget⟩

theorem find?_eq_none_iff : r.find? k = none ↔ ∀ m ∈ r.members, (m == k) = false := by
  rw [Option.eq_none_iff_forall_ne_some]
  simp only [ne_eq, find?_eq_some_iff, not_and, Bool.not_eq_true]

@[simp] theorem toList_empty : (empty : Roster K).members.toList = [] := rfl

variable [EquivBEq K] [LawfulHashable K]

theorem insert_of_some {i : Nat} (h : r.position? k = some i) : r.insert k = r := by
  rw [insert]
  split
  · rfl
  · next hnone => rw [h] at hnone; cases hnone

theorem insert_of_none (h : r.position? k = none) : r.insert k = r.push k h := by
  rw [insert]
  split
  · next hsome => rw [h] at hsome; cases hsome
  · rfl

theorem toList_insert_of_none (h : r.position? k = none) :
    (r.insert k).members.toList = r.members.toList ++ [k] := by
  rw [insert_of_none h]
  simp [push]

theorem mem_insert {m : K} :
    m ∈ (r.insert k).members ↔ m ∈ r.members ∨ (m = k ∧ r.position? k = none) := by
  cases h : r.position? k with
  | some i => simp [insert_of_some h]
  | none => rw [← Array.mem_toList_iff, toList_insert_of_none h]; simp

/-- A roster that is filled from a list has the first spellings in it. -/
theorem toList_ofList (ks : List K) : (ofList ks).members.toList = ks.eraseDups := by
  induction ks using List.reverseRecOn with
  | nil => rfl
  | append_singleton ks k ih =>
      rw [ofList, List.foldl_append, ← ofList, List.foldl_cons, List.foldl_nil, eraseDups_concat,
        ← any_eraseDups, ← ih]
      cases hpos : (ofList ks).position? k with
      | some i =>
          obtain ⟨m, hm, hmk⟩ := position?_eq_some_iff.1 hpos
          rw [insert_of_some hpos, if_pos]
          exact List.any_eq_true.2 ⟨m, Array.mem_toList_iff.2 (Array.mem_of_getElem? hm), hmk⟩
      | none =>
          have hnone := position?_eq_none_iff.1 hpos
          rw [toList_insert_of_none hpos, if_neg]
          rw [List.any_eq_true]
          rintro ⟨m, hm, hmk⟩
          rw [hnone m (Array.mem_toList_iff.1 hm)] at hmk
          cases hmk

theorem toList_swapRemoveAt (r : Roster K) (i : Nat) :
    (r.swapRemoveAt i).members.toList = swapErase r.members.toList i := by
  have hpop : r.pop.members.size = r.members.size - 1 := by rw [members_pop, Array.size_pop]
  rw [swapRemoveAt]
  split
  · next h =>
    have : r.members = #[] := by simpa using h
    simp [swapErase, this]
  · next last h =>
    have hpos : 0 < r.members.size := by
      rw [Array.back?] at h
      have := (Array.getElem?_eq_some_iff.1 h).1
      omega
    have hlast : r.members[r.members.size - 1] = last := by
      rw [Array.back?, Array.getElem?_eq_getElem (by omega)] at h
      exact Option.some.inj h
    split
    · next hi =>
      rw [swapErase_of_lt (by simp only [Array.length_toList]; omega)]
      simp only [replaceAt, Array.toList_set, members_pop, Array.toList_pop, Array.length_toList,
        Array.getElem_toList, hlast]
      rw [List.dropLast_eq_take, List.dropLast_eq_take, List.length_set, List.take_set]
    · next hi =>
      split
      · next hi' =>
        rw [swapErase_of_lt (by simp only [Array.length_toList]; omega)]
        simp only [members_pop, Array.toList_pop, List.dropLast_eq_take, List.length_set]
        rw [List.take_set_of_le (by simp only [Array.length_toList]; omega)]
      · rw [swapErase_of_ge]
        simp only [Array.length_toList]
        omega

theorem mem_swapRemove {m : K} :
    m ∈ (r.swapRemove k).members ↔ m ∈ r.members ∧ (m == k) = false := by
  rw [swapRemove]
  split
  · next i h =>
    obtain ⟨l, hl, hlk⟩ := position?_eq_some_iff.1 h
    obtain ⟨hi, rfl⟩ := Array.getElem?_eq_some_iff.1 hl
    rw [← Array.mem_toList_iff, toList_swapRemoveAt,
      (distinct_members r).mem_swapErase (by simpa using hi)]
    simp only [Array.mem_toList_iff, Array.getElem_toList, BEq.congr_right hlk]
  · next h =>
    have hall := position?_eq_none_iff.1 h
    exact ⟨fun hm => ⟨hm, hall m hm⟩, fun hm => hm.1⟩

end Roster

/-! ### Tables -/

namespace Table

variable {K V : Type} [BEq K] [Hashable K] {t : Table K V} {k : K} {i : Nat}

theorem map_fst_entries (t : Table K V) : t.entries.map Prod.fst = t.keys.members.toList :=
  List.map_fst_zip (by simp [t.size_eq])

theorem map_snd_entries (t : Table K V) : t.entries.map Prod.snd = t.values.toList :=
  List.map_snd_zip (by simp [t.size_eq])

/-- Keys and values together determine the entries. -/
theorem entries_eq {es : List (K × V)} (hk : t.keys.members.toList = es.map Prod.fst)
    (hv : t.values.toList = es.map Prod.snd) : t.entries = es := by
  rw [entries, hk, hv, ← List.unzip_fst, ← List.unzip_snd, List.zip_unzip]

theorem length_entries (t : Table K V) : t.entries.length = t.size := by
  rw [← List.length_map Prod.snd, map_snd_entries, Array.length_toList, size]

theorem distinct_entries [ReflBEq K] (t : Table K V) : Distinct (t.entries.map Prod.fst) := by
  rw [map_fst_entries]
  exact t.keys.distinct_members

/-- One entry has a given key. -/
theorem eq_of_beq [EquivBEq K] {e e' : K × V} (he : e ∈ t.entries) (he' : e' ∈ t.entries)
    (h : (e.1 == e'.1) = true) : e = e' := by
  by_contra hne
  have hsymm : Std.Symm fun a b : K × V => (a.1 == b.1) = false :=
    ⟨fun _ _ => beq_eq_false_comm.1⟩
  rw [(List.pairwise_map.1 t.distinct_entries).forall he he' hne] at h
  cases h

/-- Without the entry at position `i`, a table has the entries with other keys. -/
theorem mem_swapErase_entries [EquivBEq K] {v : V} (he : t.entries[i]? = some (k, v))
    {e : K × V} : e ∈ swapErase t.entries i ↔ e ∈ t.entries ∧ (e.1 == k) = false := by
  obtain ⟨hi, hget⟩ := List.getElem?_eq_some_iff.1 he
  have hperm := cons_swapErase_perm hi
  rw [hget] at hperm
  have hdistinct := t.distinct_entries.perm (hperm.symm.map Prod.fst)
  rw [List.map_cons] at hdistinct
  constructor
  · intro hmem
    refine ⟨hperm.subset (List.mem_cons_of_mem _ hmem), beq_eq_false_comm.1 ?_⟩
    exact List.rel_of_pairwise_cons hdistinct (List.mem_map_of_mem hmem)
  · rintro ⟨hmem, hne⟩
    rcases List.mem_cons.1 (hperm.symm.subset hmem) with rfl | hmem
    · simp at hne
    · exact hmem

theorem getElem?_values (t : Table K V) (i : Nat) :
    t.values[i]? = t.entries[i]?.map Prod.snd := by
  rw [← List.getElem?_map, map_snd_entries, Array.getElem?_toList]

theorem getElem?_keys (t : Table K V) (i : Nat) :
    t.keys.members[i]? = t.entries[i]?.map Prod.fst := by
  rw [← List.getElem?_map, map_fst_entries, Array.getElem?_toList]

theorem position?_eq_some_iff :
    t.position? k = some i ↔ ∃ e, t.entries[i]? = some e ∧ (e.1 == k) = true := by
  rw [position?, Roster.position?_eq_some_iff, getElem?_keys]
  simp

theorem position?_eq_none_iff :
    t.position? k = none ↔ ∀ e ∈ t.entries, (e.1 == k) = false := by
  rw [position?, Roster.position?_eq_none_iff]
  simp only [← Array.mem_toList_iff, ← map_fst_entries, List.forall_mem_map]

@[simp] theorem entries_empty : (empty : Table K V).entries = [] := rfl

theorem entries_modifyAt (t : Table K V) (i : Nat) (f : V → V) :
    (t.modifyAt i f).entries = t.entries.modify i fun e => (e.1, f e.2) := by
  refine entries_eq ?_ ?_
  · rw [map_modify (g := fun e => (e.1, f e.2)) (k := id) Prod.fst fun _ => rfl, List.modify_id,
      map_fst_entries, modifyAt]
  · rw [map_modify (g := fun e => (e.1, f e.2)) (k := f) Prod.snd fun _ => rfl,
      map_snd_entries, modifyAt, Array.toList_modify]

theorem entries_mapValues (t : Table K V) (f : V → V) :
    (t.mapValues f).entries = t.entries.map fun e => (e.1, f e.2) := by
  refine entries_eq ?_ ?_
  · simp [mapValues, ← map_fst_entries]
  · simp [mapValues, ← map_snd_entries]

/-- The one entry whose key equals `k` is changed, wherever it stands. -/
theorem modify_entries_eq_map (h : t.position? k = some i) (f : V → V) :
    (t.entries.modify i fun e => (e.1, f e.2)) =
      t.entries.map fun e => if e.1 == k then (e.1, f e.2) else e := by
  obtain ⟨e, he, hek⟩ := position?_eq_some_iff.1 h
  apply List.ext_getElem?
  intro j
  rw [List.getElem?_modify, List.getElem?_map]
  by_cases hij : i = j
  · subst hij
    simp [he, hek]
  · cases hj : t.entries[j]? with
    | none => rfl
    | some e' =>
        have hne : (e'.1 == k) = false := by
          by_contra hcon
          have hj' : t.position? k = some j :=
            position?_eq_some_iff.2 ⟨e', hj, by simpa using hcon⟩
          exact hij (Option.some.inj (h.symm.trans hj'))
        simp [hne, hij]

variable [EquivBEq K] [LawfulHashable K]

theorem update_of_some (h : t.position? k = some i) (fresh : V) (f : V → V) :
    t.update k fresh f = t.modifyAt i f := by
  rw [update]
  split
  · next j hj =>
    obtain rfl : i = j := Option.some.inj (h.symm.trans hj)
    rfl
  · next hnone => rw [h] at hnone; cases hnone

theorem update_of_none (h : t.position? k = none) (fresh : V) (f : V → V) :
    t.update k fresh f = t.push k (f fresh) h := by
  rw [update]
  split
  · next hsome => rw [h] at hsome; cases hsome
  · rfl

theorem entries_update_of_some (h : t.position? k = some i) (fresh : V) (f : V → V) :
    (t.update k fresh f).entries = t.entries.modify i fun e => (e.1, f e.2) := by
  rw [update_of_some h, entries_modifyAt]

theorem entries_push (t : Table K V) (k : K) (v : V) (h : t.position? k = none) :
    (t.push k v h).entries = t.entries ++ [(k, v)] := by
  refine entries_eq ?_ ?_
  · simp [push, Roster.push, map_fst_entries]
  · simp [push, map_snd_entries]

theorem entries_update_of_none (h : t.position? k = none) (fresh : V) (f : V → V) :
    (t.update k fresh f).entries = t.entries ++ [(k, f fresh)] := by
  rw [update_of_none h, entries_push]

theorem entries_swapRemoveAt (t : Table K V) (i : Nat) :
    (t.swapRemoveAt i).entries = swapErase t.entries i := by
  rw [swapRemoveAt]
  split
  · next hi =>
    refine entries_eq ?_ ?_
    · rw [map_swapErase, map_fst_entries, Roster.toList_swapRemoveAt]
    · rw [map_swapErase, map_snd_entries]
      exact toList_pop_swap _ _
  · next hi => rw [swapErase_of_ge (by rw [length_entries, size]; omega)]

/-- Entries with different keys make the table that has them. -/
theorem entries_ofList {es : List (K × V)} (h : Distinct (es.map Prod.fst)) :
    (ofList es).entries = es := by
  have hfold : ∀ t : Table K V, Distinct ((t.entries ++ es).map Prod.fst) →
      (es.foldl (fun t e => t.update e.1 e.2 id) t).entries = t.entries ++ es := by
    clear h
    induction es with
    | nil => intro t _; simp
    | cons e es ih =>
        intro t ht
        have hnone : t.position? e.1 = none := by
          rw [position?_eq_none_iff]
          intro e' he'
          rw [List.map_append, Distinct, List.pairwise_append] at ht
          exact ht.2.2 _ (List.mem_map_of_mem he') _ (by simp)
        have hentries := entries_update_of_none hnone e.2 id
        rw [List.foldl_cons, ih _ (by rw [hentries]; simpa using ht), hentries]
        simp
  simpa [ofList] using hfold empty (by simpa using h)

theorem entries_filter (p : K → V → Bool) (t : Table K V) :
    (t.filter p).entries = t.entries.filter fun e => p e.1 e.2 :=
  entries_ofList (List.Pairwise.sublist (List.filter_sublist.map _) t.distinct_entries)

/-- A table that is filled from a list groups the list by keys: keys in the order of their first
items and spelled as there, with what the items of the key make of a fresh value. -/
theorem entries_foldl_update {α : Type} (key : α → K) (fresh : V) (f : α → V → V)
    (items : List α) :
    (items.foldl (fun t a => t.update (key a) fresh (f a)) empty).entries =
      (items.map key).eraseDups.map fun k =>
        (k, (items.filter (key · == k)).foldl (fun v a => f a v) fresh) := by
  -- From the end: the last item changes the entry of its key or adds one.
  induction items using List.reverseRecOn with
  | nil => rfl
  | append_singleton items a ih =>
      rw [List.foldl_append, List.foldl_cons, List.foldl_nil, List.map_append, List.map_singleton,
        eraseDups_concat]
      generalize items.foldl (fun t a => t.update (key a) fresh (f a)) empty = t at ih
      cases hpos : t.position? (key a) with
      | some i =>
          obtain ⟨e, he, hea⟩ := position?_eq_some_iff.1 hpos
          have hany : (items.map key).any (· == key a) = true := by
            rw [← any_eraseDups, List.any_eq_true]
            rw [ih, List.getElem?_map, Option.map_eq_some_iff] at he
            obtain ⟨k, hk, rfl⟩ := he
            exact ⟨k, List.mem_of_getElem? hk, hea⟩
          rw [if_pos hany, entries_update_of_some hpos, modify_entries_eq_map hpos, ih,
            List.map_map]
          apply List.map_congr_left
          intro k _
          simp only [Function.comp_apply, List.filter_append, List.foldl_append]
          by_cases hka : (k == key a) = true
          · have hak : (key a == k) = true := BEq.symm hka
            simp [hka, hak]
          · have hak : (key a == k) = false := beq_eq_false_comm.1 (by simpa using hka)
            simp [hka, hak]
      | none =>
          have hnone := position?_eq_none_iff.1 hpos
          rw [ih, List.forall_mem_map] at hnone
          have hany : (items.map key).any (· == key a) = false := by
            rw [← any_eraseDups, List.any_eq_false]
            simpa using hnone
          have hnew : items.filter (key · == key a) = [] := by
            simpa [List.filter_eq_nil_iff] using hany
          rw [if_neg (by simp [hany]), entries_update_of_none hpos, ih, List.map_append,
            List.map_singleton]
          congr 1
          · apply List.map_congr_left
            intro k hk
            have hak : (key a == k) = false := beq_eq_false_comm.1 (hnone k hk)
            simp [List.filter_append, hak]
          · simp [List.filter_append, hnew]

end Table

/-! ### Named slots -/

namespace Slots

variable {α : Type} {s t : Slots α} {name : String} {v : α}

theorem mem_iff_lookup {es : List (String × α)} (hes : es.Pairwise (·.1 < ·.1)) :
    (name, v) ∈ es ↔ es.lookup name = some v := by
  induction es with
  | nil => simp
  | cons e rest ih =>
      obtain ⟨he, hrest⟩ := List.pairwise_cons.1 hes
      rw [List.mem_cons, ih hrest, lookup_cons_eq]
      by_cases hname : name = e.1
      · have hnone : rest.lookup name ≠ some v := fun h =>
          String.lt_irrefl e.1 (hname ▸ he _ ((ih hrest).2 h))
        rw [if_pos hname, or_iff_left hnone, Option.some.injEq, hname]
        exact ⟨fun h => (congrArg Prod.snd h).symm, fun h => h ▸ rfl⟩
      · rw [if_neg hname, or_iff_right fun h => hname (congrArg Prod.fst h)]

theorem mem_entries_iff : (name, v) ∈ s.entries ↔ s.get? name = some v := mem_iff_lookup s.sorted

theorem mem_names_iff : name ∈ s.names ↔ s.contains name = true := by
  rw [names, List.mem_map, contains, Option.isSome_iff_exists]
  constructor
  · rintro ⟨e, he, rfl⟩
    exact ⟨e.2, mem_entries_iff.1 he⟩
  · rintro ⟨v, hv⟩
    exact ⟨(name, v), mem_entries_iff.2 hv, rfl⟩

/-- Slots that hold the same are the same. -/
theorem ext_get? (h : ∀ name, s.get? name = t.get? name) : s = t := by
  have : Std.Irrefl fun a b : String × α => a.1 < b.1 := ⟨fun a => String.lt_irrefl a.1⟩
  have : Std.Antisymm fun a b : String × α => a.1 < b.1 :=
    ⟨fun _ _ hab hba => absurd hba (String.lt_asymm hab)⟩
  have hentries : s.entries = t.entries := by
    refine s.sorted.eq_of_mem_iff t.sorted fun e => ?_
    rw [mem_entries_iff , mem_entries_iff , h]
  obtain ⟨es, hs⟩ := s
  obtain ⟨es', ht⟩ := t
  obtain rfl : es = es' := hentries
  rfl

/-- The same names stand in the same order. -/
theorem names_congr (h : ∀ name, s.contains name = t.contains name) : s.names = t.names := by
  have hsorted : ∀ s : Slots α, s.names.Pairwise (· < ·) := fun s => List.pairwise_map.2 s.sorted
  refine (hsorted s).eq_of_mem_iff (hsorted t) fun name => ?_
  rw [mem_names_iff, mem_names_iff, h]

/-- A slot that is filled with what it holds stays as it is. -/
theorem put_eq_self (h : s.get? name = some v) : s.put name v = s := by
  refine ext_get? fun n => ?_
  rw [get?_put]
  split
  · next hn => rw [hn, h]
  · rfl

/-- An empty slot that is emptied stays as it is. -/
theorem erase_eq_self (h : s.get? name = none) : s.erase name = s := by
  refine ext_get? fun n => ?_
  rw [get?_erase]
  split
  · next hn => rw [hn, h]
  · rfl

end Slots

end ChainScript
