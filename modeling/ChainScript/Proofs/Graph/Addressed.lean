import ChainScript.Proofs.Generator.Run
import ChainScript.Proofs.Graph.Content

/-!
# Removal of an addressed record

A removal counts records across all bags, moves the last suffix into the gap it makes in a bag,
and the last bag into the gap that an emptied bag makes among them.  Over any history of changes
it takes the record at the given position of `Graph.records` and no other.

## Main definitions

* `Change`, `Graph.after` — the elementary changes, and the graph that a list of them makes.
* `Graph.RemovedAt` — what is left of a graph whose record at a position goes.

## Main results

* `Graph.removal_spec` — a removal takes the record it addresses.
-/

namespace ChainScript.Chain

/-- An elementary change of a graph. -/
inductive Change
  | insert (p : Prefix) (s : Suffix)
  | removeNth (k : Nat)
  | retainYounger (cutoff : Instant)
  | clear

namespace Graph

/-- The graph after a change.  A removal that finds no record leaves it as it is. -/
def changed (g : Graph) : Change → Graph
  | .insert p s => g.insert p s
  | .removeNth k => ((g.removeNth k).map Prod.snd).getD g
  | .retainYounger cutoff => g.retainYounger cutoff
  | .clear => empty

/-- The graph that the changes make, one after the other, from the empty graph. -/
def after (changes : List Change) : Graph := changes.foldl changed empty

variable {g g' : Graph}

theorem Built.changed (B : g.Built) (c : Change) : (g.changed c).Built := by
  cases c with
  | insert p s => exact B.insert p s
  | removeNth k =>
      rw [Graph.changed]
      cases h : g.removeNth k with
      | none => exact B
      | some r => exact B.removeNth h
  | retainYounger cutoff => exact B.retainYounger cutoff
  | clear => exact .empty

theorem built_after (changes : List Change) : (after changes).Built := by
  have hrun : ∀ g : Graph, g.Built → (changes.foldl Graph.changed g).Built := by
    induction changes with
    | nil => exact fun _ B => B
    | cons c changes ih => exact fun g B => ih (g.changed c) (B.changed c)
  exact hrun empty .empty

/-! ### The place of a record -/

section Place

variable {i offset k : Nat} {p : Prefix} {bag : Array Suffix} {s : Suffix}

/-- A record stands behind the bags that precede its own. -/
theorem getElem?_records (he : g.bags.entries[i]? = some (p, bag)) (hs : bag[offset]? = some s) :
    g.records[(g.sizes.take i).sum + offset]? = some (p, s) := by
  have hsizes : g.sizes = (g.bags.entries.map bagRecords).map List.length := by
    simp [sizes, bagRecords, Function.comp_def]
  have hbag : (bagRecords (p, bag))[offset]? = some (p, s) := by
    rw [bagRecords, List.getElem?_map, Array.getElem?_toList, hs]
    rfl
  obtain ⟨hi, hget⟩ := List.getElem?_eq_some_iff.1 he
  have hlt : offset < (bagRecords (p, bag)).length := (List.getElem?_eq_some_iff.1 hbag).1
  rw [records_eq, List.flatMap_def, ← List.getElem?_drop, hsizes, List.drop_sum_flatten,
    ← List.map_drop, List.drop_eq_getElem_cons hi, hget, List.map_cons, List.flatten_cons,
    List.getElem?_append_left hlt, hbag]

theorem removeNth_eq_none_iff (C : g.Consistent) : g.removeNth k = none ↔ g.count ≤ k := by
  constructor
  · intro h
    by_contra hk
    obtain ⟨_, _, _, _, _, _, hrun, -⟩ := removeNth_spec C (Nat.not_le.1 hk)
    rw [h] at hrun
    cases hrun
  · intro hk
    simp [removeNth, guard, Nat.not_lt.2 hk]

end Place

/-! ### What is left -/

/-- What is left of a graph whose record at position `k` goes: a record that carries `s` and
stands in the bag of `p`. -/
structure RemovedAt (g g' : Graph) (k : Nat) (p : Prefix) (s : Suffix) (bag : Array Suffix) :
    Prop where
  record : g.records[k]? = some (p, s)
  perm : ((p, s) :: g'.records).Perm g.records
  count_eq : g'.count + 1 = g.count
  /-- The bags of other prefixes are the same, item by item. -/
  others : ∀ e : Prefix × Array Suffix, (e.1 == p) = false →
    (e ∈ g'.bags.entries ↔ e ∈ g.bags.entries)
  mem_bags : (p, bag) ∈ g.bags.entries
  /-- The bag goes if the record was alone in it. -/
  gone_iff : (∀ e ∈ g'.bags.entries, (e.1 == p) = false) ↔ bag = #[s]
  /-- If it was not, the last suffix of the bag moves into the gap. -/
  shrunk : bag ≠ #[s] → ∃ offset, bag[offset]? = some s ∧
    (p, swapRemoveSuffix bag offset) ∈ g'.bags.entries
  /-- The start `p` goes with its bag, unless it is the start prefix. -/
  mem_starts : ∀ q, q ∈ g'.starts.members ↔
    q ∈ g.starts.members ∧ ¬ (bag = #[s] ∧ p ≠ Prefix.start ∧ (q == p) = true)

theorem Consistent.exists_removedAt (C : g.Consistent) {k : Nat} (hk : k < g.count) :
    ∃ p s bag g', g.removeNth k = some (s, g') ∧ RemovedAt g g' k p s bag := by
  obtain ⟨i, offset, p, bag, s, g', hrun, he, hs, rfl, R⟩ := removeNth_spec C hk
  have hone : bag.size = 1 ↔ bag = #[s] := by
    constructor
    · intro hone
      obtain ⟨t, rfl⟩ := Array.size_eq_one_iff.1 hone
      obtain ⟨hoff, rfl⟩ := Array.getElem?_eq_some_iff.1 hs
      simp
    · rintro rfl
      rfl
  refine ⟨p, s, bag, g', hrun, getElem?_records he hs, R.perm_records he hs, ?_, ?_,
    List.mem_of_getElem? he, ?_, ?_, ?_⟩
  · have hcount := R.count_eq
    omega
  · intro e hep
    rw [R.mem_entries he]
    constructor
    · rintro (⟨hmem, -⟩ | ⟨-, rfl⟩)
      · exact hmem
      · simp at hep
    · exact fun hmem => .inl ⟨hmem, hep⟩
  · rw [← hone]
    constructor
    · intro hall
      by_contra hmany
      have hp := hall _ ((R.mem_entries he).2 (.inr ⟨hmany, rfl⟩))
      simp at hp
    · intro hsingle e hmem
      rcases (R.mem_entries he).1 hmem with ⟨-, hep⟩ | ⟨hmany, -⟩
      · exact hep
      · exact absurd hsingle hmany
  · intro hmany
    exact ⟨offset, hs, (R.mem_entries he).2 (.inr ⟨fun hsingle => hmany (hone.1 hsingle), rfl⟩)⟩
  · intro q
    rw [R.starts, ← hone]
    split
    · next hsingle =>
      rw [mem_dropStart, Prefix.isStart_iff]
      simp only [hsingle, true_and, ne_eq, not_and, Bool.not_eq_true]
      apply and_congr_right
      intro _
      rw [Classical.or_iff_not_imp_left]
    · next hmany => simp [hmany]

/-- **A removal takes precisely the record it addresses.**  After every history of changes, the
suffix it returns is the one at position `k` of the records as they stand, and nothing else
goes.  Past the last record it returns nothing and changes nothing. -/
theorem removal_spec (changes : List Change) :
    (after changes).records.length = (after changes).count ∧ ∀ k,
      (k < (after changes).count → ∃ p s bag, RemovedAt (after changes)
        ((after changes).changed (.removeNth k)) k p s bag ∧
        (after changes).removeNth k = some (s, (after changes).changed (.removeNth k))) ∧
      ((after changes).count ≤ k → (after changes).removeNth k = none ∧
        (after changes).changed (.removeNth k) = after changes) := by
  have C : (after changes).Consistent := (built_after changes).consistent
  refine ⟨by rw [length_records, C.count_eq], ?_⟩
  intro k
  constructor
  · intro hk
    obtain ⟨p, s, bag, g', hrun, R⟩ := C.exists_removedAt hk
    have hchange : (after changes).changed (.removeNth k) = g' := by rw [changed, hrun]; rfl
    exact ⟨p, s, bag, by rwa [hchange], by rw [hchange, hrun]⟩
  · intro hk
    have hnone := (removeNth_eq_none_iff C).2 hk
    exact ⟨hnone, by rw [changed, hnone]; rfl⟩

/-- Two records of the start prefix, and one of another prefix between them. -/
def scattered : List Change :=
  [.insert .start ⟨⟨"I"⟩, false, 0⟩, .insert ⟨.blank, ⟨"I"⟩⟩ ⟨⟨"am."⟩, true, 0⟩,
    .insert .start ⟨⟨"We"⟩, false, 0⟩]

theorem entries_after_scattered : (after scattered).bags.entries =
    [(.start, #[⟨⟨"I"⟩, false, 0⟩, ⟨⟨"We"⟩, false, 0⟩]),
      (⟨.blank, ⟨"I"⟩⟩, #[⟨⟨"am."⟩, true, 0⟩])] := by
  have hentries := entries_ofRecords [(.start, ⟨⟨"I"⟩, false, 0⟩),
    (⟨.blank, ⟨"I"⟩⟩, ⟨⟨"am."⟩, true, 0⟩), (.start, ⟨⟨"We"⟩, false, 0⟩)]
  exact hentries.trans (by with_unfolding_all rfl)

/-- The last record is alone in its bag, which goes with it. -/
theorem removal_spec_lone : ∃ g', (after scattered).removeNth 2 = some (⟨⟨"am."⟩, true, 0⟩, g') ∧
    g'.records.Perm [(.start, ⟨⟨"I"⟩, false, 0⟩), (.start, ⟨⟨"We"⟩, false, 0⟩)] ∧
    ∀ e ∈ g'.bags.entries, (e.1 == ⟨.blank, ⟨"I"⟩⟩) = false := by
  obtain ⟨hlen, hall⟩ := removal_spec scattered
  have hrecords : (after scattered).records = [(.start, ⟨⟨"I"⟩, false, 0⟩),
      (.start, ⟨⟨"We"⟩, false, 0⟩), (⟨.blank, ⟨"I"⟩⟩, ⟨⟨"am."⟩, true, 0⟩)] := by
    rw [records_eq, entries_after_scattered]
    rfl
  have hk : 2 < (after scattered).count := by
    rw [← hlen, hrecords]
    decide
  obtain ⟨p, s, bag, R, hrun⟩ := (hall 2).1 hk
  have hrecord := R.record
  have hperm := R.perm
  rw [hrecords] at hrecord hperm
  obtain ⟨rfl, rfl⟩ : _ = p ∧ _ = s := by simpa using hrecord
  have hleft := (hperm.trans (List.perm_append_singleton _ [_, _])).cons_inv
  have hmem := R.mem_bags
  have hbag : bag = #[⟨⟨"am."⟩, true, 0⟩] := by
    rw [entries_after_scattered] at hmem
    simpa [Prefix.start, Word.blank] using hmem
  exact ⟨_, hrun, hleft, R.gone_iff.2 hbag⟩

end Graph

end ChainScript.Chain
