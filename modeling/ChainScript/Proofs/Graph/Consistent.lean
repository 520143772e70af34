import ChainScript.Chain.Graph
import ChainScript.Proofs.Ordered.Entries
import ChainScript.Proofs.Tally.Counts

/-!
# Consistent graphs

The bags, the tally of their sizes, the starts and the record count of a graph are changed one
by one.  A graph is consistent when they agree; every operation keeps that, and says what it
does through the entries of the bags.

## Main definitions

* `Graph.sizes` — the sizes of the bags.
* `Graph.Consistent` — the parts of the graph agree.
* `Graph.Removed` — what the removal of one record leaves.
-/

namespace ChainScript.Chain

/-! ### The start prefix -/

theorem Word.isBlank_iff {w : Word} : w.isBlank = true ↔ w = blank := by
  cases w
  simp [isBlank, blank]

theorem Word.beq_blank (w : Word) : (w == blank) = w.isBlank := by
  rw [Bool.eq_iff_iff, beq_iff, isBlank_iff]
  constructor
  · intro h
    have hlist := congrArg String.toList h
    simp only [Text.toList_fold, blank, String.toList_empty, List.map_nil, List.map_eq_nil_iff,
      String.toList_eq_nil_iff] at hlist
    cases w
    simpa [blank] using hlist
  · rintro rfl
    rfl

theorem Prefix.isStart_iff {p : Prefix} : p.isStart = true ↔ p = start := by
  cases p
  simp [isStart, start, Word.isBlank_iff]

theorem Prefix.beq_shift {p q : Prefix} {v w : Word} (hp : (p == q) = true)
    (hw : (v == w) = true) : (p.shift v == q.shift w) = true :=
  beq_iff.2 ⟨(beq_iff.1 hp).2, hw⟩

theorem Prefix.beq_start (p : Prefix) : (p == start) = p.isStart := by
  rw [Bool.eq_iff_iff, beq_iff]
  simp [start, isStart, Word.beq_blank]

/-- The folded spellings of the two words. -/
def Prefix.folded (p : Prefix) : String × String := (Text.fold p.older.text, Text.fold p.newer.text)

/-- Prefixes are equal just when they are the same up to case. -/
theorem Prefix.beq_iff_folded {p q : Prefix} : (p == q) = true ↔ p.folded = q.folded := by
  rw [beq_iff, Word.beq_iff, Word.beq_iff, folded, folded, Prod.mk.injEq]

theorem Prefix.nodup_folded {ps : List Prefix} : (ps.map folded).Nodup ↔ Distinct ps := by
  rw [List.Nodup, List.pairwise_map, Distinct]
  simp only [ne_eq, ← beq_iff_folded, Bool.not_eq_true]

namespace Graph

/-- The sizes of the bags, in order. -/
def sizes (g : Graph) : List Nat := g.bags.entries.map (·.2.size)

/-- The parts of a graph agree. -/
structure Consistent (g : Graph) : Prop where
  /-- No bag is empty. -/
  size_pos : ∀ n ∈ g.sizes, 0 < n
  weights : g.weights.Holds g.sizes
  count_eq : g.count = g.sizes.sum
  start_mem : Prefix.start ∈ g.starts.members
  /-- The other starts are the prefixes with a bag that lie at a line's beginning. -/
  mem_starts : ∀ p : Prefix, p.isStart = false →
    (p ∈ g.starts.members ↔ p ∈ g.bags.keys.members ∧ p.beginsLine = true)

theorem mem_keys {g : Graph} {p : Prefix} :
    p ∈ g.bags.keys.members ↔ ∃ e ∈ g.bags.entries, e.1 = p := by
  rw [← Array.mem_toList_iff, ← Table.map_fst_entries, List.mem_map]

theorem consistent_empty : empty.Consistent where
  size_pos := by intro n hn; cases hn
  weights := Tally.holds_empty
  count_eq := rfl
  start_mem := by
    rw [← Array.mem_toList_iff, empty, Roster.toList_insert_of_none (by simp [Roster.position?,
      Roster.empty])]
    simp
  mem_starts := by
    intro p hp
    rw [← Array.mem_toList_iff, empty, Roster.toList_insert_of_none (by simp [Roster.position?,
      Roster.empty])]
    simp only [Roster.toList_empty, List.nil_append, List.mem_singleton]
    constructor
    · rintro rfl
      cases hp
    · rintro ⟨h, -⟩
      obtain ⟨e, he, -⟩ := (mem_keys (g := empty)).1 h
      cases he

variable {g : Graph}

/-! ### Insertion -/

theorem bags_insert (g : Graph) (p : Prefix) (s : Suffix) :
    (g.insert p s).bags = g.bags.update p #[] (·.push s) := by
  rw [insert]
  split
  · next i h => rw [Table.update_of_some h]
  · rfl

theorem count_insert (g : Graph) (p : Prefix) (s : Suffix) :
    (g.insert p s).count = g.count + 1 := by
  rw [insert]
  split <;> rfl

theorem Consistent.insert (C : g.Consistent) (p : Prefix) (s : Suffix) :
    (g.insert p s).Consistent := by
  cases h : g.bags.position? p with
  | some i =>
      obtain ⟨e, he, hep⟩ := Table.position?_eq_some_iff.1 h
      have hentries := Table.entries_update_of_some h #[] (·.push s)
      rw [← bags_insert] at hentries
      have hi : i < g.sizes.length := by
        rw [sizes, List.length_map]
        exact (List.getElem?_eq_some_iff.1 he).1
      have hsizes : (g.insert p s).sizes = g.sizes.set i (g.sizes[i] + 1) := by
        rw [sizes, hentries, map_modify (k := (· + 1)) _ (fun e => by simp), ← sizes]
        exact List.modify_eq_set_get _ hi
      have hsum := sum_set hi (g.sizes[i] + 1)
      have hkeys : (g.insert p s).bags.keys = g.bags.keys := by
        simp [Graph.insert, h, Table.modifyAt]
      have hstarts : (g.insert p s).starts = g.starts := by simp [Graph.insert, h]
      have hweights : (g.insert p s).weights = g.weights.increment i := by simp [Graph.insert, h]
      refine ⟨?_, ?_, ?_, ?_, ?_⟩
      · rw [hsizes]
        intro n hn
        rcases List.mem_or_eq_of_mem_set hn with hn | rfl
        · exact C.size_pos n hn
        · omega
      · rw [hweights, hsizes]
        exact Tally.increment_spec C.weights hi
      · rw [count_insert, hsizes, C.count_eq]
        omega
      · rw [hstarts]
        exact C.start_mem
      · rw [hstarts, hkeys]
        exact C.mem_starts
  | none =>
      have hentries := Table.entries_update_of_none h #[] (·.push s)
      rw [← bags_insert] at hentries
      have hsizes : (g.insert p s).sizes = g.sizes ++ [1] := by simp [sizes, hentries]
      have hkeys : ∀ q, q ∈ (g.insert p s).bags.keys.members ↔ q ∈ g.bags.keys.members ∨ q = p := by
        intro q
        simp [mem_keys, hentries, or_and_right, exists_or, eq_comm]
      have hstarts : (g.insert p s).starts =
          if p.beginsLine then g.starts.insert p else g.starts := by simp [Graph.insert, h]
      have hweights : (g.insert p s).weights = g.weights.push 1 := by simp [Graph.insert, h]
      refine ⟨?_, ?_, ?_, ?_, ?_⟩
      · rw [hsizes]
        intro n hn
        rcases List.mem_append.1 hn with hn | hn
        · exact C.size_pos n hn
        · simp_all
      · rw [hweights, hsizes]
        exact Tally.push_spec C.weights 1
      · rw [count_insert, hsizes, C.count_eq]
        simp
      · rw [hstarts]
        split
        · exact Roster.mem_insert.2 (.inl C.start_mem)
        · exact C.start_mem
      · intro q hq
        rw [hstarts, hkeys]
        split
        · next hp =>
          rw [Roster.mem_insert, C.mem_starts q hq]
          constructor
          · rintro (⟨hmem, hb⟩ | ⟨rfl, -⟩)
            · exact ⟨.inl hmem, hb⟩
            · exact ⟨.inr rfl, hp⟩
          · rintro ⟨hmem | rfl, hb⟩
            · exact .inl ⟨hmem, hb⟩
            -- A start that equals the new prefix would have a bag.
            · refine .inr ⟨rfl, Roster.position?_eq_none_iff.2 ?_⟩
              intro m hm
              by_contra hmq
              have hmq : (m == q) = true := by simpa using hmq
              have hstart : m.isStart = false := by
                rw [← Prefix.beq_start, BEq.congr_left hmq, Prefix.beq_start, hq]
              obtain ⟨e, he, rfl⟩ := mem_keys.1 ((C.mem_starts m hstart).1 hm).1
              rw [Table.position?_eq_none_iff.1 h e he] at hmq
              cases hmq
        · next hp =>
          rw [C.mem_starts q hq]
          constructor
          · rintro ⟨hmem, hb⟩
            exact ⟨.inl hmem, hb⟩
          · rintro ⟨hmem | rfl, hb⟩
            · exact ⟨hmem, hb⟩
            · exact absurd hb hp

/-! ### Removal of one record -/

theorem toList_swapRemoveSuffix (bag : Array Suffix) (i : Nat) :
    (swapRemoveSuffix bag i).toList = swapErase bag.toList i := by
  rw [swapRemoveSuffix]
  split
  · next hi => exact toList_pop_swap hi _
  · next hi => rw [swapErase_of_ge (by simpa using hi)]

theorem size_swapRemoveSuffix {bag : Array Suffix} {i : Nat} (hi : i < bag.size) :
    (swapRemoveSuffix bag i).size = bag.size - 1 := by
  rw [swapRemoveSuffix, dif_pos hi]
  simp

theorem mem_dropStart {starts : Roster Prefix} {p q : Prefix} :
    p ∈ (dropStart starts q).members ↔
      p ∈ starts.members ∧ (q.isStart = true ∨ (p == q) = false) := by
  rw [dropStart]
  split
  · next hq => simp [hq]
  · next hq => simp [Roster.mem_swapRemove, hq]

/-- The tally without a count, whose place the last count takes. -/
theorem removeCount_spec {t : Tally} {counts : List Nat} (H : t.Holds counts) {i : Nat}
    (hi : i < counts.length) :
    (if i = counts.length - 1 then t else t.set i (t.get (counts.length - 1))).pop.Holds
      (swapErase counts i) := by
  rw [swapErase_of_lt hi]
  split
  · next hlast =>
    subst hlast
    rw [List.set_getElem_self]
    exact Tally.pop_spec H
  · rw [Tally.get_spec H (by omega)]
    exact Tally.pop_spec (Tally.set_spec H hi _)

/-- What the removal of the record at `offset` in bag `i` leaves.  A bag with one record goes as
a whole, and with it the start that its prefix may be. -/
structure Removed (g g' : Graph) (i offset : Nat) (p : Prefix) (bag : Array Suffix) : Prop where
  entries : g'.bags.entries =
    if bag.size = 1 then swapErase g.bags.entries i
    else g.bags.entries.modify i fun e => (e.1, swapRemoveSuffix e.2 offset)
  starts : g'.starts = if bag.size = 1 then dropStart g.starts p else g.starts
  weights : g'.weights.Holds g'.sizes
  count_eq : g'.count = g.count - 1

/-- The bags that are left: those of other prefixes, and the addressed one unless it has
emptied. -/
theorem Removed.mem_entries {g' : Graph} {i offset : Nat} {p : Prefix} {bag : Array Suffix}
    (R : Removed g g' i offset p bag) (he : g.bags.entries[i]? = some (p, bag))
    {e : Prefix × Array Suffix} :
    e ∈ g'.bags.entries ↔ (e ∈ g.bags.entries ∧ (e.1 == p) = false) ∨
      (bag.size ≠ 1 ∧ e = (p, swapRemoveSuffix bag offset)) := by
  rw [R.entries]
  split
  · next hone => simp [Table.mem_swapErase_entries he, hone]
  · next hone =>
    have hmem : (p, bag) ∈ g.bags.entries := List.mem_of_getElem? he
    have hpos : g.bags.position? p = some i := Table.position?_eq_some_iff.2 ⟨_, he, BEq.rfl⟩
    have hmap := Table.modify_entries_eq_map hpos (swapRemoveSuffix · offset)
    rw [hmap, List.mem_map]
    constructor
    · rintro ⟨e₀, he₀, rfl⟩
      by_cases hp : (e₀.1 == p) = true
      · obtain rfl : e₀ = (p, bag) := Table.eq_of_beq he₀ hmem hp
        exact .inr ⟨hone, by simp⟩
      · exact .inl ⟨by simpa [hp] using he₀, by simp [hp]⟩
    · rintro (⟨hmem', hp⟩ | ⟨-, rfl⟩)
      · exact ⟨e, hmem', by simp [hp]⟩
      · exact ⟨_, hmem, by simp⟩

/-- The graph without the record at `offset` in bag `i`, whose bag stays even if it is empty. -/
def shrink (g : Graph) (i offset : Nat) : Graph :=
  { g with
    bags := g.bags.modifyAt i (swapRemoveSuffix · offset)
    weights := g.weights.decrement i
    count := g.count - 1 }

theorem entries_shrink (g : Graph) (i offset : Nat) :
    (g.shrink i offset).bags.entries =
      g.bags.entries.modify i fun e => (e.1, swapRemoveSuffix e.2 offset) :=
  Table.entries_modifyAt ..

section Shrink

variable {i offset : Nat} {p : Prefix} {bag : Array Suffix}

theorem sizes_shrink (he : g.bags.entries[i]? = some (p, bag)) (hoff : offset < bag.size) :
    (g.shrink i offset).sizes = g.sizes.set i (bag.size - 1) := by
  apply List.ext_getElem?
  intro j
  obtain ⟨hi, hget⟩ := List.getElem?_eq_some_iff.1 he
  rw [sizes, entries_shrink, List.getElem?_map, List.getElem?_modify, List.getElem?_set, sizes,
    List.length_map, List.getElem?_map]
  by_cases hij : i = j
  · subst hij
    simp [hi, hget, size_swapRemoveSuffix hoff]
  · simp [hij]

theorem holds_shrink (C : g.Consistent) (he : g.bags.entries[i]? = some (p, bag))
    (hoff : offset < bag.size) : (g.shrink i offset).weights.Holds (g.shrink i offset).sizes := by
  obtain ⟨hlen, hget⟩ := List.getElem?_eq_some_iff.1 he
  have hi : i < g.sizes.length := by simpa [sizes] using hlen
  have hsize : g.sizes[i] = bag.size := by simp [sizes, hget]
  rw [sizes_shrink he hoff, ← hsize]
  exact Tally.decrement_spec C.weights hi (by omega)

theorem removed_of_emptied (C : g.Consistent) (he : g.bags.entries[i]? = some (p, bag))
    (hoff : offset < bag.size) (hone : bag.size = 1) :
    Removed g ((g.shrink i offset).removeBag i) i offset p bag := by
  obtain ⟨hlen, -⟩ := List.getElem?_eq_some_iff.1 he
  have hbags : ((g.shrink i offset).removeBag i).bags.entries = swapErase g.bags.entries i := by
    rw [removeBag, Table.entries_swapRemoveAt, entries_shrink, swapErase_modify]
  have hkey : (g.shrink i offset).bags.keys.members[i]? = some p := by
    rw [Table.getElem?_keys, entries_shrink, List.getElem?_modify_eq, he]
    rfl
  have hsize : (g.shrink i offset).bags.size = (g.shrink i offset).sizes.length := by
    rw [sizes, List.length_map, Table.length_entries]
  refine ⟨by rw [if_pos hone, hbags], ?_, ?_, rfl⟩
  · rw [if_pos hone, removeBag, hkey]
    rfl
  · have hi : i < (g.shrink i offset).sizes.length := by
      rw [sizes_shrink he hoff, List.length_set, sizes, List.length_map]
      exact hlen
    rw [sizes, hbags, map_swapErase, ← sizes, ← swapErase_modify (f := fun _ => bag.size - 1),
      List.modify_eq_set_get _ (by simpa [sizes] using hlen), ← sizes_shrink he hoff, removeBag,
      hsize]
    exact removeCount_spec (holds_shrink C he hoff) hi

end Shrink

/-- The record at position `k` is found in the bag that takes `k` in, and removed from it. -/
theorem removeNth_spec (C : g.Consistent) {k : Nat} (hk : k < g.count) :
    ∃ i offset p bag s g', g.removeNth k = some (s, g') ∧
      g.bags.entries[i]? = some (p, bag) ∧ bag[offset]? = some s ∧
      (g.sizes.take i).sum + offset = k ∧ Removed g g' i offset p bag := by
  obtain ⟨i, offset, hloc, hi, hsum, hoff⟩ := Tally.locate_spec C.weights (C.count_eq ▸ hk)
  have hlen : i < g.bags.entries.length := by simpa [sizes] using hi
  obtain ⟨p, bag, he⟩ : ∃ p bag, g.bags.entries[i] = (p, bag) := ⟨_, _, rfl⟩
  have hentry : g.bags.entries[i]? = some (p, bag) := by rw [List.getElem?_eq_getElem hlen, he]
  have hbag : g.bags.values[i]? = some bag := by rw [Table.getElem?_values, hentry]; rfl
  have hoff : offset < bag.size := by simpa [sizes, he] using hoff
  have hsuffix : bag[offset]? = some bag[offset] := Array.getElem?_eq_getElem hoff
  have hrun : g.removeNth k = some (bag[offset],
      if bag.size == 1 then (g.shrink i offset).removeBag i else g.shrink i offset) := by
    simp only [removeNth, guard, hk, if_true, hloc, hbag, hsuffix, Option.pure_def,
      Option.bind_eq_bind, Option.bind_some]
    rfl
  refine ⟨i, offset, p, bag, _, _, hrun, hentry, hsuffix, hsum, ?_⟩
  by_cases hone : bag.size = 1
  · rw [if_pos (by simpa using hone)]
    exact removed_of_emptied C hentry hoff hone
  · rw [if_neg (by simpa using hone)]
    exact ⟨by rw [if_neg hone, entries_shrink], by rw [if_neg hone]; rfl,
      holds_shrink C hentry hoff, rfl⟩

/-- The first record is removed with its bag, if it is alone in it. -/
theorem Consistent.exists_removeNth_zero (C : g.Consistent) {p : Prefix}
    {s : Suffix} {es : List (Prefix × Array Suffix)} (h : g.bags.entries = (p, #[s]) :: es) :
    ∃ g', g.removeNth 0 = some (s, g') ∧ g'.bags.entries = swapErase ((p, #[s]) :: es) 0 ∧
      g'.count = g.count - 1 := by
  have hsizes : g.sizes = 1 :: es.map (·.2.size) := by rw [sizes, h]; rfl
  have hpos : 0 < g.count := by rw [C.count_eq, hsizes, List.sum_cons]; omega
  obtain ⟨i, offset, q, bag, t, g', hrun, hentry, hsuffix, hsum, R⟩ := removeNth_spec C hpos
  obtain rfl : i = 0 := by
    cases i with
    | zero => rfl
    | succ i =>
        rw [hsizes, List.take_succ_cons, List.sum_cons] at hsum
        omega
  obtain rfl : offset = 0 := by simpa using hsum
  obtain ⟨rfl, rfl⟩ : p = q ∧ #[s] = bag := by simpa [h] using hentry
  obtain rfl : s = t := Option.some.inj hsuffix
  have hentries := R.entries
  rw [if_pos (show #[s].size = 1 from rfl), h] at hentries
  exact ⟨g', hrun, hentries, R.count_eq⟩

theorem Consistent.removed {g' : Graph} {i offset : Nat} {p : Prefix} {bag : Array Suffix}
    (C : g.Consistent) (he : g.bags.entries[i]? = some (p, bag)) (hoff : offset < bag.size)
    (R : Removed g g' i offset p bag) : g'.Consistent := by
  obtain ⟨hlen, hget⟩ := List.getElem?_eq_some_iff.1 he
  have hi : i < g.sizes.length := by simpa [sizes] using hlen
  have hsize : g.sizes[i] = bag.size := by simp [sizes, hget]
  by_cases hone : bag.size = 1
  · have hentries := R.entries
    have hstarts := R.starts
    rw [if_pos hone] at hentries hstarts
    have hsizes : g'.sizes = swapErase g.sizes i := by
      rw [sizes, hentries, map_swapErase, ← sizes]
    have hperm := cons_swapErase_perm hi
    have hkeys : ∀ q, q ∈ g'.bags.keys.members ↔ q ∈ g.bags.keys.members ∧ (q == p) = false := by
      intro q
      have hik : i < (g.bags.entries.map Prod.fst).length := by simpa using hlen
      have hp : (g.bags.entries.map Prod.fst)[i] = p := by simp [hget]
      rw [← Array.mem_toList_iff, ← Table.map_fst_entries, hentries, map_swapErase,
        g.bags.distinct_entries.mem_swapErase hik, hp, Table.map_fst_entries,
        Array.mem_toList_iff]
    refine ⟨?_, R.weights, ?_, ?_, ?_⟩
    · rw [hsizes]
      intro n hn
      exact C.size_pos n (hperm.subset (List.mem_cons_of_mem _ hn))
    · have hsum := hperm.sum_eq
      rw [List.sum_cons, ← C.count_eq] at hsum
      rw [R.count_eq, hsizes]
      omega
    · rw [hstarts, mem_dropStart]
      refine ⟨C.start_mem, ?_⟩
      rw [BEq.comm, Prefix.beq_start]
      cases p.isStart <;> simp
    · intro q hq
      rw [hstarts, mem_dropStart, C.mem_starts q hq, hkeys]
      have hstart : p.isStart = true → (q == p) = false := by
        intro hp
        rw [Prefix.isStart_iff.1 hp, Prefix.beq_start, hq]
      constructor
      · rintro ⟨⟨hmem, hb⟩, hp | hqp⟩
        · exact ⟨⟨hmem, hstart hp⟩, hb⟩
        · exact ⟨⟨hmem, hqp⟩, hb⟩
      · rintro ⟨⟨hmem, hqp⟩, hb⟩
        exact ⟨⟨hmem, hb⟩, .inr hqp⟩
  · have hentries := R.entries
    have hstarts := R.starts
    rw [if_neg hone] at hentries hstarts
    have hsizes : g'.sizes = g.sizes.set i (bag.size - 1) := by
      rw [sizes, hentries, ← entries_shrink, ← sizes, sizes_shrink he hoff]
    have hkeys : ∀ q, q ∈ g'.bags.keys.members ↔ q ∈ g.bags.keys.members := by
      intro q
      rw [← Array.mem_toList_iff, ← Table.map_fst_entries, hentries, ← entries_shrink,
        Table.map_fst_entries, Array.mem_toList_iff]
      rfl
    refine ⟨?_, R.weights, ?_, ?_, ?_⟩
    · rw [hsizes]
      intro n hn
      rcases List.mem_or_eq_of_mem_set hn with hn | rfl
      · exact C.size_pos n hn
      · omega
    · have hsum := sum_set hi (bag.size - 1)
      rw [R.count_eq, hsizes, C.count_eq]
      omega
    · rw [hstarts]
      exact C.start_mem
    · intro q hq
      rw [hstarts, hkeys]
      exact C.mem_starts q hq

theorem Consistent.removeNth (C : g.Consistent) {k : Nat} {s : Suffix} {g' : Graph}
    (h : g.removeNth k = some (s, g')) : g'.Consistent := by
  have hk : k < g.count := by
    by_contra hk
    simp [Graph.removeNth, guard, hk] at h
  obtain ⟨i, offset, p, bag, s', g'', hrun, he, hs, -, R⟩ := removeNth_spec C hk
  obtain ⟨rfl, rfl⟩ : s' = s ∧ g'' = g' := by simpa [hrun] using h
  exact C.removed he (Array.getElem?_eq_some_iff.1 hs).1 R

/-! ### Ageing -/

/-- The bag without the records created before the cutoff. -/
def young (cutoff : Instant) (bag : Array Suffix) : Array Suffix :=
  bag.filter (cutoff ≤ ·.createdAt)

theorem entries_retainYounger (g : Graph) (cutoff : Instant) :
    (g.retainYounger cutoff).bags.entries =
      (g.bags.entries.map fun e => (e.1, young cutoff e.2)).filter (! ·.2.isEmpty) := by
  rw [retainYounger, Table.entries_filter, Table.entries_mapValues]
  rfl

theorem sizes_retainYounger (g : Graph) (cutoff : Instant) :
    (g.retainYounger cutoff).sizes =
      (g.retainYounger cutoff).bags.values.toList.map (·.size) := by
  rw [sizes, ← Table.map_snd_entries, List.map_map]
  rfl

theorem mem_foldl_dropStart {starts : Roster Prefix} {ps : List Prefix} {p : Prefix} :
    p ∈ (ps.foldl dropStart starts).members ↔
      p ∈ starts.members ∧ ∀ q ∈ ps, q.isStart = true ∨ (p == q) = false := by
  induction ps generalizing starts with
  | nil => simp
  | cons q ps ih =>
      rw [List.foldl_cons, ih, mem_dropStart, List.forall_mem_cons, and_assoc]

theorem mem_starts_retainYounger {g : Graph} {cutoff : Instant} {p : Prefix} :
    p ∈ (g.retainYounger cutoff).starts.members ↔ p ∈ g.starts.members ∧
      ∀ e ∈ g.bags.entries, young cutoff e.2 = #[] → e.1.isStart = true ∨ (p == e.1) = false := by
  rw [retainYounger, mem_foldl_dropStart, Table.entries_mapValues]
  apply and_congr_right
  intro _
  simp only [List.mem_map, List.mem_filter, Array.isEmpty_iff]
  constructor
  · intro h e he hempty
    exact h e.1 ⟨_, ⟨⟨e, he, rfl⟩, hempty⟩, rfl⟩
  · rintro h q ⟨-, ⟨⟨e, he, rfl⟩, hempty⟩, rfl⟩
    exact h e he hempty

theorem Consistent.retainYounger (C : g.Consistent) (cutoff : Instant) :
    (g.retainYounger cutoff).Consistent where
  size_pos := by
    intro n hn
    rw [sizes, entries_retainYounger] at hn
    obtain ⟨e, he, rfl⟩ := List.mem_map.1 hn
    have hne := (List.mem_filter.1 he).2
    rw [Array.size_pos_iff]
    simpa using hne
  weights := by
    rw [sizes_retainYounger]
    exact Tally.ofList_spec _
  count_eq := by
    rw [sizes_retainYounger]
    rfl
  start_mem := by
    refine mem_starts_retainYounger.2 ⟨C.start_mem, ?_⟩
    intro e _ _
    rw [BEq.comm, Prefix.beq_start]
    cases e.1.isStart <;> simp
  mem_starts := by
    intro p hp
    rw [mem_starts_retainYounger, C.mem_starts p hp, and_right_comm]
    apply and_congr_left
    intro _
    simp only [mem_keys, entries_retainYounger, List.mem_filter, List.mem_map]
    constructor
    · rintro ⟨⟨e, he, rfl⟩, hall⟩
      refine ⟨_, ⟨⟨e, he, rfl⟩, ?_⟩, rfl⟩
      by_contra hempty
      rcases hall e he (by simpa using hempty) with h | h
      · simp [h] at hp
      · simp at h
    · rintro ⟨-, ⟨⟨e, he, rfl⟩, hne⟩, rfl⟩
      refine ⟨⟨e, he, rfl⟩, fun e' he' hempty => .inr ?_⟩
      by_contra hbeq
      obtain rfl := Table.eq_of_beq he he' (by simpa using hbeq)
      simp [hempty] at hne

end Graph

end ChainScript.Chain
