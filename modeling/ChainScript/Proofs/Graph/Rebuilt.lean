import ChainScript.Proofs.Generator.Learned

/-!
# Graphs made again from their records

The starts of a graph join it one by one, and removals move them around.  While nothing is
removed they stand in the order of the bags, whatever place the bag of the start prefix has.
So a graph from which nothing was removed is made again from its records to the last detail.

## Main definitions

* `Graph.Identical` — graphs with the same parts in the same order.
* `Graph.Orderly` — the starts stand in the order of the bags.

## Main results

* `Graph.Consistent.identical_retainYounger` — an age pass that removes nothing changes nothing.
* `Graph.Consistent.identical_ofRecords` — an orderly graph is the graph of its records.
-/

namespace ChainScript

/-! ### Tallies -/

/-- Counts have one tally. -/
theorem Chain.Tally.Holds.cells_eq {t u : Chain.Tally} {counts : List Nat} (H : t.Holds counts)
    (K : u.Holds counts) : t.cells = u.cells := by
  apply Array.ext_getElem?
  intro i
  by_cases hi : i < counts.length
  · have ht := H.cell (i + 1) (Nat.succ_pos i) hi
    have hu := K.cell (i + 1) (Nat.succ_pos i) hi
    exact ht.trans hu.symm
  · have ht : t.cells.size = counts.length := H.size_eq
    have hu : u.cells.size = counts.length := K.size_eq
    rw [Array.getElem?_eq_none (by omega), Array.getElem?_eq_none (by omega)]

/-! ### Look-ups depend on what is listed -/

section Listed

variable {K V : Type} [BEq K] [Hashable K]

theorem Roster.position?_congr {r s : Roster K} (h : r.members = s.members) (k : K) :
    r.position? k = s.position? k := by
  ext i
  rw [Roster.position?_eq_some_iff, Roster.position?_eq_some_iff, h]

theorem Table.members_congr {t u : Table K V} (h : t.entries = u.entries) :
    t.keys.members = u.keys.members := by
  rw [← Array.toList_inj, ← map_fst_entries, ← map_fst_entries, h]

theorem Table.values_congr {t u : Table K V} (h : t.entries = u.entries) :
    t.values = u.values := by
  rw [← Array.toList_inj, ← map_snd_entries, ← map_snd_entries, h]

theorem Table.position?_congr {t u : Table K V} (h : t.entries = u.entries) (k : K) :
    t.position? k = u.position? k :=
  Roster.position?_congr (members_congr h) k

variable [EquivBEq K] [LawfulHashable K]

theorem Roster.members_insert_congr {r s : Roster K} (h : r.members = s.members) (k : K) :
    (r.insert k).members = (s.insert k).members := by
  rw [← Array.toList_inj]
  cases hr : r.position? k with
  | some i =>
      rw [Roster.insert_of_some hr, Roster.insert_of_some (position?_congr h k ▸ hr), h]
  | none =>
      rw [Roster.toList_insert_of_none hr,
        Roster.toList_insert_of_none (position?_congr h k ▸ hr), h]

theorem Table.entries_update_congr {t u : Table K V} (h : t.entries = u.entries) (k : K)
    (fresh : V) (f : V → V) : (t.update k fresh f).entries = (u.update k fresh f).entries := by
  cases ht : t.position? k with
  | some i =>
      rw [entries_update_of_some ht, entries_update_of_some (position?_congr h k ▸ ht), h]
  | none =>
      rw [entries_update_of_none ht, entries_update_of_none (position?_congr h k ▸ ht), h]

end Listed

namespace Chain.Graph

/-! ### Identical graphs -/

/-- The graphs have the same bags, the same partial sums of their sizes, the same starts and the
same record count, each in the same order. -/
structure Identical (g h : Graph) : Prop where
  entries : g.bags.entries = h.bags.entries
  weights : g.weights.cells = h.weights.cells
  starts : g.starts.members = h.starts.members
  count : g.count = h.count

variable {g h k : Graph} {p : Prefix} {s : Suffix}

namespace Identical

theorem refl (g : Graph) : g.Identical g := ⟨rfl, rfl, rfl, rfl⟩

theorem trans (I : g.Identical h) (J : h.Identical k) : g.Identical k :=
  ⟨I.entries.trans J.entries, I.weights.trans J.weights, I.starts.trans J.starts,
    I.count.trans J.count⟩

theorem insert (I : g.Identical h) (p : Prefix) (s : Suffix) :
    (g.insert p s).Identical (h.insert p s) := by
  have hposition := Table.position?_congr I.entries p
  have hweights : g.weights = h.weights := congrArg Tally.mk I.weights
  refine ⟨?_, ?_, ?_, by rw [count_insert, count_insert, I.count]⟩
  · rw [bags_insert, bags_insert]
    exact Table.entries_update_congr I.entries p #[] _
  · rw [Graph.insert, Graph.insert, hposition, hweights]
    split <;> rfl
  · rw [Graph.insert, Graph.insert, hposition]
    split
    · exact I.starts
    · split
      · exact Roster.members_insert_congr I.starts p
      · exact I.starts

theorem records_eq (I : g.Identical h) : g.records = h.records := by
  rw [Graph.records_eq, Graph.records_eq, I.entries]

theorem successors_eq (I : g.Identical h) (p : Prefix) : g.successors p = h.successors p := by
  rw [Graph.successors, Graph.successors, Table.find?, Table.find?,
    Table.position?_congr I.entries p, Table.values_congr I.entries]

theorem key?_eq (I : g.Identical h) (p : Prefix) : g.key? p = h.key? p := by
  have hmembers := Table.members_congr I.entries
  rw [key?, key?, Roster.find?, Roster.find?, Roster.position?_congr hmembers p, hmembers]

theorem stats_eq (I : g.Identical h) : g.stats = h.stats := by
  have hvalues := Table.values_congr I.entries
  simp only [stats, I.records_eq, hvalues, I.count, Table.size, Roster.size, I.starts]

/-- The file of a graph shows its records, their number and how prefixes are spelled. -/
theorem store_eq (I : g.Identical h) (format : Format) (sink : Sink) :
    g.store format sink = h.store format sink := by
  have hrender : g.render format = h.render format := by
    cases format with
    | text => rw [render, render, I.records_eq]
    | binary => rw [render, render, I.records_eq, I.count]
    | dot =>
        have hline : DotFormat.edgeLine g = DotFormat.edgeLine h := by
          funext e stroke
          rw [DotFormat.edgeLine, DotFormat.edgeLine, I.key?_eq]
        rw [render, render, DotFormat.write, DotFormat.write, DotFormat.drawing,
          DotFormat.drawing, I.records_eq, hline]
  rw [store, store, hrender, I.count]

end Identical

/-! ### The order of the starts -/

/-- The starts are the start prefix and then, in the order of the bags, the other prefixes at a
line's beginning. -/
def Orderly (g : Graph) : Prop :=
  g.starts.members.toList = Prefix.start ::
    g.bags.keys.members.toList.filter fun p => p.beginsLine && !p.isStart

theorem orderly_empty : empty.Orderly := by
  rw [Orderly, empty, Roster.toList_insert_of_none (by simp [Roster.position?, Roster.empty])]
  rfl

theorem Identical.orderly (I : g.Identical h) (O : h.Orderly) : g.Orderly := by
  rw [Orderly, I.starts, Table.members_congr I.entries]
  exact O

/-- A prefix with a first record joins the starts at their end, unless it is the start prefix,
which leads them. -/
theorem Orderly.insert (O : g.Orderly) (p : Prefix) (s : Suffix) : (g.insert p s).Orderly := by
  cases h : g.bags.position? p with
  | some i =>
      have hkeys : (g.insert p s).bags.keys = g.bags.keys := by
        simp [Graph.insert, h, Table.modifyAt]
      have hstarts : (g.insert p s).starts = g.starts := by simp [Graph.insert, h]
      rw [Orderly, hkeys, hstarts]
      exact O
  | none =>
      have hkeys : (g.insert p s).bags.keys.members.toList =
          g.bags.keys.members.toList ++ [p] := by
        rw [← Table.map_fst_entries, bags_insert, Table.entries_update_of_none h,
          List.map_append, Table.map_fst_entries]
        rfl
      have hstarts : (g.insert p s).starts =
          if p.beginsLine then g.starts.insert p else g.starts := by simp [Graph.insert, h]
      rw [Orderly, hkeys, hstarts, List.filter_append]
      cases hline : p.beginsLine with
      | false =>
          have hlast : [p].filter (fun p => p.beginsLine && !p.isStart) = [] := by simp [hline]
          rw [if_neg Bool.false_ne_true, hlast, List.append_nil]
          exact O
      | true =>
          rw [if_pos rfl]
          cases hstart : p.isStart with
          | true =>
              have hlast : [p].filter (fun p => p.beginsLine && !p.isStart) = [] := by
                simp [hstart]
              have hmem : p ∈ g.starts.members := by
                rw [← Array.mem_toList_iff, O, Prefix.isStart_iff.1 hstart]
                exact List.mem_cons_self
              obtain ⟨i, hi⟩ : ∃ i, g.starts.position? p = some i := by
                rw [← Option.ne_none_iff_exists', ne_eq, Roster.position?_eq_none_iff]
                intro hnone
                exact Bool.false_ne_true ((hnone p hmem).symm.trans BEq.rfl)
              rw [Roster.insert_of_some hi, hlast, List.append_nil]
              exact O
          | false =>
              have hlast : [p].filter (fun p => p.beginsLine && !p.isStart) = [p] := by
                simp [hline, hstart]
              have hnone : g.starts.position? p = none := by
                rw [Roster.position?_eq_none_iff]
                intro m hm
                rw [← Array.mem_toList_iff, O] at hm
                cases hm with
                | head => rw [BEq.comm, Prefix.beq_start, hstart]
                | tail _ hm =>
                    have hkey := (List.mem_filter.1 hm).1
                    rw [Array.mem_toList_iff] at hkey
                    exact Roster.position?_eq_none_iff.1 h m hkey
              rw [Roster.toList_insert_of_none hnone, O, hlast, List.cons_append]

theorem orderly_ofRecords (rs : List Record) : (ofRecords rs).Orderly := by
  have hall : ∀ g : Graph, g.Orderly → (g.insertAll rs).Orderly := by
    induction rs with
    | nil => exact fun _ O => O
    | cons r rs ih => exact fun g O => ih _ (O.insert r.1 r.2)
  exact hall empty orderly_empty

/-- Consistent orderly graphs with the same bags are identical. -/
theorem Consistent.identical (C : g.Consistent) (D : h.Consistent) (O : g.Orderly)
    (P : h.Orderly) (hentries : g.bags.entries = h.bags.entries) : g.Identical h := by
  have hsizes : g.sizes = h.sizes := by rw [sizes, sizes, hentries]
  refine ⟨hentries, ?_, ?_, by rw [C.count_eq, D.count_eq, hsizes]⟩
  · exact C.weights.cells_eq (hsizes ▸ D.weights)
  · rw [← Array.toList_inj, O, P, Table.members_congr hentries]

/-- **An orderly graph is made again from its records, the order of its starts included.** -/
theorem Consistent.identical_ofRecords (C : g.Consistent) (O : g.Orderly) :
    (ofRecords g.records).Identical g :=
  (built_ofRecords g.records).consistent.identical C (orderly_ofRecords _) O C.entries_ofRecords

/-! ### Removals that remove nothing -/

/-- An age pass that keeps the number of records keeps the graph. -/
theorem Consistent.identical_retainYounger (C : g.Consistent) {cutoff : Instant}
    (h : (g.retainYounger cutoff).count = g.count) : (g.retainYounger cutoff).Identical g := by
  have D := C.retainYounger cutoff
  have hlength : ((g.records.filter fun r => cutoff ≤ r.2.createdAt)).length =
      g.records.length := by
    rw [← records_retainYounger, D.length_records, C.length_records, h]
  have hyoung : ∀ r ∈ g.records, cutoff ≤ r.2.createdAt := by
    intro r hr
    have hall := List.length_filter_eq_length_iff.1 hlength r hr
    exact of_decide_eq_true hall
  have S := C.same_retainYounger hyoung
  have hsizes : (g.retainYounger cutoff).sizes = g.sizes := by rw [sizes, sizes, S.entries]
  refine ⟨S.entries, D.weights.cells_eq (hsizes ▸ C.weights), ?_, h⟩
  -- No bag has emptied, so no start is dropped.
  have hnone : ((g.bags.mapValues (young cutoff)).entries.filter (·.2.isEmpty)).map (·.1) = [] := by
    rw [List.map_eq_nil_iff, List.filter_eq_nil_iff]
    intro e he hempty
    rw [Table.entries_mapValues, List.mem_map] at he
    obtain ⟨e, he, rfl⟩ := he
    have hpos := C.size_pos _ (List.mem_map_of_mem he)
    have hfull : young cutoff e.2 = e.2 := by
      rw [young, Array.filter_eq_self]
      intro s hs
      exact decide_eq_true (hyoung (e.1, s)
        (List.mem_flatMap.2 ⟨e, he, List.mem_map_of_mem (Array.mem_toList_iff.2 hs)⟩))
    have hzero : e.2.size = 0 := by simpa [hfull] using hempty
    omega
  have hstarts : (g.retainYounger cutoff).starts =
      (((g.bags.mapValues (young cutoff)).entries.filter (·.2.isEmpty)).map (·.1)).foldl
        dropStart g.starts := rfl
  rw [hstarts, hnone]
  rfl

end Chain.Graph

end ChainScript
