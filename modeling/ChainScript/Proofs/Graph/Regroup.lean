import ChainScript.Chain.Stats
import ChainScript.Proofs.Graph.Consistent

/-!
# Graphs from lists of records

The graph of a list of records groups the list by prefixes.  The records of a consistent graph
are grouped already, so the graph that is made from them has the same bags and, up to their
order, the same starts.

## Main definitions

* `grouped` — a list of records, prefix by prefix.
* `Graph.Same` — two graphs have the same bags and starts.
-/

namespace ChainScript.Chain

/-! ### Grouping -/

/-- The records by prefix: prefixes in the order of their first records and spelled as there,
and the records of a prefix in order. -/
def grouped (rs : List Record) : List Record :=
  (rs.map (·.1)).eraseDups.flatMap fun p => (rs.filter (·.1 == p)).map fun r => (p, r.2)

/-- Prefixes and suffixes come from the list. -/
theorem mem_grouped {rs : List Record} {r : Record} (h : r ∈ grouped rs) :
    (∃ a ∈ rs, a.1 = r.1) ∧ ∃ b ∈ rs, b.2 = r.2 := by
  obtain ⟨p, hp, hr⟩ := List.mem_flatMap.1 h
  obtain ⟨b, hb, rfl⟩ := List.mem_map.1 hr
  exact ⟨List.mem_map.1 (mem_of_mem_eraseDups hp), b, (List.mem_filter.1 hb).1, rfl⟩

/-- The records of a bag. -/
def bagRecords (e : Prefix × Array Suffix) : List Record := e.2.toList.map (e.1, ·)

section BagRecords

variable {es : List (Prefix × Array Suffix)}

theorem filter_bagRecords (e : Prefix × Array Suffix) (p : Prefix) :
    (bagRecords e).filter (·.1 == p) = if e.1 == p then bagRecords e else [] := by
  rw [bagRecords, List.filter_map]
  by_cases h : (e.1 == p) = true
  · simp [h, Function.comp_def]
  · simp [h, Function.comp_def]

theorem filter_flatMap_of_all_ne {p : Prefix} (h : ∀ e ∈ es, (e.1 == p) = false) :
    (es.flatMap bagRecords).filter (·.1 == p) = [] := by
  rw [List.filter_flatMap, List.flatMap_eq_nil_iff]
  intro e he
  rw [filter_bagRecords, h e he]
  rfl

/-- Among the records of bags with different prefixes, those of one prefix are its bag. -/
theorem filter_flatMap_bagRecords (hd : Distinct (es.map Prod.fst)) {e : Prefix × Array Suffix}
    (he : e ∈ es) : (es.flatMap bagRecords).filter (·.1 == e.1) = bagRecords e := by
  induction es with
  | nil => cases he
  | cons e' es ih =>
      have hne := (List.pairwise_cons.1 hd).1
      rw [List.flatMap_cons, List.filter_append, filter_bagRecords]
      cases he with
      | head =>
          have hrest : ∀ e' ∈ es, (e'.1 == e.1) = false := fun e' he' =>
            beq_eq_false_comm.1 (hne _ (List.mem_map_of_mem he'))
          rw [filter_flatMap_of_all_ne hrest]
          simp
      | tail _ he =>
          rw [hne _ (List.mem_map_of_mem he), ih (List.Pairwise.of_cons hd) he]
          rfl

/-- Bags that are not empty show their prefixes in order. -/
theorem eraseDups_flatMap_bagRecords (hd : Distinct (es.map Prod.fst))
    (hpos : ∀ e ∈ es, 0 < e.2.size) :
    ((es.flatMap bagRecords).map (·.1)).eraseDups = es.map Prod.fst := by
  induction es with
  | nil => rfl
  | cons e es ih =>
      have hne := (List.pairwise_cons.1 hd).1
      have hsize := hpos e List.mem_cons_self
      obtain ⟨n, hn⟩ : ∃ n, e.2.size = n + 1 := ⟨e.2.size - 1, by omega⟩
      have hbag : (bagRecords e).map (·.1) = e.1 :: List.replicate n e.1 := by
        rw [← List.replicate_succ, ← hn, bagRecords, List.map_map, Function.comp_def,
          List.map_const', Array.length_toList]
      have hsame : (List.replicate n e.1).filter (fun q => !q == e.1) = [] := by
        rw [List.filter_eq_nil_iff]
        intro q hq
        simp [List.eq_of_mem_replicate hq]
      have hother : ((es.flatMap bagRecords).map (·.1)).filter (fun q => !q == e.1) =
          (es.flatMap bagRecords).map (·.1) := by
        rw [List.filter_eq_self]
        intro q hq
        obtain ⟨r, hr, rfl⟩ := List.mem_map.1 hq
        obtain ⟨e', he', hr⟩ := List.mem_flatMap.1 hr
        obtain ⟨s, -, rfl⟩ := List.mem_map.1 hr
        simp [beq_eq_false_comm.1 (hne _ (List.mem_map_of_mem he'))]
      rw [List.flatMap_cons, List.map_append, hbag, List.cons_append, List.eraseDups_cons,
        List.filter_append, hsame, List.nil_append, hother,
        ih (List.Pairwise.of_cons hd) fun e' he' => hpos e' (List.mem_cons_of_mem _ he')]
      rfl

end BagRecords

namespace Graph

theorem records_eq (g : Graph) : g.records = g.bags.entries.flatMap bagRecords := rfl

theorem bags_ofRecords (rs : List Record) :
    (ofRecords rs).bags = rs.foldl (fun t r => t.update r.1 #[] (·.push r.2)) Table.empty := by
  have hfold : ∀ g : Graph, (rs.foldl (fun g r => g.insert r.1 r.2) g).bags =
      rs.foldl (fun t r => t.update r.1 #[] (·.push r.2)) g.bags := by
    induction rs with
    | nil => exact fun _ => rfl
    | cons r rs ih =>
        intro g
        rw [List.foldl_cons, List.foldl_cons, ih, bags_insert]
  exact hfold empty

theorem entries_ofRecords (rs : List Record) :
    (ofRecords rs).bags.entries = (rs.map (·.1)).eraseDups.map fun p =>
      (p, ((rs.filter (·.1 == p)).map (·.2)).toArray) := by
  have hpush : ∀ (rs : List Record) (bag : Array Suffix),
      rs.foldl (fun bag r => bag.push r.2) bag = bag ++ (rs.map (·.2)).toArray := by
    intro rs
    induction rs with
    | nil => simp
    | cons r rs ih =>
        intro bag
        rw [List.foldl_cons, ih]
        simp
  have hgroup := Table.entries_foldl_update (·.1) #[] (fun r bag => bag.push r.2) rs
  rw [bags_ofRecords, hgroup]
  apply List.map_congr_left
  intro p _
  rw [hpush, Array.empty_append]

/-- **The graph of a list of records holds them grouped by prefixes.** -/
theorem records_ofRecords (rs : List Record) : (ofRecords rs).records = grouped rs := by
  rw [records_eq, entries_ofRecords, List.flatMap_map, grouped]
  simp [bagRecords, Function.comp_def]

theorem length_records (g : Graph) : g.records.length = g.sizes.sum := by
  rw [records_eq, List.length_flatMap, sizes]
  simp [bagRecords]

/-! ### Graphs with the same content -/

/-- The graphs have the same bags in the same order, and the same starts in any order. -/
structure Same (g h : Graph) : Prop where
  entries : g.bags.entries = h.bags.entries
  mem_starts : ∀ p, p ∈ g.starts.members ↔ p ∈ h.starts.members

variable {g h k : Graph}

theorem Same.refl (g : Graph) : g.Same g := ⟨rfl, fun _ => Iff.rfl⟩

theorem Same.trans (hgh : g.Same h) (hhk : h.Same k) : g.Same k :=
  ⟨hgh.entries.trans hhk.entries, fun p => (hgh.mem_starts p).trans (hhk.mem_starts p)⟩

theorem Same.records_eq (S : g.Same h) : g.records = h.records := by
  rw [Graph.records_eq, Graph.records_eq, S.entries]

theorem Same.count_eq (S : g.Same h) (C : g.Consistent) (D : h.Consistent) :
    g.count = h.count := by
  rw [C.count_eq, D.count_eq, sizes, sizes, S.entries]

/-- Consistent graphs with the same bags have the same starts. -/
theorem Consistent.same (C : g.Consistent) (D : h.Consistent)
    (hentries : g.bags.entries = h.bags.entries) : g.Same h := by
  refine ⟨hentries, ?_⟩
  intro p
  by_cases hp : p.isStart = true
  · rw [Prefix.isStart_iff.1 hp]
    exact ⟨fun _ => D.start_mem, fun _ => C.start_mem⟩
  · have hp : p.isStart = false := by simpa using hp
    rw [C.mem_starts p hp, D.mem_starts p hp, mem_keys, mem_keys, hentries]

/-- Bags with different prefixes that are not empty are made again from their records. -/
theorem entries_ofRecords_flatMap {es : List (Prefix × Array Suffix)}
    (hd : Distinct (es.map Prod.fst)) (hpos : ∀ e ∈ es, 0 < e.2.size) :
    (ofRecords (es.flatMap bagRecords)).bags.entries = es := by
  rw [Graph.entries_ofRecords, eraseDups_flatMap_bagRecords hd hpos, List.map_map]
  have hbag : ∀ e ∈ es,
      (e.1, (((es.flatMap bagRecords).filter (·.1 == e.1)).map (·.2)).toArray) = e := by
    intro e he
    rw [filter_flatMap_bagRecords hd he, bagRecords, List.map_map]
    simp [Function.comp_def]
  exact (List.map_congr_left hbag).trans (List.map_id _)

/-- **The records of a consistent graph make its bags again.** -/
theorem Consistent.entries_ofRecords (C : g.Consistent) :
    (ofRecords g.records).bags.entries = g.bags.entries :=
  entries_ofRecords_flatMap g.bags.distinct_entries fun _ he =>
    C.size_pos _ (List.mem_map_of_mem he)

/-- An age pass leaves a consistent graph alone whose records are all young. -/
theorem Consistent.same_retainYounger (C : g.Consistent) {cutoff : Instant}
    (hyoung : ∀ r ∈ g.records, cutoff ≤ r.2.createdAt) : (g.retainYounger cutoff).Same g := by
  refine (C.retainYounger cutoff).same C ?_
  have hbag : ∀ e ∈ g.bags.entries, (e.1, young cutoff e.2) = e := by
    intro e he
    have hall : ∀ s ∈ e.2.toList, cutoff ≤ s.createdAt := fun s hs =>
      hyoung (e.1, s) (List.mem_flatMap.2 ⟨e, he, List.mem_map_of_mem hs⟩)
    have hfilter : young cutoff e.2 = e.2 := by
      rw [young, Array.filter_eq_self]
      intro s hs
      simpa using hall s (by simpa using hs)
    rw [hfilter]
  have hmap : (g.bags.entries.map fun e => (e.1, young cutoff e.2)) = g.bags.entries :=
    (List.map_congr_left hbag).trans (List.map_id _)
  rw [entries_retainYounger, hmap, List.filter_eq_self]
  intro e he
  have hpos := C.size_pos _ (List.mem_map_of_mem he)
  simp only [Bool.not_eq_true', Array.isEmpty_eq_false_iff]
  intro hempty
  rw [hempty] at hpos
  exact absurd hpos (by decide)

theorem Same.size_starts (S : g.Same h) : g.starts.size = h.starts.size := by
  have hperm : g.starts.members.toList.Perm h.starts.members.toList := by
    rw [List.perm_ext_iff_of_nodup g.starts.distinct_members.nodup h.starts.distinct_members.nodup]
    intro p
    simpa using S.mem_starts p
  simpa [Roster.size] using hperm.length_eq

theorem Same.stats_eq (S : g.Same h) (hcount : g.count = h.count) : g.stats = h.stats := by
  have hvalues : g.bags.values.toList = h.bags.values.toList := by
    rw [← Table.map_snd_entries, ← Table.map_snd_entries, S.entries]
  have hsize : g.bags.size = h.bags.size := by
    rw [← Table.length_entries, ← Table.length_entries, S.entries]
  simp only [stats, S.records_eq, hvalues, hcount, hsize, S.size_starts]

end Graph

end ChainScript.Chain
