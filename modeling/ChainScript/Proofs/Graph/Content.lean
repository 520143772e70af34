import ChainScript.Proofs.Graph.Regroup

/-!
# The content of a graph

What a graph knows is a multiset of records whose prefixes are told apart up to case.  An
insertion adds its record and nothing else, at the end of the bag of its prefix; a removal takes
one record away and an age pass the old ones.

## Main definitions

* `foldedRecord`, `contentOf` — a record up to the case of its prefix, and a list of them
  without its order.
* `Graph.content` — the content of a graph.

## Main results

* `Graph.content_insert`, `Graph.toList_successors_insert` — what an insertion adds, and where.
* `Graph.perm_removeNth`, `Graph.records_retainYounger` — what is left by the other changes.
-/

namespace ChainScript

/-! ### Look-ups in tables -/

namespace Table

variable {K V : Type} [BEq K] [Hashable K] [EquivBEq K]

/-- The one entry with an equal key is found. -/
theorem find?_eq (t : Table K V) (k : K) :
    t.find? k = (t.entries.find? (·.1 == k)).map Prod.snd := by
  cases h : t.position? k with
  | some i =>
      obtain ⟨e, he, hek⟩ := position?_eq_some_iff.1 h
      have hfind : t.entries.find? (·.1 == k) = some e := by
        cases hf : t.entries.find? (·.1 == k) with
        | none =>
            have hall := List.find?_eq_none.1 hf e (List.mem_of_getElem? he)
            exact absurd hek hall
        | some e' =>
            have hkey := List.find?_some hf
            rw [eq_of_beq (List.mem_of_find?_eq_some hf) (List.mem_of_getElem? he)
              (BEq.trans hkey (BEq.symm hek))]
      rw [find?, h, Option.bind_some, getElem?_values, he, hfind]
  | none =>
      have hfind : t.entries.find? (·.1 == k) = none := by
        rw [List.find?_eq_none]
        intro e he
        simp [position?_eq_none_iff.1 h e he]
      rw [find?, h, hfind]
      rfl

/-- An update changes the value of its key only. -/
theorem find?_update [LawfulHashable K] (t : Table K V) (k l : K) (fresh : V) (f : V → V) :
    (t.update k fresh f).find? l =
      if k == l then some (f ((t.find? k).getD fresh)) else t.find? l := by
  simp only [find?_eq]
  cases h : t.position? k with
  | some i =>
      obtain ⟨e, he, hek⟩ := position?_eq_some_iff.1 h
      rw [entries_update_of_some h, modify_entries_eq_map h, List.find?_map]
      have hkey : ((fun e : K × V => e.1 == l) ∘ fun e => if e.1 == k then (e.1, f e.2) else e) =
          fun e => e.1 == l := by
        funext e
        rw [Function.comp_apply]
        split <;> rfl
      rw [hkey]
      by_cases hkl : (k == l) = true
      · have hsame : (fun e : K × V => e.1 == l) = fun e => e.1 == k := by
          funext e
          exact BEq.congr_right (BEq.symm hkl)
        rw [if_pos hkl, hsame]
        cases hf : t.entries.find? (·.1 == k) with
        | none => exact absurd hek (List.find?_eq_none.1 hf e (List.mem_of_getElem? he))
        | some e' =>
            have hkey' : (e'.1 == k) = true := by simpa using List.find?_some hf
            simp [hkey']
      · rw [if_neg hkl]
        cases hf : t.entries.find? (·.1 == l) with
        | none => rfl
        | some e' =>
            have hne : (e'.1 == k) = false := by
              by_contra hcon
              have hel : (e'.1 == l) = true := by simpa using List.find?_some hf
              exact hkl (BEq.trans (BEq.symm (by simpa using hcon)) hel)
            simp [hne]
  | none =>
      rw [entries_update_of_none h, List.find?_append]
      by_cases hkl : (k == l) = true
      · have hnone : ∀ m, (k == m) = true → t.entries.find? (·.1 == m) = none := by
          intro m hkm
          rw [List.find?_eq_none]
          intro e he hem
          have := position?_eq_none_iff.1 h e he
          rw [BEq.trans hem (BEq.symm hkm)] at this
          cases this
        simp [hkl, hnone l hkl, hnone k BEq.rfl]
      · simp [hkl]

end Table

namespace Chain

/-- A record up to the case of its prefix. -/
def foldedRecord (r : Record) : (String × String) × Suffix := (r.1.folded, r.2)

/-- A list of records without its order, up to the case of prefixes. -/
def contentOf (rs : List Record) : Multiset ((String × String) × Suffix) :=
  ↑(rs.map foldedRecord)

theorem contentOf_append (rs rs' : List Record) :
    contentOf (rs ++ rs') = contentOf rs + contentOf rs' := by
  rw [contentOf, List.map_append, ← Multiset.coe_add]
  rfl

theorem contentOf_perm {rs rs' : List Record} (h : rs.Perm rs') : contentOf rs = contentOf rs' :=
  Multiset.coe_eq_coe.2 (h.map foldedRecord)

theorem contentOf_le {rs rs' : List Record} (h : rs.Subperm rs') :
    contentOf rs ≤ contentOf rs' :=
  Multiset.map_le_map (f := foldedRecord) (Multiset.coe_le.2 h)

/-- What does not depend on the case of prefixes can be told from the content. -/
theorem forall_of_content_le {P : Record → Prop}
    (hP : ∀ r r', foldedRecord r = foldedRecord r' → P r' → P r) {rs rs' : List Record}
    (hle : contentOf rs ≤ contentOf rs') (h : ∀ r ∈ rs', P r) : ∀ r ∈ rs, P r := by
  intro r hr
  have hmem : foldedRecord r ∈ contentOf rs := Multiset.mem_coe.2 (List.mem_map_of_mem hr)
  obtain ⟨r', hr', hfolded⟩ := List.mem_map.1 (Multiset.mem_coe.1 (Multiset.mem_of_le hle hmem))
  exact hP r r' hfolded.symm (h r' hr')

namespace Graph

/-- The records of a graph without their order, up to the case of prefixes. -/
def content (g : Graph) : Multiset ((String × String) × Suffix) := contentOf g.records

/-- The bag of a prefix holds the records of the prefix. -/
theorem successors_eq (g : Graph) (p : Prefix) :
    g.successors p = ((g.bags.entries.find? (·.1 == p)).map Prod.snd).getD #[] := by
  rw [successors, Table.find?_eq]

/-! ### Insertion -/

/-- An insertion adds its suffix at the end of the bag of its prefix. -/
theorem toList_successors_insert (g : Graph) (p q : Prefix) (s : Suffix) :
    ((g.insert p s).successors q).toList =
      (g.successors q).toList ++ if p == q then [s] else [] := by
  rw [successors, bags_insert, Table.find?_update, successors]
  by_cases hpq : (p == q) = true
  · have hsame : g.bags.find? p = g.bags.find? q := by
      rw [Table.find?_eq, Table.find?_eq]
      congr 2
      funext e
      exact BEq.congr_right hpq
    simp [hpq, hsame]
  · simp [hpq]

/-- An insertion adds its record and no other. -/
theorem content_insert (g : Graph) (p : Prefix) (s : Suffix) :
    (g.insert p s).content = (p.folded, s) ::ₘ g.content := by
  cases h : g.bags.position? p with
  | some i =>
      obtain ⟨e, he, hep⟩ := Table.position?_eq_some_iff.1 h
      obtain ⟨hi, rfl⟩ := List.getElem?_eq_some_iff.1 he
      obtain ⟨as, a, bs, hbags, hlen, hmod⟩ :=
        List.exists_of_modify (fun e : Prefix × Array Suffix => (e.1, e.2.push s)) hi
      have hentries := Table.entries_update_of_some h #[] (·.push s)
      rw [← bags_insert, hmod] at hentries
      have hap : (a.1 == p) = true := by
        have : g.bags.entries[i] = a := by simp [hbags, ← hlen]
        rwa [this] at hep
      have hbag : bagRecords (a.1, a.2.push s) = bagRecords a ++ [(a.1, s)] := by
        simp [bagRecords]
      have hperm : (g.insert p s).records.Perm ((a.1, s) :: g.records) := by
        rw [records_eq, records_eq, hentries, hbags]
        simp only [List.flatMap_append, List.flatMap_cons, hbag]
        calc (as.flatMap bagRecords ++ (bagRecords a ++ [(a.1, s)] ++ bs.flatMap bagRecords)).Perm
              (as.flatMap bagRecords ++ bagRecords a ++ (a.1, s) :: bs.flatMap bagRecords) := by
              simp
          _ |>.Perm ((a.1, s) :: (as.flatMap bagRecords ++ bagRecords a ++
                bs.flatMap bagRecords)) := List.perm_middle
          _ |>.Perm ((a.1, s) :: (as.flatMap bagRecords ++ (bagRecords a ++
                bs.flatMap bagRecords))) := by simp
      rw [content, contentOf_perm hperm, content, ← Prefix.beq_iff_folded.1 hap]
      rfl
  | none =>
      have hentries := Table.entries_update_of_none h #[] (·.push s)
      rw [← bags_insert] at hentries
      have hperm : (g.insert p s).records.Perm ((p, s) :: g.records) := by
        rw [records_eq, records_eq, hentries, List.flatMap_append]
        simp [bagRecords, List.perm_append_singleton]
      rw [content, contentOf_perm hperm]
      rfl

/-! ### Removal and age -/

variable {g g' : Graph}

/-- Without the suffix at `offset` in bag `i`, the records lack that one. -/
theorem Removed.perm_records {i offset : Nat} {p : Prefix} {bag : Array Suffix} {s : Suffix}
    (R : Removed g g' i offset p bag) (he : g.bags.entries[i]? = some (p, bag))
    (hs : bag[offset]? = some s) : ((p, s) :: g'.records).Perm g.records := by
  obtain ⟨hi, hget⟩ := List.getElem?_eq_some_iff.1 he
  obtain ⟨hoff, hsuffix⟩ := Array.getElem?_eq_some_iff.1 hs
  have hbag : (s :: swapErase bag.toList offset).Perm bag.toList := by
    have hlt : offset < bag.toList.length := by simpa using hoff
    simpa [hsuffix] using cons_swapErase_perm hlt
  rw [records_eq, records_eq, R.entries]
  by_cases hone : bag.size = 1
  · have hsingle : bagRecords (p, bag) = [(p, s)] := by
      have hnil : swapErase bag.toList offset = [] := by
        have hlen := hbag.length_eq
        have hsize : bag.toList.length = 1 := by simpa using hone
        rw [List.length_cons, hsize] at hlen
        exact List.eq_nil_of_length_eq_zero (by omega)
      rw [hnil] at hbag
      rw [bagRecords, List.perm_singleton.1 hbag.symm]
      rfl
    rw [if_pos hone]
    have hrest := (cons_swapErase_perm hi).flatMap_right bagRecords
    rw [hget, List.flatMap_cons, hsingle] at hrest
    exact hrest
  · rw [if_neg hone]
    obtain ⟨as, a, bs, hbags, hlen, hmod⟩ := List.exists_of_modify
      (fun e : Prefix × Array Suffix => (e.1, swapRemoveSuffix e.2 offset)) hi
    obtain rfl : a = (p, bag) := by
      rw [← hget]
      simp [hbags, ← hlen]
    have hshrunk : ((p, s) :: bagRecords (p, swapRemoveSuffix bag offset)).Perm
        (bagRecords (p, bag)) := by
      rw [bagRecords, bagRecords, toList_swapRemoveSuffix]
      exact hbag.map (p, ·)
    rw [hmod, hbags]
    simp only [List.flatMap_append, List.flatMap_cons]
    refine List.perm_middle.symm.trans (List.Perm.append_left _ ?_)
    exact hshrunk.append_right _

/-- A removal takes one record away. -/
theorem perm_removeNth (C : g.Consistent) {k : Nat} {s : Suffix}
    (h : g.removeNth k = some (s, g')) : ∃ p, ((p, s) :: g'.records).Perm g.records := by
  have hk : k < g.count := by
    by_contra hk
    simp [removeNth, guard, hk] at h
  obtain ⟨i, offset, p, bag, s', g'', hrun, he, hs, -, R⟩ := removeNth_spec C hk
  obtain ⟨rfl, rfl⟩ : s' = s ∧ g'' = g' := by simpa [hrun] using h
  exact ⟨p, R.perm_records he hs⟩

/-- An age pass leaves the young records in their order. -/
theorem records_retainYounger (g : Graph) (cutoff : Instant) :
    (g.retainYounger cutoff).records = g.records.filter (cutoff ≤ ·.2.createdAt) := by
  have hbag : ∀ e : Prefix × Array Suffix,
      bagRecords (e.1, young cutoff e.2) = (bagRecords e).filter (cutoff ≤ ·.2.createdAt) := by
    intro e
    rw [bagRecords, bagRecords, List.filter_map, young, Array.toList_filter]
    rfl
  rw [records_eq, records_eq, entries_retainYounger, List.filter_flatMap]
  induction g.bags.entries with
  | nil => rfl
  | cons e es ih =>
      rw [List.map_cons, List.filter_cons, List.flatMap_cons, ← hbag, ← ih]
      split
      · rw [List.flatMap_cons]
      · next hempty =>
        have hnil : young cutoff e.2 = #[] := by simpa using hempty
        simp [hnil, bagRecords]

end Graph

end Chain

end ChainScript
