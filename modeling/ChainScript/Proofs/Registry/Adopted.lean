import ChainScript.Proofs.Registry.Indexed

/-!
# Types taken over

A descriptor that is taken over stands under its kind with the catalog as its owner, and the
look-ups of other kinds do not change.  Descriptors of different kinds do not get into each
other's way, so what holds of one holds of all types of another catalog: either each can be taken
over, and then they all are, or the catalog stays as it is.

## Main definitions

* `Descriptor.ownedBy` — a descriptor with another owner.
* `Catalog.TakesOver` — what taking over some descriptors makes of a catalog.

## Main results

* `Catalog.Indexed.takesOver_adopt`, `Catalog.TakesOver.append`,
  `Catalog.Indexed.takesOver_foldl_adopt` — one descriptor, and a list of them.
* `Catalog.adoptAll_spec` — all types of another catalog.
-/

namespace ChainScript.Script

variable {U : Universe}

/-- The descriptor with another owner. -/
def Descriptor.ownedBy (d : Descriptor U) (id : Nat) : Descriptor U := { d with owner := id }

@[simp] theorem Descriptor.kind_ownedBy (d : Descriptor U) (id : Nat) :
    (d.ownedBy id).kind = d.kind := rfl

@[simp] theorem Descriptor.tag_ownedBy (d : Descriptor U) (id : Nat) :
    (d.ownedBy id).tag = d.tag := rfl

namespace Catalog

variable {c c' c'' other : Catalog U} {d e : Descriptor U} {ds es : List (Descriptor U)}

/-! ### Look-ups as membership -/

theorem mem_entries_iff : d ∈ c.entries ↔ ∃ i, c.entry i = d := by
  rw [← Array.mem_toList_iff, ← List.map_id c.entries.toList]
  exact Registry.mem_map_entries

theorem tag_mem_tags_iff :
    d.tag ∈ c.tags ↔ ∃ e ∈ c.entries, e.kind = d.kind ∧ e.name = d.name := by
  simp [Registry.tags, Descriptor.tag]

/-- A look-up by kind finds the registered descriptor of that kind. -/
theorem Indexed.find?_eq_some_iff (C : c.Indexed) {k : Kind U} :
    c.find? k = some d ↔ d ∈ c.entries ∧ d.kind = k := by
  rw [find?, Option.map_eq_some_iff, mem_entries_iff]
  constructor
  · rintro ⟨i, hi, rfl⟩
    exact ⟨⟨i, rfl⟩, C.locate?_eq_some_iff.1 hi⟩
  · rintro ⟨⟨i, rfl⟩, hkind⟩
    exact ⟨i, C.locate?_eq_some_iff.2 hkind, rfl⟩

/-- A look-up by name finds the registered descriptor of that name. -/
theorem Indexed.findName?_eq_some_iff (C : c.Indexed) {name : String} :
    c.findName? name = some d ↔ d ∈ c.entries ∧ d.name = name := by
  rw [findName?, Option.map_eq_some_iff, mem_entries_iff]
  constructor
  · rintro ⟨i, hi, rfl⟩
    exact ⟨⟨i, rfl⟩, C.locateName?_eq_some_iff.1 hi⟩
  · rintro ⟨⟨i, rfl⟩, hname⟩
    exact ⟨i, C.locateName?_eq_some_iff.2 hname, rfl⟩

/-- What is found by kind is found by its name. -/
theorem Indexed.findName?_of_find? (C : c.Indexed) {k : Kind U} (h : c.find? k = some d) :
    c.findName? d.name = some d :=
  C.findName?_eq_some_iff.2 ⟨(C.find?_eq_some_iff.1 h).1, rfl⟩

/-! ### One descriptor -/

/-- What taking over the descriptors makes of a catalog: they stand under their kinds with the
catalog as their owner, those with new kinds and names stand at the end in their order, and
nothing else is changed. -/
structure TakesOver (c : Catalog U) (ds : List (Descriptor U)) (c' : Catalog U) : Prop where
  growsTo : c.GrowsTo c'
  tags_eq : c'.tags = c.tags ++ (ds.map (·.tag)).filter (· ∉ c.tags)
  taken : ∀ d ∈ ds, c'.find? d.kind = some (d.ownedBy c.id)
  others : ∀ k ∉ ds.map (·.kind), c'.find? k = c.find? k

/-- In the place of a descriptor of its kind, a descriptor hides no other. -/
theorem mem_entries_replace {i : Fin c.entries.size} (hi : (c.entry i).kind = d.kind)
    (hne : e.kind ≠ d.kind) : e ∈ (c.replace i d).entries ↔ e ∈ c.entries := by
  rw [replace]
  constructor
  · intro he
    exact (Array.mem_or_eq_of_mem_set (w := i.2) he).resolve_right fun h => hne (h ▸ rfl)
  · intro he
    obtain ⟨j, hj, rfl⟩ := Array.mem_iff_getElem.1 he
    have hij : i.1 ≠ j := by
      rintro rfl
      exact hne hi
    have hget := Array.getElem_set_ne i.2 (v := d) hj hij
    exact hget ▸ Array.getElem_mem _

theorem Indexed.takesOver_adopt (C : c.Indexed) (hd : c.Admits d) :
    c.TakesOver [d] (c.adopt d) := by
  have G := (C.adopt_cases hd).1
  have C' := G.indexed
  rw [adopt] at G C' ⊢
  dsimp only at G C' ⊢
  cases hkind : c.locate? d.kind with
  | some i =>
      simp only [hkind] at G C' ⊢
      have hi := C.locate?_eq_some_iff.1 hkind
      have htag : d.tag ∈ c.tags :=
        hd.resolve_right fun h => h.1 (Registry.mem_map_entries.2 ⟨i, hi⟩)
      have hentry : (d.ownedBy c.id).tag = (c.entry i).tag :=
        congrArg₂ Prod.mk hi.symm ((C.tag_mem_iff hkind).1 htag).symm
      refine ⟨G, ?_, ?_, ?_⟩
      · rw [List.map_singleton, List.filter_cons_of_neg (by simpa using htag), List.filter_nil,
          List.append_nil]
        exact tags_replace hentry
      · rintro _ (_ | ⟨_, ⟨⟩⟩)
        exact C'.find?_eq_some_iff.2 ⟨Array.mem_set i.2, rfl⟩
      · intro k hk
        refine Option.ext fun e => ?_
        rw [C'.find?_eq_some_iff, C.find?_eq_some_iff, and_congr_left]
        rintro rfl
        exact mem_entries_replace hi (by simpa using hk)
  | none =>
      simp only [hkind] at G C' ⊢
      have hnew : d.tag ∉ c.tags := tag_not_mem (C.locate?_eq_none_iff.1 hkind)
      refine ⟨G, ?_, ?_, ?_⟩
      · rw [List.map_singleton, List.filter_cons_of_pos (by simpa using hnew), List.filter_nil]
        exact c.tags_push _
      · rintro _ (_ | ⟨_, ⟨⟩⟩)
        exact C'.find?_eq_some_iff.2 ⟨Array.mem_push_self, rfl⟩
      · intro k hk
        refine Option.ext fun e => ?_
        rw [C'.find?_eq_some_iff, C.find?_eq_some_iff, and_congr_left]
        rintro rfl
        rw [push, Array.mem_push]
        exact or_iff_left fun h => hk (h ▸ List.mem_singleton_self _)

/-! ### Descriptors one after another -/

theorem Indexed.takesOver_nil (C : c.Indexed) : c.TakesOver [] c :=
  ⟨C.growsTo_self, by simp, by simp, fun _ _ => rfl⟩

/-- Descriptors of other kinds do not get into the way of what was taken over before. -/
theorem TakesOver.append (h : c.TakesOver ds c') (h' : c'.TakesOver es c'')
    (hdisj : ∀ d ∈ ds, d.kind ∉ es.map (·.kind)) : c.TakesOver (ds ++ es) c'' where
  growsTo := h.growsTo.trans h'.growsTo
  tags_eq := by
    have hes : (es.map (·.tag)).filter (· ∉ c'.tags) = (es.map (·.tag)).filter (· ∉ c.tags) := by
      refine List.filter_congr fun t ht => ?_
      have hfresh : t ∉ ds.map (·.tag) := by
        obtain ⟨e, he, rfl⟩ := List.mem_map.1 ht
        rintro hmem
        obtain ⟨d, hd, hde⟩ := List.mem_map.1 hmem
        have hkind : e.kind = d.kind := congrArg Prod.fst hde.symm
        exact hdisj d hd (hkind ▸ List.mem_map_of_mem he)
      rw [h.tags_eq]
      simp [hfresh]
    rw [h'.tags_eq, hes, h.tags_eq, List.map_append, List.filter_append, List.append_assoc]
  taken := by
    intro d hd
    obtain hd | hd := List.mem_append.1 hd
    · rw [h'.others d.kind (hdisj d hd)]
      exact h.taken d hd
    · rw [h'.taken d hd, h.growsTo.id_eq]
  others := by
    intro k hk
    rw [List.map_append, List.mem_append, not_or] at hk
    rw [h'.others k hk.2, h.others k hk.1]

theorem Indexed.takesOver_foldl_adopt (C : c.Indexed) (hkinds : (ds.map (·.kind)).Nodup)
    (hnames : (ds.map (·.name)).Nodup) (hds : ∀ d ∈ ds, c.Admits d) :
    c.TakesOver ds (ds.foldl adopt c) := by
  induction ds generalizing c with
  | nil => exact C.takesOver_nil
  | cons d ds ih =>
      have H := C.takesOver_adopt (hds d List.mem_cons_self)
      have hrest := ih H.growsTo.indexed hkinds.of_cons hnames.of_cons
        (C.admits_rest hkinds hnames hds)
      refine H.append hrest ?_
      rintro _ (_ | ⟨_, ⟨⟩⟩)
      exact (List.nodup_cons.1 hkinds).1

/-! ### Descriptors that were taken over before -/

theorem Indexed.admits_of_find? (C : c.Indexed) (h : c.find? d.kind = some (d.ownedBy c.id)) :
    c.Admits d := by
  have hmem := (C.find?_eq_some_iff.1 h).1
  exact .inl (List.mem_map.2 ⟨_, Array.mem_toList_iff.2 hmem, d.tag_ownedBy c.id⟩)

/-- To take a descriptor over again changes nothing. -/
theorem adopt_eq_self (h : c.find? d.kind = some (d.ownedBy c.id)) : c.adopt d = c := by
  obtain ⟨i, hi, hentry⟩ := Option.map_eq_some_iff.1 h
  have hset : c.entries.set i (d.ownedBy c.id) = c.entries := by
    rw [← hentry]
    exact Array.set_getElem_self i.2
  rw [adopt]
  dsimp only
  rw [hi]
  change { c with entries := c.entries.set i (d.ownedBy c.id) } = c
  rw [hset]

theorem foldl_adopt_eq_self (h : ∀ d ∈ ds, c.find? d.kind = some (d.ownedBy c.id)) :
    ds.foldl adopt c = c := by
  induction ds with
  | nil => rfl
  | cons d ds ih =>
      rw [List.foldl_cons, adopt_eq_self (h d List.mem_cons_self)]
      exact ih fun e he => h e (List.mem_cons_of_mem _ he)

/-! ### All types of another catalog -/

/-- A check of every item passes where each passes. -/
theorem eq_ok_of_all_passed {ε α : Type} {check : α → Except ε Unit} {as : List α}
    (h : ∀ a ∈ as, check a = .ok ()) : forM as check = .ok () := by
  induction as with
  | nil => rfl
  | cons a as ih =>
      rw [List.forM_cons, h a List.mem_cons_self]
      exact ih fun b hb => h b (List.mem_cons_of_mem _ hb)

/-- All types are taken over where each can be, and none otherwise. -/
theorem Indexed.adoptAll_eq_ok_iff (C : c.Indexed) :
    c.adoptAll other = .ok c' ↔
      (∀ d ∈ other.entries, c.Admits d) ∧ other.entries.toList.foldl adopt c = c' := by
  constructor
  · intro h
    obtain ⟨hcheck, h⟩ := passed_of_eq_ok h
    refine ⟨fun d hd => C.admits_of_checked hcheck d (Array.mem_toList_iff.2 hd), ?_⟩
    rw [Array.foldl_toList]
    exact Except.ok.inj h
  · rintro ⟨hall, rfl⟩
    have hcheck : other.entries.forM c.checkAdoptable = .ok () := by
      rw [← other.entries.toArray_toList, Array.forM_eq_forM, List.forM_toArray]
      refine eq_ok_of_all_passed fun d hd => ?_
      exact C.checkAdoptable_eq_ok_iff.2 (hall d (Array.mem_toList_iff.1 hd))
    rw [adoptAll, hcheck, Array.foldl_toList]
    rfl

/-- What a catalog can take over from another, it has under the name or has no such name. -/
theorem name_mem_iff (hd : c.Admits d) :
    d.name ∈ c.names ↔ d.tag ∈ c.tags := by
  constructor
  · intro hname
    exact hd.resolve_right fun h => h.2 hname
  · intro htag
    rw [Registry.names_eq]
    exact List.mem_map_of_mem htag

/-- The names after taking descriptors over. -/
theorem TakesOver.names_eq (h : c.TakesOver ds c')
    (hds : ∀ d ∈ ds, c.Admits d) :
    c'.names = c.names ++ (ds.map (·.name)).filter (· ∉ c.names) := by
  have hfilter : ds.filter (·.tag ∉ c.tags) = ds.filter (·.name ∉ c.names) :=
    List.filter_congr fun d hd => by simp [name_mem_iff (hds d hd)]
  calc c'.names = (c.tags ++ (ds.map (·.tag)).filter (· ∉ c.tags)).map Prod.snd := by
        rw [Registry.names_eq, h.tags_eq]
    _ = c.names ++ (ds.filter (·.tag ∉ c.tags)).map (·.name) := by
        rw [List.map_append, ← Registry.names_eq, List.filter_map, List.map_map]
        rfl
    _ = c.names ++ (ds.map (·.name)).filter (· ∉ c.names) := by
        rw [hfilter, List.filter_map]
        rfl

/-- A descriptor under a name that was not taken over is of a kind that was not. -/
theorem TakesOver.kind_not_mem (h : c.TakesOver ds c') (he : e.tag ∈ c'.tags)
    (hname : e.name ∉ ds.map (·.name)) : e.kind ∉ ds.map (·.kind) := by
  intro hmem
  obtain ⟨d, hd, hkind⟩ := List.mem_map.1 hmem
  obtain ⟨e', he', hkind', hname'⟩ := tag_mem_tags_iff.1 he
  have hfind : c'.find? d.kind = some e' :=
    h.growsTo.indexed.find?_eq_some_iff.2 ⟨he', hkind'.trans hkind.symm⟩
  obtain rfl : d.ownedBy c.id = e' := Option.some.inj ((h.taken d hd).symm.trans hfind)
  exact hname (List.mem_map.2 ⟨d, hd, hname'⟩)

/-- Names that were not taken over are looked up as before. -/
theorem TakesOver.findName?_eq (h : c.TakesOver ds c') (C : c.Indexed) {name : String}
    (hname : name ∉ ds.map (·.name)) : c'.findName? name = c.findName? name := by
  have C' := h.growsTo.indexed
  refine Option.ext fun e => ?_
  rw [C'.findName?_eq_some_iff, C.findName?_eq_some_iff, and_congr_left]
  rintro rfl
  constructor
  · intro he
    have hkind := h.kind_not_mem (tag_mem_tags_iff.2 ⟨e, he, rfl, rfl⟩) hname
    have hfind := C'.find?_eq_some_iff.2 ⟨he, rfl⟩
    exact (C.find?_eq_some_iff.1 ((h.others e.kind hkind).symm.trans hfind)).1
  · intro he
    have htag := h.growsTo.tags_prefix.subset (tag_mem_tags_iff.2 ⟨e, he, rfl, rfl⟩)
    have hfind := C.find?_eq_some_iff.2 ⟨he, rfl⟩
    have hothers := h.others e.kind (h.kind_not_mem htag hname)
    exact (C'.find?_eq_some_iff.1 (hothers.trans hfind)).1

theorem run_adoptAll_eq_ok_iff :
    (Change.adoptAll other).run c = (c', .ok ()) ↔ c.adoptAll other = .ok c' := by
  rw [Change.run]
  cases c.adoptAll other <;> simp [Change.run.settle]

/-- **Types are taken over all or none.**  Taking over the types of another catalog succeeds just
where each of them stands here under the same kind and name or has a kind and a name that are both
free here.  Where it fails, the catalog stays as it is.  Where it succeeds, the names are the old
ones and after them those that were missing, in the order of the other catalog; each type of the
other catalog has here all its members with this catalog as the owner, found by its kind and by
its name; every other type and every other look-up is as before; and to do it again changes
nothing. -/
theorem adoptAll_spec (hc : c.Reachable) (hother : other.Reachable) :
    (((Change.adoptAll other).run c).2 = .ok () ↔
      ∀ d ∈ other.entries, (∃ e ∈ c.entries, e.kind = d.kind ∧ e.name = d.name) ∨
        d.kind ∉ c.kinds ∧ d.name ∉ c.names) ∧
    (((Change.adoptAll other).run c).2 ≠ .ok () → ((Change.adoptAll other).run c).1 = c) ∧
    ∀ c', (Change.adoptAll other).run c = (c', .ok ()) →
      c'.id = c.id ∧
      c'.names = c.names ++ other.names.filter (· ∉ c.names) ∧
      (∀ d ∈ other.entries, c'.find? d.kind = some (d.ownedBy c.id) ∧
        c'.findName? d.name = some (d.ownedBy c.id)) ∧
      (∀ e ∈ c.entries, e.kind ∉ other.kinds →
        c'.find? e.kind = some e ∧ c'.findName? e.name = some e) ∧
      (∀ k ∉ other.kinds, c'.find? k = c.find? k) ∧
      (∀ name ∉ other.names, c'.findName? name = c.findName? name) ∧
      (Change.adoptAll other).run c' = (c', .ok ()) := by
  have C := hc.indexed
  have D := hother.indexed
  refine ⟨?_, ?_, ?_⟩
  · simp_rw [← tag_mem_tags_iff]
    constructor
    · intro hok
      exact (C.adoptAll_eq_ok_iff.1 (run_adoptAll_eq_ok_iff.1 (Prod.ext rfl hok))).1
    · intro hall
      rw [run_adoptAll_eq_ok_iff.2 (C.adoptAll_eq_ok_iff.2 ⟨hall, rfl⟩)]
  · rw [Change.run]
    cases c.adoptAll other with
    | ok c' => exact fun h => absurd rfl h
    | error e => exact fun _ => rfl
  · intro c' hrun
    obtain ⟨hall, rfl⟩ := C.adoptAll_eq_ok_iff.1 (run_adoptAll_eq_ok_iff.1 hrun)
    have hds : ∀ d ∈ other.entries.toList, c.Admits d := fun d hd =>
      hall d (Array.mem_toList_iff.1 hd)
    have H := C.takesOver_foldl_adopt D.byKind.nodup D.byName.nodup hds
    have C' := H.growsTo.indexed
    have htaken : ∀ d ∈ other.entries,
        (other.entries.toList.foldl adopt c).find? d.kind = some (d.ownedBy c.id) :=
      fun d hd => H.taken d (Array.mem_toList_iff.2 hd)
    refine ⟨H.growsTo.id_eq, H.names_eq hds, fun d hd => ?_, fun e he hkind => ?_, H.others,
      fun name hname => H.findName?_eq C hname, ?_⟩
    · exact ⟨htaken d hd, C'.findName?_of_find? (htaken d hd)⟩
    · have hfind := H.others e.kind hkind
      rw [C.find?_eq_some_iff.2 ⟨he, rfl⟩] at hfind
      exact ⟨hfind, C'.findName?_of_find? hfind⟩
    · refine run_adoptAll_eq_ok_iff.2 (C'.adoptAll_eq_ok_iff.2 ⟨fun d hd => ?_, ?_⟩)
      · exact C'.admits_of_find? (H.growsTo.id_eq ▸ htaken d hd)
      · refine foldl_adopt_eq_self fun d hd => ?_
        rw [H.growsTo.id_eq]
        exact H.taken d hd

/-- A catalog with two types takes over one that it has and one that it lacks, and keeps the other
as it is; one in which the kind has another name takes over nothing. -/
theorem adoptAll_spec_small :
    ∃ c other named c' : Catalog Gallery.world,
      c.Reachable ∧ other.Reachable ∧ named.Reachable ∧
      c.names = ["flag", "text"] ∧ other.names = ["number", "text"] ∧ named.names = ["words"] ∧
      (Change.adoptAll other).run c = (c', .ok ()) ∧ c'.names = ["flag", "text", "number"] ∧
      c'.find? .bool = c.find? .bool ∧ (Change.adoptAll other).run c' = (c', .ok ()) ∧
      ((Change.adoptAll other).run named).1 = named := by
  let flag : Catalog Gallery.world := ((Change.register .bool "flag" id).run (.empty 1)).1
  let c : Catalog Gallery.world := ((Change.register .string "text" id).run flag).1
  let number : Catalog Gallery.world := ((Change.register .int "number" id).run (.empty 2)).1
  let other : Catalog Gallery.world := ((Change.register .string "text" id).run number).1
  let named : Catalog Gallery.world := ((Change.register .string "words" id).run (.empty 3)).1
  have hc : c.Reachable := .change _ (.change _ (.empty 1) nofun) nofun
  have hother : other.Reachable := .change _ (.change _ (.empty 2) nofun) nofun
  have hnamed : named.Reachable := .change _ (.empty 3) nofun
  obtain ⟨-, -, htaken⟩ := adoptAll_spec hc hother
  obtain ⟨-, hnames, -, -, hothers, -, hagain⟩ := htaken _ rfl
  obtain ⟨-, hfail, -⟩ := adoptAll_spec hnamed hother
  exact ⟨c, other, named, _, hc, hother, hnamed, rfl, rfl, rfl, rfl, hnames,
    hothers .bool (by decide), hagain, hfail nofun⟩

end Catalog

end ChainScript.Script
