import Mathlib.Data.List.Basic
import Mathlib.Data.List.Nodup
import ChainScript.Gallery.Universe
import ChainScript.Script.Catalog

/-!
# Catalogs in agreement with their indexes

The indexes of a catalog give every registered kind and name its position and nothing else.  A
change puts a descriptor with the same kind and name in the place of an old one, or adds one
whose kind and name are both free at the end; so the agreement is kept, and the list of kinds and
names only grows at its end.

## Main definitions

* `Index.Lists` — an index gives the positions in a list of keys.
* `Catalog.Indexed` — a catalog in agreement with its indexes.
* `Catalog.GrowsTo` — what a change may do to a catalog in agreement with its indexes.
* `Catalog.Reachable`, `Catalog.Evolves` — the catalogs that changes lead to.
* `Installer` — code of any kind that installs types.

## Main results

* `Change.growsTo_run` — one change.
* `Catalog.Reachable.indexed`, `Catalog.Evolves.growsTo` — runs of changes.
* `Catalog.catalog_spec` — look-ups and construction by kind and by name.
-/

namespace ChainScript.Script

/-! ### Indexes of lists -/

namespace Index

variable {κ : Type} [DecidableEq κ] {ix : Index κ} {keys : List κ} {key : κ}

/-- The index gives each key of the list its position, and no other key any. -/
def Lists (ix : Index κ) (keys : List κ) : Prop :=
  ∀ key i, ix.find? key = some i ↔ keys[i]? = some key

theorem lists_nil : ({} : Index κ).Lists [] := by
  intro key i
  simp [find?]

/-- A key has one position, so it stands in the list once. -/
theorem Lists.nodup (H : ix.Lists keys) : keys.Nodup := by
  rw [List.nodup_iff_getElem?_ne_getElem?]
  intro i j hij hj heq
  have hfind : ix.find? keys[j] = some j := (H _ _).2 (List.getElem?_eq_getElem hj)
  have hi : ix.find? keys[j] = some i := (H _ _).2 (heq.trans (List.getElem?_eq_getElem hj))
  rw [hfind] at hi
  exact Nat.ne_of_gt hij (Option.some.inj hi)

theorem Lists.find?_eq_none_iff (H : ix.Lists keys) : ix.find? key = none ↔ key ∉ keys := by
  rw [Option.eq_none_iff_forall_ne_some, List.mem_iff_getElem?, not_exists]
  exact forall_congr' fun i => not_congr (H key i)

/-- A new key goes to the end of the list. -/
theorem Lists.put (H : ix.Lists keys) (hnew : key ∉ keys) :
    (ix.put key keys.length).Lists (keys ++ [key]) := by
  intro k i
  rw [find?_put, List.getElem?_append]
  by_cases hk : k = key
  · rw [if_pos hk, hk]
    split
    · next hi =>
      have hne : keys[i]? ≠ some key := fun h => hnew (List.mem_of_getElem? h)
      simp only [hne, iff_false]
      exact fun h => Nat.ne_of_gt hi (Option.some.inj h)
    · next hi =>
      rw [List.getElem?_singleton]
      split <;> simp <;> omega
  · rw [if_neg hk, H]
    split
    · rfl
    · next hi =>
      rw [List.getElem?_eq_none (Nat.le_of_not_lt hi), List.getElem?_singleton]
      split <;> simp [Ne.symm hk]

end Index

variable {U : Universe}

/-! ### Kinds and names in order -/

/-- What tells descriptors apart: the kind and the name. -/
def Descriptor.tag (d : Descriptor U) : Kind U × String := (d.kind, d.name)

@[simp] theorem Descriptor.tag_withMembers (d : Descriptor U) {k : Kind U} (m : Members k) :
    (d.withMembers m).tag = d.tag := by
  rw [withMembers]
  split <;> rfl

@[simp] theorem Descriptor.owner_withMembers (d : Descriptor U) {k : Kind U} (m : Members k) :
    (d.withMembers m).owner = d.owner := by
  rw [withMembers]
  split <;> rfl

namespace Registry

/-- The registered kinds with their names, in order. -/
def tags (r : Registry U) : List (Kind U × String) := r.entries.toList.map (·.tag)

/-- The registered kinds, in order. -/
def kinds (r : Registry U) : List (Kind U) := r.entries.toList.map (·.kind)

theorem kinds_eq (r : Registry U) : r.kinds = r.tags.map Prod.fst := by
  rw [kinds, tags, List.map_map]
  rfl

theorem names_eq (r : Registry U) : r.names = r.tags.map Prod.snd := by
  rw [names, tags, List.map_map]
  rfl

theorem mem_map_entries {r : Registry U} {α : Type} {f : Descriptor U → α} {a : α} :
    a ∈ r.entries.toList.map f ↔ ∃ i, f (r.entry i) = a := by
  rw [List.mem_map]
  constructor
  · rintro ⟨d, hd, rfl⟩
    obtain ⟨i, hi, rfl⟩ := Array.mem_iff_getElem.1 (Array.mem_toList_iff.1 hd)
    exact ⟨⟨i, hi⟩, rfl⟩
  · rintro ⟨i, rfl⟩
    exact ⟨_, Array.mem_toList_iff.2 (Array.getElem_mem i.2), rfl⟩

end Registry

namespace Catalog

variable {c c' other : Catalog U} {d e : Descriptor U}

theorem tags_push (c : Catalog U) (d : Descriptor U) : (c.push d).tags = c.tags ++ [d.tag] := by
  rw [Registry.tags, push, Array.toList_push, List.map_append]
  rfl

/-- A descriptor that takes the place of one with its kind and name changes no tag. -/
theorem tags_replace {i : Fin c.entries.size} (htag : d.tag = (c.entry i).tag) :
    (c.replace i d).tags = c.tags := by
  rw [Registry.tags, replace, Array.toList_set, List.map_set, htag]
  have hi : i.1 < c.tags.length := by simp [Registry.tags]
  have hentry : (c.entry i).tag = c.tags[i.1] := by simp [Registry.tags, Registry.entry]
  rw [hentry]
  exact List.set_getElem_self hi

/-! ### Agreement -/

/-- A catalog in agreement with its indexes.  It owns its descriptors. -/
structure Indexed (c : Catalog U) : Prop where
  byKind : c.byKind.Lists c.kinds
  byName : c.byName.Lists c.names
  owner : ∀ d ∈ c.entries, d.owner = c.id

theorem indexed_empty (id : Nat) : (empty id : Catalog U).Indexed where
  byKind := Index.lists_nil
  byName := Index.lists_nil
  owner := by simp [empty]

/-- A look-up through an index finds the descriptor with the key. -/
theorem bind_at?_eq_some_iff {κ : Type} [DecidableEq κ] {ix : Index κ} {f : Descriptor U → κ}
    (H : ix.Lists (c.entries.toList.map f)) {key : κ} {i : Fin c.entries.size} :
    (ix.find? key).bind c.at? = some i ↔ f (c.entry i) = key := by
  have hat : ix.find? key = some i.1 ↔ f (c.entry i) = key := by
    rw [H, List.getElem?_map, Array.getElem?_toList, Array.getElem?_eq_getElem i.2]
    simp [Registry.entry]
  rw [← hat, Option.bind_eq_some_iff]
  constructor
  · rintro ⟨j, hj, hji⟩
    rw [at?] at hji
    split at hji
    · exact Option.some.inj hji ▸ hj
    · cases hji
  · intro h
    exact ⟨i.1, h, dif_pos i.2⟩

/-- A look-up through an index finds nothing where no descriptor has the key. -/
theorem bind_at?_eq_none_iff {κ : Type} [DecidableEq κ] {ix : Index κ} {f : Descriptor U → κ}
    (H : ix.Lists (c.entries.toList.map f)) {key : κ} :
    (ix.find? key).bind c.at? = none ↔ key ∉ c.entries.toList.map f := by
  rw [Option.eq_none_iff_forall_ne_some, Registry.mem_map_entries, not_exists]
  exact forall_congr' fun i => not_congr (bind_at?_eq_some_iff H)

theorem Indexed.locate?_eq_some_iff (C : c.Indexed) {k : Kind U} {i : Fin c.entries.size} :
    c.locate? k = some i ↔ (c.entry i).kind = k :=
  bind_at?_eq_some_iff C.byKind

theorem Indexed.locate?_eq_none_iff (C : c.Indexed) {k : Kind U} :
    c.locate? k = none ↔ k ∉ c.kinds :=
  bind_at?_eq_none_iff C.byKind

theorem Indexed.locateName?_eq_some_iff (C : c.Indexed) {name : String}
    {i : Fin c.entries.size} : c.locateName? name = some i ↔ (c.entry i).name = name :=
  bind_at?_eq_some_iff C.byName

theorem Indexed.locateName?_eq_none_iff (C : c.Indexed) {name : String} :
    c.locateName? name = none ↔ name ∉ c.names :=
  bind_at?_eq_none_iff C.byName

/-! ### What a change may do -/

/-- The second catalog goes on from the first: kinds and names keep their positions, new ones
are added at the end, and it is in agreement with its indexes. -/
structure GrowsTo (c c' : Catalog U) : Prop where
  id_eq : c'.id = c.id
  tags_prefix : c.tags <+: c'.tags
  indexed : c'.Indexed

theorem Indexed.growsTo_self (C : c.Indexed) : c.GrowsTo c := ⟨rfl, List.prefix_refl _, C⟩

theorem GrowsTo.trans {c'' : Catalog U} (h : c.GrowsTo c') (h' : c'.GrowsTo c'') :
    c.GrowsTo c'' :=
  ⟨h'.id_eq.trans h.id_eq, h.tags_prefix.trans h'.tags_prefix, h'.indexed⟩

/-- A descriptor in the place of one with its kind and name leaves the indexes right. -/
theorem Indexed.growsTo_replace (C : c.Indexed) {i : Fin c.entries.size}
    (htag : d.tag = (c.entry i).tag) (howner : d.owner = c.id) : c.GrowsTo (c.replace i d) := by
  have htags := tags_replace htag
  refine ⟨rfl, htags ▸ List.prefix_refl _, ?_, ?_, ?_⟩
  · rw [Registry.kinds_eq, htags, ← Registry.kinds_eq]
    exact C.byKind
  · rw [Registry.names_eq, htags, ← Registry.names_eq]
    exact C.byName
  · intro e he
    obtain he | rfl := Array.mem_or_eq_of_mem_set (w := i.2) he
    · exact C.owner e he
    · exact howner

/-- A descriptor with a new kind and a new name is entered in the indexes. -/
theorem Indexed.growsTo_push (C : c.Indexed) (hkind : d.kind ∉ c.kinds)
    (hname : d.name ∉ c.names) (howner : d.owner = c.id) : c.GrowsTo (c.push d) := by
  have htags := c.tags_push d
  refine ⟨rfl, htags ▸ List.prefix_append _ _, ?_, ?_, ?_⟩
  · rw [Registry.kinds_eq, htags, List.map_append, ← Registry.kinds_eq]
    have hput := C.byKind.put hkind
    rwa [Registry.kinds, List.length_map, Array.length_toList] at hput
  · rw [Registry.names_eq, htags, List.map_append, ← Registry.names_eq]
    have hput := C.byName.put hname
    rwa [Registry.names, List.length_map, Array.length_toList] at hput
  · intro e he
    obtain he | rfl := Array.mem_push.1 he
    · exact C.owner e he
    · exact howner

/-! ### Registration -/

/-- Opening a type again changes neither its kind nor its name. -/
theorem Indexed.growsTo_reopen (C : c.Indexed) (i : Fin c.entries.size) (k : Kind U)
    (build : Builder k → Builder k) : c.GrowsTo (c.reopen i k build).catalog :=
  C.growsTo_replace (Descriptor.tag_withMembers ..)
    ((Descriptor.owner_withMembers ..).trans (C.owner _ (Array.getElem_mem i.2)))

theorem Indexed.growsTo_register (C : c.Indexed) {k : Kind U} {name : String}
    {build : Builder k → Builder k} {done : Enrolled U}
    (h : c.register k name build = .ok done) : c.GrowsTo done.catalog := by
  rw [register] at h
  split at h
  · split at h
    · obtain rfl := Except.ok.inj h
      exact C.growsTo_reopen _ k build
    · cases h
  · next hkind =>
    split at h
    · cases h
    · next hname =>
      obtain rfl := Except.ok.inj h
      rw [findName?, Option.map_eq_none_iff] at hname
      exact C.growsTo_push (C.locate?_eq_none_iff.1 hkind) (C.locateName?_eq_none_iff.1 hname) rfl

theorem Indexed.growsTo_ensure (C : c.Indexed) {k : Kind U} {name : String}
    {build : Builder k → Builder k} {done : Enrolled U}
    (h : c.ensure k name build = .ok done) : c.GrowsTo done.catalog := by
  rw [ensure] at h
  split at h
  · obtain rfl := Except.ok.inj h
    exact C.growsTo_reopen _ k build
  · exact C.growsTo_register h

/-- An installation is a run of registrations. -/
theorem Indexed.growsTo_install (C : c.Indexed) (types : List (Registration U)) :
    c.GrowsTo (c.install types).1 := by
  induction types generalizing c with
  | nil => exact C.growsTo_self
  | cons g types ih =>
      rw [install]
      split
      · next hdone =>
        have G := C.growsTo_ensure hdone
        exact G.trans (ih G.indexed)
      · exact C.growsTo_self

/-! ### Taking over types -/

/-- The kind of the descriptor has its name here, or both are free. -/
def Admits (c : Catalog U) (d : Descriptor U) : Prop :=
  d.tag ∈ c.tags ∨ d.kind ∉ c.kinds ∧ d.name ∉ c.names

/-- A kind that is registered has one name. -/
theorem Indexed.tag_mem_iff (C : c.Indexed) {i : Fin c.entries.size}
    (hi : c.locate? d.kind = some i) : d.tag ∈ c.tags ↔ (c.entry i).name = d.name := by
  rw [Registry.tags, Registry.mem_map_entries]
  constructor
  · rintro ⟨j, hj⟩
    have hlocate : c.locate? d.kind = some j := C.locate?_eq_some_iff.2 (congrArg Prod.fst hj)
    obtain rfl := Option.some.inj (hi.symm.trans hlocate)
    exact congrArg Prod.snd hj
  · intro hname
    exact ⟨i, congrArg₂ Prod.mk (C.locate?_eq_some_iff.1 hi) hname⟩

/-- A kind that is free has no name. -/
theorem tag_not_mem (hfree : d.kind ∉ c.kinds) : d.tag ∉ c.tags := by
  intro h
  rw [Registry.kinds_eq] at hfree
  exact hfree (List.mem_map.2 ⟨d.tag, h, rfl⟩)

/-- The check lets exactly the descriptors pass that can be taken over. -/
theorem Indexed.checkAdoptable_eq_ok_iff (C : c.Indexed) :
    c.checkAdoptable d = .ok () ↔ c.Admits d := by
  rw [checkAdoptable, find?, findName?, Admits]
  cases hkind : c.locate? d.kind with
  | some i =>
      have hknown : d.kind ∈ c.kinds :=
        Registry.mem_map_entries.2 ⟨i, C.locate?_eq_some_iff.1 hkind⟩
      rw [C.tag_mem_iff hkind]
      simp [hknown]
  | none =>
      have hfree := C.locate?_eq_none_iff.1 hkind
      cases hname : c.locateName? d.name with
      | some i =>
          have hknown : d.name ∈ c.names :=
            Registry.mem_map_entries.2 ⟨i, C.locateName?_eq_some_iff.1 hname⟩
          simp [tag_not_mem hfree, hknown]
      | none => simp [hfree, C.locateName?_eq_none_iff.1 hname]

/-- A descriptor that can be taken over is put in the place of the one of its kind, or added with
a new kind and a new name. -/
theorem Indexed.adopt_cases (C : c.Indexed) (hd : c.Admits d) :
    c.GrowsTo (c.adopt d) ∧ ((c.adopt d).tags = c.tags ∨ (c.adopt d).tags = c.tags ++ [d.tag]) := by
  rw [adopt]
  dsimp only
  split
  · next i hi =>
    have hkind := C.locate?_eq_some_iff.1 hi
    have hmem := hd.resolve_right fun h => h.1 (Registry.mem_map_entries.2 ⟨i, hkind⟩)
    have htag : d.tag = (c.entry i).tag :=
      congrArg₂ Prod.mk hkind.symm ((C.tag_mem_iff hi).1 hmem).symm
    exact ⟨C.growsTo_replace htag rfl, .inl (tags_replace htag)⟩
  · next hfree =>
    have hnew := C.locate?_eq_none_iff.1 hfree
    have hname := (hd.resolve_left (tag_not_mem hnew)).2
    exact ⟨C.growsTo_push hnew hname rfl, .inr (c.tags_push _)⟩

/-- What can be taken over can still be after a descriptor of another kind and name. -/
theorem Indexed.admits_adopt (C : c.Indexed) (hd : c.Admits d) (he : c.Admits e)
    (hkind : e.kind ≠ d.kind) (hname : e.name ≠ d.name) : (c.adopt d).Admits e := by
  obtain ⟨-, htags | htags⟩ := C.adopt_cases hd
  · rw [Admits, Registry.kinds_eq, Registry.names_eq, htags, ← Registry.kinds_eq,
      ← Registry.names_eq]
    exact he
  · rw [Admits, Registry.kinds_eq, Registry.names_eq, htags, List.map_append, List.map_append,
      ← Registry.kinds_eq, ← Registry.names_eq]
    obtain he | ⟨hfree, hnew⟩ := he
    · exact .inl (List.mem_append_left _ he)
    · exact .inr ⟨by simp [hfree, hkind, Descriptor.tag], by simp [hnew, hname, Descriptor.tag]⟩

/-- Of descriptors of different kinds and names that can be taken over, the others still can be
after the first. -/
theorem Indexed.admits_rest (C : c.Indexed) {ds : List (Descriptor U)}
    (hkinds : ((d :: ds).map (·.kind)).Nodup) (hnames : ((d :: ds).map (·.name)).Nodup)
    (hds : ∀ e ∈ d :: ds, c.Admits e) : ∀ e ∈ ds, (c.adopt d).Admits e := by
  rw [List.map_cons, List.nodup_cons] at hkinds hnames
  intro e he
  refine C.admits_adopt (hds d List.mem_cons_self) (hds e (List.mem_cons_of_mem _ he)) ?_ ?_
  · exact fun h => hkinds.1 (h ▸ List.mem_map_of_mem he)
  · exact fun h => hnames.1 (h ▸ List.mem_map_of_mem he)

/-- Descriptors of different kinds and names that can be taken over each can all be. -/
theorem Indexed.growsTo_foldl_adopt (C : c.Indexed) {ds : List (Descriptor U)}
    (hkinds : (ds.map (·.kind)).Nodup) (hnames : (ds.map (·.name)).Nodup)
    (hds : ∀ d ∈ ds, c.Admits d) : c.GrowsTo (ds.foldl adopt c) := by
  induction ds generalizing c with
  | nil => exact C.growsTo_self
  | cons d ds ih =>
      have G := (C.adopt_cases (hds d List.mem_cons_self)).1
      exact G.trans (ih G.indexed hkinds.of_cons hnames.of_cons (C.admits_rest hkinds hnames hds))

/-- What follows a check is done only where the check passes. -/
theorem passed_of_eq_ok {ε α : Type} {check : Except ε Unit} {k : Unit → Except ε α} {a : α}
    (h : check >>= k = .ok a) : check = .ok () ∧ k () = .ok a := by
  cases check with
  | error e => cases h
  | ok u => exact ⟨rfl, h⟩

/-- A check of every item passes only where each passes. -/
theorem all_passed_of_eq_ok {ε α : Type} {check : α → Except ε Unit} {as : List α}
    (h : forM as check = .ok ()) : ∀ a ∈ as, check a = .ok () := by
  induction as with
  | nil => simp
  | cons a as ih =>
      rw [List.forM_cons] at h
      obtain ⟨ha, has⟩ := passed_of_eq_ok h
      exact List.forall_mem_cons.2 ⟨ha, ih has⟩

/-- Types are taken over from another catalog only where each can be. -/
theorem Indexed.admits_of_checked (C : c.Indexed)
    (h : other.entries.forM c.checkAdoptable = .ok ()) :
    ∀ d ∈ other.entries.toList, c.Admits d := by
  intro d hd
  rw [← other.entries.toArray_toList, Array.forM_eq_forM, List.forM_toArray] at h
  exact C.checkAdoptable_eq_ok_iff.1 (all_passed_of_eq_ok h d hd)

theorem Indexed.growsTo_adoptAll (C : c.Indexed) (D : other.Indexed)
    (h : c.adoptAll other = .ok c') : c.GrowsTo c' := by
  obtain ⟨hcheck, h⟩ := passed_of_eq_ok h
  obtain rfl := Except.ok.inj h
  rw [← Array.foldl_toList]
  exact C.growsTo_foldl_adopt D.byKind.nodup D.byName.nodup (C.admits_of_checked hcheck)

theorem Indexed.growsTo_adoptOne (C : c.Indexed) {k : Kind U}
    (h : c.adoptOne other k = .ok c') : c.GrowsTo c' := by
  rw [adoptOne] at h
  split at h
  · cases h
  · obtain ⟨hcheck, h⟩ := passed_of_eq_ok h
    obtain rfl := Except.ok.inj h
    exact (C.adopt_cases (C.checkAdoptable_eq_ok_iff.1 hcheck)).1

end Catalog

/-! ### Runs of changes -/

/-- A change goes on from the catalog, whether it fails or not. -/
theorem Change.growsTo_run {c : Catalog U} (C : c.Indexed) (change : Change U)
    (hother : ∀ other ∈ change.other?, other.Indexed) : c.GrowsTo (change.run c).1 := by
  cases change with
  | register k name build =>
      rw [run]
      cases hdone : c.register k name build with
      | ok done => exact C.growsTo_register hdone
      | error e => exact C.growsTo_self
  | ensure k name build =>
      rw [run]
      cases hdone : c.ensure k name build with
      | ok done => exact C.growsTo_ensure hdone
      | error e => exact C.growsTo_self
  | install types => exact C.growsTo_install types
  | adoptAll other =>
      rw [run]
      cases hdone : c.adoptAll other with
      | ok c' => exact C.growsTo_adoptAll (hother other rfl) hdone
      | error e => exact C.growsTo_self
  | adoptOne other k =>
      rw [run]
      cases hdone : c.adoptOne other k with
      | ok c' => exact C.growsTo_adoptOne hdone
      | error e => exact C.growsTo_self

namespace Catalog

/-- The catalogs that changes make from one without types.  Types are taken over from such
catalogs too. -/
inductive Reachable : Catalog U → Prop
  | empty (id : Nat) : Reachable (.empty id)
  | change {c : Catalog U} (change : Change U) : c.Reachable →
      (∀ other ∈ change.other?, other.Reachable) → Reachable (change.run c).1

/-- The second catalog comes from the first by changes. -/
inductive Evolves : Catalog U → Catalog U → Prop
  | refl (c : Catalog U) : Evolves c c
  | change {c c' : Catalog U} (change : Change U) : c.Evolves c' →
      (∀ other ∈ change.other?, other.Reachable) → Evolves c (change.run c').1

/-- The catalog of the built-in types is one that changes make. -/
theorem reachable_standard (id : Nat) : (standard id : Catalog U).Reachable :=
  .change (.install builtinTypes) (.empty id) nofun

/-- Changes keep a catalog in agreement with its indexes. -/
theorem Reachable.indexed {c : Catalog U} (hc : c.Reachable) : c.Indexed := by
  induction hc with
  | empty id => exact indexed_empty id
  | change change _ _ ih ihother => exact (change.growsTo_run ih ihother).indexed

/-- Whatever changes follow, a catalog is gone on from. -/
theorem Evolves.growsTo {c c' : Catalog U} (C : c.Indexed) (h : c.Evolves c') : c.GrowsTo c' := by
  induction h with
  | refl => exact C.growsTo_self
  | change change _ hother ih =>
      exact ih.trans (change.growsTo_run ih.indexed fun other ho => (hother other ho).indexed)

end Catalog

/-- Code that installs types: it makes one change after another, and goes on as it likes from what
came of them, failures included. -/
inductive Installer (U : Universe)
  | finish (result : Except (ScriptError U) Unit)
  | andThen (first : Change U) (next : Catalog U → Except (ScriptError U) Unit → Installer U)

namespace Installer

/-- The catalog that the code leaves, and its result. -/
def run (c : Catalog U) : Installer U → Catalog U × Except (ScriptError U) Unit
  | finish result => (c, result)
  | andThen first next => (next (first.run c).1 (first.run c).2).run (first.run c).1

/-- The code takes types over from catalogs that changes make. -/
def TakesReachable : Installer U → Prop
  | finish _ => True
  | andThen first next =>
      (∀ other ∈ first.other?, other.Reachable) ∧ ∀ c result, (next c result).TakesReachable

/-- What any code installs, it installs by changes. -/
theorem evolves_run {c c' : Catalog U} (h : c.Evolves c') {p : Installer U}
    (hp : p.TakesReachable) : c.Evolves (p.run c').1 := by
  induction p generalizing c' with
  | finish result => exact h
  | andThen first next ih => exact ih _ _ (.change first h hp.1) (hp.2 _ _)

end Installer

namespace Catalog

/-- Catalogs that come by changes from one that changes make are such catalogs too. -/
theorem Evolves.reachable {c c' : Catalog U} (h : c.Evolves c') (hc : c.Reachable) :
    c'.Reachable := by
  induction h with
  | refl => exact hc
  | change change _ hother ih => exact .change change ih hother

/-! ### Look-ups by kind and by name -/

variable {c : Catalog U}

/-- **The indexes of a catalog are right, and stay so.**  In a catalog that changes make, no kind
and no name is registered twice; the indexes give every kind and every name that is registered the
position of its descriptor, and nothing else; and the catalog owns its descriptors.  Whatever
changes follow, every kind keeps its name and its position.  So the descriptor of a kind is the
one of its name, and construction by the one is construction by the other. -/
theorem catalog_spec (hc : c.Reachable) :
    c.kinds.Nodup ∧ c.names.Nodup ∧
    (∀ k i, c.byKind.find? k = some i ↔ c.kinds[i]? = some k) ∧
    (∀ name i, c.byName.find? name = some i ↔ c.names[i]? = some name) ∧
    (∀ d ∈ c.entries, d.owner = c.id) ∧
    (∀ c', c.Evolves c' → c'.id = c.id ∧ c.tags <+: c'.tags ∧ c.names <+: c'.names) ∧
    (∀ k d, c.find? k = some d → d.kind = k ∧ c.findName? d.name = some d) ∧
    (∀ name d, c.findName? name = some d → d.name = name ∧ c.find? d.kind = some d) ∧
    ∀ k d args, c.find? k = some d → c.construct k args = c.constructNamed d.name args := by
  have C := hc.indexed
  refine ⟨C.byKind.nodup, C.byName.nodup, C.byKind, C.byName, C.owner, ?_, ?_, ?_, ?_⟩
  · intro c' h
    have G := h.growsTo C
    refine ⟨G.id_eq, G.tags_prefix, ?_⟩
    rw [Registry.names_eq, Registry.names_eq]
    exact G.tags_prefix.map Prod.snd
  · intro k d h
    obtain ⟨i, hi, rfl⟩ := Option.map_eq_some_iff.1 h
    refine ⟨C.locate?_eq_some_iff.1 hi, ?_⟩
    rw [findName?, C.locateName?_eq_some_iff.2 rfl, Option.map_some]
  · intro name d h
    obtain ⟨i, hi, rfl⟩ := Option.map_eq_some_iff.1 h
    refine ⟨C.locateName?_eq_some_iff.1 hi, ?_⟩
    rw [find?, C.locate?_eq_some_iff.2 rfl, Option.map_some]
  · intro k d args h
    obtain ⟨i, hi, rfl⟩ := Option.map_eq_some_iff.1 h
    rw [construct, constructNamed, hi, C.locateName?_eq_some_iff.2 rfl]
    rfl

/-- A type is taken over from another catalog, one is added, and a name that is taken is
refused. -/
theorem catalog_spec_small :
    ∃ c c' : Catalog Gallery.world, c.Reachable ∧ c.Evolves c' ∧
      c.names = ["text"] ∧ c'.names = ["text", "number"] ∧ c.names <+: c'.names ∧
      ∀ args, c.construct .string args = c.constructNamed "text" args := by
  let other : Catalog Gallery.world := ((Change.register .string "text" id).run (.empty 1)).1
  let c : Catalog Gallery.world := ((Change.adoptOne other .string).run (.empty 2)).1
  let c₁ : Catalog Gallery.world := ((Change.register .int "number" id).run c).1
  let c₂ : Catalog Gallery.world := ((Change.register .unit "number" id).run c₁).1
  have hother : other.Reachable := .change _ (.empty 1) nofun
  have hc : c.Reachable := .change _ (.empty 2) (by rintro _ ⟨⟩; exact hother)
  have hevolves : c.Evolves c₂ := .change _ (.change _ (.refl c) nofun) nofun
  obtain ⟨-, -, -, -, -, hgrows, -, -, hconstruct⟩ := catalog_spec hc
  refine ⟨c, c₂, hc, hevolves, rfl, rfl, (hgrows c₂ hevolves).2.2, fun args => ?_⟩
  exact hconstruct .string _ args rfl

end Catalog

end ChainScript.Script
