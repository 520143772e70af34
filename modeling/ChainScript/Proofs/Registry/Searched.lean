import ChainScript.Proofs.Registry.Indexed

/-!
# Catalogs as registries

A catalog looks types up in its indexes, a registry searches its list.  Where the indexes are
right the two find the same, so every operation on a catalog is the operation on its registry.

## Main results

* `Catalog.Indexed.indexOf?_eq`, `Catalog.Indexed.indexOfName?_eq` — look-ups.
* `Catalog.Indexed.registered_register`, `Catalog.Indexed.toRegistry_install`,
  `Catalog.Indexed.toRegistry_adoptAll`, … — changes.
* `Catalog.Indexed.construct_eq`, `Catalog.Indexed.constructNamed_eq` — construction.
-/

namespace ChainScript.Script

variable {U : Universe}

/-- A search finds the one item that satisfies the predicate. -/
theorem findFinIdx?_eq_some_of_unique {α : Type} {xs : Array α} {p : α → Bool} {i : Fin xs.size}
    (hi : p xs[i] = true) (hunique : ∀ j : Fin xs.size, p xs[j] = true → j = i) :
    xs.findFinIdx? p = some i := by
  rw [Array.findFinIdx?_eq_some_iff]
  exact ⟨hi, fun j hj hp => absurd (hunique j hp) (Fin.ne_of_lt hj)⟩

/-- What comes of registering a type, without the indexes. -/
def Enrolled.registered (done : Enrolled U) : Registered U :=
  ⟨done.catalog.toRegistry, done.name, done.policy⟩

namespace Catalog

variable {c other : Catalog U} {k : Kind U} {name : String}

/-! ### Look-ups -/

theorem Indexed.indexOf?_eq (C : c.Indexed) (k : Kind U) :
    c.toRegistry.indexOf? k = c.locate? k := by
  rw [Registry.indexOf?]
  cases h : c.locate? k with
  | some i =>
      refine findFinIdx?_eq_some_of_unique (decide_eq_true (C.locate?_eq_some_iff.1 h))
        fun j hj => ?_
      have hlocate := C.locate?_eq_some_iff.2 (of_decide_eq_true hj)
      exact Option.some.inj (hlocate.symm.trans h)
  | none =>
      rw [Array.findFinIdx?_eq_none_iff]
      intro d hd hkind
      refine C.locate?_eq_none_iff.1 h ?_
      exact of_decide_eq_true hkind ▸ List.mem_map_of_mem (Array.mem_toList_iff.2 hd)

theorem Indexed.indexOfName?_eq (C : c.Indexed) (name : String) :
    c.toRegistry.indexOfName? name = c.locateName? name := by
  rw [Registry.indexOfName?]
  cases h : c.locateName? name with
  | some i =>
      refine findFinIdx?_eq_some_of_unique (beq_iff_eq.2 (C.locateName?_eq_some_iff.1 h))
        fun j hj => ?_
      have hlocate := C.locateName?_eq_some_iff.2 (eq_of_beq hj)
      exact Option.some.inj (hlocate.symm.trans h)
  | none =>
      rw [Array.findFinIdx?_eq_none_iff]
      intro d hd hname
      refine C.locateName?_eq_none_iff.1 h ?_
      exact eq_of_beq hname ▸ List.mem_map_of_mem (Array.mem_toList_iff.2 hd)

theorem Indexed.find?_eq (C : c.Indexed) (k : Kind U) : c.toRegistry.find? k = c.find? k := by
  rw [Registry.find?, C.indexOf?_eq]
  rfl

theorem Indexed.findName?_eq (C : c.Indexed) (name : String) :
    c.toRegistry.findName? name = c.findName? name := by
  rw [Registry.findName?, C.indexOfName?_eq]
  rfl

theorem Indexed.contains_eq (C : c.Indexed) (k : Kind U) :
    c.toRegistry.contains k = c.contains k := by
  rw [Registry.contains, C.indexOf?_eq, contains, Bool.eq_iff_iff, Option.isSome_iff_ne_none,
    Option.isSome_iff_ne_none, ne_eq, ne_eq, C.locate?_eq_none_iff, C.byKind.find?_eq_none_iff]

theorem Indexed.typeName_eq (C : c.Indexed) (k : Kind U) (strict : Bool) :
    c.toRegistry.typeName k strict = c.typeName k strict := by
  rw [Registry.typeName, Registry.label, Registry.contains, C.indexOf?_eq, C.find?_eq, typeName,
    find?]
  cases c.locate? k <;> cases strict <;> rfl

/-! ### Changes -/

theorem Indexed.registered_register (C : c.Indexed) (k : Kind U) (name : String)
    (build : Builder k → Builder k) :
    Enrolled.registered <$> c.register k name build = c.toRegistry.register k name build := by
  rw [register, Registry.register, Registry.addNamed, C.indexOf?_eq, C.findName?_eq]
  cases c.locate? k with
  | some i => exact apply_ite (Enrolled.registered <$> ·) ((c.entry i).name = name) ..
  | none => cases c.findName? name <;> rfl

theorem Indexed.registered_ensure (C : c.Indexed) (k : Kind U) (name : String)
    (build : Builder k → Builder k) :
    Enrolled.registered <$> c.ensure k name build = c.toRegistry.ensure k name build := by
  rw [ensure, Registry.ensure, C.indexOf?_eq]
  cases hk : c.locate? k with
  | some i => rfl
  | none =>
      have h := C.registered_register k name build
      rw [Registry.register, C.indexOf?_eq, hk] at h
      exact h

theorem Indexed.toRegistry_install (C : c.Indexed) (types : List (Registration U)) :
    ((c.install types).1.toRegistry, (c.install types).2) = c.toRegistry.provide types := by
  induction types generalizing c with
  | nil => rfl
  | cons g types ih =>
      have h := C.registered_ensure g.kind g.name g.build
      rw [install, Registry.provide, Registry.provideOne, ← h]
      cases hdone : c.ensure g.kind g.name g.build with
      | ok done => exact ih (C.growsTo_ensure hdone).indexed
      | error e => rfl

theorem Indexed.checkAdoptable_eq (C : c.Indexed) (d : Descriptor U) :
    c.toRegistry.checkAdoptable d = c.checkAdoptable d := by
  rw [Registry.checkAdoptable, C.find?_eq, C.findName?_eq]
  rfl

theorem Indexed.toRegistry_adopt (C : c.Indexed) (d : Descriptor U) :
    (c.adopt d).toRegistry = c.toRegistry.adopt d := by
  rw [adopt, Registry.adopt, C.indexOf?_eq]
  dsimp only
  cases c.locate? d.kind <;> rfl

theorem Indexed.toRegistry_foldl_adopt (C : c.Indexed) {ds : List (Descriptor U)}
    (hkinds : (ds.map (·.kind)).Nodup) (hnames : (ds.map (·.name)).Nodup)
    (hds : ∀ d ∈ ds, c.Admits d) :
    (ds.foldl adopt c).toRegistry = ds.foldl Registry.adopt c.toRegistry := by
  induction ds generalizing c with
  | nil => rfl
  | cons d ds ih =>
      rw [List.foldl_cons, List.foldl_cons, ← C.toRegistry_adopt]
      have G := (C.adopt_cases (hds d List.mem_cons_self)).1
      exact ih G.indexed hkinds.of_cons hnames.of_cons (C.admits_rest hkinds hnames hds)

theorem Indexed.toRegistry_adoptAll (C : c.Indexed) (D : other.Indexed) :
    (·.toRegistry) <$> c.adoptAll other = c.toRegistry.adoptAll other.toRegistry := by
  have hcheck : c.toRegistry.checkAdoptable = c.checkAdoptable := funext C.checkAdoptable_eq
  rw [Registry.adoptAll, hcheck, adoptAll]
  cases h : other.entries.forM c.checkAdoptable with
  | error e => rfl
  | ok u =>
      have hfold := C.toRegistry_foldl_adopt D.byKind.nodup D.byName.nodup (C.admits_of_checked h)
      rw [Array.foldl_toList, Array.foldl_toList] at hfold
      exact congrArg Except.ok hfold

theorem Indexed.toRegistry_adoptOne (C : c.Indexed) (D : other.Indexed) (k : Kind U) :
    (·.toRegistry) <$> c.adoptOne other k = c.toRegistry.adoptOne other.toRegistry k := by
  rw [adoptOne, Registry.adoptOne, D.find?_eq]
  cases other.find? k with
  | none => rfl
  | some d =>
      dsimp only
      rw [C.checkAdoptable_eq, ← C.toRegistry_adopt]
      cases c.checkAdoptable d <;> rfl

/-! ### Construction -/

theorem Indexed.construct_eq (C : c.Indexed) (k : Kind U) (args : List (Object U)) :
    c.toRegistry.construct k args = c.construct k args := by
  rw [Registry.construct, C.indexOf?_eq, construct]

theorem Indexed.constructNamed_eq (C : c.Indexed) (name : String) (args : List (Object U)) :
    c.toRegistry.constructNamed name args = c.constructNamed name args := by
  rw [Registry.constructNamed, C.indexOfName?_eq, constructNamed]

end Catalog

end ChainScript.Script
