import ChainScript.Proofs.Heap.Places

/-!
# Kinds of places

The steps of a path fit together where each begins with the kind that the one before it ends
with.  At the end of such a path from a cell there is a value of the last kind, and another
value of that kind can be put there; the cell keeps its kind.

## Main definitions

* `Fits` — the steps of a path lead from one kind to another.
* `Heap.Holds` — a place holds a value of a kind.
* `Heap.KeepsKinds` — every cell of one heap has a value of the same kind in another.

## Main results

* `Heap.Holds.exists_read?` — the value at a place.
* `Heap.keepsKinds_write` — its replacement by one of the same kind.
-/

namespace ChainScript.Script

variable {U : Universe}

/-! ### Paths that fit -/

/-- The steps of the path lead from values of the first kind to parts of the second. -/
inductive Fits : Kind U → List (Step U) → Kind U → Prop
  | nil (k : Kind U) : Fits k [] k
  | cons (s : Step U) {path : List (Step U)} {k : Kind U} : Fits s.part path k →
      Fits s.whole (s :: path) k

theorem Fits.concat {k : Kind U} {path : List (Step U)} {s : Step U} (F : Fits k path s.whole) :
    Fits k (path ++ [s]) s.part := by
  generalize hend : s.whole = k' at F
  induction F with
  | nil k => exact hend ▸ .cons s (.nil _)
  | cons t _ ih => exact .cons t (ih hend)

section Paths

variable {k : Kind U} {path : List (Step U)} {v part : Value U}

theorem Step.exists_view? {s : Step U} (h : v.kind = s.whole) :
    ∃ part, s.view? v = some part ∧ part.kind = s.part := by
  obtain ⟨x, hx⟩ := Option.isSome_iff_exists.1 (Value.as?_isSome_iff.2 h)
  exact ⟨_, Step.view?_eq_some_iff.2 ⟨x, Value.as?_eq_some_iff.1 hx, rfl⟩, rfl⟩

theorem Step.exists_put? {s : Step U} (h : v.kind = s.whole) (hpart : part.kind = s.part) :
    ∃ w, s.put? v part = some w ∧ w.kind = s.whole := by
  obtain ⟨x, hx⟩ := Option.isSome_iff_exists.1 (Value.as?_isSome_iff.2 h)
  obtain ⟨y, hy⟩ := Option.isSome_iff_exists.1 (Value.as?_isSome_iff.2 hpart)
  exact ⟨_, Step.put?_eq_some_iff.2
    ⟨x, y, Value.as?_eq_some_iff.1 hx, Value.as?_eq_some_iff.1 hy, rfl⟩, rfl⟩

/-- A path that fits ends in a part. -/
theorem Fits.exists_viewPath? (F : Fits v.kind path k) :
    ∃ part, viewPath? path v = some part ∧ part.kind = k := by
  generalize hbegin : v.kind = k' at F
  induction F generalizing v with
  | nil k => exact ⟨v, rfl, hbegin⟩
  | cons s _ ih =>
      obtain ⟨inner, hview, hinner⟩ := Step.exists_view? hbegin
      obtain ⟨part, hpath, hpart⟩ := ih hinner
      exact ⟨part, by rw [viewPath?_cons, hview, Option.bind_some, hpath], hpart⟩

/-- At the end of a path that fits another part can be put. -/
theorem Fits.exists_putPath? (F : Fits v.kind path k) (hpart : part.kind = k) :
    ∃ w, putPath? path v part = some w ∧ w.kind = v.kind := by
  generalize hbegin : v.kind = k' at F
  induction F generalizing v with
  | nil k => exact ⟨part, rfl, hpart⟩
  | cons s _ ih =>
      obtain ⟨inner, hview, hinner⟩ := Step.exists_view? hbegin
      obtain ⟨inner', hput, hinner'⟩ := ih hpart hinner
      obtain ⟨w, hw, hkind⟩ := Step.exists_put? hbegin hinner'
      exact ⟨w, putPath?_cons_eq_some_iff.2 ⟨inner, inner', hview, hput, hw⟩, hkind⟩

end Paths

/-! ### Heaps -/

namespace Heap

/-- The place holds a value of the kind: its path leads there from the kind of its cell. -/
def Holds (h : Heap U) (p : Place U) (k : Kind U) : Prop :=
  ∃ v, h.value? p.root = some v ∧ Fits v.kind p.path k

/-- Every cell of the first heap has a value of the same kind in the second. -/
def KeepsKinds (h h' : Heap U) : Prop :=
  ∀ l v, h.value? l = some v → ∃ v', h'.value? l = some v' ∧ v'.kind = v.kind

variable {h h' h'' : Heap U} {p : Place U} {k : Kind U} {v : Value U} {l : Loc}

theorem KeepsKinds.refl (h : Heap U) : h.KeepsKinds h := fun _ v hv => ⟨v, hv, rfl⟩

theorem KeepsKinds.trans (K : h.KeepsKinds h') (K' : h'.KeepsKinds h'') : h.KeepsKinds h'' := by
  intro l v hv
  obtain ⟨v', hv', hkind⟩ := K l v hv
  obtain ⟨v'', hv'', hkind'⟩ := K' l v' hv'
  exact ⟨v'', hv'', hkind'.trans hkind⟩

theorem holds_cell (hl : h.value? l = some v) : h.Holds ⟨l, []⟩ v.kind := ⟨v, hl, .nil _⟩

theorem Holds.mono (H : h.Holds p k) (K : h.KeepsKinds h') : h'.Holds p k := by
  obtain ⟨v, hv, F⟩ := H
  obtain ⟨v', hv', hkind⟩ := K _ v hv
  exact ⟨v', hv', hkind ▸ F⟩

/-- A place holds a part of what it holds. -/
theorem Holds.part {s : Step U} {l : Loc} {path : List (Step U)}
    (H : h.Holds ⟨l, path⟩ s.whole) : h.Holds ⟨l, path ++ [s]⟩ s.part := by
  obtain ⟨v, hv, F⟩ := H
  exact ⟨v, hv, F.concat⟩

theorem Holds.exists_read? (H : h.Holds p k) : ∃ v, h.read? p = some v ∧ v.kind = k := by
  obtain ⟨whole, hwhole, F⟩ := H
  obtain ⟨part, hpart, hkind⟩ := F.exists_viewPath?
  exact ⟨part, by rw [read?, hwhole]; exact hpart, hkind⟩

/-! ### Changes that keep kinds -/

/-- A change of a cell that keeps the kind of its value. -/
theorem keepsKinds_modify {f : Cell U → Cell U}
    (hf : ∀ c, h.cells[l]? = some c → (f c).value.kind = c.value.kind) :
    h.KeepsKinds ⟨h.cells.modify l f⟩ := by
  intro i v hv
  obtain ⟨c, hc, rfl⟩ := Option.map_eq_some_iff.1 hv
  rw [value?, Array.getElem?_modify, hc]
  split
  · next hi => exact ⟨_, rfl, hf c (hi ▸ hc)⟩
  · exact ⟨_, rfl, rfl⟩

theorem keepsKinds_setWriter (h : Heap U) (l : Loc) (held : Bool) :
    h.KeepsKinds (h.setWriter l held) :=
  keepsKinds_modify fun _ _ => rfl

theorem keepsKinds_alloc (h : Heap U) (v : Value U) : h.KeepsKinds (h.alloc v).2 := by
  intro l w hw
  obtain ⟨c, hc, rfl⟩ := Option.map_eq_some_iff.1 hw
  have hl := (Array.getElem?_eq_some_iff.1 hc).1
  refine ⟨c.value, ?_, rfl⟩
  rw [value?, alloc, Array.getElem?_push_lt hl, ← Array.getElem?_eq_getElem hl, hc]
  rfl

theorem value?_alloc (h : Heap U) (v : Value U) : (h.alloc v).2.value? (h.alloc v).1 = some v := by
  rw [value?, alloc, Array.getElem?_push_size]
  rfl

/-- A value of the kind that a place holds can be written there. -/
theorem keepsKinds_write (H : h.Holds p k) (hkind : v.kind = k) : h.KeepsKinds (h.write p v) := by
  obtain ⟨whole, hwhole, F⟩ := H
  obtain ⟨whole', hput, hwhole'⟩ := F.exists_putPath? hkind
  rw [write_of_putPath? hwhole hput]
  refine keepsKinds_modify fun c hc => ?_
  rw [value?, hc] at hwhole
  obtain rfl := Option.some.inj hwhole
  exact hwhole'

end Heap

end ChainScript.Script
