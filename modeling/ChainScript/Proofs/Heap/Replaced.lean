import ChainScript.Proofs.Heap.Kinds

/-!
# Replacing the value at a place

Where a place holds a value, another value of the same kind can be put there.  It is read back, a
second one takes its place as if the first had never been put, and all other cells stay as they
are.  A heap may meanwhile have come by new cells.

## Main results

* `Heap.read?_write`, `Heap.write_write_of_holds` — what is written is read, and the last write
  stays.
* `Heap.cells_write_of_ne` — a write changes its own cell only.
* `Heap.extends_trans`, `Heap.Extends.write` — new cells, before and after a write.
-/

namespace ChainScript.Script

variable {U : Universe}

/-- A path that leads to a part fits. -/
theorem fits_of_viewPath? {path : List (Step U)} {v part : Value U}
    (h : viewPath? path v = some part) : Fits v.kind path part.kind := by
  induction path generalizing v with
  | nil =>
      obtain rfl : v = part := Option.some.inj h
      exact .nil _
  | cons s path ih =>
      rw [viewPath?_cons] at h
      obtain ⟨inner, hview, hpath⟩ := Option.bind_eq_some_iff.1 h
      obtain ⟨x, rfl, rfl⟩ := Step.view?_eq_some_iff.1 hview
      exact .cons s (ih hpath)

namespace Heap

variable {h h' h'' : Heap U} {p : Place U} {k : Kind U} {v w : Value U} {l : Loc}

/-! ### New cells -/

theorem Extends.size_le (E : h.Extends h') : h.cells.size ≤ h'.cells.size := by
  refine Nat.le_of_not_lt fun hl => ?_
  have hcell := E _ hl
  rw [Array.getElem?_eq_none (Nat.le_refl _), Array.getElem?_eq_getElem hl] at hcell
  cases hcell

theorem Extends.refl (h : Heap U) : h.Extends h := SameBelow.refl _ h

theorem extends_trans (E : h.Extends h') (E' : h'.Extends h'') : h.Extends h'' :=
  fun l hl => (E' l (Nat.lt_of_lt_of_le hl E.size_le)).trans (E l hl)

/-- The same change to a cell of both heaps. -/
theorem Extends.modify (E : h.Extends h') (l : Loc) (f : Cell U → Cell U) :
    Extends ⟨h.cells.modify l f⟩ ⟨h'.cells.modify l f⟩ := by
  have hsize : (Heap.mk (h.cells.modify l f)).cells.size = h.cells.size := Array.size_modify
  rw [Extends, hsize]
  exact SameBelow.modify E l f

/-- The same write to both heaps. -/
theorem Extends.write (E : h.Extends h') (p : Place U) (v : Value U) :
    (h.write p v).Extends (h'.write p v) := by
  rw [Extends, size_write]
  exact SameBelow.write E p v

/-- A cell that is there goes on to have its value. -/
theorem Extends.value?_eq (E : h.Extends h') (hl : h.value? l = some v) : h'.value? l = some v := by
  obtain ⟨c, hc, -⟩ := Option.map_eq_some_iff.1 hl
  rw [SameBelow.value?_eq E (Array.getElem?_eq_some_iff.1 hc).1, hl]

theorem Extends.read?_eq (E : h.Extends h') (hp : h.read? p = some v) : h'.read? p = some v := by
  rw [SameBelow.read?_eq E (root_lt_of_read? hp), hp]

/-! ### Writes -/

theorem holds_of_read? (hp : h.read? p = some v) : h.Holds p v.kind := by
  obtain ⟨whole, hwhole, hview⟩ := value?_isSome_of_read? hp
  exact ⟨whole, hwhole, fits_of_viewPath? hview⟩

/-- A write to a place that holds a value of the kind is made. -/
theorem Holds.exists_write (H : h.Holds p k) (hv : v.kind = k) :
    ∃ whole whole', h.value? p.root = some whole ∧ putPath? p.path whole v = some whole' ∧
      h.write p v = h.setValue p.root whole' := by
  obtain ⟨whole, hwhole, F⟩ := H
  obtain ⟨whole', hput, -⟩ := F.exists_putPath? hv
  exact ⟨whole, whole', hwhole, hput, write_of_putPath? hwhole hput⟩

/-- What is written is read. -/
theorem read?_write (L : LawfulPath p.path) (H : h.Holds p k) (hv : v.kind = k) :
    (h.write p v).read? p = some v := by
  obtain ⟨whole, whole', hwhole, hput, hwrite⟩ := H.exists_write hv
  rw [hwrite, read?, value?_setValue_self hwhole]
  exact viewPath?_putPath? L hput

/-- The last write stays, as if it had been the only one. -/
theorem write_write_of_holds (L : LawfulPath p.path) (H : h.Holds p k) (hv : v.kind = k)
    (hw : w.kind = k) : (h.write p v).write p w = h.write p w := by
  obtain ⟨whole, whole', hwhole, hput, hwrite⟩ := H.exists_write hv
  obtain ⟨_, whole'', hwhole', hput', hwrite'⟩ := H.exists_write hw
  obtain rfl := Option.some.inj (hwhole.symm.trans hwhole')
  rw [hwrite', hwrite]
  rw [write_of_putPath? (value?_setValue_self hwhole whole')
    ((putPath?_putPath? L hput w).trans hput'), setValue_setValue]

/-- A write changes no other cell. -/
theorem cells_write_of_ne (hl : l ≠ p.root) : (h.write p v).cells[l]? = h.cells[l]? := by
  obtain heq | ⟨-, whole, -, -, heq⟩ := h.write_cases p v
  · rw [heq]
  · rw [heq, setValue, Array.getElem?_modify, if_neg (Ne.symm hl)]

end Heap

end ChainScript.Script
