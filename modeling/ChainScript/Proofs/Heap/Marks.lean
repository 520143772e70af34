import ChainScript.Proofs.Heap.Places

/-!
# Who holds a cell

A cell is marked with the number of its readers and with its writer.  New cells and new values
leave the marks as they are; only the operations that take or give back a borrow change them.

## Main definitions

* `Heap.readers`, `Heap.hasWriter` — the marks of a cell.
* `Heap.SameMarks` — two heaps have the same marks.

## Main results

* `Heap.canRead_eq`, `Heap.canWrite_eq` — what the marks of a cell allow.
* `Heap.sameMarks_alloc`, `Heap.sameMarks_write` — new cells and new values.
* `Heap.hasWriter_setWriter_false`, `Heap.hasWriter_setWriter_true` — a writer goes or comes.
-/

namespace ChainScript.Script

variable {U : Universe}

namespace Heap

variable {h h' h'' : Heap U} {l : Loc} {v : Value U}

/-- How many readers hold the cell. -/
def readers (h : Heap U) (l : Loc) : Nat := (h.cells[l]?.map (·.readers)).getD 0

/-- A writer holds the cell. -/
def hasWriter (h : Heap U) (l : Loc) : Bool := (h.cells[l]?.map (·.writer)).getD false

/-- The heaps have the same marks. -/
structure SameMarks (h h' : Heap U) : Prop where
  readers : ∀ l, h'.readers l = h.readers l
  hasWriter : ∀ l, h'.hasWriter l = h.hasWriter l

theorem SameMarks.refl (h : Heap U) : h.SameMarks h := ⟨fun _ => rfl, fun _ => rfl⟩

/-! ### What the marks allow -/

theorem canRead_eq (hl : h.value? l = some v) : h.canRead l = !h.hasWriter l := by
  obtain ⟨c, hc, -⟩ := Option.map_eq_some_iff.1 hl
  simp [canRead, hasWriter, hc]

theorem canWrite_eq (hl : h.value? l = some v) :
    h.canWrite l = (!h.hasWriter l && h.readers l == 0) := by
  obtain ⟨c, hc, -⟩ := Option.map_eq_some_iff.1 hl
  simp [canWrite, hasWriter, readers, hc]

/-- A cell without a value has no marks. -/
theorem hasWriter_of_size_le (hl : h.cells.size ≤ l) : h.hasWriter l = false := by
  rw [hasWriter, Array.getElem?_eq_none hl]
  rfl

/-! ### New cells and new values -/

/-- A change to a cell that leaves its marks alone. -/
theorem sameMarks_modify {f : Cell U → Cell U}
    (hf : ∀ c, (f c).readers = c.readers ∧ (f c).writer = c.writer) :
    h.SameMarks ⟨h.cells.modify l f⟩ := by
  constructor <;> intro i
  · simp only [Heap.readers, Array.getElem?_modify]
    split
    · cases h.cells[i]? <;> simp [hf]
    · rfl
  · simp only [Heap.hasWriter, Array.getElem?_modify]
    split
    · cases h.cells[i]? <;> simp [hf]
    · rfl

theorem sameMarks_setValue (h : Heap U) (l : Loc) (v : Value U) : h.SameMarks (h.setValue l v) :=
  sameMarks_modify fun _ => ⟨rfl, rfl⟩

theorem sameMarks_write (h : Heap U) (p : Place U) (v : Value U) : h.SameMarks (h.write p v) := by
  obtain heq | ⟨-, whole, -, -, heq⟩ := h.write_cases p v
  · rw [heq]
    exact .refl h
  · rw [heq]
    exact h.sameMarks_setValue _ _

/-- A new cell is marked by nobody. -/
theorem sameMarks_alloc (h : Heap U) (v : Value U) : h.SameMarks (h.alloc v).2 := by
  constructor <;> intro i
  · simp only [Heap.readers, alloc, Array.getElem?_push]
    split
    · next hi => simp [hi]
    · rfl
  · simp only [Heap.hasWriter, alloc, Array.getElem?_push]
    split
    · next hi => simp [hi]
    · rfl

/-! ### Writers and readers -/

@[simp] theorem readers_setWriter (h : Heap U) (l : Loc) (held : Bool) (i : Loc) :
    (h.setWriter l held).readers i = h.readers i := by
  rw [readers, readers, setWriter, Array.getElem?_modify]
  split
  · cases h.cells[i]? <;> rfl
  · rfl

theorem hasWriter_setWriter_false (h : Heap U) (l i : Loc) :
    (h.setWriter l false).hasWriter i = (h.hasWriter i && i != l) := by
  simp only [hasWriter, setWriter, Array.getElem?_modify]
  split
  · next hi => cases h.cells[i]? <;> simp [hi]
  · next hi => simp [Ne.symm hi]

theorem hasWriter_setWriter_true (hl : h.value? l = some v) (i : Loc) :
    (h.setWriter l true).hasWriter i = (h.hasWriter i || i == l) := by
  obtain ⟨c, hc, -⟩ := Option.map_eq_some_iff.1 hl
  simp only [hasWriter, setWriter, Array.getElem?_modify]
  split
  · next hi =>
    subst hi
    simp [hc]
  · next hi => simp [Ne.symm hi]

/-- A reader that comes and goes leaves the heap as it was. -/
theorem dropReader_addReader (h : Heap U) (l : Loc) : (h.addReader l).dropReader l = h := by
  obtain ⟨cells⟩ := h
  refine congrArg Heap.mk (Array.ext_getElem? fun i => ?_)
  simp only [addReader, Array.getElem?_modify]
  split
  · cases cells[i]? <;> rfl
  · rfl

end Heap

end ChainScript.Script
