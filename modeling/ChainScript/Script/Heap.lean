import ChainScript.Script.Error
import ChainScript.Script.Lens

/-!
# The heap

Values live in numbered cells.  A cell that several handles share is borrowed while it is in
use: any number of readers may hold it, or one writer.  A place is a cell with a path of lenses
into its value.

## Main definitions

* `Cell`, `Heap` — cells and the heap.
* `Heap.canRead`, `Heap.canWrite` and the operations that take and give back a borrow.
* `Step`, `Place` — one step of a path, and a path from a cell.
* `Heap.read?`, `Heap.write` — the value at a place, and its replacement.
* `Run` — computations on the heap that may fail.
-/

namespace ChainScript.Script

variable {U : Universe}

/-- A value and who is using it. -/
structure Cell (U : Universe) where
  value : Value U
  /-- How many readers hold the cell. -/
  readers : Nat := 0
  /-- A writer holds the cell. -/
  writer : Bool := false

/-- The cells. -/
structure Heap (U : Universe) where
  cells : Array (Cell U) := #[]

/-- The number of a cell. -/
abbrev Loc := Nat

/-- One step of a path: from a whole to a part. -/
structure Step (U : Universe) where
  whole : Kind U
  part : Kind U
  lens : Lens whole.Carrier part.Carrier

/-- The part of a value. -/
def Step.view? (s : Step U) (v : Value U) : Option (Value U) :=
  (v.as? s.whole).map fun o => ⟨s.part, s.lens.view o⟩

/-- The value with another part. -/
def Step.put? (s : Step U) (v part : Value U) : Option (Value U) := do
  return ⟨s.whole, s.lens.put (← v.as? s.whole) (← part.as? s.part)⟩

/-- The part at the end of a path. -/
def viewPath? (path : List (Step U)) (v : Value U) : Option (Value U) :=
  path.foldlM (fun v s => s.view? v) v

/-- The value with another part at the end of a path. -/
def putPath? : (path : List (Step U)) → (v part : Value U) → Option (Value U)
  | [], _, part => some part
  | s :: path, v, part => do s.put? v (← putPath? path (← s.view? v) part)

/-- A path from a cell. -/
structure Place (U : Universe) where
  root : Loc
  path : List (Step U) := []

namespace Heap

/-- The cell with a new value in it. -/
def alloc (h : Heap U) (v : Value U) : Loc × Heap U := (h.cells.size, ⟨h.cells.push ⟨v, 0, false⟩⟩)

/-- The value in a cell. -/
def value? (h : Heap U) (l : Loc) : Option (Value U) := h.cells[l]?.map (·.value)

/-- The heap with another value in a cell. -/
def setValue (h : Heap U) (l : Loc) (v : Value U) : Heap U :=
  ⟨h.cells.modify l fun c => { c with value := v }⟩

/-- No writer holds the cell. -/
def canRead (h : Heap U) (l : Loc) : Bool := h.cells[l]?.any fun c => !c.writer

/-- Nobody holds the cell. -/
def canWrite (h : Heap U) (l : Loc) : Bool :=
  h.cells[l]?.any fun c => !c.writer && c.readers == 0

/-- One more reader holds the cell. -/
def addReader (h : Heap U) (l : Loc) : Heap U :=
  ⟨h.cells.modify l fun c => { c with readers := c.readers + 1 }⟩

/-- One reader fewer holds the cell. -/
def dropReader (h : Heap U) (l : Loc) : Heap U :=
  ⟨h.cells.modify l fun c => { c with readers := c.readers - 1 }⟩

/-- A writer holds the cell, or none. -/
def setWriter (h : Heap U) (l : Loc) (held : Bool) : Heap U :=
  ⟨h.cells.modify l fun c => { c with writer := held }⟩

/-- The value at a place. -/
def read? (h : Heap U) (p : Place U) : Option (Value U) := do viewPath? p.path (← h.value? p.root)

/-- The heap with another value at a place. -/
def write (h : Heap U) (p : Place U) (v : Value U) : Heap U :=
  match (h.value? p.root).bind fun whole => putPath? p.path whole v with
  | some whole => h.setValue p.root whole
  | none => h

end Heap

/-- A computation on the heap that may fail.  What it changed before it failed stays
changed. -/
abbrev Run (U : Universe) (α : Type) := ExceptT (ScriptError U) (StateM (Heap U)) α

namespace Run

/-- Puts a value into a new cell. -/
def alloc (v : Value U) : Run U Loc := modifyGet (·.alloc v)

/-- The given result, or the given error where there is none. -/
def orThrow {α : Type} (a? : Option α) (e : ScriptError U) : Run U α :=
  match a? with
  | some a => pure a
  | none => throw e

end Run

end ChainScript.Script
