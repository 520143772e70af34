import ChainScript.Script.Heap

/-!
# Places

The lens laws carry over from the steps of a path to the path: what was put at its end is read
back, putting what is there changes nothing, and the last value put is the one that stays.  So a
write to a place replaces the part that the place selects and nothing else.

## Main definitions

* `LawfulPath` — every step of a path is a lawful lens.
* `Heap.SameBelow`, `Heap.Extends` — two heaps agree on their first cells, and on all that the
  first of them has.

## Main results

* `viewPath?_putPath?`, `putPath?_viewPath?`, `putPath?_putPath?` — the laws of paths.
* `Heap.write_self`, `Heap.write_write`, `Heap.write_part` — the laws of places.
-/

namespace ChainScript.Script

variable {U : Universe}

/-- Every step of the path is a lawful lens. -/
def LawfulPath (path : List (Step U)) : Prop := ∀ s ∈ path, s.lens.Lawful

theorem LawfulPath.append {path path' : List (Step U)} (h : LawfulPath path)
    (h' : LawfulPath path') : LawfulPath (path ++ path') :=
  List.forall_mem_append.2 ⟨h, h'⟩

/-! ### Steps and paths -/

theorem Value.as?_eq_some_iff {k : Kind U} {v : Value U} {x : k.Carrier} :
    v.as? k = some x ↔ v = ⟨k, x⟩ := by
  constructor
  · intro h
    obtain ⟨kind, content⟩ := v
    obtain rfl : kind = k := Value.as?_isSome_iff.1 (by rw [h]; rfl)
    rw [Value.as?_mk] at h
    rw [Option.some.inj h]
  · rintro rfl
    exact Value.as?_mk k x

namespace Step

variable {s : Step U} {v part w : Value U}

theorem view?_eq_some_iff :
    s.view? v = some w ↔ ∃ o, v = ⟨s.whole, o⟩ ∧ w = ⟨s.part, s.lens.view o⟩ := by
  rw [view?, Option.map_eq_some_iff]
  simp only [Value.as?_eq_some_iff, eq_comm]

theorem put?_eq_some_iff :
    s.put? v part = some w ↔
      ∃ o x, v = ⟨s.whole, o⟩ ∧ part = ⟨s.part, x⟩ ∧ w = ⟨s.whole, s.lens.put o x⟩ := by
  simp only [put?, bind, Option.bind_eq_some_iff, pure, Option.some.injEq,
    Value.as?_eq_some_iff]
  constructor
  · rintro ⟨o, ho, x, hx, rfl⟩
    exact ⟨o, x, ho, hx, rfl⟩
  · rintro ⟨o, x, ho, hx, rfl⟩
    exact ⟨o, ho, x, hx, rfl⟩

theorem view?_of_put? (hs : s.lens.Lawful) (h : s.put? v part = some w) :
    s.view? w = some part := by
  obtain ⟨o, x, -, rfl, rfl⟩ := put?_eq_some_iff.1 h
  exact view?_eq_some_iff.2 ⟨_, rfl, by rw [hs.view_put]⟩

theorem put?_of_view? (hs : s.lens.Lawful) (h : s.view? v = some part) :
    s.put? v part = some v := by
  obtain ⟨o, rfl, rfl⟩ := view?_eq_some_iff.1 h
  exact put?_eq_some_iff.2 ⟨o, _, rfl, rfl, by rw [hs.put_view]⟩

theorem put?_of_put? (hs : s.lens.Lawful) (h : s.put? v part = some w) (part' : Value U) :
    s.put? w part' = s.put? v part' := by
  obtain ⟨o, x, rfl, -, rfl⟩ := put?_eq_some_iff.1 h
  simp only [put?, Value.as?_mk, bind, Option.bind, hs.put_put]

end Step

section Paths

variable {path path' : List (Step U)} {v w part part' : Value U}

theorem viewPath?_append (path path' : List (Step U)) (v : Value U) :
    viewPath? (path ++ path') v = (viewPath? path v).bind (viewPath? path') :=
  List.foldlM_append

theorem viewPath?_cons (s : Step U) (path : List (Step U)) (v : Value U) :
    viewPath? (s :: path) v = (s.view? v).bind (viewPath? path) :=
  List.foldlM_cons

theorem putPath?_cons (s : Step U) (path : List (Step U)) (v part : Value U) :
    putPath? (s :: path) v part =
      (s.view? v).bind fun inner => (putPath? path inner part).bind (s.put? v) :=
  rfl

theorem putPath?_cons_eq_some_iff {s : Step U} :
    putPath? (s :: path) v part = some w ↔
      ∃ inner inner', s.view? v = some inner ∧ putPath? path inner part = some inner' ∧
        s.put? v inner' = some w := by
  simp only [putPath?_cons, Option.bind_eq_some_iff]
  constructor
  · rintro ⟨inner, hview, inner', hput, hw⟩
    exact ⟨inner, inner', hview, hput, hw⟩
  · rintro ⟨inner, inner', hview, hput, hw⟩
    exact ⟨inner, hview, inner', hput, hw⟩

/-- A part of a part is put by putting the part. -/
theorem putPath?_append (path path' : List (Step U)) (v part : Value U) :
    putPath? (path ++ path') v part =
      ((viewPath? path v).bind (putPath? path' · part)).bind (putPath? path v) := by
  induction path generalizing v with
  | nil =>
      change putPath? path' v part = (putPath? path' v part).bind some
      cases putPath? path' v part <;> rfl
  | cons s path ih =>
      rw [List.cons_append, putPath?_cons, viewPath?_cons]
      cases hview : s.view? v with
      | none => rfl
      | some inner =>
          rw [Option.bind_some, Option.bind_some, ih, Option.bind_assoc]
          refine Option.bind_congr fun x _ => ?_
          rw [putPath?_cons, hview, Option.bind_some]

/-- What was put is read back. -/
theorem viewPath?_putPath? (L : LawfulPath path) (h : putPath? path v part = some w) :
    viewPath? path w = some part := by
  induction path generalizing v w with
  | nil => exact congrArg some (Option.some.inj h).symm
  | cons s path ih =>
      obtain ⟨hs, L⟩ := List.forall_mem_cons.1 L
      obtain ⟨inner, inner', -, hput, hw⟩ := putPath?_cons_eq_some_iff.1 h
      rw [viewPath?_cons, Step.view?_of_put? hs hw, Option.bind_some, ih L hput]

/-- Putting what is there changes nothing. -/
theorem putPath?_viewPath? (L : LawfulPath path) (h : viewPath? path v = some part) :
    putPath? path v part = some v := by
  induction path generalizing v with
  | nil => exact h.symm
  | cons s path ih =>
      obtain ⟨hs, L⟩ := List.forall_mem_cons.1 L
      rw [viewPath?_cons] at h
      obtain ⟨inner, hview, h⟩ := Option.bind_eq_some_iff.1 h
      exact putPath?_cons_eq_some_iff.2 ⟨inner, inner, hview, ih L h, Step.put?_of_view? hs hview⟩

/-- The last value put is the one that stays. -/
theorem putPath?_putPath? (L : LawfulPath path) (h : putPath? path v part = some w)
    (part' : Value U) : putPath? path w part' = putPath? path v part' := by
  induction path generalizing v w with
  | nil => rfl
  | cons s path ih =>
      obtain ⟨hs, L⟩ := List.forall_mem_cons.1 L
      obtain ⟨inner, inner', hview, hput, hw⟩ := putPath?_cons_eq_some_iff.1 h
      rw [putPath?_cons, putPath?_cons, Step.view?_of_put? hs hw, hview, Option.bind_some,
        Option.bind_some, ih L hput]
      exact Option.bind_congr fun x _ => Step.put?_of_put? hs hw x

end Paths

/-! ### Cells -/

namespace Heap

variable {h h' h'' : Heap U} {n : Nat} {l : Loc} {v w : Value U} {p : Place U}

/-- The two heaps agree on their first `n` cells. -/
def SameBelow (n : Nat) (h h' : Heap U) : Prop := ∀ l < n, h'.cells[l]? = h.cells[l]?

/-- The second heap has the cells of the first, unchanged, and may have more. -/
def Extends (h h' : Heap U) : Prop := SameBelow h.cells.size h h'

theorem SameBelow.refl (n : Nat) (h : Heap U) : SameBelow n h h := fun _ _ => rfl

theorem SameBelow.trans (S : SameBelow n h h') (S' : SameBelow n h' h'') : SameBelow n h h'' :=
  fun l hl => (S' l hl).trans (S l hl)

theorem SameBelow.symm (S : SameBelow n h h') : SameBelow n h' h := fun l hl => (S l hl).symm

theorem SameBelow.value?_eq (S : SameBelow n h h') (hl : l < n) : h'.value? l = h.value? l := by
  rw [value?, value?, S l hl]

theorem SameBelow.read?_eq (S : SameBelow n h h') (hp : p.root < n) : h'.read? p = h.read? p := by
  rw [read?, read?, S.value?_eq hp]

/-- A change to a new cell is no change to the first ones. -/
theorem sameBelow_modify (hl : n ≤ l) (f : Cell U → Cell U) :
    SameBelow n h ⟨h.cells.modify l f⟩ := by
  intro i hi
  rw [Array.getElem?_modify, if_neg (by omega)]

theorem sameBelow_alloc (hn : n ≤ h.cells.size) (v : Value U) : SameBelow n h (h.alloc v).2 := by
  intro i hi
  exact Array.getElem?_push_lt (by omega) |>.trans (Array.getElem?_eq_getElem (by omega)).symm

theorem SameBelow.modify (S : SameBelow n h h') (l : Loc) (f : Cell U → Cell U) :
    SameBelow n ⟨h.cells.modify l f⟩ ⟨h'.cells.modify l f⟩ := by
  intro i hi
  rw [Array.getElem?_modify, Array.getElem?_modify, S i hi]

theorem value?_setValue_self (hl : h.value? l = some w) (v : Value U) :
    (h.setValue l v).value? l = some v := by
  obtain ⟨c, hc, -⟩ := Option.map_eq_some_iff.1 hl
  rw [value?, setValue, Array.getElem?_modify, if_pos rfl, hc]
  rfl

/-- Putting the value of a cell back changes nothing. -/
theorem setValue_self (hl : h.value? l = some v) : h.setValue l v = h := by
  obtain ⟨c, hc, rfl⟩ := Option.map_eq_some_iff.1 hl
  obtain ⟨cells⟩ := h
  refine congrArg Heap.mk (Array.ext_getElem? fun i => ?_)
  rw [Array.getElem?_modify]
  split
  · next hi =>
    subst hi
    rw [hc]
    rfl
  · rfl

theorem setValue_setValue (h : Heap U) (l : Loc) (v w : Value U) :
    (h.setValue l v).setValue l w = h.setValue l w := by
  refine congrArg Heap.mk (Array.ext_getElem? fun i => ?_)
  simp only [setValue, Array.getElem?_modify]
  split
  · cases h.cells[i]? <;> rfl
  · rfl

/-! ### Writes -/

theorem value?_isSome_of_read? (h₀ : h.read? p = some v) : ∃ whole, h.value? p.root = some whole ∧
    viewPath? p.path whole = some v :=
  Option.bind_eq_some_iff.1 h₀

theorem root_lt_of_read? (hr : h.read? p = some v) : p.root < h.cells.size := by
  obtain ⟨whole, hvalue, -⟩ := value?_isSome_of_read? hr
  obtain ⟨c, hc, -⟩ := Option.map_eq_some_iff.1 hvalue
  exact (Array.getElem?_eq_some_iff.1 hc).1

/-- A write that can be made replaces the value of the cell. -/
theorem write_of_putPath? {whole whole' : Value U} (hvalue : h.value? p.root = some whole)
    (hput : putPath? p.path whole v = some whole') : h.write p v = h.setValue p.root whole' := by
  rw [write, hvalue, Option.bind_some, hput]

theorem write_cases (h : Heap U) (p : Place U) (v : Value U) :
    h.write p v = h ∨ ∃ whole whole', h.value? p.root = some whole ∧
      putPath? p.path whole v = some whole' ∧ h.write p v = h.setValue p.root whole' := by
  rw [write]
  cases hput : (h.value? p.root).bind fun whole => putPath? p.path whole v with
  | none => exact .inl rfl
  | some whole' =>
      obtain ⟨whole, hvalue, hput⟩ := Option.bind_eq_some_iff.1 hput
      exact .inr ⟨whole, whole', hvalue, hput, rfl⟩

@[simp] theorem size_setValue (h : Heap U) (l : Loc) (v : Value U) :
    (h.setValue l v).cells.size = h.cells.size :=
  Array.size_modify

@[simp] theorem size_write (h : Heap U) (p : Place U) (v : Value U) :
    (h.write p v).cells.size = h.cells.size := by
  rw [write]
  split
  · exact size_setValue ..
  · rfl

/-- A write to a new cell is no change to the first ones. -/
theorem sameBelow_write (hp : n ≤ p.root) (v : Value U) : SameBelow n h (h.write p v) := by
  obtain heq | ⟨-, whole, -, -, heq⟩ := h.write_cases p v
  · rw [heq]
    exact .refl n h
  · rw [heq]
    exact sameBelow_modify hp _

/-- A write does the same to heaps that agree. -/
theorem SameBelow.write (S : SameBelow n h h') (p : Place U) (v : Value U) :
    SameBelow n (h.write p v) (h'.write p v) := by
  by_cases hp : p.root < n
  · rw [Heap.write, Heap.write, S.value?_eq hp]
    split
    · exact S.modify _ _
    · exact S
  · have hp : n ≤ p.root := Nat.le_of_not_lt hp
    exact (sameBelow_write hp v).symm.trans (S.trans (sameBelow_write hp v))

/-- Writing what is there changes nothing. -/
theorem write_self (L : LawfulPath p.path) (hr : h.read? p = some v) : h.write p v = h := by
  obtain ⟨whole, hvalue, hview⟩ := value?_isSome_of_read? hr
  rw [write_of_putPath? hvalue (putPath?_viewPath? L hview), setValue_self hvalue]

/-- The last value written is the one that stays. -/
theorem write_write (L : LawfulPath p.path) (v w : Value U) :
    (h.write p v).write p w = h.write p v ∨ (h.write p v).write p w = h.write p w := by
  obtain heq | ⟨whole, whole', hvalue, hput, heq⟩ := h.write_cases p v
  · rw [heq]
    exact .inr rfl
  · obtain heq' | ⟨whole₁, whole₂, hvalue', hput', heq'⟩ := (h.write p v).write_cases p w
    · exact .inl heq'
    · refine .inr ?_
      rw [heq] at hvalue' heq' ⊢
      obtain rfl : whole' = whole₁ :=
        Option.some.inj ((value?_setValue_self hvalue whole').symm.trans hvalue')
      rw [putPath?_putPath? L hput] at hput'
      rw [heq', write_of_putPath? hvalue hput', setValue_setValue]

/-- A write to a part of a place is a write to the place. -/
theorem write_append (h : Heap U) (l : Loc) (path path' : List (Step U)) (v : Value U) :
    h.write ⟨l, path ++ path'⟩ v = h ∨
      ∃ w, h.write ⟨l, path ++ path'⟩ v = h.write ⟨l, path⟩ w ∧
        (h.read? ⟨l, path⟩).bind (putPath? path' · v) = some w := by
  obtain heq | ⟨whole, whole', hvalue, hput, heq⟩ := h.write_cases ⟨l, path ++ path'⟩ v
  · exact .inl heq
  · refine .inr ?_
    rw [putPath?_append] at hput
    obtain ⟨w, hw, hput⟩ := Option.bind_eq_some_iff.1 hput
    refine ⟨w, heq.trans (write_of_putPath? (p := ⟨l, path⟩) hvalue hput).symm, ?_⟩
    rw [read?, hvalue]
    exact hw

/-- A write to a part of what a place holds, as a write to the place: the part is replaced by
the value that is read there afterwards. -/
theorem write_part {path steps : List (Step U)} {x : Value U} (L : LawfulPath (path ++ steps))
    (hr : h.read? ⟨l, path ++ steps⟩ = some x) (v : Value U) :
    ∃ old part new, h.read? ⟨l, path⟩ = some old ∧ putPath? steps old part = some new ∧
      h.write ⟨l, path ++ steps⟩ v = h.write ⟨l, path⟩ new ∧
      (h.write ⟨l, path⟩ new).read? ⟨l, path⟩ = some new ∧
      (h.write ⟨l, path⟩ new).read? ⟨l, path ++ steps⟩ = some part := by
  obtain ⟨Lpath, Lsteps⟩ := List.forall_mem_append.1 L
  obtain heq | ⟨whole, whole', hvalue, hput, heq⟩ := h.write_cases ⟨l, path ++ steps⟩ v
  · obtain ⟨whole, hvalue, hview⟩ := value?_isSome_of_read? hr
    rw [viewPath?_append] at hview
    obtain ⟨old, hold, hx⟩ := Option.bind_eq_some_iff.1 hview
    have hread : h.read? ⟨l, path⟩ = some old := by
      rw [read?, hvalue]
      exact hold
    have hself : h.write ⟨l, path⟩ old = h := write_self Lpath hread
    exact ⟨old, x, old, hread, putPath?_viewPath? Lsteps hx, by rw [heq, hself],
      by rwa [hself], by rwa [hself]⟩
  · have hput' := hput
    rw [putPath?_append] at hput
    obtain ⟨new, hnew, hput⟩ := Option.bind_eq_some_iff.1 hput
    obtain ⟨old, hold, hnew⟩ := Option.bind_eq_some_iff.1 hnew
    have hwrite : h.write ⟨l, path⟩ new = h.setValue l whole' :=
      write_of_putPath? (p := ⟨l, path⟩) hvalue hput
    refine ⟨old, v, new, ?_, hnew, heq.trans hwrite.symm, ?_, ?_⟩
    · rw [read?, hvalue]
      exact hold
    · rw [hwrite, read?, value?_setValue_self hvalue]
      exact viewPath?_putPath? Lpath hput
    · rw [hwrite, read?, value?_setValue_self hvalue]
      exact viewPath?_putPath? L hput'

/-! ### Writers -/

theorem canWrite_iff : h.canWrite l = true ↔
    ∃ c, h.cells[l]? = some c ∧ c.writer = false ∧ c.readers = 0 := by
  rw [canWrite, Option.any_eq_true_iff_get]
  constructor
  · rintro ⟨hc, hget⟩
    exact ⟨_, (Option.some_get hc).symm, by simpa using hget⟩
  · rintro ⟨c, hc, hflags⟩
    exact ⟨by rw [hc]; rfl, by simp [hc, hflags]⟩

theorem canRead_of_canWrite (hl : h.canWrite l = true) : h.canRead l = true := by
  obtain ⟨c, hc, hwriter, -⟩ := canWrite_iff.1 hl
  simp [canRead, hc, hwriter]

theorem SameBelow.canWrite_eq (S : SameBelow n h h') (hl : l < n) :
    h'.canWrite l = h.canWrite l := by
  rw [canWrite, canWrite, S l hl]

@[simp] theorem value?_setWriter (h : Heap U) (l : Loc) (held : Bool) (i : Loc) :
    (h.setWriter l held).value? i = h.value? i := by
  rw [value?, value?, setWriter, Array.getElem?_modify]
  split
  · cases h.cells[i]? <;> rfl
  · rfl

/-- A writer that comes and goes leaves a free cell as it was. -/
theorem setWriter_setWriter (hl : h.canWrite l = true) :
    (h.setWriter l true).setWriter l false = h := by
  obtain ⟨⟨value, readers, writer⟩, hc, rfl, -⟩ := canWrite_iff.1 hl
  obtain ⟨cells⟩ := h
  refine congrArg Heap.mk (Array.ext_getElem? fun i => ?_)
  simp only [setWriter, Array.getElem?_modify]
  split
  · next hi =>
    subst hi
    rw [hc]
    rfl
  · rfl

theorem setWriter_setValue (h : Heap U) (l i : Loc) (held : Bool) (v : Value U) :
    (h.setWriter l held).setValue i v = (h.setValue i v).setWriter l held := by
  refine congrArg Heap.mk (Array.ext_getElem? fun j => ?_)
  simp only [setWriter, setValue, Array.getElem?_modify]
  split <;> split <;> cases h.cells[j]? <;> rfl

/-- Writes do not look at writers. -/
theorem setWriter_write (h : Heap U) (l : Loc) (held : Bool) (p : Place U) (v : Value U) :
    (h.setWriter l held).write p v = (h.write p v).setWriter l held := by
  rw [write, write, value?_setWriter]
  split
  · exact setWriter_setValue ..
  · rfl

theorem canWrite_write (h : Heap U) (l : Loc) (p : Place U) (v : Value U) :
    (h.write p v).canWrite l = h.canWrite l := by
  obtain heq | ⟨-, whole, -, -, heq⟩ := h.write_cases p v
  · rw [heq]
  · rw [heq, canWrite, canWrite, setValue, Array.getElem?_modify]
    split
    · cases h.cells[l]? <;> rfl
    · rfl

end Heap

end ChainScript.Script
