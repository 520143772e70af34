/-!
# Slots

Named slots: a map from names to values whose entries stand in the order of their names.  The
order makes the map a function of what each name holds, however it was filled.

## Main definitions

* `Slots` — the map; `Slots.get?`, `Slots.put`, `Slots.erase` are its operations.
* `Slots.names` — the names in order.
-/

namespace ChainScript

/-- A map from names to values, in the order of the names. -/
structure Slots (α : Type) where
  entries : List (String × α)
  sorted : entries.Pairwise (·.1 < ·.1)

namespace Slots

variable {α : Type}

/-- No slots. -/
def empty : Slots α := ⟨[], .nil⟩

/-- What the slot of the name holds. -/
def get? (s : Slots α) (name : String) : Option α := s.entries.lookup name

/-- The name has a slot. -/
def contains (s : Slots α) (name : String) : Bool := (s.get? name).isSome

/-- The names of the slots, in order. -/
def names (s : Slots α) : List String := s.entries.map (·.1)

/-- The entries with the given one at its place. -/
def putEntry (name : String) (v : α) : List (String × α) → List (String × α)
  | [] => [(name, v)]
  | e :: rest =>
      if name < e.1 then (name, v) :: e :: rest
      else if name = e.1 then (name, v) :: rest
      else e :: putEntry name v rest

theorem fst_of_mem_putEntry {name : String} {v : α} {es : List (String × α)}
    {e : String × α} (h : e ∈ putEntry name v es) : e.1 = name ∨ e ∈ es := by
  induction es with
  | nil => simp [putEntry] at h; exact .inl (by rw [h])
  | cons x rest ih =>
      rw [putEntry] at h
      split at h
      · rcases List.mem_cons.1 h with rfl | h
        · exact .inl rfl
        · exact .inr h
      · split at h
        · rcases List.mem_cons.1 h with rfl | h
          · exact .inl rfl
          · exact .inr (List.mem_cons_of_mem _ h)
        · rcases List.mem_cons.1 h with rfl | h
          · exact .inr List.mem_cons_self
          · exact (ih h).imp_right (List.mem_cons_of_mem _)

/-- Of two different names one comes first. -/
theorem lt_of_not_lt_of_ne {a b : String} (h : ¬ a < b) (hne : a ≠ b) : b < a := by
  apply Decidable.byContradiction
  intro hba
  exact hne (String.le_antisymm (String.not_lt.1 hba) (String.not_lt.1 h))

theorem sorted_putEntry {name : String} {v : α} {es : List (String × α)}
    (h : es.Pairwise (·.1 < ·.1)) : (putEntry name v es).Pairwise (·.1 < ·.1) := by
  induction es with
  | nil => simp [putEntry]
  | cons x rest ih =>
      have ⟨hx, hrest⟩ := List.pairwise_cons.1 h
      rw [putEntry]
      split
      · next hlt =>
        refine List.pairwise_cons.2 ⟨fun e he => ?_, h⟩
        rcases List.mem_cons.1 he with rfl | he
        · exact hlt
        · exact String.lt_trans hlt (hx e he)
      · next hlt =>
        split
        · next heq =>
          refine List.pairwise_cons.2 ⟨fun e he => ?_, hrest⟩
          rw [heq]
          exact hx e he
        · next hne =>
          refine List.pairwise_cons.2 ⟨fun e he => ?_, ih hrest⟩
          rcases fst_of_mem_putEntry he with h | h
          · rw [h]
            exact lt_of_not_lt_of_ne hlt hne
          · exact hx e h

/-- Fills the slot of the name. -/
def put (s : Slots α) (name : String) (v : α) : Slots α :=
  ⟨putEntry name v s.entries, sorted_putEntry s.sorted⟩

theorem lookup_cons_eq (n : String) (e : String × α) (rest : List (String × α)) :
    (e :: rest).lookup n = if n = e.1 then some e.2 else rest.lookup n := by
  rw [List.lookup_cons]
  by_cases h : n = e.1
  · simp [h]
  · simp [h, beq_eq_false_iff_ne.2 h]

theorem lookup_putEntry (name n : String) (v : α) (es : List (String × α)) :
    (putEntry name v es).lookup n = if n = name then some v else es.lookup n := by
  induction es with
  | nil => exact lookup_cons_eq n (name, v) []
  | cons e rest ih =>
      rw [putEntry]
      split
      · exact lookup_cons_eq n (name, v) (e :: rest)
      · split
        · next heq =>
          rw [lookup_cons_eq, lookup_cons_eq, ← heq]
          split <;> rfl
        · next hne =>
          rw [lookup_cons_eq, lookup_cons_eq, ih]
          by_cases hn : n = name
          · rw [if_pos hn, if_pos hn, if_neg (hn ▸ hne)]
          · rw [if_neg hn, if_neg hn]

/-- A slot holds what it was filled with last. -/
theorem get?_put (s : Slots α) (name n : String) (v : α) :
    (s.put name v).get? n = if n = name then some v else s.get? n :=
  lookup_putEntry name n v s.entries

/-- Empties the slot of the name. -/
def erase (s : Slots α) (name : String) : Slots α :=
  ⟨s.entries.filter (·.1 != name), s.sorted.filter _⟩

theorem lookup_filter_ne (name n : String) (es : List (String × α)) :
    (es.filter (·.1 != name)).lookup n = if n = name then none else es.lookup n := by
  induction es with
  | nil => simp
  | cons e rest ih =>
      rw [List.filter_cons, lookup_cons_eq]
      by_cases he : e.1 = name
      · rw [if_neg (by simp [he]), ih, he]
        by_cases hn : n = name
        · rw [if_pos hn, if_pos hn]
        · rw [if_neg hn, if_neg hn, if_neg hn]
      · rw [if_pos (by simpa using he), lookup_cons_eq, ih]
        by_cases hn : n = e.1
        · rw [if_pos hn, if_pos hn, if_neg (hn ▸ he)]
        · rw [if_neg hn, if_neg hn]

/-- An emptied slot holds nothing. -/
theorem get?_erase (s : Slots α) (name n : String) :
    (s.erase name).get? n = if n = name then none else s.get? n :=
  lookup_filter_ne name n s.entries

end Slots

end ChainScript
