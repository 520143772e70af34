import ChainScript.Ordered.Roster

/-!
# Tables

A table is a roster of keys with one value for each.  It keeps the order in which keys were
added, keeps the first spelling of a key, and moves the last entry into the gap when an entry
is removed.

## Main definitions

* `Table` — keys and values, position by position.
* `Table.entries` — the entries in order; the view that the operations are described by.
* `Table.update`, `Table.swapRemoveAt`, `Table.ofList`, `Table.filter` — the operations.
-/

namespace ChainScript

/-- An insertion-ordered map. -/
structure Table (K V : Type) [BEq K] [Hashable K] where
  /-- The keys, in order. -/
  keys : Roster K
  /-- The values, in the order of their keys. -/
  values : Array V
  /-- Every key has one value. -/
  size_eq : values.size = keys.members.size

namespace Table

variable {K V : Type} [BEq K] [Hashable K]

/-- The table without entries. -/
def empty : Table K V := ⟨Roster.empty, #[], rfl⟩

/-- How many entries there are. -/
def size (t : Table K V) : Nat := t.values.size

/-- The entries in order. -/
def entries (t : Table K V) : List (K × V) := t.keys.members.toList.zip t.values.toList

/-- Where the key stands. -/
def position? (t : Table K V) (k : K) : Option Nat := t.keys.position? k

/-- The value of the key. -/
def find? (t : Table K V) (k : K) : Option V := (t.position? k).bind fun i => t.values[i]?

/-- Changes the value at position `i`. -/
def modifyAt (t : Table K V) (i : Nat) (f : V → V) : Table K V :=
  ⟨t.keys, t.values.modify i f, by rw [Array.size_modify, t.size_eq]⟩

/-- Changes every value, given its key. -/
def mapValues (t : Table K V) (f : V → V) : Table K V :=
  ⟨t.keys, t.values.map f, by rw [Array.size_map, t.size_eq]⟩

variable [EquivBEq K] [LawfulHashable K]

/-- Adds an entry for a key that has none. -/
def push (t : Table K V) (k : K) (v : V) (h : t.position? k = none) : Table K V :=
  ⟨t.keys.push k h, t.values.push v, by simp [Roster.push, t.size_eq]⟩

/-- Gives the key the value `f old` where it has the value `old`, and `f fresh` in a new entry
at the end where it has none. -/
def update (t : Table K V) (k : K) (fresh : V) (f : V → V) : Table K V :=
  match h : t.position? k with
  | some i => t.modifyAt i f
  | none => t.push k (f fresh) h

theorem size_swapRemoveAt_keys (r : Roster K) (i : Nat) (hi : i < r.members.size) :
    (r.swapRemoveAt i).members.size = r.members.size - 1 := by
  unfold Roster.swapRemoveAt
  split
  · next h =>
    have : r.members = #[] := by simpa using h
    simp [this] at hi
  · next l h =>
    have hp : r.pop.members.size = r.members.size - 1 := by rw [Roster.members_pop]; simp
    by_cases h₁ : i < r.pop.members.size
    · rw [dif_pos h₁]; simp [Roster.replaceAt, hp]
    · rw [dif_neg h₁, if_pos (by omega)]; exact hp

/-- Removes the entry at position `i`; the last entry moves into its place. -/
def swapRemoveAt (t : Table K V) (i : Nat) : Table K V :=
  if hi : i < t.values.size then
    { keys := t.keys.swapRemoveAt i
      values := (t.values.swap i (t.values.size - 1) hi (by omega)).pop
      size_eq := by
        rw [size_swapRemoveAt_keys _ _ (t.size_eq ▸ hi)]
        simp [t.size_eq] }
  else t

/-- The table of the given entries: of entries with equal keys the first is kept. -/
def ofList (es : List (K × V)) : Table K V :=
  es.foldl (fun t e => t.update e.1 e.2 id) empty

/-- The entries that satisfy `p`, in order. -/
def filter (p : K → V → Bool) (t : Table K V) : Table K V :=
  ofList (t.entries.filter fun e => p e.1 e.2)

end Table

end ChainScript
