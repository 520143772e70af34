import ChainScript.Script.Builtin
import ChainScript.Script.Object.Call

/-!
# Catalogs

A catalog is a registry with two indexes, which give the position of a kind and of a name.  All
look-ups go through the indexes; a type that is added at the end is entered in both, and a type
that is changed or replaced keeps its place and is not entered again.

## Main definitions

* `Index` — positions by key.
* `Catalog`, `Catalog.locate?`, `Catalog.locateName?` — a registry and its look-ups.
* `Catalog.register`, `Catalog.ensure`, `Catalog.install` — registration.
* `Catalog.adoptAll`, `Catalog.adoptOne` — taking over the types of another catalog.
* `Catalog.construct`, `Catalog.constructNamed` — constructors.
-/

namespace ChainScript.Script

variable {U : Universe}

/-! ### Indexes -/

/-- Positions by key. -/
structure Index (κ : Type) where
  entries : List (κ × Nat) := []

namespace Index

variable {κ : Type} [DecidableEq κ]

/-- The position of a key. -/
def find? (ix : Index κ) (key : κ) : Option Nat := ix.entries.lookup key

/-- The index with a key at the given position. -/
def put (ix : Index κ) (key : κ) (i : Nat) : Index κ := ⟨(key, i) :: ix.entries⟩

theorem find?_put (ix : Index κ) (key k : κ) (i : Nat) :
    (ix.put key i).find? k = if k = key then some i else ix.find? k := by
  rw [put, find?, find?, List.lookup_cons]
  by_cases h : k = key
  · simp [h]
  · simp [h, beq_eq_false_iff_ne.2 h]

end Index

/-! ### Catalogs -/

/-- A registry with indexes. -/
structure Catalog (U : Universe) extends Registry U where
  /-- The position of each kind. -/
  byKind : Index (Kind U) := {}
  /-- The position of each name. -/
  byName : Index String := {}

/-- What comes of registering a type. -/
structure Enrolled (U : Universe) where
  catalog : Catalog U
  /-- The name under which the type is registered. -/
  name : String
  /-- The policy in force at the end. -/
  policy : Policy

namespace Catalog

/-- The catalog without types. -/
def empty (id : Nat) : Catalog U := { id }

/-- The position as one of the registered types. -/
def at? (c : Catalog U) (i : Nat) : Option (Fin c.entries.size) :=
  if h : i < c.entries.size then some ⟨i, h⟩ else none

/-- Where the type of a kind stands. -/
def locate? (c : Catalog U) (k : Kind U) : Option (Fin c.entries.size) :=
  (c.byKind.find? k).bind c.at?

/-- Where the type of a name stands. -/
def locateName? (c : Catalog U) (name : String) : Option (Fin c.entries.size) :=
  (c.byName.find? name).bind c.at?

/-- The descriptor of a kind. -/
def find? (c : Catalog U) (k : Kind U) : Option (Descriptor U) := (c.locate? k).map c.entry

/-- The descriptor of a name. -/
def findName? (c : Catalog U) (name : String) : Option (Descriptor U) :=
  (c.locateName? name).map c.entry

/-- The kind is registered. -/
def contains (c : Catalog U) (k : Kind U) : Bool := (c.byKind.find? k).isSome

/-- The name of a kind.  Where it has none, it is named as the host spells it, unless only a
registered name will do. -/
def typeName (c : Catalog U) (k : Kind U) (strict : Bool) : Except (ScriptError U) (Label U) :=
  match c.find? k with
  | some d => .ok (.named d.name)
  | none => if strict then .error (.unregistered k) else .ok (.unnamed k)

/-! ### Registration -/

/-- Adds a descriptor at the end and enters it in the indexes. -/
def push (c : Catalog U) (d : Descriptor U) : Catalog U where
  id := c.id
  entries := c.entries.push d
  byKind := c.byKind.put d.kind c.entries.size
  byName := c.byName.put d.name c.entries.size

/-- Puts a descriptor in the place of the one at `i`. -/
def replace (c : Catalog U) (i : Fin c.entries.size) (d : Descriptor U) : Catalog U :=
  { c with entries := c.entries.set i d }

/-- Opens the type at `i` again and applies a builder to its members. -/
def reopen (c : Catalog U) (i : Fin c.entries.size) (k : Kind U)
    (build : Builder k → Builder k) : Enrolled U :=
  let d := c.entry i
  let built := build { members := d.membersAs k }
  ⟨c.replace i (d.withMembers built.members), d.name, built.policy⟩

/-- Adds a type at the end and fills in its members. -/
def add (c : Catalog U) (k : Kind U) (name : String) (build : Builder k → Builder k) :
    Enrolled U :=
  let built := build {}
  ⟨c.push ⟨k, name, c.id, built.members⟩, name, built.policy⟩

/-- Registers a kind under a name.  A kind that has exactly that name already is opened
again. -/
def register (c : Catalog U) (k : Kind U) (name : String) (build : Builder k → Builder k) :
    Except (ScriptError U) (Enrolled U) :=
  match c.locate? k with
  | some i =>
      if (c.entry i).name = name then .ok (c.reopen i k build)
      else .error (.alreadyRegistered k (c.entry i).name)
  | none =>
      match c.findName? name with
      | some d => .error (.alreadyRegistered d.kind name)
      | none => .ok (c.add k name build)

/-- Registers a kind under a name.  A kind that is known already is opened again, whatever its
name. -/
def ensure (c : Catalog U) (k : Kind U) (name : String) (build : Builder k → Builder k) :
    Except (ScriptError U) (Enrolled U) :=
  match c.locate? k with
  | some i => .ok (c.reopen i k build)
  | none => c.register k name build

/-- Makes types known one after another, up to the first that cannot be: those before it stay
known. -/
def install (c : Catalog U) : List (Registration U) → Catalog U × Except (ScriptError U) Unit
  | [] => (c, .ok ())
  | g :: rest =>
      match c.ensure g.kind g.name g.build with
      | .ok done => done.catalog.install rest
      | .error e => (c, .error e)

/-- A catalog that knows the built-in types. -/
def standard (id : Nat) : Catalog U := ((empty id).install builtinTypes).1

/-! ### Taking over types -/

/-- A descriptor can be taken over: its kind has its name here, or both are free. -/
def checkAdoptable (c : Catalog U) (d : Descriptor U) : Except (ScriptError U) Unit :=
  match c.find? d.kind with
  | some known =>
      if known.name = d.name then .ok () else .error (.alreadyRegistered d.kind known.name)
  | none =>
      match c.findName? d.name with
      | some known => .error (.alreadyRegistered known.kind d.name)
      | none => .ok ()

/-- Takes a descriptor over, in the place of the one of its kind or at the end. -/
def adopt (c : Catalog U) (d : Descriptor U) : Catalog U :=
  let d := { d with owner := c.id }
  match c.locate? d.kind with
  | some i => c.replace i d
  | none => c.push d

/-- Takes over every type of another catalog, or none if one cannot be taken over. -/
def adoptAll (c other : Catalog U) : Except (ScriptError U) (Catalog U) := do
  other.entries.forM c.checkAdoptable
  return other.entries.foldl adopt c

/-- Takes over one type of another catalog. -/
def adoptOne (c other : Catalog U) (k : Kind U) : Except (ScriptError U) (Catalog U) :=
  match other.find? k with
  | none => .error (.unregistered k)
  | some d => do
      c.checkAdoptable d
      return c.adopt d

/-! ### Construction -/

/-- Constructs a value of a kind. -/
def construct (c : Catalog U) (k : Kind U) (args : List (Object U)) : Run U (Object U) := do
  c.constructAt (← Run.orThrow (c.locate? k) (.unregistered k)) args

/-- Constructs a value of the type of a name. -/
def constructNamed (c : Catalog U) (name : String) (args : List (Object U)) :
    Run U (Object U) := do
  c.constructAt (← Run.orThrow (c.locateName? name) (.missing name "constructor" .unknownType))
    args

end Catalog

/-! ### Changes -/

/-- A change of a catalog. -/
inductive Change (U : Universe)
  | register (k : Kind U) (name : String) (build : Builder k → Builder k)
  | ensure (k : Kind U) (name : String) (build : Builder k → Builder k)
  | install (types : List (Registration U))
  | adoptAll (other : Catalog U)
  | adoptOne (other : Catalog U) (k : Kind U)

namespace Change

/-- The catalog from which types are taken over. -/
def other? : Change U → Option (Catalog U)
  | adoptAll other | adoptOne other _ => some other
  | register .. | ensure .. | install _ => none

/-- The catalog after a change.  One that fails leaves it as it is, but an installation keeps
what came before the failure. -/
def run (c : Catalog U) : Change U → Catalog U × Except (ScriptError U) Unit
  | register k name build => settle ((·.catalog) <$> c.register k name build)
  | ensure k name build => settle ((·.catalog) <$> c.ensure k name build)
  | install types => c.install types
  | adoptAll other => settle (c.adoptAll other)
  | adoptOne other k => settle (c.adoptOne other k)
where
  /-- The new catalog, or the old one with the error. -/
  settle : Except (ScriptError U) (Catalog U) → Catalog U × Except (ScriptError U) Unit
    | .ok c => (c, .ok ())
    | .error e => (c, .error e)

end Change

end ChainScript.Script
