import ChainScript.Script.Builder
import ChainScript.Script.Error

/-!
# Registries

A registry is the list of the types it knows, in the order of registration.  A descriptor
joins a kind, the name under which it is registered and its members, and records the registry
that it belongs to.

## Main definitions

* `Descriptor`, `Registry` — registered types.
* `Registry.indexOf?`, `Registry.indexOfName?` — look-ups by kind and by name.
* `Registry.register`, `Registry.ensure` — registration.
* `Registry.adoptAll`, `Registry.adoptOne` — taking over the types of another registry.
-/

namespace ChainScript.Script

variable {U : Universe}

/-- A registered type. -/
structure Descriptor (U : Universe) where
  kind : Kind U
  name : String
  /-- The number of the registry that it belongs to. -/
  owner : Nat
  members : Members kind

/-- The members, if the descriptor is of kind `k`. -/
def Descriptor.membersAs (d : Descriptor U) (k : Kind U) : Members k :=
  if h : d.kind = k then h ▸ d.members else {}

/-- The descriptor with other members, if it is of kind `k`. -/
def Descriptor.withMembers (d : Descriptor U) {k : Kind U} (m : Members k) : Descriptor U :=
  if h : d.kind = k then { d with members := h ▸ m } else d

/-- The types that a program has made known. -/
structure Registry (U : Universe) where
  /-- The number that tells registries apart. -/
  id : Nat
  entries : Array (Descriptor U) := #[]

/-- What comes of registering a type of kind `k`. -/
structure Registered (U : Universe) where
  registry : Registry U
  /-- The name under which the type is registered. -/
  name : String
  /-- The policy in force at the end. -/
  policy : Policy

namespace Registry

/-- The descriptor at a position. -/
def entry (r : Registry U) (i : Fin r.entries.size) : Descriptor U := r.entries[i]

/-- Where the type of a kind stands. -/
def indexOf? (r : Registry U) (k : Kind U) : Option (Fin r.entries.size) :=
  r.entries.findFinIdx? (·.kind = k)

/-- Where the type of a name stands. -/
def indexOfName? (r : Registry U) (name : String) : Option (Fin r.entries.size) :=
  r.entries.findFinIdx? (·.name == name)

/-- The descriptor of a kind. -/
def find? (r : Registry U) (k : Kind U) : Option (Descriptor U) :=
  (r.indexOf? k).map fun i => r.entries[i]

/-- The descriptor of a name. -/
def findName? (r : Registry U) (name : String) : Option (Descriptor U) :=
  (r.indexOfName? name).map fun i => r.entries[i]

/-- The kind is registered. -/
def contains (r : Registry U) (k : Kind U) : Bool := (r.indexOf? k).isSome

/-- The number of registered types. -/
def size (r : Registry U) : Nat := r.entries.size

/-- The registered names, in order. -/
def names (r : Registry U) : List String := r.entries.toList.map (·.name)

/-- A kind as messages name it. -/
def label (r : Registry U) (k : Kind U) : Label U :=
  match r.find? k with
  | some d => .named d.name
  | none => .unnamed k

/-- The name of a kind.  Where it has none, it is named as the host spells it, unless only a
registered name will do. -/
def typeName (r : Registry U) (k : Kind U) (strict : Bool) : Except (ScriptError U) (Label U) :=
  if strict && !r.contains k then .error (.unregistered k) else .ok (r.label k)

/-! ### Registration -/

/-- Applies a builder to the members of the type at `i`. -/
def edit (r : Registry U) (i : Fin r.entries.size) (k : Kind U)
    (build : Builder k → Builder k) : Registered U :=
  let d := r.entries[i]
  let built := build { members := d.membersAs k }
  { registry := { r with entries := r.entries.set i (d.withMembers built.members) }
    name := d.name
    policy := built.policy }

/-- Adds a type at the end and fills in its members. -/
def add (r : Registry U) (k : Kind U) (name : String) (build : Builder k → Builder k) :
    Registered U :=
  let built := build {}
  { registry := { r with entries := r.entries.push ⟨k, name, r.id, built.members⟩ }
    name := name
    policy := built.policy }

/-- Registers a kind under a name that is free, and fills in its members. -/
def addNamed (r : Registry U) (k : Kind U) (name : String) (build : Builder k → Builder k) :
    Except (ScriptError U) (Registered U) :=
  match r.findName? name with
  | some d => .error (.alreadyRegistered d.kind name)
  | none => .ok (r.add k name build)

/-- Registers a kind under a name.  A kind that has exactly that name already is opened
again. -/
def register (r : Registry U) (k : Kind U) (name : String)
    (build : Builder k → Builder k) : Except (ScriptError U) (Registered U) :=
  match r.indexOf? k with
  | some i =>
      if r.entries[i].name = name then .ok (r.edit i k build)
      else .error (.alreadyRegistered k r.entries[i].name)
  | none => r.addNamed k name build

/-- Registers a kind under a name.  A kind that is known already is opened again, whatever its
name. -/
def ensure (r : Registry U) (k : Kind U) (name : String)
    (build : Builder k → Builder k) : Except (ScriptError U) (Registered U) :=
  match r.indexOf? k with
  | some i => .ok (r.edit i k build)
  | none => r.addNamed k name build

/-! ### Taking over types -/

/-- A descriptor can be taken over: its kind has its name here, or both are free. -/
def checkAdoptable (r : Registry U) (d : Descriptor U) : Except (ScriptError U) Unit :=
  match r.find? d.kind with
  | some known =>
      if known.name = d.name then .ok () else .error (.alreadyRegistered d.kind known.name)
  | none =>
      match r.findName? d.name with
      | some known => .error (.alreadyRegistered known.kind d.name)
      | none => .ok ()

/-- Takes a descriptor over, in the place of the one of its kind or at the end. -/
def adopt (r : Registry U) (d : Descriptor U) : Registry U :=
  let d := { d with owner := r.id }
  match r.indexOf? d.kind with
  | some i => { r with entries := r.entries.set i d }
  | none => { r with entries := r.entries.push d }

/-- Takes over every type of another registry, or none if one cannot be taken over. -/
def adoptAll (r other : Registry U) : Except (ScriptError U) (Registry U) := do
  other.entries.forM r.checkAdoptable
  return other.entries.foldl adopt r

/-- Takes over one type of another registry. -/
def adoptOne (r other : Registry U) (k : Kind U) : Except (ScriptError U) (Registry U) :=
  match other.find? k with
  | none => .error (.unregistered k)
  | some d => do
      r.checkAdoptable d
      return r.adopt d

end Registry

/-! ### Diagnostics -/

/-- The number of a registry as diagnostics show it. -/
def shownId (id : Nat) : String := "RegistryId<" ++ toString id ++ ">"

/-- The registry as diagnostics show it. -/
def Registry.shown (r : Registry U) : String :=
  "TypeSystem \x7b id: " ++ shownId r.id ++ ", types: " ++
    Text.bracketed (r.names.map Text.quote) ++ " \x7d"

/-- The descriptor as diagnostics show it. -/
def Descriptor.shown (spell : Spelling U) (d : Descriptor U) : String :=
  "TypeDesc \x7b name: " ++ Text.quote d.name ++ ", rust_name: " ++ Text.quote (spell d.kind) ++
    ", owner: " ++ shownId d.owner ++ ", attributes: " ++
    Text.bracketed (d.members.attributes.map Text.quote) ++ ", methods: " ++
    Text.bracketed (d.members.methodNames.map Text.quote) ++ ", constructors: " ++
    toString d.members.constructors.length ++ " \x7d"

end ChainScript.Script
