/-!
# Kinds and values

A host program brings types of its own beside the built-in ones.  A kind names a type of
either sort, and a value pairs a kind with content of that type, so that values of different
types can be handled alike and told apart again.

## Main definitions

* `Universe` — the types that a host program brings.
* `Kind`, `Kind.Carrier` — the name of a type, and the type.
* `Value`, `Value.as?` — a value of some type, and its content if it is of a given type.
* `Args`, `Args.ofValues?` — contents for a list of kinds, and those of a list of values.
-/

namespace ChainScript.Script

/-- The types that a host program brings. -/
structure Universe where
  /-- Their names. -/
  Host : Type
  /-- Names can be compared. -/
  decEq : DecidableEq Host
  /-- The types. -/
  Carrier : Host → Type

/-- The name of a type. -/
inductive Kind (U : Universe)
  | unit
  | bool
  | int
  | float
  | string
  | host (h : U.Host)

variable {U : Universe}

instance : DecidableEq (Kind U) := fun a b =>
  have := U.decEq
  match a, b with
  | .unit, .unit | .bool, .bool | .int, .int | .float, .float | .string, .string =>
      isTrue rfl
  | .host g, .host h =>
      if e : g = h then isTrue (e ▸ rfl) else isFalse fun h => e (Kind.host.inj h)
  | .unit, .bool | .unit, .int | .unit, .float | .unit, .string | .unit, .host _
  | .bool, .unit | .bool, .int | .bool, .float | .bool, .string | .bool, .host _
  | .int, .unit | .int, .bool | .int, .float | .int, .string | .int, .host _
  | .float, .unit | .float, .bool | .float, .int | .float, .string | .float, .host _
  | .string, .unit | .string, .bool | .string, .int | .string, .float | .string, .host _
  | .host _, .unit | .host _, .bool | .host _, .int | .host _, .float | .host _, .string =>
      isFalse nofun

/-- The type that a kind names. -/
@[reducible] def Kind.Carrier : Kind U → Type
  | unit => Unit
  | bool => Bool
  | int => Int64
  | float => Float
  | string => String
  | host h => U.Carrier h

/-- A value of some type. -/
structure Value (U : Universe) where
  kind : Kind U
  content : kind.Carrier

/-- The content of a value, if it is of kind `k`. -/
def Value.as? (k : Kind U) (v : Value U) : Option k.Carrier :=
  if h : v.kind = k then some (h ▸ v.content) else none

@[simp] theorem Value.as?_mk (k : Kind U) (x : k.Carrier) : (Value.mk k x).as? k = some x := by
  simp [Value.as?]

/-- A value has content of its own kind only. -/
theorem Value.as?_isSome_iff {k : Kind U} {v : Value U} :
    (v.as? k).isSome = true ↔ v.kind = k := by
  unfold Value.as?
  split <;> simp_all

/-- Contents for a list of kinds. -/
@[reducible] def Args : List (Kind U) → Type
  | [] => Unit
  | k :: ks => k.Carrier × Args ks

/-- The contents of values, one for each kind. -/
def Args.ofValues? : (ks : List (Kind U)) → List (Value U) → Option (Args ks)
  | [], _ => some ()
  | k :: ks, v :: vs => do return (← v.as? k, ← Args.ofValues? ks vs)
  | _ :: _, [] => none

/-- A kind as it is named in a message: by the name under which it is registered, or as the
host program spells it. -/
inductive Label (U : Universe)
  | named (name : String)
  | unnamed (kind : Kind U)

/-- How the host program spells its types. -/
abbrev Spelling (U : Universe) := Kind U → String

/-- The text of a label. -/
def Label.text (spell : Spelling U) : Label U → String
  | named name => name
  | unnamed kind => spell kind

end ChainScript.Script
