import ChainScript.Script.Object.Convert

/-!
# Visits

A visit gives access to a value while other things happen: to its content, to be read or to be
changed, or to its items one after another.  A shared value that is visited is in use until the
visit ends.

## Main definitions

* `Access`, `Object.enter`, `Object.leave` — the beginning and the end of a visit.
* `Object.visit` — the content of a value at the beginning of a visit.
* `Elements`, `Object.elements`, `Object.items` — the items of a value.
-/

namespace ChainScript.Script

variable {U : Universe}

/-- What a visit may do. -/
inductive Access
  | reading
  | writing
  deriving DecidableEq

/-- The items of a value before they become objects. -/
structure Elements (types : Registry U) where
  /-- Which of the registered types describes the items. -/
  index : Fin types.entries.size
  policy : Policy
  values : List (Value U)

/-- The object of an item. -/
def Elements.object {types : Registry U} (e : Elements types) (v : Value U) :
    Run U (Object U) :=
  return ⟨types, e.index, ← Registry.hold e.policy v⟩

namespace Object

/-- A visit begins. -/
def enter (o : Object U) (access : Access) (h : Heap U) : Heap U :=
  match o.holder, access with
  | .shared l, .reading => h.addReader l
  | .shared l, .writing => h.setWriter l true
  | _, _ => h

/-- A visit ends. -/
def leave (o : Object U) (access : Access) (h : Heap U) : Heap U :=
  match o.holder, access with
  | .shared l, .reading => h.dropReader l
  | .shared l, .writing => h.setWriter l false
  | _, _ => h

/-- Begins a visit to a value of kind `k` and yields its content. -/
def visit (o : Object U) (k : Kind U) (access : Access) : Run U k.Carrier := do
  unless o.is k do throw (o.mismatch k)
  let v ← match access with
    | .reading => o.read
    | .writing => o.edit
  let x ← Run.orThrow (v.as? k) (o.mismatch k)
  modify (o.enter access)
  return x

/-- The items of the value.  They must be of a registered type. -/
def elements (o : Object U) : Run U (Elements o.types) := do
  let it ← Run.orThrow o.members.iteration (.missing o.typeName "iterate" .notIterable)
  if it.policy = .wrapReference then throw (.noReferent o.typeName "iterate")
  let i ← Run.orThrow (o.types.indexOf? it.item) (.unregistered it.item)
  return ⟨i, it.policy, (it.walk (← o.content)).map (⟨it.item, ·⟩)⟩

/-- The objects of the items. -/
def items (o : Object U) : Run U (List (Object U)) := do
  let e ← o.elements
  e.values.mapM e.object

end Object

end ChainScript.Script
