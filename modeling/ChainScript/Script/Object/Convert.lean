import ChainScript.Script.Object.Basic

/-!
# Casts and conversions

A cast yields the value of an object as what it is; a conversion may apply one converter of its
type.  Converters are never chained.

## Main definitions

* `Object.cast`, `Object.convertedCast` — the value as content of a kind.
* `Object.convertTo`, `Object.copy` — new objects from the value.
* `Object.intoInner` — the value at the object's end.
* `Object.shareHandle` — another handle to a shared value.
-/

namespace ChainScript.Script

variable {U : Universe}

namespace Object

/-- The object is not of kind `k`. -/
def mismatch (o : Object U) (k : Kind U) : ScriptError U :=
  .mismatch (o.types.label k) (.named o.typeName)

/-- The value as content of kind `k`, which must be its own. -/
def cast (o : Object U) (k : Kind U) : Run U k.Carrier := do
  unless o.is k do throw (o.mismatch k)
  Run.orThrow ((← o.read).as? k) (o.mismatch k)

/-- The value after the converter to kind `k`. -/
def convertValue (o : Object U) (k : Kind U) : Run U (Value U) := do
  let c ← Run.orThrow (o.members.converter? k) (.noConverter o.typeName (o.types.label k))
  return ⟨c.target, c.convert (← o.content)⟩

/-- The value as content of kind `k`, converted if it is of another. -/
def convertedCast (o : Object U) (k : Kind U) : Run U k.Carrier := do
  if o.is k then o.cast k
  else Run.orThrow ((← o.convertValue k).as? k) (o.mismatch k)

/-- An object that owns the value, converted if it is not of kind `k`, which must be
registered. -/
def convertTo (o : Object U) (k : Kind U) : Run U (Object U) := do
  let i ← Run.orThrow (o.types.indexOf? k) (.unregistered k)
  let v ← if o.is k then o.copyValue else o.convertValue k
  return ⟨o.types, i, ← Registry.hold .copy v⟩

/-- An object that owns a copy of the value. -/
def copy (o : Object U) : Run U (Object U) := do
  let v ← o.copyValue
  return o.withHolder (← Registry.hold .copy v)

/-- The value as content of kind `k`, which must be its own, and the end of the object. -/
def intoInner (o : Object U) (k : Kind U) : Run U k.Carrier := do
  let x ← tryCatch (o.cast k) fun e => do
    o.release
    throw e
  o.release
  return x

/-- Another handle to the value, if it is shared. -/
def shareHandle (o : Object U) : Option (Object U) :=
  match o.holder with
  | .shared _ => some o
  | _ => none

end Object

end ChainScript.Script
