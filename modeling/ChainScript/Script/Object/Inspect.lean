import ChainScript.Script.Object.Basic

/-!
# Looking at objects

The text of an object, its diagnostic form, and whether it is as it should be.
-/

namespace ChainScript.Script

variable {U : Universe}

namespace Object

/-- The object's type is registered where the object says it is, and the value, as far as it
can be read, is of that type. -/
def isConsistent (o : Object U) (h : Heap U) : Bool :=
  o.desc.owner = o.types.id && o.types.indexOf? o.kind = some o.index &&
    (o.holder.read? h).all (·.kind = o.kind)

/-- The text of the value, or the name of its type where it has no text or cannot be read. -/
def display (o : Object U) (h : Heap U) : String :=
  match o.members.display, (o.holder.read? h).bind (·.as? o.kind) with
  | some render, some x => render x
  | _, _ => o.typeName

/-- The object as diagnostics show it. -/
def shown (o : Object U) (h : Heap U) : String :=
  "DynObject \x7b type: " ++ Text.quote o.typeName ++ ", mode: " ++ o.mode.shown ++
    ", value: " ++ o.display h ++ " \x7d"

end Object

end ChainScript.Script
