import ChainScript.Script.Object.Basic
import ChainScript.Text.Line

/-!
# Attributes

Reading an attribute consumes an object and yields another.  A field registered by reference,
read from a reference, yields a reference to the part; everything else yields a new value.  A
path is read one attribute after another, from a reference to the object's value.

Writing an attribute checks the value's type before the object is touched.

## Main definitions

* `Object.narrow` — from a reference to a part of its value.
* `Object.readAttribute`, `Object.get`, `Object.getPath` — reading.
* `Object.set`, `Object.setConverted` — writing.
-/

namespace ChainScript.Script

variable {U : Universe}

namespace Object

/-- The content of the object once a part of it has been reached. -/
def touch {ret : Kind U} (o : Object U) (lens : Lens o.kind.Carrier ret.Carrier) :
    Run U o.kind.Carrier := do
  let x := lens.touch (← o.contentOf (← o.edit))
  o.replace ⟨o.kind, x⟩
  return x

/-- From a reference to a part of its value. -/
def narrow (o : Object U) (ret : Kind U) (lens : Lens o.kind.Carrier ret.Carrier) :
    Run U (Object U) := do
  discard (o.touch lens)
  o.types.wrap (o.holder.part ⟨o.kind, ret, lens⟩) ret

/-- Reads an attribute that has a getter. -/
def readGetter (o : Object U) (name : String) : Getter o.kind → Run U (Object U)
  | .computed ret policy read => do
      if policy = .wrapReference then throw (.noReferent o.typeName name)
      o.types.wrapNew policy ⟨ret, read (← o.content)⟩
  | .field ret policy lens => do
      if policy = .wrapReference ∧ o.holder.isView then o.narrow ret lens
      else o.types.wrapNew policy ⟨ret, lens.view (← o.touch lens)⟩

/-- Reads an attribute through the fallback. -/
def readFallback (o : Object U) (name : String) (f : FallbackGetter o.kind) :
    Run U (Object U) := do
  if f.policy = .wrapReference then throw (.noReferent o.typeName name)
  match ((← o.read).as? o.kind).bind (f.read · name) with
  | some v => o.types.wrapNew f.policy ⟨f.ret, v⟩
  | none => throw (.missing o.typeName name .declined)

/-- Reads an attribute and ends the object, unless the result refers to a part of its
value. -/
def readAttribute (o : Object U) (name : String) : Run U (Object U) :=
  o.passOn <|
    match o.members.getters.get? name, o.members.fallbackGetter with
    | some getter, _ => o.readGetter name getter
    | none, some f => o.readFallback name f
    | none, none => throw (.missing o.typeName name .noAttribute)

/-- Reads attributes one after another. -/
def readPath (o : Object U) : List String → Run U (Object U)
  | [] => pure o
  | name :: rest => do (← o.readAttribute name).readPath rest

/-- Reads the attributes on a path, from a reference to the object's value.  Where the result
refers to a part of a shared value, it guards the value until it is released. -/
def get (o : Object U) (path : List String) : Run U (Object U) := do
  if path.isEmpty then throw (.missing o.typeName "" .emptyPath)
  (← o.reborrow).readPath path

/-- Reads the attributes on a path with dots between their names. -/
def getPath (o : Object U) (path : String) : Run U (Object U) :=
  if path.isEmpty then throw (.missing o.typeName path .emptyPath)
  else o.get (Text.splitAt '.' path)

/-! ### Writing -/

/-- What writes an attribute. -/
inductive Target (k : Kind U)
  | setter (s : Setter k)
  | fallback (f : FallbackSetter k)

/-- The kind of value that is written. -/
def Target.arg {k : Kind U} : Target k → Kind U
  | .setter s => s.arg
  | .fallback f => f.arg

/-- What writes the attribute of the given name. -/
def target (o : Object U) (name : String) : Run U (Target o.kind) :=
  match o.members.setters.get? name, o.members.fallbackSetter with
  | some s, _ => pure (.setter s)
  | none, some f => pure (.fallback f)
  | none, none =>
      throw (.missing o.typeName name
        (if o.members.hasAttribute name then .readOnly else .noAttribute))

/-- Writes a value of the right kind. -/
def write (o : Object U) (name : String) (v : Value U) : Target o.kind → Run U Unit
  | .setter s => do
      match (← o.edit).as? o.kind, v.as? s.arg with
      | some x, some y => o.replace ⟨o.kind, s.write x y⟩
      | _, _ => throw (.foreignValue o.typeName)
  | .fallback f => do
      match (← o.edit).as? o.kind, v.as? f.arg with
      | some x, some y =>
          let (accepted, x) := f.write x name y
          o.replace ⟨o.kind, x⟩
          unless accepted do throw (.missing o.typeName name .declined)
      | _, _ => throw (.missing o.typeName name .declined)

/-- The value of an object converted to a kind by an implicit converter. -/
def implicitInto (o : Object U) (target : Kind U) (types : Registry U) : Run U (Value U) := do
  match (o.members.converter? target).filter (·.implicit) with
  | some c => return ⟨c.target, c.convert (← o.content)⟩
  | none => throw (.mismatch (types.label target) (.named o.typeName))

/-- Writes an attribute.  The value must have the attribute's kind. -/
def set (o : Object U) (name : String) (value : Object U) : Run U Unit := do
  let target ← o.target name
  unless value.is target.arg do
    throw (.mismatch (o.types.label target.arg) (.named value.typeName))
  o.write name (← value.copyValue) target

/-- Writes an attribute.  A value of another kind goes through its implicit converter. -/
def setConverted (o : Object U) (name : String) (value : Object U) : Run U Unit := do
  let target ← o.target name
  let v ← if value.is target.arg then value.copyValue
    else value.implicitInto target.arg o.types
  o.write name v target

end Object

end ChainScript.Script
