import ChainScript.Script.Object.Call
import ChainScript.Script.Object.Inspect
import ChainScript.Script.Object.Visit

/-!
# Operations by descriptor

An operation looks at its object in three places: at the descriptor of its type, at its holder,
and at the registry, by which it makes new objects and names kinds.  Of the descriptor it does not
look at the owner.  The descriptor of an object is found in the registry by position, so that the
members of two objects are of one type only after their descriptors have been compared.  Here the
operations that look at members are written for a descriptor without owner that stands by itself,
and are equal to those on objects.

## Main definitions

* `Face` — a descriptor without its owner.
* `Object.face` — that of an object.

## Main results

* `Object.readAttribute_eq_face`, `Object.call_eq_face`, … — the operations on objects.
-/

namespace ChainScript.Script

variable {U : Universe}

/-- A descriptor without its owner. -/
structure Face (U : Universe) where
  kind : Kind U
  name : String
  members : Members kind

/-- The descriptor without its owner. -/
def Descriptor.face (d : Descriptor U) : Face U := ⟨d.kind, d.name, d.members⟩

/-- The descriptor of the object without its owner. -/
def Object.face (o : Object U) : Face U := o.desc.face

namespace Face

variable (f : Face U) (x : Holder U) (r : Registry U)

/-! ### Values -/

/-- The value. -/
def read : Run U (Value U) := do Run.orThrow (x.read? (← get)) (.borrowed f.name)

/-- The value, to be changed. -/
def edit : Run U (Value U) := do Run.orThrow (x.edit? (← get)) (.borrowed f.name)

/-- The content of a value. -/
def contentOf (v : Value U) : Run U f.kind.Carrier :=
  Run.orThrow (v.as? f.kind) (.foreignValue f.name)

/-- The content. -/
def content : Run U f.kind.Carrier := do f.contentOf (← f.read x)

/-- A copy of the value. -/
def copyValue : Run U (Value U) := return ⟨f.kind, ← f.content x⟩

/-- Replaces the value. -/
def replace (x : Holder U) (v : Value U) : Run U Unit := modify (·.write x.place v)

/-- The value after the converter to kind `k`. -/
def convertValue (k : Kind U) : Run U (Value U) := do
  let c ← Run.orThrow (f.members.converter? k) (.noConverter f.name (r.label k))
  return ⟨c.target, c.convert (← f.content x)⟩

/-- The text. -/
def display (h : Heap U) : String :=
  match f.members.display, (x.read? h).bind (·.as? f.kind) with
  | some render, some y => render y
  | _, _ => f.name

/-! ### Attributes -/

/-- The content once a part of it has been reached. -/
def touch {ret : Kind U} (lens : Lens f.kind.Carrier ret.Carrier) : Run U f.kind.Carrier := do
  let y := lens.touch (← f.contentOf (← f.edit x))
  replace x ⟨f.kind, y⟩
  return y

/-- To a part of the value. -/
def narrow (ret : Kind U) (lens : Lens f.kind.Carrier ret.Carrier) : Run U (Object U) := do
  discard (f.touch x lens)
  r.wrap (x.part ⟨f.kind, ret, lens⟩) ret

/-- Reads an attribute that has a getter. -/
def readGetter (name : String) : Getter f.kind → Run U (Object U)
  | .computed ret policy read => do
      if policy = .wrapReference then throw (.noReferent f.name name)
      r.wrapNew policy ⟨ret, read (← f.content x)⟩
  | .field ret policy lens => do
      if policy = .wrapReference ∧ x.isView then f.narrow x r ret lens
      else r.wrapNew policy ⟨ret, lens.view (← f.touch x lens)⟩

/-- Reads an attribute through the fallback. -/
def readFallback (name : String) (g : FallbackGetter f.kind) : Run U (Object U) := do
  if g.policy = .wrapReference then throw (.noReferent f.name name)
  match ((← f.read x).as? f.kind).bind (g.read · name) with
  | some v => r.wrapNew g.policy ⟨g.ret, v⟩
  | none => throw (.missing f.name name .declined)

/-- Reads an attribute. -/
def readAttribute (name : String) : Run U (Object U) :=
  match f.members.getters.get? name, f.members.fallbackGetter with
  | some getter, _ => f.readGetter x r name getter
  | none, some g => f.readFallback x r name g
  | none, none => throw (.missing f.name name .noAttribute)

/-- What writes an attribute. -/
def target (name : String) : Run U (Object.Target f.kind) :=
  match f.members.setters.get? name, f.members.fallbackSetter with
  | some s, _ => pure (.setter s)
  | none, some g => pure (.fallback g)
  | none, none =>
      throw (.missing f.name name
        (if f.members.hasAttribute name then .readOnly else .noAttribute))

/-- Writes a value of the right kind. -/
def write (name : String) (v : Value U) : Object.Target f.kind → Run U Unit
  | .setter s => do
      match (← f.edit x).as? f.kind, v.as? s.arg with
      | some y, some z => replace x ⟨f.kind, s.write y z⟩
      | _, _ => throw (.foreignValue f.name)
  | .fallback g => do
      match (← f.edit x).as? f.kind, v.as? g.arg with
      | some y, some z =>
          let (accepted, y) := g.write y name z
          replace x ⟨f.kind, y⟩
          unless accepted do throw (.missing f.name name .declined)
      | _, _ => throw (.missing f.name name .declined)

/-- The value after an implicit converter. -/
def implicitInto (target : Kind U) : Run U (Value U) := do
  match (f.members.converter? target).filter (·.implicit) with
  | some c => return ⟨c.target, c.convert (← f.content x)⟩
  | none => throw (.mismatch (r.label target) (.named f.name))

/-- Writes an attribute. -/
def set (name : String) (g : Face U) (y : Holder U) : Run U Unit := do
  let target ← f.target name
  unless decide (g.kind = target.arg) do
    throw (.mismatch (r.label target.arg) (.named g.name))
  f.write x name (← g.copyValue y) target

/-- Writes an attribute, through an implicit converter if need be. -/
def setConverted (name : String) (g : Face U) (y : Holder U) : Run U Unit := do
  let target ← f.target name
  let v ← if decide (g.kind = target.arg) then g.copyValue y else g.implicitInto y r target.arg
  f.write x name v target

/-! ### Calls -/

/-- Runs an overload. -/
def invoke (m : Overload f.kind) (values : List (Value U)) : Run U m.ret.Carrier := do
  let foreign : ScriptError U := .foreignValue f.name
  match m.body with
  | .free run => return run (← Run.orThrow (Args.ofValues? m.params values) foreign)
  | .reading run =>
      let v ← f.edit x
      let args ← Run.orThrow (Args.ofValues? m.params values) foreign
      return run (← f.contentOf v) args
  | .writing run =>
      let v ← f.edit x
      let args ← Run.orThrow (Args.ofValues? m.params values) foreign
      let (result, y) := run (← f.contentOf v) args
      replace x ⟨f.kind, y⟩
      return result

/-- Calls a method. -/
def call (name : String) (args : List (Object U)) : Run U (Object U) := do
  let bucket ← Run.orThrow (f.members.methods.get? name)
    (.missing f.name name
      (if f.members.returnsReference name then .returnsReference else .noMethod))
  let m ← select Overload.params bucket args f.name name
  if m.policy = .wrapReference then throw (.noReferent f.name name)
  let values ← args.mapM Object.copyValue
  let result ← f.invoke x m values
  r.wrapNew m.policy ⟨m.ret, result⟩

/-- The method that returns a reference. -/
def reference (name : String) : Run U (Reference f.kind) :=
  Run.orThrow (f.members.references.get? name) (.missing f.name name .noMethod)

/-! ### Items and construction -/

/-- The items of the value. -/
def elements : Run U (Elements r) := do
  let it ← Run.orThrow f.members.iteration (.missing f.name "iterate" .notIterable)
  if it.policy = .wrapReference then throw (.noReferent f.name "iterate")
  let i ← Run.orThrow (r.indexOf? it.item) (.unregistered it.item)
  return ⟨i, it.policy, (it.walk (← f.content x)).map (⟨it.item, ·⟩)⟩

/-- Constructs a value, by a registry that has the type at `i`. -/
def construct (i : Fin r.entries.size) (args : List (Object U)) : Run U (Object U) := do
  if f.members.constructors.isEmpty then
    throw (.missing f.name "constructor" .noConstructor)
  let c ← select Constructor.params f.members.constructors args f.name "constructor"
  if c.policy = .wrapReference then throw (.noReferent f.name "constructor")
  let values ← args.mapM Object.copyValue
  let given ← Run.orThrow (Args.ofValues? c.params values) (.foreignValue f.name)
  return ⟨r, i, ← Registry.hold c.policy ⟨f.kind, c.make given⟩⟩

end Face

/-! ### The operations on objects -/

namespace Object

variable (o : Object U)

theorem copyValue_eq_face : o.copyValue = o.face.copyValue o.holder := rfl

theorem convertValue_eq_face (k : Kind U) :
    o.convertValue k = o.face.convertValue o.holder o.types k := rfl

theorem display_eq_face (h : Heap U) : o.display h = o.face.display o.holder h := by
  dsimp only [display, Face.display, members, kind, face, Descriptor.face]
  cases o.desc.members.display with
  | none => rfl
  | some render => cases (o.holder.read? h).bind (·.as? o.desc.kind) <;> rfl

theorem readGetter_eq_face (name : String) (getter : Getter o.kind) :
    o.readGetter name getter = o.face.readGetter o.holder o.types name getter := by
  cases getter <;> rfl

theorem readFallback_eq_face (name : String) (g : FallbackGetter o.kind) :
    o.readFallback name g = o.face.readFallback o.holder o.types name g := by
  dsimp only [readFallback, Face.readFallback]
  refine ite_congr rfl (fun _ => rfl) fun _ => bind_congr fun v => ?_
  dsimp only [kind, face, Descriptor.face]
  cases (v.as? o.desc.kind).bind (g.read · name) <;> rfl

theorem readAttribute_eq_face (name : String) :
    o.readAttribute name = o.passOn (o.face.readAttribute o.holder o.types name) := by
  dsimp only [readAttribute, Face.readAttribute, members, kind, face, Descriptor.face]
  cases o.desc.members.getters.get? name with
  | some getter => exact congrArg o.passOn (o.readGetter_eq_face name getter)
  | none =>
      cases o.desc.members.fallbackGetter with
      | some g => exact congrArg o.passOn (o.readFallback_eq_face name g)
      | none => rfl

theorem target_eq_face (name : String) : o.target name = o.face.target name := by
  dsimp only [target, Face.target, members, kind, face, Descriptor.face]
  cases o.desc.members.setters.get? name with
  | some s => rfl
  | none => cases o.desc.members.fallbackSetter <;> rfl

theorem write_eq_face (name : String) (v : Value U) (target : Target o.kind) :
    o.write name v target = o.face.write o.holder name v target := by
  cases target with
  | setter s =>
      refine bind_congr (m := Run U) fun w => ?_
      dsimp only [kind, face, Descriptor.face]
      cases w.as? o.desc.kind with
      | none => rfl
      | some y => cases v.as? s.arg <;> rfl
  | fallback g =>
      refine bind_congr (m := Run U) fun w => ?_
      dsimp only [kind, face, Descriptor.face]
      cases w.as? o.desc.kind with
      | none => rfl
      | some y => cases v.as? g.arg <;> rfl

theorem implicitInto_eq_face (target : Kind U) (types : Registry U) :
    o.implicitInto target types = o.face.implicitInto o.holder types target := by
  dsimp only [implicitInto, Face.implicitInto, members, kind, face, Descriptor.face]
  cases (o.desc.members.converter? target).filter (·.implicit) <;> rfl

theorem set_eq_face (name : String) (value : Object U) :
    o.set name value = o.face.set o.holder o.types name value.face value.holder := by
  rw [set, Face.set, target_eq_face]
  refine bind_congr fun target => ite_congr rfl (fun _ => ?_) fun _ => rfl
  exact bind_congr fun v => o.write_eq_face name v target

theorem setConverted_eq_face (name : String) (value : Object U) :
    o.setConverted name value =
      o.face.setConverted o.holder o.types name value.face value.holder := by
  rw [setConverted, Face.setConverted, target_eq_face]
  refine bind_congr fun target => ite_congr rfl (fun _ => ?_) fun _ => ?_
  · exact bind_congr fun v => o.write_eq_face name v target
  · rw [implicitInto_eq_face]
    exact bind_congr fun v => o.write_eq_face name v target

theorem invoke_eq_face (m : Overload o.kind) (values : List (Value U)) :
    o.invoke m values = o.face.invoke o.holder m values := by
  obtain ⟨params, ret, policy, body⟩ := m
  cases body <;> rfl

theorem call_eq_face (name : String) (args : List (Object U)) :
    o.call name args = o.face.call o.holder o.types name args := by
  rw [call, Face.call]
  refine bind_congr (m := Run U) fun bucket => bind_congr (m := Run U) fun m => ?_
  refine ite_congr rfl (fun _ => rfl) fun _ => bind_congr (m := Run U) fun values => ?_
  rw [invoke_eq_face]

theorem callRef_eq_face (name : String) :
    o.callRef name =
      (do
        let m ← o.face.reference name
        let lent ← o.reborrow
        lent.passOn (o.face.narrow lent.holder o.types m.ret m.lens)) := rfl

theorem elements_eq_face : o.elements = o.face.elements o.holder o.types := rfl

end Object

theorem Registry.constructAt_eq_face (r : Registry U) (i : Fin r.entries.size)
    (args : List (Object U)) : r.constructAt i args = (r.entry i).face.construct r i args := rfl

end ChainScript.Script
