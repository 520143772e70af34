import ChainScript.Script.Object.Attribute

/-!
# Calls

A call selects the overload whose parameters are exactly the kinds of the arguments.  The
arguments are copied before the receiver is touched.

## Main definitions

* `Object.call`, `Object.callRef` — methods that return a value, and that return a reference.
* `Registry.construct`, `Registry.constructNamed` — constructors.
-/

namespace ChainScript.Script

variable {U : Universe}

/-- The overload for the given arguments. -/
def select {α : Type} (params : α → List (Kind U)) (bucket : List α) (args : List (Object U))
    (type member : String) : Run U α :=
  Run.orThrow (selectOverload params bucket (args.map (·.kind)))
    (.missing type member (.noOverload args.length (arities params bucket)))

namespace Object

/-- Runs an overload.  Only one that needs a receiver touches the object. -/
def invoke (o : Object U) (f : Overload o.kind) (values : List (Value U)) :
    Run U f.ret.Carrier := do
  let foreign : ScriptError U := .foreignValue o.typeName
  match f.body with
  | .free run => return run (← Run.orThrow (Args.ofValues? f.params values) foreign)
  | .reading run =>
      let v ← o.edit
      let args ← Run.orThrow (Args.ofValues? f.params values) foreign
      return run (← o.contentOf v) args
  | .writing run =>
      let v ← o.edit
      let args ← Run.orThrow (Args.ofValues? f.params values) foreign
      let (result, x) := run (← o.contentOf v) args
      o.replace ⟨o.kind, x⟩
      return result

/-- Calls a method. -/
def call (o : Object U) (name : String) (args : List (Object U)) : Run U (Object U) := do
  let bucket ← Run.orThrow (o.members.methods.get? name)
    (.missing o.typeName name
      (if o.members.returnsReference name then .returnsReference else .noMethod))
  let f ← select Overload.params bucket args o.typeName name
  if f.policy = .wrapReference then throw (.noReferent o.typeName name)
  let values ← args.mapM copyValue
  let result ← o.invoke f values
  o.types.wrapNew f.policy ⟨f.ret, result⟩

/-- Calls a method that returns a reference.  The result refers to a part of the object's
value, and guards it if it is shared. -/
def callRef (o : Object U) (name : String) : Run U (Object U) := do
  let f ← Run.orThrow (o.members.references.get? name) (.missing o.typeName name .noMethod)
  let lent ← o.reborrow
  lent.passOn (o.withHolder lent.holder |>.narrow f.ret f.lens)

end Object

/-! ### Construction -/

namespace Registry

/-- Constructs a value of the type at `i`. -/
def constructAt (r : Registry U) (i : Fin r.entries.size) (args : List (Object U)) :
    Run U (Object U) := do
  let d := r.entry i
  if d.members.constructors.isEmpty then
    throw (.missing d.name "constructor" .noConstructor)
  let c ← select Constructor.params d.members.constructors args d.name "constructor"
  if c.policy = .wrapReference then throw (.noReferent d.name "constructor")
  let values ← args.mapM Object.copyValue
  let given ← Run.orThrow (Args.ofValues? c.params values) (.foreignValue d.name)
  return ⟨r, i, ← hold c.policy ⟨d.kind, c.make given⟩⟩

/-- Constructs a value of a kind. -/
def construct (r : Registry U) (k : Kind U) (args : List (Object U)) : Run U (Object U) := do
  r.constructAt (← Run.orThrow (r.indexOf? k) (.unregistered k)) args

/-- Constructs a value of the type of a name. -/
def constructNamed (r : Registry U) (name : String) (args : List (Object U)) :
    Run U (Object U) := do
  r.constructAt (← Run.orThrow (r.indexOfName? name) (.missing name "constructor" .unknownType))
    args

end Registry

end ChainScript.Script
