import ChainScript.Script.Members

/-!
# Building members

A builder fills in the members of a type.  It carries the policy in force, which each member
that yields a value takes with it.  What a slot does is decided by the last call that filled
it.

## Main definitions

* `Builder` — members and the policy in force.
* `Builder.withPolicy` — changes the policy for the members that follow.
* `Builder.addReadonly`, `Builder.addField`, `Builder.addMethod`, … — fill slots.
-/

namespace ChainScript.Script

variable {U : Universe}

/-- The members of a type while they are filled in. -/
structure Builder (k : Kind U) where
  members : Members k := {}
  /-- The policy of the members that follow. -/
  policy : Policy := .copy

namespace Builder

variable {k : Kind U} (b : Builder k)

/-- Changes the policy for the members that follow. -/
def withPolicy (policy : Policy) : Builder k := { b with policy := policy }

/-- Registers a getter, and with it a setter or none. -/
def putGetter (name : String) (getter : Getter k) (setter : Option (Setter k)) : Builder k :=
  { b with members :=
      { b.members with
        getters := b.members.getters.put name getter
        setters := match setter with
          | some s => b.members.setters.put name s
          | none => b.members.setters.erase name } }

/-- An attribute that is computed and cannot be written. -/
def addReadonly (name : String) (ret : Kind U) (read : k.Carrier → ret.Carrier) : Builder k :=
  b.putGetter name (.computed ret b.policy read) none

/-- An attribute that is the same for every owner. -/
def addConstant (name : String) (v : Value U) : Builder k :=
  b.addReadonly name v.kind fun _ => v.content

/-- An attribute that is computed, and written by a function of its own. -/
def addReadwrite (name : String) (ret arg : Kind U) (read : k.Carrier → ret.Carrier)
    (write : k.Carrier → arg.Carrier → k.Carrier) : Builder k :=
  b.putGetter name (.computed ret b.policy read) (some ⟨arg, write⟩)

/-- An attribute that is a part of its owner. -/
def addField (name : String) (ret : Kind U) (lens : Lens k.Carrier ret.Carrier) : Builder k :=
  b.putGetter name (.field ret b.policy lens)
    (some ⟨ret, fun owner v => lens.put (lens.touch owner) v⟩)

/-- An overload of a method. -/
def putOverload (name : String) (params : List (Kind U)) (ret : Kind U)
    (body : Body k params ret) : Builder k :=
  let bucket := addOverload Overload.params ⟨params, ret, b.policy, body⟩
    (b.members.overloads name)
  { b with members := { b.members with methods := b.members.methods.put name bucket } }

/-- A method that reads its receiver. -/
def addMethod (name : String) (params : List (Kind U)) (ret : Kind U)
    (f : k.Carrier → Args params → ret.Carrier) : Builder k :=
  b.putOverload name params ret (.reading f)

/-- A method that changes its receiver. -/
def addMethodMut (name : String) (params : List (Kind U)) (ret : Kind U)
    (f : k.Carrier → Args params → ret.Carrier × k.Carrier) : Builder k :=
  b.putOverload name params ret (.writing f)

/-- A method without a receiver. -/
def addStatic (name : String) (params : List (Kind U)) (ret : Kind U)
    (f : Args params → ret.Carrier) : Builder k :=
  b.putOverload name params ret (.free f)

/-- A method that returns a reference into its receiver, whatever the policy. -/
def addMethodRef (name : String) (ret : Kind U) (lens : Lens k.Carrier ret.Carrier) :
    Builder k :=
  { b with members :=
      { b.members with references := b.members.references.put name ⟨ret, lens⟩ } }

/-- A constructor. -/
def addConstructor (params : List (Kind U)) (make : Args params → k.Carrier) : Builder k :=
  { b with members :=
      { b.members with
        constructors :=
          addOverload Constructor.params ⟨params, b.policy, make⟩ b.members.constructors } }

/-- A converter, implicit or applied only where it is asked for. -/
def putConverter (implicit : Bool) (target : Kind U) (convert : k.Carrier → target.Carrier) :
    Builder k :=
  { b with members :=
      { b.members with
        converters :=
          b.members.converters.filter (·.target ≠ target) ++ [⟨target, implicit, convert⟩] } }

/-- A converter that is applied only where it is asked for. -/
def conversion (target : Kind U) (convert : k.Carrier → target.Carrier) : Builder k :=
  b.putConverter false target convert

/-- A converter that assignments apply too. -/
def implicitConversion (target : Kind U) (convert : k.Carrier → target.Carrier) : Builder k :=
  b.putConverter true target convert

/-- Reads the attributes that have no getter. -/
def fallbackGetter (ret : Kind U) (read : k.Carrier → String → Option ret.Carrier) :
    Builder k :=
  { b with members := { b.members with fallbackGetter := some ⟨ret, b.policy, read⟩ } }

/-- Writes the attributes that have no setter. -/
def fallbackSetter (arg : Kind U) (write : k.Carrier → String → arg.Carrier → Bool × k.Carrier) :
    Builder k :=
  { b with members := { b.members with fallbackSetter := some ⟨arg, write⟩ } }

/-- The items of a value. -/
def iterable (item : Kind U) (walk : k.Carrier → List item.Carrier) : Builder k :=
  { b with members := { b.members with iteration := some ⟨item, b.policy, walk⟩ } }

/-- The text of a value. -/
def withDisplay (render : k.Carrier → String) : Builder k :=
  { b with members := { b.members with display := some render } }

end Builder

end ChainScript.Script
