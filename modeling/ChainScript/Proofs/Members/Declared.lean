import ChainScript.Script.Builder

/-!
# Members by declarations

What can be asked of a builder, as data, so that statements about every way in which a type is
described are statements about lists.  The policy in force at a call comes from the calls before
it, and of one sort of members the calls leave what filling them in one after another leaves.

## Main definitions

* `Declaration`, `Builder.declare` — a call of a builder, and a list of them.
* `declared` — the members that calls leave.
* `registered` — what the calls register of one sort, each under the policy in force.
* `overloadsOf`, `constructorsOf` — the overloads of a method and of the constructor.

## Main results

* `view_declare` — what the calls leave of one sort of members.
* `declare_reopened` — a type that is opened again is described by the calls before and after.
-/

namespace ChainScript.Script

variable {U : Universe} {k : Kind U}

/-- A call of a builder. -/
inductive Declaration (k : Kind U)
  | withPolicy (policy : Policy)
  | addReadonly (name : String) (ret : Kind U) (read : k.Carrier → ret.Carrier)
  | addConstant (name : String) (v : Value U)
  | addReadwrite (name : String) (ret arg : Kind U) (read : k.Carrier → ret.Carrier)
      (write : k.Carrier → arg.Carrier → k.Carrier)
  | addField (name : String) (ret : Kind U) (lens : Lens k.Carrier ret.Carrier)
  | addMethod (name : String) (params : List (Kind U)) (ret : Kind U)
      (f : k.Carrier → Args params → ret.Carrier)
  | addMethodMut (name : String) (params : List (Kind U)) (ret : Kind U)
      (f : k.Carrier → Args params → ret.Carrier × k.Carrier)
  | addStatic (name : String) (params : List (Kind U)) (ret : Kind U)
      (f : Args params → ret.Carrier)
  | addMethodRef (name : String) (ret : Kind U) (lens : Lens k.Carrier ret.Carrier)
  | addConstructor (params : List (Kind U)) (make : Args params → k.Carrier)
  | conversion (target : Kind U) (convert : k.Carrier → target.Carrier)
  | implicitConversion (target : Kind U) (convert : k.Carrier → target.Carrier)
  | fallbackGetter (ret : Kind U) (read : k.Carrier → String → Option ret.Carrier)
  | fallbackSetter (arg : Kind U) (write : k.Carrier → String → arg.Carrier → Bool × k.Carrier)
  | iterable (item : Kind U) (walk : k.Carrier → List item.Carrier)
  | withDisplay (render : k.Carrier → String)

namespace Builder

variable (b : Builder k)

/-- Carries out a call. -/
def call : Declaration k → Builder k
  | .withPolicy policy => b.withPolicy policy
  | .addReadonly name ret read => b.addReadonly name ret read
  | .addConstant name v => b.addConstant name v
  | .addReadwrite name ret arg read write => b.addReadwrite name ret arg read write
  | .addField name ret lens => b.addField name ret lens
  | .addMethod name params ret f => b.addMethod name params ret f
  | .addMethodMut name params ret f => b.addMethodMut name params ret f
  | .addStatic name params ret f => b.addStatic name params ret f
  | .addMethodRef name ret lens => b.addMethodRef name ret lens
  | .addConstructor params make => b.addConstructor params make
  | .conversion target convert => b.conversion target convert
  | .implicitConversion target convert => b.implicitConversion target convert
  | .fallbackGetter ret read => b.fallbackGetter ret read
  | .fallbackSetter arg write => b.fallbackSetter arg write
  | .iterable item walk => b.iterable item walk
  | .withDisplay render => b.withDisplay render

/-- Carries out calls in order. -/
def declare (ds : List (Declaration k)) : Builder k := ds.foldl call b

end Builder

/-- The members of a type that calls describe. -/
def declared (ds : List (Declaration k)) : Members k := (Builder.declare {} ds).members

/-! ### What calls register -/

/-- The policy in force after a call. -/
def Declaration.policyAfter (policy : Policy) : Declaration k → Policy
  | .withPolicy next => next
  | _ => policy

/-- What the calls register of one sort, in order and each under the policy in force. -/
def registered {α : Type} (sort : Policy → Declaration k → Option α) :
    Policy → List (Declaration k) → List α
  | _, [] => []
  | policy, d :: ds => (sort policy d).toList ++ registered sort (d.policyAfter policy) ds

theorem policy_call (b : Builder k) (d : Declaration k) :
    (b.call d).policy = d.policyAfter b.policy := by
  cases d <;> rfl

/-- Of one sort of members, calls leave what they leave one after another. -/
theorem view_declare {α β : Type} (view : Members k → β) {fill : β → α → β}
    {sort : Policy → Declaration k → Option α}
    (hcall : ∀ b d, view (Builder.call b d).members =
      (sort b.policy d).toList.foldl fill (view b.members))
    (b : Builder k) (ds : List (Declaration k)) :
    view (b.declare ds).members = (registered sort b.policy ds).foldl fill (view b.members) := by
  induction ds generalizing b with
  | nil => rfl
  | cons d ds ih =>
      have hrest := ih (b.call d)
      rw [policy_call, hcall] at hrest
      rw [registered, List.foldl_append]
      exact hrest

/-- A type that is opened again goes on from its members, under the policy of a new builder. -/
theorem declare_reopened (ds ds' : List (Declaration k)) :
    (Builder.declare { members := declared ds } ds').members =
      declared (ds ++ .withPolicy .copy :: ds') := by
  rw [declared, declared, Builder.declare, Builder.declare, Builder.declare, List.foldl_append,
    List.foldl_cons]
  rfl

/-! ### Overloads -/

/-- The overload that a call registers for a method. -/
def Declaration.overload? (name : String) (policy : Policy) : Declaration k → Option (Overload k)
  | .addMethod n params ret f => if n = name then some ⟨params, ret, policy, .reading f⟩ else none
  | .addMethodMut n params ret f =>
      if n = name then some ⟨params, ret, policy, .writing f⟩ else none
  | .addStatic n params ret f => if n = name then some ⟨params, ret, policy, .free f⟩ else none
  | _ => none

/-- The overload that a call registers for the constructor. -/
def Declaration.constructor? (policy : Policy) : Declaration k → Option (Constructor k)
  | .addConstructor params make => some ⟨params, policy, make⟩
  | _ => none

/-- The overloads that calls register for a method, in order. -/
def overloadsOf (name : String) (ds : List (Declaration k)) : List (Overload k) :=
  registered (Declaration.overload? name) .copy ds

/-- The overloads that calls register for the constructor, in order. -/
def constructorsOf (ds : List (Declaration k)) : List (Constructor k) :=
  registered Declaration.constructor? .copy ds

theorem get?_putOverload (b : Builder k) (n name : String) (params : List (Kind U))
    (ret : Kind U) (body : Body k params ret) :
    (b.putOverload n params ret body).members.methods.get? name =
      if name = n then some (addOverload Overload.params ⟨params, ret, b.policy, body⟩
        (b.members.overloads n)) else b.members.methods.get? name :=
  Slots.get?_put ..

/-- The overloads that calls leave for a method; there is no list where none is registered. -/
theorem get?_methods_declared (name : String) (ds : List (Declaration k)) :
    (declared ds).methods.get? name = (overloadsOf name ds).foldl
      (fun bucket? o => some (addOverload Overload.params o (bucket?.getD []))) none := by
  refine view_declare (·.methods.get? name) (fun b d => ?_) {} ds
  cases d with
  | addMethod n params ret f | addMethodMut n params ret f | addStatic n params ret f =>
      dsimp only [Builder.call, Builder.addMethod, Builder.addMethodMut, Builder.addStatic,
        Declaration.overload?]
      rw [get?_putOverload]
      by_cases hn : n = name
      · rw [if_pos hn.symm, if_pos hn, hn]
        rfl
      · rw [if_neg (Ne.symm hn), if_neg hn]
        rfl
  | _ => rfl

/-- The overloads that calls leave for the constructor. -/
theorem constructors_declared (ds : List (Declaration k)) :
    (declared ds).constructors =
      (constructorsOf ds).foldl (fun bucket c => addOverload Constructor.params c bucket) [] := by
  refine view_declare (·.constructors) (fun b d => ?_) {} ds
  cases d <;> rfl

end ChainScript.Script
