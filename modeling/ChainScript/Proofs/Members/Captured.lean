import ChainScript.Proofs.Members.Latest

/-!
# Members and the policy they take with them

A builder gives every member that yields a value the policy in force.  So the policy of a member
is the one that was in force at the last call that filled its place, whatever policies were set
before and after, and whether or not the type was opened again in between.

## Main definitions

* `Seat` — where a member that yields a value stands.
* `Capture` — what a member takes from its registration.
* `Members.capture?` — what the member at a place has taken.
* `capturedBy` — what calls leave at a place.

## Main results

* `capture?_declared` — members take the policy in force at their own registration.
-/

namespace ChainScript.Script

variable {U : Universe} {k : Kind U}

/-- Where a member that yields a value stands among the members of its type. -/
inductive Seat (U : Universe)
  | getter (name : String)
  | overload (name : String) (params : List (Kind U))
  | constructor (params : List (Kind U))
  | fallback
  | iteration
  deriving DecidableEq

/-- What a member takes from its registration. -/
structure Capture where
  policy : Policy
  /-- It yields a computed value, and not a part of its owner. -/
  byValue : Bool
  deriving DecidableEq

/-- The capture of a member that has nothing to refer to where a reference is asked for. -/
def Capture.unbound : Capture := ⟨.wrapReference, true⟩

/-- What a getter has taken. -/
def Getter.capture : Getter k → Capture
  | .computed _ policy _ => ⟨policy, true⟩
  | .field _ policy _ => ⟨policy, false⟩

/-- What the member at a place has taken. -/
def Members.capture? (m : Members k) : Seat U → Option Capture
  | .getter name => (m.getters.get? name).map Getter.capture
  | .overload name params =>
      (selectOverload Overload.params (m.overloads name) params).map fun f => ⟨f.policy, true⟩
  | .constructor params =>
      (selectOverload Constructor.params m.constructors params).map fun c => ⟨c.policy, true⟩
  | .fallback => m.fallbackGetter.map fun f => ⟨f.policy, true⟩
  | .iteration => m.iteration.map fun it => ⟨it.policy, true⟩

/-! ### What calls leave -/

/-- The place that a call fills, and whether with a computed value. -/
def Declaration.fills? : Declaration k → Option (Seat U × Bool)
  | .addReadonly name .. | .addConstant name _ | .addReadwrite name .. =>
      some (.getter name, true)
  | .addField name .. => some (.getter name, false)
  | .addMethod name params .. | .addMethodMut name params .. | .addStatic name params .. =>
      some (.overload name params, true)
  | .addConstructor params _ => some (.constructor params, true)
  | .fallbackGetter .. => some (.fallback, true)
  | .iterable .. => some (.iteration, true)
  | .withPolicy _ | .addMethodRef .. | .conversion .. | .implicitConversion .. |
      .fallbackSetter .. | .withDisplay _ => none

/-- What a call under a policy leaves at a place that it fills. -/
def Declaration.capture? (s : Seat U) (policy : Policy) (d : Declaration k) : Option Capture :=
  d.fills?.bind fun filled => if filled.1 = s then some ⟨policy, filled.2⟩ else none

/-- What calls leave at a place: what the last that filled it left, under the policy that was in
force then. -/
def capturedBy (s : Seat U) (ds : List (Declaration k)) : Option Capture :=
  (registered (Declaration.capture? s) .copy ds).getLast?

/-! ### One call -/

/-- The place of a seat. -/
def Seat.slot : Seat U → Slot U
  | .getter name => .attr name
  | .overload name params => .overload name params
  | .constructor params => .constructor params
  | .fallback => .fallbackGetter
  | .iteration => .iteration

theorem Seat.slot_inj {s s' : Seat U} : s.slot = s'.slot ↔ s = s' := by
  cases s <;> cases s' <;> simp [Seat.slot]

/-- What the entry of a place has taken. -/
def Entry.capture? : Entry k → Option Capture
  | .attr getter _ => some getter.capture
  | .overload f => some ⟨f.policy, true⟩
  | .constructor c => some ⟨c.policy, true⟩
  | .fallbackGetter f => some ⟨f.policy, true⟩
  | .iteration it => some ⟨it.policy, true⟩
  | .reference _ | .converter _ | .fallbackSetter _ | .display _ => none

theorem capture?_eq (m : Members k) (s : Seat U) :
    m.capture? s = (m.at? s.slot).bind Entry.capture? := by
  cases s <;> rw [Seat.slot, Members.at?, Option.bind_map, Members.capture?] <;>
    exact Option.map_eq_bind

/-- A call that fills a seat fills its place, with what takes the policy. -/
theorem slot?_of_fills? {d : Declaration k} {filled : Seat U × Bool}
    (hd : d.fills? = some filled) (policy : Policy) :
    d.slot? = some filled.1.slot ∧
      (d.entry? policy).bind Entry.capture? = some ⟨policy, filled.2⟩ := by
  cases d <;> cases hd <;> exact ⟨rfl, rfl⟩

theorem slot?_ne_of_fills? {d : Declaration k} (hd : d.fills? = none) (s : Seat U) :
    d.slot? ≠ some s.slot := by
  cases d <;> cases hd <;> cases s <;> nofun

/-- One call. -/
theorem capture?_call (b : Builder k) (s : Seat U) (d : Declaration k) :
    (b.call d).members.capture? s =
      (d.capture? s b.policy).toList.foldl (fun _ c => some c) (b.members.capture? s) := by
  rw [capture?_eq, at?_call, Declaration.capture?]
  cases hd : d.fills? with
  | none =>
      rw [if_neg (slot?_ne_of_fills? hd s), ← capture?_eq]
      rfl
  | some filled =>
      obtain ⟨hslot, hentry⟩ := slot?_of_fills? hd b.policy
      have hplace : d.slot? = some s.slot ↔ filled.1 = s := by
        rw [hslot, Option.some_inj, Seat.slot_inj]
      rw [Option.bind_some]
      by_cases hs : filled.1 = s
      · rw [if_pos (hplace.2 hs), if_pos hs, hentry]
        rfl
      · rw [if_neg (mt hplace.1 hs), if_neg hs, ← capture?_eq]
        rfl

/-- **Members take the policy in force at their own registration.** -/
theorem capture?_declared (s : Seat U) (ds : List (Declaration k)) :
    (declared ds).capture? s = capturedBy s ds := by
  have hlast : ∀ (cs : List Capture) (c? : Option Capture),
      cs.foldl (fun _ c => some c) c? = cs.getLast?.or c? := by
    intro cs
    induction cs with
    | nil => exact fun _ => rfl
    | cons c cs ih =>
        intro c?
        rw [List.foldl_cons, ih, List.getLast?_cons]
        cases cs.getLast? <;> rfl
  have hview : (Builder.declare {} ds).members.capture? s =
      (registered (Declaration.capture? s) .copy ds).foldl (fun _ c => some c)
        (({} : Members k).capture? s) :=
    view_declare (·.capture? s) (fun b d => capture?_call b s d) {} ds
  have hempty : ({} : Members k).capture? s = none := by cases s <;> rfl
  rw [declared, hview, hempty, hlast, Option.or_none]
  rfl

end ChainScript.Script
