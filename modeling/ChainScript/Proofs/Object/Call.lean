import ChainScript.Script.Object.Call
import Mathlib.Data.Option.Basic

/-!
# What a call leaves behind

A call looks its method up, copies its arguments and runs the body of an overload before it
looks up the type of the result.  A call that is refused before the body runs leaves the heap as
it was.  A call whose result is of an unregistered type fails all the same, but what the body
did to the receiver stays.

## Main definitions

* `Run.Finds` — a computation that only looks at the heap.
* `Object.ran?` — the overload whose body a call runs, and the heap that the body leaves.

## Main results

* `Object.failed_call_spec` — what a failed call leaves behind.
-/

namespace ChainScript.Script

variable {U : Universe}

/-! ### Computations that only look -/

namespace Run

/-- The computation leaves the heap as it is, and has the result `r h` or fails. -/
def Finds {α : Type} (m : Run U α) (r : Heap U → Option α) : Prop :=
  ∀ h, (m.run h).2 = h ∧ (m.run h).1.toOption = r h

section Finds

variable {α β : Type} {m : Run U α} {k : α → Run U β} {r : Heap U → Option α}
  {s : α → Heap U → Option β} {h : Heap U}

theorem Finds.run_of_some (hm : Finds m r) {a : α} (ha : r h = some a) : m.run h = (.ok a, h) := by
  obtain ⟨hheap, hres⟩ := hm h
  rw [ha] at hres
  cases hrun : m.run h with
  | mk res h' =>
      rw [hrun] at hheap hres
      cases res with
      | error e => cases hres
      | ok b =>
          obtain rfl := Option.some.inj hres
          rw [show h' = h from hheap]

theorem Finds.run_of_none (hm : Finds m r) (hr : r h = none) : ∃ e, m.run h = (.error e, h) := by
  obtain ⟨hheap, hres⟩ := hm h
  rw [hr] at hres
  cases hrun : m.run h with
  | mk res h' =>
      rw [hrun] at hheap hres
      cases res with
      | error e => exact ⟨e, by rw [show h' = h from hheap]⟩
      | ok b => cases hres

theorem bind_of_ok {a : α} {h' : Heap U} (hm : m.run h = (.ok a, h')) :
    (m >>= k).run h = (k a).run h' := by
  change ExceptT.bindCont k (m.run h).1 (m.run h).2 = _
  rw [hm]
  rfl

theorem bind_of_error {e : ScriptError U} {h' : Heap U} (hm : m.run h = (.error e, h')) :
    (m >>= k).run h = (.error e, h') := by
  change ExceptT.bindCont k (m.run h).1 (m.run h).2 = _
  rw [hm]
  rfl

theorem Finds.congr {r' : Heap U → Option α} (hm : Finds m r) (hr : ∀ h, r h = r' h) :
    Finds m r' :=
  fun h => hr h ▸ hm h

theorem finds_pure (a : α) : Finds (pure a : Run U α) fun _ => some a := fun _ => ⟨rfl, rfl⟩

theorem finds_throw (e : ScriptError U) : Finds (throw e : Run U α) fun _ => none :=
  fun _ => ⟨rfl, rfl⟩

theorem finds_orThrow (a? : Option α) (e : ScriptError U) : Finds (orThrow a? e) fun _ => a? := by
  cases a? with
  | none => exact finds_throw e
  | some a => exact finds_pure a

theorem finds_get : Finds (get : Run U (Heap U)) some := fun _ => ⟨rfl, rfl⟩

theorem Finds.bind (hm : Finds m r) (hk : ∀ a, Finds (k a) (s a)) :
    Finds (m >>= k) fun h => (r h).bind (s · h) := by
  intro h
  cases hr : r h with
  | none =>
      obtain ⟨e, he⟩ := hm.run_of_none hr
      simp only [bind_of_error he, hr]
      exact ⟨trivial, rfl⟩
  | some a =>
      simp only [bind_of_ok (hm.run_of_some hr), hr]
      exact hk a h

theorem Finds.mapM {m : α → Run U β} {r : α → Heap U → Option β} (hm : ∀ a, Finds (m a) (r a))
    (as : List α) : Finds (as.mapM m) fun h => as.mapM (r · h) := by
  induction as with
  | nil => exact finds_pure []
  | cons a as ih =>
      simp only [List.mapM_cons]
      exact (hm a).bind fun b => ih.bind fun bs => finds_pure (b :: bs)

end Finds

end Run

open Run

theorem finds_select {α : Type} (params : α → List (Kind U)) (bucket : List α)
    (args : List (Object U)) (type member : String) :
    Finds (select params bucket args type member) fun _ =>
      selectOverload params bucket (args.map (·.kind)) :=
  finds_orThrow _ _

/-- The method changes its receiver. -/
def Overload.writes {k : Kind U} (f : Overload k) : Bool :=
  match f.body with
  | .writing _ => true
  | _ => false

namespace Object

/-- A copy of the value, where it can be read. -/
def copied? (o : Object U) (h : Heap U) : Option (Value U) :=
  ((o.holder.read? h).bind (·.as? o.kind)).map (⟨o.kind, ·⟩)

/-- The content, where it can be changed. -/
def editable? (o : Object U) (h : Heap U) : Option o.kind.Carrier :=
  (o.holder.edit? h).bind (·.as? o.kind)

theorem finds_read (o : Object U) : Finds o.read o.holder.read? :=
  finds_get.bind fun _ => finds_orThrow _ _

theorem finds_edit (o : Object U) : Finds o.edit o.holder.edit? :=
  finds_get.bind fun _ => finds_orThrow _ _

theorem finds_contentOf (o : Object U) (v : Value U) :
    Finds (o.contentOf v) fun _ => v.as? o.kind :=
  finds_orThrow _ _

theorem finds_copyValue (o : Object U) : Finds o.copyValue o.copied? :=
  (((finds_read o).bind (finds_contentOf o)).bind fun _ => finds_pure _).congr fun h => by
    rw [copied?, Option.map_eq_bind]
    rfl

/-! ### Before the body -/

/-- The overload that a call selects. -/
def chosen? (o : Object U) (name : String) (args : List (Object U)) : Option (Overload o.kind) :=
  (o.members.methods.get? name).bind fun bucket =>
    selectOverload Overload.params bucket (args.map (·.kind))

/-- Refuses an overload that could only yield a reference to a computed value. -/
def refuseUnbound (o : Object U) (name : String) (f : Overload o.kind) : Run U Unit :=
  if f.policy = .wrapReference then throw (.noReferent o.typeName name) else pure ()

theorem finds_refuseUnbound (o : Object U) (name : String) (f : Overload o.kind) :
    Finds (o.refuseUnbound name f) fun _ => guard (f.policy ≠ .wrapReference) := by
  rw [refuseUnbound]
  by_cases hf : f.policy = .wrapReference
  · rw [if_pos hf]
    exact (finds_throw _).congr fun h => by simp [guard, hf, failure]
  · rw [if_neg hf]
    exact (finds_pure ()).congr fun h => by simp [guard, hf]

/-- Selects an overload and copies the arguments. -/
def prepare (o : Object U) (name : String) (args : List (Object U)) :
    Run U (Overload o.kind × List (Value U)) := do
  let bucket ← Run.orThrow (o.members.methods.get? name)
    (.missing o.typeName name
      (if o.members.returnsReference name then .returnsReference else .noMethod))
  let f ← select Overload.params bucket args o.typeName name
  o.refuseUnbound name f
  let values ← args.mapM copyValue
  return (f, values)

/-- The overload and the copies that a call prepares. -/
def prepared? (o : Object U) (name : String) (args : List (Object U)) (h : Heap U) :
    Option (Overload o.kind × List (Value U)) := do
  let f ← o.chosen? name args
  guard (f.policy ≠ .wrapReference)
  return (f, ← args.mapM (·.copied? h))

theorem finds_prepare (o : Object U) (name : String) (args : List (Object U)) :
    Finds (o.prepare name args) (o.prepared? name args) := by
  refine ((finds_orThrow _ _).bind fun bucket => (finds_select _ bucket _ _ _).bind fun f =>
    (o.finds_refuseUnbound name f).bind fun _ => (Finds.mapM finds_copyValue args).bind
      fun values => finds_pure (f, values)).congr ?_
  intro h
  rw [prepared?, chosen?]
  exact (Option.bind_assoc ..).symm

theorem call_eq (o : Object U) (name : String) (args : List (Object U)) :
    o.call name args = (do
      let (f, values) ← o.prepare name args
      let result ← o.invoke f values
      o.types.wrapNew f.policy ⟨f.ret, result⟩) := by
  simp only [call, prepare, refuseUnbound, bind_assoc, pure_bind]
  apply bind_congr
  intro bucket
  apply bind_congr
  intro f
  by_cases hf : f.policy = .wrapReference
  · simp only [if_pos hf]
  · simp only [if_neg hf, pure_bind]

/-! ### The body -/

/-- The content of the receiver and of the arguments. -/
def receive (o : Object U) (params : List (Kind U)) (values : List (Value U)) :
    Run U (o.kind.Carrier × Args params) := do
  let v ← o.edit
  let given ← Run.orThrow (Args.ofValues? params values) (.foreignValue o.typeName)
  return (← o.contentOf v, given)

/-- The heap that the body of an overload leaves, where it can run. -/
def effect? (o : Object U) (f : Overload o.kind) (given : Args f.params) (h : Heap U) :
    Option (Heap U) :=
  match f.body with
  | .free _ => some h
  | .reading _ => (o.editable? h).map fun _ => h
  | .writing run => (o.editable? h).map fun x => h.write o.holder.place ⟨o.kind, (run x given).2⟩

theorem finds_given (o : Object U) (params : List (Kind U)) (values : List (Value U)) :
    Finds (U := U) (orThrow (Args.ofValues? params values) (.foreignValue o.typeName)) fun _ =>
      Args.ofValues? params values :=
  finds_orThrow _ _

theorem finds_receive (o : Object U) (params : List (Kind U)) (values : List (Value U)) :
    Finds (o.receive params values) fun h =>
      (Args.ofValues? params values).bind fun given => (o.editable? h).map (·, given) := by
  refine ((finds_edit o).bind fun v => (o.finds_given params values).bind
    fun given => (finds_contentOf o v).bind fun x => finds_pure (x, given)).congr ?_
  intro h
  rw [editable?]
  cases o.holder.edit? h with
  | none => cases Args.ofValues? params values <;> rfl
  | some v =>
      cases Args.ofValues? params values with
      | none => rfl
      | some given => cases hv : v.as? o.kind <;> simp [hv]

theorem invoke_eq (o : Object U) (f : Overload o.kind) (values : List (Value U)) :
    o.invoke f values =
      match f.body with
      | .free run => do
          return run (← Run.orThrow (Args.ofValues? f.params values) (.foreignValue o.typeName))
      | .reading run => do
          let (x, given) ← o.receive f.params values
          return run x given
      | .writing run => do
          let (x, given) ← o.receive f.params values
          o.replace ⟨o.kind, (run x given).2⟩
          return (run x given).1 := by
  rw [invoke]
  cases f.body with
  | free run => rfl
  | reading run => simp only [receive, bind_assoc, pure_bind]
  | writing run => simp only [receive, bind_assoc, pure_bind]

section Invoke

variable {o : Object U} {f : Overload o.kind} {values : List (Value U)} {h : Heap U}

/-- A body that can run leaves its effect. -/
theorem invoke_of_some {h' : Heap U}
    (heffect : (Args.ofValues? f.params values).bind (o.effect? f · h) = some h') :
    ∃ result, (o.invoke f values).run h = (.ok result, h') := by
  obtain ⟨given, hgiven, heffect⟩ := Option.bind_eq_some_iff.1 heffect
  have hreceive := o.finds_receive f.params values
  rw [invoke_eq]
  rw [effect?] at heffect
  cases hbody : f.body with
  | free run =>
      simp only [hbody] at heffect ⊢
      obtain rfl := Option.some.inj heffect
      exact ⟨run given, bind_of_ok ((o.finds_given f.params values).run_of_some hgiven)⟩
  | reading run =>
      simp only [hbody] at heffect ⊢
      obtain ⟨x, hx, rfl⟩ := Option.map_eq_some_iff.1 heffect
      have hpair := hreceive.run_of_some (h := h) (a := (x, given)) (by simp [hgiven, hx])
      exact ⟨run x given, bind_of_ok hpair⟩
  | writing run =>
      simp only [hbody] at heffect ⊢
      obtain ⟨x, hx, rfl⟩ := Option.map_eq_some_iff.1 heffect
      have hpair := hreceive.run_of_some (h := h) (a := (x, given)) (by simp [hgiven, hx])
      exact ⟨(run x given).1, bind_of_ok hpair⟩

/-- A body that cannot run leaves nothing. -/
theorem invoke_of_none
    (hnone : (Args.ofValues? f.params values).bind (o.effect? f · h) = none) :
    ∃ e, (o.invoke f values).run h = (.error e, h) := by
  rw [Option.bind_eq_none_iff] at hnone
  have hreceive : (∀ given, Args.ofValues? f.params values = some given →
      o.editable? h = none) → ∃ e, (o.receive f.params values).run h = (.error e, h) := by
    intro hall
    refine (o.finds_receive f.params values).run_of_none ?_
    rw [Option.bind_eq_none_iff]
    intro given hgiven
    rw [hall given hgiven]
    rfl
  rw [invoke_eq]
  cases hbody : f.body with
  | free run =>
      have hgiven : Args.ofValues? f.params values = none := by
        rw [Option.eq_none_iff_forall_ne_some]
        intro given hgiven
        simpa [effect?, hbody] using hnone given hgiven
      obtain ⟨e, he⟩ := (o.finds_given f.params values).run_of_none (h := h) hgiven
      exact ⟨e, bind_of_error he⟩
  | reading run =>
      obtain ⟨e, he⟩ := hreceive fun given hgiven => by
        simpa [effect?, hbody] using hnone given hgiven
      exact ⟨e, bind_of_error he⟩
  | writing run =>
      obtain ⟨e, he⟩ := hreceive fun given hgiven => by
        simpa [effect?, hbody] using hnone given hgiven
      exact ⟨e, bind_of_error he⟩

end Invoke

/-! ### After the body -/

theorem wrapNew_of_not_contains {r : Registry U} {v : Value U} (hr : r.contains v.kind = false)
    (policy : Policy) (h : Heap U) :
    (r.wrapNew policy v).run h = (.error (.unregistered v.kind), h) := by
  have hnone : r.indexOf? v.kind = none := by simpa [Registry.contains] using hr
  simp only [Registry.wrapNew, hnone]
  rfl

theorem wrapNew_of_contains {r : Registry U} {v : Value U} (hr : r.contains v.kind = true)
    (policy : Policy) (h : Heap U) :
    ∃ a h', (r.wrapNew policy v).run h = (.ok a, h') := by
  obtain ⟨i, hi⟩ := Option.isSome_iff_exists.1 hr
  simp only [Registry.wrapNew, hi]
  cases policy <;> exact ⟨_, _, rfl⟩

/-- The overload whose body a call runs, and the heap that the body leaves; `none` where the
call is refused before. -/
def ran? (o : Object U) (name : String) (args : List (Object U)) (h : Heap U) :
    Option (Overload o.kind × Heap U) := do
  let (f, values) ← o.prepared? name args h
  let given ← Args.ofValues? f.params values
  return (f, ← o.effect? f given h)

section Call

variable {o : Object U} {name : String} {args : List (Object U)} {f : Overload o.kind}
  {h h' : Heap U}

theorem ran?_eq_some_iff :
    o.ran? name args h = some (f, h') ↔ ∃ values, o.prepared? name args h = some (f, values) ∧
      (Args.ofValues? f.params values).bind (o.effect? f · h) = some h' := by
  rw [ran?]
  simp only [Option.bind_eq_bind, Option.pure_def, Option.bind_eq_some_iff, Option.some.injEq,
    Prod.exists]
  constructor
  · rintro ⟨f', values, hprepared, given, hgiven, h'', heffect, heq⟩
    cases heq
    exact ⟨values, hprepared, given, hgiven, heffect⟩
  · rintro ⟨values, hprepared, given, hgiven, heffect⟩
    exact ⟨f, values, hprepared, given, hgiven, h', heffect, rfl⟩

/-- A call that is refused changes nothing. -/
theorem call_of_not_ran (hran : o.ran? name args h = none) :
    ∃ e, (o.call name args).run h = (.error e, h) := by
  rw [call_eq]
  cases hprepared : o.prepared? name args h with
  | none =>
      obtain ⟨e, he⟩ := (o.finds_prepare name args).run_of_none hprepared
      exact ⟨e, bind_of_error he⟩
  | some r =>
      obtain ⟨f, values⟩ := r
      rw [bind_of_ok ((o.finds_prepare name args).run_of_some hprepared)]
      have heffect : (Args.ofValues? f.params values).bind (o.effect? f · h) = none := by
        rw [Option.eq_none_iff_forall_ne_some]
        intro h' hh'
        rw [ran?_eq_some_iff.2 ⟨values, hprepared, hh'⟩] at hran
        cases hran
      obtain ⟨e, he⟩ := invoke_of_none heffect
      exact ⟨e, bind_of_error he⟩

/-- A call whose body runs leaves its effect, and fails if the result has no type. -/
theorem call_of_ran (hran : o.ran? name args h = some (f, h')) :
    if o.types.contains f.ret then ∃ a h'', (o.call name args).run h = (.ok a, h'')
    else (o.call name args).run h = (.error (.unregistered f.ret), h') := by
  obtain ⟨values, hprepared, heffect⟩ := ran?_eq_some_iff.1 hran
  obtain ⟨result, hresult⟩ := invoke_of_some heffect
  have hcall : (o.call name args).run h = (o.types.wrapNew f.policy ⟨f.ret, result⟩).run h' := by
    rw [call_eq, bind_of_ok ((o.finds_prepare name args).run_of_some hprepared)]
    exact bind_of_ok hresult
  rw [hcall]
  split
  · next hknown => exact wrapNew_of_contains hknown f.policy h'
  · next hknown => exact wrapNew_of_not_contains (by simpa using hknown) f.policy h'

/-- Only a body that writes leaves another heap. -/
theorem ran?_of_not_writes (hran : o.ran? name args h = some (f, h')) (hf : f.writes = false) :
    h' = h := by
  obtain ⟨values, -, heffect⟩ := ran?_eq_some_iff.1 hran
  obtain ⟨given, -, heffect⟩ := Option.bind_eq_some_iff.1 heffect
  rw [effect?] at heffect
  cases hbody : f.body with
  | free run =>
      simp only [hbody] at heffect
      exact (Option.some.inj heffect).symm
  | reading run =>
      simp only [hbody] at heffect
      obtain ⟨x, -, rfl⟩ := Option.map_eq_some_iff.1 heffect
      rfl
  | writing run =>
      rw [Overload.writes, hbody] at hf
      cases hf

theorem chosen?_of_ran (hran : o.ran? name args h = some (f, h')) :
    o.chosen? name args = some f := by
  obtain ⟨values, hprepared, -⟩ := ran?_eq_some_iff.1 hran
  rw [prepared?] at hprepared
  obtain ⟨f', hf', hprepared⟩ := Option.bind_eq_some_iff.1 hprepared
  obtain ⟨-, -, hprepared⟩ := Option.bind_eq_some_iff.1 hprepared
  obtain ⟨values', -, hprepared⟩ := Option.bind_eq_some_iff.1 hprepared
  cases hprepared
  exact hf'

/-- A call fails where it is refused before the body runs, or where the result has no type. -/
theorem call_error_iff :
    (∃ e, (o.call name args).run h = (.error e, h')) ↔
      (o.ran? name args h = none ∧ h' = h) ∨
        ∃ f, o.ran? name args h = some (f, h') ∧ o.types.contains f.ret = false := by
  cases hran : o.ran? name args h with
  | none =>
      obtain ⟨e, he⟩ := call_of_not_ran hran
      rw [he]
      constructor
      · rintro ⟨e', heq⟩
        exact .inl ⟨rfl, (Prod.mk.inj heq).2.symm⟩
      · rintro (⟨-, rfl⟩ | ⟨f, hf, -⟩)
        · exact ⟨e, rfl⟩
        · cases hf
  | some r =>
      obtain ⟨f, h₁⟩ := r
      have hcall := call_of_ran hran
      cases hknown : o.types.contains f.ret with
      | true =>
          rw [if_pos hknown] at hcall
          obtain ⟨a, h'', ha⟩ := hcall
          rw [ha]
          constructor
          · rintro ⟨e, heq⟩
            cases heq
          · rintro (⟨hnone, -⟩ | ⟨f', hf, hunknown⟩)
            · cases hnone
            · cases hf
              rw [hknown] at hunknown
              cases hunknown
      | false =>
          rw [if_neg (by simp [hknown])] at hcall
          rw [hcall]
          constructor
          · rintro ⟨e, heq⟩
            exact .inr ⟨f, by rw [(Prod.mk.inj heq).2], hknown⟩
          · rintro (⟨hnone, -⟩ | ⟨f', hf, -⟩)
            · cases hnone
            · cases hf
              exact ⟨_, rfl⟩

/-- **What a failed call leaves behind.**  A call fails where it is refused before the body
runs, and then the heap stays as it was, or where the body runs and the kind of its result is
not registered, and then the heap is what the body left.  So a failed call changes nothing, for
any handle, if the overload that it selects does not write or has a result of a registered
kind. -/
theorem failed_call_spec (o : Object U) (name : String) (args : List (Object U))
    (h h' : Heap U) :
    ((∃ e, (o.call name args).run h = (.error e, h')) ↔
      (o.ran? name args h = none ∧ h' = h) ∨
        ∃ f, o.ran? name args h = some (f, h') ∧ o.types.contains f.ret = false) ∧
    ((∃ e, (o.call name args).run h = (.error e, h')) →
      (∀ f, o.chosen? name args = some f → f.writes = true → o.types.contains f.ret = true) →
        h' = h) := by
  refine ⟨call_error_iff, ?_⟩
  intro hfail hchosen
  cases call_error_iff.1 hfail with
  | inl hrefused => exact hrefused.2
  | inr hran =>
      obtain ⟨f, hran, hunknown⟩ := hran
      refine ran?_of_not_writes hran ?_
      cases hf : f.writes with
      | false => rfl
      | true =>
          rw [hchosen f (chosen?_of_ran hran) hf] at hunknown
          cases hunknown

end Call

/-! ### A failed call with an effect -/

/-- Only the built-in types. -/
def bare : Universe := ⟨Empty, inferInstance, nofun⟩

/-- Counts up and yields a value of a kind that `counter` does not register. -/
def bump : Overload (.int : Kind bare) := ⟨[], .bool, .copy, .writing fun n _ => (true, n + 1)⟩

/-- A number with the method `bump`, in the first cell. -/
def counter : Object bare where
  types := ⟨0, #[⟨.int, "counter", 0, { methods := Slots.empty.put "bump" [bump] }⟩]⟩
  index := ⟨0, by decide⟩
  holder := .owned 0

/-- The call fails, and the number has changed. -/
theorem failed_call_spec_counter :
    ∃ h, (∃ e, (counter.call "bump" []).run ⟨#[⟨⟨.int, 1⟩, 0, false⟩]⟩ = (.error e, h)) ∧
      counter.holder.read? h = some ⟨.int, 2⟩ := by
  have hran : counter.ran? "bump" [] ⟨#[⟨⟨.int, 1⟩, 0, false⟩]⟩ =
      some (bump, ⟨#[⟨⟨.int, 2⟩, 0, false⟩]⟩) := rfl
  refine ⟨_, (failed_call_spec counter "bump" [] _ _).1.2 (.inr ⟨bump, hran, ?_⟩), ?_⟩
  · cbv
  · rfl

end Object

end ChainScript.Script
