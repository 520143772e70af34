import Mathlib.Data.List.Induction
import ChainScript.Proofs.Members.Declared

/-!
# What the last call leaves

A call of a builder fills one place among the members of a type, and replaces whatever was there;
a call that sets the policy fills none.  An attribute is one place, though its getter and its
setter are kept apart: a call that registers it without a setter takes the setter away.  So what a
place holds is what the last call that filled it put there, under the policy then in force.

## Main definitions

* `Slot`, `Entry` — the places among the members of a type, and what they hold.
* `Members.at?` — what a place holds.
* `Declaration.slot?`, `Declaration.entry?` — the place that a call fills, and with what.
* `IsLast` — a call is the last that fills a place.

## Main results

* `at?_call` — one call.
* `IsLast.unique`, `IsLast.at?_declared`, `at?_declared_of_forall` — the last call decides.
* `at?_swap` — calls that fill different places, the other way round.
* `isWritable_declared_iff`, `hasAttribute_of_isWritable` — the attributes that have a setter.
-/

namespace ChainScript.Script

variable {U : Universe} {k : Kind U}

/-- A place among the members of a type. -/
inductive Slot (U : Universe)
  | attr (name : String)
  | overload (name : String) (params : List (Kind U))
  | reference (name : String)
  | constructor (params : List (Kind U))
  | converter (target : Kind U)
  | fallbackGetter
  | fallbackSetter
  | iteration
  | display
  deriving DecidableEq

/-- What a place holds. -/
inductive Entry (k : Kind U)
  /-- A getter, and a setter where the attribute has one of its own. -/
  | attr (getter : Getter k) (setter : Option (Setter k))
  | overload (f : Overload k)
  | reference (f : Reference k)
  | constructor (c : Constructor k)
  | converter (c : Converter k)
  | fallbackGetter (f : FallbackGetter k)
  | fallbackSetter (f : FallbackSetter k)
  | iteration (it : Iteration k)
  | display (render : k.Carrier → String)

/-- What a place among the members holds. -/
def Members.at? (m : Members k) : Slot U → Option (Entry k)
  | .attr name => (m.getters.get? name).map fun g => .attr g (m.setters.get? name)
  | .overload name params =>
      (selectOverload Overload.params (m.overloads name) params).map .overload
  | .reference name => (m.references.get? name).map .reference
  | .constructor params =>
      (selectOverload Constructor.params m.constructors params).map .constructor
  | .converter target => (m.converter? target).map .converter
  | .fallbackGetter => m.fallbackGetter.map .fallbackGetter
  | .fallbackSetter => m.fallbackSetter.map .fallbackSetter
  | .iteration => m.iteration.map .iteration
  | .display => m.display.map .display

namespace Declaration

/-- The place that a call fills. -/
def slot? : Declaration k → Option (Slot U)
  | .withPolicy _ => none
  | .addReadonly name .. | .addConstant name _ | .addReadwrite name .. | .addField name .. =>
      some (.attr name)
  | .addMethod name params .. | .addMethodMut name params .. | .addStatic name params .. =>
      some (.overload name params)
  | .addMethodRef name .. => some (.reference name)
  | .addConstructor params _ => some (.constructor params)
  | .conversion target _ | .implicitConversion target _ => some (.converter target)
  | .fallbackGetter .. => some .fallbackGetter
  | .fallbackSetter .. => some .fallbackSetter
  | .iterable .. => some .iteration
  | .withDisplay _ => some .display

/-- What a call under a policy fills its place with. -/
def entry? (policy : Policy) : Declaration k → Option (Entry k)
  | .withPolicy _ => none
  | .addReadonly _ ret read => some (.attr (.computed ret policy read) none)
  | .addConstant _ v => some (.attr (.computed v.kind policy fun _ => v.content) none)
  | .addReadwrite _ ret arg read write =>
      some (.attr (.computed ret policy read) (some ⟨arg, write⟩))
  | .addField _ ret lens => some (.attr (.field ret policy lens)
      (some ⟨ret, fun owner v => lens.put (lens.touch owner) v⟩))
  | .addMethod _ params ret f => some (.overload ⟨params, ret, policy, .reading f⟩)
  | .addMethodMut _ params ret f => some (.overload ⟨params, ret, policy, .writing f⟩)
  | .addStatic _ params ret f => some (.overload ⟨params, ret, policy, .free f⟩)
  | .addMethodRef _ ret lens => some (.reference ⟨ret, lens⟩)
  | .addConstructor params make => some (.constructor ⟨params, policy, make⟩)
  | .conversion target convert => some (.converter ⟨target, false, convert⟩)
  | .implicitConversion target convert => some (.converter ⟨target, true, convert⟩)
  | .fallbackGetter ret read => some (.fallbackGetter ⟨ret, policy, read⟩)
  | .fallbackSetter arg write => some (.fallbackSetter ⟨arg, write⟩)
  | .iterable item walk => some (.iteration ⟨item, policy, walk⟩)
  | .withDisplay render => some (.display render)

/-- The setter that a call registers with an attribute. -/
def setter? : Declaration k → Option (Setter k)
  | .addReadwrite _ _ arg _ write => some ⟨arg, write⟩
  | .addField _ ret lens => some ⟨ret, fun owner v => lens.put (lens.touch owner) v⟩
  | _ => none

end Declaration

/-! ### One call -/

/-- The overload that was registered with some parameters is the last one. -/
theorem selectOverload_addOverload {α : Type} {params : α → List (Kind U)} (o : α)
    (bucket : List α) (kinds : List (Kind U)) :
    selectOverload params (addOverload params o bucket) kinds =
      if params o = kinds then some o else selectOverload params bucket kinds := by
  induction bucket with
  | nil => simp [addOverload, selectOverload, List.find?_singleton]
  | cons x rest ih =>
      rw [selectOverload, selectOverload] at ih
      rw [addOverload, selectOverload, selectOverload]
      by_cases hx : params x = params o
      · rw [if_pos hx, List.find?_cons, List.find?_cons, hx]
        by_cases ho : params o = kinds <;> simp [ho]
      · rw [if_neg hx, List.find?_cons, List.find?_cons, ih]
        by_cases ho : params o = kinds
        · simp [ho, ho ▸ hx]
        · simp [ho]

section Call

variable (b : Builder k) (s : Slot U)

theorem at?_putGetter (name : String) (getter : Getter k) (setter : Option (Setter k)) :
    (b.putGetter name getter setter).members.at? s =
      if .attr name = s then some (.attr getter setter) else b.members.at? s := by
  cases s with
  | attr n =>
      have hget : (b.putGetter name getter setter).members.getters.get? n =
          if n = name then some getter else b.members.getters.get? n := Slots.get?_put ..
      have hset : (b.putGetter name getter setter).members.setters.get? n =
          if n = name then setter else b.members.setters.get? n := by
        cases setter with
        | none => exact Slots.get?_erase ..
        | some w => exact Slots.get?_put ..
      rw [Members.at?, hget, hset]
      by_cases hn : n = name
      · rw [if_pos hn, if_pos hn, if_pos (hn ▸ rfl)]
        rfl
      · rw [if_neg hn, if_neg hn, if_neg fun heq => hn (Slot.attr.inj heq).symm]
        rfl
  | _ => rfl

theorem at?_putOverload (name : String) (params : List (Kind U)) (ret : Kind U)
    (body : Body k params ret) :
    (b.putOverload name params ret body).members.at? s =
      if .overload name params = s then some (.overload ⟨params, ret, b.policy, body⟩)
      else b.members.at? s := by
  cases s with
  | overload n kinds =>
      have hget := get?_putOverload b name n params ret body
      rw [Members.at?, Members.overloads, hget]
      by_cases hn : n = name
      · subst hn
        rw [if_pos rfl, Option.getD_some, selectOverload_addOverload]
        by_cases hparams : params = kinds
        · rw [if_pos hparams, if_pos (hparams ▸ rfl)]
          rfl
        · rw [if_neg hparams, if_neg fun heq => hparams (Slot.overload.inj heq).2]
          rfl
      · rw [if_neg hn, if_neg fun heq => hn (Slot.overload.inj heq).1.symm]
        rfl
  | _ => rfl

theorem at?_addMethodRef (name : String) (ret : Kind U) (lens : Lens k.Carrier ret.Carrier) :
    (b.addMethodRef name ret lens).members.at? s =
      if .reference name = s then some (.reference ⟨ret, lens⟩) else b.members.at? s := by
  cases s with
  | reference n =>
      have hget : (b.addMethodRef name ret lens).members.references.get? n =
          if n = name then some ⟨ret, lens⟩ else b.members.references.get? n := Slots.get?_put ..
      rw [Members.at?, hget]
      by_cases hn : n = name
      · rw [if_pos hn, if_pos (hn ▸ rfl)]
        rfl
      · rw [if_neg hn, if_neg fun heq => hn (Slot.reference.inj heq).symm]
        rfl
  | _ => rfl

theorem at?_addConstructor (params : List (Kind U)) (make : Args params → k.Carrier) :
    (b.addConstructor params make).members.at? s =
      if .constructor params = s then some (.constructor ⟨params, b.policy, make⟩)
      else b.members.at? s := by
  cases s with
  | constructor kinds =>
      rw [Members.at?, Builder.addConstructor, selectOverload_addOverload]
      by_cases hparams : params = kinds
      · rw [if_pos hparams, if_pos (hparams ▸ rfl)]
        rfl
      · rw [if_neg hparams, if_neg fun heq => hparams (Slot.constructor.inj heq)]
        rfl
  | _ => rfl

/-- The converter to a kind is the last one that was registered. -/
theorem converter?_putConverter (implicit : Bool) (target k' : Kind U)
    (convert : k.Carrier → target.Carrier) :
    (b.putConverter implicit target convert).members.converter? k' =
      if target = k' then some ⟨target, implicit, convert⟩ else b.members.converter? k' := by
  have hnew : (b.putConverter implicit target convert).members.converters =
      b.members.converters.filter (·.target ≠ target) ++ [⟨target, implicit, convert⟩] := rfl
  rw [Members.converter?, Members.converter?, hnew, List.find?_append, List.find?_filter]
  by_cases htarget : target = k'
  · subst htarget
    have hold : b.members.converters.find? (fun c => decide (c.target ≠ target) = true ∧
        decide (c.target = target) = true) = none :=
      List.find?_eq_none.2 (by simp)
    rw [if_pos rfl, hold, Option.none_or]
    exact List.find?_cons_of_pos (by simp)
  · have hold : ∀ c : Converter k, decide (decide (c.target ≠ target) = true ∧
        decide (c.target = k') = true) = decide (c.target = k') := by
      intro c
      by_cases hc : c.target = k'
      · simp [hc, Ne.symm htarget]
      · simp [hc]
    simp only [hold]
    rw [if_neg htarget, List.find?_singleton, if_neg (by simpa using htarget), Option.or_none]

theorem at?_putConverter (implicit : Bool) (target : Kind U)
    (convert : k.Carrier → target.Carrier) :
    (b.putConverter implicit target convert).members.at? s =
      if .converter target = s then some (.converter ⟨target, implicit, convert⟩)
      else b.members.at? s := by
  cases s with
  | converter k' =>
      rw [Members.at?, converter?_putConverter]
      by_cases htarget : target = k'
      · rw [if_pos htarget, if_pos (htarget ▸ rfl)]
        rfl
      · rw [if_neg htarget, if_neg fun heq => htarget (Slot.converter.inj heq)]
        rfl
  | _ => rfl

/-- **One call** fills its place and leaves all others. -/
theorem at?_call (d : Declaration k) :
    (b.call d).members.at? s =
      if d.slot? = some s then d.entry? b.policy else b.members.at? s := by
  cases d with
  | withPolicy => rfl
  | addReadonly | addConstant | addReadwrite | addField =>
      simp only [Declaration.slot?, Option.some.injEq]
      exact at?_putGetter ..
  | addMethod | addMethodMut | addStatic =>
      simp only [Declaration.slot?, Option.some.injEq]
      exact at?_putOverload ..
  | addMethodRef =>
      simp only [Declaration.slot?, Option.some.injEq]
      exact at?_addMethodRef ..
  | addConstructor =>
      simp only [Declaration.slot?, Option.some.injEq]
      exact at?_addConstructor ..
  | conversion | implicitConversion =>
      simp only [Declaration.slot?, Option.some.injEq]
      exact at?_putConverter ..
  | fallbackGetter | fallbackSetter | iterable | withDisplay =>
      cases s <;> rfl

end Call

/-! ### The last call -/

/-- The calls `ds` begin with `before` and `d`, which fills the place, and none after `d` fills
it. -/
def IsLast (s : Slot U) (before : List (Declaration k)) (d : Declaration k)
    (ds : List (Declaration k)) : Prop :=
  d.slot? = some s ∧ ∃ after, ds = before ++ d :: after ∧ ∀ e ∈ after, e.slot? ≠ some s

section Last

variable {s : Slot U} {n : String} {before after ds : List (Declaration k)} {d e : Declaration k}

theorem at?_declare_of_forall (b : Builder k) (hds : ∀ e ∈ ds, e.slot? ≠ some s) :
    (b.declare ds).members.at? s = b.members.at? s := by
  induction ds generalizing b with
  | nil => rfl
  | cons d ds ih =>
      obtain ⟨hd, hrest⟩ := List.forall_mem_cons.1 hds
      have hcall := at?_call b s d
      rw [if_neg hd] at hcall
      exact (ih (b.call d) hrest).trans hcall

/-- What no call fills is empty. -/
theorem at?_declared_of_forall (hds : ∀ d ∈ ds, d.slot? ≠ some s) :
    (declared ds).at? s = none := by
  rw [declared, at?_declare_of_forall {} hds]
  cases s <;> rfl

/-- **The last call that fills a place decides**, with the policy in force then. -/
theorem IsLast.at?_declared (H : IsLast s before d ds) :
    (declared ds).at? s = d.entry? (Builder.declare {} before).policy := by
  obtain ⟨hd, after, rfl, hafter⟩ := H
  have hsplit : Builder.declare {} (before ++ d :: after) =
      ((Builder.declare {} before).call d).declare after := List.foldl_append
  rw [declared, hsplit, at?_declare_of_forall _ hafter, at?_call, if_pos hd]

/-- There is one last call. -/
theorem IsLast.unique {before' : List (Declaration k)} {d' : Declaration k}
    (H : IsLast s before d ds) (H' : IsLast s before' d' ds) : before = before' ∧ d = d' := by
  obtain ⟨hd, after, rfl, hafter⟩ := H
  obtain ⟨hd', after', heq, hafter'⟩ := H'
  obtain ⟨between, rfl, hrest⟩ | ⟨between, rfl, hrest⟩ := List.append_eq_append_iff.1 heq
  · cases between with
    | nil => exact ⟨(List.append_nil _).symm, (List.cons.inj hrest).1⟩
    | cons x between =>
        obtain ⟨-, rfl⟩ := List.cons.inj hrest
        exact absurd hd' (hafter d' (by simp))
  · cases between with
    | nil => exact ⟨List.append_nil _, (List.cons.inj hrest).1.symm⟩
    | cons x between =>
        obtain ⟨-, rfl⟩ := List.cons.inj hrest
        exact absurd hd (hafter' d (by simp))

/-- A place is filled by no call, or by a last one. -/
theorem exists_isLast (s : Slot U) (ds : List (Declaration k)) :
    (∀ d ∈ ds, d.slot? ≠ some s) ∨ ∃ before d, IsLast s before d ds := by
  induction ds using List.reverseRecOn with
  | nil => exact .inl nofun
  | append_singleton ds e ih =>
      by_cases he : e.slot? = some s
      · exact .inr ⟨ds, e, he, [], rfl, nofun⟩
      · obtain hnone | ⟨before, d, hd, after, rfl, hafter⟩ := ih
        · exact .inl (List.forall_mem_append.2 ⟨hnone, List.forall_mem_singleton.2 he⟩)
        · refine .inr ⟨before, d, hd, after ++ [e], by simp, ?_⟩
          exact List.forall_mem_append.2 ⟨hafter, List.forall_mem_singleton.2 he⟩

/-! ### Calls the other way round -/

/-- Builders that agree on every place go on to agree. -/
theorem at?_declare_congr {b b' : Builder k} (hpolicy : b.policy = b'.policy)
    (hat : ∀ s, b.members.at? s = b'.members.at? s) (ds : List (Declaration k)) (s : Slot U) :
    (b.declare ds).members.at? s = (b'.declare ds).members.at? s := by
  induction ds generalizing b b' with
  | nil => exact hat s
  | cons d ds ih =>
      refine ih ?_ fun s => ?_
      · rw [policy_call, policy_call, hpolicy]
      · rw [at?_call, at?_call, hpolicy, hat]

/-- A call that fills a place leaves the policy. -/
theorem policy_call_of_slot (b : Builder k) (hd : d.slot? = some s) :
    (b.call d).policy = b.policy := by
  rw [policy_call]
  cases d with
  | withPolicy => cases hd
  | _ => rfl

theorem declare_split (before after : List (Declaration k)) (d e : Declaration k) :
    Builder.declare {} (before ++ d :: e :: after) =
      (((Builder.declare {} before).call d).call e).declare after := List.foldl_append

/-- The policy in force after some calls does not depend on the members. -/
theorem policy_declare_congr {b b' : Builder k} (hpolicy : b.policy = b'.policy)
    (ds : List (Declaration k)) : (b.declare ds).policy = (b'.declare ds).policy := by
  induction ds generalizing b b' with
  | nil => exact hpolicy
  | cons d ds ih => exact ih (by rw [policy_call, policy_call, hpolicy])

section Swap

variable {s' : Slot U} (hd : d.slot? = some s) (he : e.slot? = some s')
include hd he

theorem policy_call_swap (b : Builder k) :
    ((b.call d).call e).policy = ((b.call e).call d).policy := by
  rw [policy_call_of_slot _ he, policy_call_of_slot _ hd, policy_call_of_slot _ hd,
    policy_call_of_slot _ he]

/-- Two calls that fill places can be made in either order as far as the policy goes. -/
theorem policy_swap : (Builder.declare {} (before ++ d :: e :: after)).policy =
    (Builder.declare {} (before ++ e :: d :: after)).policy := by
  rw [declare_split, declare_split]
  exact policy_declare_congr (policy_call_swap hd he _) after

/-- Two calls that fill different places can be made in either order. -/
theorem at?_swap (hne : s ≠ s') (slot : Slot U) :
    (declared (before ++ d :: e :: after)).at? slot =
      (declared (before ++ e :: d :: after)).at? slot := by
  rw [declared, declared, declare_split, declare_split]
  refine at?_declare_congr (policy_call_swap hd he _) (fun slot => ?_) after slot
  rw [at?_call, at?_call, at?_call, at?_call, policy_call_of_slot _ hd, policy_call_of_slot _ he]
  by_cases hslot : d.slot? = some slot
  · have hother : e.slot? ≠ some slot := fun heq =>
      hne (Option.some.inj ((hd.symm.trans hslot).trans (heq.symm.trans he)))
    rw [if_neg hother, if_pos hslot, if_pos hslot]
  · rw [if_neg hslot, if_neg hslot]

end Swap

/-! ### Attributes that have a setter -/

theorem hasAttribute_of_isWritable_call {b : Builder k}
    (hb : ∀ n, b.members.isWritable n = true → b.members.hasAttribute n = true)
    (d : Declaration k) (n : String) (hn : (b.call d).members.isWritable n = true) :
    (b.call d).members.hasAttribute n = true := by
  have hput : ∀ name getter setter, (b.putGetter name getter setter).members.isWritable n = true →
      (b.putGetter name getter setter).members.hasAttribute n = true := by
    intro name getter setter hn
    rw [Members.isWritable, Slots.contains] at hn
    rw [Members.hasAttribute, Slots.contains]
    have hget : (b.putGetter name getter setter).members.getters.get? n =
        if n = name then some getter else b.members.getters.get? n := Slots.get?_put ..
    rw [hget]
    by_cases hname : n = name
    · rw [if_pos hname, Option.isSome_some]
    · rw [if_neg hname]
      refine hb n ?_
      cases setter with
      | none =>
          have hset : (b.putGetter name getter none).members.setters.get? n = _ :=
            Slots.get?_erase ..
          rwa [hset, if_neg hname] at hn
      | some w =>
          have hset : (b.putGetter name getter (some w)).members.setters.get? n = _ :=
            Slots.get?_put ..
          rwa [hset, if_neg hname] at hn
  cases d with
  | addReadonly | addConstant | addReadwrite | addField => exact hput _ _ _ hn
  | _ => exact hb n hn

/-- **What can be written through a setter is an attribute.** -/
theorem hasAttribute_of_isWritable (ds : List (Declaration k)) (n : String)
    (hn : (declared ds).isWritable n = true) : (declared ds).hasAttribute n = true := by
  induction ds using List.reverseRecOn generalizing n with
  | nil => cases hn
  | append_singleton ds d ih =>
      have hlast : declared (ds ++ [d]) = ((Builder.declare {} ds).call d).members := by
        rw [declared, Builder.declare, List.foldl_append]
        rfl
      rw [hlast] at hn ⊢
      exact hasAttribute_of_isWritable_call ih d n hn

/-- The setter of an attribute is part of what the attribute's place holds. -/
theorem get?_setters_declared (ds : List (Declaration k)) (n : String) :
    (declared ds).setters.get? n = ((declared ds).at? (.attr n)).bind fun
      | .attr _ setter => setter
      | _ => none := by
  rw [Members.at?]
  cases hget : (declared ds).getters.get? n with
  | some g => rfl
  | none =>
      have hwritable := hasAttribute_of_isWritable ds n
      rw [Members.hasAttribute, Slots.contains, hget, Members.isWritable, Slots.contains]
        at hwritable
      exact Option.not_isSome_iff_eq_none.1 fun hn => nomatch hwritable hn

/-- The setter of an attribute is the one that was registered with it last. -/
theorem IsLast.get?_setters (H : IsLast (.attr n) before d ds) :
    (declared ds).setters.get? n = d.setter? := by
  rw [get?_setters_declared, H.at?_declared]
  obtain ⟨hd, -⟩ := H
  cases d with
  | addReadonly | addConstant | addReadwrite | addField => rfl
  | _ => cases hd

/-- **An attribute can be written through a setter just where its last registration had one.** -/
theorem isWritable_declared_iff (ds : List (Declaration k)) (n : String) :
    (declared ds).isWritable n = true ↔
      ∃ before d, IsLast (.attr n) before d ds ∧ d.setter?.isSome = true := by
  rw [Members.isWritable, Slots.contains]
  constructor
  · intro hn
    obtain hnone | ⟨before, d, H⟩ := exists_isLast (.attr n) ds
    · rw [get?_setters_declared, at?_declared_of_forall hnone] at hn
      cases hn
    · exact ⟨before, d, H, by rwa [← H.get?_setters]⟩
  · rintro ⟨before, d, H, hd⟩
    rwa [H.get?_setters]

end Last

end ChainScript.Script
