import ChainScript.Proofs.Members.Latest
import ChainScript.Proofs.Members.Overloads
import ChainScript.Proofs.Object.Cell
import ChainScript.Proofs.Registry.Provided

/-!
# Types that are described in several goes

A type that is registered once more is opened again: the calls of a new builder come on top of
those before, under a policy of their own, and other types may be registered in between.  The
members are what all the calls leave, and what a place among them holds is decided by the last
call that filled it.  So two lists of calls that agree on the last ones leave the same members, but
for the order of overloads.

## Main definitions

* `Members.SameUpToOrder` — members that differ in the order of their overloads at most.
* `Catalog.Opened` — a type has been described by some calls.

## Main results

* `sameUpToOrder_of_at?` — the places decide.
* `Catalog.Opened.members_eq` — what the calls leave.
* `Catalog.last_call_spec` — the last call decides what a place does.
-/

namespace ChainScript.Script

variable {U : Universe} {k : Kind U}

/-! ### The order of overloads -/

/-- Members that may have their overloads in different orders and are the same otherwise. -/
structure Members.SameUpToOrder (m m' : Members k) : Prop where
  getters : m.getters = m'.getters
  setters : m.setters = m'.setters
  methods : m.methods.names = m'.methods.names
  overloads : ∀ name, (m.overloads name).Perm (m'.overloads name)
  references : m.references = m'.references
  constructors : m.constructors.Perm m'.constructors
  converters : ∀ target, m.converter? target = m'.converter? target
  fallbackGetter : m.fallbackGetter = m'.fallbackGetter
  fallbackSetter : m.fallbackSetter = m'.fallbackSetter
  iteration : m.iteration = m'.iteration
  display : m.display = m'.display

/-- Lists of overloads from which the same are selected have the same overloads. -/
theorem Resolves.perm {α : Type} {params : α → List (Kind U)} {os os' bucket bucket' : List α}
    (R : Resolves params os bucket) (R' : Resolves params os' bucket')
    (h : ∀ kinds, selectOverload params bucket kinds = selectOverload params bucket' kinds) :
    bucket.Perm bucket' := by
  refine (List.perm_ext_iff_of_nodup R.distinct.of_map R'.distinct.of_map).2 fun f => ?_
  constructor
  · intro hf
    exact List.mem_of_find?_eq_some ((h _).symm.trans (R.selectOverload_of_mem hf))
  · intro hf
    exact List.mem_of_find?_eq_some ((h _).trans (R'.selectOverload_of_mem hf))

theorem get?_getters_eq (m : Members k) (n : String) :
    m.getters.get? n = (m.at? (.attr n)).bind fun
      | .attr getter _ => some getter
      | _ => none := by
  rw [Members.at?]
  cases m.getters.get? n <;> rfl

theorem contains_methods_declared (ds : List (Declaration k)) (name : String) :
    (declared ds).methods.contains name = true ↔ (declared ds).overloads name ≠ [] := by
  by_cases hos : overloadsOf name ds = []
  · have hnone : (declared ds).methods.get? name = none := by
      rw [get?_methods_declared, hos]
      rfl
    rw [Slots.contains, Members.overloads, hnone]
    exact iff_of_false Bool.false_ne_true fun h => h rfl
  · rw [Slots.contains, get?_methods_of_ne_nil hos]
    exact iff_of_true rfl ((resolves_overloads name ds).bucket_ne_nil hos)

/-- **Calls that leave the same in every place** leave the same members, but for the order of
overloads. -/
theorem sameUpToOrder_of_at? {ds ds' : List (Declaration k)}
    (h : ∀ s, (declared ds).at? s = (declared ds').at? s) :
    (declared ds).SameUpToOrder (declared ds') := by
  have hselect : ∀ name, ((declared ds).overloads name).Perm ((declared ds').overloads name) :=
    fun name => (resolves_overloads name ds).perm (resolves_overloads name ds') fun params =>
      Option.map_injective (fun _ _ => Entry.overload.inj) (h (.overload name params))
  refine
    { getters := Slots.ext_get? fun n => ?_
      setters := Slots.ext_get? fun n => ?_
      methods := Slots.names_congr fun name => ?_
      overloads := hselect
      references := Slots.ext_get? fun n =>
        Option.map_injective (fun _ _ => Entry.reference.inj) (h (.reference n))
      constructors := (resolves_constructors ds).perm (resolves_constructors ds') fun params =>
        Option.map_injective (fun _ _ => Entry.constructor.inj) (h (.constructor params))
      converters := fun target =>
        Option.map_injective (fun _ _ => Entry.converter.inj) (h (.converter target))
      fallbackGetter :=
        Option.map_injective (fun _ _ => Entry.fallbackGetter.inj) (h .fallbackGetter)
      fallbackSetter :=
        Option.map_injective (fun _ _ => Entry.fallbackSetter.inj) (h .fallbackSetter)
      iteration := Option.map_injective (fun _ _ => Entry.iteration.inj) (h .iteration)
      display := Option.map_injective (fun _ _ => Entry.display.inj) (h .display) }
  · rw [get?_getters_eq, get?_getters_eq, h]
  · rw [get?_setters_declared, get?_setters_declared, h]
  · rw [Bool.eq_iff_iff, contains_methods_declared, contains_methods_declared,
      ← List.length_pos_iff, ← List.length_pos_iff, (hselect name).length_eq]

/-! ### Types that are opened again -/

namespace Catalog

variable {c : Catalog U} {ds ds' : List (Declaration k)} {name : String} {done : Enrolled U}

/-- A type is opened for a builder, under its name or under any. -/
def Opens (c : Catalog U) (k : Kind U) (name : String) (build : Builder k → Builder k)
    (done : Enrolled U) : Prop :=
  c.register k name build = .ok done ∨ c.ensure k name build = .ok done

/-- The type of kind `k` has been described by the calls, from its first registration on.  A
builder that comes again begins under the policy `copy`. -/
inductive Opened (k : Kind U) : Catalog U → List (Declaration k) → Prop
  | first {c : Catalog U} {name : String} {ds : List (Declaration k)} {done : Enrolled U} :
      c.Reachable → c.contains k = false → c.Opens k name (·.declare ds) done →
      Opened k done.catalog ds
  | again {c : Catalog U} {name : String} {ds ds' : List (Declaration k)} {done : Enrolled U} :
      Opened k c ds → c.Opens k name (·.declare ds') done →
      Opened k done.catalog (ds ++ .withPolicy .copy :: ds')
  | other {c : Catalog U} {name : String} {ds : List (Declaration k)} {k' : Kind U}
      {build : Builder k' → Builder k'} {done : Enrolled U} :
      Opened k c ds → k' ≠ k → c.Opens k' name build done → Opened k done.catalog ds

/-- What is registered under its name can be made sure of under any. -/
theorem Opens.ensure_eq {build : Builder k → Builder k} (h : c.Opens k name build done) :
    c.ensure k name build = .ok done := by
  obtain h | h := h
  · rw [ensure]
    cases hlocate : c.locate? k with
    | some i =>
        simp only [register, hlocate] at h
        split at h
        · exact h
        · cases h
    | none => exact h
  · exact h

/-- Opening a type takes over the descriptor that it is to have. -/
theorem Indexed.takesOver_of_opens (C : c.Indexed) {build : Builder k → Builder k}
    (h : c.Opens k name build done) :
    c.TakesOver [Registration.describe ⟨k, name, build⟩ c] done.catalog ∧
      done.catalog.find? k = some (Registration.describe ⟨k, name, build⟩ c) := by
  have hensure := h.ensure_eq
  have hfits : c.Fits ⟨k, name, build⟩ := by
    by_contra hnot
    obtain ⟨d, -, -, herror⟩ := C.ensure_of_not_fits hnot
    rw [hensure] at herror
    cases herror
  obtain ⟨done', hdone, hcatalog⟩ := C.ensure_of_fits hfits
  obtain rfl := Except.ok.inj (hensure.symm.trans hdone)
  have H := C.takesOver_describe hfits
  rw [← hcatalog] at H
  have htaken := H.taken _ List.mem_cons_self
  rw [C.ownedBy_describe, C.kind_describe] at htaken
  exact ⟨H, htaken⟩

theorem membersAs_withMembers {d : Descriptor U} (hd : d.kind = k) (m : Members k) :
    (d.withMembers m).membersAs k = m := by
  subst hd
  rw [Descriptor.withMembers, dif_pos rfl, Descriptor.membersAs, dif_pos rfl]

/-- **What the calls leave**, with what was registered in between. -/
theorem Opened.find?_eq (H : Opened k c ds) :
    c.Indexed ∧ ∃ d, c.find? k = some d ∧ d.membersAs k = declared ds := by
  induction H with
  | @first c name ds done hc hnew hopens =>
      have C := hc.indexed
      obtain ⟨T, hfind⟩ := C.takesOver_of_opens hopens
      have hnone : c.find? k = none := by
        rw [find?, locate?, Option.not_isSome_iff_eq_none.1 (Bool.eq_false_iff.1 hnew)]
        rfl
      refine ⟨T.growsTo.indexed, _, hfind, ?_⟩
      rw [describe_of_none hnone, Descriptor.membersAs, dif_pos rfl]
      rfl
  | again _ hopens ih =>
      obtain ⟨C, d, hd, hmembers⟩ := ih
      obtain ⟨T, hfind⟩ := C.takesOver_of_opens hopens
      refine ⟨T.growsTo.indexed, _, hfind, ?_⟩
      rw [describe_of_some hd, membersAs_withMembers (C.find?_eq_some_iff.1 hd).2, hmembers]
      exact declare_reopened ..
  | other _ hne hopens ih =>
      obtain ⟨C, d, hd, hmembers⟩ := ih
      obtain ⟨T, -⟩ := C.takesOver_of_opens hopens
      refine ⟨T.growsTo.indexed, d, ?_, hmembers⟩
      rw [T.others _ (by simpa [C.kind_describe] using Ne.symm hne), hd]

/-- The members of an opened type. -/
theorem Opened.members_eq {i : Fin c.entries.size} {ds : List (Declaration (c.entry i).kind)}
    (H : Opened (c.entry i).kind c ds) : (c.entry i).members = declared ds := by
  obtain ⟨C, d, hd, hmembers⟩ := H.find?_eq
  obtain rfl : c.entry i = d :=
    Option.some.inj ((C.find?_eq_some_iff.2 ⟨mem_entries_iff.2 ⟨i, rfl⟩, rfl⟩).symm.trans hd)
  rw [← hmembers, Descriptor.membersAs, dif_pos rfl]

end Catalog

/-! ### What a write reaches -/

section Writing

variable {o : Object U} {ds before : List (Declaration o.kind)} {d : Declaration o.kind}
  {n : String}

/-- A write goes through the setter that was registered last. -/
theorem IsLast.assign_eq (hds : o.members = declared ds) (H : IsLast (.attr n) before d ds)
    {s : Setter o.kind} (hs : d.setter? = some s) (value : Object U) (converted : Bool) :
    o.assign n value converted =
      (do o.write n (← value.give s.arg converted o.types) (.setter s)) := by
  have hget : o.members.setters.get? n = some s := by rw [hds, H.get?_setters, hs]
  rw [Object.assign_eq, Object.target, hget]
  rfl

/-- A write that has no setter left goes to the fallback. -/
theorem assign_eq_of_not_isWritable (hn : o.members.isWritable n = false) (value : Object U)
    (converted : Bool) :
    o.assign n value converted =
      match o.members.fallbackSetter with
      | some f => do o.write n (← value.give f.arg converted o.types) (.fallback f)
      | none => throw (.missing o.typeName n
          (if o.members.hasAttribute n then .readOnly else .noAttribute)) := by
  rw [Object.assign_eq, Object.target,
    Option.not_isSome_iff_eq_none.1 (Bool.eq_false_iff.1 hn)]
  cases o.members.fallbackSetter <;> rfl

end Writing

namespace Catalog

/-- **The last call decides.**  A type has been described by calls of builders: it was registered,
and opened again any number of times, under its name or under any, with other types registered in
between.  Then what a place among its members holds is what the last call that fills the place puts
there under the policy in force at that call, and a place that no call fills is empty.  Two calls in
a row that fill different places, made the other way round, leave the same members and the same
policy, up to the order of overloads.  An attribute can be written through a setter just where its
last registration came with one, as those of fields and of attributes with two functions do, and
what can be written so is an attribute.  A write to any object of the type, converting or not, goes
through the setter of the attribute's last registration; where that has none, or there is none, the
write goes to the fallback or is refused, and reaches no setter. -/
theorem last_call_spec {c : Catalog U} {i : Fin c.entries.size}
    {ds : List (Declaration (c.entry i).kind)} (H : Opened (c.entry i).kind c ds) :
    let m := (c.entry i).members
    (∀ s before d, IsLast s before d ds →
      m.at? s = d.entry? (Builder.declare {} before).policy) ∧
    (∀ s, (∀ d ∈ ds, d.slot? ≠ some s) → m.at? s = none) ∧
    (∀ before d e after s s', ds = before ++ d :: e :: after →
      d.slot? = some s → e.slot? = some s' → s ≠ s' →
        m.SameUpToOrder (declared (before ++ e :: d :: after)) ∧
        (Builder.declare {} ds).policy =
          (Builder.declare {} (before ++ e :: d :: after)).policy) ∧
    (∀ n, m.isWritable n = true ↔
      ∃ before d, IsLast (.attr n) before d ds ∧ d.setter?.isSome = true) ∧
    (∀ n, m.isWritable n = true → m.hasAttribute n = true) ∧
    ∀ (holder : Holder U) (n : String) (value : Object U) (converted : Bool),
      let o : Object U := ⟨c.toRegistry, i, holder⟩
      (∀ before d s, IsLast (.attr n) before d ds → d.setter? = some s →
        o.assign n value converted =
          (do o.write n (← value.give s.arg converted o.types) (.setter s))) ∧
      ((∀ before d, IsLast (.attr n) before d ds → d.setter? = none) →
        o.assign n value converted =
          match o.members.fallbackSetter with
          | some f => do o.write n (← value.give f.arg converted o.types) (.fallback f)
          | none => throw (.missing o.typeName n
              (if o.members.hasAttribute n then .readOnly else .noAttribute))) := by
  intro m
  have hm : m = declared ds := H.members_eq
  refine ⟨fun s before d hlast => ?_, fun s hs => ?_, ?_, fun n => ?_, fun n => ?_, ?_⟩
  · rw [hm, hlast.at?_declared]
  · rw [hm, at?_declared_of_forall hs]
  · rintro before d e after s s' hds hd he hne
    rw [hm, hds]
    exact ⟨sameUpToOrder_of_at? (at?_swap hd he hne), policy_swap hd he⟩
  · rw [hm, isWritable_declared_iff]
  · rw [hm]
    exact hasAttribute_of_isWritable ds n
  · intro holder n value converted o
    have ho : o.members = declared ds := hm
    refine ⟨fun before d s hlast hs => hlast.assign_eq ho hs value converted, fun hnone => ?_⟩
    have hn : o.members.isWritable n = false := by
      rw [Bool.eq_false_iff, ho]
      intro hn
      obtain ⟨before, d, hlast, hd⟩ := (isWritable_declared_iff ds n).1 hn
      rw [hnone before d hlast] at hd
      cases hd
    exact assign_eq_of_not_isWritable hn value converted

/-! ### A number that ceases to be writable -/

open Object (bare)

/-- A number that is read and written. -/
def numberAt : Declaration (.int : Kind bare) :=
  .addReadwrite "at" .int .int (fun n => n) fun _ n => n

/-- The next number. -/
def nextNumber : Declaration (.int : Kind bare) := .addMethod "next" [] .int fun n _ => n + 1

/-- The number is read in another way. -/
def negatedAt : Declaration (.int : Kind bare) := .addReadonly "at" .int fun n => -n

/-- Numbers that can be written. -/
def dials : Catalog bare :=
  ((empty 0).add .int "dial" (·.declare [.withPolicy .share, numberAt, nextNumber])).catalog

/-- The same numbers, opened again. -/
def stuckDials : Catalog bare := (dials.reopen ⟨0, by decide⟩ .int (·.declare [negatedAt])).catalog

/-- The calls of both builders. -/
def stuckCalls : List (Declaration (.int : Kind bare)) :=
  [.withPolicy .share, numberAt, nextNumber, .withPolicy .copy, negatedAt]

theorem opens_dials :
    (empty 0 : Catalog bare).Opens .int "dial"
      (·.declare [.withPolicy .share, numberAt, nextNumber])
      ((empty 0).add .int "dial" (·.declare [.withPolicy .share, numberAt, nextNumber])) :=
  .inl rfl

theorem opens_stuckDials : dials.Opens .int "number" (·.declare [negatedAt])
    (dials.reopen ⟨0, by decide⟩ .int (·.declare [negatedAt])) := .inr rfl

/-- A number in the first cell. -/
def stuckDial : Object bare := ⟨stuckDials.toRegistry, ⟨0, by decide⟩, .owned 0⟩

/-- The setter of the first registration is out of reach, and the method has kept its policy. -/
theorem last_call_spec_dial :
    Opened .int stuckDials stuckCalls ∧
    stuckDial.members.at? (.attr "at") = negatedAt.entry? .copy ∧
    stuckDial.members.at? (.overload "next" []) = nextNumber.entry? .share ∧
    stuckDial.members.at? .display = none ∧
    stuckDial.members.SameUpToOrder (declared
      [.withPolicy .share, nextNumber, numberAt, .withPolicy .copy, negatedAt]) ∧
    stuckDial.members.isWritable "at" = false ∧
    ∀ value converted, stuckDial.assign "at" value converted =
      throw (.missing "dial" "at" .readOnly) := by
  have hopened : Opened .int stuckDials stuckCalls :=
    .again (.first (.empty 0) rfl opens_dials) opens_stuckDials
  obtain ⟨hlast, hnone, hswap, hwritable, -, hassign⟩ :=
    last_call_spec (c := stuckDials) (i := ⟨0, by decide⟩) hopened
  have hat : IsLast (.attr "at") [.withPolicy .share, numberAt, nextNumber, .withPolicy .copy]
      negatedAt stuckCalls :=
    ⟨rfl, [], rfl, List.forall_mem_nil _⟩
  have hnext : IsLast (.overload "next" []) [.withPolicy .share, numberAt] nextNumber
      stuckCalls :=
    ⟨rfl, [.withPolicy .copy, negatedAt], rfl, by simp [negatedAt, Declaration.slot?]⟩
  have hdisplay : ∀ d ∈ stuckCalls, d.slot? ≠ some .display := by
    simp [stuckCalls, numberAt, nextNumber, negatedAt, Declaration.slot?]
  refine ⟨hopened, hlast _ _ _ hat, hlast _ _ _ hnext, hnone _ hdisplay,
    (hswap [.withPolicy .share] _ _ _ _ _ rfl rfl rfl (by simp)).1, ?_, fun value converted => ?_⟩
  · refine Bool.eq_false_iff.2 fun h => ?_
    obtain ⟨before, d, hd, hsetter⟩ := (hwritable "at").1 h
    obtain ⟨-, rfl⟩ := hat.unique hd
    cases hsetter
  · refine (hassign (.owned 0) "at" value converted).2 fun before d hd => ?_
    obtain ⟨-, rfl⟩ := hat.unique hd
    rfl

end Catalog

end ChainScript.Script
