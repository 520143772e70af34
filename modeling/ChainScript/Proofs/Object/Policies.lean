import ChainScript.Proofs.Members.Captured
import ChainScript.Proofs.Members.Overloads
import ChainScript.Proofs.Object.Reach
import ChainScript.Script.Object.Inspect
import ChainScript.Script.Object.Visit

/-!
# Refused references

A member that computes its value has nothing to refer to.  Where one is registered by reference,
a use of it is refused before anything is read, run or written, and nothing else is ever refused
so.  What the other members yield holds its value by the policy of the member: a copy of its own, a
shared value, or, for a part of an owner, a reference to the part where the owner is itself reached
by reference.

## Main definitions

* `ScriptError.isNoReferent` — the refusal.
* `Run.Grants` — a computation that is never refused so, and a condition on what it yields.
* `Policy.mode` — how the object of a yielded value holds it.
* `Object.reads` — the member that reads an attribute.

## Main results

* `Object.readAttribute_refused`, `Object.call_refused`, `Object.items_refused`,
  `Registry.constructAt_refused` — members that have nothing to refer to.
* `Object.grants_readAttribute`, `Object.grants_call`, `Object.grants_items`,
  `Registry.grants_constructAt` — all other members.
-/

namespace ChainScript.Script

variable {U : Universe}

/-! ### Computations that are not refused -/

/-- The error is that of a computed value that was to be referred to. -/
def ScriptError.isNoReferent : ScriptError U → Bool
  | noReferent .. => true
  | _ => false

namespace Run

/-- From every heap the computation yields a result that satisfies `Q`, or it fails, but not for
want of a referent. -/
structure Grants {α : Type} (m : Run U α) (Q : α → Prop) : Prop where
  ok : ∀ h a, (m.run h).1 = .ok a → Q a
  referent : ∀ h e, (m.run h).1 = .error e → e.isNoReferent = false

section Grants

variable {α β : Type} {m : Run U α} {k : α → Run U β} {Q : α → Prop} {R : β → Prop}

theorem grants_pure {a : α} (ha : Q a) : Grants (pure a : Run U α) Q :=
  ⟨fun _ _ hb => Except.ok.inj hb ▸ ha, nofun⟩

theorem grants_throw {e : ScriptError U} (he : e.isNoReferent = false) :
    Grants (throw e : Run U α) Q :=
  ⟨nofun, fun _ _ heq => Except.error.inj heq ▸ he⟩

theorem Grants.bind (hm : Grants m Q) (hk : ∀ a, Q a → Grants (k a) R) : Grants (m >>= k) R := by
  obtain ⟨hok, hreferent⟩ := hm
  constructor
  · intro h b hb
    cases hrun : m.run h with
    | mk r h₁ =>
        cases r with
        | ok a =>
            rw [bind_of_ok hrun] at hb
            exact (hk a (hok h a (by rw [hrun]))).ok h₁ b hb
        | error e =>
            rw [bind_of_error hrun] at hb
            cases hb
  · intro h e he
    cases hrun : m.run h with
    | mk r h₁ =>
        cases r with
        | ok a =>
            rw [bind_of_ok hrun] at he
            exact (hk a (hok h a (by rw [hrun]))).referent h₁ e he
        | error e' =>
            rw [bind_of_error hrun] at he
            obtain rfl := Except.error.inj he
            exact hreferent h e' (by rw [hrun])

/-- A refusal before anything else is done. -/
theorem grants_refuse {e : ScriptError U} {k : PUnit → Run U β} (he : e.isNoReferent = false) :
    Grants ((throw e : Run U PUnit) >>= k) R :=
  (grants_throw (Q := fun _ => False) he).bind fun _ hfalse => hfalse.elim

theorem Grants.mono {P : α → Prop} (hm : Grants m P) (hQ : ∀ a, P a → Q a) : Grants m Q :=
  ⟨fun h a ha => hQ a (hm.ok h a ha), hm.referent⟩

theorem Grants.map {f : α → β} (hm : Grants m Q) (hf : ∀ a, Q a → R (f a)) :
    Grants (f <$> m) R := by
  rw [map_eq_pure_bind]
  exact hm.bind fun a ha => grants_pure (hf a ha)

theorem Grants.tryCatch {handle : ScriptError U → Run U α} (hm : Grants m Q)
    (hh : ∀ e, e.isNoReferent = false → Grants (handle e) Q) : Grants (tryCatch m handle) Q := by
  constructor
  · intro h a ha
    rw [run_tryCatch] at ha
    cases hrun : m.run h with
    | mk r h₁ =>
        rw [hrun] at ha
        cases r with
        | ok a' => exact hm.ok h a (by rw [hrun]; exact ha)
        | error e => exact (hh e (hm.referent h e (by rw [hrun]))).ok h₁ a ha
  · intro h e he
    rw [run_tryCatch] at he
    cases hrun : m.run h with
    | mk r h₁ =>
        rw [hrun] at he
        cases r with
        | ok a' => cases he
        | error e' => exact (hh e' (hm.referent h e' (by rw [hrun]))).referent h₁ e he

theorem grants_get : Grants (get : Run U (Heap U)) fun _ => True :=
  ⟨fun _ _ _ => trivial, nofun⟩

theorem grants_modify (f : Heap U → Heap U) : Grants (modify f : Run U PUnit) fun _ => True :=
  ⟨fun _ _ _ => trivial, nofun⟩

theorem grants_alloc (v : Value U) : Grants (alloc v) fun _ => True :=
  ⟨fun _ _ _ => trivial, nofun⟩

theorem grants_orThrow {a? : Option α} {e : ScriptError U} (he : e.isNoReferent = false) :
    Grants (orThrow a? e) fun a => a? = some a := by
  cases a? with
  | none => exact grants_throw he
  | some a => exact grants_pure rfl

theorem Grants.mapM {f : α → Run U β} (hf : ∀ a, Grants (f a) R) (as : List α) :
    Grants (as.mapM f) fun bs => ∀ b ∈ bs, R b := by
  induction as with
  | nil => exact grants_pure nofun
  | cons a as ih =>
      rw [List.mapM_cons]
      refine (hf a).bind fun b hb => ih.bind fun bs hbs => grants_pure ?_
      exact List.forall_mem_cons.2 ⟨hb, hbs⟩

end Grants

end Run

open Run

/-! ### Objects of yielded values -/

/-- How the object of a yielded value holds it.  A part of an owner that is itself reached by
reference is referred to, where a reference is asked for; everything else is copied. -/
def Policy.mode (viewed : Bool) : Policy → Mode
  | copy => .owned
  | share => .shared
  | wrapReference => if viewed then .borrowed else .owned

/-- Where no reference is asked for, or the owner is not reached by one, it makes no difference. -/
theorem Policy.mode_eq {viewed : Bool} {policy : Policy}
    (h : ¬ (policy = .wrapReference ∧ viewed = true)) : policy.mode viewed = policy.mode false := by
  cases policy with
  | copy | share => rfl
  | wrapReference =>
      cases viewed with
      | false => rfl
      | true => exact absurd ⟨rfl, rfl⟩ h

namespace Registry

variable (r : Registry U)

theorem grants_hold (policy : Policy) (v : Value U) :
    Grants (hold policy v) fun holder => holder.mode = policy.mode false := by
  refine (grants_alloc v).bind fun l _ => ?_
  cases policy <;> exact grants_pure rfl

theorem grants_wrapNew {policy : Policy} (v : Value U) :
    Grants (r.wrapNew policy v) fun o => o.mode = policy.mode false := by
  rw [wrapNew]
  split
  · exact (grants_hold policy v).bind fun holder hmode => grants_pure hmode
  · exact grants_throw rfl

theorem grants_wrap (holder : Holder U) (k : Kind U) :
    Grants (r.wrap holder k) fun o => o.holder = holder := by
  rw [wrap]
  split
  · exact grants_pure rfl
  · exact grants_throw rfl

end Registry

namespace Object

variable (o : Object U)

theorem grants_read : Grants o.read fun _ => True :=
  grants_get.bind fun _ _ => (grants_orThrow rfl).mono fun _ _ => trivial

theorem grants_edit : Grants o.edit fun _ => True :=
  grants_get.bind fun _ _ => (grants_orThrow rfl).mono fun _ _ => trivial

theorem grants_contentOf (v : Value U) : Grants (o.contentOf v) fun _ => True :=
  (grants_orThrow rfl).mono fun _ _ => trivial

theorem grants_content : Grants o.content fun _ => True :=
  o.grants_read.bind fun v _ => o.grants_contentOf v

theorem grants_copyValue : Grants o.copyValue fun _ => True :=
  o.grants_content.bind fun _ _ => grants_pure trivial

theorem grants_replace (v : Value U) : Grants (o.replace v) fun _ => True := grants_modify _

theorem grants_reborrow :
    Grants o.reborrow fun r => ∃ p guarded, r = o.withHolder (.view p guarded) := by
  rw [reborrow]
  split
  · exact grants_pure ⟨_, _, rfl⟩
  · refine grants_get.bind fun h _ => ?_
    split
    · exact (grants_modify _).bind fun _ _ => grants_pure ⟨_, _, rfl⟩
    · exact grants_throw rfl
  · exact grants_pure ⟨_, _, rfl⟩

theorem grants_passOn {next : Run U (Object U)} {Q : Object U → Prop} (hnext : Grants next Q) :
    Grants (o.passOn next) Q := by
  have hrelease : Grants o.release fun _ => True := grants_modify _
  refine (hnext.tryCatch fun e he => hrelease.bind fun _ _ => grants_throw he).bind fun r hr => ?_
  cases r.holder.isView with
  | true => exact grants_pure hr
  | false => exact hrelease.bind fun _ _ => grants_pure hr

theorem grants_touch {ret : Kind U} (lens : Lens o.kind.Carrier ret.Carrier) :
    Grants (o.touch lens) fun _ => True :=
  o.grants_edit.bind fun v _ => (o.grants_contentOf v).bind fun _ _ =>
    (o.grants_replace _).bind fun _ _ => grants_pure trivial

theorem grants_narrow (ret : Kind U) (lens : Lens o.kind.Carrier ret.Carrier) :
    Grants (o.narrow ret lens) fun r => r.mode = .borrowed := by
  have hdiscard : Grants (discard (o.touch lens)) fun _ => True :=
    (o.grants_touch lens).map fun _ _ => trivial
  refine hdiscard.bind fun _ _ => (o.types.grants_wrap _ ret).mono fun r hr => ?_
  rw [mode, hr]
  cases o.holder <;> rfl

/-! ### Attributes -/

/-- A getter that has nothing to refer to is refused before the value is read. -/
theorem readGetter_refused {getter : Getter o.kind} (hgetter : getter.capture = .unbound)
    (name : String) (h : Heap U) :
    (o.readGetter name getter).run h = (.error (.noReferent o.typeName name), h) := by
  cases getter with
  | computed ret policy read =>
      obtain ⟨rfl, -⟩ := Capture.mk.inj hgetter
      rw [readGetter, if_pos rfl]
      rfl
  | field ret policy lens => exact absurd (Capture.mk.inj hgetter).2 Bool.false_ne_true

theorem grants_readGetter {getter : Getter o.kind} (hgetter : getter.capture ≠ .unbound)
    (name : String) :
    Grants (o.readGetter name getter) fun r =>
      r.mode = getter.capture.policy.mode o.holder.isView := by
  cases getter with
  | computed ret policy read =>
      have hpolicy : policy ≠ .wrapReference := by
        rintro rfl
        exact hgetter rfl
      rw [readGetter, if_neg hpolicy]
      refine o.grants_content.bind fun x _ => (o.types.grants_wrapNew _).mono fun r hr => ?_
      exact hr.trans (Policy.mode_eq fun h => hpolicy h.1).symm
  | field ret policy lens =>
      rw [readGetter]
      split
      · next href =>
        refine (o.grants_narrow ret lens).mono fun r hr => ?_
        rw [hr, href.1, href.2]
        rfl
      · next href =>
        refine (o.grants_touch lens).bind fun x _ => (o.types.grants_wrapNew _).mono fun r hr => ?_
        exact hr.trans (Policy.mode_eq href).symm

theorem readFallback_refused {f : FallbackGetter o.kind} (hf : f.policy = .wrapReference)
    (name : String) (h : Heap U) :
    (o.readFallback name f).run h = (.error (.noReferent o.typeName name), h) := by
  rw [readFallback, if_pos hf]
  rfl

theorem grants_readFallback {f : FallbackGetter o.kind} (hf : f.policy ≠ .wrapReference)
    (name : String) :
    Grants (o.readFallback name f) fun r => r.mode = f.policy.mode false := by
  rw [readFallback, if_neg hf]
  refine o.grants_read.bind fun v _ => ?_
  split
  · exact o.types.grants_wrapNew _
  · exact grants_throw rfl

/-- The member that reads an attribute. -/
def reads (name : String) : Seat U :=
  if o.members.getters.contains name then .getter name else .fallback

theorem reads_of_some {name : String} {getter : Getter o.kind}
    (h : o.members.getters.get? name = some getter) :
    o.members.capture? (o.reads name) = some getter.capture := by
  rw [reads, Slots.contains, h, Option.isSome_some, if_pos rfl, Members.capture?, h]
  rfl

theorem reads_of_none {name : String} (h : o.members.getters.get? name = none) :
    o.members.capture? (o.reads name) = o.members.fallbackGetter.map fun f => ⟨f.policy, true⟩ := by
  rw [reads, Slots.contains, h, Option.isSome_none, if_neg Bool.false_ne_true]
  rfl

/-- The object ends, and that is all. -/
theorem readAttribute_refused {name : String}
    (hunbound : o.members.capture? (o.reads name) = some .unbound) (h : Heap U) :
    (o.readAttribute name).run h = (.error (.noReferent o.typeName name), o.ended h) := by
  rw [readAttribute]
  refine passOn_of_error ?_
  cases hgetter : o.members.getters.get? name with
  | some getter =>
      rw [o.reads_of_some hgetter] at hunbound
      exact o.readGetter_refused (Option.some.inj hunbound) name h
  | none =>
      rw [o.reads_of_none hgetter] at hunbound
      cases hfallback : o.members.fallbackGetter with
      | none =>
          rw [hfallback] at hunbound
          cases hunbound
      | some f =>
          rw [hfallback] at hunbound
          exact o.readFallback_refused (Capture.mk.inj (Option.some.inj hunbound)).1 name h

theorem grants_readAttribute {name : String}
    (hbound : o.members.capture? (o.reads name) ≠ some .unbound) :
    Grants (o.readAttribute name) fun r =>
      ∃ c, o.members.capture? (o.reads name) = some c ∧ r.mode = c.policy.mode o.holder.isView := by
  rw [readAttribute]
  refine o.grants_passOn ?_
  cases hgetter : o.members.getters.get? name with
  | some getter =>
      rw [o.reads_of_some hgetter] at hbound ⊢
      exact (o.grants_readGetter (fun h => hbound (congrArg some h)) name).mono
        fun r hr => ⟨_, rfl, hr⟩
  | none =>
      rw [o.reads_of_none hgetter] at hbound ⊢
      cases hfallback : o.members.fallbackGetter with
      | none => exact grants_throw rfl
      | some f =>
          rw [hfallback] at hbound
          have hpolicy : f.policy ≠ .wrapReference := fun h =>
            hbound (congrArg (fun policy => some (Capture.mk policy true)) h)
          refine (o.grants_readFallback hpolicy name).mono fun r hr => ⟨_, rfl, ?_⟩
          exact hr.trans (Policy.mode_eq fun h => hpolicy h.1).symm

/-- The last attribute on a path is read from what the path before it yields. -/
theorem readPath_concat (path : List String) (name : String) :
    o.readPath (path ++ [name]) = o.readPath path >>= (·.readAttribute name) := by
  rw [readPath_append]
  exact bind_congr fun r => bind_pure (r.readAttribute name)

theorem get_concat (path : List String) (name : String) :
    o.get (path ++ [name]) =
      o.reborrow >>= fun lent => lent.readPath path >>= (·.readAttribute name) := by
  rw [get_of_ne_nil o (List.append_ne_nil_of_right_ne_nil path (List.cons_ne_nil name []))]
  exact bind_congr fun lent => lent.readPath_concat path name

theorem grants_callRef (name : String) : Grants (o.callRef name) fun r => r.mode = .borrowed := by
  refine (grants_orThrow rfl).bind fun f _ => o.grants_reborrow.bind fun lent _ => ?_
  exact lent.grants_passOn ((o.withHolder lent.holder).grants_narrow f.ret f.lens)

/-! ### Writing -/

theorem grants_target (name : String) : Grants (o.target name) fun _ => True := by
  rw [target]
  split
  · exact grants_pure trivial
  · exact grants_pure trivial
  · exact grants_throw rfl

theorem grants_write (name : String) (v : Value U) (target : Target o.kind) :
    Grants (o.write name v target) fun _ => True := by
  cases target with
  | setter s =>
      refine o.grants_edit.bind fun w _ => ?_
      split
      · exact o.grants_replace _
      · exact grants_throw rfl
  | fallback f =>
      refine o.grants_edit.bind fun w _ => ?_
      split
      · refine (o.grants_replace _).bind fun _ _ => ?_
        split
        · exact grants_pure trivial
        · exact grants_throw rfl
      · exact grants_throw rfl

theorem grants_implicitInto (target : Kind U) (types : Registry U) :
    Grants (o.implicitInto target types) fun _ => True := by
  rw [implicitInto]
  split
  · exact o.grants_content.bind fun _ _ => grants_pure trivial
  · exact grants_throw rfl

theorem grants_set (name : String) (value : Object U) :
    Grants (o.set name value) fun _ => True := by
  refine (o.grants_target name).bind fun target _ => ?_
  split
  · exact value.grants_copyValue.bind fun v _ => o.grants_write name v target
  · exact grants_refuse rfl

theorem grants_setConverted (name : String) (value : Object U) :
    Grants (o.setConverted name value) fun _ => True := by
  refine (o.grants_target name).bind fun target _ => ?_
  split
  · exact value.grants_copyValue.bind fun v _ => o.grants_write name v target
  · exact (value.grants_implicitInto _ _).bind fun v _ => o.grants_write name v target

/-! ### Conversions -/

theorem grants_cast (k : Kind U) : Grants (o.cast k) fun _ => True := by
  rw [cast]
  split
  · exact o.grants_read.bind fun v _ => (grants_orThrow rfl).mono fun _ _ => trivial
  · exact grants_refuse rfl

theorem grants_convertValue (k : Kind U) : Grants (o.convertValue k) fun _ => True :=
  (grants_orThrow rfl).bind fun _ _ => o.grants_content.bind fun _ _ => grants_pure trivial

theorem grants_convertedCast (k : Kind U) : Grants (o.convertedCast k) fun _ => True := by
  rw [convertedCast]
  split
  · exact o.grants_cast k
  · exact (o.grants_convertValue k).bind fun v _ => (grants_orThrow rfl).mono fun _ _ => trivial

theorem grants_convertTo (k : Kind U) : Grants (o.convertTo k) fun r => r.mode = .owned := by
  refine (grants_orThrow rfl).bind fun i _ => ?_
  have hobject : ∀ v, Grants (do return (⟨o.types, i, ← Registry.hold .copy v⟩ : Object U))
      fun r => r.mode = .owned := fun v =>
    (Registry.grants_hold .copy v).bind fun _ hr => grants_pure hr
  dsimp only
  split
  · exact o.grants_copyValue.bind fun v _ => hobject v
  · exact (o.grants_convertValue k).bind fun v _ => hobject v

theorem grants_copy : Grants o.copy fun r => r.mode = .owned :=
  o.grants_copyValue.bind fun v _ => (Registry.grants_hold .copy v).bind fun _ hr => grants_pure hr

/-! ### Calls -/

theorem capture?_overload (name : String) (args : List (Object U)) :
    o.members.capture? (.overload name (args.map (·.kind))) =
      (o.chosen? name args).map fun f => ⟨f.policy, true⟩ := by
  rw [Members.capture?, Members.overloads, chosen?]
  cases o.members.methods.get? name <;> rfl

/-- An overload that has nothing to refer to is refused before the arguments are read. -/
theorem call_refused {name : String} {args : List (Object U)}
    (hunbound : o.members.capture? (.overload name (args.map (·.kind))) = some .unbound)
    (h : Heap U) : (o.call name args).run h = (.error (.noReferent o.typeName name), h) := by
  rw [capture?_overload] at hunbound
  obtain ⟨f, hf, hpolicy⟩ := Option.map_eq_some_iff.1 hunbound
  obtain ⟨bucket, hbucket, hselect⟩ := Option.bind_eq_some_iff.1 hf
  rw [call_of_select hbucket hselect, if_pos (Capture.mk.inj hpolicy).1]
  rfl

theorem grants_invoke (f : Overload o.kind) (values : List (Value U)) :
    Grants (o.invoke f values) fun _ => True := by
  have hgiven : Grants (U := U) (Run.orThrow (Args.ofValues? f.params values)
      (.foreignValue o.typeName)) fun _ => True := (grants_orThrow rfl).mono fun _ _ => trivial
  rw [invoke]
  split
  · exact hgiven.bind fun _ _ => grants_pure trivial
  · exact o.grants_edit.bind fun v _ => hgiven.bind fun _ _ =>
      (o.grants_contentOf v).bind fun _ _ => grants_pure trivial
  · exact o.grants_edit.bind fun v _ => hgiven.bind fun _ _ =>
      (o.grants_contentOf v).bind fun _ _ => (o.grants_replace _).bind fun _ _ =>
        grants_pure trivial

theorem grants_call {name : String} {args : List (Object U)}
    (hbound : o.members.capture? (.overload name (args.map (·.kind))) ≠ some .unbound) :
    Grants (o.call name args) fun r =>
      ∃ c, o.members.capture? (.overload name (args.map (·.kind))) = some c ∧
        r.mode = c.policy.mode false := by
  rw [capture?_overload, chosen?] at hbound ⊢
  refine (grants_orThrow rfl).bind fun bucket hbucket => (grants_orThrow rfl).bind fun f hf => ?_
  rw [hbucket, Option.bind_some, hf] at hbound ⊢
  have hpolicy : f.policy ≠ .wrapReference := fun h =>
    hbound (congrArg (fun policy => some (Capture.mk policy true)) h)
  rw [if_neg hpolicy]
  refine (Grants.mapM grants_copyValue args).bind fun values _ =>
    (o.grants_invoke f values).bind fun x _ => (o.types.grants_wrapNew _).mono fun r hr => ?_
  exact ⟨_, rfl, hr⟩

/-! ### Items -/

theorem items_refused (hunbound : o.members.capture? .iteration = some .unbound) (h : Heap U) :
    o.items.run h = (.error (.noReferent o.typeName "iterate"), h) := by
  obtain ⟨it, hit, hpolicy⟩ := Option.map_eq_some_iff.1 hunbound
  simp only [items, elements, hit, Run.orThrow, pure_bind, if_pos (Capture.mk.inj hpolicy).1]
  rfl

theorem grants_items (hbound : o.members.capture? .iteration ≠ some .unbound) :
    Grants o.items fun rs =>
      ∃ c, o.members.capture? .iteration = some c ∧ ∀ r ∈ rs, r.mode = c.policy.mode false := by
  have helements : Grants o.elements fun e => o.members.capture? .iteration =
      some ⟨e.policy, true⟩ := by
    refine (grants_orThrow rfl).bind fun it hit => ?_
    have hcapture : o.members.capture? .iteration = some ⟨it.policy, true⟩ := by
      rw [Members.capture?, hit]
      rfl
    have hpolicy : it.policy ≠ .wrapReference := fun h =>
      hbound (hcapture.trans (congrArg (fun policy => some (Capture.mk policy true)) h))
    rw [if_neg hpolicy]
    exact (grants_orThrow rfl).bind fun i _ => o.grants_content.bind fun _ _ =>
      grants_pure hcapture
  refine helements.bind fun e hcapture => ?_
  have hobject : ∀ v, Grants (e.object v) fun r => r.mode = e.policy.mode false := fun v =>
    (Registry.grants_hold e.policy v).bind fun _ hr => grants_pure hr
  exact (Grants.mapM hobject e.values).mono fun rs hrs => ⟨_, hcapture, hrs⟩

end Object

/-! ### Construction -/

namespace Registry

variable (r : Registry U) {i : Fin r.entries.size} {args : List (Object U)}

theorem constructAt_refused
    (hunbound : (r.entry i).members.capture? (.constructor (args.map (·.kind))) = some .unbound)
    (h : Heap U) :
    (r.constructAt i args).run h = (.error (.noReferent (r.entry i).name "constructor"), h) := by
  obtain ⟨f, hf, hpolicy⟩ := Option.map_eq_some_iff.1 hunbound
  rw [constructAt_of_select hf, if_pos (Capture.mk.inj hpolicy).1]
  rfl

theorem grants_constructAt
    (hbound : (r.entry i).members.capture? (.constructor (args.map (·.kind))) ≠ some .unbound) :
    Grants (r.constructAt i args) fun o =>
      ∃ c, (r.entry i).members.capture? (.constructor (args.map (·.kind))) = some c ∧
        o.mode = c.policy.mode false := by
  cases hf : selectOverload Constructor.params (r.entry i).members.constructors
      (args.map (·.kind)) with
  | none =>
      by_cases hnone : (r.entry i).members.constructors = []
      · rw [constructAt, hnone]
        exact grants_throw rfl
      · rw [constructAt_of_not_select hnone hf]
        exact grants_throw rfl
  | some f =>
      have hcapture : (r.entry i).members.capture? (.constructor (args.map (·.kind))) =
          some ⟨f.policy, true⟩ := by
        rw [Members.capture?, hf]
        rfl
      have hpolicy : f.policy ≠ .wrapReference := fun h =>
        hbound (hcapture.trans (congrArg (fun policy => some (Capture.mk policy true)) h))
      rw [constructAt_of_select hf, if_neg hpolicy]
      refine (Grants.mapM Object.grants_copyValue args).bind fun values _ =>
        (grants_orThrow rfl).bind fun given _ => (grants_hold f.policy _).bind fun _ hr =>
        grants_pure ?_
      exact ⟨_, hcapture, hr⟩

end Registry

end ChainScript.Script
