import ChainScript.Proofs.Object.Cell
import ChainScript.Proofs.Object.Policies

/-!
# Why uses of members fail

The error of a use may say that the type lacks something, and then its message ends with a reason.
All other errors come of a value that is in use or of a wrong type, of a type that is unknown, or of
a policy that asks for a reference where there is none.  A use of a member that exists gives at most
the reasons that lie in the member itself: a fallback may decline a name, overloads may not take the
arguments, and a value may be of the wrong kind.

## Main definitions

* `ScriptError.reason?`, `Run.FailsFor` — the reason that the message of an error ends with, and a
  failure for a given reason.
* `ScriptError.isIncidental`, `Run.Raises` — errors that do not say what a type lacks, and
  computations whose other errors are of a given sort.

## Main results

* `Run.Raises.not_failsFor` — what a computation does not raise is not why it fails.
* `Object.raises_get_single`, `Object.raises_write`, `Object.raises_call`, `Object.raises_callRef`,
  `Object.raises_convertedCast`, `Object.raises_items` — the uses of members that exist.
-/

namespace ChainScript.Script

variable {U : Universe}

/-! ### Reasons -/

namespace ScriptError

/-- The reason that the message of an error ends with, where a member cannot be used. -/
def reason? : ScriptError U → Option String
  | missing _ _ why => some why.message
  | noConverter _ _ => some "no converter registered"
  | _ => none

/-- The error comes of a value, of what is registered or of a policy, and not of what a type
lacks. -/
def isIncidental : ScriptError U → Bool
  | foreignValue _ | unregistered _ | borrowed _ | noReferent .. => true
  | _ => false

variable {e : ScriptError U}

theorem reason?_of_isIncidental (he : e.isIncidental = true) : e.reason? = none := by
  cases e with
  | missing | noConverter => cases he
  | _ => rfl

end ScriptError

/-- Of two reasons that are worded differently, the wording tells which one it is. -/
theorem Missing.message_ite (b : Bool) (m m' : Missing) (hne : m.message ≠ m'.message) :
    ((if b then m else m').message = m.message ↔ b = true) ∧
      ((if b then m else m').message = m'.message ↔ b = false) := by
  cases b with
  | true => exact ⟨iff_of_true rfl rfl, iff_of_false hne Bool.false_ne_true.symm⟩
  | false => exact ⟨iff_of_false hne.symm Bool.false_ne_true, iff_of_true rfl rfl⟩

/-- What is said where no overload is selected begins like nothing else. -/
theorem Missing.message_noOverload_ne {why : String}
    (hwhy : ¬ "no overload takes these ".toList <+: why.toList) (given : Nat)
    (arities : List Nat) : (noOverload given arities).message ≠ why := by
  have happend (s t : String) : s.toList <+: (s ++ t).toList := by
    rw [String.toList_append]
    exact List.prefix_append _ _
  rintro rfl
  exact hwhy (((happend _ _).trans (happend _ _)).trans (happend _ _))

namespace Run

variable {α β : Type} {m : Run U α} {k : α → Run U β} {P Q : ScriptError U → Prop} {h h' : Heap U}
  {why : String} {e : ScriptError U}

/-- The computation fails for the reason. -/
def FailsFor (m : Run U α) (h : Heap U) (why : String) : Prop :=
  ∃ e, (m.run h).1 = .error e ∧ e.reason? = some why

/-- From every heap, the errors of the computation are incidental or satisfy `P`. -/
def Raises (m : Run U α) (P : ScriptError U → Prop) : Prop :=
  ∀ h e, (m.run h).1 = .error e → e.isIncidental = true ∨ P e

theorem failsFor_of_run (hrun : m.run h = (.error e, h')) :
    FailsFor m h why ↔ e.reason? = some why := by
  rw [FailsFor, hrun]
  constructor
  · rintro ⟨e', he', hwhy⟩
    exact Except.error.inj he' ▸ hwhy
  · exact fun hwhy => ⟨e, rfl, hwhy⟩

/-- A reason that no error gives which is raised is not the reason for a failure. -/
theorem Raises.not_failsFor (hm : Raises m P) (hP : ∀ e, P e → e.reason? ≠ some why)
    (h : Heap U) : ¬ FailsFor m h why := by
  rintro ⟨e, he, hwhy⟩
  refine (hm h e he).elim (fun hincidental => ?_) fun he => hP e he hwhy
  rw [ScriptError.reason?_of_isIncidental hincidental] at hwhy
  cases hwhy

theorem Raises.mono (hm : Raises m P) (hPQ : ∀ e, P e → Q e) : Raises m Q :=
  fun h e he => (hm h e he).imp_right (hPQ e)

theorem raises_pure (a : α) : Raises (pure a : Run U α) P := nofun

theorem raises_throw (he : e.isIncidental = true ∨ P e) : Raises (throw e : Run U α) P :=
  fun _ _ heq => Except.error.inj heq ▸ he

/-- A refusal before anything else is done. -/
theorem raises_refuse {k : PUnit → Run U β} (he : e.isIncidental = true ∨ P e) :
    Raises ((throw e : Run U PUnit) >>= k) P :=
  fun _ _ heq => Except.error.inj heq ▸ he

theorem raises_orThrow {a? : Option α} (he : e.isIncidental = true ∨ P e) :
    Raises (orThrow a? e) P := by
  cases a? with
  | none => exact raises_throw he
  | some a => exact raises_pure a

theorem Raises.bind (hm : Raises m P) (hk : ∀ a, Raises (k a) P) : Raises (m >>= k) P := by
  intro h e he
  cases hrun : m.run h with
  | mk r h₁ =>
      cases r with
      | ok a =>
          rw [bind_of_ok hrun] at he
          exact hk a h₁ e he
      | error e' =>
          rw [bind_of_error hrun] at he
          obtain rfl := Except.error.inj he
          exact hm h e' (by rw [hrun])

theorem Raises.map (hm : Raises m P) (f : α → β) : Raises (f <$> m) P := by
  rw [map_eq_pure_bind]
  exact hm.bind fun a => raises_pure (f a)

theorem Raises.mapM {f : α → Run U β} (hf : ∀ a, Raises (f a) P) (as : List α) :
    Raises (as.mapM f) P := by
  induction as with
  | nil => exact raises_pure []
  | cons a as ih =>
      rw [List.mapM_cons]
      exact (hf a).bind fun b => ih.bind fun bs => raises_pure (b :: bs)

theorem raises_get : Raises (get : Run U (Heap U)) P := nofun

theorem raises_modify (f : Heap U → Heap U) : Raises (modify f : Run U PUnit) P := nofun

theorem raises_alloc (v : Value U) : Raises (alloc v) P := nofun

end Run

open Run

/-! ### Members that exist -/

section Raises

variable {P : ScriptError U → Prop}

namespace Registry

variable (r : Registry U)

theorem raises_hold (policy : Policy) (v : Value U) : Raises (hold policy v) P := by
  refine (raises_alloc v).bind fun l => ?_
  cases policy <;> exact raises_pure _

theorem raises_wrapNew (policy : Policy) (v : Value U) : Raises (r.wrapNew policy v) P := by
  rw [wrapNew]
  split
  · exact (raises_hold policy v).bind fun holder => raises_pure _
  · exact raises_throw (.inl rfl)

theorem raises_wrap (holder : Holder U) (k : Kind U) : Raises (r.wrap holder k) P := by
  rw [wrap]
  split
  · exact raises_pure _
  · exact raises_throw (.inl rfl)

end Registry

namespace Object

variable (o : Object U)

theorem raises_read : Raises o.read P := raises_get.bind fun _ => raises_orThrow (.inl rfl)

theorem raises_edit : Raises o.edit P := raises_get.bind fun _ => raises_orThrow (.inl rfl)

theorem raises_contentOf (v : Value U) : Raises (o.contentOf v) P := raises_orThrow (.inl rfl)

theorem raises_content : Raises o.content P := o.raises_read.bind fun v => o.raises_contentOf v

theorem raises_copyValue : Raises o.copyValue P := o.raises_content.bind fun _ => raises_pure _

theorem raises_replace (v : Value U) : Raises (o.replace v) P := raises_modify _

theorem raises_reborrow : Raises o.reborrow P := by
  rw [reborrow]
  split
  · exact raises_pure _
  · refine raises_get.bind fun h => ?_
    split
    · exact (raises_modify _).bind fun _ => raises_pure _
    · exact raises_throw (.inl rfl)
  · exact raises_pure _

theorem raises_passOn {next : Run U (Object U)} (hnext : Raises next P) :
    Raises (o.passOn next) P := by
  intro h e he
  cases hrun : next.run h with
  | mk result h₁ =>
      cases result with
      | ok r =>
          rw [passOn_of_ok hrun] at he
          cases he
      | error e' =>
          rw [passOn_of_error hrun] at he
          obtain rfl := Except.error.inj he
          exact hnext h e' (by rw [hrun])

theorem raises_touch {ret : Kind U} (lens : Lens o.kind.Carrier ret.Carrier) :
    Raises (o.touch lens) P :=
  o.raises_edit.bind fun v => (o.raises_contentOf v).bind fun _ =>
    (o.raises_replace _).bind fun _ => raises_pure _

theorem raises_narrow (ret : Kind U) (lens : Lens o.kind.Carrier ret.Carrier) :
    Raises (o.narrow ret lens) P := by
  have hdiscard : Raises (discard (o.touch lens)) P := (o.raises_touch lens).map _
  exact hdiscard.bind fun _ => o.types.raises_wrap _ ret

theorem raises_readGetter (name : String) (getter : Getter o.kind) :
    Raises (o.readGetter name getter) P := by
  cases getter with
  | computed ret policy read =>
      rw [readGetter]
      split
      · exact raises_refuse (.inl rfl)
      · exact o.raises_content.bind fun _ => o.types.raises_wrapNew _ _
  | field ret policy lens =>
      rw [readGetter]
      split
      · exact o.raises_narrow ret lens
      · exact (o.raises_touch lens).bind fun _ => o.types.raises_wrapNew _ _

/-- The fallback may decline the name. -/
theorem raises_readFallback (name : String) (f : FallbackGetter o.kind) :
    Raises (o.readFallback name f) (· = .missing o.typeName name .declined) := by
  rw [readFallback]
  split
  · exact raises_refuse (.inl rfl)
  · refine o.raises_read.bind fun v => ?_
    split
    · exact o.types.raises_wrapNew _ _
    · exact raises_throw (.inr rfl)

theorem get_single (n : String) : o.get [n] = o.reborrow >>= (·.readAttribute n) := by
  rw [← List.nil_append [n], get_concat]
  exact bind_congr fun lent => pure_bind lent _

section Attribute

variable {n : String}
  (hn : o.members.hasAttribute n = true ∨ o.members.fallbackGetter.isSome = true)
include hn

/-- An attribute that has a getter, or is left to the fallback, is not missing. -/
theorem raises_readAttribute :
    Raises (o.readAttribute n) (· = .missing o.typeName n .declined) := by
  refine o.raises_passOn ?_
  cases hgetter : o.members.getters.get? n with
  | some getter => exact o.raises_readGetter n getter
  | none =>
      rw [Members.hasAttribute, Slots.contains, hgetter] at hn
      obtain ⟨f, hf⟩ := Option.isSome_iff_exists.1 (hn.resolve_left Bool.false_ne_true)
      rw [hf]
      exact o.raises_readFallback n f

theorem raises_get_single : Raises (o.get [n]) (· = .missing o.typeName n .declined) := by
  have hreborrow : Raises o.reborrow (· = .missing o.typeName n .declined) := o.raises_reborrow
  intro h e he
  rw [get_single] at he
  cases hrun : o.reborrow.run h with
  | mk result h₁ =>
      cases result with
      | error e' =>
          rw [bind_of_error hrun] at he
          obtain rfl := Except.error.inj he
          exact hreborrow h e' (by rw [hrun])
      | ok lent =>
          rw [bind_of_ok hrun] at he
          -- The reference has the type of the object, and with it the same members.
          obtain ⟨p, guarded, rfl⟩ := o.grants_reborrow.ok h lent (by rw [hrun])
          exact raises_readAttribute (o.withHolder (.view p guarded)) hn h₁ e he

end Attribute

/-- The fallback may decline the name. -/
theorem raises_write (n : String) (v : Value U) (t : Target o.kind) :
    Raises (o.write n v t) (· = .missing o.typeName n .declined) := by
  cases t with
  | setter s =>
      refine o.raises_edit.bind fun x => ?_
      split
      · exact o.raises_replace _
      · exact raises_throw (.inl rfl)
  | fallback f =>
      refine o.raises_edit.bind fun x => ?_
      split
      · refine (o.raises_replace _).bind fun _ => ?_
        split
        · exact raises_pure _
        · exact raises_throw (.inr rfl)
      · exact raises_throw (.inr rfl)

/-- A value that is not of the kind of the attribute is a mismatch. -/
theorem raises_give (k : Kind U) (converted : Bool) (types : Registry U) :
    Raises (o.give k converted types) (· = .mismatch (types.label k) (.named o.typeName)) := by
  rw [give]
  split
  · exact o.raises_copyValue
  · split
    · rw [implicitInto]
      split
      · exact o.raises_content.bind fun _ => raises_pure _
      · exact raises_throw (.inr rfl)
    · exact raises_throw (.inr rfl)

theorem raises_invoke (f : Overload o.kind) (values : List (Value U)) :
    Raises (o.invoke f values) P := by
  have hgiven : Raises (U := U) (Run.orThrow (Args.ofValues? f.params values)
      (.foreignValue o.typeName)) P := raises_orThrow (.inl rfl)
  rw [invoke]
  split
  · exact hgiven.bind fun _ => raises_pure _
  · exact o.raises_edit.bind fun v => hgiven.bind fun _ => (o.raises_contentOf v).bind fun _ =>
      raises_pure _
  · exact o.raises_edit.bind fun v => hgiven.bind fun _ => (o.raises_contentOf v).bind fun _ =>
      (o.raises_replace _).bind fun _ => raises_pure _

/-- The overloads of a method may be such that none takes the arguments. -/
theorem raises_call {n : String} (hn : o.members.methods.contains n = true)
    (args : List (Object U)) :
    Raises (o.call n args) fun e => ∃ given arities,
      e = .missing o.typeName n (.noOverload given arities) := by
  obtain ⟨bucket, hbucket⟩ := Option.isSome_iff_exists.1 hn
  cases hf : selectOverload Overload.params bucket (args.map (·.kind)) with
  | none =>
      rw [call_of_not_select hbucket hf]
      exact raises_throw (.inr ⟨_, _, rfl⟩)
  | some f =>
      rw [call_of_select hbucket hf]
      split
      · exact raises_refuse (.inl rfl)
      · exact (Raises.mapM raises_copyValue args).bind fun values =>
          (o.raises_invoke f values).bind fun x => o.types.raises_wrapNew _ _

theorem raises_callRef {n : String} (hn : o.members.returnsReference n = true) :
    Raises (o.callRef n) P := by
  obtain ⟨f, hf⟩ := Option.isSome_iff_exists.1 hn
  rw [callRef, hf]
  exact (raises_pure f).bind fun f => o.raises_reborrow.bind fun lent =>
    lent.raises_passOn ((o.withHolder lent.holder).raises_narrow f.ret f.lens)

/-- A converter makes a value of its kind. -/
theorem raises_convertedCast {k : Kind U} (hk : o.members.convertsTo k = true) :
    Raises (o.convertedCast k) (· = o.mismatch k) := by
  obtain ⟨c, hc⟩ := Option.isSome_iff_exists.1 hk
  have hcast : Raises (o.cast k) (· = o.mismatch k) := by
    rw [cast]
    split
    · exact o.raises_read.bind fun v => raises_orThrow (.inr rfl)
    · exact raises_refuse (.inr rfl)
  have hconvert : Raises (o.convertValue k) (· = o.mismatch k) := by
    rw [convertValue, hc]
    exact (raises_pure c).bind fun c => o.raises_content.bind fun _ => raises_pure _
  rw [convertedCast]
  split
  · exact hcast
  · exact hconvert.bind fun v => raises_orThrow (.inr rfl)

theorem raises_elements (hit : o.members.iteration.isSome = true) : Raises o.elements P := by
  obtain ⟨it, hit⟩ := Option.isSome_iff_exists.1 hit
  rw [elements, hit]
  refine (raises_pure it).bind fun it => ?_
  split
  · exact raises_refuse (.inl rfl)
  · exact (raises_orThrow (.inl rfl)).bind fun i => o.raises_content.bind fun _ => raises_pure _

theorem raises_items (hit : o.members.iteration.isSome = true) : Raises o.items P :=
  (o.raises_elements hit).bind fun e => Raises.mapM
    (fun v => (Registry.raises_hold e.policy v).bind fun _ => raises_pure _) e.values

end Object

end Raises

end ChainScript.Script
