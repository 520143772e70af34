import ChainScript.Proofs.Object.Confined
import ChainScript.Script.Session.Run

/-!
# Operations through one object

Operations that work on the current object, and inside them on what they reach from it, change
nothing but the zone that the object is confined to: by induction over the tree of operations,
each of which hands its zone on to those that run inside it.

## Main definitions

* `Op.Onward`, `Op.AllOnward` — operations that name no slot to work on.

## Main results

* `Op.keeps_run`, `Op.keeps_runAll` — onward operations stay in the zone of their object.
-/

namespace ChainScript.Script

open Zone

variable {U : Universe} {z : Zone U}

/-! ### Onward operations -/

namespace Op

mutual

/-- The operation works on the current object, and so do those inside it on what they are
handed.  Its arguments may come from anywhere. -/
def Onward : Op U → Prop
  | reach none _ next | call none _ _ _ next | derive none _ _ next | items none _ next
  | iterate none next | visit none _ _ _ next => AllOnward next
  | set none _ _ _ | ask none _ => True
  | _ => False

/-- The operations are onward. -/
def AllOnward : List (Op U) → Prop
  | [] => True
  | op :: rest => op.Onward ∧ AllOnward rest

end

end Op

/-! ### Computations on sessions -/

theorem keeps_attempt {α : Type} {run : Run U α} {Q : α → Prop} (hrun : z.Confines run Q) :
    z.Keeps Session.heap (attempt run) fun r => ∀ a, r = .ok a → Q a :=
  fun s hs => hrun s.heap hs

theorem Try.keeps_lift {α : Type} {run : Run U α} {Q : α → Prop} (hrun : z.Confines run Q) :
    z.KeepsOk Session.heap (Try.lift run) Q := by
  refine (KeepsOk.of_keeps (keeps_attempt hrun)).bind fun r hr => ?_
  cases r with
  | ok a => exact .pure (hr a rfl)
  | error e => exact .throw _

theorem Try.keeps_registry (e : Surroundings U) (n : Option Nat) :
    z.KeepsOk Session.heap (Try.registry e n) fun _ => True := by
  rw [Try.registry]
  split
  · exact .pure trivial
  · exact .throw _

theorem Try.keeps_slot (n : Nat) : z.KeepsOk Session.heap (Try.slot n : Try U _) fun _ => True := by
  refine KeepsOk.get.bind fun s _ => ?_
  split
  · exact .pure trivial
  · exact .throw _

theorem Try.keeps_reply {act : Try U (Yield U)} (h : z.KeepsOk Session.heap act fun _ => True) :
    z.Keeps Session.heap (Try.reply act) fun _ => True := by
  refine Keeps.bind (m := act.run) h fun r _ => ?_
  cases r with
  | ok y => exact .pure trivial
  | error f => exact .pure trivial

theorem Arg.keeps_object (e : Surroundings U) (types : Registry U) (arg : Arg U) :
    z.KeepsOk Session.heap (arg.object e types) fun _ => True := by
  cases arg with
  | slot n => exact Try.keeps_slot n
  | value v registry =>
      cases registry with
      | none => exact (Try.keeps_lift (types.keeps_wrapNew .copy v)).mono fun _ _ => trivial
      | some n =>
          exact (Try.keeps_registry e (some n)).bind fun r _ =>
            (Try.keeps_lift (r.keeps_wrapNew .copy v)).mono fun _ _ => trivial

theorem Arg.keeps_objects (e : Surroundings U) (types : Registry U) (args : List (Arg U)) :
    z.KeepsOk Session.heap (args.mapM (·.object e types)) fun _ => True :=
  (KeepsOk.mapM (R := fun _ => True) fun arg _ => arg.keeps_object e types).mono
    fun _ _ => trivial

theorem keeps_perform {act : Try U (Yield U)} (h : z.KeepsOk Session.heap act fun _ => True) :
    z.Keeps Session.heap (perform none act) fun _ => True :=
  (Try.keeps_reply h).bind fun _ _ =>
    Keeps.bind (Q := fun _ => True) (.pure trivial) fun _ _ => .pure trivial

/-! ### Single operations -/

section Single

variable {o : Object U}

theorem Reaching.keeps_run (hc : z.Covers o.holder) (how : Reaching) :
    z.Confines (how.run o) fun r => z.Admits r.holder := by
  cases how with
  | path names => exact o.keeps_get hc names
  | dotted names => exact o.keeps_getPath hc names
  | reference name => exact o.keeps_callRef hc name

theorem Deriving.keeps_run (hc : z.Covers o.holder) (how : Deriving U) :
    z.Confines (how.run o) fun r? => ∀ r, r? = some r → z.Admits r.holder := by
  cases how with
  | convertTo k =>
      exact (o.keeps_convertTo k).map fun r hr r' hr' => Option.some.inj hr' ▸ hr.1
  | copy => exact o.keeps_copy.map fun r hr r' hr' => Option.some.inj hr' ▸ hr.1
  | shareHandle => exact .pure fun r hr => o.admits_shareHandle hc hr

theorem Object.keeps_now (o : Object U) : z.Keeps Session.heap o.now fun _ => True :=
  (keeps_attempt o.keeps_copyValue).mono fun _ _ => trivial

theorem Object.keeps_show (o : Object U) : z.Keeps Session.heap o.show fun _ => True :=
  o.keeps_now.bind fun _ _ => .pure trivial

theorem Question.keeps_answer (o : Object U) (question : Question U) :
    z.KeepsOk Session.heap (question.answer o) fun _ => True := by
  cases question with
  | value => exact (KeepsOk.of_keeps o.keeps_show).bind fun _ _ => .pure trivial
  | info =>
      exact (KeepsOk.of_keeps o.keeps_show).bind fun _ _ => KeepsOk.get.bind fun _ _ =>
        .pure trivial
  | text | diagnostics => exact KeepsOk.get.bind fun _ _ => .pure trivial
  | is k => exact .pure trivial
  | cast k => exact (Try.keeps_lift (o.keeps_cast k)).bind fun _ _ => .pure trivial
  | convertedCast k =>
      exact (Try.keeps_lift (o.keeps_convertedCast k)).bind fun _ _ => .pure trivial

theorem keeps_goOn (ha : z.Admits o.holder) {next : Act U (List (Reply U))}
    (hnext : z.Keeps Session.heap next fun _ => True) :
    z.KeepsOk Session.heap (goOn o next) fun _ => True :=
  (KeepsOk.of_keeps o.keeps_show).bind fun _ _ => (KeepsOk.of_keeps hnext).bind fun _ _ =>
    (KeepsOk.modify fun s _ => o.allows_ended ha s.heap).bind fun _ _ => .pure trivial

theorem keeps_thenNow {act : Try U (Yield U)} (h : z.KeepsOk Session.heap act fun _ => True) :
    z.KeepsOk Session.heap (thenNow o act) fun _ => True :=
  (KeepsOk.of_keeps (Try.keeps_reply h)).bind fun _ _ => (KeepsOk.of_keeps o.keeps_now).bind
    fun _ _ => .pure trivial

theorem keeps_onObject {current : Option (Object U)}
    (hcurrent : ∀ o, current = some o → z.Covers o.holder)
    {act : Object U → Try U (Yield U)} (into : Option Nat)
    (hact : ∀ o, z.Covers o.holder → z.KeepsOk Session.heap (act o) fun _ => True) :
    z.Keeps Session.heap (onObject current none into act) fun _ => True := by
  cases current with
  | none => exact keeps_perform (.throw _)
  | some o => exact keeps_perform (hact o (hcurrent o rfl))

theorem keeps_yieldItems (o : Object U) {next : Object U → Act U (List (Reply U))}
    (hnext : ∀ r : Object U, z.Admits r.holder → z.Keeps Session.heap (next r) fun _ => True) :
    z.KeepsOk Session.heap (yieldItems o next) fun _ => True := by
  refine (Try.keeps_lift o.keeps_items).bind fun rs hrs => ?_
  refine (KeepsOk.mapM (R := fun _ => True) fun (r : Object U) _ =>
    .of_keeps r.keeps_show).bind fun _ _ => ?_
  cases rs with
  | nil => exact .pure trivial
  | cons r rs =>
      exact (KeepsOk.of_keeps (hnext r (hrs r List.mem_cons_self).1)).bind fun _ _ =>
        .pure trivial

theorem keeps_iterate (hc : z.Covers o.holder) {next : Object U → Act U (List (Reply U))}
    (hnext : ∀ r : Object U, z.Admits r.holder → z.Keeps Session.heap (next r) fun _ => True) :
    z.KeepsOk Session.heap (iterate o next) fun _ => True := by
  refine (Try.keeps_lift o.keeps_elements).bind fun e _ => ?_
  refine (KeepsOk.modify fun s _ => o.allows_enter hc .reading s.heap).bind fun _ _ => ?_
  refine (KeepsOk.mapM (R := fun _ => True) fun v _ => .of_keeps ?_).bind fun _ _ => ?_
  · exact keeps_perform ((Try.keeps_lift (Object.keeps_elements_object e v)).bind
      fun r hr => keeps_goOn hr.1 (hnext r hr.1))
  · exact (KeepsOk.modify fun s _ => o.allows_leave hc .reading s.heap).bind fun _ _ =>
      .pure trivial

theorem keeps_visit (hc : z.Covers o.holder) (k : Kind U) (access : Access)
    (assign : Option (Value U)) {next : Act U (List (Reply U))}
    (hnext : z.Keeps Session.heap next fun _ => True) :
    z.KeepsOk Session.heap (visit o k access assign next) fun _ => True := by
  refine (Try.keeps_lift (o.keeps_visit hc k access)).bind fun _ _ => ?_
  refine (KeepsOk.of_keeps hnext).bind fun _ _ => ?_
  have hleave : z.KeepsOk Session.heap
      (modify (·.onHeap (o.leave access)) : Try U PUnit) fun _ => True :=
    .modify fun s _ => o.allows_leave hc access s.heap
  cases assign with
  | none => exact hleave.bind fun _ _ => .pure trivial
  | some v =>
      exact (Try.keeps_lift (o.keeps_replace hc v)).bind fun _ _ =>
        hleave.bind fun _ _ => .pure trivial

end Single

/-! ### Trees of operations -/

namespace Op

mutual

/-- An onward operation stays in the zone of the current object. -/
theorem keeps_run (e : Surroundings U) {current : Option (Object U)}
    (hcurrent : ∀ o, current = some o → z.Covers o.holder) :
    (op : Op U) → op.Onward → z.Keeps Session.heap (op.run e current) fun _ => True
  | reach none how next, h => by
      rw [run]
      refine keeps_onObject hcurrent none fun o hc => keeps_thenNow ?_
      exact (Try.keeps_lift (how.keeps_run hc)).bind fun r hr =>
        keeps_goOn hr (keeps_runAll e (fun r' hr' => Option.some.inj hr' ▸ hr.1) next h)
  | call none name args into next, h => by
      rw [run]
      refine keeps_onObject hcurrent into fun o hc => keeps_thenNow ?_
      exact (Arg.keeps_objects e o.types args).bind fun args _ =>
        (Try.keeps_lift (o.keeps_call hc name args)).bind fun r hr =>
          keeps_goOn hr.1 (keeps_runAll e (fun r' hr' => Option.some.inj hr' ▸ hr.1.1) next h)
  | set none name value converted, h => by
      rw [run]
      refine keeps_onObject hcurrent none fun o hc => keeps_thenNow ?_
      refine (value.keeps_object e o.types).bind fun v _ => ?_
      cases converted with
      | false => exact (Try.keeps_lift (o.keeps_set hc name v)).bind fun _ _ => .pure trivial
      | true =>
          exact (Try.keeps_lift (o.keeps_setConverted hc name v)).bind fun _ _ => .pure trivial
  | derive none how into next, h => by
      rw [run]
      refine keeps_onObject hcurrent into fun o hc => ?_
      refine (Try.keeps_lift (how.keeps_run hc)).bind fun r? hr? => ?_
      cases r? with
      | none => exact .pure trivial
      | some r =>
          have hr := hr? r rfl
          exact keeps_goOn hr
            (keeps_runAll e (fun r' hr' => Option.some.inj hr' ▸ hr.1) next h)
  | ask none question, h => by
      rw [run]
      exact keeps_onObject hcurrent none fun o hc =>
        (question.keeps_answer o).bind fun _ _ => .pure trivial
  | items none into next, h => by
      rw [run]
      exact keeps_onObject hcurrent into fun o hc => keeps_yieldItems o fun r hr =>
        keeps_runAll e (fun r' hr' => Option.some.inj hr' ▸ hr.1) next h
  | iterate none next, h => by
      rw [run]
      exact keeps_onObject hcurrent none fun o hc => keeps_iterate hc fun r hr =>
        keeps_runAll e (fun r' hr' => Option.some.inj hr' ▸ hr.1) next h
  | visit none k access assign next, h => by
      rw [run]
      exact keeps_onObject hcurrent none fun o hc => keeps_visit hc k access assign
        (keeps_runAll e (fun (r : Object U) (hr : none = some r) => nomatch hr) next h)

/-- Onward operations stay in the zone of the current object. -/
theorem keeps_runAll (e : Surroundings U) {current : Option (Object U)}
    (hcurrent : ∀ o, current = some o → z.Covers o.holder) :
    (ops : List (Op U)) → AllOnward ops →
      z.Keeps Session.heap (runAll e current ops) fun _ => True
  | [], _ => .pure trivial
  | op :: rest, h => by
      rw [runAll]
      exact (keeps_run e hcurrent op h.1).bind fun _ _ =>
        (keeps_runAll e hcurrent rest h.2).bind fun _ _ => .pure trivial

end

end Op

end ChainScript.Script
