import ChainScript.Proofs.Object.Twin
import ChainScript.Script.Session.Run

/-!
# Sessions with registries that differ in their numbers

Operations see the registries of a session only where they name one.  So two sessions answer
operations alike whose registries are twins wherever they are named: by induction over the tree of
operations, each step of which is paired.

## Main definitions

* `Op.Within`, `Op.AllWithin` — operations that name registries of some sort only.
* `Surroundings.Twin` — surroundings whose registries of that sort are twins.
* `Session.Twin` — sessions on one heap with twins in their slots.

## Main results

* `Op.paired_run`, `Op.paired_runAll` — operations on sessions that are twins.
* `Surroundings.Twin.replies` — the replies are the same.
-/

namespace ChainScript.Script

variable {U : Universe}

/-! ### Registries that operations name -/

/-- The argument names a registry of the sort only; `none` stands for the usual one. -/
def Arg.Within (P : Option Nat → Prop) : Arg U → Prop
  | .value _ (some n) => P (some n)
  | _ => True

/-- So do the arguments. -/
def Making.Within (P : Option Nat → Prop) : Making U → Prop
  | .construct _ args | .constructNamed _ args => ∀ arg ∈ args, arg.Within P
  | _ => True

namespace Op

mutual

/-- The operation names registries of the sort only, and so do those inside it. -/
def Within (P : Option Nat → Prop) : Op U → Prop
  | make how registry _ next => P registry ∧ how.Within P ∧ AllWithin P next
  | bind _ _ registry next => P registry ∧ AllWithin P next
  | call _ _ args _ next => (∀ arg ∈ args, arg.Within P) ∧ AllWithin P next
  | set _ _ value _ => value.Within P
  | reach _ _ next | derive _ _ _ next | items _ _ next | iterate _ next
  | visit _ _ _ _ next => AllWithin P next
  | ask .. | intoInner .. | drop _ => True

/-- The operations name registries of the sort only. -/
def AllWithin (P : Option Nat → Prop) : List (Op U) → Prop
  | [] => True
  | op :: rest => op.Within P ∧ AllWithin P rest

end

end Op

section All

variable {P : Option Nat → Prop}

theorem Arg.within_of_forall (hall : ∀ n, P n) (arg : Arg U) : arg.Within P := by
  unfold Within
  split
  · exact hall _
  · trivial

theorem Making.within_of_forall (hall : ∀ n, P n) (how : Making U) : how.Within P := by
  unfold Within
  split
  · exact fun arg _ => arg.within_of_forall hall
  · exact fun arg _ => arg.within_of_forall hall
  · trivial

namespace Op

mutual

/-- Every operation names registries of a sort that all are of. -/
theorem within_of_forall (hall : ∀ n, P n) : (op : Op U) → op.Within P
  | make how _ _ next => ⟨hall _, how.within_of_forall hall, allWithin_of_forall hall next⟩
  | bind _ _ _ next => ⟨hall _, allWithin_of_forall hall next⟩
  | call _ _ _ _ next => ⟨fun arg _ => arg.within_of_forall hall, allWithin_of_forall hall next⟩
  | set _ _ value _ => value.within_of_forall hall
  | reach _ _ next => by rw [Within]; exact allWithin_of_forall hall next
  | derive _ _ _ next => by rw [Within]; exact allWithin_of_forall hall next
  | items _ _ next => by rw [Within]; exact allWithin_of_forall hall next
  | iterate _ next => by rw [Within]; exact allWithin_of_forall hall next
  | visit _ _ _ _ next => by rw [Within]; exact allWithin_of_forall hall next
  | ask .. => trivial
  | intoInner .. => trivial
  | drop _ => trivial

theorem allWithin_of_forall (hall : ∀ n, P n) : (ops : List (Op U)) → AllWithin P ops
  | [] => trivial
  | op :: rest => ⟨within_of_forall hall op, allWithin_of_forall hall rest⟩

end

end Op

end All

/-- Registries of the sort are twins. -/
def Surroundings.Twin (P : Option Nat → Prop) (e e' : Surroundings U) : Prop :=
  ∀ n, P n → Option.Rel Registry.Twin e.registries[n.getD e.home]? e'.registries[n.getD e'.home]?

/-! ### Sessions -/

/-- The sessions have one heap and twins in their slots. -/
structure Session.Twin (s s' : Session U) : Prop where
  heap : s'.heap = s.heap
  slots : List.Forall₂ (fun a b => b.1 = a.1 ∧ a.2.Twin b.2) s.slots s'.slots

namespace Session.Twin

variable {s s' : Session U} (T : s.Twin s')

include T

theorem onHeap (f : Heap U → Heap U) : (s.onHeap f).Twin (s'.onHeap f) :=
  ⟨congrArg f T.heap, T.slots⟩

theorem take (n : Nat) : (s.take n).Twin (s'.take n) := by
  refine ⟨T.heap, ?_⟩
  have hslots := T.slots
  rw [Session.take, Session.take]
  generalize s.slots = a at hslots ⊢
  generalize s'.slots = b at hslots ⊢
  induction hslots with
  | nil => exact .nil
  | cons hab _ ih =>
      rw [List.filter_cons, List.filter_cons, hab.1]
      split
      · exact .cons hab ih
      · exact ih

theorem store (n : Nat) {o o' : Object U} (hobject : o.Twin o') :
    (s.store n o).Twin (s'.store n o') :=
  ⟨T.heap, .cons ⟨rfl, hobject⟩ (T.take n).slots⟩

omit T in
theorem storeAll (T : s.Twin s') (n : Nat) {os os' : List (Object U)}
    (hobjects : List.Forall₂ Object.Twin os os') : (s.storeAll n os).Twin (s'.storeAll n os') := by
  induction hobjects generalizing n s s' with
  | nil => exact T
  | cons hobject _ ih => exact ih (T.store n hobject) (n + 1)

theorem lookup (n : Nat) :
    Option.Rel Object.Twin (s.slots.lookup n) (s'.slots.lookup n) := by
  have hslots := T.slots
  generalize s.slots = a at hslots ⊢
  generalize s'.slots = b at hslots ⊢
  induction hslots with
  | nil => exact .none
  | @cons x y xs ys hab _ ih =>
      rw [List.lookup_cons, List.lookup_cons, hab.1]
      split
      · exact .some hab.2
      · exact ih

end Session.Twin

/-- The same reply, and objects that are twins. -/
structure Yield.Twin (y y' : Yield U) : Prop where
  reply : y'.reply = y.reply
  objects : List.Forall₂ Object.Twin y.objects y'.objects

/-! ### Computations on sessions -/

theorem paired_attempt {α β : Type} {R : α → β → Prop} {run : Run U α} {run' : Run U β}
    (hrun : Agree R run run') :
    Paired Session.Twin (Matched R) (attempt run) (attempt run') := by
  intro s s' T
  obtain ⟨hresult, hheap⟩ := hrun s.heap s'.heap T.heap.symm
  exact ⟨hresult, hheap.symm, T.slots⟩

/-- A computation on the heap is the same in both sessions. -/
theorem paired_attempt_self {α : Type} (run : Run U α) :
    Paired Session.Twin Eq (attempt run) (attempt run) := by
  refine (paired_attempt (Agree.refl run)).mono fun r r' hr => ?_
  cases hr with
  | ok h => rw [h]
  | error e => rfl

theorem paired_onHeap {f f' : Heap U → Heap U} (h : f' = f) :
    PairedOk (ε := Fault U) Session.Twin (fun _ _ => True) (modify (·.onHeap f))
      (modify (·.onHeap f')) :=
  .modify fun _ _ T => h ▸ T.onHeap f

namespace Try

theorem paired_lift {α β : Type} {R : α → β → Prop} {run : Run U α} {run' : Run U β}
    (hrun : Agree R run run') : PairedOk Session.Twin R (Try.lift run) (Try.lift run') := by
  refine (PairedOk.of_paired (paired_attempt hrun)).bind fun r r' hr => ?_
  cases hr with
  | ok h => exact .pure h
  | error e => exact .throw _

/-- A computation on the heap is the same in both sessions. -/
theorem paired_lift_self {α : Type} (run : Run U α) :
    PairedOk Session.Twin Eq (Try.lift run) (Try.lift run) :=
  paired_lift (Agree.refl run)

theorem paired_registry {P : Option Nat → Prop} {e e' : Surroundings U} (E : e.Twin P e')
    {n : Option Nat} (hn : P n) :
    PairedOk Session.Twin Registry.Twin (Try.registry e n) (Try.registry e' n) := by
  have h := E n hn
  rw [registry, registry]
  generalize e.registries[n.getD e.home]? = r? at h ⊢
  generalize e'.registries[n.getD e'.home]? = r?' at h ⊢
  cases h with
  | none => exact .throw _
  | some T => exact .pure T

theorem paired_slot (n : Nat) :
    PairedOk Session.Twin Object.Twin (Try.slot n : Try U _) (Try.slot n) := by
  refine (PairedOk.of_paired .get).bind fun s s' T => ?_
  have h := T.lookup n
  generalize s.slots.lookup n = o? at h ⊢
  generalize s'.slots.lookup n = o?' at h ⊢
  cases h with
  | none => exact .throw _
  | some T => exact .pure T

theorem paired_reply {act act' : Try U (Yield U)}
    (h : PairedOk Session.Twin Yield.Twin act act') :
    Paired Session.Twin Yield.Twin (Try.reply act) (Try.reply act') := by
  refine Paired.bind h fun r r' hr => ?_
  cases hr with
  | ok hy => exact .pure hy
  | error f => exact .pure ⟨rfl, .nil⟩

end Try

/-! ### Steps of operations -/

section Steps

variable {P : Option Nat → Prop} {e e' : Surroundings U} (E : e.Twin P e') {r r' : Registry U}
  {o o' : Object U}

theorem Arg.paired_object (E : e.Twin P e') (T : r.Twin r') {arg : Arg U} (h : arg.Within P) :
    PairedOk Session.Twin Object.Twin (arg.object e r) (arg.object e' r') := by
  cases arg with
  | slot n => exact Try.paired_slot n
  | value v registry =>
      cases registry with
      | none => exact Try.paired_lift (T.agree_wrapNew .copy v)
      | some n =>
          exact (Try.paired_registry E h).bind fun _ _ T' =>
            Try.paired_lift (T'.agree_wrapNew .copy v)

theorem Arg.paired_objects (E : e.Twin P e') (T : r.Twin r') {args : List (Arg U)}
    (h : ∀ arg ∈ args, arg.Within P) :
    PairedOk Session.Twin (List.Forall₂ Object.Twin) (args.mapM (·.object e r))
      (args.mapM (·.object e' r')) := by
  refine PairedOk.mapM (R := fun arg arg' => arg' = arg ∧ arg.Within P) ?_ ?_
  · exact List.forall₂_same.2 fun arg harg => ⟨rfl, h arg harg⟩
  · intro arg arg' h
    rw [h.1]
    exact Arg.paired_object E T h.2

theorem Making.paired_run (E : e.Twin P e') (T : r.Twin r') {how : Making U}
    (h : how.Within P) : PairedOk Session.Twin Object.Twin (how.run e r) (how.run e' r') := by
  cases how with
  | object v => exact Try.paired_lift (T.agree_wrapNew .copy v)
  | share v => exact Try.paired_lift (T.agree_wrapNew .share v)
  | construct k args =>
      exact (Arg.paired_objects E T h).bind fun _ _ A => Try.paired_lift (T.agree_construct A k)
  | constructNamed name args =>
      exact (Arg.paired_objects E T h).bind fun _ _ A =>
        Try.paired_lift (T.agree_constructNamed A name)

theorem Reaching.agree_run (T : o.Twin o') (how : Reaching) :
    Agree Object.Twin (how.run o) (how.run o') := by
  cases how with
  | path names => exact T.agree_get names
  | dotted names => exact T.agree_getPath names
  | reference name => exact T.agree_callRef name

theorem Deriving.agree_run (T : o.Twin o') (how : Deriving U) :
    Agree (Option.Rel Object.Twin) (how.run o) (how.run o') := by
  cases how with
  | convertTo k => exact (T.agree_convertTo k).map fun _ _ h => .some h
  | copy => exact T.agree_copy.map fun _ _ h => .some h
  | shareHandle => exact .pure T.shareHandle

theorem Object.Twin.paired_now (T : o.Twin o') : Paired Session.Twin Eq o.now o'.now := by
  rw [now, now, T.copyValue]
  exact paired_attempt_self _

theorem Object.Twin.paired_show (T : o.Twin o') : Paired Session.Twin Eq o.show o'.show := by
  rw [Object.show, Object.show, T.typeName, T.mode]
  exact T.paired_now.bind fun _ _ heq => .pure (heq ▸ rfl)

theorem Question.paired_answer (T : o.Twin o') (question : Question U) :
    PairedOk Session.Twin Eq (question.answer o) (question.answer o') := by
  cases question with
  | value => exact (PairedOk.of_paired T.paired_show).bind fun _ _ heq => .pure (heq ▸ rfl)
  | info =>
      have hregistered := Registry.SamePlace.eq_some_iff (T.types.indexOfName? o.typeName) T.index
      refine (PairedOk.of_paired T.paired_show).bind fun _ _ heq => ?_
      refine (PairedOk.of_paired .get).bind fun s s' S => .pure ?_
      rw [S.heap, T.isConsistent, T.typeName, heq]
      exact congrArg (Reply.info _ _) (decide_eq_decide.2 hregistered).symm
  | text =>
      refine (PairedOk.of_paired .get).bind fun s s' S => ?_
      rw [S.heap, T.display]
      exact .pure rfl
  | diagnostics =>
      refine (PairedOk.of_paired .get).bind fun s s' S => ?_
      rw [S.heap, T.shown]
      exact .pure rfl
  | is k => exact .pure (congrArg Reply.truth (T.is k).symm)
  | cast k =>
      rw [answer, answer, T.cast]
      exact (Try.paired_lift_self _).bind fun _ _ heq => .pure (heq ▸ rfl)
  | convertedCast k =>
      rw [answer, answer, T.convertedCast]
      exact (Try.paired_lift_self _).bind fun _ _ heq => .pure (heq ▸ rfl)

theorem paired_goOn (T : o.Twin o') {next next' : Act U (List (Reply U))}
    (hnext : Paired Session.Twin Eq next next') :
    PairedOk Session.Twin Yield.Twin (goOn o next) (goOn o' next') := by
  refine (PairedOk.of_paired T.paired_show).bind fun _ _ heq => ?_
  refine (PairedOk.of_paired hnext).bind fun _ _ heq' => ?_
  refine (paired_onHeap (funext T.ended)).bind fun _ _ _ => .pure ⟨?_, .cons T .nil⟩
  rw [heq, heq']

theorem paired_thenNow (T : o.Twin o') {act act' : Try U (Yield U)}
    (h : PairedOk Session.Twin Yield.Twin act act') :
    PairedOk Session.Twin Yield.Twin (thenNow o act) (thenNow o' act') := by
  refine (PairedOk.of_paired (Try.paired_reply h)).bind fun y y' Y => ?_
  refine (PairedOk.of_paired T.paired_now).bind fun _ _ heq => .pure ⟨?_, Y.objects⟩
  rw [Y.reply, heq]

theorem paired_perform (into : Option Nat) {act act' : Try U (Yield U)}
    (h : PairedOk Session.Twin Yield.Twin act act') :
    Paired Session.Twin Eq (perform into act) (perform into act') := by
  refine (Try.paired_reply h).bind fun y y' Y => ?_
  cases into with
  | none => exact .pure Y.reply.symm
  | some n =>
      exact (Paired.modify fun _ _ S => S.storeAll n Y.objects).bind fun _ _ _ =>
        .pure Y.reply.symm

theorem paired_onObject {current current' : Option (Object U)}
    (C : Option.Rel Object.Twin current current') (slot into : Option Nat)
    {act act' : Object U → Try U (Yield U)}
    (hact : ∀ o o', o.Twin o' → PairedOk Session.Twin Yield.Twin (act o) (act' o')) :
    Paired Session.Twin Eq (onObject current slot into act)
      (onObject current' slot into act') := by
  cases slot with
  | some n =>
      refine paired_perform into ((Try.paired_slot n).bind fun o o' T => ?_)
      refine (PairedOk.modify fun _ _ S => S.take n).bind fun _ _ _ => ?_
      refine (PairedOk.of_paired (Try.paired_reply (hact o o' T))).bind fun y y' Y => ?_
      exact (PairedOk.modify fun _ _ S => S.store n T).bind fun _ _ _ => .pure Y
  | none =>
      cases C with
      | none => exact paired_perform none (.throw _)
      | some T => exact paired_perform none (hact _ _ T)

theorem paired_takeInner (n : Nat) (k : Kind U) :
    Paired Session.Twin Eq (takeInner n k) (takeInner n k) := by
  refine paired_perform none ((Try.paired_slot n).bind fun o o' T => ?_)
  refine (PairedOk.modify fun _ _ S => S.take n).bind fun _ _ _ => ?_
  rw [T.intoInner]
  exact (Try.paired_lift_self _).bind fun _ _ heq => .pure ⟨by rw [heq], .nil⟩

theorem paired_dropSlot (n : Nat) : Paired Session.Twin Eq (dropSlot n : Act U _) (dropSlot n) := by
  refine Paired.get.bind fun s s' S => ?_
  refine (Paired.modify fun _ _ S => S.take n).bind fun _ _ _ => .pure ?_
  have h := S.lookup n
  generalize s.slots.lookup n = o? at h ⊢
  generalize s'.slots.lookup n = o?' at h ⊢
  cases h <;> rfl

theorem paired_bindValue (T : r.Twin r') (v : Value U) (policy : Policy)
    {next next' : Object U → Act U (List (Reply U))}
    (hnext : ∀ o o', o.Twin o' → Paired Session.Twin Eq (next o) (next' o')) :
    PairedOk Session.Twin Yield.Twin (bindValue r v policy next)
      (bindValue r' v policy next') := by
  refine (Try.paired_lift_self _).bind fun cell _ heq => ?_
  subst heq
  refine (Try.paired_lift (T.agree_bind cell v policy)).bind fun o o' T => ?_
  refine (paired_goOn T (hnext o o' T)).bind fun y y' Y => ?_
  refine (PairedOk.of_paired .get).bind fun s s' S => .pure ⟨?_, Y.objects⟩
  rw [Y.reply, S.heap]

theorem paired_yieldItems (T : o.Twin o') {next next' : Object U → Act U (List (Reply U))}
    (hnext : ∀ o o', o.Twin o' → Paired Session.Twin Eq (next o) (next' o')) :
    PairedOk Session.Twin Yield.Twin (yieldItems o next) (yieldItems o' next') := by
  refine (Try.paired_lift T.agree_items).bind fun items items' A => ?_
  refine (PairedOk.mapM (Q := Eq) A fun a b hab => .of_paired hab.paired_show).bind
    fun l l' hl => ?_
  rw [List.forall₂_eq_eq_eq] at hl
  subst hl
  cases A with
  | nil => exact .pure ⟨rfl, .nil⟩
  | cons hab A =>
      exact (PairedOk.of_paired (hnext _ _ hab)).bind fun _ _ heq =>
        .pure ⟨heq ▸ rfl, .cons hab A⟩

theorem paired_iterate (T : o.Twin o') {next next' : Object U → Act U (List (Reply U))}
    (hnext : ∀ o o', o.Twin o' → Paired Session.Twin Eq (next o) (next' o')) :
    PairedOk Session.Twin Yield.Twin (iterate o next) (iterate o' next') := by
  refine (Try.paired_lift T.agree_elements).bind fun d d' D => ?_
  refine (paired_onHeap (funext (T.enter .reading))).bind fun _ _ _ => ?_
  rw [D.values]
  refine (PairedOk.mapM (R := Eq) (Q := Eq) (List.forall₂_same.2 fun _ _ => rfl)
    fun v _ heq => .of_paired ?_).bind fun l l' hl => ?_
  · subst heq
    exact paired_perform none ((Try.paired_lift (D.agree_object v)).bind fun a b hab =>
      paired_goOn hab (hnext a b hab))
  · rw [List.forall₂_eq_eq_eq] at hl
    exact (paired_onHeap (funext (T.leave .reading))).bind fun _ _ _ => .pure ⟨hl ▸ rfl, .nil⟩

theorem paired_visit (T : o.Twin o') (k : Kind U) (access : Access) (assign : Option (Value U))
    {next next' : Act U (List (Reply U))} (hnext : Paired Session.Twin Eq next next') :
    PairedOk Session.Twin Yield.Twin (visit o k access assign next)
      (visit o' k access assign next') := by
  rw [visit, visit, T.visit]
  refine (Try.paired_lift_self _).bind fun x _ heq => ?_
  subst heq
  refine (PairedOk.of_paired hnext).bind fun replies _ heq => ?_
  subst heq
  have hleave : ∀ y : Yield U, y.objects = [] → PairedOk Session.Twin Yield.Twin
      (modify (·.onHeap (o.leave access)) >>= fun _ => pure y : Try U (Yield U))
      (modify (·.onHeap (o'.leave access)) >>= fun _ => pure y) := fun y hy =>
    (paired_onHeap (funext (T.leave access))).bind fun _ _ _ => .pure ⟨rfl, by rw [hy]; exact .nil⟩
  cases assign with
  | none => exact hleave _ rfl
  | some v =>
      have hreplace : PairedOk Session.Twin Eq (Try.lift (o.replace v))
          (Try.lift (o'.replace v)) := by
        rw [T.replace]
        exact Try.paired_lift_self _
      exact hreplace.bind fun _ _ _ => hleave _ rfl

end Steps

/-! ### Trees of operations -/

namespace Op

variable {P : Option Nat → Prop} {e e' : Surroundings U}

mutual

/-- An operation that names registries of the sort does the same on twins. -/
theorem paired_run (E : e.Twin P e') {current current' : Option (Object U)}
    (C : Option.Rel Object.Twin current current') : (op : Op U) → op.Within P →
      Paired Session.Twin Eq (op.run e current) (op.run e' current')
  | make how registry into next, h => by
      rw [run, run]
      refine paired_perform into ((Try.paired_registry E h.1).bind fun r r' T => ?_)
      exact (Making.paired_run E T h.2.1).bind fun _ _ T =>
        paired_goOn T (paired_runAll E (.some T) next h.2.2)
  | bind v policy registry next, h => by
      rw [run, run]
      refine paired_perform none ((Try.paired_registry E h.1).bind fun r r' T => ?_)
      exact paired_bindValue T v policy fun _ _ T => paired_runAll E (.some T) next h.2
  | reach slot how next, h => by
      rw [run, run]
      refine paired_onObject C slot none fun o o' T => paired_thenNow T ?_
      exact (Try.paired_lift (how.agree_run T)).bind fun _ _ T =>
        paired_goOn T (paired_runAll E (.some T) next h)
  | call slot name args into next, h => by
      rw [run, run]
      refine paired_onObject C slot into fun o o' T => paired_thenNow T ?_
      refine (Arg.paired_objects E T.types h.1).bind fun _ _ A => ?_
      exact (Try.paired_lift (T.agree_call name A)).bind fun _ _ T =>
        paired_goOn T (paired_runAll E (.some T) next h.2)
  | set slot name value converted, h => by
      rw [run, run]
      refine paired_onObject C slot none fun o o' T => paired_thenNow T ?_
      refine (Arg.paired_object E T.types h).bind fun v v' V => ?_
      rw [T.set V, T.setConverted V]
      exact (Try.paired_lift_self _).bind fun _ _ _ => .pure ⟨rfl, .nil⟩
  | derive slot how into next, h => by
      rw [run, run]
      refine paired_onObject C slot into fun o o' T => ?_
      refine (Try.paired_lift (how.agree_run T)).bind fun r? r?' hr => ?_
      cases hr with
      | none => exact .pure ⟨rfl, .nil⟩
      | some T => exact paired_goOn T (paired_runAll E (.some T) next h)
  | ask slot question, h => by
      rw [run, run]
      exact paired_onObject C slot none fun o o' T =>
        (question.paired_answer T).bind fun _ _ heq => .pure ⟨heq.symm, .nil⟩
  | items slot into next, h => by
      rw [run, run]
      exact paired_onObject C slot into fun o o' T => paired_yieldItems T fun _ _ T =>
        paired_runAll E (.some T) next h
  | iterate slot next, h => by
      rw [run, run]
      exact paired_onObject C slot none fun o o' T => paired_iterate T fun _ _ T =>
        paired_runAll E (.some T) next h
  | visit slot k access assign next, h => by
      rw [run, run]
      exact paired_onObject C slot none fun o o' T => paired_visit T k access assign
        (paired_runAll E .none next h)
  | intoInner slot k, h => by
      rw [run, run]
      exact paired_takeInner slot k
  | drop slot, h => by
      rw [run, run]
      exact paired_dropSlot slot

/-- Operations that name registries of the sort do the same on twins. -/
theorem paired_runAll (E : e.Twin P e') {current current' : Option (Object U)}
    (C : Option.Rel Object.Twin current current') : (ops : List (Op U)) → AllWithin P ops →
      Paired Session.Twin Eq (runAll e current ops) (runAll e' current' ops)
  | [], _ => .pure rfl
  | op :: rest, h => by
      rw [runAll, runAll]
      exact (paired_run E C op h.1).bind fun _ _ heq =>
        (paired_runAll E C rest h.2).bind fun _ _ heq' => .pure (by rw [heq, heq'])

end

end Op

/-- Where the registries that operations name are twins, the replies are the same. -/
theorem Surroundings.Twin.replies {P : Option Nat → Prop} {e e' : Surroundings U}
    (E : e.Twin P e') {ops : List (Op U)} (hops : Op.AllWithin P ops) :
    e'.replies ops = e.replies ops :=
  (Op.paired_runAll E .none ops hops {} {} ⟨rfl, .nil⟩).1.symm

end ChainScript.Script
