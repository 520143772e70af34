import ChainScript.Proofs.Object.Heeding
import ChainScript.Proofs.Object.World

/-!
# Living objects

A host program has objects until it drops them or takes their values out.  Between visits it does
one thing after another to them, whichever handles share a value and whatever refers into it.
The writers of cells are then exactly the guards of the objects that are alive.  So a cell has
one guard at most; whatever needs the value of a shared cell is refused if a guard of the cell is
alive, and by nothing else; and once the guard is gone the handles see what it has left.

## Main definitions

* `Move`, `Move.run` — what a host program does between visits.
* `Deed.needs`, `Move.needs` — the objects whose values it needs, once its checks are passed.
* `World.next`, `World.Alive` — the worlds that a host program comes to.

## Main results

* `Move.heeds` — one move.
* `World.Alive.kempt` — any number of them.
* `World.Alive.borrow_discipline` — when a value is in use, and when it is free again.
-/

namespace ChainScript.Script

variable {U : Universe}

open Run

/-! ### Moves -/

namespace Deed

/-- The deed is a part of a visit or of an iteration. -/
def inside : Deed U → Bool
  | item .. | enter .. | replace .. | leave .. => true
  | _ => false

/-- The objects that are gone after the deed. -/
def ends : Deed U → List (Object U)
  | intoInner o _ | drop o => [o]
  | _ => []

/-- The objects whose values a deed outside of visits needs, in the order in which they are
asked for; none if the deed is refused because of a name, a type or an overload. -/
def needs : Deed U → List (Object U)
  | construct r k args => (r.indexOf? k).elim [] (r.constructNeeds · args)
  | constructNamed r name args => (r.indexOfName? name).elim [] (r.constructNeeds · args)
  | reach o (.path names) => if names.isEmpty then [] else [o]
  | reach o (.dotted path) => if path.isEmpty then [] else [o]
  | reach o (.reference name) => if o.members.returnsReference name then [o] else []
  | derive o (.convertTo k) =>
      if o.types.contains k && (o.is k || o.members.convertsTo k) then [o] else []
  | derive o .copy => [o]
  | call o name args => o.callNeeds name args
  | set o name value converted => o.setNeeds name value converted
  | items o => o.itemsNeeds
  | cast o k | intoInner o k => if o.is k then [o] else []
  | convertedCast o k => if o.is k || o.members.convertsTo k then [o] else []
  | _ => []

end Deed

/-- What a host program does between visits. -/
inductive Move (U : Universe)
  | deed (d : Deed U)
  /-- A whole visit, during which nothing else happens. -/
  | visit (o : Object U) (k : Kind U) (access : Access) (change : k.Carrier → k.Carrier)

namespace Move

/-- The objects that a move uses. -/
def objects : Move U → List (Object U)
  | deed d => d.objects
  | visit o .. => [o]

/-- The registry that a move uses, apart from those of its objects. -/
def registry? : Move U → Option (Registry U)
  | deed d => d.registry?
  | visit .. => none

/-- The move is only a part of a visit. -/
def inside : Move U → Bool
  | deed d => d.inside
  | visit .. => false

/-- The objects that are gone after the move. -/
def ends : Move U → List (Object U)
  | deed d => d.ends
  | visit .. => []

/-- The objects whose values a move needs, in the order in which they are asked for; none if it
is refused because of a name, a type or an overload. -/
def needs : Move U → List (Object U)
  | deed d => d.needs
  | visit o k .. => if o.is k then [o] else []

/-- Makes a move; the result is the objects that the program comes by. -/
def run : Move U → Run U (List (Object U))
  | deed d => d.run
  | visit o k access change => do
      o.visitAndLeave k access change
      return []

end Move

/-- One of the objects guards the cell that this one shares. -/
def Object.barredBy (os : List (Object U)) (o : Object U) : Bool :=
  match o.holder with
  | .shared l => os.any (·.holder.guards l)
  | _ => false

/-- Nothing bars an object where no cell that it shares is guarded. -/
theorem Object.barredBy_eq_false {os : List (Object U)} {o : Object U}
    (hfree : ∀ l, o.holder = .shared l → guardCount os l = 0) : o.barredBy os = false := by
  unfold barredBy
  cases hholder : o.holder with
  | owned l | view p guarded => rfl
  | shared l =>
      rw [List.any_eq_false]
      intro v hv
      simp [guardCount_eq_zero.1 (hfree l hholder) v hv]

namespace World

/-- The world after a move, where `rest` are the objects that it does not end. -/
def next (w : World U) (m : Move U) (rest : List (Object U)) : World U where
  heap := (m.run.run w.heap).2
  objects := rest ++ (m.run.run w.heap).1.toOption.getD []

/-- The move can be made: it is not inside of a visit, it uses objects that are alive and a
registry that changes make, and `rest` are the objects that it does not end. -/
structure Allows (w : World U) (m : Move U) (rest : List (Object U)) : Prop where
  outside : m.inside = false
  objects : ∀ o ∈ m.objects, o ∈ w.objects
  registry : ∀ r ∈ m.registry?, r.Built
  rest : w.objects.Perm (m.ends ++ rest)

/-- The worlds that a host program comes to by one move after another. -/
inductive Alive : World U → Prop
  | start : Alive {}
  | next {w : World U} (m : Move U) (rest : List (Object U)) : w.Alive → w.Allows m rest →
      Alive (w.next m rest)

/-- The objects are sound, nobody reads, and the writers are those of the guards. -/
structure Kempt (w : World U) : Prop where
  sound : w.Sound
  unread : w.heap.Unread
  writers : ∀ l, (w.heap.hasWriter l).toNat = guardCount w.objects l

end World

/-! ### One move -/

/-- None of the objects guards a cell. -/
def Unguarding (os : List (Object U)) : Prop := ∀ v ∈ os, ∀ l, v.holder.guards l = false

/-- Only what is reached by reference guards a cell. -/
def Deed.Yields : Deed U → List (Object U) → Prop
  | reach o _, os => ∀ v ∈ os, o.Lends v
  | _, os => Unguarding os

section Results

variable {h : Heap U} {os given : List (Object U)}

theorem run_nothing {α : Type} (m : Run U α) (h : Heap U) :
    (do discard m; return [] : Run U (List (Object U))).run h =
      ((m.run h).1.map fun _ => [], (m.run h).2) := by
  have hdiscard : (discard m : Run U PUnit) = m >>= fun _ => pure ⟨⟩ := map_eq_pure_bind _ m
  simp only [hdiscard, bind_assoc, pure_bind]
  cases hm : m.run h with
  | mk result h₁ =>
      cases result with
      | ok a =>
          rw [bind_of_ok hm]
          rfl
      | error e =>
          rw [bind_of_error hm]
          rfl

theorem unguarding_nil : Unguarding ([] : List (Object U)) := List.forall_mem_nil _

theorem Unguarding.guardCount_eq (hos : Unguarding os) (l : Loc) : guardCount os l = 0 :=
  guardCount_eq_zero.2 fun v hv => hos v hv l

theorem unguarding_of_not_view (hos : ∀ v ∈ os, v.holder.isView = false) : Unguarding os :=
  fun v hv l => Holder.guards_of_not_isView (hos v hv) l

/-- The program comes by objects none of which guards a cell. -/
theorem heeds_unguarding {α : Type} {m : Run U α} {f : α → List (Object U)}
    {Q : Heap U → α → Prop} (hm : Heeds h os given m (fun _ => []) Q)
    (hf : ∀ h' a, Q h' a → Unguarding (f a)) :
    Heeds h os given (f <$> m) id fun _ os => Unguarding os :=
  hm.map fun a h' ha => ⟨fun l => ((hf h' a ha).guardCount_eq l).symm, hf h' a ha⟩

/-- The program comes by a new object. -/
theorem heeds_new {m : Run U (Object U)}
    (hm : Heeds h os given m (fun _ => []) fun h' r => r.holder.Fresh h') :
    Heeds h os given (List.singleton <$> m) id fun _ os => Unguarding os :=
  heeds_unguarding hm fun _ _ F =>
    unguarding_of_not_view (List.forall_mem_singleton.2 F.not_view)

/-- The program comes by a reference to a cell. -/
theorem heeds_reference (r : Registry U) (cell : Loc) (k : Kind U) :
    Heeds h [] [] (List.singleton <$> r.reference cell k) id fun _ os => Unguarding os :=
  heeds_unguarding (r.settles_wrap (.view ⟨cell, []⟩ false) k).heeds fun _ o ho =>
    List.forall_mem_singleton.2 fun l => by
      rw [ho]
      rfl

/-- The program comes by no object. -/
theorem heeds_nothing {α : Type} {m : Run U α} {Q : Heap U → α → Prop}
    (hm : Heeds h os given m (fun _ => []) Q) :
    Heeds h os given (do discard m; return []) id fun _ os => Unguarding os := by
  have hdiscard : Heeds h os given (discard m) (fun _ => []) fun _ _ => True :=
    hm.map fun _ _ _ => ⟨fun _ => rfl, trivial⟩
  exact hdiscard.bind fun _ h' _ _ => settles_pure (.refl [] h') unguarding_nil

/-- What is done with the value of a cell needs no object. -/
theorem heeds_withCell {cell : Loc} {act : Value U → Run U (List (Object U))}
    (hact : ∀ v, Heeds h [] [] (act v) id fun _ os => Unguarding os) :
    Heeds h [] [] (Deed.withCell cell act) id fun _ os => Unguarding os := by
  refine (settles_get ?_).heeds
  split
  · exact (hact _).settles rfl
  · exact settles_pure (.refl [] h) unguarding_nil

end Results

namespace Object

variable {o : Object U} {h : Heap U}

theorem Sound.heeds_reach (S : o.Sound h) (R : h.Unread) (how : Reaching) :
    Heeds h (Deed.reach o how).needs [] (Deed.reach o how).run id fun _ os =>
      ∀ v ∈ os, o.Lends v := by
  have hresult : ∀ {os m}, Heeds h os [] m (fun r => [r]) (fun _ r => o.Lends r) →
      Heeds h os [] (List.singleton <$> m) id fun _ os => ∀ v ∈ os, o.Lends v := fun hm =>
    hm.map fun _ _ lends => ⟨fun _ => rfl, List.forall_mem_singleton.2 lends⟩
  cases how with
  | path names => exact hresult (S.heeds_get R names)
  | dotted path => exact hresult (S.heeds_getPath R path)
  | reference name => exact hresult (S.heeds_callRef R name)

theorem isView_of_shareHandle {r : Object U} (hr : o.shareHandle = some r) :
    r.holder.isView = false := by
  unfold shareHandle at hr
  split at hr
  · next hholder =>
    obtain rfl := Option.some.inj hr
    rw [hholder]
    rfl
  · cases hr

theorem Sound.heeds_derive (S : o.Sound h) (R : h.Unread) (how : Deriving U) :
    Heeds h (Deed.derive o how).needs [] (Deed.derive o how).run id fun _ os =>
      Unguarding os := by
  have hfresh : ∀ {os m}, Heeds h os [] m (fun _ => []) (fun h' r => Holder.Fresh h' r.holder) →
      Heeds h os [] (Option.toList <$> (some <$> m)) id fun _ os => Unguarding os := fun hm => by
    rw [← comp_map]
    exact heeds_new hm
  cases how with
  | convertTo k => exact hfresh (S.heeds_convertTo R k)
  | copy => exact hfresh (S.heeds_copy R)
  | shareHandle =>
      have hos : Unguarding o.shareHandle.toList := unguarding_of_not_view fun r hr =>
        isView_of_shareHandle (Option.mem_toList.1 hr)
      refine (settles_pure ?_ hos).heeds
      exact (Heap.SameMarks.refl h).balanced fun l => (hos.guardCount_eq l).symm

theorem Sound.heeds_setting (S : o.Sound h) (R : h.Unread) (name : String) {value : Object U}
    (V : value.Sound h) (converted : Bool) :
    Heeds h (o.setNeeds name value converted) [] (Deed.set o name value converted).run id
      fun _ os => Unguarding os := by
  cases converted with
  | false =>
      exact (S.heeds_set R name V).bind fun _ h' _ _ => settles_pure (.refl [] h') unguarding_nil
  | true =>
      exact (S.heeds_setConverted R name V).bind fun _ h' _ _ =>
        settles_pure (.refl [] h') unguarding_nil

end Object

/-- **A deed heeds the guards of the objects that it needs.** -/
theorem Deed.heeds {d : Deed U} {h : Heap U} (R : h.Unread) (houtside : d.inside = false)
    (hobjects : ∀ o ∈ d.objects, o.Sound h) (K : Kept d.ends h) :
    Heeds h d.needs d.ends d.run id fun _ os => d.Yields os := by
  cases d with
  | declare v => exact heeds_nothing (settles_alloc v).heeds
  | assign cell v =>
      refine heeds_withCell fun old => Settles.heeds ?_
      split
      · exact (settles_modify (h.sameMarks_setValue cell v)).bind fun _ h' _ _ =>
          settles_pure (.refl [] h') unguarding_nil
      · exact settles_pure (.refl [] h) unguarding_nil
  | object r v => exact heeds_new (r.settles_wrapNew .copy v).heeds
  | share r v => exact heeds_new (r.settles_wrapNew .share v).heeds
  | reference r cell => exact heeds_withCell fun v => heeds_reference r cell v.kind
  | bind r cell policy =>
      refine heeds_withCell fun v => ?_
      cases policy with
      | copy => exact heeds_new (r.settles_wrapNew .copy v).heeds
      | wrapReference => exact heeds_reference r cell v.kind
      | share => exact heeds_new (r.settles_wrapNew .share v).heeds
  | construct r k args => exact heeds_new (Registry.heeds_construct R k hobjects)
  | constructNamed r name args => exact heeds_new (Registry.heeds_constructNamed R name hobjects)
  | reach o how => exact (hobjects o (.head _)).heeds_reach R how
  | derive o how => exact (hobjects o (.head _)).heeds_derive R how
  | call o name args =>
      obtain ⟨S, A⟩ := List.forall_mem_cons.1 hobjects
      exact heeds_new (S.heeds_call R name A)
  | set o name value converted =>
      exact (hobjects o (.head _)).heeds_setting R name (hobjects value (.tail _ (.head _)))
        converted
  | items o =>
      refine ((hobjects o (.head _)).heeds_items R).mono fun rs _ hrs => ?_
      have hos : Unguarding rs := unguarding_of_not_view hrs
      exact ⟨fun l => (hos.guardCount_eq l).symm, hos⟩
  | item o n => cases houtside
  | enter o k access => cases houtside
  | replace o x => cases houtside
  | leave o access => cases houtside
  | cast o k => exact heeds_nothing ((hobjects o (.head _)).heeds_cast R k)
  | convertedCast o k => exact heeds_nothing ((hobjects o (.head _)).heeds_convertedCast R k)
  | intoInner o k => exact heeds_nothing ((hobjects o (.head _)).heeds_intoInner R K k)
  | drop o =>
      exact ((Object.settles_release K).bind fun _ h' _ _ =>
        settles_pure (.refl [] h') unguarding_nil).heeds

namespace Move

variable {m : Move U} {h : Heap U}

/-- Only what is reached by reference guards a cell. -/
def Yields : Move U → List (Object U) → Prop
  | deed d, os => d.Yields os
  | visit .., os => Unguarding os

/-- The objects that a move yields guard a cell if they refer into it and are reached from a
handle that shares it. -/
theorem Yields.guards_iff {os : List (Object U)} (Y : m.Yields os) {v : Object U} (hv : v ∈ os)
    (l : Loc) : v.holder.guards l = true ↔
      v.holder.isView = true ∧ ∃ o how, m = .deed (.reach o how) ∧ o.holder = .shared l := by
  have hnone : Unguarding os → (∀ o how, m ≠ .deed (.reach o how)) →
      (v.holder.guards l = true ↔
        v.holder.isView = true ∧ ∃ o how, m = .deed (.reach o how) ∧ o.holder = .shared l) :=
    fun hos hm => by simp [hos v hv l, hm]
  cases m with
  | visit => exact hnone Y nofun
  | deed d =>
      cases d with
      | reach o how => simp [Y v hv l]
      | _ => exact hnone Y nofun

theorem heeds (R : h.Unread) (houtside : m.inside = false)
    (hobjects : ∀ o ∈ m.objects, o.Sound h) (K : Kept m.ends h) :
    Heeds h m.needs m.ends m.run id fun _ os => m.Yields os := by
  cases m with
  | deed d => exact d.heeds R houtside hobjects K
  | visit o k access change =>
      exact ((hobjects o (.head _)).heeds_visitAndLeave R k access change).bind fun _ h' _ _ =>
        settles_pure (.refl [] h') unguarding_nil

theorem typed_run (hobjects : ∀ o ∈ m.objects, o.Sound h) (hregistry : ∀ r ∈ m.registry?, r.Built) :
    Typed h m.run AllSound := by
  cases m with
  | deed d => exact Deed.typed_run hobjects hregistry
  | visit o k access change =>
      exact ((hobjects o (.head _)).typed_visitAndLeave k access change).bind fun _ _ _ _ =>
        typed_nil

/-- A move needs no object but the one that it ends. -/
theorem eq_of_mem_ends {v o : Object U} (hv : v ∈ m.ends) (ho : o ∈ m.needs) : v = o := by
  cases m with
  | visit => cases hv
  | deed d =>
      cases d with
      | intoInner o' k =>
          obtain rfl := List.mem_singleton.1 hv
          have ho : o ∈ if v.is k then [v] else [] := ho
          split at ho
          · exact (List.mem_singleton.1 ho).symm
          · cases ho
      | drop o' => cases ho
      | _ => cases hv

/-- A handle that is barred has no guard to end. -/
theorem guardCount_ends {o : Object U} (ho : m.needs.find? (·.holder.barred h) = some o) (l : Loc) :
    guardCount m.ends l = 0 := by
  have hbarred : o.holder.barred h = true := by simpa using List.find?_some ho
  refine guardCount_eq_zero.2 fun v hv => ?_
  obtain rfl := eq_of_mem_ends hv (List.mem_of_find?_eq_some ho)
  cases hholder : v.holder with
  | owned l | shared l => rfl
  | view p guarded =>
      rw [hholder] at hbarred
      cases hbarred

end Move

namespace World

variable {w : World U} {m : Move U} {rest : List (Object U)}

theorem Kempt.barred_eq (W : w.Kempt) (o : Object U) :
    o.holder.barred w.heap = o.barredBy w.objects := by
  unfold Holder.barred Object.barredBy
  cases o.holder with
  | owned l | view p guarded => rfl
  | shared l =>
      have hcount : 0 < guardCount w.objects l ↔ ∃ o ∈ w.objects, o.holder.guards l = true :=
        List.countP_pos_iff
      change w.heap.hasWriter l = _
      rw [Bool.eq_iff_iff, List.any_eq_true, ← hcount, ← W.writers]
      cases w.heap.hasWriter l <;> decide

/-- The objects that a move uses are sound. -/
theorem Kempt.sound_objects (W : w.Kempt) (hm : w.Allows m rest) :
    ∀ o ∈ m.objects, o.Sound w.heap :=
  fun o ho => W.sound o (hm.objects o ho)

theorem Allows.guardCount_eq (hm : w.Allows m rest) (l : Loc) :
    guardCount w.objects l = guardCount m.ends l + guardCount rest l := by
  rw [← guardCount_append]
  exact hm.rest.countP_eq _

/-- **A move heeds the guards that are alive.** -/
theorem Kempt.heeds (W : w.Kempt) (hm : w.Allows m rest) :
    Heeds w.heap m.needs m.ends m.run id fun _ os => m.Yields os := by
  refine Move.heeds W.unread hm.outside (W.sound_objects hm) fun l => ?_
  rw [W.writers, hm.guardCount_eq]
  exact Nat.le_add_right _ _

theorem Kempt.balanced (W : w.Kempt) (hm : w.Allows m rest) :
    Balanced m.ends ((m.run.run w.heap).1.toOption.getD []) w.heap (m.run.run w.heap).2 := by
  obtain ⟨hbarred, hsettles⟩ := W.heeds hm
  cases hfind : m.needs.find? (·.holder.barred w.heap) with
  | some o =>
      rw [hbarred o hfind]
      exact (Heap.SameMarks.refl w.heap).balanced (Move.guardCount_ends hfind)
  | none =>
      cases hresult : (m.run.run w.heap).1 with
      | ok os => exact ((hsettles hfind).ok os hresult).1
      | error e => exact ((hsettles hfind).error e hresult).2

/-- **A move keeps the world kempt.** -/
theorem Kempt.next (W : w.Kempt) (hm : w.Allows m rest) : (w.next m rest).Kempt := by
  have B := W.balanced hm
  have htyped := m.typed_run (W.sound_objects hm) hm.registry
  refine ⟨fun o ho => ?_, W.unread.of_balanced B, fun l => ?_⟩
  · rcases List.mem_append.1 ho with hold | hnew
    · have hmem : o ∈ w.objects := hm.rest.mem_iff.2 (List.mem_append_right _ hold)
      exact (W.sound o hmem).mono htyped.keeps
    · cases hresult : (m.run.run w.heap).1 with
      | ok os =>
          rw [hresult] at hnew
          exact htyped.ok os hresult o hnew
      | error e =>
          rw [hresult] at hnew
          cases hnew
  · have hwriters := B.writers l
    rw [W.writers, hm.guardCount_eq] at hwriters
    change ((m.run.run w.heap).2.hasWriter l).toNat = guardCount (rest ++ _) l
    rw [guardCount_append]
    -- The guards that end cancel on both sides.
    omega

/-- However many moves are made, the world is kempt. -/
theorem Alive.kempt (hw : w.Alive) : w.Kempt := by
  induction hw with
  | start => exact ⟨List.forall_mem_nil _, fun _ => rfl, fun _ => rfl⟩
  | next m rest _ hm ih => exact ih.next hm

/-- An object that is gone has ended, and has changed nothing else. -/
theorem heap_of_ends (w : World U) (rest : List (Object U)) {v : Object U} (hv : v ∈ m.ends) :
    (w.next m rest).heap = v.ended w.heap ∧ (w.next m rest).objects = rest := by
  cases m with
  | visit => cases hv
  | deed d =>
      cases d with
      | intoInner o k =>
          obtain rfl := List.mem_singleton.1 hv
          rw [next, show (Move.deed (.intoInner v k)).run.run w.heap = _ from run_nothing _ _]
          constructor
          · exact v.snd_intoInner k w.heap
          · cases ((v.intoInner k).run w.heap).1 <;> exact List.append_nil rest
      | drop o =>
          obtain rfl := List.mem_singleton.1 hv
          exact ⟨rfl, List.append_nil _⟩
      | _ => cases hv

theorem Kempt.find?_barred (W : w.Kempt) (os : List (Object U)) :
    os.find? (·.holder.barred w.heap) = os.find? (·.barredBy w.objects) := by
  simp only [W.barred_eq]

/-- A move fails because a value is in use if and only if one of the objects that it needs is
barred by one that is alive; the error names the first. -/
theorem Kempt.borrowed_iff (W : w.Kempt) (hm : w.Allows m rest) (type : String) :
    (m.run.run w.heap).1 = .error (.borrowed type) ↔
      ∃ o, m.needs.find? (·.barredBy w.objects) = some o ∧ o.typeName = type := by
  obtain ⟨hbarred, hsettles⟩ := W.heeds hm
  rw [← W.find?_barred]
  cases hfind : m.needs.find? (·.holder.barred w.heap) with
  | some o =>
      rw [hbarred o hfind]
      constructor
      · intro heq
        cases heq
        exact ⟨o, rfl, rfl⟩
      · rintro ⟨o', ho', rfl⟩
        obtain rfl := Option.some.inj ho'
        rfl
  | none =>
      constructor
      · exact fun heq => Bool.noConfusion ((hsettles hfind).error _ heq).1
      · rintro ⟨o, ho, -⟩
        cases ho

theorem Kempt.yields (W : w.Kempt) (hm : w.Allows m rest) {os : List (Object U)}
    (hos : (m.run.run w.heap).1 = .ok os) : m.Yields os := by
  obtain ⟨hbarred, hsettles⟩ := W.heeds hm
  cases hfind : m.needs.find? (·.holder.barred w.heap) with
  | some o =>
      rw [hbarred o hfind] at hos
      cases hos
  | none => exact ((hsettles hfind).ok os hos).2

theorem Kempt.guardCount_le_one (W : w.Kempt) (l : Loc) : guardCount w.objects l ≤ 1 :=
  W.writers l ▸ Bool.toNat_le _

/-- The guard that ends was the only one of its cell. -/
theorem Kempt.guardCount_next_of_ends (W : w.Kempt) (hm : w.Allows m rest) {v : Object U} {l : Loc}
    (hv : v ∈ m.ends) (hguards : v.holder.guards l = true) :
    guardCount (w.next m rest).objects l = 0 := by
  have hone := W.guardCount_le_one l
  have hends : 0 < guardCount m.ends l := List.countP_pos_iff.2 ⟨v, hv, hguards⟩
  rw [hm.guardCount_eq] at hone
  rw [(heap_of_ends w rest hv).2]
  omega

/-- A cell without a guard is read and edited by the handles that share it. -/
theorem Kempt.exists_value_of_unguarded (W : w.Kempt) {o : Object U} {l : Loc}
    (ho : o ∈ w.objects) (hshared : o.holder = .shared l) (hnone : guardCount w.objects l = 0) :
    ∃ whole, w.heap.value? l = some whole ∧ o.holder.read? w.heap = some whole ∧
      o.holder.edit? w.heap = some whole := by
  have hwriter : w.heap.hasWriter l = false := by simpa [hnone] using W.writers l
  obtain ⟨whole, hvalue⟩ := (W.sound o ho).exists_value? hshared
  refine ⟨whole, hvalue, ?_, ?_⟩
  · rw [hshared, Holder.read?, Heap.canRead_eq hvalue, hwriter]
    exact hvalue
  · rw [hshared, Holder.edit?, Heap.canWrite_eq hvalue, hwriter, W.unread]
    exact hvalue

/-- **When a value is in use, and when it is free again.**  In every world that a host program
comes to by one move after another, on whichever handles, a cell has one guard at most.  A move
fails because a value is in use if and only if one of the objects whose values it needs, once its
checks are passed, shares a cell that an object alive guards; the first of them is named by the
error, and the heap is as it was.  So a move that needs one handle several times, as its receiver
and as its arguments, is never in its own way.  The guards are the views that are reached from
handles.  When a guard ends with its view, every handle reads and edits the value of the cell, of
which the part is as the view has left it. -/
theorem Alive.borrow_discipline (hw : w.Alive) :
    (∀ l, guardCount w.objects l ≤ 1) ∧
    (∀ m rest, w.Allows m rest →
      (∀ type, (m.run.run w.heap).1 = .error (.borrowed type) ↔
        ∃ o, m.needs.find? (·.barredBy w.objects) = some o ∧ o.typeName = type) ∧
      (∀ type, (m.run.run w.heap).1 = .error (.borrowed type) → (m.run.run w.heap).2 = w.heap) ∧
      ((∀ o ∈ m.needs, ∀ l, o.holder = .shared l → guardCount w.objects l = 0) →
        ∀ type, (m.run.run w.heap).1 ≠ .error (.borrowed type)) ∧
      ∀ os, (m.run.run w.heap).1 = .ok os → ∀ v ∈ os, ∀ l, v.holder.guards l = true ↔
        v.mode = .borrowed ∧ ∃ o how, m = .deed (.reach o how) ∧ o.holder = .shared l) ∧
    ∀ m rest v l, w.Allows m rest → v ∈ m.ends → v.holder.guards l = true →
      (∀ o ∈ (w.next m rest).objects, o.holder.guards l = false) ∧
      ∀ o ∈ (w.next m rest).objects, o.holder = .shared l → ∃ whole,
        w.heap.value? l = some whole ∧
        viewPath? v.holder.place.path whole = w.heap.read? v.holder.place ∧
        o.holder.read? (w.next m rest).heap = some whole ∧
        o.holder.edit? (w.next m rest).heap = some whole := by
  have W := hw.kempt
  refine ⟨W.guardCount_le_one, fun m rest hm => ?_, fun m rest v l hm hv hguards => ?_⟩
  · have hiff := W.borrowed_iff hm
    refine ⟨hiff, fun type heq => ?_, fun hfree type heq => ?_, fun os hos v hv l => ?_⟩
    · obtain ⟨o, ho, rfl⟩ := (hiff type).1 heq
      rw [(W.heeds hm).barred o ((W.find?_barred m.needs).trans ho)]
    · obtain ⟨o, ho, -⟩ := (hiff type).1 heq
      have hbarred : o.barredBy w.objects = true := List.find?_some ho
      rw [Object.barredBy_eq_false (hfree o (List.mem_of_find?_eq_some ho))] at hbarred
      cases hbarred
    · rw [Object.mode_eq_borrowed]
      exact (W.yields hm hos).guards_iff hv l
  · have hnone := W.guardCount_next_of_ends hm hv hguards
    obtain ⟨hheap, -⟩ := heap_of_ends w rest hv
    obtain ⟨p, hholder, rfl⟩ := Holder.guards_iff.1 hguards
    refine ⟨fun o ho => guardCount_eq_zero.1 hnone o ho, fun o ho hshared => ?_⟩
    obtain ⟨whole, hvalue, hread, hedit⟩ := (W.next hm).exists_value_of_unguarded ho hshared hnone
    have hsame : w.heap.value? p.root = some whole := by
      rw [← hvalue, hheap, Object.value?_ended]
    refine ⟨whole, hsame, ?_, hread, hedit⟩
    rw [hholder, Holder.place, Heap.read?, hsame]
    rfl

/-! ### A shared rectangle -/

/-- The members of a rectangle, of which the corner is reached by reference. -/
def rectMembers : Members (U := Gallery.world) (.host .rect) :=
  (Builder.addField (U := Gallery.world) (k := .host .rect) ⟨{}, .wrapReference⟩ "origin"
    (.host .point) Gallery.Rect.originPart).members

/-- Rectangles and points. -/
def figures : Registry Gallery.world where
  id := 1
  entries := #[⟨.host .rect, "rect", 1, rectMembers⟩, ⟨.host .point, "point", 1, {}⟩]

theorem built_figures : figures.Built := by
  refine ⟨((Change.register (U := Gallery.world) (.host .point) "point" id).run
    ((Change.register (U := Gallery.world) (.host .rect) "rect" fun b =>
      (b.withPolicy .wrapReference).addField "origin" (.host .point)
        Gallery.Rect.originPart).run (.empty 1)).1).1,
    .change _ (.change _ (.empty 1) nofun) nofun, ?_⟩
  rfl

/-- A handle to the rectangle in the first cell. -/
def shape : Object Gallery.world := ⟨figures, ⟨0, by decide⟩, .shared 0⟩

/-- The corner of the rectangle. -/
def corner : Object Gallery.world :=
  ⟨figures, ⟨1, by decide⟩, .view ⟨0, [⟨.host .rect, .host .point, Gallery.Rect.originPart⟩]⟩ true⟩

/-- Two handles share a rectangle, and its corner has been reached from one of them. -/
def cornered : World Gallery.world :=
  ⟨⟨#[⟨⟨.host .rect, ⟨⟨1, 2⟩, 3, 4⟩⟩, 0, true⟩]⟩, [shape, shape, corner]⟩

theorem alive_cornered : cornered.Alive := by
  let rect : Value Gallery.world := ⟨.host .rect, ⟨⟨1, 2⟩, 3, 4⟩⟩
  let h : Heap Gallery.world := ⟨#[⟨rect, 0, false⟩]⟩
  have hshare : World.next {} (.deed (.share figures rect)) [] = ⟨h, [shape]⟩ := by
    have hrun : (Deed.share figures rect).run.run {} = (.ok [shape], h) := by with_unfolding_all rfl
    rw [World.next, Move.run, hrun]
    rfl
  have hreach : World.next ⟨h, [shape, shape]⟩ (.deed (.reach shape (.path ["origin"])))
      [shape, shape] = cornered := by
    have hrun : (Deed.reach shape (.path ["origin"])).run.run h =
        (.ok [corner], cornered.heap) := by with_unfolding_all rfl
    rw [World.next, Move.run, hrun]
    rfl
  have hfirst : World.Allows {} (.deed (.share figures rect)) [] :=
    ⟨rfl, List.forall_mem_nil _, fun r hr => Option.some.inj hr ▸ built_figures, .nil⟩
  have hsecond : World.Allows ⟨h, [shape]⟩ (.deed (.derive shape .shareHandle)) [shape] :=
    ⟨rfl, by simp [Move.objects, Deed.objects], by simp [Move.registry?, Deed.registry?], .refl _⟩
  have hthird : World.Allows ⟨h, [shape, shape]⟩ (.deed (.reach shape (.path ["origin"])))
      [shape, shape] :=
    ⟨rfl, by simp [Move.objects, Deed.objects], by simp [Move.registry?, Deed.registry?], .refl _⟩
  have hshared : World.Alive ⟨h, [shape]⟩ := hshare ▸ .next _ [] .start hfirst
  have hdoubled : World.Alive ⟨h, [shape, shape]⟩ := .next _ _ hshared hsecond
  exact hreach ▸ .next _ _ hdoubled hthird

/-- The corner is moved. -/
def shift : Move Gallery.world := .visit corner (.host .point) .writing fun p => { p with x := 5 }

/-- The world after the corner has been moved. -/
def shifted : World Gallery.world :=
  ⟨⟨#[⟨⟨.host .rect, ⟨⟨5, 2⟩, 3, 4⟩⟩, 0, true⟩]⟩, [shape, shape, corner]⟩

theorem next_shift : cornered.next shift cornered.objects = shifted := by
  have hrun : shift.run.run cornered.heap = (.ok [], shifted.heap) := by rfl
  rw [next, hrun]
  rfl

/-- While the corner of a shared rectangle is alive, no handle can be copied; the corner can be
moved, and after it has been dropped both handles see that. -/
theorem borrow_discipline_corner :
    cornered.Alive ∧
      ((Deed.derive shape .copy).run.run cornered.heap).1 = .error (.borrowed "rect") ∧
      cornered.next shift cornered.objects = shifted ∧
      ∀ o ∈ (shifted.next (.deed (.drop corner)) [shape, shape]).objects,
        o.holder.read? (shifted.next (.deed (.drop corner)) [shape, shape]).heap =
          some ⟨.host .rect, ⟨⟨5, 2⟩, 3, 4⟩⟩ := by
  refine ⟨alive_cornered, ?_, next_shift, fun o ho => ?_⟩
  · have hcopy : cornered.Allows (.deed (.derive shape .copy)) cornered.objects :=
      ⟨rfl, by simp [Move.objects, Deed.objects, cornered], nofun, .refl _⟩
    obtain ⟨-, hmoves, -⟩ := alive_cornered.borrow_discipline
    exact ((hmoves _ _ hcopy).1 "rect").2 ⟨shape, rfl, rfl⟩
  · have hshift : cornered.Allows shift cornered.objects :=
      ⟨rfl, by simp [Move.objects, shift, cornered], nofun, .refl _⟩
    have hshifted : shifted.Alive := next_shift ▸ .next _ _ alive_cornered hshift
    have hperm : List.Perm ([shape, shape] ++ [corner]) ([corner] ++ [shape, shape]) :=
      List.perm_append_comm
    have hdrop : shifted.Allows (.deed (.drop corner)) [shape, shape] :=
      ⟨rfl, by simp [Move.objects, Deed.objects, shifted], nofun, hperm⟩
    obtain ⟨-, -, hends⟩ := hshifted.borrow_discipline
    obtain ⟨-, hread⟩ := hends _ _ corner 0 hdrop (.head _) rfl
    have hshape : o = shape := by
      have hobjects : (shifted.next (.deed (.drop corner)) [shape, shape]).objects =
          [shape, shape] := rfl
      rw [hobjects] at ho
      simpa using ho
    obtain ⟨whole, hvalue, -, hwhole, -⟩ := hread o ho (hshape ▸ rfl)
    rw [hwhole, ← hvalue]
    rfl

end World

end ChainScript.Script
