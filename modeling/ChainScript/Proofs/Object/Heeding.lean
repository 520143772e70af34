import ChainScript.Proofs.Object.Lending

/-!
# Operations heed guards

Each operation on an object asks for the values that it needs only after its checks by name, by
type and by overload.  It asks for the values of its arguments first, one after another, and
lets go of each before the next; and it changes nothing before it has them all.  So it heeds the
guards of the objects that it needs, in the order in which it asks for them.

## Main definitions

* `Object.setNeeds`, `Object.callNeeds`, `Registry.constructNeeds`, `Object.itemsNeeds` — the
  objects whose values an operation needs.
* `Object.visitAndLeave` — a visit during which nothing else happens.

## Main results

* `Object.Sound.heeds_set`, `Object.Sound.heeds_call`, `Object.Sound.heeds_cast` and others — one
  for each operation.
* `Object.Sound.heeds_intoInner`, `Object.settles_release` — the ends of an object.
-/

namespace ChainScript.Script

variable {U : Universe}

open Run

namespace Object

variable {o : Object U} {h : Heap U}

/-! ### Writing -/

/-- What writes the attribute of the given name, if anything does. -/
def target? (o : Object U) (name : String) : Option (Target o.kind) :=
  match o.members.setters.get? name, o.members.fallbackSetter with
  | some s, _ => some (.setter s)
  | none, some f => some (.fallback f)
  | none, none => none

theorem target_eq (o : Object U) (name : String) :
    o.target name = orThrow (o.target? name) (.missing o.typeName name
      (if o.members.hasAttribute name then .readOnly else .noAttribute)) := by
  rw [target, target?]
  cases o.members.setters.get? name with
  | some s => rfl
  | none => cases o.members.fallbackSetter <;> rfl

theorem Sound.heeds_write (S : o.Sound h) (R : h.Unread) (name : String) (v : Value U)
    (target : Target o.kind) :
    Heeds h [o] [] (o.write name v target) (fun _ => []) fun _ _ => True := by
  cases target with
  | setter s =>
      refine (S.gets_edit R).heeds S.typed_edit fun x _ => Settles.heeds ?_
      split
      · exact settles_replace o _
      · exact settles_throw rfl
  | fallback f =>
      refine (S.gets_edit R).heeds S.typed_edit fun x _ => Settles.heeds ?_
      split
      · refine (settles_replace o _).bind fun _ h₁ _ _ => ?_
        split
        · exact settles_pure (.refl [] h₁) trivial
        · exact settles_throw rfl
      · exact settles_throw rfl

theorem Sound.gets_implicitInto (S : o.Sound h) (R : h.Unread) {k : Kind U} (types : Registry U)
    (hconverts : o.members.convertsImplicitlyTo k = true) :
    Gets h [o] (o.implicitInto k types) := by
  rw [Members.convertsImplicitlyTo] at hconverts
  rw [implicitInto]
  cases hc : o.members.converter? k with
  | none =>
      rw [hc] at hconverts
      cases hconverts
  | some c =>
      rw [hc] at hconverts
      have himplicit : c.implicit = true := hconverts
      rw [Option.filter_some, if_pos himplicit]
      exact (S.gets_content R).bind S.typed_content fun _ _ => gets_pure _

theorem implicitInto_of_not {k : Kind U} (types : Registry U)
    (hconverts : o.members.convertsImplicitlyTo k = false) :
    o.implicitInto k types = throw (.mismatch (types.label k) (.named o.typeName)) := by
  rw [Members.convertsImplicitlyTo] at hconverts
  rw [implicitInto]
  cases hc : o.members.converter? k with
  | none => rfl
  | some c =>
      rw [hc] at hconverts
      have himplicit : c.implicit = false := hconverts
      rw [Option.filter_some, if_neg (by simp [himplicit])]

/-- The objects whose values the writing of an attribute needs: the one that is written and the
one that it is written to, unless there is no such attribute or it is of another kind. -/
def setNeeds (o : Object U) (name : String) (value : Object U) (converted : Bool) :
    List (Object U) :=
  match o.target? name with
  | some target =>
      if value.is target.arg || (converted && value.members.convertsImplicitlyTo target.arg) then
        [value, o]
      else []
  | none => []

theorem Sound.heeds_set (S : o.Sound h) (R : h.Unread) (name : String) {value : Object U}
    (V : value.Sound h) :
    Heeds h (o.setNeeds name value false) [] (o.set name value) (fun _ => []) fun _ _ => True := by
  rw [set, target_eq, setNeeds]
  cases o.target? name with
  | none => exact (settles_refuse rfl).heeds
  | some target =>
      refine heeds_found ?_
      simp only [Bool.false_and, Bool.or_false]
      by_cases his : value.is target.arg = true
      · rw [if_pos his, if_pos his]
        exact (V.gets_copyValue R).heeds V.typed_copyValue fun v _ => S.heeds_write R name v target
      · rw [if_neg his, if_neg his]
        exact (settles_refuse rfl).heeds

theorem Sound.heeds_setConverted (S : o.Sound h) (R : h.Unread) (name : String)
    {value : Object U} (V : value.Sound h) :
    Heeds h (o.setNeeds name value true) [] (o.setConverted name value) (fun _ => [])
      fun _ _ => True := by
  rw [setConverted, target_eq, setNeeds]
  cases o.target? name with
  | none => exact (settles_refuse rfl).heeds
  | some target =>
      refine heeds_found ?_
      simp only [Bool.true_and]
      by_cases his : value.is target.arg = true
      · simp only [his, Bool.true_or, if_true]
        exact (V.gets_copyValue R).heeds V.typed_copyValue fun v _ => S.heeds_write R name v target
      · simp only [his, Bool.false_or]
        cases hconverts : value.members.convertsImplicitlyTo target.arg with
        | true =>
            exact (V.gets_implicitInto R _ hconverts).heeds (V.typed_implicitInto _ _)
              fun v _ => S.heeds_write R name v target
        | false =>
            rw [implicitInto_of_not _ hconverts]
            exact (settles_refuse rfl).heeds

/-! ### Calling -/

/-- The objects whose values a call needs: the arguments, and the receiver if the overload has
one, unless there is no overload for the arguments. -/
def callNeeds (o : Object U) (name : String) (args : List (Object U)) : List (Object U) :=
  match o.chosen? name args with
  | some f => if f.policy = .wrapReference then [] else args ++ if f.isStatic then [] else [o]
  | none => []

theorem Sound.heeds_invoke (S : o.Sound h) (R : h.Unread) (f : Overload o.kind)
    (vs : List (Value U)) :
    Heeds h (if f.isStatic then [] else [o]) [] (o.invoke f vs) (fun _ => [])
      fun _ _ => True := by
  rw [invoke, Overload.isStatic]
  cases f.body with
  | free run =>
      exact ((settles_orThrow rfl).bind fun _ h₁ _ _ => settles_pure (.refl [] h₁) trivial).heeds
  | reading run =>
      refine (S.gets_edit R).heeds S.typed_edit fun v _ => Settles.heeds ?_
      refine (settles_orThrow rfl).bind fun _ _ _ _ => (settles_orThrow rfl).bind fun _ h₂ _ _ => ?_
      exact settles_pure (.refl [] h₂) trivial
  | writing run =>
      refine (S.gets_edit R).heeds S.typed_edit fun v _ => Settles.heeds ?_
      refine (settles_orThrow rfl).bind fun _ _ _ _ => (settles_orThrow rfl).bind fun _ _ _ _ => ?_
      exact (settles_replace o _).bind fun _ h₃ _ _ => settles_pure (.refl [] h₃) trivial

theorem Sound.heeds_call (S : o.Sound h) (R : h.Unread) (name : String) {args : List (Object U)}
    (A : ∀ arg ∈ args, arg.Sound h) :
    Heeds h (o.callNeeds name args) [] (o.call name args) (fun _ => []) fun h' r =>
      r.holder.Fresh h' := by
  rw [call, callNeeds, chosen?]
  cases o.members.methods.get? name with
  | none => exact (settles_refuse rfl).heeds
  | some bucket =>
      refine heeds_found ?_
      rw [Option.bind_some, select]
      cases selectOverload Overload.params bucket (args.map (·.kind)) with
      | none => exact (settles_refuse rfl).heeds
      | some f =>
          refine heeds_found ?_
          by_cases hpolicy : f.policy = .wrapReference
          · simp only [if_pos hpolicy]
            exact (settles_refuse rfl).heeds
          · simp only [if_neg hpolicy]
            refine (gets_copyValues A R).heeds (typed_copyValues A) fun vs _ => ?_
            exact (S.heeds_invoke R f vs).bind fun _ _ _ _ => o.types.settles_wrapNew _ _

end Object

namespace Registry

variable {r : Registry U} {h : Heap U} {args : List (Object U)}

/-- The objects whose values a constructor of the type at `i` needs: the arguments, unless
there is none for them. -/
def constructNeeds (r : Registry U) (i : Fin r.entries.size) (args : List (Object U)) :
    List (Object U) :=
  match selectOverload Constructor.params (r.entry i).members.constructors (args.map (·.kind)) with
  | some c => if c.policy = .wrapReference then [] else args
  | none => []

theorem heeds_constructAt (R : h.Unread) (i : Fin r.entries.size)
    (A : ∀ arg ∈ args, arg.Sound h) :
    Heeds h (r.constructNeeds i args) [] (r.constructAt i args) (fun _ => []) fun h' o =>
      o.holder.Fresh h' := by
  rw [constructAt, constructNeeds]
  dsimp only
  by_cases hempty : (r.entry i).members.constructors.isEmpty = true
  · rw [if_pos hempty, List.isEmpty_iff.1 hempty]
    exact (settles_refuse rfl).heeds
  · rw [if_neg hempty, select]
    cases selectOverload Constructor.params (r.entry i).members.constructors
        (args.map (·.kind)) with
    | none => exact (settles_refuse rfl).heeds
    | some c =>
        refine heeds_found ?_
        by_cases hpolicy : c.policy = .wrapReference
        · simp only [if_pos hpolicy]
          exact (settles_refuse rfl).heeds
        · simp only [if_neg hpolicy]
          have hmake : ∀ vs, Settles h [] (do
              let given ← orThrow (Args.ofValues? c.params vs) (.foreignValue (r.entry i).name)
              return (⟨r, i, ← hold c.policy ⟨(r.entry i).kind, c.make given⟩⟩ : Object U))
              (fun _ => []) fun h' o => o.holder.Fresh h' := fun vs =>
            (settles_orThrow rfl).bind fun _ _ _ _ => r.settles_made i c.policy _
          have hcopies := (Object.gets_copyValues A R).heeds (Object.typed_copyValues A)
            fun vs _ => (hmake vs).heeds
          rwa [List.append_nil] at hcopies

theorem heeds_construct (R : h.Unread) (k : Kind U) (A : ∀ arg ∈ args, arg.Sound h) :
    Heeds h ((r.indexOf? k).elim [] (r.constructNeeds · args)) [] (r.construct k args)
      (fun _ => []) fun h' o => o.holder.Fresh h' := by
  rw [construct]
  cases r.indexOf? k with
  | none => exact (settles_refuse rfl).heeds
  | some i => exact heeds_found (heeds_constructAt R i A)

theorem heeds_constructNamed (R : h.Unread) (name : String) (A : ∀ arg ∈ args, arg.Sound h) :
    Heeds h ((r.indexOfName? name).elim [] (r.constructNeeds · args)) []
      (r.constructNamed name args) (fun _ => []) fun h' o => o.holder.Fresh h' := by
  rw [constructNamed]
  cases r.indexOfName? name with
  | none => exact (settles_refuse rfl).heeds
  | some i => exact heeds_found (heeds_constructAt R i A)

end Registry

namespace Object

variable {o : Object U} {h : Heap U}

/-! ### Conversions -/

theorem Sound.heeds_cast (S : o.Sound h) (R : h.Unread) (k : Kind U) :
    Heeds h (if o.is k then [o] else []) [] (o.cast k) (fun _ => []) fun _ _ => True := by
  rw [cast]
  by_cases his : o.is k = true
  · rw [if_pos his, if_pos his]
    refine (S.gets_read R).heeds S.typed_read fun v _ => Settles.heeds ?_
    exact (settles_orThrow rfl).mono fun _ _ _ => ⟨fun _ => rfl, trivial⟩
  · rw [if_neg his, if_neg his]
    exact (settles_refuse rfl).heeds

theorem finds_cast (o : Object U) (k : Kind U) :
    Finds (o.cast k) fun h => if o.is k then (o.holder.read? h).bind (·.as? k) else none := by
  rw [cast]
  by_cases his : o.is k = true
  · simp only [if_pos his]
    exact (finds_read o).bind fun v => finds_orThrow _ _
  · simp only [if_neg his]
    exact fun h => ⟨rfl, rfl⟩

theorem Sound.gets_convertValue (S : o.Sound h) (R : h.Unread) {k : Kind U}
    (hconverts : o.members.convertsTo k = true) : Gets h [o] (o.convertValue k) := by
  obtain ⟨c, hc⟩ := Option.isSome_iff_exists.1 hconverts
  rw [convertValue, hc]
  exact (gets_pure c).bind (typed_pure (Q := fun _ _ => True) trivial) fun _ _ =>
    (S.gets_content R).bind S.typed_content fun _ _ => gets_pure _

theorem convertValue_of_not {k : Kind U} (hconverts : o.members.convertsTo k = false) :
    o.convertValue k = throw (.noConverter o.typeName (o.types.label k)) := by
  have hc : o.members.converter? k = none := by
    simpa [Members.convertsTo] using hconverts
  rw [convertValue, hc]
  rfl

theorem Sound.heeds_convertedCast (S : o.Sound h) (R : h.Unread) (k : Kind U) :
    Heeds h (if o.is k || o.members.convertsTo k then [o] else []) [] (o.convertedCast k)
      (fun _ => []) fun _ _ => True := by
  rw [convertedCast]
  by_cases his : o.is k = true
  · have hcast := S.heeds_cast R k
    simpa only [his, Bool.true_or, if_true] using hcast
  · simp only [his, Bool.false_or]
    cases hconverts : o.members.convertsTo k with
    | true =>
        refine (S.gets_convertValue R hconverts).heeds (S.typed_convertValue k) fun v _ =>
          Settles.heeds ?_
        exact (settles_orThrow rfl).mono fun _ _ _ => ⟨fun _ => rfl, trivial⟩
    | false =>
        rw [convertValue_of_not hconverts]
        exact (settles_refuse rfl).heeds

theorem Sound.heeds_convertTo (S : o.Sound h) (R : h.Unread) (k : Kind U) :
    Heeds h (if o.types.contains k && (o.is k || o.members.convertsTo k) then [o] else []) []
      (o.convertTo k) (fun _ => []) fun h' r => r.holder.Fresh h' := by
  rw [convertTo, Registry.contains]
  cases o.types.indexOf? k with
  | none => exact (settles_refuse rfl).heeds
  | some i =>
      refine heeds_found ?_
      simp only [Option.isSome_some, Bool.true_and]
      by_cases his : o.is k = true
      · simp only [his, Bool.true_or, if_true]
        exact (S.gets_copyValue R).heeds S.typed_copyValue fun v _ =>
          (o.types.settles_made i .copy v).heeds
      · simp only [his, Bool.false_or]
        cases hconverts : o.members.convertsTo k with
        | true =>
            exact (S.gets_convertValue R hconverts).heeds (S.typed_convertValue k) fun v _ =>
              (o.types.settles_made i .copy v).heeds
        | false =>
            rw [convertValue_of_not hconverts]
            exact (settles_refuse rfl).heeds

theorem Sound.heeds_copy (S : o.Sound h) (R : h.Unread) :
    Heeds h [o] [] o.copy (fun _ => []) fun h' r => r.holder.Fresh h' :=
  (S.gets_copyValue R).heeds S.typed_copyValue fun v _ =>
    (o.types.settles_made o.index .copy v).heeds

/-! ### Items -/

/-- The objects whose values an iteration needs: the one whose items are wanted, unless it has
none or they are not of a registered type. -/
def itemsNeeds (o : Object U) : List (Object U) :=
  match o.members.iteration with
  | some it => if it.policy = .wrapReference ∨ o.types.contains it.item = false then [] else [o]
  | none => []

theorem Sound.heeds_elements (S : o.Sound h) (R : h.Unread) :
    Heeds h o.itemsNeeds [] o.elements (fun _ => []) fun _ _ => True := by
  rw [elements, itemsNeeds]
  cases o.members.iteration with
  | none => exact (settles_refuse rfl).heeds
  | some it =>
      refine heeds_found ?_
      by_cases hpolicy : it.policy = .wrapReference
      · simp only [hpolicy, true_or, if_true]
        exact (settles_refuse rfl).heeds
      · simp only [hpolicy, false_or, if_false, Registry.contains]
        cases o.types.indexOf? it.item with
        | none => exact (settles_refuse rfl).heeds
        | some i =>
            refine heeds_found ?_
            exact (S.gets_content R).heeds S.typed_content fun _ _ =>
              (settles_pure (.refl [] h) trivial).heeds

theorem Sound.heeds_items (S : o.Sound h) (R : h.Unread) :
    Heeds h o.itemsNeeds [] o.items (fun _ => []) fun _ rs =>
      ∀ r ∈ rs, r.holder.isView = false :=
  (S.heeds_elements R).bind fun e _ _ _ => .mapM fun v _ _ =>
    (o.types.settles_made e.index e.policy v).mono fun _ _ F => ⟨fun _ => rfl, F.not_view⟩

/-! ### Visits -/

/-- A whole visit, during which nothing else happens: the content is looked at, or changed. -/
def visitAndLeave (o : Object U) (k : Kind U) (access : Access) (change : k.Carrier → k.Carrier) :
    Run U Unit := do
  let x ← o.visit k access
  if access = .writing then o.replace ⟨k, change x⟩
  modify (o.leave access)

theorem leave_enter (o : Object U) (h : Heap U) : o.leave .reading (o.enter .reading h) = h := by
  unfold leave enter
  cases o.holder with
  | owned l | view p guarded => rfl
  | shared l => exact h.dropReader_addReader l

theorem leave_write_enter (v : Value U) (hfree : ∀ l, o.holder = .shared l → h.canWrite l = true) :
    o.leave .writing ((o.enter .writing h).write o.holder.place v) =
      h.write o.holder.place v := by
  unfold leave enter
  cases hholder : o.holder with
  | owned l | view p guarded => rfl
  | shared l =>
      dsimp only
      rw [Heap.setWriter_write, Heap.setWriter_setWriter]
      rw [Heap.canWrite_write]
      exact hfree l hholder

/-- What is done with the content of an object of kind `k` that is not barred. -/
theorem heeds_content {k : Kind U} {look : Run U (Value U)} {e : ScriptError U}
    {rest : k.Carrier → Run U Unit} (hlook : Gets h [o] look)
    (htyped : Typed h look fun _ v => v.kind = k)
    (hrest : o.holder.barred h = false → ∀ x, Settles h [] (rest x) (fun _ => []) fun _ _ => True) :
    Heeds h [o] [] (do
      let v ← look
      let x ← orThrow (v.as? k) e
      rest x) (fun _ => []) fun _ _ => True := by
  refine heeds_singleton (fun hb => bind_of_error (hlook.barred o ?_)) fun hfree => ?_
  · rw [List.find?_singleton, if_pos hb]
  · refine ((hlook.settles (List.forall_mem_singleton.2 hfree)).typed htyped).bind
      fun v h₁ _ hv => ?_
    obtain ⟨rfl, hkind⟩ := hv
    obtain ⟨x, hx⟩ := Option.isSome_iff_exists.1 (Value.as?_isSome_iff.2 hkind)
    rw [hx, orThrow, pure_bind]
    exact hrest hfree x

theorem Sound.heeds_visitAndLeave (S : o.Sound h) (R : h.Unread) (k : Kind U) (access : Access)
    (change : k.Carrier → k.Carrier) :
    Heeds h (if o.is k then [o] else []) [] (o.visitAndLeave k access change) (fun _ => [])
      fun _ _ => True := by
  rw [visitAndLeave, visit]
  by_cases his : o.is k = true
  · obtain rfl : o.kind = k := of_decide_eq_true his
    simp only [if_pos his]
    cases access with
    | reading =>
        simp only [bind_assoc]
        refine heeds_content (S.gets_read R) S.typed_read fun _ x => ?_
        refine settles_of_ok rfl ?_ trivial
        rw [leave_enter]
        exact .refl [] h
    | writing =>
        simp only [bind_assoc]
        refine heeds_content (S.gets_edit R) S.typed_edit fun hfree x => ?_
        refine settles_of_ok rfl ?_ trivial
        change Balanced [] [] h
          (o.leave .writing ((o.enter .writing h).write o.holder.place ⟨o.kind, change x⟩))
        rw [leave_write_enter _ (S.canWrite_of_free R hfree)]
        exact (h.sameMarks_write _ _).balanced fun _ => rfl
  · simp only [if_neg his, bind_assoc]
    exact (settles_refuse rfl).heeds

theorem Sound.typed_visitAndLeave (S : o.Sound h) (k : Kind U) (access : Access)
    (change : k.Carrier → k.Carrier) :
    Typed h (o.visitAndLeave k access change) fun _ _ => True := by
  have hleave : ∀ h₁, Typed h₁ (modify (o.leave access) : Run U PUnit) fun _ _ => True :=
    fun h₁ => typed_modify (o.keepsKinds_leave access h₁)
  rw [visitAndLeave]
  by_cases his : o.is k = true
  · obtain rfl : o.kind = k := of_decide_eq_true his
    refine (S.typed_visit o.kind access).bind fun x h₁ K₁ _ => ?_
    split
    · exact ((S.mono K₁).typed_replace _).bind fun _ h₂ _ _ => hleave h₂
    · exact hleave h₁
  · rw [visit]
    simp only [if_neg his, bind_assoc]
    exact typed_refuse rfl

/-! ### Ends -/

/-- The values stay. -/
@[simp] theorem value?_ended (o : Object U) (h : Heap U) (l : Loc) :
    (o.ended h).value? l = h.value? l := by
  unfold ended
  split
  · exact h.value?_setWriter _ _ l
  · rfl

theorem ended_of_barred (hbarred : o.holder.barred h = true) : o.ended h = h := by
  rw [ended]
  cases hholder : o.holder with
  | owned l | shared l => rfl
  | view p guarded =>
      rw [hholder] at hbarred
      cases hbarred

section IntoInner

variable {k : Kind U} {h₁ : Heap U}

theorem intoInner_of_ok {x : k.Carrier} (hcast : (o.cast k).run h = (.ok x, h₁)) :
    (o.intoInner k).run h = (.ok x, o.ended h₁) := by
  have htry : (tryCatch (o.cast k) fun e => do
      o.release
      throw e).run h = (.ok x, h₁) := by rw [run_tryCatch, hcast]
  rw [intoInner, bind_of_ok htry]
  rfl

theorem intoInner_of_error {e : ScriptError U} (hcast : (o.cast k).run h = (.error e, h₁)) :
    (o.intoInner k).run h = (.error e, o.ended h₁) := by
  have htry : (tryCatch (o.cast k) fun e => do
      o.release
      throw e).run h = (.error e, o.ended h₁) := by
    rw [run_tryCatch, hcast]
    rfl
  rw [intoInner, bind_of_error htry]

/-- The value is taken out of the heap as it is, and the object ends. -/
theorem snd_intoInner (o : Object U) (k : Kind U) (h : Heap U) :
    ((o.intoInner k).run h).2 = o.ended h := by
  have hheap := (o.finds_cast k h).1
  cases hcast : (o.cast k).run h with
  | mk result h₁ =>
      rw [hcast] at hheap
      cases result with
      | ok x => rw [intoInner_of_ok hcast, ← hheap]
      | error e => rw [intoInner_of_error hcast, ← hheap]

end IntoInner

theorem Sound.heeds_intoInner (S : o.Sound h) (R : h.Unread) (K : Kept [o] h) (k : Kind U) :
    Heeds h (if o.is k then [o] else []) [o] (o.intoInner k) (fun _ => []) fun _ _ => True := by
  obtain ⟨hbarred, hsettles⟩ := S.heeds_cast R k
  constructor
  · intro o' ho'
    have hmem : o' = o := by
      have hmem := List.mem_of_find?_eq_some ho'
      split at hmem
      · exact List.mem_singleton.1 hmem
      · cases hmem
    subst hmem
    have hb : o'.holder.barred h = true := by simpa using List.find?_some ho'
    rw [intoInner_of_error (hbarred o' ho'), ended_of_barred hb]
  · intro hnone
    cases hrun : (o.cast k).run h with
    | mk result h₁ =>
        cases result with
        | ok x =>
            have B := ((hsettles hnone).ok x (congrArg Prod.fst hrun)).1
            rw [hrun] at B
            exact settles_of_ok (intoInner_of_ok hrun) (Balanced.ended B K) trivial
        | error e =>
            obtain ⟨he, B⟩ := (hsettles hnone).error e (congrArg Prod.fst hrun)
            rw [hrun] at B
            exact settles_of_error (intoInner_of_error hrun) he (Balanced.ended B K)

theorem settles_release (K : Kept [o] h) :
    Settles h [o] o.release (fun _ => []) fun _ _ => True :=
  settles_of_ok rfl (balanced_ended K) trivial

end Object

end ChainScript.Script
