import ChainScript.Proofs.Members.Latest
import ChainScript.Proofs.Members.Overloads

/-!
# Calls on top of members

A type that is opened again gets calls on top of the members that it has.  A call changes the place
that it fills and nothing else, and overloads keep their order.  Calls that fill different places
under one policy put each its entry there, whatever the members were before; made once more they
change nothing, since each finds its own entry.  Converters are the one sort of members that a call
moves to the end of their list, but a second round brings them back into the order that the first
one left.

## Main definitions

* `Members.KeepsApartFrom` — what changes of certain places leave alone.
* `Apart` — calls that fill different places and leave the policy.
* `Members.Overlaid` — what such calls make of members.

## Main results

* `keepsApartFrom_declare` — what calls leave alone.
* `Apart.overlaid_declare` — calls on top of members.
* `Apart.declare_again` — a second round changes nothing.
-/

namespace ChainScript.Script

variable {U : Universe} {k : Kind U}

/-! ### What calls leave alone -/

/-- Between the members only the places of `P` have changed.  Setters and lists of overloads are
kept where a place depends on them in part only, and overloads keep their order. -/
structure Members.KeepsApartFrom (P : Slot U → Prop) (m m' : Members k) : Prop where
  at_eq : ∀ s, ¬ P s → m'.at? s = m.at? s
  setters : ∀ name, ¬ P (.attr name) → m'.setters.get? name = m.setters.get? name
  methods : ∀ name, (∀ params, ¬ P (.overload name params)) →
    m'.methods.get? name = m.methods.get? name
  overloads : ∀ name,
    (m.overloads name).map Overload.params <+: (m'.overloads name).map Overload.params
  constructors : m.constructors.map Constructor.params <+: m'.constructors.map Constructor.params

namespace Members.KeepsApartFrom

variable {P Q : Slot U → Prop} {m m' m'' : Members k}

theorem refl (m : Members k) : m.KeepsApartFrom P m :=
  ⟨fun _ _ => rfl, fun _ _ => rfl, fun _ _ => rfl, fun _ => List.prefix_rfl, List.prefix_rfl⟩

theorem trans (h : m.KeepsApartFrom P m') (h' : m'.KeepsApartFrom P m'') :
    m.KeepsApartFrom P m'' where
  at_eq s hs := (h'.at_eq s hs).trans (h.at_eq s hs)
  setters name hn := (h'.setters name hn).trans (h.setters name hn)
  methods name hn := (h'.methods name hn).trans (h.methods name hn)
  overloads name := (h.overloads name).trans (h'.overloads name)
  constructors := h.constructors.trans h'.constructors

theorem mono (h : m.KeepsApartFrom P m') (hPQ : ∀ s, P s → Q s) : m.KeepsApartFrom Q m' where
  at_eq s hs := h.at_eq s fun hP => hs (hPQ s hP)
  setters name hn := h.setters name fun hP => hn (hPQ _ hP)
  methods name hn := h.methods name fun params hP => hn params (hPQ _ hP)
  overloads := h.overloads
  constructors := h.constructors

end Members.KeepsApartFrom

theorem prefix_addOverload {α : Type} (params : α → List (Kind U)) (o : α) (bucket : List α) :
    bucket.map params <+: (addOverload params o bucket).map params := by
  rw [map_addOverload]
  split
  · exact List.prefix_rfl
  · exact List.prefix_append _ _

section KeepsApartFrom

variable (b : Builder k)

theorem get?_setters_putGetter (name n : String) (getter : Getter k) (setter : Option (Setter k)) :
    (b.putGetter name getter setter).members.setters.get? n =
      if n = name then setter else b.members.setters.get? n := by
  cases setter with
  | none => exact Slots.get?_erase ..
  | some w => exact Slots.get?_put ..

/-- One call leaves alone all but its place. -/
theorem keepsApartFrom_call (d : Declaration k) :
    b.members.KeepsApartFrom (d.slot? = some ·) (b.call d).members where
  at_eq s hs := by rw [at?_call, if_neg hs]
  setters name hn := by
    cases d with
    | addReadonly n | addConstant n | addReadwrite n | addField n =>
        have hne : name ≠ n := fun heq => hn (heq ▸ rfl)
        exact (get?_setters_putGetter ..).trans (if_neg hne)
    | _ => rfl
  methods name hn := by
    cases d with
    | addMethod n params | addMethodMut n params | addStatic n params =>
        have hne : name ≠ n := fun heq => hn params (heq ▸ rfl)
        exact (get?_putOverload ..).trans (if_neg hne)
    | _ => rfl
  overloads name := by
    have hput (n : String) (params : List (Kind U)) (ret : Kind U) (body : Body k params ret) :
        (b.members.overloads name).map Overload.params <+:
          ((b.putOverload n params ret body).members.overloads name).map Overload.params := by
      rw [Members.overloads, Members.overloads, get?_putOverload]
      by_cases hn : name = n
      · rw [if_pos hn, hn]
        exact prefix_addOverload ..
      · rw [if_neg hn]
    cases d with
    | addMethod | addMethodMut | addStatic => exact hput ..
    | _ => exact List.prefix_rfl
  constructors := by
    cases d with
    | addConstructor => exact prefix_addOverload ..
    | _ => exact List.prefix_rfl

/-- **Calls leave alone all but their places.** -/
theorem keepsApartFrom_declare (ds : List (Declaration k)) :
    b.members.KeepsApartFrom (some · ∈ ds.map Declaration.slot?) (b.declare ds).members := by
  induction ds generalizing b with
  | nil => exact .refl _
  | cons d ds ih =>
      refine .trans ((keepsApartFrom_call b d).mono fun s hs => ?_) ((ih (b.call d)).mono ?_)
      · rw [List.map_cons, hs]
        exact List.mem_cons_self
      · exact fun s hs => List.mem_cons_of_mem _ hs

end KeepsApartFrom

/-! ### Calls that do not get into each other's way -/

/-- The calls fill each a place of its own, so none changes the policy. -/
structure Apart (ds : List (Declaration k)) : Prop where
  isSome : ∀ d ∈ ds, d.slot?.isSome = true
  nodup : (ds.map Declaration.slot?).Nodup

/-- What calls make of members: their places have their entries, under the policy of a new builder,
and nothing else has changed. -/
structure Members.Overlaid (m : Members k) (ds : List (Declaration k)) (m' : Members k) :
    Prop where
  filled : ∀ d ∈ ds, ∀ s, d.slot? = some s → m'.at? s = d.entry? .copy
  kept : m.KeepsApartFrom (some · ∈ ds.map Declaration.slot?) m'

section Apart

variable {b : Builder k} {ds : List (Declaration k)} {d : Declaration k} {s : Slot U}

theorem policy_declare_of_isSome (b : Builder k) (hds : ∀ d ∈ ds, d.slot?.isSome = true) :
    (b.declare ds).policy = b.policy := by
  induction ds generalizing b with
  | nil => rfl
  | cons d ds ih =>
      obtain ⟨hd, hds⟩ := List.forall_mem_cons.1 hds
      obtain ⟨s, hs⟩ := Option.isSome_iff_exists.1 hd
      exact (ih (b.call d) hds).trans (policy_call_of_slot b hs)

/-- Each call puts its entry into its place. -/
theorem Apart.at?_declare (A : Apart ds) (b : Builder k) (hd : d ∈ ds) (hs : d.slot? = some s) :
    (b.declare ds).members.at? s = d.entry? b.policy := by
  obtain ⟨before, after, rfl⟩ := List.append_of_mem hd
  have hsplit : b.declare (before ++ d :: after) = ((b.declare before).call d).declare after :=
    List.foldl_append
  have hafter : ∀ e ∈ after, e.slot? ≠ some s := by
    have hnodup := A.nodup
    rw [List.map_append, List.map_cons, List.nodup_append] at hnodup
    intro e he heq
    have hnew := (List.nodup_cons.1 hnodup.2.1).1
    rw [hs, ← heq] at hnew
    exact hnew (List.mem_map_of_mem he)
  have hpolicy : (b.declare before).policy = b.policy :=
    policy_declare_of_isSome b fun e he => A.isSome e (List.mem_append_left _ he)
  rw [hsplit, at?_declare_of_forall _ hafter, at?_call, if_pos hs, hpolicy]

/-- **Calls on top of members.** -/
theorem Apart.overlaid_declare (A : Apart ds) (m : Members k) :
    m.Overlaid ds (Builder.declare { members := m } ds).members :=
  ⟨fun _ hd _ hs => A.at?_declare { members := m } hd hs,
    keepsApartFrom_declare { members := m } ds⟩

end Apart

/-! ### The same calls once more -/

theorem addOverload_eq_self {α : Type} {params : α → List (Kind U)} {o : α} {bucket : List α}
    (h : selectOverload params bucket (params o) = some o) :
    addOverload params o bucket = bucket := by
  induction bucket with
  | nil => cases h
  | cons x rest ih =>
      rw [selectOverload] at h ih
      rw [addOverload]
      by_cases hx : params x = params o
      · rw [List.find?_cons_of_pos (by simpa using hx), Option.some.injEq] at h
        rw [if_pos hx, h]
      · rw [List.find?_cons_of_neg (by simpa using hx)] at h
        rw [if_neg hx, ih h]

/-- The converter that a call registers. -/
def Declaration.converter? : Declaration k → Option (Converter k)
  | .conversion target convert => some ⟨target, false, convert⟩
  | .implicitConversion target convert => some ⟨target, true, convert⟩
  | _ => none

/-- The converters with one more at the end, in the stead of the one with its target. -/
def addConverter (cs : List (Converter k)) (c : Converter k) : List (Converter k) :=
  cs.filter (·.target ≠ c.target) ++ [c]

/-- The builder with other converters. -/
def Builder.withConverters (b : Builder k) (cs : List (Converter k)) : Builder k :=
  { b with members := { b.members with converters := cs } }

section Again

variable {b : Builder k} {ds : List (Declaration k)} {d : Declaration k} {s : Slot U}
  {name : String}

theorem converters_declare (b : Builder k) (ds : List (Declaration k)) :
    (b.declare ds).members.converters =
      (registered (fun _ => Declaration.converter?) b.policy ds).foldl addConverter
        b.members.converters := by
  refine view_declare (·.converters) (fun b d => ?_) b ds
  cases d <;> rfl

/-- Converters with different targets come to the end in their order. -/
theorem foldl_addConverter {cs : List (Converter k)} (hcs : (cs.map (·.target)).Nodup)
    (base : List (Converter k)) :
    cs.foldl addConverter base = base.filter (·.target ∉ cs.map (·.target)) ++ cs := by
  induction cs generalizing base with
  | nil => simp
  | cons c cs ih =>
      -- Those that follow have other targets and leave the new converter where it is.
      obtain ⟨hc, hcs⟩ := List.nodup_cons.1 hcs
      rw [List.foldl_cons, ih hcs, addConverter, List.filter_append,
        List.filter_filter, List.filter_cons_of_pos (by simpa using hc), List.filter_nil,
        List.append_assoc, List.singleton_append]
      congr 1
      refine List.filter_congr fun x _ => ?_
      simp [Bool.and_comm]

theorem foldl_addConverter_again {cs : List (Converter k)} (hcs : (cs.map (·.target)).Nodup)
    (base : List (Converter k)) :
    cs.foldl addConverter (cs.foldl addConverter base) = cs.foldl addConverter base := by
  have hnone : cs.filter (·.target ∉ cs.map (·.target)) = [] :=
    List.filter_eq_nil_iff.2 fun c hc => by simpa using ⟨c, hc, rfl⟩
  rw [foldl_addConverter hcs, foldl_addConverter hcs, List.filter_append, List.filter_filter,
    hnone, List.append_nil]
  simp only [Bool.and_self]

/-- Of calls that fill different places, the converters have different targets. -/
theorem nodup_targets (hds : (ds.map Declaration.slot?).Nodup) (policy : Policy) :
    ((registered (fun _ => Declaration.converter?) policy ds).map (·.target)).Nodup := by
  have hslot : ∀ {ds : List (Declaration k)} {policy target},
      target ∈ (registered (fun _ => Declaration.converter?) policy ds).map (·.target) →
        some (.converter target) ∈ ds.map Declaration.slot? := by
    intro ds policy target htarget
    induction ds generalizing policy with
    | nil => cases htarget
    | cons d ds ih =>
        rw [registered, List.map_append, List.mem_append] at htarget
        refine htarget.elim (fun hd => ?_) fun hrest => List.mem_cons_of_mem _ (ih hrest)
        cases d with
        | conversion | implicitConversion =>
            obtain rfl := List.mem_singleton.1 hd
            exact List.mem_cons_self
        | _ => cases hd
  induction ds generalizing policy with
  | nil => exact List.nodup_nil
  | cons d ds ih =>
      obtain ⟨hd, hrest⟩ := List.nodup_cons.1 hds
      rw [registered, List.map_append]
      cases d with
      | conversion | implicitConversion =>
          exact List.nodup_cons.2 ⟨fun htarget => hd (hslot htarget), ih hrest _⟩
      | _ => exact ih hrest _

theorem putGetter_eq_self {getter : Getter k} {setter : Option (Setter k)}
    (h : b.members.at? (.attr name) = some (.attr getter setter)) :
    b.putGetter name getter setter = b := by
  obtain ⟨g, hget, heq⟩ := Option.map_eq_some_iff.1 h
  obtain ⟨rfl, hset⟩ := Entry.attr.inj heq
  have hgetters := Slots.put_eq_self hget
  cases setter with
  | none => rw [Builder.putGetter, hgetters, Slots.erase_eq_self hset]
  | some w => rw [Builder.putGetter, hgetters, Slots.put_eq_self hset]

theorem putOverload_eq_self {params : List (Kind U)} {ret : Kind U} {body : Body k params ret}
    (h : b.members.at? (.overload name params) = some (.overload ⟨params, ret, b.policy, body⟩)) :
    b.putOverload name params ret body = b := by
  obtain ⟨o, hselect, heq⟩ := Option.map_eq_some_iff.1 h
  obtain rfl := Entry.overload.inj heq
  have hbucket : b.members.methods.get? name = some (b.members.overloads name) := by
    rw [Members.overloads] at hselect ⊢
    cases hget : b.members.methods.get? name with
    | some bucket => rfl
    | none =>
        rw [hget] at hselect
        cases hselect
  rw [Builder.putOverload, addOverload_eq_self hselect, Slots.put_eq_self hbucket]

/-- **A call that finds its entry in its place** at most moves a converter. -/
theorem call_of_at? (hd : d.slot? = some s) (hat : b.members.at? s = d.entry? b.policy) :
    b.call d = b.withConverters (b.call d).members.converters := by
  -- But for converters, the call changes nothing at all.
  have hself : ∀ {b' : Builder k}, b' = b → b' = b.withConverters b'.members.converters := by
    rintro _ rfl
    rfl
  cases d with
  | withPolicy => cases hd
  | conversion | implicitConversion => rfl
  | addReadonly | addConstant | addReadwrite | addField =>
      obtain rfl := Option.some.inj hd
      exact hself (putGetter_eq_self hat)
  | addMethod | addMethodMut | addStatic =>
      obtain rfl := Option.some.inj hd
      exact hself (putOverload_eq_self hat)
  | addMethodRef name ret lens =>
      obtain rfl := Option.some.inj hd
      obtain ⟨f, hget, heq⟩ := Option.map_eq_some_iff.1 hat
      obtain rfl := Entry.reference.inj heq
      refine hself ?_
      rw [Builder.call, Builder.addMethodRef, Slots.put_eq_self hget]
  | addConstructor params make =>
      obtain rfl := Option.some.inj hd
      obtain ⟨f, hselect, heq⟩ := Option.map_eq_some_iff.1 hat
      obtain rfl := Entry.constructor.inj heq
      refine hself ?_
      rw [Builder.call, Builder.addConstructor, addOverload_eq_self hselect]
  | fallbackGetter ret read =>
      obtain rfl := Option.some.inj hd
      obtain ⟨f, hget, heq⟩ := Option.map_eq_some_iff.1 hat
      obtain rfl := Entry.fallbackGetter.inj heq
      refine hself ?_
      rw [Builder.call, Builder.fallbackGetter, ← hget]
  | fallbackSetter arg write =>
      obtain rfl := Option.some.inj hd
      obtain ⟨f, hget, heq⟩ := Option.map_eq_some_iff.1 hat
      obtain rfl := Entry.fallbackSetter.inj heq
      refine hself ?_
      rw [Builder.call, Builder.fallbackSetter, ← hget]
  | iterable item walk =>
      obtain rfl := Option.some.inj hd
      obtain ⟨f, hget, heq⟩ := Option.map_eq_some_iff.1 hat
      obtain rfl := Entry.iteration.inj heq
      refine hself ?_
      rw [Builder.call, Builder.iterable, ← hget]
  | withDisplay render =>
      obtain rfl := Option.some.inj hd
      obtain ⟨f, hget, heq⟩ := Option.map_eq_some_iff.1 hat
      obtain rfl := Entry.display.inj heq
      refine hself ?_
      rw [Builder.call, Builder.withDisplay, ← hget]

/-- Calls that find their entries in their places at most move converters. -/
theorem declare_of_at? (hslots : ∀ d ∈ ds, d.slot?.isSome = true)
    (hat : ∀ d ∈ ds, ∀ s, d.slot? = some s → b.members.at? s = d.entry? b.policy) :
    b.declare ds = b.withConverters (b.declare ds).members.converters := by
  induction ds generalizing b with
  | nil => rfl
  | cons d ds ih =>
      obtain ⟨hd, hslots⟩ := List.forall_mem_cons.1 hslots
      obtain ⟨hfound, hat⟩ := List.forall_mem_cons.1 hat
      obtain ⟨s, hs⟩ := Option.isSome_iff_exists.1 hd
      have hcall := call_of_at? hs (hfound s hs)
      -- The call leaves every place as it is, also its own, so the others find their entries too.
      have hsame : ∀ s, (b.call d).members.at? s = b.members.at? s := by
        intro s
        rw [at?_call]
        split
        · next hs => exact (hfound s hs).symm
        · rfl
      have hrest : (b.call d).declare ds = _ := ih hslots fun e he s' hs' => by
        rw [hsame, policy_call_of_slot b hs]
        exact hat e he s' hs'
      have hcons : b.declare (d :: ds) = (b.call d).declare ds := rfl
      rw [hcons]
      refine hrest.trans ?_
      generalize ((b.call d).declare ds).members.converters = cs
      rw [hcall]
      rfl

/-- **The same calls once more change nothing.** -/
theorem Apart.declare_again (A : Apart ds) (b : Builder k) :
    (b.declare ds).declare ds = b.declare ds := by
  have hpolicy := policy_declare_of_isSome b A.isSome
  have hagain : (b.declare ds).declare ds = _ := declare_of_at? A.isSome fun d hd s hs => by
    rw [hpolicy]
    exact A.at?_declare b hd hs
  have hconverters : ((b.declare ds).declare ds).members.converters =
      (b.declare ds).members.converters := by
    rw [converters_declare, hpolicy, converters_declare]
    exact foldl_addConverter_again (nodup_targets A.nodup _) _
  rw [hagain, hconverters]
  rfl

/-- The same calls once more, by a new builder. -/
theorem Apart.declare_reopened_again (A : Apart ds) (m : Members k) :
    (Builder.declare { members := (Builder.declare { members := m } ds).members } ds).members =
      (Builder.declare { members := m } ds).members := by
  have hpolicy : (Builder.declare { members := m } ds).policy = .copy :=
    policy_declare_of_isSome _ A.isSome
  have hnew : { members := (Builder.declare { members := m } ds).members } =
      Builder.declare { members := m } ds := congrArg (Builder.mk _) hpolicy.symm
  rw [hnew, A.declare_again]

end Again

end ChainScript.Script
