import ChainScript.Proofs.Object.Confined

/-!
# Reaching by reference

A path of attributes that are all fields registered by reference, read from a reference to an
object's value, yields a reference to the part of the value that the path selects, and leaves
the heap as it was.  A path with any other step yields an object with a new cell of its own.
Fields are lawful lenses.

## Main definitions

* `Registry.Lawful` — the fields and reference methods of the registered types are lawful.
* `Registry.route?` — the steps of a path of reference fields.
* `Object.Lent`, `Object.Detached` — what a path yields with and without a route.

## Main results

* `Object.readPath_eq_ok` — what a path yields from a reference.
* `Object.reborrow_eq_ok` — the first reference, and its end.
-/

namespace ChainScript.Script

variable {U : Universe}

open Zone Run

/-! ### Successful runs -/

namespace Run

variable {α β : Type} {m : Run U α} {k : α → Run U β} {h h' : Heap U} {a a' : α} {b : β}

theorem bind_eq_ok (hrun : (m >>= k).run h = (.ok b, h')) :
    ∃ a h₁, m.run h = (.ok a, h₁) ∧ (k a).run h₁ = (.ok b, h') := by
  cases hm : m.run h with
  | mk r h₁ =>
      cases r with
      | ok a =>
          rw [bind_of_ok hm] at hrun
          exact ⟨a, h₁, rfl, hrun⟩
      | error e =>
          rw [bind_of_error hm] at hrun
          cases hrun

theorem map_eq_ok {f : α → β} (hrun : (f <$> m).run h = (.ok b, h')) :
    ∃ a, m.run h = (.ok a, h') ∧ f a = b := by
  rw [map_eq_pure_bind] at hrun
  obtain ⟨a, h₁, ha, hpure⟩ := bind_eq_ok hrun
  cases hpure
  exact ⟨a, ha, rfl⟩

theorem run_tryCatch (m : Run U α) (handle : ScriptError U → Run U α) (h : Heap U) :
    (tryCatch m handle).run h = match m.run h with
      | (.ok a, h₁) => (.ok a, h₁)
      | (.error e, h₁) => (handle e).run h₁ := by
  have hrun : (tryCatch m handle).run = (ExceptT.tryCatch m handle).run := rfl
  rw [hrun, ExceptT.tryCatch, ExceptT.run_mk]
  change StateT.bind m.run _ h = _
  rw [StateT.bind]
  cases m.run h with
  | mk r h₁ => cases r <;> rfl

theorem pure_eq_ok (hrun : (pure a : Run U α).run h = (.ok a', h')) : a = a' ∧ h = h' := by
  cases hrun
  exact ⟨rfl, rfl⟩

theorem not_throw_eq_ok {e : ScriptError U} : (throw e : Run U α).run h ≠ (.ok a, h') := nofun

theorem Finds.eq_ok {r : Heap U → Option α} (hm : Finds m r) (hrun : m.run h = (.ok a, h')) :
    r h = some a ∧ h' = h := by
  obtain ⟨hheap, hres⟩ := hm h
  rw [hrun] at hheap hres
  exact ⟨hres.symm, hheap⟩

end Run

/-- What a computation confined to new cells leaves of the heap. -/
theorem Zone.Confines.extends {α : Type} {m : Run U α} {Q : α → Prop} {n : Nat} {h h' : Heap U}
    {a : α} (hm : (Zone.new n).Confines m Q) (hn : n ≤ h.cells.size)
    (hrun : m.run h = (.ok a, h')) :
    h.cells.size ≤ h'.cells.size ∧ h.SameBelow n h' ∧ Q a := by
  obtain ⟨⟨hsize, hsame⟩, hq⟩ := hm h hn
  have hfst : (StateT.run m.run h).1 = .ok a := congrArg Prod.fst hrun
  have hsnd : (StateT.run m.run h).2 = h' := congrArg Prod.snd hrun
  rw [hsnd] at hsize hsame
  refine ⟨hsize, ?_, hq a hfst⟩
  obtain hsame | ⟨p, hp, -⟩ := hsame
  · exact hsame
  · cases hp

/-! ### Lawful registries -/

/-- The fields and the reference methods of the registered types are lawful lenses. -/
structure Registry.Lawful (r : Registry U) : Prop where
  field : ∀ i name ret policy lens,
    (r.entry i).members.getters.get? name = some (.field ret policy lens) → lens.Lawful
  reference : ∀ i name f, (r.entry i).members.references.get? name = some f → f.lens.Lawful

/-- The step to the part of a field that is registered by reference. -/
def Getter.step? {k : Kind U} : Getter k → Option (Step U)
  | .field ret .wrapReference lens => some ⟨k, ret, lens⟩
  | _ => none

/-- The steps of a path from the type at `i`, if all attributes on it are fields registered by
reference. -/
def Registry.route? (r : Registry U) : Fin r.entries.size → List String → Option (List (Step U))
  | _, [] => some []
  | i, name :: rest => do
      let step ← ((r.entry i).members.getters.get? name).bind Getter.step?
      let steps ← r.route? (← r.indexOf? step.part) rest
      return step :: steps

namespace Object

variable {o r lent : Object U} {h h' h₁ : Heap U}

/-! ### Reaching a part -/

theorem read?_of_edit? {v : Value U} (hedit : o.holder.edit? h = some v) :
    h.read? o.holder.place = some v := by
  unfold Holder.edit? at hedit
  split at hedit
  · next l hholder =>
    split at hedit
    · rw [hholder, Heap.read?, Holder.place, hedit]
      rfl
    · cases hedit
  · exact hedit

/-- A lawful lens is reached into without a change. -/
theorem touch_eq_ok {ret : Kind U} {lens : Lens o.kind.Carrier ret.Carrier} {x : o.kind.Carrier}
    (hlens : lens.Lawful) (L : LawfulPath o.holder.place.path)
    (hrun : (o.touch lens).run h = (.ok x, h')) :
    h' = h ∧ h.read? o.holder.place = some ⟨o.kind, x⟩ := by
  obtain ⟨v, h₁, hedit, hedited⟩ := bind_eq_ok hrun
  obtain ⟨hv, rfl⟩ := (finds_edit o).eq_ok hedit
  obtain ⟨x₀, h₂, hcontent, hread⟩ := bind_eq_ok hedited
  obtain ⟨hx, rfl⟩ := (finds_contentOf o v).eq_ok hcontent
  obtain ⟨_, h₃, hreplace, hpure⟩ := bind_eq_ok hread
  obtain ⟨rfl, rfl⟩ := pure_eq_ok hpure
  obtain rfl : h₂.write o.holder.place ⟨o.kind, lens.touch x₀⟩ = h₃ := congrArg Prod.snd hreplace
  obtain rfl := Value.as?_eq_some_iff.1 hx
  rw [hlens.touch]
  exact ⟨Heap.write_self L (read?_of_edit? hv), read?_of_edit? hv⟩

theorem wrap_eq_ok {types : Registry U} {holder : Holder U} {k : Kind U}
    (hrun : (types.wrap holder k).run h = (.ok r, h')) :
    h' = h ∧ ∃ i, types.indexOf? k = some i ∧ r = ⟨types, i, holder⟩ := by
  rw [Registry.wrap] at hrun
  split at hrun
  · next i hi =>
    obtain ⟨rfl, rfl⟩ := pure_eq_ok hrun
    exact ⟨rfl, i, hi, rfl⟩
  · cases hrun

theorem place_part (holder : Holder U) (s : Step U) :
    (holder.part s).place = ⟨holder.place.root, holder.place.path ++ [s]⟩ := by
  cases holder <;> rfl

theorem isView_part (holder : Holder U) (s : Step U) : (holder.part s).isView = true := by
  cases holder <;> rfl

/-- The object is a reference to a part that is there. -/
def Narrowed (o : Object U) (s : Step U) (h : Heap U) (r : Object U) : Prop :=
  (∃ part, h.read? (o.holder.part s).place = some part) ∧
    ∃ i, o.types.indexOf? s.part = some i ∧ r = ⟨o.types, i, o.holder.part s⟩

theorem narrow_eq_ok {ret : Kind U} {lens : Lens o.kind.Carrier ret.Carrier}
    (hlens : lens.Lawful) (L : LawfulPath o.holder.place.path)
    (hrun : (o.narrow ret lens).run h = (.ok r, h')) :
    o.Narrowed ⟨o.kind, ret, lens⟩ h r ∧ h' = h := by
  obtain ⟨_, h₁, hdiscard, hwrap⟩ := bind_eq_ok hrun
  obtain ⟨x, htouch, -⟩ := map_eq_ok hdiscard
  obtain ⟨rfl, hx⟩ := touch_eq_ok hlens L htouch
  obtain ⟨rfl, hi⟩ := wrap_eq_ok hwrap
  refine ⟨⟨⟨⟨ret, lens.view x⟩, ?_⟩, hi⟩, rfl⟩
  obtain ⟨whole, hvalue, hview⟩ := Heap.value?_isSome_of_read? hx
  rw [place_part, Heap.read?, hvalue]
  change viewPath? (o.holder.place.path ++ [_]) whole = _
  have hstep : Step.view? ⟨o.kind, ret, lens⟩ ⟨o.kind, x⟩ = some ⟨ret, lens.view x⟩ :=
    Step.view?_eq_some_iff.2 ⟨x, rfl, rfl⟩
  rw [viewPath?_append, hview, Option.bind_some, viewPath?_cons, hstep]
  rfl

section PassOn

variable {next : Run U (Object U)}

/-- An object that ends itself unless it is passed on. -/
theorem passOn_of_ok (hnext : next.run h = (.ok r, h₁)) :
    (o.passOn next).run h = (.ok r, if r.holder.isView then h₁ else o.ended h₁) := by
  have htry : (tryCatch next fun e => do
      o.release
      throw e).run h = (.ok r, h₁) := by rw [run_tryCatch, hnext]
  rw [passOn, bind_of_ok htry]
  dsimp only
  cases r.holder.isView <;> rfl

theorem passOn_of_error {e : ScriptError U} (hnext : next.run h = (.error e, h₁)) :
    (o.passOn next).run h = (.error e, o.ended h₁) := by
  have htry : (tryCatch next fun e => do
      o.release
      throw e).run h = (.error e, o.ended h₁) := by
    rw [run_tryCatch, hnext]
    rfl
  rw [passOn, bind_of_error htry]

theorem passOn_eq_ok (hrun : (o.passOn next).run h = (.ok r, h')) :
    ∃ h₁, next.run h = (.ok r, h₁) ∧ h' = if r.holder.isView then h₁ else o.ended h₁ := by
  cases hnext : next.run h with
  | mk result h₁ =>
      cases result with
      | ok r' =>
          rw [passOn_of_ok hnext] at hrun
          cases hrun
          exact ⟨h₁, rfl, rfl⟩
      | error e =>
          rw [passOn_of_error hnext] at hrun
          cases hrun

end PassOn

/-! ### Detaching -/

/-- The object has a new cell of its own, and nothing else has changed. -/
def Detached (r : Object U) (h h' : Heap U) : Prop :=
  h.cells.size ≤ h'.cells.size ∧ h.Extends h' ∧ (Zone.new h.cells.size).Made r.holder

theorem detached_of_wrapNew {types : Registry U} {policy : Policy} {v : Value U}
    (hrun : (types.wrapNew policy v).run h = (.ok r, h')) : r.Detached h h' :=
  (types.keeps_wrapNew policy v).extends le_rfl hrun

@[simp] theorem size_ended (o : Object U) (h : Heap U) :
    (o.ended h).cells.size = h.cells.size := by
  unfold ended
  split
  · exact Array.size_modify
  · rfl

theorem sameBelow_ended {n : Nat} (S : h.SameBelow n h') (o : Object U) :
    (o.ended h).SameBelow n (o.ended h') := by
  unfold ended
  split
  · exact S.modify _ _
  · exact S

@[simp] theorem read?_ended (o : Object U) (h : Heap U) (p : Place U) :
    (o.ended h).read? p = h.read? p := by
  unfold ended
  split
  · rw [Heap.read?, Heap.read?, Heap.value?_setWriter]
  · rfl

/-- The end of a view depends on its cell and its guard. -/
theorem ended_eq_of_view {a b : Object U} {p q : Place U} {guarded : Bool}
    (hr : a.holder = .view p guarded) (ho : b.holder = .view q guarded) (hroot : p.root = q.root)
    (h : Heap U) : a.ended h = b.ended h := by
  unfold ended
  rw [hr, ho]
  cases guarded with
  | true => simp only [hroot]
  | false => rfl

/-- The value at the place of a holder can be read unless the holder shares it with a writer. -/
theorem read?_of_place {holder : Holder U} {v : Value U} (hread : h.read? holder.place = some v)
    (hfree : ∀ l, holder = .shared l → h.canWrite l = true) : holder.read? h = some v := by
  unfold Holder.read?
  split
  · next l =>
    rw [if_pos (Heap.canRead_of_canWrite (hfree l rfl))]
    obtain ⟨whole, hvalue, hview⟩ := Heap.value?_isSome_of_read? hread
    obtain rfl : whole = v := Option.some.inj hview
    exact hvalue
  · exact hread

theorem Detached.ended (hr : r.Detached h h') (o : Object U) :
    r.Detached (o.ended h) (o.ended h') := by
  obtain ⟨hsize, hsame, hmade⟩ := hr
  refine ⟨by simpa using hsize, ?_, by simpa using hmade⟩
  rw [Heap.Extends, size_ended]
  exact sameBelow_ended hsame o

/-- What an attribute yields: a reference to a part, or an object of its own. -/
theorem readGetter_eq_ok {name : String} {getter : Getter o.kind} (hview : o.holder.isView = true)
    (hlens : ∀ ret policy lens, getter = .field ret policy lens → lens.Lawful)
    (L : LawfulPath o.holder.place.path)
    (hrun : (o.readGetter name getter).run h = (.ok r, h')) :
    (∀ s, getter.step? = some s → o.Narrowed s h r ∧ h' = h) ∧
      (getter.step? = none → r.Detached h h') := by
  cases getter with
  | computed ret policy read =>
      refine ⟨fun s hs => absurd hs.symm (Option.some_ne_none s), fun _ => ?_⟩
      rw [readGetter] at hrun
      split at hrun
      · obtain ⟨_, _, hthrow, -⟩ := bind_eq_ok hrun
        exact absurd hthrow not_throw_eq_ok
      · obtain ⟨x, h₁, hcontent, hwrap⟩ := bind_eq_ok hrun
        obtain ⟨-, rfl⟩ := ((finds_read o).bind (finds_contentOf o)).eq_ok hcontent
        exact detached_of_wrapNew hwrap
  | field ret policy lens =>
      have hlawful := hlens ret policy lens rfl
      rw [readGetter] at hrun
      split at hrun
      · next hpolicy =>
        obtain ⟨rfl, -⟩ := hpolicy
        refine ⟨fun s hs => ?_, fun hs => absurd hs (Option.some_ne_none _)⟩
        obtain rfl := Option.some.inj hs
        exact narrow_eq_ok hlawful L hrun
      · next hpolicy =>
        have hstep : Getter.step? (.field ret policy lens) = none := by
          cases policy with
          | wrapReference => exact absurd ⟨rfl, hview⟩ hpolicy
          | copy | share => rfl
        refine ⟨fun s hs => ?_, fun _ => ?_⟩
        · rw [hstep] at hs
          cases hs
        obtain ⟨x, h₁, htouch, hwrap⟩ := bind_eq_ok hrun
        obtain ⟨rfl, -⟩ := touch_eq_ok hlawful L htouch
        exact detached_of_wrapNew hwrap

theorem detached_of_readFallback {name : String} {f : FallbackGetter o.kind}
    (hrun : (o.readFallback name f).run h = (.ok r, h')) : r.Detached h h' := by
  rw [readFallback] at hrun
  split at hrun
  · obtain ⟨_, _, hthrow, -⟩ := bind_eq_ok hrun
    exact absurd hthrow not_throw_eq_ok
  · obtain ⟨v, h₁, hread, hrest⟩ := bind_eq_ok hrun
    obtain ⟨-, rfl⟩ := (finds_read o).eq_ok hread
    split at hrest
    · exact detached_of_wrapNew hrest
    · exact absurd hrest not_throw_eq_ok

theorem readAttribute_eq_ok {name : String} (hview : o.holder.isView = true)
    (hlawful : o.types.Lawful) (L : LawfulPath o.holder.place.path)
    (hrun : (o.readAttribute name).run h = (.ok r, h')) :
    (∀ s, (o.members.getters.get? name).bind Getter.step? = some s → o.Narrowed s h r ∧ h' = h) ∧
      ((o.members.getters.get? name).bind Getter.step? = none →
        r.Detached (o.ended h) h') := by
  obtain ⟨h₁, hnext, rfl⟩ := passOn_eq_ok hrun
  have hdetached : r.Detached h h₁ →
      r.Detached (o.ended h) (if r.holder.isView then h₁ else o.ended h₁) := by
    intro hr
    rw [if_neg (by simp [hr.2.2.2])]
    exact hr.ended o
  cases hgetter : o.members.getters.get? name with
  | none =>
      refine ⟨nofun, fun _ => ?_⟩
      simp only [hgetter] at hnext
      split at hnext
      · cases ‹none = some _›
      · exact hdetached (detached_of_readFallback hnext)
      · exact absurd hnext not_throw_eq_ok
  | some getter =>
      simp only [hgetter] at hnext
      obtain ⟨hnarrowed, hnew⟩ := readGetter_eq_ok hview (fun ret policy lens heq =>
        hlawful.field o.index name ret policy lens (heq ▸ hgetter)) L hnext
      refine ⟨fun s hs => ?_, fun hs => hdetached (hnew hs)⟩
      obtain ⟨⟨hpart, i, hi, rfl⟩, rfl⟩ := hnarrowed s hs
      exact ⟨⟨hpart, i, hi, rfl⟩, if_pos (isView_part _ _)⟩

/-! ### Paths -/

theorem lawful_of_step (hlawful : o.types.Lawful) {name : String} {s : Step U}
    (hs : (o.members.getters.get? name).bind Getter.step? = some s) : s.lens.Lawful := by
  obtain ⟨getter, hgetter, hs⟩ := Option.bind_eq_some_iff.1 hs
  unfold Getter.step? at hs
  split at hs
  · next ret lens =>
    obtain rfl := Option.some.inj hs
    exact hlawful.field o.index name ret _ lens hgetter
  · cases hs

theorem route?_cons (o : Object U) (name : String) (names : List String) :
    o.types.route? o.index (name :: names) =
      ((o.members.getters.get? name).bind Getter.step?).bind fun s =>
        (o.types.indexOf? s.part).bind fun i =>
          (o.types.route? i names).bind fun steps => some (s :: steps) :=
  rfl

/-- A path is read in parts. -/
theorem readPath_append (o : Object U) (names rest : List String) :
    o.readPath (names ++ rest) = o.readPath names >>= (·.readPath rest) := by
  induction names generalizing o with
  | nil => rw [List.nil_append, readPath, pure_bind]
  | cons name names ih =>
      rw [List.cons_append, readPath, readPath, bind_assoc]
      exact bind_congr fun r => ih r

theorem get_of_ne_nil (o : Object U) {names : List String} (hnames : names ≠ []) :
    o.get names = (do (← o.reborrow).readPath names) := by
  rw [get, List.isEmpty_eq_false_iff.2 hnames, if_neg Bool.false_ne_true]

/-- What a path yields from a reference: a reference to the part that the path selects, or an
object of its own. -/
theorem readPath_eq_ok {names : List String} {p : Place U} {guarded : Bool}
    (hholder : o.holder = .view p guarded) (hlawful : o.types.Lawful) (L : LawfulPath p.path)
    (hrun : (o.readPath names).run h = (.ok r, h')) :
    (∀ steps, o.types.route? o.index names = some steps →
      LawfulPath steps ∧ r.holder = .view ⟨p.root, p.path ++ steps⟩ guarded ∧
        (names = [] ∨ ∃ part, h.read? ⟨p.root, p.path ++ steps⟩ = some part) ∧ h' = h) ∧
    (o.types.route? o.index names = none → r.Detached (o.ended h) h') := by
  induction names generalizing o p h with
  | nil =>
      obtain ⟨rfl, rfl⟩ := pure_eq_ok hrun
      refine ⟨fun steps hsteps => ?_, nofun⟩
      obtain rfl := Option.some.inj hsteps
      exact ⟨nofun, by rw [hholder, List.append_nil], .inl rfl, rfl⟩
  | cons name names ih =>
      obtain ⟨r₁, h₁, hattribute, hrest⟩ := bind_eq_ok hrun
      obtain ⟨hnarrowed, hnew⟩ :=
        readAttribute_eq_ok (by rw [hholder]; rfl) hlawful (by rwa [hholder]) hattribute
      rw [route?_cons]
      cases hstep : (o.members.getters.get? name).bind Getter.step? with
      | none =>
          -- The rest of the path is read from an object of its own.
          refine ⟨nofun, fun _ => ?_⟩
          obtain ⟨hsize, hsame, hmade⟩ := hnew hstep
          have hkeeps := keeps_readPath (z := Zone.new (o.ended h).cells.size) hmade.1 names
          obtain ⟨hsize', hsame', hreach⟩ := hkeeps.extends hsize hrest
          exact ⟨hsize.trans hsize', hsame.trans hsame', hreach.1, hreach.2 hmade.2⟩
      | some s =>
          obtain ⟨⟨⟨part, hpart⟩, i, hi, rfl⟩, rfl⟩ := hnarrowed s hstep
          have hs := lawful_of_step hlawful hstep
          have hholder₁ : o.holder.part s = .view ⟨p.root, p.path ++ [s]⟩ guarded := by
            rw [hholder]
            rfl
          obtain ⟨hroute, hnone⟩ := ih (o := ⟨o.types, i, o.holder.part s⟩) hholder₁ hlawful
            (L.append (List.forall_mem_singleton.2 hs)) hrest
          have hended : Object.ended ⟨o.types, i, o.holder.part s⟩ h₁ = o.ended h₁ :=
            ended_eq_of_view (a := ⟨o.types, i, o.holder.part s⟩) hholder₁ hholder rfl h₁
          rw [hended] at hnone
          rw [Option.bind_some, hi, Option.bind_some]
          constructor
          · intro steps hsteps
            obtain ⟨steps', hsteps', hcons⟩ := Option.bind_eq_some_iff.1 hsteps
            obtain rfl := Option.some.inj hcons
            obtain ⟨L', hr, hread, rfl⟩ := hroute steps' hsteps'
            rw [List.append_assoc] at hr hread
            refine ⟨List.forall_mem_cons.2 ⟨hs, L'⟩, hr, .inr ?_, rfl⟩
            obtain rfl | hread := hread
            · obtain rfl : steps' = [] := (Option.some.inj hsteps').symm
              rw [hholder₁] at hpart
              exact ⟨part, hpart⟩
            · exact hread
          · intro hsteps
            refine hnone ?_
            cases hroute' : o.types.route? i names with
            | none => rfl
            | some steps => rw [hroute'] at hsteps; cases hsteps

/-! ### The first reference -/

/-- A reference to the object's value leaves the values as they are, and its end leaves the
object as free as it was, whatever has been written meanwhile. -/
theorem reborrow_eq_ok (hrun : o.reborrow.run h = (.ok lent, h')) :
    (∃ guarded, lent = o.withHolder (.view o.holder.place guarded)) ∧
      h'.cells.size = h.cells.size ∧ (∀ p, h'.read? p = h.read? p) ∧ lent.ended h' = h ∧
      (∀ v, lent.ended (h'.write o.holder.place v) = h.write o.holder.place v) ∧
      ∀ l, o.holder = .shared l → h.canWrite l = true := by
  rw [reborrow] at hrun
  cases hholder : o.holder with
  | owned l =>
      simp only [hholder] at hrun
      obtain ⟨rfl, rfl⟩ := pure_eq_ok hrun
      exact ⟨⟨false, rfl⟩, rfl, fun _ => rfl, rfl, fun _ => rfl, fun _ hl => by cases hl⟩
  | view p guarded =>
      simp only [hholder] at hrun
      obtain ⟨rfl, rfl⟩ := pure_eq_ok hrun
      exact ⟨⟨false, rfl⟩, rfl, fun _ => rfl, rfl, fun _ => rfl, fun _ hl => by cases hl⟩
  | shared l =>
      simp only [hholder] at hrun
      obtain ⟨h₀, h₁, hget, hrest⟩ := bind_eq_ok hrun
      obtain ⟨hh₀, rfl⟩ := finds_get.eq_ok hget
      obtain rfl := Option.some.inj hh₀
      split at hrest
      · next hwrite =>
        obtain ⟨_, h₂, hmodify, hpure⟩ := bind_eq_ok hrest
        obtain ⟨rfl, rfl⟩ := pure_eq_ok hpure
        obtain rfl : h₁.setWriter l true = h₂ := congrArg Prod.snd hmodify
        refine ⟨⟨true, rfl⟩, Array.size_modify, fun p => ?_, Heap.setWriter_setWriter hwrite,
          fun v => ?_, fun l' hl' => by cases hl'; exact hwrite⟩
        · rw [Heap.read?, Heap.read?, Heap.value?_setWriter]
        · rw [Heap.setWriter_write]
          exact Heap.setWriter_setWriter (by rwa [Heap.canWrite_write])
      · exact absurd hrest not_throw_eq_ok

/-- The object is a reference to the part at the end of the steps, reached by way of `lent`. -/
def Lent (o lent : Object U) (steps : List (Step U)) (h : Heap U) (r : Object U) : Prop :=
  LawfulPath steps ∧ ∃ guarded, lent.holder = .view o.holder.place guarded ∧
    r.holder = .view ⟨o.holder.place.root, o.holder.place.path ++ steps⟩ guarded ∧
    ∃ part, h.read? ⟨o.holder.place.root, o.holder.place.path ++ steps⟩ = some part

theorem reborrow_readPath_eq_ok {names : List String} (hlawful : o.types.Lawful)
    (L : LawfulPath o.holder.place.path) (hnames : names ≠ [])
    (hlent : o.reborrow.run h = (.ok lent, h₁))
    (hrun : (lent.readPath names).run h₁ = (.ok r, h')) :
    (∀ steps, o.types.route? o.index names = some steps → o.Lent lent steps h₁ r ∧ h' = h₁) ∧
      (o.types.route? o.index names = none → r.Detached h h') := by
  obtain ⟨⟨guarded, rfl⟩, hsize, hread, hended, hwritten, hfree⟩ := reborrow_eq_ok hlent
  obtain ⟨hroute, hnone⟩ := readPath_eq_ok (o := o.withHolder (.view o.holder.place guarded)) rfl
    hlawful L hrun
  refine ⟨fun steps hsteps => ?_, fun hsteps => hended ▸ hnone hsteps⟩
  obtain ⟨L', hr, hpart, rfl⟩ := hroute steps hsteps
  exact ⟨⟨L', guarded, rfl, hr, hpart.resolve_left hnames⟩, rfl⟩

end Object

end ChainScript.Script
