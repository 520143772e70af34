import ChainScript.Proofs.Heap.Paired
import ChainScript.Proofs.Object.Face

/-!
# Objects of registries that differ in their numbers

Two registries are twins where they have the same types in the same order, and each descriptor
belongs to the one just when its counterpart belongs to the other; only the numbers by which
registries are told apart may differ.  Objects of twins that stand at the same position and have
the same holder are twins too, and every operation does the same with both: it fails with the same
error, leaves the same heap, and yields the same values and twins again.

## Main definitions

* `Registry.Twin`, `Object.Twin` — registries that differ in their numbers, and objects of such.

## Main results

* `Object.Twin.copyValue`, `Object.Twin.set`, … — operations that yield no object are the same.
* `Object.Twin.agree_get`, `Object.Twin.agree_call`, … — the others yield twins.
-/

namespace ChainScript.Script

variable {U : Universe}

/-! ### Registries -/

namespace Registry

variable {r r' : Registry U}

/-- The types without numbers: whether a descriptor belongs to the registry is all that its owner
tells. -/
def unnumbered (r : Registry U) : Array (Face U × Bool) :=
  r.entries.map fun d => (d.face, decide (d.owner = r.id))

/-- The registries differ in their numbers only. -/
def Twin (r r' : Registry U) : Prop := r'.unnumbered = r.unnumbered

theorem Twin.refl (r : Registry U) : r.Twin r := Eq.refl r.unnumbered

/-- The same position in two registries. -/
def SamePlace (i : Fin r.entries.size) (i' : Fin r'.entries.size) : Prop := (i' : Nat) = i

theorem SamePlace.eq_some_iff {i? : Option (Fin r.entries.size)}
    {i?' : Option (Fin r'.entries.size)} {j : Fin r.entries.size} {j' : Fin r'.entries.size}
    (h : Option.Rel SamePlace i? i?') (hj : SamePlace j j') : i?' = some j' ↔ i? = some j := by
  cases h with
  | none => simp
  | some hi =>
      rw [Option.some.injEq, Option.some.injEq, Fin.ext_iff, Fin.ext_iff, hi, hj]

theorem Twin.entry (T : r.Twin r') {i : Fin r.entries.size} {i' : Fin r'.entries.size}
    (hi : SamePlace i i') : (r'.entry i').face = (r.entry i).face ∧
      ((r'.entry i').owner = r'.id ↔ (r.entry i).owner = r.id) := by
  have hentry : ∀ (r : Registry U) (i : Fin r.entries.size),
      r.unnumbered[(i : Nat)]? = some ((r.entry i).face, decide ((r.entry i).owner = r.id)) := by
    intro r i
    rw [unnumbered, Array.getElem?_map, Array.getElem?_eq_getElem i.2]
    rfl
  have hi : (i' : Nat) = i := hi
  have h := hentry r' i'
  rw [hi, T, hentry] at h
  obtain ⟨hface, howner⟩ := Prod.mk.inj (Option.some.inj h)
  exact ⟨hface.symm, (decide_eq_decide.1 howner).symm⟩

/-- Look-ups find the same positions. -/
theorem Twin.findFinIdx? (T : r.Twin r') (p : Face U → Bool) :
    Option.Rel SamePlace (r.entries.findFinIdx? (p ·.face))
      (r'.entries.findFinIdx? (p ·.face)) := by
  have hplain : ∀ r : Registry U,
      (r.entries.findFinIdx? (p ·.face)).map Fin.val = r.unnumbered.findIdx? (p ·.1) := by
    intro r
    rw [unnumbered, Array.findIdx?_map, ← Array.findIdx?_eq_map_findFinIdx?_val]
    rfl
  have h := (hplain r').trans ((congrArg _ T).trans (hplain r).symm)
  revert h
  cases r.entries.findFinIdx? (p ·.face) <;> cases r'.entries.findFinIdx? (p ·.face) <;> intro h
  · exact .none
  · cases h
  · cases h
  · exact .some (Option.some.inj h)

theorem Twin.indexOf? (T : r.Twin r') (k : Kind U) :
    Option.Rel SamePlace (r.indexOf? k) (r'.indexOf? k) :=
  T.findFinIdx? (·.kind = k)

theorem Twin.indexOfName? (T : r.Twin r') (name : String) :
    Option.Rel SamePlace (r.indexOfName? name) (r'.indexOfName? name) :=
  T.findFinIdx? (·.name == name)

/-- Messages name a kind in the same way. -/
theorem Twin.label (T : r.Twin r') (k : Kind U) : r'.label k = r.label k := by
  have h := T.indexOf? k
  rw [Registry.label, Registry.label, find?, find?]
  generalize r.indexOf? k = i? at h ⊢
  generalize r'.indexOf? k = i?' at h ⊢
  cases h with
  | none => rfl
  | some hi => exact congrArg (fun f : Face U => Label.named f.name) (T.entry hi).1

end Registry

/-! ### Objects -/

/-- The objects differ in the numbers of their registries only. -/
structure Object.Twin (o o' : Object U) : Prop where
  types : o.types.Twin o'.types
  index : Registry.SamePlace o.index o'.index
  holder : o'.holder = o.holder

namespace Registry.Twin

variable {r r' : Registry U} (T : r.Twin r')

include T

theorem agree_wrap (x : Holder U) (k : Kind U) :
    Agree Object.Twin (r.wrap x k) (r'.wrap x k) := by
  have h := T.indexOf? k
  rw [wrap, wrap]
  generalize r.indexOf? k = i? at h ⊢
  generalize r'.indexOf? k = i?' at h ⊢
  cases h with
  | none => exact .throw _
  | some hi => exact .pure ⟨T, hi, rfl⟩

/-- New objects with one holder. -/
theorem agree_hold {i : Fin r.entries.size} {i' : Fin r'.entries.size} (hi : SamePlace i i')
    (policy : Policy) (v : Value U) :
    Agree Object.Twin (do return (⟨r, i, ← hold policy v⟩ : Object U))
      (do return (⟨r', i', ← hold policy v⟩ : Object U)) :=
  (Agree.refl _).bind fun _ _ heq => .pure ⟨T, hi, heq.symm⟩

theorem agree_wrapNew (policy : Policy) (v : Value U) :
    Agree Object.Twin (r.wrapNew policy v) (r'.wrapNew policy v) := by
  have h := T.indexOf? v.kind
  rw [wrapNew, wrapNew]
  generalize r.indexOf? v.kind = i? at h ⊢
  generalize r'.indexOf? v.kind = i?' at h ⊢
  cases h with
  | none => exact .throw _
  | some hi => exact T.agree_hold hi policy v

theorem agree_bind (cell : Loc) (v : Value U) (policy : Policy) :
    Agree Object.Twin (r.bind cell v policy) (r'.bind cell v policy) := by
  cases policy with
  | copy => exact T.agree_wrapNew .copy v
  | share => exact T.agree_wrapNew .share v
  | wrapReference => exact T.agree_wrap _ v.kind

end Registry.Twin

/-! ### Operations by descriptor -/

namespace Face

variable {r r' : Registry U} (T : r.Twin r') (f : Face U) (x : Holder U)

include T

theorem agree_narrow (ret : Kind U) (lens : Lens f.kind.Carrier ret.Carrier) :
    Agree Object.Twin (f.narrow x r ret lens) (f.narrow x r' ret lens) :=
  (Agree.refl _).bind fun _ _ _ => T.agree_wrap _ ret

theorem agree_readGetter (name : String) (getter : Getter f.kind) :
    Agree Object.Twin (f.readGetter x r name getter) (f.readGetter x r' name getter) := by
  cases getter with
  | computed ret policy read =>
      exact Agree.after_check
        ((Agree.refl _).bind fun _ _ heq => heq ▸ T.agree_wrapNew policy _) _ _
  | field ret policy lens =>
      rw [readGetter, readGetter]
      split
      · exact agree_narrow T f x ret lens
      · exact (Agree.refl _).bind fun _ _ heq => heq ▸ T.agree_wrapNew policy _

theorem agree_readFallback (name : String) (g : FallbackGetter f.kind) :
    Agree Object.Twin (f.readFallback x r name g) (f.readFallback x r' name g) := by
  refine Agree.after_check ((Agree.refl (f.read x)).bind fun v _ heq => ?_) _ _
  subst heq
  cases (v.as? f.kind).bind (g.read · name) with
  | some v => exact T.agree_wrapNew g.policy _
  | none => exact .throw _

theorem agree_readAttribute (name : String) :
    Agree Object.Twin (f.readAttribute x r name) (f.readAttribute x r' name) := by
  rw [readAttribute, readAttribute]
  cases f.members.getters.get? name with
  | some getter => exact agree_readGetter T f x name getter
  | none =>
      cases f.members.fallbackGetter with
      | some g => exact agree_readFallback T f x name g
      | none => exact .throw _

theorem convertValue_twin (k : Kind U) : f.convertValue x r' k = f.convertValue x r k := by
  rw [convertValue, convertValue, T.label]

theorem set_twin (name : String) (g : Face U) (y : Holder U) :
    f.set x r' name g y = f.set x r name g y := by
  simp only [set, T.label]

theorem setConverted_twin (name : String) (g : Face U) (y : Holder U) :
    f.setConverted x r' name g y = f.setConverted x r name g y := by
  simp only [setConverted, implicitInto, T.label]

end Face

/-! ### Operations on objects -/

namespace Object.Twin

variable {o o' v v' : Object U} (T : o.Twin o')

include T

theorem face : o'.face = o.face := (T.types.entry T.index).1

theorem kind : o'.kind = o.kind := congrArg Face.kind T.face

theorem typeName : o'.typeName = o.typeName := congrArg Face.name T.face

theorem is (k : Kind U) : o'.is k = o.is k := by rw [Object.is, Object.is, T.kind]

theorem mode : o'.mode = o.mode := congrArg Holder.mode T.holder

theorem withHolder (x : Holder U) : (o.withHolder x).Twin (o'.withHolder x) :=
  ⟨T.types, T.index, rfl⟩

theorem ended (h : Heap U) : o'.ended h = o.ended h := by
  rw [Object.ended, Object.ended, T.holder]

theorem release : o'.release = o.release := by
  rw [Object.release, Object.release, funext T.ended]

theorem read : o'.read = o.read := by
  rw [Object.read, Object.read, T.holder, T.typeName]

theorem replace (w : Value U) : o'.replace w = o.replace w := by
  rw [Object.replace, Object.replace, T.holder]

theorem copyValue : o'.copyValue = o.copyValue := by
  rw [copyValue_eq_face, copyValue_eq_face, T.face, T.holder]

theorem display (h : Heap U) : o'.display h = o.display h := by
  rw [display_eq_face, display_eq_face, T.face, T.holder]

theorem shown (h : Heap U) : o'.shown h = o.shown h := by
  unfold Object.shown
  rw [T.typeName, T.mode, T.display]

theorem mismatch (k : Kind U) : o'.mismatch k = o.mismatch k := by
  rw [Object.mismatch, Object.mismatch, T.types.label, T.typeName]

/-! ### Reading -/

theorem agree_reborrow : Agree Object.Twin o.reborrow o'.reborrow := by
  rw [reborrow, reborrow, T.holder]
  split
  · exact .pure (T.withHolder _)
  · refine (Agree.refl MonadState.get).bind fun h _ heq => ?_
    subst heq
    rw [T.typeName]
    split
    · exact (Agree.refl _).bind fun _ _ _ => .pure (T.withHolder _)
    · exact .throw _
  · exact .pure (T.withHolder _)

theorem agree_passOn {next next' : Run U (Object U)} (hnext : Agree Object.Twin next next') :
    Agree Object.Twin (o.passOn next) (o'.passOn next') := by
  rw [passOn, passOn, T.release]
  refine (hnext.tryCatch fun e => (Agree.refl _).bind fun _ _ _ => .throw e).bind fun a b hab => ?_
  rw [hab.holder]
  split
  · exact .pure hab
  · exact (Agree.refl _).bind fun _ _ _ => .pure hab

theorem agree_readAttribute (name : String) :
    Agree Object.Twin (o.readAttribute name) (o'.readAttribute name) := by
  rw [readAttribute_eq_face, readAttribute_eq_face, T.face, T.holder]
  exact T.agree_passOn (Face.agree_readAttribute T.types _ _ name)

omit T in
theorem agree_readPath (T : o.Twin o') (path : List String) :
    Agree Object.Twin (o.readPath path) (o'.readPath path) := by
  induction path generalizing o o' with
  | nil => exact .pure T
  | cons name path ih =>
      rw [readPath, readPath]
      exact (T.agree_readAttribute name).bind fun _ _ hab => ih hab

theorem agree_get (path : List String) : Agree Object.Twin (o.get path) (o'.get path) := by
  rw [get, get, T.typeName]
  exact Agree.after_check (T.agree_reborrow.bind fun _ _ hab => hab.agree_readPath path) _ _

theorem agree_getPath (path : String) :
    Agree Object.Twin (o.getPath path) (o'.getPath path) := by
  rw [getPath, getPath, T.typeName]
  split
  · exact .throw _
  · exact T.agree_get _

theorem agree_callRef (name : String) : Agree Object.Twin (o.callRef name) (o'.callRef name) := by
  rw [callRef_eq_face, callRef_eq_face, T.face]
  refine (Agree.refl (o.face.reference name)).bind fun m _ heq => ?_
  subst heq
  refine T.agree_reborrow.bind fun lent lent' hlent => hlent.agree_passOn ?_
  rw [hlent.holder]
  exact Face.agree_narrow T.types _ _ m.ret m.lens

/-! ### Writing -/

theorem set (V : v.Twin v') (name : String) : o'.set name v' = o.set name v := by
  rw [set_eq_face, set_eq_face, T.face, T.holder, V.face, V.holder]
  exact Face.set_twin T.types _ _ name _ _

theorem setConverted (V : v.Twin v') (name : String) :
    o'.setConverted name v' = o.setConverted name v := by
  rw [setConverted_eq_face, setConverted_eq_face, T.face, T.holder, V.face, V.holder]
  exact Face.setConverted_twin T.types _ _ name _ _

/-! ### Conversions -/

theorem cast (k : Kind U) : o'.cast k = o.cast k := by
  rw [Object.cast, Object.cast, T.is, T.mismatch, T.read]

theorem convertValue (k : Kind U) : o'.convertValue k = o.convertValue k := by
  rw [convertValue_eq_face, convertValue_eq_face, T.face, T.holder]
  exact Face.convertValue_twin T.types _ _ k

theorem convertedCast (k : Kind U) : o'.convertedCast k = o.convertedCast k := by
  rw [Object.convertedCast, Object.convertedCast, T.is, T.cast, T.convertValue, T.mismatch]

theorem intoInner (k : Kind U) : o'.intoInner k = o.intoInner k := by
  rw [Object.intoInner, Object.intoInner, T.cast, T.release]

theorem agree_convertTo (k : Kind U) :
    Agree Object.Twin (o.convertTo k) (o'.convertTo k) := by
  refine (agree_orThrow (T.types.indexOf? k) _).bind fun i i' hi => ?_
  rw [T.is, T.copyValue, T.convertValue]
  dsimp only
  split
  · exact (Agree.refl _).bind fun _ _ heq => heq ▸ T.types.agree_hold hi .copy _
  · exact (Agree.refl _).bind fun _ _ heq => heq ▸ T.types.agree_hold hi .copy _

theorem agree_copy : Agree Object.Twin o.copy o'.copy := by
  rw [copy, copy, T.copyValue]
  refine (Agree.refl _).bind fun w _ heq => ?_
  subst heq
  exact (Agree.refl _).bind fun x _ heq => heq ▸ .pure (T.withHolder x)

theorem shareHandle : Option.Rel Object.Twin o.shareHandle o'.shareHandle := by
  rw [Object.shareHandle, Object.shareHandle, T.holder]
  split
  · exact .some T
  · exact .none

/-! ### Calls -/

omit T in
/-- Arguments that are twins have the same kinds and values. -/
theorem arguments {args args' : List (Object U)} (A : List.Forall₂ Object.Twin args args') :
    args'.map (·.kind) = args.map (·.kind) ∧
      args'.mapM Object.copyValue = args.mapM Object.copyValue := by
  induction A with
  | nil => exact ⟨rfl, rfl⟩
  | cons T _ ih => simp only [List.map_cons, List.mapM_cons, T.kind, T.copyValue, ih, true_and]

omit T in
theorem select {α : Type} {params : α → List (Kind U)} {args args' : List (Object U)}
    (A : List.Forall₂ Object.Twin args args') (bucket : List α) (type member : String) :
    select params bucket args' type member = select params bucket args type member := by
  rw [Script.select, Script.select, (arguments A).1, A.length_eq]

theorem agree_call (name : String) {args args' : List (Object U)}
    (A : List.Forall₂ Object.Twin args args') :
    Agree Object.Twin (o.call name args) (o'.call name args') := by
  rw [call_eq_face, call_eq_face, T.face, T.holder, Face.call, Face.call, (arguments A).2]
  refine (Agree.refl _).bind fun bucket _ heq => ?_
  subst heq
  rw [select A]
  refine (Agree.refl (Script.select _ _ _ _ _)).bind fun m _ heq => ?_
  subst heq
  refine Agree.after_check ((Agree.refl _).bind fun values _ heq => ?_) _ _
  subst heq
  exact (Agree.refl _).bind fun _ _ heq => heq ▸ T.types.agree_wrapNew m.policy _

end Object.Twin

namespace Registry.Twin

variable {r r' : Registry U} (T : r.Twin r') {args args' : List (Object U)}
  (A : List.Forall₂ Object.Twin args args')

include T A

theorem agree_constructAt {i : Fin r.entries.size} {i' : Fin r'.entries.size}
    (hi : SamePlace i i') : Agree Object.Twin (r.constructAt i args) (r'.constructAt i' args') := by
  rw [constructAt_eq_face, constructAt_eq_face, (T.entry hi).1, Face.construct, Face.construct,
    Object.Twin.select A, (Object.Twin.arguments A).2]
  refine Agree.after_check ((Agree.refl _).bind fun c _ heq => ?_) _ _
  subst heq
  refine Agree.after_check ((Agree.refl _).bind fun values _ heq => ?_) _ _
  subst heq
  refine (Agree.refl _).bind fun given _ heq => ?_
  subst heq
  exact T.agree_hold hi c.policy _

theorem agree_construct (k : Kind U) :
    Agree Object.Twin (r.construct k args) (r'.construct k args') :=
  (agree_orThrow (T.indexOf? k) _).bind fun _ _ hi => T.agree_constructAt A hi

theorem agree_constructNamed (name : String) :
    Agree Object.Twin (r.constructNamed name args) (r'.constructNamed name args') :=
  (agree_orThrow (T.indexOfName? name) _).bind fun _ _ hi => T.agree_constructAt A hi

end Registry.Twin

/-! ### Visits and items -/

/-- Items of twins. -/
structure Elements.Twin {r r' : Registry U} (e : Elements r) (e' : Elements r') : Prop where
  types : r.Twin r'
  index : Registry.SamePlace e.index e'.index
  policy : e'.policy = e.policy
  values : e'.values = e.values

theorem Elements.Twin.agree_object {r r' : Registry U} {e : Elements r} {e' : Elements r'}
    (E : e.Twin e') (v : Value U) : Agree Object.Twin (e.object v) (e'.object v) := by
  rw [object, object, E.policy]
  exact E.types.agree_hold E.index e.policy v

namespace Object.Twin

variable {o o' : Object U} (T : o.Twin o')

include T

theorem enter (access : Access) (h : Heap U) : o'.enter access h = o.enter access h := by
  simp only [Object.enter, T.holder]

theorem leave (access : Access) (h : Heap U) : o'.leave access h = o.leave access h := by
  simp only [Object.leave, T.holder]

theorem edit : o'.edit = o.edit := by
  rw [Object.edit, Object.edit, T.holder, T.typeName]

theorem visit (k : Kind U) (access : Access) : o'.visit k access = o.visit k access := by
  rw [Object.visit, Object.visit, T.is, T.mismatch, T.read, T.edit, funext (T.enter access)]

theorem agree_elements : Agree Elements.Twin o.elements o'.elements := by
  rw [elements_eq_face, elements_eq_face, T.face, T.holder, Face.elements, Face.elements]
  refine (Agree.refl _).bind fun it _ heq => ?_
  subst heq
  refine Agree.after_check ((agree_orThrow (T.types.indexOf? it.item) _).bind fun i i' hi => ?_) _ _
  exact (Agree.refl _).bind fun _ _ heq => .pure ⟨T.types, hi, rfl, heq ▸ rfl⟩

theorem agree_items : Agree (List.Forall₂ Object.Twin) o.items o'.items := by
  refine T.agree_elements.bind fun e e' E => ?_
  rw [E.values]
  exact PairedOk.mapM (List.forall₂_same.2 fun _ _ => rfl) fun v _ heq => heq ▸ E.agree_object v

/-- Whether an object is as it should be does not depend on numbers. -/
theorem isConsistent (h : Heap U) : o'.isConsistent h = o.isConsistent h := by
  have howner : o'.desc.owner = o'.types.id ↔ o.desc.owner = o.types.id :=
    (T.types.entry T.index).2
  have hindex := Registry.SamePlace.eq_some_iff (T.types.indexOf? o.kind) T.index
  unfold Object.isConsistent
  rw [T.kind, T.holder, decide_eq_decide.2 hindex, decide_eq_decide.2 howner]

end Object.Twin

end ChainScript.Script
