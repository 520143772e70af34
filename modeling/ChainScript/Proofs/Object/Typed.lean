import ChainScript.Proofs.Heap.Typed
import ChainScript.Proofs.Registry.Searched
import ChainScript.Script.Object.Inspect

/-!
# Objects hold values of their kind

An object is sound if its registry is one that changes of a catalog make, and its place holds a
value of the kind that its descriptor describes.  Every operation keeps the kinds of all cells,
yields sound objects from sound ones, and so never comes upon a value of another kind.

## Main definitions

* `Registry.Built`, `Object.Sound` — registries and objects as they should be.

## Main results

* `Object.Sound.isConsistent` — sound objects pass the check for consistency.
* `Object.Sound.typed_get`, `Object.Sound.typed_call`, `Object.Sound.typed_set` and others —
  operations.
-/

namespace ChainScript.Script

variable {U : Universe}

open Run

/-! ### Sound registries and objects -/

/-- Changes of a catalog make the registry. -/
def Registry.Built (r : Registry U) : Prop := ∃ c : Catalog U, c.Reachable ∧ c.toRegistry = r

/-- Every kind is found where its descriptor stands. -/
theorem Registry.Built.indexOf?_kind {r : Registry U} (B : r.Built) (i : Fin r.entries.size) :
    r.indexOf? (r.entry i).kind = some i := by
  obtain ⟨c, hc, rfl⟩ := B
  rw [hc.indexed.indexOf?_eq]
  exact hc.indexed.locate?_eq_some_iff.2 rfl

/-- The registry owns its descriptors. -/
theorem Registry.Built.owner_entry {r : Registry U} (B : r.Built) (i : Fin r.entries.size) :
    (r.entry i).owner = r.id := by
  obtain ⟨c, hc, rfl⟩ := B
  exact hc.indexed.owner _ (Array.getElem_mem i.2)

theorem Registry.kind_of_indexOf? {r : Registry U} {k : Kind U} {i : Fin r.entries.size}
    (h : r.indexOf? k = some i) : (r.entry i).kind = k :=
  of_decide_eq_true (Array.findFinIdx?_eq_some_iff.1 h).1

/-- Changes make the object's registry, and its place holds a value of its kind. -/
structure Object.Sound (h : Heap U) (o : Object U) : Prop where
  types : o.types.Built
  holds : h.Holds o.holder.place o.kind

/-- An object of such a registry at a place that holds a value of its kind. -/
theorem Registry.Built.sound_mk {r : Registry U} (B : r.Built) {i : Fin r.entries.size}
    {holder : Holder U} {h : Heap U} {k : Kind U} (hi : (r.entry i).kind = k)
    (H : h.Holds holder.place k) : Object.Sound h ⟨r, i, holder⟩ := by
  subst hi
  exact ⟨B, H⟩

theorem Object.Sound.mono {h h' : Heap U} {o : Object U} (S : o.Sound h) (K : h.KeepsKinds h') :
    o.Sound h' :=
  ⟨S.types, S.holds.mono K⟩

/-- A value that is read through a holder is of the kind that its place holds. -/
theorem kind_of_read?_eq {h : Heap U} {p : Place U} {k : Kind U} {v : Value U} (H : h.Holds p k)
    (hv : h.read? p = some v) : v.kind = k := by
  obtain ⟨w, hw, hkind⟩ := H.exists_read?
  exact Option.some.inj (hv.symm.trans hw) ▸ hkind

namespace Object

variable {o : Object U} {h : Heap U}

theorem Sound.kind_of_read? (S : o.Sound h) {v : Value U} (hv : o.holder.read? h = some v) :
    v.kind = o.kind := by
  refine kind_of_read?_eq S.holds ?_
  unfold Holder.read? at hv
  split at hv
  · next l hholder =>
    split at hv
    · rw [hholder, Heap.read?, Holder.place, hv]
      rfl
    · cases hv
  · exact hv

theorem Sound.kind_of_edit? (S : o.Sound h) {v : Value U} (hv : o.holder.edit? h = some v) :
    v.kind = o.kind :=
  kind_of_read?_eq S.holds (read?_of_edit? hv)

/-- **A sound object is consistent.** -/
theorem Sound.isConsistent (S : o.Sound h) : o.isConsistent h = true := by
  have howner : o.desc.owner = o.types.id := S.types.owner_entry o.index
  have hindex : o.types.indexOf? o.kind = some o.index := S.types.indexOf?_kind o.index
  have hvalue : (o.holder.read? h).all (·.kind = o.kind) = true := by
    cases hv : o.holder.read? h with
    | none => rfl
    | some v => simpa using S.kind_of_read? hv
  rw [Object.isConsistent, decide_eq_true howner, decide_eq_true hindex, hvalue]
  rfl

/-- The same type at another place that holds a value of its kind. -/
theorem Sound.withHolder (S : o.Sound h) {holder : Holder U} (H : h.Holds holder.place o.kind) :
    (o.withHolder holder).Sound h :=
  ⟨S.types, H⟩

end Object

/-! ### New objects -/

section New

variable {h : Heap U} {r : Registry U} {k : Kind U} {v : Value U}

theorem Registry.typed_hold (policy : Policy) (v : Value U) :
    Typed h (hold policy v) fun h' holder => h'.Holds holder.place v.kind := by
  refine (typed_alloc v).bind fun l h' _ hl => ?_
  cases policy with
  | share | copy | wrapReference => exact typed_pure (Heap.holds_cell hl)

/-- A value of the kind of a descriptor makes a sound object. -/
theorem Registry.Built.typed_made (B : r.Built) {i : Fin r.entries.size}
    (hi : (r.entry i).kind = v.kind) (policy : Policy) :
    Typed h (do return ⟨r, i, ← Registry.hold policy v⟩) fun h' o => Object.Sound h' o :=
  (Registry.typed_hold policy v).bind fun _ _ _ H => typed_pure (B.sound_mk hi H)

theorem Registry.Built.typed_wrapNew (B : r.Built) (policy : Policy) (v : Value U) :
    Typed h (r.wrapNew policy v) fun h' o => o.Sound h' := by
  rw [wrapNew]
  split
  · next hi => exact B.typed_made (kind_of_indexOf? hi) policy
  · exact typed_throw rfl

theorem Registry.Built.typed_wrap (B : r.Built) {holder : Holder U} (H : h.Holds holder.place k) :
    Typed h (r.wrap holder k) fun h' o => o.Sound h' := by
  rw [wrap]
  split
  · next hi => exact typed_pure (B.sound_mk (kind_of_indexOf? hi) H)
  · exact typed_throw rfl

theorem Registry.Built.typed_reference (B : r.Built) {l : Loc} (hl : h.value? l = some v) :
    Typed h (r.reference l v.kind) fun h' o => o.Sound h' :=
  B.typed_wrap (Heap.holds_cell hl)

theorem Registry.Built.typed_bind (B : r.Built) {l : Loc} (hl : h.value? l = some v)
    (policy : Policy) : Typed h (r.bind l v policy) fun h' o => o.Sound h' := by
  cases policy with
  | copy => exact B.typed_wrapNew .copy v
  | wrapReference => exact B.typed_reference hl
  | share => exact B.typed_wrapNew .share v

end New

namespace Object

variable {o : Object U} {h : Heap U}

/-! ### Reading -/

theorem Sound.typed_read (S : o.Sound h) : Typed h o.read fun _ v => v.kind = o.kind := by
  refine typed_get.bind fun h₁ h' K hget => ?_
  subst hget
  exact typed_orThrow (fun v hv => (S.mono K).kind_of_read? hv) fun _ => rfl

theorem Sound.typed_edit (S : o.Sound h) : Typed h o.edit fun _ v => v.kind = o.kind := by
  refine typed_get.bind fun h₁ h' K hget => ?_
  subst hget
  exact typed_orThrow (fun v hv => (S.mono K).kind_of_edit? hv) fun _ => rfl

theorem typed_contentOf {v : Value U} (hv : v.kind = o.kind) :
    Typed h (o.contentOf v) fun _ _ => True :=
  typed_orThrow (fun _ _ => trivial) fun hnone => by
    rw [← Value.as?_isSome_iff, hnone] at hv
    cases hv

theorem Sound.typed_content (S : o.Sound h) : Typed h o.content fun _ _ => True :=
  S.typed_read.bind fun _ _ _ hv => typed_contentOf hv

theorem Sound.typed_copyValue (S : o.Sound h) : Typed h o.copyValue fun _ v => v.kind = o.kind :=
  S.typed_content.bind fun _ _ _ _ => typed_pure rfl

theorem Sound.typed_replace (S : o.Sound h) (x : o.kind.Carrier) :
    Typed h (o.replace ⟨o.kind, x⟩) fun _ _ => True :=
  typed_modify (Heap.keepsKinds_write S.holds rfl)

theorem Sound.typed_touch (S : o.Sound h) {ret : Kind U}
    (lens : Lens o.kind.Carrier ret.Carrier) : Typed h (o.touch lens) fun _ _ => True := by
  refine S.typed_edit.bind fun v h₁ K₁ hv => ?_
  refine (typed_contentOf hv).bind fun x h₂ K₂ _ => ?_
  refine ((S.mono (K₁.trans K₂)).typed_replace _).bind fun _ _ _ _ => typed_pure trivial

/-! ### Reaching -/

theorem keepsKinds_ended (o : Object U) (h : Heap U) : h.KeepsKinds (o.ended h) := by
  rw [ended]
  split
  · exact h.keepsKinds_setWriter _ false
  · exact .refl h

theorem typed_release (o : Object U) : Typed h o.release fun _ _ => True :=
  typed_modify (o.keepsKinds_ended h)

theorem typed_passOn {next : Run U (Object U)} (hnext : Typed h next fun h' r => r.Sound h') :
    Typed h (o.passOn next) fun h' r => r.Sound h' := by
  refine (hnext.tryCatch fun e h' _ he => ?_).bind fun r h₁ _ hr => ?_
  · exact (typed_release o).bind fun _ _ _ _ => typed_throw he
  · split
    · exact typed_pure hr
    · exact (typed_release o).bind fun _ _ K _ => typed_pure (hr.mono K)

theorem Sound.typed_narrow (S : o.Sound h) (ret : Kind U)
    (lens : Lens o.kind.Carrier ret.Carrier) :
    Typed h (o.narrow ret lens) fun h' r => r.Sound h' := by
  refine ((S.typed_touch lens).map (R := fun _ _ => True) fun _ _ _ _ => trivial).bind
    fun _ h₁ K₁ _ => S.types.typed_wrap ?_
  rw [place_part]
  exact (S.mono K₁).holds.part

theorem Sound.typed_readGetter (S : o.Sound h) (name : String) (getter : Getter o.kind) :
    Typed h (o.readGetter name getter) fun h' r => r.Sound h' := by
  cases getter with
  | computed ret policy read =>
      rw [readGetter]
      split
      · exact typed_refuse rfl
      · exact S.typed_content.bind fun _ _ _ _ => S.types.typed_wrapNew policy _
  | field ret policy lens =>
      rw [readGetter]
      split
      · exact S.typed_narrow ret lens
      · exact (S.typed_touch lens).bind fun _ _ _ _ => S.types.typed_wrapNew policy _

theorem Sound.typed_readFallback (S : o.Sound h) (name : String) (f : FallbackGetter o.kind) :
    Typed h (o.readFallback name f) fun h' r => r.Sound h' := by
  rw [readFallback]
  split
  · exact typed_refuse rfl
  · refine S.typed_read.bind fun v _ _ _ => ?_
    split
    · exact S.types.typed_wrapNew f.policy _
    · exact typed_throw rfl

theorem Sound.typed_readAttribute (S : o.Sound h) (name : String) :
    Typed h (o.readAttribute name) fun h' r => r.Sound h' := by
  refine typed_passOn ?_
  split
  · exact S.typed_readGetter name _
  · exact S.typed_readFallback name _
  · exact typed_throw rfl

theorem Sound.typed_readPath (S : o.Sound h) (path : List String) :
    Typed h (o.readPath path) fun h' r => r.Sound h' := by
  induction path generalizing o h with
  | nil => exact typed_pure S
  | cons name path ih =>
      rw [readPath]
      exact (S.typed_readAttribute name).bind fun r h₁ _ hr => ih hr

/-- A reference to the object's value is at a place that holds a value of its kind. -/
theorem Sound.typed_reborrow (S : o.Sound h) :
    Typed h o.reborrow fun h' lent => ∃ holder, lent = o.withHolder holder ∧
      h'.Holds holder.place o.kind := by
  have H := S.holds
  rw [reborrow]
  cases hholder : o.holder with
  | owned l =>
      rw [hholder] at H
      exact typed_pure ⟨_, rfl, H⟩
  | shared l =>
      rw [hholder] at H
      refine typed_get.bind fun _ h₁ K₁ _ => ?_
      split
      · refine (typed_modify (h₁.keepsKinds_setWriter l true)).bind fun _ h₂ K₂ _ => ?_
        exact typed_pure ⟨_, rfl, H.mono (K₁.trans K₂)⟩
      · exact typed_throw rfl
  | view p guarded =>
      rw [hholder] at H
      exact typed_pure ⟨_, rfl, H⟩

theorem Sound.typed_get (S : o.Sound h) (path : List String) :
    Typed h (o.get path) fun h' r => r.Sound h' := by
  rw [get]
  split
  · exact typed_refuse rfl
  · refine S.typed_reborrow.bind fun lent h₁ K₁ hlent => ?_
    obtain ⟨holder, rfl, H⟩ := hlent
    exact ((S.mono K₁).withHolder H).typed_readPath path

theorem Sound.typed_getPath (S : o.Sound h) (path : String) :
    Typed h (o.getPath path) fun h' r => r.Sound h' := by
  rw [getPath]
  split
  · exact typed_throw rfl
  · exact S.typed_get _

theorem Sound.typed_callRef (S : o.Sound h) (name : String) :
    Typed h (o.callRef name) fun h' r => r.Sound h' := by
  refine .bind (typed_found rfl) fun f h₁ K₁ _ => ?_
  refine (S.mono K₁).typed_reborrow.bind fun lent h₂ K₂ hlent => ?_
  obtain ⟨holder, rfl, H⟩ := hlent
  exact typed_passOn ((((S.mono K₁).mono K₂).withHolder H).typed_narrow f.ret f.lens)

/-! ### Writing -/

theorem typed_target (o : Object U) (name : String) :
    Typed h (o.target name) fun _ _ => True := by
  rw [target]
  split
  · exact typed_pure trivial
  · exact typed_pure trivial
  · exact typed_throw rfl

/-- A value of the kind that is written can be. -/
theorem Sound.typed_write (S : o.Sound h) (name : String) {v : Value U} {target : Target o.kind}
    (hv : v.kind = target.arg) : Typed h (o.write name v target) fun _ _ => True := by
  obtain ⟨y, hy⟩ := Option.isSome_iff_exists.1 (Value.as?_isSome_iff.2 hv)
  cases target with
  | setter s =>
      refine S.typed_edit.bind fun w h₁ K₁ hw => ?_
      obtain ⟨x, hx⟩ := Option.isSome_iff_exists.1 (Value.as?_isSome_iff.2 hw)
      have hy : v.as? s.arg = some y := hy
      simp only [hx, hy]
      exact (S.mono K₁).typed_replace _
  | fallback f =>
      refine S.typed_edit.bind fun w h₁ K₁ hw => ?_
      split
      · refine ((S.mono K₁).typed_replace _).bind fun _ _ _ _ => ?_
        split
        · exact typed_pure trivial
        · exact typed_throw rfl
      · exact typed_throw rfl

/-- A value that is converted to a kind is of that kind. -/
theorem target_of_converter? {k target : Kind U} {m : Members k} {c : Converter k}
    (hc : m.converter? target = some c) : c.target = target := by
  rw [Members.converter?] at hc
  simpa using List.find?_some hc

theorem Sound.typed_implicitInto (S : o.Sound h) (k : Kind U) (types : Registry U) :
    Typed h (o.implicitInto k types) fun _ v => v.kind = k := by
  rw [implicitInto]
  split
  · next c hc =>
    have hc := target_of_converter? (Option.eq_some_of_filter_eq_some hc)
    exact S.typed_content.bind fun _ _ _ _ => typed_pure hc
  · exact typed_throw rfl

variable {value : Object U}

theorem Sound.typed_set (S : o.Sound h) (name : String) (V : value.Sound h) :
    Typed h (o.set name value) fun _ _ => True := by
  refine (o.typed_target name).bind fun target h₁ K₁ _ => ?_
  split
  · next his =>
    refine (V.mono K₁).typed_copyValue.bind fun v h₂ K₂ hv => ?_
    exact ((S.mono K₁).mono K₂).typed_write name (hv.trans (of_decide_eq_true his))
  · exact typed_refuse rfl

theorem Sound.typed_setConverted (S : o.Sound h) (name : String) (V : value.Sound h) :
    Typed h (o.setConverted name value) fun _ _ => True := by
  refine (o.typed_target name).bind fun target h₁ K₁ _ => ?_
  split
  · next his =>
    refine (V.mono K₁).typed_copyValue.bind fun v h₂ K₂ hv => ?_
    exact ((S.mono K₁).mono K₂).typed_write name (hv.trans (of_decide_eq_true his))
  · refine ((V.mono K₁).typed_implicitInto _ _).bind fun v h₂ K₂ hv => ?_
    exact ((S.mono K₁).mono K₂).typed_write name hv

/-! ### Calling -/

/-- Contents can be taken of values that are of the kinds asked for. -/
theorem exists_ofValues? {ks : List (Kind U)} {vs : List (Value U)} (h : vs.map (·.kind) = ks) :
    ∃ given, Args.ofValues? ks vs = some given := by
  induction vs generalizing ks with
  | nil =>
      subst h
      exact ⟨(), rfl⟩
  | cons v vs ih =>
      subst h
      obtain ⟨k, x⟩ := v
      obtain ⟨rest, hrest⟩ := ih rfl
      refine ⟨(x, rest), ?_⟩
      change Args.ofValues? (k :: vs.map (·.kind)) (⟨k, x⟩ :: vs) = _
      rw [Args.ofValues?, Value.as?_mk, hrest]
      rfl

theorem typed_given {ks : List (Kind U)} {vs : List (Value U)} (hvs : vs.map (·.kind) = ks)
    (e : ScriptError U) : Typed h (orThrow (Args.ofValues? ks vs) e) fun _ _ => True := by
  obtain ⟨given, hgiven⟩ := exists_ofValues? hvs
  rw [hgiven]
  exact typed_pure trivial

/-- The kinds of the arguments are those of the parameters. -/
theorem typed_select {α : Type} (params : α → List (Kind U)) (bucket : List α)
    (args : List (Object U)) (type member : String) :
    Typed h (select params bucket args type member) fun _ f => args.map (·.kind) = params f := by
  refine .mono (typed_found rfl) fun f _ _ hf => ?_
  rw [selectOverload] at hf
  have hparams : params f = args.map (·.kind) := by simpa using List.find?_some hf
  exact hparams.symm

theorem kinds_eq_of_forall₂ {args : List (Object U)} {vs : List (Value U)}
    (h : List.Forall₂ (fun arg v => v.kind = arg.kind) args vs) :
    args.map (·.kind) = vs.map (·.kind) := by
  induction h with
  | nil => rfl
  | cons hv _ ih => exact congrArg₂ List.cons hv.symm ih

theorem typed_copyValues {args : List (Object U)} (A : ∀ arg ∈ args, arg.Sound h) :
    Typed h (args.mapM copyValue) fun _ vs => args.map (·.kind) = vs.map (·.kind) :=
  (Typed.mapM (R := fun _ (arg : Object U) (v : Value U) => v.kind = arg.kind)
    (fun _ _ _ _ _ hv => hv) fun arg harg _ K => ((A arg harg).mono K).typed_copyValue).mono
    fun _ _ _ => kinds_eq_of_forall₂

theorem typed_prepare (o : Object U) (name : String) {args : List (Object U)}
    (A : ∀ arg ∈ args, arg.Sound h) :
    Typed h (o.prepare name args) fun _ fvs => fvs.2.map (·.kind) = fvs.1.params := by
  refine .bind (typed_found rfl) fun bucket h₁ K₁ _ => ?_
  refine (typed_select Overload.params bucket args o.typeName name).bind fun f h₂ K₂ hf => ?_
  refine .bind (Q := fun _ _ => True) ?_ fun _ h₃ K₃ _ => ?_
  · rw [refuseUnbound]
    split
    · exact typed_throw rfl
    · exact typed_pure trivial
  · refine (typed_copyValues fun arg harg => (A arg harg).mono
      ((K₁.trans K₂).trans K₃)).bind fun vs _ _ hvs => ?_
    exact typed_pure (hvs.symm.trans hf)

theorem Sound.typed_receive (S : o.Sound h) {params : List (Kind U)} {vs : List (Value U)}
    (hvs : vs.map (·.kind) = params) : Typed h (o.receive params vs) fun _ _ => True := by
  refine S.typed_edit.bind fun v _ _ hv => ?_
  refine (typed_given hvs _).bind fun _ _ _ _ => ?_
  exact (typed_contentOf hv).bind fun _ _ _ _ => typed_pure trivial

theorem Sound.typed_invoke (S : o.Sound h) {f : Overload o.kind} {vs : List (Value U)}
    (hvs : vs.map (·.kind) = f.params) : Typed h (o.invoke f vs) fun _ _ => True := by
  rw [invoke_eq]
  split
  · exact (typed_given hvs _).bind fun _ _ _ _ => typed_pure trivial
  · exact (S.typed_receive hvs).bind fun _ _ _ _ => typed_pure trivial
  · refine (S.typed_receive hvs).bind fun _ _ K _ => ?_
    exact ((S.mono K).typed_replace _).bind fun _ _ _ _ => typed_pure trivial

theorem Sound.typed_call (S : o.Sound h) (name : String) {args : List (Object U)}
    (A : ∀ arg ∈ args, arg.Sound h) :
    Typed h (o.call name args) fun h' r => r.Sound h' := by
  rw [call_eq]
  refine (o.typed_prepare name A).bind fun (f, vs) h₁ K₁ hvs => ?_
  exact ((S.mono K₁).typed_invoke hvs).bind fun _ _ _ _ => S.types.typed_wrapNew _ _

end Object

namespace Registry

variable {r : Registry U} {h : Heap U} {args : List (Object U)}

theorem Built.typed_constructAt (B : r.Built) (i : Fin r.entries.size)
    (A : ∀ arg ∈ args, arg.Sound h) :
    Typed h (r.constructAt i args) fun h' o => o.Sound h' := by
  rw [constructAt]
  dsimp only
  split
  · exact typed_refuse rfl
  · refine (Object.typed_select Constructor.params _ args _ _).bind fun c h₁ K₁ hc => ?_
    split
    · exact typed_refuse rfl
    · refine (Object.typed_copyValues fun arg harg => (A arg harg).mono K₁).bind
        fun vs h₂ K₂ hvs => ?_
      refine (Object.typed_given (hvs.symm.trans hc) _).bind fun given h₃ K₃ _ => ?_
      exact B.typed_made rfl c.policy

theorem Built.typed_construct (B : r.Built) (k : Kind U) (A : ∀ arg ∈ args, arg.Sound h) :
    Typed h (r.construct k args) fun h' o => o.Sound h' :=
  .bind (typed_found rfl) fun i _ K _ =>
    B.typed_constructAt i fun arg harg => (A arg harg).mono K

theorem Built.typed_constructNamed (B : r.Built) (name : String)
    (A : ∀ arg ∈ args, arg.Sound h) :
    Typed h (r.constructNamed name args) fun h' o => o.Sound h' :=
  .bind (typed_found rfl) fun i _ K _ =>
    B.typed_constructAt i fun arg harg => (A arg harg).mono K

end Registry

namespace Object

variable {o : Object U} {h : Heap U}

/-! ### Conversions -/

theorem Sound.typed_convertValue (S : o.Sound h) (k : Kind U) :
    Typed h (o.convertValue k) fun _ v => v.kind = k :=
  .bind (typed_found rfl) fun _ _ K hc =>
    (S.mono K).typed_content.bind fun _ _ _ _ => typed_pure (target_of_converter? hc)

theorem Sound.typed_cast (S : o.Sound h) (k : Kind U) :
    Typed h (o.cast k) fun _ _ => True := by
  rw [cast]
  split
  · exact S.typed_read.bind fun _ _ _ _ => typed_orThrow (fun _ _ => trivial) fun _ => rfl
  · exact typed_refuse rfl

theorem Sound.typed_convertedCast (S : o.Sound h) (k : Kind U) :
    Typed h (o.convertedCast k) fun _ _ => True := by
  rw [convertedCast]
  split
  · exact S.typed_cast k
  · exact (S.typed_convertValue k).bind fun _ _ _ _ =>
      typed_orThrow (fun _ _ => trivial) fun _ => rfl

theorem Sound.typed_convertTo (S : o.Sound h) (k : Kind U) :
    Typed h (o.convertTo k) fun h' r => r.Sound h' := by
  refine .bind (typed_found rfl) fun i h₁ K₁ hi => ?_
  have hi := Registry.kind_of_indexOf? hi
  split
  · next his =>
    refine (S.mono K₁).typed_copyValue.bind fun v _ _ hv => ?_
    exact S.types.typed_made (hi.trans ((of_decide_eq_true his).symm.trans hv.symm)) .copy
  · refine ((S.mono K₁).typed_convertValue k).bind fun v _ _ hv => ?_
    exact S.types.typed_made (hi.trans hv.symm) .copy

theorem Sound.typed_copy (S : o.Sound h) : Typed h o.copy fun h' r => r.Sound h' := by
  refine S.typed_copyValue.bind fun v h₁ K₁ hv => ?_
  refine (Registry.typed_hold .copy v).bind fun holder h₂ K₂ H => ?_
  exact typed_pure (((S.mono K₁).mono K₂).withHolder (hv ▸ H))

theorem Sound.sound_shareHandle (S : o.Sound h) {r : Object U} (hr : o.shareHandle = some r) :
    r.Sound h := by
  rw [shareHandle] at hr
  split at hr
  · exact Option.some.inj hr ▸ S
  · cases hr

theorem Sound.typed_intoInner (S : o.Sound h) (k : Kind U) :
    Typed h (o.intoInner k) fun _ _ => True := by
  refine ((S.typed_cast k).tryCatch fun e _ _ he => ?_).bind fun _ _ _ _ => ?_
  · exact (typed_release o).bind fun _ _ _ _ => typed_throw he
  · exact (typed_release o).bind fun _ _ _ _ => typed_pure trivial

/-! ### Visits and items -/

theorem keepsKinds_enter (o : Object U) (access : Access) (h : Heap U) :
    h.KeepsKinds (o.enter access h) := by
  unfold enter
  split
  · exact Heap.keepsKinds_modify fun _ _ => rfl
  · exact Heap.keepsKinds_modify fun _ _ => rfl
  · exact .refl h

theorem keepsKinds_leave (o : Object U) (access : Access) (h : Heap U) :
    h.KeepsKinds (o.leave access h) := by
  unfold leave
  split
  · exact Heap.keepsKinds_modify fun _ _ => rfl
  · exact Heap.keepsKinds_modify fun _ _ => rfl
  · exact .refl h

theorem Sound.typed_visit (S : o.Sound h) (k : Kind U) (access : Access) :
    Typed h (o.visit k access) fun _ _ => True := by
  have hvisit : ∀ h₁ (v : Value U), Typed h₁ (do
      let x ← orThrow (v.as? k) (o.mismatch k)
      modify (o.enter access)
      return x) fun _ _ => True := fun h₁ v =>
    .bind (typed_found rfl) fun _ h₂ _ _ =>
      (typed_modify (o.keepsKinds_enter access h₂)).bind fun _ _ _ _ => typed_pure trivial
  rw [visit]
  split
  · cases access with
    | reading => exact S.typed_read.bind fun v h₁ _ _ => hvisit h₁ v
    | writing => exact S.typed_edit.bind fun v h₁ _ _ => hvisit h₁ v
  · exact typed_refuse rfl

/-- The items are of the kind of the descriptor that describes them. -/
theorem Sound.typed_elements (S : o.Sound h) :
    Typed h o.elements fun _ e => ∀ v ∈ e.values, (o.types.entry e.index).kind = v.kind := by
  refine .bind (typed_found rfl) fun it h₁ K₁ _ => ?_
  split
  · exact typed_refuse rfl
  · refine .bind (typed_found rfl) fun i h₂ K₂ hi => ?_
    refine ((S.mono K₁).mono K₂).typed_content.bind fun x _ _ _ => typed_pure fun v hv => ?_
    obtain ⟨y, -, rfl⟩ := List.mem_map.1 hv
    exact Registry.kind_of_indexOf? hi

theorem Sound.typed_items (S : o.Sound h) :
    Typed h o.items fun h' rs => ∀ r ∈ rs, r.Sound h' := by
  refine S.typed_elements.bind fun e h₁ K₁ he => ?_
  refine (Typed.mapM (R := fun h' (_ : Value U) r => Object.Sound h' r)
    (fun _ _ _ _ K hr => hr.mono K) fun v hv _ _ => S.types.typed_made (he v hv) e.policy).mono
    fun rs h' _ hrs r hr => ?_
  obtain ⟨hlen, hsound⟩ := List.forall₂_iff_get.1 hrs
  obtain ⟨i, hi, rfl⟩ := List.mem_iff_getElem.1 hr
  exact hsound i (hlen ▸ hi) hi

end Object

end ChainScript.Script
