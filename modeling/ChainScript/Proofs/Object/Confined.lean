import ChainScript.Proofs.Heap.Confined
import ChainScript.Script.Object.Visit

/-!
# Objects stay in their zone

Through an object only what lies at its holder's place is changed, and new cells; and what is
reached from it, or made from it, is confined in the same way.

## Main results

* `Object.keeps_get`, `Object.keeps_callRef` — reaching objects from a confined one.
* `Object.keeps_set`, `Object.keeps_call`, `Object.keeps_visit` and others — operations.
-/

namespace ChainScript.Script

open Zone

variable {U : Universe} {z : Zone U}

/-- The holder has a new cell of its own. -/
def Zone.Made (z : Zone U) (holder : Holder U) : Prop := z.Admits holder ∧ holder.isView = false

/-- The object that is reached from another is confined as that one is, and it refers to a part
of another value only where that one does. -/
def Zone.Reaches (z : Zone U) (o r : Object U) : Prop :=
  z.Admits r.holder ∧ (o.holder.isView = false → r.holder.isView = false)

theorem Zone.Made.reaches {r : Object U} (hr : z.Made r.holder) (o : Object U) : z.Reaches o r :=
  ⟨hr.1, fun _ => hr.2⟩

/-! ### New objects -/

theorem Run.keeps_alloc (v : Value U) : z.Confines (Run.alloc v) (z.fresh ≤ ·) := by
  intro h hn
  refine ⟨.of_same ?_ (Heap.sameBelow_alloc hn v), fun l hl => ?_⟩
  · exact (Nat.le_succ _).trans_eq (Array.size_push ..).symm
  · obtain rfl : h.cells.size = l := Except.ok.inj hl
    exact hn

namespace Registry

theorem keeps_hold (policy : Policy) (v : Value U) : z.Confines (hold policy v) z.Made := by
  refine (Run.keeps_alloc v).bind fun l hl => ?_
  cases policy with
  | share | copy | wrapReference => exact .pure ⟨⟨hl, nofun⟩, rfl⟩

theorem keeps_wrapNew (r : Registry U) (policy : Policy) (v : Value U) :
    z.Confines (r.wrapNew policy v) fun o => z.Made o.holder := by
  rw [wrapNew]
  split
  · exact (keeps_hold policy v).bind fun holder hmade => .pure hmade
  · exact .throw _

theorem keeps_wrap (r : Registry U) (holder : Holder U) (k : Kind U) :
    z.Confines (r.wrap holder k) fun o => o.holder = holder := by
  rw [wrap]
  split
  · exact .pure rfl
  · exact .throw _

end Registry

namespace Object

variable {o : Object U}

/-! ### Reading -/

theorem keeps_content (o : Object U) : z.Confines o.content fun _ => True :=
  (confines_of_finds (finds_read o)).bind fun v _ => confines_of_finds (finds_contentOf o v)

theorem keeps_copyValue (o : Object U) : z.Confines o.copyValue fun _ => True :=
  confines_of_finds (finds_copyValue o)

theorem keeps_replace (hc : z.Covers o.holder) (v : Value U) :
    z.Confines (o.replace v) fun _ => True :=
  .modify fun h _ => hc.allows_write h v

theorem keeps_touch (hc : z.Covers o.holder) {ret : Kind U}
    (lens : Lens o.kind.Carrier ret.Carrier) : z.Confines (o.touch lens) fun _ => True :=
  (confines_of_finds (finds_edit o)).bind fun v _ =>
    (confines_of_finds (finds_contentOf o v)).bind fun _ _ =>
      (keeps_replace hc _).bind fun _ _ => .pure trivial

/-! ### Reaching -/

/-- The end of an admitted object frees a new cell at most. -/
theorem allows_ended (ha : z.Admits o.holder) (h : Heap U) : z.Allows h (o.ended h) := by
  rw [ended]
  split
  · next p hp => exact allows_modify (ha.2 p hp) h _
  · exact .refl z h

theorem keeps_release (ha : z.Admits o.holder) : z.Confines o.release fun _ => True :=
  .modify fun h _ => allows_ended ha h

theorem keeps_passOn (ha : z.Admits o.holder) {next : Run U (Object U)} {Q : Object U → Prop}
    (hnext : z.Confines next Q) : z.Confines (o.passOn next) Q := by
  refine (hnext.tryCatch fun e => (keeps_release ha).bind fun _ _ => .throw e).bind fun r hr => ?_
  split
  · exact .pure hr
  · exact (keeps_release ha).bind fun _ _ => .pure hr

theorem keeps_narrow (ha : z.Admits o.holder) (ret : Kind U)
    (lens : Lens o.kind.Carrier ret.Carrier) :
    z.Confines (o.narrow ret lens) fun r => z.Admits r.holder := by
  refine ((keeps_touch ha.1 lens).map (R := fun _ => True) fun _ _ => trivial).bind fun _ _ => ?_
  exact (o.types.keeps_wrap _ ret).mono fun r hr => hr ▸ ha.part _

theorem keeps_readGetter (ha : z.Admits o.holder) (name : String) (getter : Getter o.kind) :
    z.Confines (o.readGetter name getter) (z.Reaches o) := by
  cases getter with
  | computed ret policy read =>
      rw [readGetter]
      split
      · exact (KeepsOk.throw (Q := fun _ => False) _).bind fun _ h => h.elim
      · exact (keeps_content o).bind fun x _ =>
          (o.types.keeps_wrapNew policy _).mono fun r hr => hr.reaches o
  | field ret policy lens =>
      rw [readGetter]
      split
      · next hview =>
        exact (keeps_narrow ha ret lens).mono fun r hr =>
          ⟨hr, fun hnot => by rw [hview.2] at hnot; cases hnot⟩
      · exact (keeps_touch ha.1 lens).bind fun x _ =>
          (o.types.keeps_wrapNew policy _).mono fun r hr => hr.reaches o

theorem keeps_readFallback (o : Object U) (name : String) (f : FallbackGetter o.kind) :
    z.Confines (o.readFallback name f) (z.Reaches o) := by
  rw [readFallback]
  split
  · exact (KeepsOk.throw (Q := fun _ => False) _).bind fun _ h => h.elim
  · refine (confines_of_finds (finds_read o)).bind fun v _ => ?_
    split
    · exact (o.types.keeps_wrapNew f.policy _).mono fun r hr => hr.reaches o
    · exact .throw _

theorem keeps_readAttribute (ha : z.Admits o.holder) (name : String) :
    z.Confines (o.readAttribute name) (z.Reaches o) := by
  refine keeps_passOn ha ?_
  split
  · exact keeps_readGetter ha name _
  · exact keeps_readFallback o name _
  · exact .throw _

theorem keeps_readPath (ha : z.Admits o.holder) (path : List String) :
    z.Confines (o.readPath path) (z.Reaches o) := by
  induction path generalizing o with
  | nil => exact .pure ⟨ha, fun h => h⟩
  | cons name path ih =>
      rw [readPath]
      exact (keeps_readAttribute ha name).bind fun r hr =>
        (ih hr.1).mono fun r' hr' => ⟨hr'.1, fun hnot => hr'.2 (hr.2 hnot)⟩

theorem keeps_reborrow (hc : z.Covers o.holder) :
    z.Confines o.reborrow fun lent => z.Admits lent.holder := by
  rw [reborrow]
  cases hholder : o.holder with
  | owned l =>
      rw [hholder] at hc
      exact .pure ⟨.inl hc, nofun⟩
  | shared l =>
      rw [hholder] at hc
      refine KeepsOk.get.bind fun h _ => ?_
      split
      · refine (KeepsOk.modify fun h _ => allows_modify hc h _).bind fun _ _ => .pure ⟨.inl hc, ?_⟩
        rintro p hp
        cases hp
        exact hc
      · exact .throw _
  | view p guarded =>
      rw [hholder] at hc
      exact .pure ⟨hc, nofun⟩

theorem keeps_get (hc : z.Covers o.holder) (path : List String) :
    z.Confines (o.get path) fun r => z.Admits r.holder := by
  rw [get]
  split
  · exact (KeepsOk.throw (Q := fun _ => False) _).bind fun _ h => h.elim
  · exact (keeps_reborrow hc).bind fun lent ha =>
      (keeps_readPath ha path).mono fun r hr => hr.1

theorem keeps_getPath (hc : z.Covers o.holder) (path : String) :
    z.Confines (o.getPath path) fun r => z.Admits r.holder := by
  rw [getPath]
  split
  · exact .throw _
  · exact keeps_get hc _

theorem keeps_callRef (hc : z.Covers o.holder) (name : String) :
    z.Confines (o.callRef name) fun r => z.Admits r.holder :=
  (confines_orThrow _ _).bind fun f _ => (keeps_reborrow hc).bind fun lent ha =>
    keeps_passOn ha (keeps_narrow (o := o.withHolder lent.holder) ha f.ret f.lens)

/-! ### Writing and calling -/

theorem keeps_target (o : Object U) (name : String) :
    z.Confines (o.target name) fun _ => True := by
  rw [target]
  split
  · exact .pure trivial
  · exact .pure trivial
  · exact .throw _

theorem keeps_write (hc : z.Covers o.holder) (name : String) (v : Value U)
    (target : Target o.kind) : z.Confines (o.write name v target) fun _ => True := by
  cases target with
  | setter s =>
      refine (confines_of_finds (finds_edit o)).bind fun w _ => ?_
      split
      · exact keeps_replace hc _
      · exact .throw _
  | fallback f =>
      refine (confines_of_finds (finds_edit o)).bind fun w _ => ?_
      split
      · refine (keeps_replace hc _).bind fun _ _ => ?_
        split
        · exact .pure trivial
        · exact .throw _
      · exact .throw _

theorem keeps_implicitInto (o : Object U) (k : Kind U) (types : Registry U) :
    z.Confines (o.implicitInto k types) fun _ => True := by
  rw [implicitInto]
  split
  · exact (keeps_content o).bind fun _ _ => .pure trivial
  · exact .throw _

theorem keeps_set (hc : z.Covers o.holder) (name : String) (value : Object U) :
    z.Confines (o.set name value) fun _ => True := by
  refine (keeps_target o name).bind fun target _ => ?_
  split
  · exact (keeps_copyValue value).bind fun v _ => keeps_write hc name v target
  · exact (KeepsOk.throw (Q := fun _ => False) _).bind fun _ h => h.elim

theorem keeps_setConverted (hc : z.Covers o.holder) (name : String) (value : Object U) :
    z.Confines (o.setConverted name value) fun _ => True := by
  refine (keeps_target o name).bind fun target _ => ?_
  split
  · exact (keeps_copyValue value).bind fun v _ => keeps_write hc name v target
  · exact (keeps_implicitInto value _ _).bind fun v _ => keeps_write hc name v target

theorem keeps_invoke (hc : z.Covers o.holder) (f : Overload o.kind) (values : List (Value U)) :
    z.Confines (o.invoke f values) fun _ => True := by
  rw [invoke_eq]
  split
  · exact (confines_orThrow _ _).bind fun _ _ => .pure trivial
  · exact (confines_of_finds (o.finds_receive f.params values)).bind fun _ _ => .pure trivial
  · exact (confines_of_finds (o.finds_receive f.params values)).bind fun _ _ =>
      (keeps_replace hc _).bind fun _ _ => .pure trivial

theorem keeps_call (hc : z.Covers o.holder) (name : String) (args : List (Object U)) :
    z.Confines (o.call name args) fun r => z.Made r.holder := by
  rw [call_eq]
  exact (confines_of_finds (o.finds_prepare name args)).bind fun (f, values) _ =>
    (keeps_invoke hc f values).bind fun _ _ => o.types.keeps_wrapNew _ _

/-! ### Conversions -/

theorem keeps_convertValue (o : Object U) (k : Kind U) :
    z.Confines (o.convertValue k) fun _ => True :=
  (confines_orThrow _ _).bind fun _ _ => (keeps_content o).bind fun _ _ => .pure trivial

theorem keeps_cast (o : Object U) (k : Kind U) : z.Confines (o.cast k) fun _ => True := by
  rw [cast]
  split
  · exact (confines_of_finds (finds_read o)).bind fun _ _ => confines_orThrow _ _
  · exact (KeepsOk.throw (Q := fun _ => False) _).bind fun _ h => h.elim

theorem keeps_convertedCast (o : Object U) (k : Kind U) :
    z.Confines (o.convertedCast k) fun _ => True := by
  rw [convertedCast]
  split
  · exact keeps_cast o k
  · exact (keeps_convertValue o k).bind fun _ _ => confines_orThrow _ _

theorem keeps_convertTo (o : Object U) (k : Kind U) :
    z.Confines (o.convertTo k) fun r => z.Made r.holder := by
  refine (confines_orThrow _ _).bind fun i _ => ?_
  split
  · exact (keeps_copyValue o).bind fun v _ =>
      (Registry.keeps_hold .copy v).bind fun _ hmade => .pure hmade
  · exact (keeps_convertValue o k).bind fun v _ =>
      (Registry.keeps_hold .copy v).bind fun _ hmade => .pure hmade

theorem keeps_copy (o : Object U) : z.Confines o.copy fun r => z.Made r.holder :=
  (keeps_copyValue o).bind fun v _ =>
    (Registry.keeps_hold .copy v).bind fun _ hmade => .pure hmade

/-- Another handle to a value is confined as the first one is. -/
theorem admits_shareHandle (hc : z.Covers o.holder) {r : Object U} (hr : o.shareHandle = some r) :
    z.Admits r.holder := by
  rw [shareHandle] at hr
  split at hr
  · next l hholder =>
    obtain rfl := Option.some.inj hr
    refine ⟨hc, fun p hp => ?_⟩
    rw [hholder] at hp
    cases hp
  · cases hr

/-! ### Visits and items -/

theorem allows_enter (hc : z.Covers o.holder) (access : Access) (h : Heap U) :
    z.Allows h (o.enter access h) := by
  unfold enter
  split
  · next l _ hholder => exact allows_modify (hc.fresh_le hholder) h _
  · next l _ hholder => exact allows_modify (hc.fresh_le hholder) h _
  · exact .refl z h

theorem allows_leave (hc : z.Covers o.holder) (access : Access) (h : Heap U) :
    z.Allows h (o.leave access h) := by
  unfold leave
  split
  · next l _ hholder => exact allows_modify (hc.fresh_le hholder) h _
  · next l _ hholder => exact allows_modify (hc.fresh_le hholder) h _
  · exact .refl z h

theorem keeps_visit (hc : z.Covers o.holder) (k : Kind U) (access : Access) :
    z.Confines (o.visit k access) fun _ => True := by
  rw [visit]
  split
  · cases access with
    | reading =>
        exact (confines_of_finds (finds_read o)).bind fun _ _ => (confines_orThrow _ _).bind
          fun _ _ => (KeepsOk.modify fun h _ => allows_enter hc _ h).bind fun _ _ => .pure trivial
    | writing =>
        exact (confines_of_finds (finds_edit o)).bind fun _ _ => (confines_orThrow _ _).bind
          fun _ _ => (KeepsOk.modify fun h _ => allows_enter hc _ h).bind fun _ _ => .pure trivial
  · exact (KeepsOk.throw (Q := fun _ => False) _).bind fun _ h => h.elim

theorem keeps_elements (o : Object U) : z.Confines o.elements fun _ => True := by
  refine (confines_orThrow _ _).bind fun it _ => ?_
  split
  · exact (KeepsOk.throw (Q := fun _ => False) _).bind fun _ h => h.elim
  · exact (confines_orThrow _ _).bind fun _ _ => (keeps_content o).bind fun _ _ => .pure trivial

theorem keeps_elements_object {types : Registry U} (e : Elements types) (v : Value U) :
    z.Confines (e.object v) fun r => z.Made r.holder :=
  (Registry.keeps_hold e.policy v).bind fun _ hmade => .pure hmade

theorem keeps_items (o : Object U) :
    z.Confines o.items fun rs => ∀ r ∈ rs, z.Made r.holder :=
  (keeps_elements o).bind fun e _ => .mapM fun v _ => keeps_elements_object e v

end Object

end ChainScript.Script
