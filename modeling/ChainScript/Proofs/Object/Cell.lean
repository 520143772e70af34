import ChainScript.Proofs.Heap.Replaced
import ChainScript.Proofs.Object.Heeding

/-!
# The value behind an object

While nobody uses the value of an object, what is done through the object comes down to one change
of that value: an attribute that is written, the body of a method, and the end of a visit each make
another value of it, from that value and from the arguments, and this one is put where it was.  An
operation that is refused leaves the value.  So does every operation while a writer keeps the value
from the object.

## Main definitions

* `Object.Rests` — an object has a value that nobody uses.
* `Object.assigned?`, `Object.called?` — what the writing of an attribute and a call make of a
  value.
* `Object.visitAround` — a visit during which other things happen.

## Main results

* `Object.Rests.assign`, `Object.Rests.call`, `Object.Rests.visitAround` — what the operations
  leave in the heap.
* `Object.extends_assign`, `Object.extends_call`, `Object.extends_visitAround` — the same while the
  value is kept from the object.
-/

namespace ChainScript.Script

variable {U : Universe}

open Run

/-- The result is dropped. -/
theorem Run.run_discard {α : Type} (m : Run U α) (h : Heap U) :
    (discard m : Run U PUnit).run h = ((m.run h).1.map fun _ => ⟨⟩, (m.run h).2) := by
  rw [show (discard m : Run U PUnit) = m >>= fun _ => pure ⟨⟩ from map_eq_pure_bind _ m]
  cases hm : m.run h with
  | mk result h₁ =>
      cases result with
      | ok a => rw [bind_of_ok hm]; rfl
      | error e => rw [bind_of_error hm]; rfl

theorem Run.isOk_discard {α : Type} (m : Run U α) (h : Heap U) :
    ((discard m : Run U PUnit).run h).1.isOk = (m.run h).1.isOk := by
  rw [run_discard]
  cases (m.run h).1 <;> rfl

/-! ### Reading through a holder -/

/-- What a holder reads depends on its own cell. -/
theorem Holder.read?_congr {h h' : Heap U} {holder : Holder U}
    (hcell : h'.cells[holder.place.root]? = h.cells[holder.place.root]?) :
    holder.read? h' = holder.read? h := by
  cases holder with
  | owned l | view p guarded =>
      change h'.read? _ = h.read? _
      rw [Heap.read?, Heap.read?, Heap.value?, Heap.value?, hcell]
  | shared l =>
      have hcell : h'.cells[l]? = h.cells[l]? := hcell
      rw [Holder.read?, Holder.read?, Heap.canRead, Heap.canRead, Heap.value?, Heap.value?, hcell]

/-- What is read is the value at the place. -/
theorem Holder.read?_place {h : Heap U} {holder : Holder U} {v : Value U}
    (hv : holder.read? h = some v) : h.read? holder.place = some v := by
  unfold Holder.read? at hv
  split at hv
  · next l =>
    split at hv
    · rw [Heap.read?, Holder.place, hv]
      rfl
    · cases hv
  · exact hv

/-- A write elsewhere and new cells make no difference to what a holder reads. -/
theorem Holder.read?_of_write {h h' : Heap U} {holder : Holder U} {p : Place U} {v w : Value U}
    (hne : holder.place.root ≠ p.root) (E : (h.write p v).Extends h')
    (hw : holder.read? h = some w) : holder.read? h' = some w := by
  have hroot := Heap.root_lt_of_read? (Holder.read?_place hw)
  rw [← hw]
  exact Holder.read?_congr ((E _ (by rwa [Heap.size_write])).trans (Heap.cells_write_of_ne hne))

/-- A writer goes on to hold its cell. -/
theorem Heap.Extends.hasWriter {h h' : Heap U} {l : Loc} (E : h.Extends h')
    (hl : h.hasWriter l = true) : h'.hasWriter l = true := by
  by_cases hsize : l < h.cells.size
  · rw [← hl, Heap.hasWriter, Heap.hasWriter, E l hsize]
  · rw [Heap.hasWriter_of_size_le (Nat.le_of_not_lt hsize)] at hl
    cases hl

/-- A computation in the zone of the new cells leaves all others. -/
theorem Zone.Confines.extends_run {α : Type} {m : Run U α} {Q : α → Prop} {h : Heap U}
    (hm : (Zone.new h.cells.size).Confines m Q) : h.Extends (m.run h).2 := by
  obtain ⟨-, hsame | ⟨p, hp, -⟩⟩ := (hm h (Nat.le_refl _)).1
  · exact hsame
  · cases hp

/-- What the body of an overload makes of the value `v`. -/
def Overload.put? {k : Kind U} (f : Overload k) (v : Value U) (given : Args f.params) :
    Option (Value U) :=
  match f.body with
  | .writing run => (v.as? k).map fun x => ⟨k, (run x given).2⟩
  | _ => some v

namespace Object

variable {o : Object U} {h h' : Heap U} {v w : Value U}

theorem exists_shared (hmode : o.mode = .shared) : ∃ l, o.holder = .shared l := by
  rw [mode] at hmode
  cases hholder : o.holder with
  | shared l => exact ⟨l, rfl⟩
  | owned l | view p guarded => rw [hholder] at hmode; cases hmode

/-! ### Objects at rest -/

/-- The object has the value `v`, and nobody uses it. -/
structure Rests (o : Object U) (h : Heap U) (v : Value U) : Prop where
  read : h.read? o.holder.place = some v
  kind : v.kind = o.kind
  free : ∀ l, o.holder = .shared l → h.canWrite l = true

namespace Rests

theorem holds (R : o.Rests h v) : h.Holds o.holder.place o.kind :=
  R.kind ▸ Heap.holds_of_read? R.read

theorem holder_read? (R : o.Rests h v) : o.holder.read? h = some v := read?_of_place R.read R.free

theorem edit? (R : o.Rests h v) : o.holder.edit? h = some v := by
  unfold Holder.edit?
  split
  · next l hholder =>
    rw [if_pos (R.free l hholder)]
    have hread := R.read
    rw [hholder] at hread
    obtain ⟨whole, hvalue, hview⟩ := Heap.value?_isSome_of_read? hread
    exact hvalue.trans hview
  · exact R.read

theorem exists_content (R : o.Rests h v) : ∃ x, v = ⟨o.kind, x⟩ := by
  obtain ⟨x, hx⟩ := Option.isSome_iff_exists.1 (Value.as?_isSome_iff.2 R.kind)
  exact ⟨x, Value.as?_eq_some_iff.1 hx⟩

theorem copied? (R : o.Rests h v) : o.copied? h = some v := by
  obtain ⟨x, rfl⟩ := R.exists_content
  rw [Object.copied?, R.holder_read?, Option.bind_some, Value.as?_mk, Option.map_some]

/-- The value is what every copy of it is. -/
theorem copyValue (R : o.Rests h v) : o.copyValue.run h = (.ok v, h) :=
  (finds_copyValue o).run_of_some R.copied?

/-- New cells make no difference. -/
theorem mono (R : o.Rests h v) (E : h.Extends h') : o.Rests h' v := by
  refine ⟨E.read?_eq R.read, R.kind, fun l hl => ?_⟩
  have hroot := Heap.root_lt_of_read? R.read
  rw [hl] at hroot
  rw [Heap.SameBelow.canWrite_eq E (show l < h.cells.size from hroot), R.free l hl]

/-- Another value in the place of the first. -/
theorem of_write (R : o.Rests h v) (L : LawfulPath o.holder.place.path) (hw : w.kind = o.kind)
    (E : (h.write o.holder.place w).Extends h') : o.Rests h' w := by
  have hrests : o.Rests (h.write o.holder.place w) w :=
    ⟨Heap.read?_write L R.holds hw, hw, fun l hl => by rw [Heap.canWrite_write, R.free l hl]⟩
  exact hrests.mono E

end Rests

/-! ### Writing attributes -/

/-- What the writing of an attribute makes of the value `v`, where `y` is what is written. -/
def Target.put? {k : Kind U} (name : String) (v y : Value U) : Target k → Option (Value U)
  | .setter s => do return ⟨k, s.write (← v.as? k) (← y.as? s.arg)⟩
  | .fallback f => do return ⟨k, (f.write (← v.as? k) name (← y.as? f.arg)).2⟩

/-- The attribute is written by the fallback. -/
def Target.isFallback {k : Kind U} : Target k → Bool
  | .setter _ => false
  | .fallback _ => true

theorem Target.kind_put? {k : Kind U} {t : Target k} {name : String} {y : Value U}
    (hw : t.put? name v y = some w) : w.kind = k := by
  cases t with
  | setter s | fallback f =>
      obtain ⟨x, -, hw⟩ := Option.bind_eq_some_iff.1 hw
      obtain ⟨z, -, hw⟩ := Option.bind_eq_some_iff.1 hw
      exact Option.some.inj hw ▸ rfl

/-- What an object yields where a value of kind `k` is to be written. -/
def given? (value : Object U) (k : Kind U) (converted : Bool) (h : Heap U) : Option (Value U) :=
  if value.is k then value.copied? h
  else if converted then
    ((value.members.converter? k).filter (·.implicit)).bind fun c =>
      ((value.holder.read? h).bind (·.as? value.kind)).map fun x => ⟨c.target, c.convert x⟩
  else none

/-- The value that is to be written, or a mismatch. -/
def give (value : Object U) (k : Kind U) (converted : Bool) (types : Registry U) :
    Run U (Value U) :=
  if value.is k then value.copyValue
  else if converted then value.implicitInto k types
  else throw (.mismatch (types.label k) (.named value.typeName))

theorem finds_content (o : Object U) :
    Finds o.content fun h => (o.holder.read? h).bind (·.as? o.kind) :=
  (finds_read o).bind (finds_contentOf o)

theorem finds_implicitInto (value : Object U) (k : Kind U) (types : Registry U) :
    Finds (value.implicitInto k types) fun h =>
      ((value.members.converter? k).filter (·.implicit)).bind fun c =>
        ((value.holder.read? h).bind (·.as? value.kind)).map fun x => ⟨c.target, c.convert x⟩ := by
  rw [implicitInto]
  cases (value.members.converter? k).filter (·.implicit) with
  | none => exact finds_throw _
  | some c =>
      refine ((finds_content value).bind fun x => finds_pure _).congr fun h => ?_
      exact Option.map_eq_bind.symm

theorem finds_give (value : Object U) (k : Kind U) (converted : Bool) (types : Registry U) :
    Finds (value.give k converted types) (value.given? k converted) := by
  unfold give given?
  split
  · exact finds_copyValue value
  · cases converted with
    | true => exact value.finds_implicitInto k types
    | false => exact finds_throw _

/-- Writes an attribute; a value of another kind may be converted. -/
def assign (o : Object U) (name : String) (value : Object U) (converted : Bool) : Run U Unit :=
  if converted then o.setConverted name value else o.set name value

theorem assign_eq (o : Object U) (name : String) (value : Object U) (converted : Bool) :
    o.assign name value converted = (do
      let t ← o.target name
      let y ← value.give t.arg converted o.types
      o.write name y t) := by
  unfold assign give
  cases converted with
  | true =>
      simp only [if_true, setConverted]
      refine bind_congr fun t => ?_
      by_cases his : value.is t.arg = true
      · simp only [if_pos his]
      · simp only [if_neg his]
  | false =>
      simp only [Bool.false_eq_true, if_false, set]
      refine bind_congr fun t => ?_
      by_cases his : value.is t.arg = true
      · simp only [if_pos his]
      · simp only [if_neg his]
        rfl

/-- What the writing of an attribute makes of the value `v`, where it is not refused. -/
def assigned? (o : Object U) (name : String) (value : Object U) (converted : Bool) (h : Heap U)
    (v : Value U) : Option (Value U) := do
  let t ← o.target? name
  t.put? name v (← value.given? t.arg converted h)

/-- An attribute of this name is written by the fallback. -/
def leavesToFallback (o : Object U) (name : String) : Bool := (o.target? name).any (·.isFallback)

theorem finds_target (o : Object U) (name : String) :
    Finds (o.target name) fun _ => o.target? name :=
  o.target_eq name ▸ finds_orThrow _ _

/-- What a writer answers, where `x` is the value of the owner and `y` is what is written. -/
def Target.answer {k : Kind U} (type name : String) (x y : Value U) :
    Target k → Except (ScriptError U) Unit
  | .setter s =>
      match x.as? k, y.as? s.arg with
      | some _, some _ => .ok ()
      | _, _ => .error (.foreignValue type)
  | .fallback f =>
      match x.as? k, y.as? f.arg with
      | some x, some y =>
          if (f.write x name y).1 then .ok () else .error (.missing type name .declined)
      | _, _ => .error (.missing type name .declined)

/-- A value that is kept from the object is not written. -/
theorem write_of_not_edit (name : String) (y : Value U) (t : Target o.kind)
    (hedit : o.holder.edit? h = none) :
    (o.write name y t).run h = (.error (.borrowed o.typeName), h) := by
  have hrun : o.edit.run h = (.error (.borrowed o.typeName), h) := by
    rw [edit, bind_of_ok (finds_get.run_of_some rfl), hedit]
    rfl
  cases t with
  | setter s | fallback f => exact bind_of_error hrun

/-- What is written stays, also where the fallback declines. -/
theorem write_of_edit {name : String} {y : Value U} {t : Target o.kind}
    (hedit : o.holder.edit? h = some v) :
    (o.write name y t).run h =
      (t.answer o.typeName name v y, ((t.put? name v y).map (h.write o.holder.place)).getD h) := by
  have hrun := (finds_edit o).run_of_some hedit
  cases t with
  | setter s =>
      rw [write, bind_of_ok hrun, Target.answer, Target.put?]
      cases v.as? o.kind with
      | none => rfl
      | some x => cases y.as? s.arg <;> rfl
  | fallback f =>
      rw [write, bind_of_ok hrun, Target.answer, Target.put?]
      cases v.as? o.kind with
      | none => rfl
      | some x =>
          cases y.as? f.arg with
          | none => rfl
          | some z => cases hanswer : (f.write x name z).1 <;> simp [hanswer] <;> rfl

/-- Where a value is written, only the fallback may decline. -/
theorem Target.answer_of_put? {k : Kind U} {t : Target k} {type name : String} {y : Value U}
    (hput : t.put? name v y = some w) :
    t.answer type name v y = .ok () ∨ t.isFallback = true := by
  cases t with
  | setter s =>
      obtain ⟨x, hx, hput⟩ := Option.bind_eq_some_iff.1 hput
      obtain ⟨z, hz, -⟩ := Option.bind_eq_some_iff.1 hput
      exact .inl (by simp only [Target.answer, hx, hz])
  | fallback f => exact .inr rfl

/-- Where no value is written, there is an error. -/
theorem Target.answer_of_not_put? {k : Kind U} {t : Target k} {type name : String} {y : Value U}
    (hput : t.put? name v y = none) : ∃ e, t.answer type name v y = .error e := by
  cases t with
  | setter s =>
      rw [Target.answer]
      split
      · next hx hz => rw [Target.put?, hx, hz] at hput; cases hput
      · exact ⟨_, rfl⟩
  | fallback f =>
      rw [Target.answer]
      split
      · next hx hz => rw [Target.put?, hx, hz] at hput; cases hput
      · exact ⟨_, rfl⟩

/-- **Writing an attribute.**  A refusal changes nothing.  What is written otherwise is written to
the value, and only the fallback may then decline. -/
theorem Rests.assign (R : o.Rests h v) (name : String) (value : Object U) (converted : Bool) :
    (o.assigned? name value converted h v = none →
      ∃ e, (o.assign name value converted).run h = (.error e, h)) ∧
    ∀ w, o.assigned? name value converted h v = some w → w.kind = o.kind ∧
      ∃ r, (o.assign name value converted).run h = (r, h.write o.holder.place w) ∧
        (r = .ok () ∨ o.leavesToFallback name = true) := by
  rw [assign_eq, assigned?, leavesToFallback]
  cases htarget : o.target? name with
  | none =>
      obtain ⟨e, he⟩ := (o.finds_target name).run_of_none (h := h) htarget
      exact ⟨fun _ => ⟨e, bind_of_error he⟩, nofun⟩
  | some t =>
      rw [bind_of_ok ((o.finds_target name).run_of_some htarget)]
      have hgive := value.finds_give t.arg converted o.types
      cases hgiven : value.given? t.arg converted h with
      | none =>
          obtain ⟨e, he⟩ := hgive.run_of_none hgiven
          refine ⟨fun _ => ⟨e, bind_of_error he⟩, fun w hw => ?_⟩
          simp [hgiven] at hw
      | some y =>
          rw [bind_of_ok (hgive.run_of_some hgiven), write_of_edit R.edit?]
          simp only [Option.bind_eq_bind, Option.bind_some, hgiven, Option.any_some]
          constructor
          · intro hput
            obtain ⟨e, he⟩ := Target.answer_of_not_put? hput
            exact ⟨e, by rw [he, hput]; rfl⟩
          · intro w hput
            exact ⟨Target.kind_put? hput, t.answer o.typeName name v y, by rw [hput]; rfl,
              Target.answer_of_put? hput⟩

/-- A value that is kept from the object is not written. -/
theorem extends_assign (hedit : o.holder.edit? h = none) (name : String) (value : Object U)
    (converted : Bool) : h.Extends ((o.assign name value converted).run h).2 := by
  rw [assign_eq]
  cases htarget : o.target? name with
  | none =>
      obtain ⟨e, he⟩ := (o.finds_target name).run_of_none (h := h) htarget
      rw [bind_of_error he]
      exact .refl h
  | some t =>
      rw [bind_of_ok ((o.finds_target name).run_of_some htarget)]
      have hgive := value.finds_give t.arg converted o.types
      cases hgiven : value.given? t.arg converted h with
      | none =>
          obtain ⟨e, he⟩ := hgive.run_of_none hgiven
          rw [bind_of_error he]
          exact .refl h
      | some y =>
          rw [bind_of_ok (hgive.run_of_some hgiven)]
          rw [write_of_not_edit name y t hedit]
          exact .refl h

/-! ### Calls -/

/-- What a call makes of the value `v`, where it is not refused. -/
def called? (o : Object U) (name : String) (args : List (Object U)) (h : Heap U) (v : Value U) :
    Option (Value U) := do
  let (f, values) ← o.prepared? name args h
  f.put? v (← Args.ofValues? f.params values)

/-- The body of an overload writes what it makes of the value. -/
theorem Rests.effect? (R : o.Rests h v) (L : LawfulPath o.holder.place.path) (f : Overload o.kind)
    (given : Args f.params) :
    ∃ w, f.put? v given = some w ∧ w.kind = o.kind ∧ (f.writes = false → w = v) ∧
      o.effect? f given h = some (h.write o.holder.place w) := by
  obtain ⟨x, hv⟩ := R.exists_content
  have heditable : o.editable? h = some x := by
    rw [editable?, R.edit?, hv, Option.bind_some, Value.as?_mk]
  rw [Object.effect?, Overload.put?, Overload.writes]
  cases hbody : f.body with
  | free run => exact ⟨v, rfl, R.kind, fun _ => rfl, by rw [Heap.write_self L R.read]⟩
  | reading run =>
      refine ⟨v, rfl, R.kind, fun _ => rfl, ?_⟩
      simp only [heditable, Option.map_some, Heap.write_self L R.read]
  | writing run =>
      refine ⟨⟨o.kind, (run x given).2⟩, ?_, rfl, ?_, ?_⟩
      · simp only [hv, Value.as?_mk, Option.map_some]
      · intro hwrites
        cases hwrites
      · simp only [heditable, Option.map_some]

/-- The result of a call whose body runs is wrapped in the heap that the body leaves. -/
theorem run_call_of_ran {name : String} {args : List (Object U)} {f : Overload o.kind}
    (hran : o.ran? name args h = some (f, h')) :
    ∃ result, (o.call name args).run h = (o.types.wrapNew f.policy ⟨f.ret, result⟩).run h' := by
  obtain ⟨values, hprepared, heffect⟩ := ran?_eq_some_iff.1 hran
  obtain ⟨result, hresult⟩ := invoke_of_some heffect
  refine ⟨result, ?_⟩
  rw [call_eq, bind_of_ok ((o.finds_prepare name args).run_of_some hprepared)]
  exact bind_of_ok hresult

theorem extends_call_of_ran {name : String} {args : List (Object U)} {f : Overload o.kind}
    (hran : o.ran? name args h = some (f, h')) :
    h'.Extends ((o.call name args).run h).2 := by
  obtain ⟨result, hrun⟩ := run_call_of_ran hran
  rw [hrun]
  exact (o.types.keeps_wrapNew _ _).extends_run

/-- **Calling a method.**  A refusal changes nothing.  What the body makes of the value otherwise
is written, and the call succeeds if the kind of the result is registered. -/
theorem Rests.call (R : o.Rests h v) (L : LawfulPath o.holder.place.path) (name : String)
    (args : List (Object U)) :
    (o.called? name args h v = none →
      ∃ e, (o.call name args).run h = (.error e, h)) ∧
    ∀ w, o.called? name args h v = some w → w.kind = o.kind ∧
      (h.write o.holder.place w).Extends ((o.call name args).run h).2 ∧
        ∃ f, o.chosen? name args = some f ∧ (f.writes = false → w = v) ∧
          (o.types.contains f.ret = true → ((o.call name args).run h).1.isOk = true) := by
  constructor
  · intro hcalled
    refine call_of_not_ran (Option.eq_none_iff_forall_ne_some.2 fun (f, h₁) hran => ?_)
    obtain ⟨values, hprepared, heffect⟩ := ran?_eq_some_iff.1 hran
    obtain ⟨given, hgiven, -⟩ := Option.bind_eq_some_iff.1 heffect
    obtain ⟨w, hput, -⟩ := R.effect? L f given
    simp [called?, hprepared, hgiven, hput] at hcalled
  · intro w hcalled
    obtain ⟨⟨f, values⟩, hprepared, hcalled⟩ := Option.bind_eq_some_iff.1 hcalled
    obtain ⟨given, hgiven, hput⟩ := Option.bind_eq_some_iff.1 hcalled
    obtain ⟨w', hput', hkind, hsame, heffect⟩ := R.effect? L f given
    obtain rfl := Option.some.inj (hput.symm.trans hput')
    have hran : o.ran? name args h = some (f, h.write o.holder.place w) :=
      ran?_eq_some_iff.2 ⟨values, hprepared, by rw [hgiven]; exact heffect⟩
    refine ⟨hkind, extends_call_of_ran hran, f, chosen?_of_ran hran, hsame, fun hknown => ?_⟩
    have hcall := call_of_ran hran
    rw [if_pos hknown] at hcall
    obtain ⟨a, h₁, hrun⟩ := hcall
    rw [hrun]
    rfl

/-- A value that is kept from the object is not changed by a call. -/
theorem extends_call (hedit : o.holder.edit? h = none) (name : String) (args : List (Object U)) :
    h.Extends ((o.call name args).run h).2 := by
  cases hran : o.ran? name args h with
  | none =>
      obtain ⟨e, he⟩ := call_of_not_ran hran
      rw [he]
      exact .refl h
  | some r =>
      obtain ⟨f, h₁⟩ := r
      have hsame : h₁ = h := by
        obtain ⟨values, -, heffect⟩ := ran?_eq_some_iff.1 hran
        obtain ⟨given, -, heffect⟩ := Option.bind_eq_some_iff.1 heffect
        have heditable : o.editable? h = none := by rw [editable?, hedit, Option.bind_none]
        rw [Object.effect?] at heffect
        cases hbody : f.body with
        | free run =>
            simp only [hbody] at heffect
            exact (Option.some.inj heffect).symm
        | reading run | writing run => simp [hbody, heditable] at heffect
      subst hsame
      exact extends_call_of_ran hran

/-! ### Visits -/

/-- A visit during which `meanwhile` happens, and at whose end the content is changed. -/
def visitAround (o : Object U) (k : Kind U) (change : k.Carrier → k.Carrier)
    (meanwhile : Heap U → Heap U) : Run U Unit := do
  let x ← o.visit k .writing
  modify meanwhile
  o.replace ⟨k, change x⟩
  modify (o.leave .writing)

theorem visit_of_not_edit {k : Kind U} (hedit : o.holder.edit? h = none) :
    ∃ e, (o.visit k .writing).run h = (.error e, h) := by
  rw [visit]
  split
  · obtain ⟨e, he⟩ := (finds_edit o).run_of_none hedit
    exact ⟨e, bind_of_error he⟩
  · exact ⟨_, rfl⟩

theorem Rests.visit (R : o.Rests h v) {k : Kind U} {x : k.Carrier} (hx : v.as? k = some x) :
    (o.visit k .writing).run h = (.ok x, o.enter .writing h) := by
  have hkind : o.kind = k := R.kind.symm.trans (Value.as?_isSome_iff.1 (by rw [hx]; rfl))
  have his : o.is k = true := decide_eq_true hkind
  rw [Object.visit]
  simp only [if_pos his]
  rw [bind_of_ok ((finds_edit o).run_of_some R.edit?), hx]
  rfl

theorem visit_of_ne {k : Kind U} (hkind : o.kind ≠ k) (access : Access) :
    (o.visit k access).run h = (.error (o.mismatch k), h) := by
  have his : o.is k ≠ true := fun his => hkind (of_decide_eq_true his)
  rw [Object.visit]
  simp only [if_neg his]
  rfl

theorem extends_leave (E : h.Extends h') (o : Object U) (access : Access) :
    (o.leave access h).Extends (o.leave access h') := by
  unfold leave
  split
  · exact E.modify _ _
  · exact E.modify _ _
  · exact E

/-- **A visit.**  At its end the content is changed, whatever happens meanwhile elsewhere. -/
theorem Rests.visitAround (R : o.Rests h v) (k : Kind U) (change : k.Carrier → k.Carrier)
    {meanwhile : Heap U → Heap U}
    (hmeanwhile : (o.enter .writing h).Extends (meanwhile (o.enter .writing h))) :
    (v.as? k = none → ∃ e, (o.visitAround k change meanwhile).run h = (.error e, h)) ∧
    ∀ x, v.as? k = some x → ∃ h₁, (o.visitAround k change meanwhile).run h = (.ok (), h₁) ∧
      (h.write o.holder.place ⟨k, change x⟩).Extends h₁ := by
  constructor
  · intro hx
    have hkind : o.kind ≠ k := by
      rintro rfl
      rw [← Option.not_isSome_iff_eq_none] at hx
      exact hx (Value.as?_isSome_iff.2 R.kind)
    exact ⟨_, bind_of_error (visit_of_ne hkind .writing)⟩
  · intro x hx
    refine ⟨o.leave .writing ((meanwhile (o.enter .writing h)).write o.holder.place ⟨k, change x⟩),
      ?_, ?_⟩
    · rw [Object.visitAround, bind_of_ok (R.visit hx)]
      rfl
    · rw [← leave_write_enter ⟨k, change x⟩ R.free]
      exact extends_leave (hmeanwhile.write _ _) o .writing

/-- A value that is kept from the object is not visited. -/
theorem extends_visitAround (hedit : o.holder.edit? h = none) (k : Kind U)
    (change : k.Carrier → k.Carrier) (meanwhile : Heap U → Heap U) :
    h.Extends ((o.visitAround k change meanwhile).run h).2 := by
  obtain ⟨e, he⟩ := visit_of_not_edit (k := k) hedit
  rw [Object.visitAround, bind_of_error he]
  exact .refl h

end Object

end ChainScript.Script
