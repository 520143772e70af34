import ChainScript.Proofs.Object.Fields

/-!
# Writing an attribute after at most one hop

To write an attribute with conversion is to write it, after at most one step: a value of another
kind than the attribute takes goes through the implicit converter to that kind, if there is one.
The step reads the value and nothing else, so it comes to the same as writing a converted object,
except that this object is never made and its kind need not be registered.  Explicit converters
are not taken, and no converter is applied to what another has made.

## Main results

* `Object.setConverted_of_is`, `Object.setConverted_of_hop`, `Object.setConverted_of_not_hop` — the
  three cases of a value.
* `Object.one_hop_spec` — all of them, and what a refusal leaves.
-/

namespace ChainScript.Script

variable {U : Universe}

open Run

/-- What a holder writes to depends on its own cell, which new cells leave. -/
theorem Holder.edit?_of_extends {h h' : Heap U} {holder : Holder U} (E : h.Extends h')
    (hroot : holder.place.root < h.cells.size) : holder.edit? h' = holder.edit? h := by
  cases holder with
  | owned l | view p guarded => exact Heap.SameBelow.read?_eq E hroot
  | shared l =>
      have hroot : l < h.cells.size := hroot
      rw [Holder.edit?, Holder.edit?, Heap.SameBelow.canWrite_eq E hroot,
        Heap.SameBelow.value?_eq E hroot]

/-- Only a reference has a path. -/
theorem Holder.lawfulPath_of_not_isView {holder : Holder U} (hview : holder.isView = false) :
    LawfulPath holder.place.path := by
  cases holder with
  | owned l | shared l => exact nofun
  | view p guarded => cases hview

namespace Object

variable {o v : Object U} {h h' : Heap U} {x y : Value U} {name : String} {k : Kind U}
  {t : Target o.kind}

/-! ### Writing -/

/-- New cells make no difference to what is written. -/
theorem write_of_extends (E : h.Extends h') (hroot : o.holder.place.root < h.cells.size) :
    ((o.write name y t).run h').1 = ((o.write name y t).run h).1 ∧
      ((o.write name y t).run h).2.Extends ((o.write name y t).run h').2 := by
  have hsame := Holder.edit?_of_extends E hroot
  cases hedit : o.holder.edit? h with
  | none =>
      rw [write_of_not_edit _ _ _ hedit, write_of_not_edit _ _ _ (hsame.trans hedit)]
      exact ⟨rfl, E⟩
  | some x =>
      rw [write_of_edit hedit, write_of_edit (hsame.trans hedit)]
      refine ⟨rfl, ?_⟩
      cases t.put? name x y with
      | none => exact E
      | some w => exact E.write _ _

/-- **A refusal changes nothing**, if a fallback that declines leaves the value alone and putting
back what is at the place of the object leaves it too. -/
theorem eq_of_write_eq_error {e : ScriptError U} (hrun : (o.write name y t).run h = (.error e, h'))
    (hquiet : ∀ f, t = .fallback f → ∀ a b, (f.write a name b).1 = false →
      (f.write a name b).2 = a)
    (hback : ∀ x, h.read? o.holder.place = some x → h.write o.holder.place x = h) : h' = h := by
  cases hedit : o.holder.edit? h with
  | none =>
      rw [write_of_not_edit _ _ _ hedit] at hrun
      exact (congrArg Prod.snd hrun).symm
  | some x =>
      rw [write_of_edit hedit] at hrun
      obtain ⟨hanswer, rfl⟩ := Prod.mk.inj hrun
      cases hput : t.put? name x y with
      | none => rfl
      | some w =>
          have hx := hback x (read?_of_edit? hedit)
          suffices hw : w = x by rw [hw, Option.map_some, Option.getD_some, hx]
          cases t with
          | setter s =>
              obtain ⟨a, ha, hput⟩ := Option.bind_eq_some_iff.1 hput
              obtain ⟨b, hb, -⟩ := Option.bind_eq_some_iff.1 hput
              simp only [Target.answer, ha, hb] at hanswer
              cases hanswer
          | fallback f =>
              obtain ⟨a, ha, hput⟩ := Option.bind_eq_some_iff.1 hput
              obtain ⟨b, hb, hput⟩ := Option.bind_eq_some_iff.1 hput
              simp only [Target.answer, ha, hb] at hanswer
              have hdeclined : (f.write a name b).1 = false := by
                by_contra haccepted
                rw [if_pos (by simpa using haccepted)] at hanswer
                cases hanswer
              have hw : (⟨o.kind, (f.write a name b).2⟩ : Value U) = w := Option.some.inj hput
              rw [← hw, hquiet f rfl a b hdeclined, ← Value.as?_eq_some_iff.1 ha]

theorem fallbackSetter_of_target? {f : FallbackSetter o.kind}
    (ht : o.target? name = some (.fallback f)) : o.members.fallbackSetter = some f := by
  rw [target?] at ht
  split at ht
  · cases Option.some.inj ht
  · next hf =>
    cases Option.some.inj ht
    exact hf
  · cases ht

/-! ### What is written -/

/-- A converted object holds what the converter makes of the value, in a new cell. -/
theorem convertTo_of_converter {i : Fin v.types.entries.size} (hi : v.types.indexOf? k = some i)
    (his : v.is k = false) {c : Converter v.kind} (hc : v.members.converter? k = some c) :
    v.convertTo k = (do
      let x ← v.content
      return ⟨v.types, i, .owned (← alloc ⟨c.target, c.convert x⟩)⟩) := by
  rw [convertTo, hi, his, convertValue, hc]
  simp only [orThrow, pure_bind, Bool.false_eq_true, if_false, bind_assoc, Registry.hold]

section Hop

variable {c : Converter v.kind} (ht : o.target? name = some t)
include ht

theorem assign_of_target (converted : Bool) :
    o.assign name v converted = (do o.write name (← v.give t.arg converted o.types) t) := by
  rw [assign_eq, target_eq, ht]
  rfl

/-- A value of the kind that is taken needs no hop. -/
theorem setConverted_of_is (his : v.is t.arg = true) : o.setConverted name v = o.set name v := by
  have hgive : ∀ converted, v.give t.arg converted o.types = v.copyValue := fun _ => if_pos his
  have hconverted := assign_of_target ht (v := v) true
  have hplain := assign_of_target ht (v := v) false
  rw [hgive] at hconverted hplain
  exact hconverted.trans hplain.symm

/-- Without conversion, a value of another kind is a mismatch. -/
theorem set_of_not_is (his : v.is t.arg = false) :
    o.set name v = throw (.mismatch (o.types.label t.arg) (.named v.typeName)) := by
  have hplain := assign_of_target ht (v := v) false
  rw [give, if_neg (by simp [his]), if_neg Bool.false_ne_true] at hplain
  exact hplain

/-- A value of another kind that has no implicit converter is a mismatch too. -/
theorem setConverted_of_not_hop (his : v.is t.arg = false)
    (hconverts : v.members.convertsImplicitlyTo t.arg = false) :
    o.setConverted name v = throw (.mismatch (o.types.label t.arg) (.named v.typeName)) := by
  have hconverted := assign_of_target ht (v := v) true
  rw [give, if_neg (by simp [his]), if_pos rfl, implicitInto_of_not _ hconverts] at hconverted
  exact hconverted

/-- A value of the kind that is taken is written as it is. -/
theorem set_of_is (his : v.is t.arg = true) :
    o.set name v = (do o.write name (← v.copyValue) t) := by
  have hplain := assign_of_target ht (v := v) false
  rw [give, if_pos his] at hplain
  exact hplain

variable (his : v.is t.arg = false) (hc : v.members.converter? t.arg = some c)
  (himplicit : c.implicit = true)
include his hc himplicit

/-- What the implicit converter makes of the value is written. -/
theorem setConverted_of_hop :
    o.setConverted name v = (do o.write name ⟨c.target, c.convert (← v.content)⟩ t) := by
  have hconverted := assign_of_target ht (v := v) true
  have hhop : v.implicitInto t.arg o.types = (do return ⟨c.target, c.convert (← v.content)⟩) := by
    rw [implicitInto, hc, Option.filter_some, if_pos himplicit]
  rw [give, if_neg (by simp [his]), if_pos rfl, hhop, bind_assoc] at hconverted
  simp only [pure_bind] at hconverted
  exact hconverted

/-- It comes to the same as writing an object that has been converted. -/
theorem setConverted_of_hop_convertTo (hknown : v.types.contains t.arg = true)
    (hroot : o.holder.place.root < h.cells.size) :
    let converted : Run U Unit := do o.set name (← v.convertTo t.arg)
    ((o.setConverted name v).run h).1 = (converted.run h).1 ∧
      ((o.setConverted name v).run h).2.Extends (converted.run h).2 := by
  intro converted
  rw [setConverted_of_hop ht his hc himplicit]
  obtain ⟨i, hi⟩ := Option.isSome_iff_exists.1 hknown
  have hconvert := convertTo_of_converter hi his hc
  cases hx : v.content.run h with
  | mk result h₁ =>
      obtain rfl : h₁ = h := by simpa [hx] using ((finds_content v) h).1
      cases result with
      | error e =>
          have hfailed : (v.convertTo t.arg).run h₁ = (.error e, h₁) := by
            rw [hconvert, bind_of_error hx]
          rw [bind_of_error hx, bind_of_error hfailed]
          exact ⟨rfl, .refl _⟩
      | ok x =>
          let w : Object U := ⟨v.types, i, .owned h₁.cells.size⟩
          let h₂ := (h₁.alloc ⟨c.target, c.convert x⟩).2
          have hmade : (v.convertTo t.arg).run h₁ = (.ok w, h₂) := by
            rw [hconvert, bind_of_ok hx]
            rfl
          have hkind : w.kind = t.arg := Registry.kind_of_indexOf? hi
          have hread : w.holder.read? h₂ = some ⟨c.target, c.convert x⟩ :=
            congrArg (Option.bind · (viewPath? [])) (Heap.value?_alloc h₁ _)
          have hcopied := copied?_of_read? (hkind.trans (target_of_converter? hc).symm) hread
          rw [bind_of_ok hx, bind_of_ok hmade, set_of_is ht (decide_eq_true hkind),
            bind_of_ok ((finds_copyValue w).run_of_some hcopied)]
          obtain ⟨hresult, hheap⟩ :=
            write_of_extends (Heap.sameBelow_alloc (Nat.le_refl _) _) hroot
          exact ⟨hresult.symm, hheap⟩

end Hop

/-- **Writing with conversion is writing after at most one hop.**  Let an attribute take values of
some kind, through its setter or the fallback.  A value of that kind is written as without
conversion.  A value that has an implicit converter to that kind is written as any object of the
kind would be that holds what the converter makes of it; where the value cannot be read, neither is
done.  If the registry of the value knows the kind, this is what comes of converting the value and
writing the new object: the same result and the same cells, but for the one that the new object
has.  Any other value is a mismatch that names both types, and so is, without conversion, every
value of another kind: explicit converters are not taken and converters are not chained.  Whatever
the error, a refusal leaves every cell as it is, if a fallback that declines leaves the value alone
and, where the object refers to a part, putting back what is there changes nothing. -/
theorem one_hop_spec (o v : Object U) (name : String) (h : Heap U) :
    (∀ t, o.target? name = some t →
      (v.is t.arg = true → o.setConverted name v = o.set name v) ∧
      (∀ c, v.is t.arg = false → v.members.converter? t.arg = some c → c.implicit = true →
        (∀ x w, v.content.run h = (.ok x, h) → w.is t.arg = true →
          w.copyValue.run h = (.ok ⟨c.target, c.convert x⟩, h) →
          (o.setConverted name v).run h = (o.set name w).run h) ∧
        (∀ e, v.content.run h = (.error e, h) → (o.setConverted name v).run h = (.error e, h)) ∧
        (v.types.contains t.arg = true → o.holder.place.root < h.cells.size →
          let converted : Run U Unit := do o.set name (← v.convertTo t.arg)
          ((o.setConverted name v).run h).1 = (converted.run h).1 ∧
            ((o.setConverted name v).run h).2.Extends (converted.run h).2)) ∧
      (v.is t.arg = false → v.members.convertsImplicitlyTo t.arg = false →
        o.setConverted name v = throw (.mismatch (o.types.label t.arg) (.named v.typeName))) ∧
      (v.is t.arg = false →
        o.set name v = throw (.mismatch (o.types.label t.arg) (.named v.typeName)))) ∧
    ∀ converted e h', (o.assign name v converted).run h = (.error e, h') →
      (∀ f, o.members.fallbackSetter = some f → ∀ x n y, (f.write x n y).1 = false →
        (f.write x n y).2 = x) →
      (o.holder.isView = true → ∀ x, h.read? o.holder.place = some x →
        h.write o.holder.place x = h) →
      h' = h := by
  constructor
  · intro t ht
    refine ⟨setConverted_of_is ht, fun c his hc himplicit => ⟨?_, ?_, ?_⟩,
      setConverted_of_not_hop ht, set_of_not_is ht⟩
    · intro x w hx hw hcopy
      rw [setConverted_of_hop ht his hc himplicit, bind_of_ok hx, set_of_is ht hw,
        bind_of_ok hcopy]
    · intro e he
      rw [setConverted_of_hop ht his hc himplicit, bind_of_error he]
    · exact setConverted_of_hop_convertTo ht his hc himplicit
  · intro converted e h' hrun hquiet hback
    have hback : ∀ x, h.read? o.holder.place = some x → h.write o.holder.place x = h := by
      cases hview : o.holder.isView with
      | true => exact hback hview
      | false => exact fun x => Heap.write_self (Holder.lawfulPath_of_not_isView hview)
    cases ht : o.target? name with
    | none =>
        obtain ⟨e', he'⟩ := (o.finds_target name).run_of_none (h := h) ht
        rw [assign_eq, bind_of_error he'] at hrun
        exact (congrArg Prod.snd hrun).symm
    | some t =>
        rw [assign_of_target ht] at hrun
        cases hgiven : v.given? t.arg converted h with
        | none =>
            obtain ⟨e', he'⟩ := (v.finds_give t.arg converted o.types).run_of_none hgiven
            rw [bind_of_error he'] at hrun
            exact (congrArg Prod.snd hrun).symm
        | some y =>
            rw [bind_of_ok ((v.finds_give t.arg converted o.types).run_of_some hgiven)] at hrun
            refine eq_of_write_eq_error hrun (fun f hf x n => hquiet f ?_ x name n) hback
            exact fallbackSetter_of_target? (hf ▸ ht)

/-! ### A flag that counts as a number -/

/-- A number that is read and written. -/
def countMembers : Members (.int : Kind bare) :=
  (({} : Builder .int).addReadwrite "at" .int .int (fun n => n) fun _ n => n).members

/-- A flag counts as a number. -/
def flagMembers : Members (.bool : Kind bare) :=
  (({} : Builder .bool).implicitConversion .int fun b => if b then 1 else 0).members

/-- Numbers and flags. -/
def counts : Registry bare :=
  ⟨0, #[⟨.int, "count", 0, countMembers⟩, ⟨.bool, "flag", 0, flagMembers⟩]⟩

/-- Flags alone. -/
def flags : Registry bare := ⟨1, #[⟨.bool, "flag", 1, flagMembers⟩]⟩

/-- The number in the first cell. -/
def count : Object bare := ⟨counts, ⟨0, by decide⟩, .owned 0⟩

/-- The number in the third cell. -/
def one : Object bare := ⟨counts, ⟨0, by decide⟩, .owned 2⟩

/-- The flag in the second cell, where numbers are known. -/
def countedFlag : Object bare := ⟨counts, ⟨1, by decide⟩, .owned 1⟩

/-- The flag in the second cell, where they are not. -/
def loneFlag : Object bare := ⟨flags, ⟨0, by decide⟩, .owned 1⟩

/-- Two numbers and a flag. -/
def countHeap (n : Int64) : Heap bare :=
  ⟨#[⟨⟨.int, n⟩, 0, false⟩, ⟨⟨.bool, true⟩, 0, false⟩, ⟨⟨.int, 1⟩, 0, false⟩]⟩

/-- A flag is converted although its registry does not know numbers: the write succeeds, and is not
a mismatch. -/
theorem hop_to_unknown_kind :
    count.target? "at" = some (.setter ⟨.int, fun _ n => n⟩) ∧
    loneFlag.is .int = false ∧ loneFlag.types.contains .int = false ∧
    (count.setConverted "at" loneFlag).run (countHeap 5) = (.ok (), countHeap 1) :=
  ⟨rfl, rfl, by cbv, rfl⟩

/-- A flag is written as the number 1, which is what comes of converting it first and of writing
that number; without conversion it is a mismatch, and the number stays. -/
theorem one_hop_spec_flag :
    ((count.setConverted "at" countedFlag).run (countHeap 5)).1 =
      ((do count.set "at" (← countedFlag.convertTo .int) : Run bare Unit).run (countHeap 5)).1 ∧
    (count.setConverted "at" loneFlag).run (countHeap 5) =
      (count.set "at" one).run (countHeap 5) ∧
    count.setConverted "at" one = count.set "at" one ∧
    count.set "at" countedFlag = throw (.mismatch (.named "count") (.named "flag")) ∧
    ((count.set "at" countedFlag).run (countHeap 5)).2 = countHeap 5 := by
  have htarget : count.target? "at" = some (.setter ⟨.int, fun _ n => n⟩) := rfl
  obtain ⟨hcounted, hrefused⟩ := one_hop_spec count countedFlag "at" (countHeap 5)
  obtain ⟨hlone, -⟩ := one_hop_spec count loneFlag "at" (countHeap 5)
  obtain ⟨hplain, -⟩ := one_hop_spec count one "at" (countHeap 5)
  obtain ⟨-, hhop, -, hmismatch⟩ := hcounted _ htarget
  obtain ⟨-, hhop', -, -⟩ := hlone _ htarget
  have hlabel : count.types.label .int = .named "count" := by cbv
  have hkept : ((count.set "at" countedFlag).run (countHeap 5)).2 = countHeap 5 :=
    hrefused false _ _ rfl (fun f hf => by cases hf) fun hview => absurd hview Bool.false_ne_true
  exact ⟨((hhop _ rfl rfl rfl).2.2 (by cbv) (by decide)).1,
    (hhop' _ rfl rfl rfl).1 true one rfl rfl rfl, (hplain _ htarget).1 rfl,
    hlabel ▸ hmismatch rfl, hkept⟩

end Object

end ChainScript.Script
