import ChainScript.Proofs.Members.Reopened
import ChainScript.Proofs.Object.Hop
import ChainScript.Proofs.Object.Raised
import ChainScript.Proofs.Object.Uses

/-!
# What a type says of itself and what its objects do

The members of a type can be asked for: whether it has an attribute, a method, a converter.  An
object that is used looks its members up on its own, by other ways through other tables, and where
a member is missing the error says why.  The two agree: an error gives one of these reasons just
where the answer to the question is that there is no such member.

## Main results

* `Object.failsFor_get_iff`, `Object.failsFor_assign_iff`, `Object.failsFor_call_iff`, … — when a
  use fails for a reason.
* `Object.setConverted_mismatch_iff`, `Object.setConverted_of_rests` — when a converting write
  refuses a value for its kind, and when it succeeds.
* `Object.reflection_spec` — questions and uses agree.
-/

namespace ChainScript.Script

variable {U : Universe}

open Run

/-! ### Listed methods -/

theorem Members.mem_methodNames {k : Kind U} {m : Members k} {n : String} :
    n ∈ m.methodNames ↔ m.methods.contains n = true ∨ m.returnsReference n = true := by
  have hfold (names : List String) (s : Slots Unit) :
      (names.foldl (fun s name => s.put name ()) s).contains n = true ↔
        s.contains n = true ∨ n ∈ names := by
    induction names generalizing s with
    | nil => simp
    | cons name names ih =>
        rw [List.foldl_cons, ih, Slots.contains, Slots.get?_put, List.mem_cons]
        by_cases hn : n = name
        · simp [hn]
        · rw [if_neg hn, ← Slots.contains]
          simp [hn]
  have hempty : (Slots.empty : Slots Unit).contains n = false := rfl
  calc n ∈ m.methodNames
      ↔ ((Slots.empty : Slots Unit).contains n = true ∨ n ∈ m.methods.names) ∨
          n ∈ m.references.names :=
        Slots.mem_names_iff.trans ((hfold _ _).trans (or_congr_left (hfold _ _)))
    _ ↔ _ := by
        rw [hempty, Slots.mem_names_iff, Slots.mem_names_iff, or_iff_right Bool.false_ne_true]
        rfl

namespace Object

variable {o : Object U} {h : Heap U} {n : String}

/-! ### Reading -/

/-- An attribute that has no getter and is not left to a fallback is missing. -/
theorem run_readAttribute_of_lacking (hgetter : o.members.getters.get? n = none)
    (hfallback : o.members.fallbackGetter = none) (h : Heap U) :
    (o.readAttribute n).run h = (.error (.missing o.typeName n .noAttribute), o.ended h) := by
  rw [readAttribute, hgetter, hfallback]
  exact passOn_of_error rfl

theorem failsFor_get_iff (hfree : ∀ l, o.holder = .shared l → h.canWrite l = true) :
    FailsFor (o.get [n]) h "no such attribute" ↔
      o.members.hasAttribute n = false ∧ o.members.fallbackGetter.isSome = false := by
  constructor
  · intro hfails
    by_contra hnot
    rw [not_and_or, Bool.not_eq_false, Bool.not_eq_false] at hnot
    refine (o.raises_get_single hnot).not_failsFor ?_ h hfails
    rintro _ rfl heq
    exact absurd (Option.some.inj heq) (by decide)
  · rintro ⟨hattribute, hfallback⟩
    have hgetter := Option.not_isSome_iff_eq_none.1 (Bool.eq_false_iff.1 hattribute)
    have hnone := Option.not_isSome_iff_eq_none.1 (Bool.eq_false_iff.1 hfallback)
    obtain ⟨lent, h₁, hlent⟩ := reborrow_of_free hfree
    obtain ⟨⟨guarded, rfl⟩, -⟩ := reborrow_eq_ok hlent
    have hread := run_readAttribute_of_lacking (o := o.withHolder (.view o.holder.place guarded))
      hgetter hnone h₁
    rw [get_single]
    exact (failsFor_of_run ((bind_of_ok hlent).trans hread)).2 rfl

/-! ### Writing -/

theorem target?_eq_none_iff :
    o.target? n = none ↔
      o.members.isWritable n = false ∧ o.members.fallbackSetter.isSome = false := by
  rw [target?, Members.isWritable, Slots.contains]
  cases o.members.setters.get? n <;> cases o.members.fallbackSetter <;> simp

variable {v : Object U} {converted : Bool} {why : String}

/-- Something that writes the attribute may decline the name, or the value. -/
theorem raises_assign {t : Target o.kind} (ht : o.target? n = some t) :
    Raises (o.assign n v converted) fun e => e = .missing o.typeName n .declined ∨
      e = .mismatch (o.types.label t.arg) (.named v.typeName) := by
  rw [assign_of_target ht]
  exact ((v.raises_give t.arg converted o.types).mono fun _ => .inr).bind fun y =>
    (o.raises_write n y t).mono fun _ => .inl

theorem failsFor_assign_iff (hwhy : why ≠ Missing.declined.message) :
    FailsFor (o.assign n v converted) h why ↔ o.target? n = none ∧
      (if o.members.hasAttribute n then Missing.readOnly
        else Missing.noAttribute).message = why := by
  cases ht : o.target? n with
  | some t =>
      refine iff_of_false ((raises_assign ht).not_failsFor ?_ h) fun hnot => nomatch hnot.1
      rintro _ (rfl | rfl) heq
      · exact hwhy (Option.some.inj heq).symm
      · cases heq
  | none =>
      rw [assign_eq, target_eq, ht]
      refine (failsFor_of_run rfl).trans ?_
      rw [ScriptError.reason?, Option.some.injEq, eq_self, true_and]

/-! ### Calls -/

theorem failsFor_call_iff {args : List (Object U)}
    (hwhy : ¬ "no overload takes these ".toList <+: why.toList) :
    FailsFor (o.call n args) h why ↔ o.members.methods.contains n = false ∧
      (if o.members.returnsReference n then Missing.returnsReference
        else Missing.noMethod).message = why := by
  cases hbucket : o.members.methods.get? n with
  | some bucket =>
      have hcontains : o.members.methods.contains n = true := by rw [Slots.contains, hbucket]; rfl
      refine iff_of_false ((o.raises_call hcontains args).not_failsFor ?_ h) fun hnot => ?_
      · rintro _ ⟨given, arities, rfl⟩ heq
        exact Missing.message_noOverload_ne hwhy given arities (Option.some.inj heq)
      · rw [hcontains] at hnot
        cases hnot.1
  | none =>
      have hcontains : o.members.methods.contains n = false := by rw [Slots.contains, hbucket]; rfl
      rw [call, hbucket, hcontains]
      refine (failsFor_of_run rfl).trans ?_
      rw [ScriptError.reason?, Option.some.injEq, eq_self, true_and]

theorem failsFor_callRef_iff :
    FailsFor (o.callRef n) h "no such method" ↔ o.members.returnsReference n = false := by
  cases hf : o.members.references.get? n with
  | some f =>
      have hcontains : o.members.returnsReference n = true := by
        rw [Members.returnsReference, Slots.contains, hf]
        rfl
      have hraises : Raises (o.callRef n) fun _ => False := o.raises_callRef hcontains
      rw [hcontains]
      exact iff_of_false (hraises.not_failsFor (fun _ => False.elim) h) Bool.false_ne_true.symm
  | none =>
      have hcontains : o.members.returnsReference n = false := by
        rw [Members.returnsReference, Slots.contains, hf]
        rfl
      rw [callRef, hf, hcontains]
      exact (failsFor_of_run rfl).trans (iff_of_true rfl rfl)

/-! ### Conversions -/

theorem failsFor_convertedCast_iff {k : Kind U} (hk : o.is k = false) :
    FailsFor (o.convertedCast k) h "no converter registered" ↔ o.members.convertsTo k = false := by
  cases hc : o.members.converter? k with
  | some c =>
      have hconverts : o.members.convertsTo k = true := by rw [Members.convertsTo, hc]; rfl
      rw [hconverts]
      refine iff_of_false ((o.raises_convertedCast hconverts).not_failsFor ?_ h)
        Bool.false_ne_true.symm
      rintro _ rfl heq
      cases heq
  | none =>
      have hconverts : o.members.convertsTo k = false := by rw [Members.convertsTo, hc]; rfl
      rw [convertedCast, if_neg (Bool.eq_false_iff.1 hk), convertValue, hc, hconverts]
      exact (failsFor_of_run rfl).trans (iff_of_true rfl rfl)

/-- A value of another kind is a mismatch just where it has no implicit converter. -/
theorem setConverted_mismatch_iff {t : Target o.kind} (ht : o.target? n = some t)
    (hv : v.is t.arg = false) :
    ((o.setConverted n v).run h).1 =
        .error (.mismatch (o.types.label t.arg) (.named v.typeName)) ↔
      v.members.convertsImplicitlyTo t.arg = false := by
  cases hconverts : v.members.convertsImplicitlyTo t.arg with
  | false =>
      rw [setConverted_of_not_hop ht hv hconverts]
      exact iff_of_true rfl rfl
  | true =>
      obtain ⟨c, hc, himplicit⟩ := (Option.any_eq_true _ _).1 hconverts
      refine iff_of_false (fun herror => ?_) Bool.false_ne_true.symm
      rw [setConverted_of_hop ht hv hc himplicit] at herror
      have hraises : Raises (do o.write n ⟨c.target, c.convert (← v.content)⟩ t)
          (· = .missing o.typeName n .declined) :=
        v.raises_content.bind fun x => o.raises_write n _ t
      obtain hincidental | heq := hraises h _ herror
      · cases hincidental
      · cases heq

/-- A value that has an implicit converter is written through the setter. -/
theorem setConverted_of_rests {s : Setter o.kind} {x y : Value U} (O : o.Rests h x)
    (V : v.Rests h y) (ht : o.target? n = some (.setter s)) (hv : v.is s.arg = false)
    (hconverts : v.members.convertsImplicitlyTo s.arg = true) :
    ((o.setConverted n v).run h).1 = .ok () := by
  obtain ⟨c, hc, himplicit⟩ := (Option.any_eq_true _ _).1 hconverts
  obtain ⟨b, rfl⟩ := V.exists_content
  obtain ⟨a, rfl⟩ := O.exists_content
  obtain ⟨z, hz⟩ : ∃ z, Value.as? s.arg ⟨c.target, c.convert b⟩ = some z :=
    Option.isSome_iff_exists.1 (Value.as?_isSome_iff.2 (target_of_converter? hc))
  rw [setConverted_of_hop ht hv hc himplicit, bind_of_ok V.run_content, write_of_edit O.edit?]
  simp only [Target.answer, Value.as?_mk, hz]

/-! ### Items -/

theorem failsFor_elements_iff :
    FailsFor o.elements h "type is not iterable" ↔ o.members.iteration.isSome = false := by
  cases hit : o.members.iteration with
  | some it =>
      have hraises : Raises o.elements fun _ => False := o.raises_elements (by rw [hit]; rfl)
      exact iff_of_false (hraises.not_failsFor (fun _ => False.elim) h) Bool.false_ne_true.symm
  | none =>
      rw [elements, hit]
      exact (failsFor_of_run rfl).trans (iff_of_true rfl rfl)

theorem failsFor_items_iff :
    FailsFor o.items h "type is not iterable" ↔ o.members.iteration.isSome = false := by
  cases hit : o.members.iteration with
  | some it =>
      have hraises : Raises o.items fun _ => False := o.raises_items (by rw [hit]; rfl)
      exact iff_of_false (hraises.not_failsFor (fun _ => False.elim) h) Bool.false_ne_true.symm
  | none =>
      rw [items, elements, hit]
      exact (failsFor_of_run rfl).trans (iff_of_true rfl rfl)

/-! ### Questions and uses -/

/-- **What a type says of itself is what its objects do.**  Let calls describe the type of an
object, in one go or in several.  If the value is not in use, an attribute is missing to readers
just where the type has no such attribute and no fallback for reading.  For writers, converting or
not, it is read-only just where the type has the attribute, and neither a setter for it nor a
fallback for writing, and missing just where it has none of the three.  A method is listed just
where one of the two sorts of calls does not find it missing, whatever the arguments.  A call points
at the calls that return references just where the method is of that sort and has no overloads, and
those calls find the method missing just where it is not of that sort.  A conversion to another kind
has no converter just where the type says so.  A value of another kind than an attribute takes is a
mismatch to a converting write just where the type has no implicit converter to that kind; where it
has one, and both values are at rest, a write through a setter succeeds.  The items are refused just
where the type has no iteration. -/
theorem reflection_spec (o : Object U) (ds : List (Declaration o.kind))
    (ho : o.members = declared ds) (h : Heap U) (n : String) :
    ((∀ l, o.holder = .shared l → h.canWrite l = true) →
      (FailsFor (o.get [n]) h "no such attribute" ↔
        o.members.hasAttribute n = false ∧ o.members.fallbackGetter.isSome = false)) ∧
    (∀ v converted,
      (FailsFor (o.assign n v converted) h "attribute is read-only" ↔
        o.members.hasAttribute n = true ∧ o.members.isWritable n = false ∧
          o.members.fallbackSetter.isSome = false) ∧
      (FailsFor (o.assign n v converted) h "no such attribute" ↔
        o.members.hasAttribute n = false ∧ o.members.isWritable n = false ∧
          o.members.fallbackSetter.isSome = false)) ∧
    (∀ args,
      (n ∈ o.members.methodNames ↔ ¬ FailsFor (o.call n args) h "no such method" ∨
        ¬ FailsFor (o.callRef n) h "no such method") ∧
      (FailsFor (o.call n args) h "method returns a reference; invoke it with call_ref" ↔
        o.members.returnsReference n = true ∧ o.members.overloads n = [])) ∧
    (FailsFor (o.callRef n) h "no such method" ↔ o.members.returnsReference n = false) ∧
    (∀ k, o.is k = false →
      (FailsFor (o.convertedCast k) h "no converter registered" ↔
        o.members.convertsTo k = false) ∧
      ∀ (p : Object U) (name : String) (t : Target p.kind),
        p.target? name = some t → t.arg = k →
        (((p.setConverted name o).run h).1 =
            .error (.mismatch (p.types.label k) (.named o.typeName)) ↔
          o.members.convertsImplicitlyTo k = false) ∧
        (o.members.convertsImplicitlyTo k = true → (∃ s, t = .setter s) →
          ∀ x y, p.Rests h x → o.Rests h y → ((p.setConverted name o).run h).1 = .ok ())) ∧
    (FailsFor o.elements h "type is not iterable" ↔ o.members.iteration.isSome = false) ∧
    (FailsFor o.items h "type is not iterable" ↔ o.members.iteration.isSome = false) := by
  -- The calls leave no method without overloads, so the table of methods and the overloads agree.
  have hmethods : o.members.methods.contains n = false ↔ o.members.overloads n = [] := by
    have hcontains := contains_methods_declared ds n
    rw [← ho] at hcontains
    rw [← Bool.not_eq_true, hcontains, not_not]
  have hattribute := Missing.message_ite (o.members.hasAttribute n) .readOnly .noAttribute
    (by decide)
  have hmethod := Missing.message_ite (o.members.returnsReference n) .returnsReference .noMethod
    (by decide)
  refine ⟨failsFor_get_iff, fun v converted => ⟨?_, ?_⟩, fun args => ⟨?_, ?_⟩,
    failsFor_callRef_iff, fun k hk => ⟨failsFor_convertedCast_iff hk, ?_⟩,
    failsFor_elements_iff, failsFor_items_iff⟩
  · rw [failsFor_assign_iff (by decide), target?_eq_none_iff, and_comm]
    exact and_congr_left fun _ => hattribute.1
  · rw [failsFor_assign_iff (by decide), target?_eq_none_iff, and_comm]
    exact and_congr_left fun _ => hattribute.2
  · have hmissing : FailsFor (o.call n args) h "no such method" ↔ _ :=
      (failsFor_call_iff (by decide)).trans (and_congr_right fun _ => hmethod.2)
    rw [Members.mem_methodNames, hmissing, failsFor_callRef_iff]
    cases o.members.methods.contains n <;> cases o.members.returnsReference n <;> simp
  · rw [failsFor_call_iff (by decide), hmethods, and_comm]
    exact and_congr_left fun _ => hmethod.1
  · rintro p name t ht rfl
    refine ⟨setConverted_mismatch_iff ht hk, ?_⟩
    rintro hconverts ⟨s, rfl⟩ x y P O
    exact setConverted_of_rests P O ht hk hconverts

/-! ### A knob -/

/-- A method of both sorts, one that returns a reference alone, an attribute that can be written and
one that cannot, and a converter of each sort. -/
def knobCalls : List (Declaration (.int : Kind bare)) :=
  [.addReadwrite "at" .int .int (fun n => n) fun _ n => n, .addReadonly "half" .int (· / 2),
    .addMethod "whole" [] .int fun n _ => n, .addMethodRef "whole" .int Lens.id,
    .addMethodRef "self" .int Lens.id, .conversion .string fun n : Int64 => toString n,
    .implicitConversion .bool fun n : Int64 => n != 0]

/-- The number in the first cell, which is shared. -/
def knob : Object bare where
  types := ⟨0, #[⟨.int, "knob", 0, declared knobCalls⟩]⟩
  index := ⟨0, by decide⟩
  holder := .shared 0

/-- Names that are lacking, read-only or of both sorts, and conversions of all sorts. -/
theorem reflection_spec_knob :
    let h : Heap bare := ⟨#[⟨⟨.int, 3⟩, 0, false⟩]⟩
    knob.members = declared knobCalls ∧
    FailsFor (knob.get ["lost"]) h "no such attribute" ∧
    FailsFor (knob.assign "half" knob false) h "attribute is read-only" ∧
    ¬ FailsFor (knob.assign "at" knob false) h "attribute is read-only" ∧
    "whole" ∈ knob.members.methodNames ∧
    ¬ FailsFor (knob.call "whole" []) h "method returns a reference; invoke it with call_ref" ∧
    FailsFor (knob.call "self" []) h "method returns a reference; invoke it with call_ref" ∧
    FailsFor (knob.callRef "at") h "no such method" ∧
    FailsFor (knob.convertedCast .float) h "no converter registered" ∧
    ¬ FailsFor (knob.convertedCast .string) h "no converter registered" ∧
    FailsFor knob.items h "type is not iterable" := by
  intro h
  have hfree : ∀ l, knob.holder = .shared l → h.canWrite l = true := by
    intro l hl
    cases hl
    rfl
  have hspec := reflection_spec knob knobCalls rfl h
  obtain ⟨hlost, -⟩ := hspec "lost"
  obtain ⟨-, hhalf, -⟩ := hspec "half"
  obtain ⟨-, hat, -, hat', hconverts, -, hitems⟩ := hspec "at"
  obtain ⟨-, -, hwhole, -⟩ := hspec "whole"
  obtain ⟨-, -, hself, -⟩ := hspec "self"
  have hwhole' : ¬ FailsFor (knob.callRef "whole") h "no such method" := fun hfails =>
    nomatch (hspec "whole").2.2.2.1.1 hfails
  refine ⟨rfl, (hlost hfree).2 ⟨rfl, rfl⟩, (hhalf knob false).1.2 ⟨rfl, rfl, rfl⟩, fun hfails => ?_,
    (hwhole []).1.2 (.inr hwhole'), fun hfails => ?_, (hself []).2.2 ⟨rfl, rfl⟩, hat'.2 rfl,
    (hconverts .float rfl).1.2 rfl, fun hfails => ?_, hitems.2 rfl⟩
  · exact nomatch ((hat knob false).1.1 hfails).2.1
  · exact nomatch ((hwhole []).2.1 hfails).2
  · exact nomatch (hconverts .string rfl).1.1 hfails

end Object

end ChainScript.Script
