import ChainScript.Proofs.Object.Seen

/-!
# Fields of an object at rest

A field that is read yields the part of the object's value, whatever the policy under which it is
registered and however the object holds its value.  A field that is written replaces the part, so
the same field reads what was written, and a field with a disjoint lens reads what it read before.

## Main definitions

* `Object.HasField` — an attribute that is a part of its owner.
* `Object.Yields` — what reading an attribute yields.
* `Lens.Disjoint` — what is put by one lens is not seen by another.

## Main results

* `Object.Rests.yields_field` — reading a field.
* `Object.Rests.assign_field` — writing a field.
-/

namespace ChainScript.Script

variable {U : Universe}

open Run

/-- What is put by the first lens is not seen by the second. -/
def Lens.Disjoint {s t t' : Type} (l : Lens s t) (l' : Lens s t') : Prop :=
  ∀ o v, l'.view (l.put o v) = l'.view o

namespace Object

variable {o : Object U} {h h' : Heap U} {v w : Value U}

/-- The attribute is a part of its owner, as a field is registered, and its kind is known. -/
structure HasField (o : Object U) (name : String) (ret : Kind U) (policy : Policy)
    (lens : Lens o.kind.Carrier ret.Carrier) : Prop where
  getter : o.members.getters.get? name = some (.field ret policy lens)
  setter : o.members.setters.get? name =
    some ⟨ret, fun owner part => lens.put (lens.touch owner) part⟩
  known : o.types.contains ret = true

/-- Reading the attribute yields an object with the value. -/
def Yields (o : Object U) (name : String) (h : Heap U) (v : Value U) : Prop :=
  ∃ r h₁, (o.get [name]).run h = (.ok r, h₁) ∧ r.copied? h₁ = some v

/-! ### Reading a field -/

theorem copied?_of_read? {r : Object U} {k : Kind U} {x : k.Carrier} (hkind : r.kind = k)
    (hread : r.holder.read? h = some ⟨k, x⟩) : r.copied? h = some ⟨k, x⟩ := by
  subst hkind
  rw [copied?, hread, Option.bind_some, Value.as?_mk, Option.map_some]

/-- **Reading a field** yields the part of the value. -/
theorem Rests.yields_field {x : o.kind.Carrier} (R : o.Rests h ⟨o.kind, x⟩)
    (L : LawfulPath o.holder.place.path) {name : String} {ret : Kind U} {policy : Policy}
    {lens : Lens o.kind.Carrier ret.Carrier} (F : o.HasField name ret policy lens)
    (hlens : lens.Lawful) : o.Yields name h ⟨ret, lens.view x⟩ := by
  obtain ⟨guarded, h₁, hlent, -, R₁⟩ := R.exists_reborrow
  obtain ⟨i, hi⟩ := Option.isSome_iff_exists.1 F.known
  have H := R₁.shows_readGetter L name fun _ _ _ heq => by
    cases (heq : Getter.field ret policy lens = _)
    exact hlens
  have hsee : Getter.see o.types o.typeName name x (.field ret policy lens) =
      .ok (i, ⟨ret, lens.view x⟩) := by
    rw [Getter.see, Registry.known, hi]
  obtain ⟨holder, h₂, hrun, -, R₂, -⟩ := show Shows o.types h₁ _ (.ok (i, _)) from hsee ▸ H
  refine ⟨_, h₂, ?_, R₂.copied?⟩
  have hmember : (o.withHolder (.view o.holder.place guarded)).members.getters.get? name =
      some (.field ret policy lens) := F.getter
  rw [get_of_ne_nil o (List.cons_ne_nil name []), bind_of_ok hlent, readPath, readAttribute]
  simp only [hmember]
  exact bind_of_ok hrun

/-! ### Writing a field -/

theorem kind_given? {value : Object U} {k : Kind U} {converted : Bool} {y : Value U}
    (hy : value.given? k converted h = some y) : y.kind = k := by
  unfold given? at hy
  split at hy
  · next his =>
    obtain ⟨x, -, rfl⟩ := Option.map_eq_some_iff.1 hy
    exact of_decide_eq_true his
  · split at hy
    · obtain ⟨c, hc, hy⟩ := Option.bind_eq_some_iff.1 hy
      obtain ⟨x, -, rfl⟩ := Option.map_eq_some_iff.1 hy
      exact target_of_converter? (Option.eq_some_of_filter_eq_some hc)
    · cases hy

/-- **Writing a field** replaces the part of the value, where the value to be written is given. -/
theorem Rests.assign_field {x : o.kind.Carrier} (R : o.Rests h ⟨o.kind, x⟩)
    {name : String} {ret : Kind U} {policy : Policy} {lens : Lens o.kind.Carrier ret.Carrier}
    (F : o.HasField name ret policy lens) (hlens : lens.Lawful) (value : Object U)
    (converted : Bool) :
    (value.given? ret converted h = none →
      ∃ e, (o.assign name value converted).run h = (.error e, h)) ∧
    ∀ y, value.given? ret converted h = some y → ∃ part, y = ⟨ret, part⟩ ∧
      (o.assign name value converted).run h =
        (.ok (), h.write o.holder.place ⟨o.kind, lens.put x part⟩) := by
  have htarget : o.target? name = some (.setter ⟨ret, fun owner part =>
      lens.put (lens.touch owner) part⟩) := by
    rw [target?, F.setter]
  have hassigned : o.assigned? name value converted h ⟨o.kind, x⟩ =
      (value.given? ret converted h).bind fun y => (y.as? ret).map fun part =>
        ⟨o.kind, lens.put x part⟩ := by
    rw [assigned?, htarget]
    change (value.given? ret converted h).bind _ = _
    refine Option.bind_congr fun y _ => ?_
    rw [Target.put?, Value.as?_mk]
    cases y.as? ret with
    | none => rfl
    | some part => simp [hlens.touch]
  obtain ⟨hnone, hsome⟩ := R.assign name value converted
  constructor
  · intro hgiven
    exact hnone (by rw [hassigned, hgiven]; rfl)
  · intro y hgiven
    obtain ⟨part, hpart⟩ := Option.isSome_iff_exists.1 (Value.as?_isSome_iff.2 (kind_given? hgiven))
    obtain ⟨-, r, hrun, hr⟩ := hsome ⟨o.kind, lens.put x part⟩
      (by rw [hassigned, hgiven, Option.bind_some, hpart]; rfl)
    refine ⟨part, Value.as?_eq_some_iff.1 hpart, ?_⟩
    obtain rfl := hr.resolve_right (by simp [leavesToFallback, htarget, Target.isFallback])
    exact hrun

end Object

end ChainScript.Script
