import ChainScript.Proofs.Members.Declared
import ChainScript.Proofs.Object.Call
import ChainScript.Proofs.Ordered.Entries
import ChainScript.Script.Catalog

/-!
# Overloads and their selection

A list of overloads is told apart by parameter lists: an overload takes the place of the one with
its parameters or comes to the end.  So parameter lists stand in the order of their first
registrations, and each has the overload that was registered with it last.  Arguments select the
overload whose parameters are their kinds, and where there is none nothing is run.

## Main definitions

* `Resolves` — what a list of overloads has to do with the overloads registered.

## Main results

* `Resolves.add`, `resolves_foldl` — one registration, and a list of them.
* `Resolves.eq_filterMap` — what was registered determines the list.
* `Resolves.selectOverload_of_mem` — an overload is selected by its parameters.
* `pairwise_arities`, `mem_arities` — the numbers of arguments that a refusal names.
* `dispatch_spec` — what calls and constructions select.
-/

namespace ChainScript.Script

variable {U : Universe}

section Buckets

variable {α : Type} {params : α → List (Kind U)} {os bucket : List α} {o f : α}

/-! ### Registration -/

/-- The list of overloads that registrations leave: parameter lists in the order of their first
registrations, none twice, and each with its last. -/
structure Resolves (params : α → List (Kind U)) (os bucket : List α) : Prop where
  order : bucket.map params = (os.map params).eraseDups
  distinct : (bucket.map params).Nodup
  last : ∀ f ∈ bucket, os.reverse.find? (params · = params f) = some f

theorem map_addOverload (o : α) (bucket : List α) :
    (addOverload params o bucket).map params =
      if params o ∈ bucket.map params then bucket.map params
      else bucket.map params ++ [params o] := by
  induction bucket with
  | nil => simp [addOverload]
  | cons x rest ih =>
      rw [addOverload]
      by_cases hx : params x = params o
      · simp [hx]
      · rw [if_neg hx, List.map_cons, ih]
        simp only [List.map_cons, List.mem_cons, Ne.symm hx, false_or]
        split <;> rfl

/-- A registered overload comes in, and the one with its parameters goes. -/
theorem mem_addOverload (h : (bucket.map params).Nodup) :
    f ∈ addOverload params o bucket ↔ f = o ∨ f ∈ bucket ∧ params f ≠ params o := by
  induction bucket with
  | nil => simp [addOverload]
  | cons x rest ih =>
      obtain ⟨hnew, hrest⟩ := List.nodup_cons.1 h
      rw [addOverload]
      by_cases hx : params x = params o
      · have hother : f ∈ rest → params f ≠ params o := fun hf heq =>
          hnew (hx.trans heq.symm ▸ List.mem_map_of_mem hf)
        rw [if_pos hx, List.mem_cons, List.mem_cons]
        constructor
        · exact Or.imp_right fun hf => ⟨.inr hf, hother hf⟩
        · rintro (rfl | ⟨rfl | hf, hne⟩)
          · exact .inl rfl
          · exact absurd hx hne
          · exact .inr hf
      · rw [if_neg hx, List.mem_cons, ih hrest, List.mem_cons]
        constructor
        · rintro (rfl | rfl | ⟨hf, hne⟩)
          · exact .inr ⟨.inl rfl, hx⟩
          · exact .inl rfl
          · exact .inr ⟨.inr hf, hne⟩
        · rintro (rfl | ⟨rfl | hf, hne⟩)
          · exact .inr (.inl rfl)
          · exact .inl rfl
          · exact .inr (.inr ⟨hf, hne⟩)

theorem resolves_nil : Resolves params [] [] := ⟨rfl, List.nodup_nil, nofun⟩

theorem Resolves.add (R : Resolves params os bucket) (o : α) :
    Resolves params (os ++ [o]) (addOverload params o bucket) where
  order := by
    have hany : params o ∈ bucket.map params ↔ (os.map params).any (· == params o) = true := by
      rw [R.order, ← any_eraseDups, List.any_eq_true]
      simp
    rw [map_addOverload, List.map_append, List.map_singleton, eraseDups_concat, ← R.order]
    simp only [hany]
  distinct := by
    rw [map_addOverload]
    split
    · exact R.distinct
    · next hnew =>
      rw [← List.concat_eq_append]
      exact R.distinct.concat hnew
  last := by
    intro f hf
    rw [List.reverse_append, List.reverse_singleton, List.singleton_append]
    obtain rfl | ⟨hf, hne⟩ := (mem_addOverload R.distinct).1 hf
    · exact List.find?_cons_of_pos (by simp)
    · rw [List.find?_cons_of_neg (by simpa using Ne.symm hne)]
      exact R.last f hf

/-- Whatever overloads are registered one after another. -/
theorem resolves_foldl (os : List α) :
    Resolves params os (os.foldl (fun bucket o => addOverload params o bucket) []) := by
  induction os using List.reverseRecOn with
  | nil => exact resolves_nil
  | append_singleton os o ih =>
      rw [List.foldl_append]
      exact ih.add o

/-- There is one such list. -/
theorem Resolves.eq_filterMap (R : Resolves params os bucket) :
    bucket = (os.map params).eraseDups.filterMap fun ps => os.reverse.find? (params · = ps) := by
  have hfind : bucket.filterMap (fun f => os.reverse.find? (params · = params f)) =
      bucket.filterMap some := List.filterMap_congr R.last
  rw [← R.order, List.filterMap_map]
  exact (hfind.trans List.filterMap_some).symm

theorem Resolves.ne_nil_of_mem (R : Resolves params os bucket) (hf : f ∈ bucket) : os ≠ [] := by
  rintro rfl
  have hlast := R.last f hf
  cases hlast

theorem Resolves.bucket_ne_nil (R : Resolves params os bucket) (hos : os ≠ []) : bucket ≠ [] := by
  rintro rfl
  obtain ⟨o, ho⟩ := List.exists_mem_of_ne_nil os hos
  have hmem : params o ∈ (os.map params).eraseDups :=
    List.mem_eraseDups.2 (List.mem_map_of_mem ho)
  rw [← R.order] at hmem
  cases hmem

/-! ### Selection -/

/-- An overload is selected by its parameters. -/
theorem Resolves.selectOverload_of_mem (R : Resolves params os bucket) (hf : f ∈ bucket) :
    selectOverload params bucket (params f) = some f := by
  have hsome : (selectOverload params bucket (params f)).isSome := by
    rw [selectOverload, List.find?_isSome]
    exact ⟨f, hf, by simp⟩
  obtain ⟨g, hg⟩ := Option.isSome_iff_exists.1 hsome
  have hparams : params g = params f := by simpa using List.find?_some hg
  rw [hg, List.inj_on_of_nodup_map R.distinct (List.mem_of_find?_eq_some hg) hf hparams]

theorem selectOverload_eq_none_iff {kinds : List (Kind U)} :
    selectOverload params bucket kinds = none ↔ ∀ f ∈ bucket, params f ≠ kinds := by
  simp [selectOverload]

/-! ### Numbers of arguments -/

theorem mem_insertNat {n m : Nat} {ns : List Nat} : m ∈ insertNat n ns ↔ m = n ∨ m ∈ ns := by
  induction ns with
  | nil => simp [insertNat]
  | cons x ns ih =>
      rw [insertNat]
      split
      · exact List.mem_cons
      · split
        · next heq => simp [heq]
        · rw [List.mem_cons, ih, List.mem_cons]
          exact or_left_comm

theorem pairwise_insertNat {n : Nat} {ns : List Nat} (h : ns.Pairwise (· < ·)) :
    (insertNat n ns).Pairwise (· < ·) := by
  induction ns with
  | nil => exact List.pairwise_singleton _ n
  | cons x ns ih =>
      obtain ⟨hx, hns⟩ := List.pairwise_cons.1 h
      rw [insertNat]
      split
      · next hlt =>
        refine List.pairwise_cons.2 ⟨fun m hm => ?_, h⟩
        obtain rfl | hm := List.mem_cons.1 hm
        · exact hlt
        · exact hlt.trans (hx m hm)
      · split
        · exact h
        · refine List.pairwise_cons.2 ⟨fun m hm => ?_, ih hns⟩
          obtain rfl | hm := mem_insertNat.1 hm
          · omega
          · exact hx m hm

/-- The numbers of parameters are listed in increasing order. -/
theorem pairwise_arities (params : α → List (Kind U)) (bucket : List α) :
    (arities params bucket).Pairwise (· < ·) := by
  induction bucket with
  | nil => exact .nil
  | cons o bucket ih => exact pairwise_insertNat ih

theorem mem_arities {n : Nat} :
    n ∈ arities params bucket ↔ ∃ f ∈ bucket, (params f).length = n := by
  induction bucket with
  | nil => simp [arities]
  | cons o bucket ih =>
      have hstep : arities params (o :: bucket) =
          insertNat (params o).length (arities params bucket) := rfl
      rw [hstep, mem_insertNat, ih, List.exists_mem_cons_iff, eq_comm]

end Buckets

/-! ### What a type offers -/

section Declared

variable {k : Kind U} {name : String} {ds : List (Declaration k)}

/-- A list that registrations fill in is there from the first one on. -/
theorem foldl_some_addOverload {α : Type} (params : α → List (Kind U)) (os : List α)
    (bucket? : Option (List α)) (hos : os ≠ []) :
    os.foldl (fun bucket? o => some (addOverload params o (bucket?.getD []))) bucket? =
      some (os.foldl (fun bucket o => addOverload params o bucket) (bucket?.getD [])) := by
  induction os generalizing bucket? with
  | nil => exact absurd rfl hos
  | cons o os ih =>
      rw [List.foldl_cons, List.foldl_cons]
      by_cases hrest : os = []
      · rw [hrest]
        rfl
      · exact ih _ hrest

theorem overloads_declared (name : String) (ds : List (Declaration k)) :
    (declared ds).overloads name =
      (overloadsOf name ds).foldl (fun bucket o => addOverload Overload.params o bucket) [] := by
  rw [Members.overloads, get?_methods_declared]
  by_cases hos : overloadsOf name ds = []
  · rw [hos]
    rfl
  · rw [foldl_some_addOverload _ _ _ hos]
    rfl

theorem get?_methods_of_ne_nil (hos : overloadsOf name ds ≠ []) :
    (declared ds).methods.get? name = some ((declared ds).overloads name) := by
  rw [overloads_declared, get?_methods_declared, foldl_some_addOverload _ _ _ hos]
  rfl

/-- The overloads of a method. -/
theorem resolves_overloads (name : String) (ds : List (Declaration k)) :
    Resolves Overload.params (overloadsOf name ds) ((declared ds).overloads name) := by
  rw [overloads_declared]
  exact resolves_foldl _

/-- The overloads of the constructor. -/
theorem resolves_constructors (ds : List (Declaration k)) :
    Resolves Constructor.params (constructorsOf ds) (declared ds).constructors := by
  rw [constructors_declared]
  exact resolves_foldl _

end Declared

/-! ### Calls and constructions -/

section Select

variable {α : Type} {params : α → List (Kind U)} {bucket : List α} {f : α}
  {args : List (Object U)} {type member : String}

theorem select_of_some (h : selectOverload params bucket (args.map (·.kind)) = some f) :
    select params bucket args type member = pure f := by
  rw [select, h]
  rfl

theorem select_of_none (h : selectOverload params bucket (args.map (·.kind)) = none) :
    select params bucket args type member =
      throw (.missing type member (.noOverload args.length (arities params bucket))) := by
  rw [select, h]
  rfl

end Select

section Dispatch

variable {o : Object U} {name : String} {args : List (Object U)}

/-- A call of the overload that the arguments select. -/
theorem call_of_select {bucket : List (Overload o.kind)} {f : Overload o.kind}
    (hbucket : o.members.methods.get? name = some bucket)
    (hf : selectOverload Overload.params bucket (args.map (·.kind)) = some f) :
    o.call name args = (do
      if f.policy = .wrapReference then throw (.noReferent o.typeName name)
      let values ← args.mapM Object.copyValue
      let result ← o.invoke f values
      o.types.wrapNew f.policy ⟨f.ret, result⟩) := by
  rw [Object.call, hbucket]
  change select _ bucket args _ _ >>= _ = _
  rw [select_of_some hf, pure_bind]

theorem call_of_not_select {bucket : List (Overload o.kind)}
    (hbucket : o.members.methods.get? name = some bucket)
    (hf : selectOverload Overload.params bucket (args.map (·.kind)) = none) :
    o.call name args = throw
      (.missing o.typeName name (.noOverload args.length (arities Overload.params bucket))) := by
  rw [Object.call, hbucket]
  change select _ bucket args _ _ >>= _ = _
  rw [select_of_none hf]
  rfl

variable {r : Registry U} {i : Fin r.entries.size}

/-- A construction by the overload that the arguments select. -/
theorem constructAt_of_select {f : Constructor (r.entry i).kind}
    (hf : selectOverload Constructor.params (r.entry i).members.constructors
      (args.map (·.kind)) = some f) :
    r.constructAt i args = (do
      if f.policy = .wrapReference then throw (.noReferent (r.entry i).name "constructor")
      let values ← args.mapM Object.copyValue
      let given ← Run.orThrow (Args.ofValues? f.params values) (.foreignValue (r.entry i).name)
      return ⟨r, i, ← Registry.hold f.policy ⟨(r.entry i).kind, f.make given⟩⟩) := by
  have hne : (r.entry i).members.constructors.isEmpty = false := by
    rw [List.isEmpty_eq_false_iff]
    exact List.ne_nil_of_mem (List.mem_of_find?_eq_some hf)
  simp only [Registry.constructAt, hne, select_of_some hf, pure_bind]
  rfl

theorem constructAt_of_not_select (hne : (r.entry i).members.constructors ≠ [])
    (hf : selectOverload Constructor.params (r.entry i).members.constructors
      (args.map (·.kind)) = none) :
    r.constructAt i args = throw (.missing (r.entry i).name "constructor"
      (.noOverload args.length (arities Constructor.params (r.entry i).members.constructors))) := by
  rw [← List.isEmpty_eq_false_iff] at hne
  simp only [Registry.constructAt, hne, select_of_none hf]
  rfl

/-- **The last overload that was registered with the kinds of the arguments runs, and no other.**
Whatever calls describe a type, among them registrations under a name for shared and for exclusive
receivers and for none, the overloads of the name have their parameter lists in the order of first
registrations and none twice, each with the overload registered last, under the policy in force
then.  A call whose arguments have exactly the kinds of an overload's parameters copies the
arguments and runs that overload.  Any other call under the name is refused with the number of
arguments and the numbers that overloads take, in increasing order; nothing is run, read or
converted.  The same holds of constructors and of constructions, by kind and by name. -/
theorem dispatch_spec :
    (∀ (o : Object U) (ds : List (Declaration o.kind)), o.members = declared ds →
      ∀ (name : String) (args : List (Object U)),
        Resolves Overload.params (overloadsOf name ds) (o.members.overloads name) ∧
        (∀ f ∈ o.members.overloads name, f.params = args.map (·.kind) →
          o.call name args = (do
            if f.policy = .wrapReference then throw (.noReferent o.typeName name)
            let values ← args.mapM Object.copyValue
            let result ← o.invoke f values
            o.types.wrapNew f.policy ⟨f.ret, result⟩)) ∧
        (overloadsOf name ds ≠ [] →
          (∀ f ∈ o.members.overloads name, f.params ≠ args.map (·.kind)) →
          ∃ taken, taken.Pairwise (· < ·) ∧
            (∀ n, n ∈ taken ↔ ∃ f ∈ o.members.overloads name, f.params.length = n) ∧
            o.call name args =
              throw (.missing o.typeName name (.noOverload args.length taken)))) ∧
    ∀ (c : Catalog U) (i : Fin c.entries.size) (ds : List (Declaration (c.entry i).kind)),
      (c.entry i).members = declared ds →
      ∀ (args : List (Object U)) (constructed : Run U (Object U)),
        ((∃ k, c.locate? k = some i ∧ constructed = c.construct k args) ∨
          ∃ name, c.locateName? name = some i ∧ constructed = c.constructNamed name args) →
        Resolves Constructor.params (constructorsOf ds) (c.entry i).members.constructors ∧
        (∀ f ∈ (c.entry i).members.constructors, f.params = args.map (·.kind) →
          constructed = (do
            if f.policy = .wrapReference then throw (.noReferent (c.entry i).name "constructor")
            let values ← args.mapM Object.copyValue
            let given ←
              Run.orThrow (Args.ofValues? f.params values) (.foreignValue (c.entry i).name)
            return ⟨c.toRegistry, i,
              ← Registry.hold f.policy ⟨(c.entry i).kind, f.make given⟩⟩)) ∧
        (constructorsOf ds ≠ [] →
          (∀ f ∈ (c.entry i).members.constructors, f.params ≠ args.map (·.kind)) →
          ∃ taken, taken.Pairwise (· < ·) ∧
            (∀ n, n ∈ taken ↔ ∃ f ∈ (c.entry i).members.constructors, f.params.length = n) ∧
            constructed = throw (.missing (c.entry i).name "constructor"
              (.noOverload args.length taken))) := by
  constructor
  · intro o ds hds name args
    have R := resolves_overloads name ds
    have hbucket : overloadsOf name ds ≠ [] →
        o.members.methods.get? name = some (o.members.overloads name) := by
      rw [hds]
      exact get?_methods_of_ne_nil
    rw [← hds] at R
    refine ⟨R, fun f hf hparams => ?_, fun hne hnone => ?_⟩
    · have hselect := R.selectOverload_of_mem hf
      rw [hparams] at hselect
      exact call_of_select (hbucket (R.ne_nil_of_mem hf)) hselect
    · exact ⟨_, pairwise_arities _ _, fun _ => mem_arities,
        call_of_not_select (hbucket hne) (selectOverload_eq_none_iff.2 hnone)⟩
  · intro c i ds hds args constructed hconstructed
    have hat : constructed = c.constructAt i args := by
      obtain ⟨k, hk, rfl⟩ | ⟨name, hname, rfl⟩ := hconstructed
      · rw [Catalog.construct, hk]
        rfl
      · rw [Catalog.constructNamed, hname]
        rfl
    have R := resolves_constructors ds
    rw [← hds] at R
    refine ⟨R, fun f hf hparams => ?_, fun hne hnone => ?_⟩
    · have hselect := R.selectOverload_of_mem hf
      rw [hparams] at hselect
      exact hat.trans (constructAt_of_select hselect)
    · exact ⟨_, pairwise_arities _ _, fun _ => mem_arities,
        hat.trans (constructAt_of_not_select (R.bucket_ne_nil hne)
          (selectOverload_eq_none_iff.2 hnone))⟩

end Dispatch

/-! ### Two lists of parameters -/

open Object (bare)

/-- Yields what there is to begin with. -/
def origin : Overload (.int : Kind bare) := ⟨[], .int, .copy, .free fun _ => 0⟩

/-- Adds a number to the receiver. -/
def grow : Overload (.int : Kind bare) := ⟨[.int], .int, .share, .writing fun n a => (n, n + a.1)⟩

/-- Begins with a number. -/
def start : Constructor (.int : Kind bare) := ⟨[.int], .share, fun a => a.1⟩

/-- A method for a shared receiver, one for none, and one for an exclusive receiver with the
parameters of the first. -/
def tallyCalls : List (Declaration (.int : Kind bare)) :=
  [.addMethod "at" [.int] .int fun n a => n + a.1, .addStatic "at" [] .int fun _ => 0,
    .withPolicy .share, .addMethodMut "at" [.int] .int fun n a => (n, n + a.1),
    .addConstructor [.int] fun a => a.1]

/-- Numbers with these members. -/
def tallies : Catalog bare := ((Catalog.empty 0).add .int "tally" (·.declare tallyCalls)).catalog

/-- A number in the first cell. -/
def tally : Object bare := ⟨tallies.toRegistry, ⟨0, by decide⟩, .owned 0⟩

/-- The overload with one parameter is the second that was registered, and two arguments are too
many. -/
theorem dispatch_spec_tally :
    tally.members.overloads "at" = [grow, origin] ∧
    tally.call "at" [tally] = (do
      let values ← [tally].mapM Object.copyValue
      let result ← tally.invoke grow values
      tally.types.wrapNew .share ⟨.int, result⟩) ∧
    (∃ taken, taken.Pairwise (· < ·) ∧ (∀ n, n ∈ taken ↔ n = 1 ∨ n = 0) ∧
      tally.call "at" [tally, tally] =
        throw (.missing "tally" "at" (.noOverload 2 taken))) ∧
    ∃ taken, (∀ n, n ∈ taken ↔ n = 1) ∧
      tallies.construct .int [] = throw (.missing "tally" "constructor" (.noOverload 0 taken)) := by
  obtain ⟨hcalls, hconstructions⟩ := dispatch_spec (U := bare)
  obtain ⟨R, hrun, -⟩ := hcalls tally tallyCalls rfl "at" [tally]
  obtain ⟨-, -, hrefused⟩ := hcalls tally tallyCalls rfl "at" [tally, tally]
  obtain ⟨C, -, hunmade⟩ :=
    hconstructions tallies ⟨0, by decide⟩ tallyCalls rfl [] _ (.inl ⟨.int, rfl, rfl⟩)
  have hbucket : tally.members.overloads "at" = [grow, origin] := R.eq_filterMap
  have hgrow : grow ∈ tally.members.overloads "at" := by
    rw [hbucket]
    exact List.mem_cons_self
  have hmade : (tallies.entry ⟨0, by decide⟩).members.constructors = [start] := C.eq_filterMap
  rw [hbucket] at hrefused
  rw [hmade] at hunmade
  obtain ⟨taken, hsorted, htaken, hcall⟩ :=
    hrefused nofun (List.forall_mem_cons.2 ⟨nofun, List.forall_mem_singleton.2 nofun⟩)
  obtain ⟨given, -, hgiven, hconstruct⟩ := hunmade nofun (List.forall_mem_singleton.2 nofun)
  have hmany (n : Nat) : (∃ f ∈ [grow, origin], f.params.length = n) ↔ n = 1 ∨ n = 0 := by
    simp [grow, origin, eq_comm]
  have hone (n : Nat) : (∃ f ∈ [start], f.params.length = n) ↔ n = 1 := by
    simp [start, eq_comm]
  exact ⟨hbucket, hrun grow hgrow rfl,
    ⟨taken, hsorted, fun n => (htaken n).trans (hmany n), hcall⟩,
    given, fun n => (hgiven n).trans (hone n), hconstruct⟩

end ChainScript.Script
