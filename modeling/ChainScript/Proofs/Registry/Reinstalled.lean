import ChainScript.Proofs.Members.Overlaid
import ChainScript.Proofs.Members.Reopened
import ChainScript.Proofs.Registry.Provided

/-!
# The built-in types installed again

An installation opens each built-in type, under whatever name it is known, and makes the calls of
that type on top of its members.  The calls of one type fill different places, so after an
installation every place that they fill has its entry, and a second installation puts each entry
where it is already.

## Main definitions

* `builtinCalls` — the calls that an installation makes for a built-in type.

## Main results

* `apart_builtinCalls` — they fill different places.
* `Catalog.Indexed.describe_again` — a type that has the members of its registration.
* `Catalog.reinstall_spec` — what an installation changes, and that a second one changes nothing.
-/

namespace ChainScript.Script

variable {U : Universe} {g : Registration U}

/-- The calls that an installation makes for a type; there are none for the types of a host. -/
def builtinCalls : (k : Kind U) → List (Declaration k)
  | .unit => [.withDisplay fun _ => "()"]
  | .bool => [.withDisplay showBool, .implicitConversion .int intOfBool,
      .conversion .string showBool]
  | .int => [.withDisplay fun n : Int64 => toString n, .implicitConversion .float Int64.toFloat,
      .conversion .string fun n : Int64 => toString n, .addMethod "abs" [] .int fun n _ => absInt n]
  | .float => [.withDisplay Decimal.showFloat, .conversion .int Float.toInt64,
      .conversion .string Decimal.showFloat, .addMethod "abs" [] .float fun x _ => Float.abs x,
      .addMethod "floor" [] .float fun x _ => Float.floor x]
  | .string => [.withDisplay fun s => s,
      .addReadonly "len" .int fun s : String => Int64.ofNat s.utf8ByteSize,
      .addMethod "is_empty" [] .bool fun s _ => String.isEmpty s,
      .addMethod "contains" [.string] .bool fun s args => Text.contains s args.1,
      .addMethod "to_upper" [] .string fun s _ => Text.upper s,
      .addMethod "to_lower" [] .string fun s _ => Text.lower s]
  | .host _ => []

theorem build_eq_declare (hg : g ∈ builtinTypes (U := U)) (b : Builder g.kind) :
    g.build b = b.declare (builtinCalls g.kind) := by
  simp only [builtinTypes, List.mem_cons, List.not_mem_nil, or_false] at hg
  obtain rfl | rfl | rfl | rfl | rfl := hg <;> rfl

theorem apart_builtinCalls (k : Kind U) : Apart (builtinCalls k) where
  isSome := by cases k <;> simp [builtinCalls, Declaration.slot?]
  nodup := by cases k <;> simp [builtinCalls, Declaration.slot?]

section Descriptor

variable {k : Kind U} (name : String) (owner : Nat) (m m' : Members k)

theorem membersAs_mk : (⟨k, name, owner, m⟩ : Descriptor U).membersAs k = m := dif_pos rfl

theorem withMembers_mk :
    (⟨k, name, owner, m⟩ : Descriptor U).withMembers m' = ⟨k, name, owner, m'⟩ := dif_pos rfl

theorem withMembers_withMembers (d : Descriptor U) :
    (d.withMembers m).withMembers m' = d.withMembers m' := by
  obtain ⟨k', name, owner, m₀⟩ := d
  by_cases hk : k' = k
  · subst hk
    rw [withMembers_mk, withMembers_mk, withMembers_mk]
  · simp only [Descriptor.withMembers, dif_neg hk]

theorem name_withMembers (d : Descriptor U) : (d.withMembers m).name = d.name :=
  congrArg Prod.snd (d.tag_withMembers m)

end Descriptor

namespace Catalog

variable {c c' : Catalog U}

/-- A built-in type that is known gets the calls on top of its members. -/
theorem describe_builtin (hg : g ∈ builtinTypes) {d : Descriptor U}
    (hd : c.find? g.kind = some d) : g.describe c = d.withMembers
      (Builder.declare { members := d.membersAs g.kind } (builtinCalls g.kind)).members := by
  rw [describe_of_some hd, build_eq_declare hg]

/-- A built-in type that is not known gets the members that the calls describe. -/
theorem describe_new_builtin (hg : g ∈ builtinTypes) (hnone : c.find? g.kind = none) :
    g.describe c = ⟨g.kind, g.name, c.id, declared (builtinCalls g.kind)⟩ := by
  rw [describe_of_none hnone, build_eq_declare hg]
  rfl

/-- **A built-in type that is as it should be** stays as it is. -/
theorem Indexed.describe_again (C : c.Indexed) (hg : g ∈ builtinTypes)
    (hfound : c'.find? g.kind = some (g.describe c)) : g.describe c' = g.describe c := by
  have A := apart_builtinCalls g.kind
  rw [describe_builtin hg hfound]
  cases hfind : c.find? g.kind with
  | some d =>
      have hkind := (C.find?_eq_some_iff.1 hfind).2
      rw [describe_builtin hg hfind, membersAs_withMembers hkind, A.declare_reopened_again,
        withMembers_withMembers]
  | none =>
      rw [describe_new_builtin hg hfind, membersAs_mk, withMembers_mk, declared,
        A.declare_reopened_again]

/-- Built-in types that are as they should be can be installed again, which changes nothing. -/
theorem Indexed.install_of_found (C : c.Indexed)
    (hfound : ∀ g ∈ builtinTypes, c.find? g.kind = some (g.describe c)) :
    c.install builtinTypes = (c, .ok ()) := by
  obtain ⟨known, rest, hgs, -, hfold, -, hresult⟩ :=
    C.install_cases nodup_kinds_builtinTypes nodup_names_builtinTypes
  have hcatalog : (c.install builtinTypes).1 = c := by
    refine hfold.trans (foldl_adopt_eq_self fun d hd => ?_)
    obtain ⟨g, hg, rfl⟩ := List.mem_map.1 hd
    rw [C.ownedBy_describe, C.kind_describe]
    exact hfound g (hgs ▸ List.mem_append_left _ hg)
  obtain ⟨-, hok⟩ | ⟨g, rest', rfl, hclash, -⟩ := hresult
  · exact Prod.ext hcatalog hok
  · refine absurd (.inl ?_) hclash
    have hg : g ∈ builtinTypes := hgs ▸ List.mem_append_right _ List.mem_cons_self
    by_contra hfree
    have hfind := hfound g hg
    rw [C.find?_eq_none_iff.2 hfree] at hfind
    cases hfind

/-- **Installing the built-in types again changes nothing, and the first time little.**  After an
installation that succeeds, another one succeeds too and leaves the very same catalog.  The first
one keeps the names in their order, with those of the built-in types that were missing after them,
and makes the calls of each built-in type.  A built-in type that was known, under any name and with
any members, is found under the same kind and name: the places that the calls fill have their
entries, every other place holds what it held, and overloads have kept their order, with new ones
after the old.  One that was not known has the members that the calls describe.  Every other type
is as it was, and so is every look-up by a name that is not that of a built-in type. -/
theorem reinstall_spec (hc : c.Reachable) (hrun : c.install builtinTypes = (c', .ok ())) :
    c'.install builtinTypes = (c', .ok ()) ∧
    c'.id = c.id ∧
    c'.names = c.names ++ (builtinTypes.filter (·.kind ∉ c.kinds)).map (·.name) ∧
    (∀ g ∈ builtinTypes,
      (∀ b, g.build b = b.declare (builtinCalls g.kind)) ∧
      (∀ d, c.find? g.kind = some d →
        ∃ m, (d.membersAs g.kind).Overlaid (builtinCalls g.kind) m ∧
          c'.find? g.kind = some (d.withMembers m) ∧
          c'.findName? d.name = some (d.withMembers m)) ∧
      (c.find? g.kind = none →
        c'.find? g.kind = some ⟨g.kind, g.name, c.id, declared (builtinCalls g.kind)⟩ ∧
        c'.findName? g.name = some ⟨g.kind, g.name, c.id, declared (builtinCalls g.kind)⟩)) ∧
    (∀ k ∉ builtinTypes.map (·.kind), c'.find? k = c.find? k) ∧
    ∀ name ∉ builtinTypes.map fun g => (g.describe c).name,
      c'.findName? name = c.findName? name := by
  have C := hc.indexed
  obtain ⟨known, rest, hgs, -, -, H, hresult⟩ :=
    C.install_cases nodup_kinds_builtinTypes nodup_names_builtinTypes
  obtain ⟨rfl, -⟩ | ⟨g, rest', -, -, d, -, -, herror⟩ := hresult
  case inr =>
    rw [hrun] at herror
    cases herror
  rw [List.append_nil] at hgs
  subst hgs
  rw [hrun] at H
  have C' := H.growsTo.indexed
  have hkinds : (builtinTypes.map (·.describe c)).map (·.kind) = builtinTypes.map (·.kind) := by
    rw [List.map_map]
    exact List.map_congr_left fun f _ => C.kind_describe f
  have hfound : ∀ g ∈ builtinTypes, c'.find? g.kind = some (g.describe c) := by
    intro g hg
    have htaken := H.taken (g.describe c) (List.mem_map_of_mem hg)
    rwa [C.ownedBy_describe, C.kind_describe] at htaken
  refine ⟨C'.install_of_found fun g hg => ?_, H.growsTo.id_eq, C.names_of_takesOver_describe H,
    fun g hg => ⟨build_eq_declare hg, fun d hd => ?_, fun hnone => ?_⟩,
    fun k hk => H.others k (hkinds ▸ hk), fun name hname => H.findName?_eq C ?_⟩
  · rw [C.describe_again hg (hfound g hg)]
    exact hfound g hg
  · have hfind := hfound g hg
    rw [describe_builtin hg hd] at hfind
    have hname := C'.findName?_of_find? hfind
    rw [name_withMembers] at hname
    exact ⟨_, (apart_builtinCalls g.kind).overlaid_declare _, hfind, hname⟩
  · have hfind := hfound g hg
    rw [describe_new_builtin hg hnone] at hfind
    exact ⟨hfind, C'.findName?_of_find? hfind⟩
  · rwa [List.map_map]

/-! ### Integers under a name of their own -/

open Gallery (world)

/-- An attribute, an overload of the absolute value, two conversions and a display. -/
def ownCalls : List (Declaration (.int : Kind world)) :=
  [.withPolicy .share, .addReadonly "half" .int fun n => n / 2,
    .addStatic "abs" [.int] .int fun args => absInt args.1, .conversion .float fun _ => 0,
    .conversion (.host .byte) fun n : Int64 => n.toUInt64.toUInt8, .withDisplay fun _ => "?"]

/-- The attribute and the conversion to bytes stay, the conversion to floats becomes implicit, and
the absolute value has one overload more. -/
theorem reinstall_spec_number :
    ∃ c c' : Catalog world, ∃ d d' : Descriptor world,
      c.Reachable ∧ c.install builtinTypes = (c', .ok ()) ∧
      c'.install builtinTypes = (c', .ok ()) ∧
      c'.names = ["number", "unit", "bool", "float", "string"] ∧
      c.find? .int = some d ∧ c'.findName? "number" = some d' ∧
      d.membersAs .int = declared ownCalls ∧
      (d'.membersAs .int).at? (.attr "half") = (d.membersAs .int).at? (.attr "half") ∧
      (d'.membersAs .int).at? (.converter (.host .byte)) =
        (d.membersAs .int).at? (.converter (.host .byte)) ∧
      (d.membersAs .int).convertsImplicitlyTo .float = false ∧
      (d'.membersAs .int).at? (.converter .float) =
        some (.converter ⟨.float, true, Int64.toFloat⟩) ∧
      [[.int]] <+: ((d'.membersAs .int).overloads "abs").map Overload.params := by
  let c : Catalog world := ((Change.register .int "number" (·.declare ownCalls)).run (.empty 1)).1
  have hc : c.Reachable := .change _ (.empty 1) nofun
  have hrun : c.install builtinTypes = ((c.install builtinTypes).1, .ok ()) := by rfl
  obtain ⟨hagain, -, hnames, hbuiltin, -, -⟩ := reinstall_spec hc hrun
  obtain ⟨-, hknown, -⟩ := hbuiltin ⟨.int, "int", intMembers⟩ (by simp [builtinTypes])
  let d : Descriptor world := ⟨.int, "number", 1, declared ownCalls⟩
  have hd : c.find? .int = some d := rfl
  obtain ⟨m, hoverlaid, -, hname⟩ := hknown d hd
  have hkind : d.kind = .int := rfl
  have hm : (d.withMembers m).membersAs .int = m := membersAs_withMembers hkind m
  have hown : d.membersAs .int = declared ownCalls := rfl
  refine ⟨c, _, d, _, hc, hrun, hagain, hnames, hd, hname, hown, ?_, ?_, rfl, ?_, ?_⟩
  all_goals rw [hm]
  · exact hoverlaid.kept.at_eq _ (by simp [builtinCalls, Declaration.slot?])
  · exact hoverlaid.kept.at_eq _ (by simp [builtinCalls, Declaration.slot?])
  · exact hoverlaid.filled (.implicitConversion .float Int64.toFloat) (by simp [builtinCalls]) _ rfl
  · exact hoverlaid.kept.overloads "abs"

end Catalog

end ChainScript.Script
