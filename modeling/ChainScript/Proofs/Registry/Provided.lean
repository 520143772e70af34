import ChainScript.Proofs.Registry.Adopted

/-!
# Types made known by a provider

To make a type known is to take over the descriptor that it is to have: the one under its kind with
more members, or a new one under its name.  This can be done unless the kind is free and the name
is not.  A provider makes its types known one after another, and the first that cannot be ends the
installation; those before it stay as they have become.

## Main definitions

* `Registration.describe` — the descriptor that a type is to have.
* `Catalog.Fits` — a type can be made known.

## Main results

* `Catalog.Indexed.ensure_of_fits`, `Catalog.Indexed.ensure_of_not_fits` — one type.
* `Catalog.Indexed.install_cases` — types of different kinds and names, one after another.
* `Catalog.failed_install_spec` — the built-in types, and what a failure leaves behind.
-/

namespace ChainScript.Script

variable {U : Universe}

/-- The descriptor that a type is to have: the one under its kind with the members of the
registration added, or a new one. -/
def Registration.describe (g : Registration U) (c : Catalog U) : Descriptor U :=
  match c.find? g.kind with
  | some d => d.withMembers (g.build { members := d.membersAs g.kind }).members
  | none => ⟨g.kind, g.name, c.id, (g.build {}).members⟩

namespace Catalog

variable {c c' : Catalog U} {f g : Registration U} {gs : List (Registration U)}

/-- The type is known, or its name is free. -/
def Fits (c : Catalog U) (g : Registration U) : Prop := g.kind ∈ c.kinds ∨ g.name ∉ c.names

/-! ### One type -/

theorem Indexed.find?_eq_none_iff (C : c.Indexed) {k : Kind U} :
    c.find? k = none ↔ k ∉ c.kinds := by
  rw [find?, Option.map_eq_none_iff, C.locate?_eq_none_iff]

theorem describe_of_some {d : Descriptor U} (hd : c.find? g.kind = some d) :
    g.describe c = d.withMembers (g.build { members := d.membersAs g.kind }).members := by
  rw [Registration.describe, hd]

theorem describe_of_none (hnone : c.find? g.kind = none) :
    g.describe c = ⟨g.kind, g.name, c.id, (g.build {}).members⟩ := by
  rw [Registration.describe, hnone]

/-- A known type keeps its kind and its name, another one gets those of the registration. -/
theorem Indexed.tag_describe (C : c.Indexed) (g : Registration U) :
    (g.kind ∈ c.kinds ∧ (g.describe c).tag ∈ c.tags ∧ (g.describe c).kind = g.kind) ∨
      g.kind ∉ c.kinds ∧ (g.describe c).tag = (g.kind, g.name) := by
  cases hfind : c.find? g.kind with
  | some d =>
      obtain ⟨hd, hkind⟩ := C.find?_eq_some_iff.1 hfind
      have htag : (g.describe c).tag = d.tag := by
        rw [describe_of_some hfind, Descriptor.tag_withMembers]
      refine .inl ⟨hkind ▸ List.mem_map_of_mem (Array.mem_toList_iff.2 hd), ?_, ?_⟩
      · rw [htag]
        exact List.mem_map_of_mem (Array.mem_toList_iff.2 hd)
      · exact (congrArg Prod.fst htag).trans hkind
  | none => exact .inr ⟨C.find?_eq_none_iff.1 hfind, by rw [describe_of_none hfind]; rfl⟩

theorem Indexed.kind_describe (C : c.Indexed) (g : Registration U) :
    (g.describe c).kind = g.kind := by
  obtain ⟨-, -, hkind⟩ | ⟨-, htag⟩ := C.tag_describe g
  · exact hkind
  · exact congrArg Prod.fst htag

/-- The catalog is the owner. -/
theorem Indexed.ownedBy_describe (C : c.Indexed) (g : Registration U) :
    (g.describe c).ownedBy c.id = g.describe c := by
  have howner : (g.describe c).owner = c.id := by
    cases hfind : c.find? g.kind with
    | some d =>
        rw [describe_of_some hfind, Descriptor.owner_withMembers]
        exact C.owner d (C.find?_eq_some_iff.1 hfind).1
    | none => rw [describe_of_none hfind]
  rw [Descriptor.ownedBy, ← howner]

theorem Indexed.admits_describe (C : c.Indexed) (hg : c.Fits g) : c.Admits (g.describe c) := by
  obtain ⟨-, htag, -⟩ | ⟨hfree, htag⟩ := C.tag_describe g
  · exact .inl htag
  · have hkind : (g.describe c).kind = g.kind := congrArg Prod.fst htag
    have hname : (g.describe c).name = g.name := congrArg Prod.snd htag
    rw [Admits, hkind, hname]
    exact .inr ⟨hfree, hg.resolve_left hfree⟩

/-- To make a type known is to take its descriptor over. -/
theorem Indexed.ensure_of_fits (C : c.Indexed) (hg : c.Fits g) :
    ∃ done, c.ensure g.kind g.name g.build = .ok done ∧
      done.catalog = c.adopt (g.describe c) := by
  rw [ensure]
  cases hlocate : c.locate? g.kind with
  | some i =>
      have hfind : c.find? g.kind = some (c.entry i) := by rw [find?, hlocate]; rfl
      have hadopt : c.adopt (g.describe c) = c.replace i (g.describe c) := by
        simp only [adopt, C.kind_describe, hlocate]
        exact congrArg (c.replace i) (C.ownedBy_describe g)
      refine ⟨_, rfl, ?_⟩
      rw [hadopt, describe_of_some hfind]
      rfl
  | none =>
      have hfind : c.find? g.kind = none := by rw [find?, hlocate]; rfl
      have hfree : c.findName? g.name = none := by
        rw [findName?, Option.map_eq_none_iff, C.locateName?_eq_none_iff]
        exact hg.resolve_left (C.find?_eq_none_iff.1 hfind)
      have hadopt : c.adopt (g.describe c) = c.push (g.describe c) := by
        simp only [adopt, C.kind_describe, hlocate]
        exact congrArg c.push (C.ownedBy_describe g)
      refine ⟨c.add g.kind g.name g.build, ?_, ?_⟩
      · simp only [register, hlocate, hfree]
      · rw [hadopt, describe_of_none hfind]
        rfl

/-- A type of a free kind under a name that is taken is refused. -/
theorem Indexed.ensure_of_not_fits (C : c.Indexed) (hg : ¬ c.Fits g) :
    ∃ d ∈ c.entries, d.name = g.name ∧
      c.ensure g.kind g.name g.build = .error (.alreadyRegistered d.kind g.name) := by
  obtain ⟨hfree, htaken⟩ := not_or.1 hg
  have hlocate := C.locate?_eq_none_iff.2 hfree
  cases hname : c.findName? g.name with
  | none =>
      rw [findName?, Option.map_eq_none_iff, C.locateName?_eq_none_iff] at hname
      exact absurd hname htaken
  | some d =>
      obtain ⟨hd, hdname⟩ := C.findName?_eq_some_iff.1 hname
      refine ⟨d, hd, hdname, ?_⟩
      simp only [ensure, register, hlocate, hname]

/-! ### The other types after one of them -/

section Other

variable (C : c.Indexed) (hf : c.Fits f) (hkind : g.kind ≠ f.kind) (hname : g.name ≠ f.name)
include C hf

theorem Indexed.takesOver_describe : c.TakesOver [f.describe c] (c.adopt (f.describe c)) :=
  C.takesOver_adopt (C.admits_describe hf)

/-- The kinds and names of the new type are all that is added. -/
theorem Indexed.tags_adopt_describe :
    (c.adopt (f.describe c)).tags = c.tags ∨
      (c.adopt (f.describe c)).tags = c.tags ++ [(f.kind, f.name)] := by
  rw [(C.takesOver_describe hf).tags_eq, List.map_singleton]
  obtain ⟨-, htag, -⟩ | ⟨hfree, htag⟩ := C.tag_describe f
  · exact .inl (by rw [List.filter_cons_of_neg (by simpa using htag)]; simp)
  · have hnew : (f.kind, f.name) ∉ c.tags := fun h => hfree <| by
      rw [Registry.kinds_eq]
      exact List.mem_map.2 ⟨_, h, rfl⟩
    exact .inr (by rw [htag, List.filter_cons_of_pos (by simpa using hnew), List.filter_nil])

include hkind

theorem Indexed.describe_adopt : g.describe (c.adopt (f.describe c)) = g.describe c := by
  have H := C.takesOver_describe hf
  have hfind : (c.adopt (f.describe c)).find? g.kind = c.find? g.kind :=
    H.others g.kind (by simpa [C.kind_describe] using hkind)
  cases h : c.find? g.kind with
  | some d => rw [describe_of_some h, describe_of_some (hfind.trans h)]
  | none => rw [describe_of_none h, describe_of_none (hfind.trans h), H.growsTo.id_eq]

include hname

theorem Indexed.fits_adopt : (c.adopt (f.describe c)).Fits g ↔ c.Fits g := by
  rw [Fits, Fits, Registry.kinds_eq, Registry.names_eq, Registry.kinds_eq, Registry.names_eq]
  obtain htags | htags := C.tags_adopt_describe hf
  · rw [htags]
  · rw [htags, List.map_append, List.map_append]
    simp [hkind, hname]

omit hkind in
/-- A name that is taken afterwards and is not that of the new type was taken before. -/
theorem Indexed.mem_of_mem_adopt {d : Descriptor U}
    (hd : d ∈ (c.adopt (f.describe c)).entries) (hdname : d.name = g.name) :
    ∃ e ∈ c.entries, e.kind = d.kind ∧ e.name = g.name := by
  have htag : d.tag ∈ (c.adopt (f.describe c)).tags :=
    List.mem_map_of_mem (Array.mem_toList_iff.2 hd)
  have hold : d.tag ∈ c.tags := by
    obtain htags | htags := C.tags_adopt_describe hf
    · rwa [htags] at htag
    · rw [htags, List.mem_append, List.mem_singleton] at htag
      exact htag.resolve_right fun h => hname (hdname.symm.trans (congrArg Prod.snd h))
  obtain ⟨e, he, hekind, hename⟩ := tag_mem_tags_iff.1 hold
  exact ⟨e, he, hekind, hename.trans hdname⟩

end Other

/-! ### Types one after another -/

/-- **An installation** takes over the descriptors of the types before the first that does not
fit. -/
theorem Indexed.install_cases (C : c.Indexed) (hkinds : (gs.map (·.kind)).Nodup)
    (hnames : (gs.map (·.name)).Nodup) :
    ∃ known rest, gs = known ++ rest ∧ (∀ f ∈ known, c.Fits f) ∧
      (c.install gs).1 = (known.map (·.describe c)).foldl adopt c ∧
      c.TakesOver (known.map (·.describe c)) (c.install gs).1 ∧
      (rest = [] ∧ (c.install gs).2 = .ok () ∨
        ∃ g rest', rest = g :: rest' ∧ ¬ c.Fits g ∧ ∃ d ∈ c.entries, d.name = g.name ∧
          (c.install gs).2 = .error (.alreadyRegistered d.kind g.name)) := by
  induction gs generalizing c with
  | nil => exact ⟨[], [], rfl, nofun, rfl, C.takesOver_nil, .inl ⟨rfl, rfl⟩⟩
  | cons f gs ih =>
      by_cases hf : c.Fits f
      · obtain ⟨done, hdone, hcatalog⟩ := C.ensure_of_fits hf
        have H := C.takesOver_describe hf
        have C₁ := H.growsTo.indexed
        rw [List.map_cons, List.nodup_cons] at hkinds hnames
        have hother : ∀ g ∈ gs, g.kind ≠ f.kind ∧ g.name ≠ f.name := fun g hg =>
          ⟨fun h => hkinds.1 (h ▸ List.mem_map_of_mem hg),
            fun h => hnames.1 (h ▸ List.mem_map_of_mem hg)⟩
        obtain ⟨known, rest, hgs, hfits, hfold, hknown, hresult⟩ := ih C₁ hkinds.2 hnames.2
        have hdescribe : known.map (·.describe (c.adopt (f.describe c))) =
            known.map (·.describe c) :=
          List.map_congr_left fun g hg =>
            C.describe_adopt hf (hother g (hgs ▸ List.mem_append_left _ hg)).1
        rw [hdescribe] at hfold hknown
        rw [install, hdone]
        dsimp only
        rw [hcatalog]
        refine ⟨f :: known, rest, by rw [hgs]; rfl, ?_, hfold, ?_, ?_⟩
        · refine List.forall_mem_cons.2 ⟨hf, fun g hg => ?_⟩
          obtain ⟨hkind, hname⟩ := hother g (hgs ▸ List.mem_append_left _ hg)
          exact (C.fits_adopt hf hkind hname).1 (hfits g hg)
        · refine H.append hknown ?_
          rintro _ (_ | ⟨_, ⟨⟩⟩) hmem
          simp only [List.map_map, List.mem_map, Function.comp_apply, C.kind_describe] at hmem
          obtain ⟨g, hg, hkind⟩ := hmem
          exact (hother g (hgs ▸ List.mem_append_left _ hg)).1 hkind
        · refine hresult.imp_right ?_
          rintro ⟨g, rest', rfl, hclash, d, hd, hdname, herror⟩
          obtain ⟨hkind, hname⟩ := hother g (hgs ▸ List.mem_append_right _ List.mem_cons_self)
          obtain ⟨e, he, hekind, hename⟩ := C.mem_of_mem_adopt hf hname hd hdname
          refine ⟨g, rest', rfl, ?_, e, he, hename, by rw [herror, hekind]⟩
          exact fun h => hclash ((C.fits_adopt hf hkind hname).2 h)
      · obtain ⟨d, hd, hdname, herror⟩ := C.ensure_of_not_fits hf
        refine ⟨[], f :: gs, rfl, nofun, ?_, ?_, .inr ⟨f, gs, rfl, hf, d, hd, hdname, ?_⟩⟩
        all_goals rw [install, herror]
        · rfl
        · exact C.takesOver_nil

/-- The names after an installation. -/
theorem Indexed.names_of_takesOver_describe (C : c.Indexed)
    (h : c.TakesOver (gs.map (·.describe c)) c') :
    c'.names = c.names ++ (gs.filter (·.kind ∉ c.kinds)).map (·.name) := by
  have hnew : ∀ g : Registration U, (g.describe c).tag ∉ c.tags ↔ g.kind ∉ c.kinds := by
    intro g
    obtain ⟨hkind, htag, -⟩ | ⟨hfree, htag⟩ := C.tag_describe g
    · simp [hkind, htag]
    · refine iff_of_true (fun hmem => hfree ?_) hfree
      rw [Registry.kinds_eq]
      exact List.mem_map.2 ⟨_, hmem, by rw [htag]⟩
  have hname : ∀ g ∈ gs.filter (·.kind ∉ c.kinds), (g.describe c).tag.2 = g.name := by
    intro g hg
    obtain ⟨hkind, -, -⟩ | ⟨-, htag⟩ := C.tag_describe g
    · simp [hkind] at hg
    · rw [htag]
  rw [Registry.names_eq, h.tags_eq, List.map_append, ← Registry.names_eq, List.map_map,
    List.filter_map, List.map_map]
  have hfilter : gs.filter ((fun t => decide (t ∉ c.tags)) ∘ (Descriptor.tag ∘ (·.describe c))) =
      gs.filter (·.kind ∉ c.kinds) :=
    List.filter_congr fun g _ => decide_eq_decide.2 (hnew g)
  rw [hfilter]
  exact congrArg (c.names ++ ·) (List.map_congr_left hname)

/-! ### The built-in types -/

theorem nodup_kinds_builtinTypes : ((builtinTypes (U := U)).map (·.kind)).Nodup := by
  simp [builtinTypes]

theorem nodup_names_builtinTypes : ((builtinTypes (U := U)).map (·.name)).Nodup := by
  simp [builtinTypes]

/-- **What a failed installation of the built-in types leaves behind.**  The installation succeeds
just where each built-in type is known or its name is free.  Otherwise it fails at the first type
whose kind is free and whose name is taken, and the error names the kind that has the name.  The
built-in types before that one stay known: those that were missing have come to the end, each of
them has its members, and no other look-up has changed.  So a failed installation leaves the
catalog as it was just where every built-in type before the clash had all its members already; in
particular where there is none. -/
theorem failed_install_spec (hc : c.Reachable) :
    ((c.install builtinTypes).2 = .ok () ↔ ∀ g ∈ builtinTypes, c.Fits g) ∧
    ∀ c' e, c.install builtinTypes = (c', .error e) →
      ∃ known g rest, builtinTypes = known ++ g :: rest ∧ (∀ f ∈ known, c.Fits f) ∧ ¬ c.Fits g ∧
        (∃ d ∈ c.entries, d.name = g.name ∧ e = .alreadyRegistered d.kind g.name) ∧
        c'.id = c.id ∧
        c'.names = c.names ++ (known.filter (·.kind ∉ c.kinds)).map (·.name) ∧
        (∀ f ∈ known, c'.find? f.kind = some (f.describe c) ∧
          c'.findName? (f.describe c).name = some (f.describe c)) ∧
        (∀ k ∉ known.map (·.kind), c'.find? k = c.find? k) ∧
        (∀ name ∉ known.map fun f => (f.describe c).name,
          c'.findName? name = c.findName? name) ∧
        (c' = c ↔ ∀ f ∈ known, c.find? f.kind = some (f.describe c)) := by
  have C := hc.indexed
  obtain ⟨known, rest, hgs, hfits, hfold, H, hresult⟩ :=
    C.install_cases nodup_kinds_builtinTypes nodup_names_builtinTypes
  have C' := H.growsTo.indexed
  have hkinds : (known.map (·.describe c)).map (·.kind) = known.map (·.kind) := by
    rw [List.map_map]
    exact List.map_congr_left fun f _ => C.kind_describe f
  constructor
  · obtain ⟨rfl, hok⟩ | ⟨g, rest', rfl, hclash, d, -, -, herror⟩ := hresult
    · rw [List.append_nil] at hgs
      exact iff_of_true hok (hgs ▸ hfits)
    · refine iff_of_false (by rw [herror]; exact nofun) fun hall => hclash (hall g ?_)
      rw [hgs]
      exact List.mem_append_right _ List.mem_cons_self
  · intro c' e hrun
    obtain ⟨-, hok⟩ | ⟨g, rest', rfl, hclash, d, hd, hdname, herror⟩ := hresult
    · rw [hrun] at hok
      cases hok
    rw [hrun] at hfold H herror C'
    have hfound : ∀ f ∈ known, c'.find? f.kind = some (f.describe c) := by
      intro f hf
      have htaken := H.taken (f.describe c) (List.mem_map_of_mem hf)
      rwa [C.ownedBy_describe, C.kind_describe] at htaken
    refine ⟨known, g, rest', hgs, hfits, hclash, ⟨d, hd, hdname, Except.error.inj herror⟩,
      H.growsTo.id_eq, C.names_of_takesOver_describe H,
      fun f hf => ⟨hfound f hf, C'.findName?_of_find? (hfound f hf)⟩,
      fun k hk => H.others k (hkinds ▸ hk), ?_, ?_⟩
    · intro name hname
      refine H.findName?_eq C ?_
      rwa [List.map_map]
    · constructor
      · rintro rfl
        exact hfound
      · intro hknown
        refine hfold.trans (foldl_adopt_eq_self fun d' hd' => ?_)
        obtain ⟨f, hf, rfl⟩ := List.mem_map.1 hd'
        rw [C.ownedBy_describe, C.kind_describe]
        exact hknown f hf

/-- Points are registered under the name of floats: the installation fails there, and three types
more are known. -/
theorem failed_install_spec_float :
    ∃ c c' : Catalog Gallery.world, ∃ e, c.Reachable ∧ c.install builtinTypes = (c', .error e) ∧
      c.names = ["float"] ∧ c'.names = ["float", "unit", "bool", "int"] ∧ c' ≠ c ∧
      c'.find? (.host .point) = c.find? (.host .point) := by
  let c : Catalog Gallery.world :=
    ((Change.register (.host Gallery.Host.point) "float" id).run (.empty 1)).1
  have hc : c.Reachable := .change _ (.empty 1) nofun
  have hrun : c.install builtinTypes =
      ((c.install (builtinTypes.take 3)).1,
        .error (.alreadyRegistered (.host Gallery.Host.point) "float")) := by
    rfl
  obtain ⟨known, g, rest, hgs, hfits, hclash, -, -, hnames, -, hothers, -, -⟩ :=
    (failed_install_spec hc).2 _ _ hrun
  refine ⟨c, _, _, hc, hrun, rfl, rfl, fun heq => ?_, ?_⟩
  · have hnames := congrArg (fun c : Catalog Gallery.world => c.names) heq
    cases hnames
  · refine hothers _ fun hmem => ?_
    have hsubset : (.host .point : Kind Gallery.world) ∈ builtinTypes.map (·.kind) := by
      rw [hgs, List.map_append]
      exact List.mem_append_left _ hmem
    simp [builtinTypes] at hsubset

end Catalog

end ChainScript.Script
