import ChainScript.Proofs.Object.Cell

/-!
# What reading shows

While nobody uses the value of an object, what an attribute shows is decided by the value: a value
of a registered kind, or an error.  How the object holds its value makes no difference: an object of
its own gives up a copy of the part where a reference is narrowed to it, and the two have the same
value.  So a path is a walk from value to value, and to read it changes no value.

## Main definitions

* `Registry.see`, `Registry.walk` — what an attribute and a path show of a value.
* `Object.Shows` — a computation yields what is shown, in an object at rest.

## Main results

* `Object.Rests.shows_readAttribute` — one attribute.
* `Object.Rests.shows_readPath`, `Object.Rests.shows_get` — paths, consuming and not.
* `Object.exists_shows_get` — objects that cannot be read fail without a change.
-/

namespace ChainScript.Script

variable {U : Universe}

open Run

/-! ### Values that stay -/

/-- Every cell of the first heap has its value in the second. -/
def Heap.KeepsValues (h h' : Heap U) : Prop := ∀ l v, h.value? l = some v → h'.value? l = some v

namespace Heap

variable {h h' h'' : Heap U}

theorem KeepsValues.refl (h : Heap U) : h.KeepsValues h := fun _ _ hl => hl

theorem KeepsValues.trans (K : h.KeepsValues h') (K' : h'.KeepsValues h'') : h.KeepsValues h'' :=
  fun l v hl => K' l v (K l v hl)

theorem Extends.keepsValues (E : h.Extends h') : h.KeepsValues h' := fun _ _ hl => E.value?_eq hl

theorem keepsValues_of_read? (hread : ∀ p, h'.read? p = h.read? p) : h.KeepsValues h' := by
  intro l v hl
  have hvalue : ∀ h : Heap U, h.read? ⟨l, []⟩ = h.value? l := fun h => by
    rw [read?]
    cases h.value? l <;> rfl
  rw [← hvalue, hread, hvalue, hl]

end Heap

theorem Object.keepsValues_ended (o : Object U) (h : Heap U) : h.KeepsValues (o.ended h) :=
  Heap.keepsValues_of_read? fun p => o.read?_ended h p

/-! ### What is shown -/

namespace Registry

/-- The value with the position of its kind, which must be registered. -/
def known (r : Registry U) (v : Value U) :
    Except (ScriptError U) (Fin r.entries.size × Value U) :=
  match r.indexOf? v.kind with
  | some i => .ok (i, v)
  | none => .error (.unregistered v.kind)

end Registry

section See

variable {k : Kind U} (r : Registry U) (type name : String) (x : k.Carrier)

/-- What a getter shows of the content of its owner. -/
def Getter.see : Getter k → Except (ScriptError U) (Fin r.entries.size × Value U)
  | .computed ret policy read =>
      if policy = .wrapReference then .error (.noReferent type name) else r.known ⟨ret, read x⟩
  | .field ret _ lens => r.known ⟨ret, lens.view x⟩

/-- What the fallback shows. -/
def FallbackGetter.see (f : FallbackGetter k) :
    Except (ScriptError U) (Fin r.entries.size × Value U) :=
  if f.policy = .wrapReference then .error (.noReferent type name)
  else match f.read x name with
    | some v => r.known ⟨f.ret, v⟩
    | none => .error (.missing type name .declined)

/-- What an attribute shows. -/
def Members.see (m : Members k) : Except (ScriptError U) (Fin r.entries.size × Value U) :=
  match m.getters.get? name, m.fallbackGetter with
  | some getter, _ => getter.see r type name x
  | none, some f => f.see r type name x
  | none, none => .error (.missing type name .noAttribute)

end See

namespace Registry

/-- What an attribute shows of a value of the type at a position. -/
def see (r : Registry U) (start : Fin r.entries.size × Value U) (name : String) :
    Except (ScriptError U) (Fin r.entries.size × Value U) :=
  match start.2.as? (r.entry start.1).kind with
  | some x => (r.entry start.1).members.see r (r.entry start.1).name name x
  | none => .error (.foreignValue (r.entry start.1).name)

/-- What the attributes on a path show one after another. -/
def walk (r : Registry U) (start : Fin r.entries.size × Value U) (names : List String) :
    Except (ScriptError U) (Fin r.entries.size × Value U) := names.foldlM r.see start

/-- A new object of a registered kind has the value, in a cell of its own. -/
theorem wrapNew_eq {types : Registry U} {v : Value U} {i : Fin types.entries.size}
    (hi : types.indexOf? v.kind = some i) (policy : Policy) (h : Heap U) :
    ∃ holder : Holder U, (types.wrapNew policy v).run h = (.ok ⟨types, i, holder⟩, (h.alloc v).2) ∧
      holder.isView = false ∧ holder.place = ⟨h.cells.size, []⟩ ∧
      Object.Rests ⟨types, i, holder⟩ (h.alloc v).2 v := by
  have hcell : (h.alloc v).2.cells[h.cells.size]? = some ⟨v, 0, false⟩ := Array.getElem?_push_size
  have hread : (h.alloc v).2.read? ⟨h.cells.size, []⟩ = some v := by
    rw [Heap.read?, Heap.value?, hcell]
    rfl
  have hkind : v.kind = (types.entry i).kind := (kind_of_indexOf? hi).symm
  rw [wrapNew, hi]
  cases policy with
  | share =>
      refine ⟨.shared h.cells.size, rfl, rfl, rfl, hread, hkind, fun l hl => ?_⟩
      cases hl
      rw [Heap.canWrite, hcell]
      rfl
  | copy | wrapReference =>
      exact ⟨.owned h.cells.size, rfl, rfl, rfl, hread, hkind, fun l hl => by cases hl⟩

end Registry

namespace Object

variable {o : Object U} {h h' : Heap U} {v w : Value U}

/-- The computation fails with the error, or yields an object of the type at the position that has
the value and is not in use.  No value is changed. -/
def Shows (types : Registry U) (h : Heap U) (m : Run U (Object U)) :
    Except (ScriptError U) (Fin types.entries.size × Value U) → Prop
  | .error e => ∃ h', m.run h = (.error e, h') ∧ h.KeepsValues h'
  | .ok (i, v) => ∃ holder h', m.run h = (.ok ⟨types, i, holder⟩, h') ∧ h.KeepsValues h' ∧
      Rests ⟨types, i, holder⟩ h' v ∧ LawfulPath holder.place.path

/-! ### One attribute -/

theorem touch_of_edit {ret : Kind U} {lens : Lens o.kind.Carrier ret.Carrier} {x : o.kind.Carrier}
    (hlens : lens.Lawful) (L : LawfulPath o.holder.place.path)
    (hedit : o.holder.edit? h = some ⟨o.kind, x⟩) : (o.touch lens).run h = (.ok x, h) := by
  rw [touch, bind_of_ok ((finds_edit o).run_of_some hedit),
    bind_of_ok ((finds_contentOf o _).run_of_some (Value.as?_mk _ _)), hlens.touch]
  have hreplace : (o.replace ⟨o.kind, x⟩).run h = (.ok (), h) := by
    change (_, h.write o.holder.place ⟨o.kind, x⟩) = _
    rw [Heap.write_self L (read?_of_edit? hedit)]
  rw [bind_of_ok hreplace]
  rfl

/-- A part of what is there is there. -/
theorem read?_part {s : Step U} {x : s.whole.Carrier}
    (hread : h.read? o.holder.place = some ⟨s.whole, x⟩) :
    h.read? (o.holder.part s).place = some ⟨s.part, s.lens.view x⟩ := by
  obtain ⟨whole, hvalue, hview⟩ := Heap.value?_isSome_of_read? hread
  have hstep : s.view? ⟨s.whole, x⟩ = some ⟨s.part, s.lens.view x⟩ :=
    Step.view?_eq_some_iff.2 ⟨x, rfl, rfl⟩
  rw [place_part, Heap.read?, hvalue]
  change viewPath? (o.holder.place.path ++ [s]) whole = _
  rw [viewPath?_append, hview, Option.bind_some, viewPath?_cons, hstep]
  rfl

/-- The end of an object changes no other cell. -/
theorem cells_ended_of_ne {l : Loc} (hl : l ≠ o.holder.place.root) :
    (o.ended h).cells[l]? = h.cells[l]? := by
  unfold ended
  split
  · next p hholder =>
    have hl : p.root ≠ l := by rw [hholder] at hl; exact Ne.symm hl
    rw [Heap.setWriter, Array.getElem?_modify, if_neg hl]
  · rfl

/-- The end of an object leaves those elsewhere at rest. -/
theorem Rests.ended {r : Object U} (R : r.Rests h v)
    (hne : r.holder.place.root ≠ o.holder.place.root) : r.Rests (o.ended h) v := by
  refine ⟨(o.read?_ended h _).trans R.read, R.kind, fun l hl => ?_⟩
  have hl' : l ≠ o.holder.place.root := by rwa [hl] at hne
  rw [← R.free l hl, Heap.canWrite, Heap.canWrite, cells_ended_of_ne hl']

/-- A refusal ends the object and changes nothing else. -/
theorem shows_passOn_error {next : Run U (Object U)} {e : ScriptError U}
    (hnext : next.run h = (.error e, h)) : Shows o.types h (o.passOn next) (.error e) :=
  ⟨_, passOn_of_error hnext, o.keepsValues_ended h⟩

/-- A new object is all that is left. -/
theorem Rests.shows_passOn_wrapNew (R : o.Rests h v) {next : Run U (Object U)} (policy : Policy)
    (hnext : next.run h = (o.types.wrapNew policy w).run h) :
    Shows o.types h (o.passOn next) (o.types.known w) := by
  rw [Registry.known]
  cases hi : o.types.indexOf? w.kind with
  | none =>
      refine shows_passOn_error (hnext.trans (wrapNew_of_not_contains ?_ policy h))
      rw [Registry.contains, hi]
      rfl
  | some i =>
      obtain ⟨holder, hrun, hview, hplace, hnew⟩ := Registry.wrapNew_eq hi policy h
      have hpass := passOn_of_ok (o := o) (hnext.trans hrun)
      rw [if_neg (by simp [hview])] at hpass
      have E : h.Extends (h.alloc w).2 := Heap.sameBelow_alloc (Nat.le_refl _) w
      refine ⟨holder, _, hpass, E.keepsValues.trans (o.keepsValues_ended _), hnew.ended ?_, ?_⟩
      · rw [hplace]
        exact Nat.ne_of_gt (Heap.root_lt_of_read? R.read)
      · rw [hplace]
        exact List.forall_mem_nil _

/-- A reference to a part shows what the part is. -/
theorem Rests.shows_passOn_narrow {x : o.kind.Carrier} (R : o.Rests h ⟨o.kind, x⟩)
    (L : LawfulPath o.holder.place.path) {ret : Kind U} {lens : Lens o.kind.Carrier ret.Carrier}
    (hlens : lens.Lawful) :
    Shows o.types h (o.passOn (o.narrow ret lens)) (o.types.known ⟨ret, lens.view x⟩) := by
  have hdiscard : (discard (o.touch lens)).run h = (.ok (), h) := by
    rw [run_discard, touch_of_edit hlens L R.edit?]
    rfl
  have hnarrow : (o.narrow ret lens).run h =
      (o.types.wrap (o.holder.part ⟨o.kind, ret, lens⟩) ret).run h := by
    rw [narrow, bind_of_ok hdiscard]
  rw [Registry.wrap] at hnarrow
  rw [Registry.known]
  cases hi : o.types.indexOf? ret with
  | none =>
      simp only [hi] at hnarrow ⊢
      exact shows_passOn_error hnarrow
  | some i =>
      simp only [hi] at hnarrow ⊢
      have hview := isView_part o.holder ⟨o.kind, ret, lens⟩
      have hpass := passOn_of_ok (o := o) hnarrow
      rw [if_pos hview] at hpass
      refine ⟨_, h, hpass, .refl h,
        ⟨read?_part R.read, (Registry.kind_of_indexOf? hi).symm, ?_⟩, ?_⟩
      · intro l hl
        have hl : o.holder.part ⟨o.kind, ret, lens⟩ = .shared l := hl
        rw [hl] at hview
        cases hview
      · rw [place_part]
        exact L.append (List.forall_mem_singleton.2 hlens)

section Attribute

variable {x : o.kind.Carrier} (R : o.Rests h ⟨o.kind, x⟩)
include R

theorem Rests.run_content : o.content.run h = (.ok x, h) :=
  (finds_content o).run_of_some (by rw [R.holder_read?, Option.bind_some, Value.as?_mk])

/-- A getter. -/
theorem Rests.shows_readGetter (L : LawfulPath o.holder.place.path) (name : String)
    {getter : Getter o.kind}
    (hlens : ∀ ret policy lens, getter = .field ret policy lens → lens.Lawful) :
    Shows o.types h (o.passOn (o.readGetter name getter))
      (getter.see o.types o.typeName name x) := by
  cases getter with
  | computed ret policy read =>
      rw [Getter.see]
      by_cases hpolicy : policy = .wrapReference
      · rw [if_pos hpolicy]
        refine shows_passOn_error ?_
        rw [readGetter, if_pos hpolicy]
        rfl
      · rw [if_neg hpolicy]
        refine R.shows_passOn_wrapNew policy ?_
        rw [readGetter, if_neg hpolicy]
        exact bind_of_ok R.run_content
  | field ret policy lens =>
      have hlens := hlens ret policy lens rfl
      by_cases hboth : policy = .wrapReference ∧ o.holder.isView = true
      · rw [readGetter, if_pos hboth]
        exact R.shows_passOn_narrow L hlens
      · refine R.shows_passOn_wrapNew policy ?_
        rw [readGetter, if_neg hboth]
        exact bind_of_ok (touch_of_edit hlens L R.edit?)

/-- The fallback. -/
theorem Rests.shows_readFallback (name : String) (f : FallbackGetter o.kind) :
    Shows o.types h (o.passOn (o.readFallback name f)) (f.see o.types o.typeName name x) := by
  rw [FallbackGetter.see]
  by_cases hpolicy : f.policy = .wrapReference
  · rw [if_pos hpolicy]
    refine shows_passOn_error ?_
    rw [readFallback, if_pos hpolicy]
    rfl
  · have hrun : (o.readFallback name f).run h = ((f.read x name).elim
        (throw (.missing o.typeName name .declined))
        fun v => o.types.wrapNew f.policy ⟨f.ret, v⟩ : Run U (Object U)).run h := by
      rw [readFallback, if_neg hpolicy]
      refine (bind_of_ok ((finds_read o).run_of_some R.holder_read?)).trans ?_
      rw [Value.as?_mk, Option.bind_some]
      cases f.read x name <;> rfl
    rw [if_neg hpolicy]
    cases hv : f.read x name with
    | some v =>
        refine R.shows_passOn_wrapNew f.policy ?_
        rw [hrun, hv, Option.elim_some]
    | none =>
        refine shows_passOn_error ?_
        rw [hrun, hv]
        rfl

/-- **One attribute.**  What it yields is what it shows of the value. -/
theorem Rests.shows_readAttribute (hlawful : o.types.Lawful)
    (L : LawfulPath o.holder.place.path) (name : String) :
    Shows o.types h (o.readAttribute name) (o.members.see o.types o.typeName name x) := by
  rw [readAttribute, Members.see]
  cases hgetter : o.members.getters.get? name with
  | some getter =>
      exact R.shows_readGetter L name fun ret policy lens heq =>
        hlawful.field o.index name ret policy lens (heq ▸ hgetter)
  | none =>
      cases o.members.fallbackGetter with
      | some f => exact R.shows_readFallback name f
      | none => exact shows_passOn_error rfl

end Attribute

/-! ### Paths -/

theorem see_eq (o : Object U) (x : o.kind.Carrier) (name : String) :
    o.types.see (o.index, ⟨o.kind, x⟩) name = o.members.see o.types o.typeName name x := by
  have hcontent : (⟨o.kind, x⟩ : Value U).as? (o.types.entry o.index).kind = some x :=
    Value.as?_mk _ _
  rw [Registry.see, hcontent]
  rfl

theorem Shows.bind {types : Registry U} {m : Run U (Object U)} {k : Object U → Run U (Object U)}
    {r : Object U} {seen : Except (ScriptError U) (Fin types.entries.size × Value U)}
    (hm : m.run h = (.ok r, h')) (K : h.KeepsValues h') (H : Shows types h' (k r) seen) :
    Shows types h (m >>= k) seen := by
  cases seen with
  | error e =>
      obtain ⟨h₁, hrun, K'⟩ := H
      exact ⟨h₁, (bind_of_ok hm).trans hrun, K.trans K'⟩
  | ok found =>
      obtain ⟨holder, h₁, hrun, K', hrest⟩ := H
      exact ⟨holder, h₁, (bind_of_ok hm).trans hrun, K.trans K', hrest⟩

/-- **A path** shows what its attributes show one after another. -/
theorem Rests.shows_readPath (R : o.Rests h v) (hlawful : o.types.Lawful)
    (L : LawfulPath o.holder.place.path) (names : List String) :
    Shows o.types h (o.readPath names) (o.types.walk (o.index, v) names) := by
  induction names generalizing o h v with
  | nil => exact ⟨o.holder, h, rfl, .refl h, R, L⟩
  | cons name names ih =>
      obtain ⟨x, rfl⟩ := R.exists_content
      have H := R.shows_readAttribute hlawful L name
      rw [readPath, Registry.walk, List.foldlM_cons, see_eq]
      cases hsee : o.members.see o.types o.typeName name x with
      | error e =>
          rw [hsee] at H
          obtain ⟨h₁, hrun, K⟩ := H
          exact ⟨h₁, bind_of_error hrun, K⟩
      | ok found =>
          rw [hsee] at H
          obtain ⟨holder, h₁, hrun, K, R₁, L₁⟩ := H
          exact .bind hrun K (ih R₁ hlawful L₁)

/-- An object at rest can be referred to, and the reference is at rest too. -/
theorem Rests.exists_reborrow (R : o.Rests h v) :
    ∃ guarded h₁, o.reborrow.run h = (.ok (o.withHolder (.view o.holder.place guarded)), h₁) ∧
      h.KeepsValues h₁ ∧ (o.withHolder (.view o.holder.place guarded)).Rests h₁ v := by
  have hok : ∃ lent h₁, o.reborrow.run h = (.ok lent, h₁) := by
    rw [reborrow]
    cases hholder : o.holder with
    | owned l | view p guarded => exact ⟨_, _, rfl⟩
    | shared l =>
        dsimp only
        rw [bind_of_ok (finds_get.run_of_some rfl), if_pos (R.free l hholder)]
        exact ⟨_, _, rfl⟩
  obtain ⟨lent, h₁, hrun⟩ := hok
  obtain ⟨⟨guarded, rfl⟩, -, hread, -⟩ := reborrow_eq_ok hrun
  exact ⟨guarded, h₁, hrun, Heap.keepsValues_of_read? hread,
    ⟨(hread _).trans R.read, R.kind, fun l hl => by cases hl⟩⟩

/-- **A path from a reference** shows the same. -/
theorem Rests.shows_get (R : o.Rests h v) (hlawful : o.types.Lawful)
    (L : LawfulPath o.holder.place.path) {names : List String} (hnames : names ≠ []) :
    Shows o.types h (o.get names) (o.types.walk (o.index, v) names) := by
  obtain ⟨guarded, h₁, hrun, K, R₁⟩ := R.exists_reborrow
  rw [get_of_ne_nil o hnames]
  exact .bind hrun K (R₁.shows_readPath hlawful L names)

/-! ### Objects that cannot be read -/

section NotRests

variable (hview : o.holder.isView = true) (hno : ∀ v, ¬ o.Rests h v)
include hview hno

theorem content_of_not_rests : (o.holder.read? h).bind (·.as? o.kind) = none := by
  rw [Option.bind_eq_none_iff]
  intro v hv
  by_contra hkind
  obtain ⟨x, hx⟩ := Option.ne_none_iff_exists'.1 hkind
  refine hno v ⟨Holder.read?_place hv, Value.as?_isSome_iff.1 (hx ▸ rfl), fun l hl => ?_⟩
  rw [hl] at hview
  cases hview

theorem touch_of_not_rests {ret : Kind U} (lens : Lens o.kind.Carrier ret.Carrier) :
    ∃ e, (o.touch lens).run h = (.error e, h) := by
  have hedit : o.holder.edit? h = o.holder.read? h := by
    cases hholder : o.holder with
    | view p guarded => rfl
    | owned l | shared l => rw [hholder] at hview; cases hview
  obtain ⟨e, he⟩ := ((finds_edit o).bind (finds_contentOf o)).run_of_none
    (hedit ▸ content_of_not_rests hview hno)
  refine ⟨e, ?_⟩
  rw [touch, ← bind_assoc]
  exact bind_of_error he

theorem readGetter_of_not_rests (name : String) (getter : Getter o.kind) :
    ∃ e, (o.readGetter name getter).run h = (.error e, h) := by
  cases getter with
  | computed ret policy read =>
      rw [readGetter]
      split
      · exact ⟨.noReferent o.typeName name, rfl⟩
      · obtain ⟨e, he⟩ := (finds_content o).run_of_none (content_of_not_rests hview hno)
        exact ⟨e, bind_of_error he⟩
  | field ret policy lens =>
      obtain ⟨e, he⟩ := touch_of_not_rests hview hno lens
      refine ⟨e, ?_⟩
      rw [readGetter]
      split
      · have hdiscard : (discard (o.touch lens)).run h = (.error e, h) := by
          rw [run_discard, he]
          rfl
        exact bind_of_error hdiscard
      · exact bind_of_error he

theorem readFallback_of_not_rests (name : String) (f : FallbackGetter o.kind) :
    ∃ e, (o.readFallback name f).run h = (.error e, h) := by
  rw [readFallback]
  split
  · exact ⟨.noReferent o.typeName name, rfl⟩
  · cases hread : o.holder.read? h with
    | none =>
        obtain ⟨e, he⟩ := (finds_read o).run_of_none hread
        exact ⟨e, bind_of_error he⟩
    | some v =>
        have hcontent := content_of_not_rests hview hno
        rw [hread, Option.bind_some] at hcontent
        refine ⟨.missing o.typeName name .declined,
          (bind_of_ok ((finds_read o).run_of_some hread)).trans ?_⟩
        rw [hcontent]
        rfl

/-- Where a reference has no value of its kind, no attribute can be read. -/
theorem readAttribute_of_not_rests (name : String) :
    ∃ e, (o.readAttribute name).run h = (.error e, o.ended h) := by
  have hrefused : ∀ {next : Run U (Object U)}, (∃ e, next.run h = (.error e, h)) →
      ∃ e, (o.passOn next).run h = (.error e, o.ended h) := by
    rintro next ⟨e, he⟩
    exact ⟨e, passOn_of_error he⟩
  rw [readAttribute]
  refine hrefused ?_
  cases o.members.getters.get? name with
  | some getter => exact readGetter_of_not_rests hview hno name getter
  | none =>
      cases o.members.fallbackGetter with
      | some f => exact readFallback_of_not_rests hview hno name f
      | none => exact ⟨_, rfl⟩

end NotRests

theorem reborrow_eq_error {e : ScriptError U} (hrun : o.reborrow.run h = (.error e, h')) :
    h' = h := by
  rw [reborrow] at hrun
  cases hholder : o.holder with
  | owned l | view p guarded =>
      simp only [hholder] at hrun
      cases hrun
  | shared l =>
      simp only [hholder] at hrun
      rw [bind_of_ok (finds_get.run_of_some rfl)] at hrun
      split at hrun
      · cases hrun
      · exact (congrArg Prod.snd hrun).symm

/-- **Whatever the object**, a path from a reference to it shows something. -/
theorem exists_shows_get (hlawful : o.types.Lawful) (L : LawfulPath o.holder.place.path)
    {names : List String} (hnames : names ≠ []) (h : Heap U) :
    ∃ seen, Shows o.types h (o.get names) seen := by
  rw [get_of_ne_nil o hnames]
  cases hlent : o.reborrow.run h with
  | mk result h₁ =>
      cases result with
      | error e =>
          obtain rfl := reborrow_eq_error hlent
          exact ⟨.error e, h₁, bind_of_error hlent, .refl h₁⟩
      | ok lent =>
          obtain ⟨⟨guarded, rfl⟩, -, hread, -⟩ := reborrow_eq_ok hlent
          have K := Heap.keepsValues_of_read? hread
          by_cases hrests : ∃ v, (o.withHolder (.view o.holder.place guarded)).Rests h₁ v
          · obtain ⟨v, R⟩ := hrests
            exact ⟨_, .bind hlent K (R.shows_readPath hlawful L names)⟩
          · obtain ⟨name, rest, rfl⟩ := List.exists_cons_of_ne_nil hnames
            obtain ⟨e, he⟩ := readAttribute_of_not_rests (o := o.withHolder _) rfl
              (not_exists.1 hrests) name
            exact ⟨.error e, .bind hlent K ⟨_, bind_of_error he, keepsValues_ended _ h₁⟩⟩

end Object

end ChainScript.Script
