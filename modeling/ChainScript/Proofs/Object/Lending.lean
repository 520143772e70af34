import ChainScript.Proofs.Object.Guards

/-!
# Reaching under guards

What is reached from a handle by reference refers into the cell that the handle shares, and
guards it.  On the way the guard is lent once, by the handle, and passed on from each object of
the path to the next, or ended with the last object that refers into the cell.

## Main definitions

* `Holder.Fresh` — the holder of a new object.
* `Object.Onward` — what is reached from an object that has a guard.
* `Object.Lends` — what is reached from an object that may share a cell.

## Main results

* `Object.Sound.gets_read`, `Object.Sound.gets_edit` — a value is there unless a writer is.
* `Object.settles_passOn` — a guard is passed on, or ended.
* `Object.Sound.heeds_reborrow` — a guard begins.
* `Object.Sound.heeds_get`, `Object.Sound.heeds_getPath`, `Object.Sound.heeds_callRef` — what is
  reached by a path or by a method.
-/

namespace ChainScript.Script

variable {U : Universe}

open Run

/-! ### New objects -/

/-- The holder refers to nothing elsewhere, and is not barred. -/
structure Holder.Fresh (h : Heap U) (holder : Holder U) : Prop where
  not_view : holder.isView = false
  free : holder.barred h = false

section New

variable {h : Heap U}

theorem Registry.settles_hold (policy : Policy) (v : Value U) :
    Settles h [] (hold policy v) (fun _ => []) fun h' holder => holder.Fresh h' := by
  refine (settles_alloc v).bind fun l h' _ hl => ?_
  cases policy with
  | share => exact settles_pure (.refl [] h') ⟨rfl, hl⟩
  | copy | wrapReference => exact settles_pure (.refl [] h') ⟨rfl, rfl⟩

theorem Registry.settles_made (r : Registry U) (i : Fin r.entries.size) (policy : Policy)
    (v : Value U) : Settles h [] (do return (⟨r, i, ← hold policy v⟩ : Object U)) (fun _ => [])
      fun h' o => o.holder.Fresh h' :=
  (settles_hold policy v).bind fun _ h' _ F => settles_pure (.refl [] h') F

theorem Registry.settles_wrapNew (r : Registry U) (policy : Policy) (v : Value U) :
    Settles h [] (r.wrapNew policy v) (fun _ => []) fun h' o => o.holder.Fresh h' := by
  rw [wrapNew]
  split
  · exact r.settles_made _ policy v
  · exact settles_throw rfl

theorem Registry.settles_wrap (r : Registry U) (holder : Holder U) (k : Kind U) :
    Settles h [] (r.wrap holder k) (fun _ => []) fun _ o => o.holder = holder := by
  rw [wrap]
  split
  · exact settles_pure (.refl [] h) rfl
  · exact settles_throw rfl

end New

namespace Object

variable {o : Object U} {h : Heap U}

/-! ### The value of an object -/

/-- An object that shares a cell shares one with a value. -/
theorem Sound.exists_value? (S : o.Sound h) {l : Loc} (hholder : o.holder = .shared l) :
    ∃ v, h.value? l = some v := by
  have H := S.holds
  rw [hholder] at H
  obtain ⟨v, hv, -⟩ := H
  exact ⟨v, hv⟩

theorem Sound.canWrite_of_free (S : o.Sound h) (R : h.Unread) (hfree : o.holder.barred h = false)
    (l : Loc) (hholder : o.holder = .shared l) : h.canWrite l = true := by
  obtain ⟨v, hv⟩ := S.exists_value? hholder
  rw [hholder] at hfree
  rw [Heap.canWrite_eq hv, R l, show h.hasWriter l = false from hfree]
  rfl

theorem Sound.exists_read?_of_free (S : o.Sound h) (R : h.Unread)
    (hfree : o.holder.barred h = false) : ∃ v, o.holder.read? h = some v := by
  obtain ⟨v, hv, -⟩ := S.holds.exists_read?
  exact ⟨v, read?_of_place hv (S.canWrite_of_free R hfree)⟩

theorem Sound.exists_edit?_of_free (S : o.Sound h) (R : h.Unread)
    (hfree : o.holder.barred h = false) : ∃ v, o.holder.edit? h = some v := by
  obtain ⟨v, hv, -⟩ := S.holds.exists_read?
  refine ⟨v, ?_⟩
  unfold Holder.edit?
  split
  · next l hholder =>
    rw [if_pos (S.canWrite_of_free R hfree l hholder)]
    rw [hholder] at hv
    obtain ⟨whole, hvalue, hview⟩ := Heap.value?_isSome_of_read? hv
    exact hvalue.trans hview
  · exact hv

theorem Sound.read?_of_barred (S : o.Sound h) (hbarred : o.holder.barred h = true) :
    o.holder.read? h = none ∧ o.holder.edit? h = none := by
  unfold Holder.barred at hbarred
  split at hbarred
  · next l hholder =>
    obtain ⟨v, hv⟩ := S.exists_value? hholder
    rw [hholder, Holder.read?, Holder.edit?, Heap.canRead_eq hv, Heap.canWrite_eq hv, hbarred]
    exact ⟨rfl, rfl⟩
  · cases hbarred

theorem Sound.gets_read (S : o.Sound h) (R : h.Unread) : Gets h [o] o.read :=
  gets_look (fun hb => (S.read?_of_barred hb).1) (S.exists_read?_of_free R)

theorem Sound.gets_edit (S : o.Sound h) (R : h.Unread) : Gets h [o] o.edit :=
  gets_look (fun hb => (S.read?_of_barred hb).2) (S.exists_edit?_of_free R)

theorem gets_contentOf {v : Value U} (hv : v.kind = o.kind) : Gets h [] (o.contentOf v) := by
  obtain ⟨x, hx⟩ := Option.isSome_iff_exists.1 (Value.as?_isSome_iff.2 hv)
  rw [contentOf, hx]
  exact gets_pure x

theorem Sound.gets_content (S : o.Sound h) (R : h.Unread) : Gets h [o] o.content :=
  (S.gets_read R).bind S.typed_read fun _ hv => gets_contentOf hv

theorem Sound.gets_copyValue (S : o.Sound h) (R : h.Unread) : Gets h [o] o.copyValue :=
  (S.gets_content R).bind S.typed_content fun _ _ => gets_pure _

theorem gets_copyValues {args : List (Object U)} (A : ∀ arg ∈ args, arg.Sound h) (R : h.Unread) :
    Gets h args (args.mapM copyValue) := by
  induction args with
  | nil => exact gets_pure []
  | cons arg args ih =>
      rw [List.mapM_cons]
      obtain ⟨S, A⟩ := List.forall_mem_cons.1 A
      have hrest : ∀ v, Gets h (args ++ []) (do
          let vs ← args.mapM copyValue
          return v :: vs) := fun v =>
        (ih A).bind (typed_copyValues A) fun vs _ => gets_pure (v :: vs)
      rw [List.append_nil] at hrest
      exact (S.gets_copyValue R).bind S.typed_copyValue fun v _ => hrest v

theorem settles_replace (o : Object U) (v : Value U) :
    Settles h [] (o.replace v) (fun _ => []) fun _ _ => True :=
  settles_modify (h.sameMarks_write _ v)

/-! ### Reaching -/

section Reaching

variable (S : o.Sound h) (R : h.Unread) (hfree : o.holder.barred h = false)

include S R hfree

/-- The content of an object that is not barred. -/
theorem Sound.settles_content :
    Settles h [] o.content (fun _ => []) fun h' _ => h' = h :=
  (S.gets_content R).settles (List.forall_mem_singleton.2 hfree)

theorem Sound.settles_touch {ret : Kind U} (lens : Lens o.kind.Carrier ret.Carrier) :
    Settles h [] (o.touch lens) (fun _ => []) fun _ _ => True := by
  refine (((S.gets_edit R).settles (List.forall_mem_singleton.2 hfree)).typed
    S.typed_edit).bind fun v h₁ _ hv => ?_
  refine ((gets_contentOf hv.2).settles (List.forall_mem_nil _)).bind fun x h₂ _ _ => ?_
  exact (settles_replace o _).bind fun _ h₃ _ _ => settles_pure (.refl [] h₃) trivial

theorem Sound.settles_narrow (ret : Kind U) (lens : Lens o.kind.Carrier ret.Carrier) :
    Settles h [] (o.narrow ret lens) (fun _ => []) fun _ r =>
      r.holder = o.holder.part ⟨o.kind, ret, lens⟩ := by
  have htouch : Settles h [] (discard (o.touch lens)) (fun _ => []) fun _ _ => True :=
    (S.settles_touch R hfree lens).map fun _ _ _ => ⟨fun _ => rfl, trivial⟩
  exact htouch.bind fun _ _ _ _ => o.types.settles_wrap _ _

end Reaching

/-- What is reached from an object and refers to a part of its value has its guard; the rest has
nothing to do with it. -/
structure Onward (o : Object U) (h : Heap U) (r : Object U) : Prop where
  view : r.holder.isView = true → o.holder.isView = true
  guards : r.holder.isView = true → ∀ l, r.holder.guards l = o.holder.guards l
  free : r.holder.barred h = false

theorem Onward.refl (hfree : o.holder.barred h = false) : o.Onward h o :=
  ⟨id, fun _ _ => rfl, hfree⟩

theorem Onward.trans {r r' : Object U} {h₁ : Heap U} (onward : o.Onward h r)
    (onward' : r.Onward h₁ r') : o.Onward h₁ r' where
  view hview := onward.view (onward'.view hview)
  guards hview l := (onward'.guards hview l).trans (onward.guards (onward'.view hview) l)
  free := onward'.free

theorem Onward.of_fresh {r : Object U} (F : r.holder.Fresh h) : o.Onward h r where
  view hview := absurd hview (by simp [F.not_view])
  guards hview := absurd hview (by simp [F.not_view])
  free := F.free

theorem Onward.of_part {r : Object U} {s : Step U} (hview : o.holder.isView = true)
    (hr : r.holder = o.holder.part s) : o.Onward h r where
  view _ := hview
  guards _ l := by rw [hr, Holder.guards_part hview]
  free := by rw [hr, Holder.barred_of_isView (isView_part _ _)]

section Reaching

variable (S : o.Sound h) (R : h.Unread) (hfree : o.holder.barred h = false)

include S R hfree

theorem Sound.settles_readGetter (name : String) (getter : Getter o.kind) :
    Settles h [] (o.readGetter name getter) (fun _ => []) fun h' r => o.Onward h' r := by
  cases getter with
  | computed ret policy read =>
      rw [readGetter]
      split
      · exact settles_refuse rfl
      · refine (S.settles_content R hfree).bind fun _ _ _ _ => ?_
        exact (o.types.settles_wrapNew policy _).mono fun r _ F => ⟨fun _ => rfl, .of_fresh F⟩
  | field ret policy lens =>
      rw [readGetter]
      split
      · next hpolicy =>
        exact (S.settles_narrow R hfree ret lens).mono fun r _ hr =>
          ⟨fun _ => rfl, .of_part hpolicy.2 hr⟩
      · refine (S.settles_touch R hfree lens).bind fun _ _ _ _ => ?_
        exact (o.types.settles_wrapNew policy _).mono fun r _ F => ⟨fun _ => rfl, .of_fresh F⟩

theorem Sound.settles_readFallback (name : String) (f : FallbackGetter o.kind) :
    Settles h [] (o.readFallback name f) (fun _ => []) fun h' r => o.Onward h' r := by
  rw [readFallback]
  split
  · exact settles_refuse rfl
  · refine ((S.gets_read R).settles (List.forall_mem_singleton.2 hfree)).bind
      fun v h₁ _ _ => ?_
    split
    · exact (o.types.settles_wrapNew f.policy _).mono fun r _ F => ⟨fun _ => rfl, .of_fresh F⟩
    · exact settles_throw rfl

end Reaching

/-- The end of an object ends its guard. -/
theorem balanced_ended (K : Kept [o] h) : Balanced [o] [] h (o.ended h) := by
  unfold ended
  split
  · next p hholder =>
    have hroot : h.hasWriter p.root = true := by
      have hkept := K p.root
      rw [guardCount_singleton, hholder] at hkept
      simpa [Holder.guards, Nat.one_le_iff_ne_zero] using hkept
    refine ⟨fun l => h.readers_setWriter _ _ l, fun l => ?_⟩
    rw [Heap.hasWriter_setWriter_false, guardCount_singleton, hholder]
    by_cases hl : l = p.root
    · subst hl
      simp [Holder.guards, hroot]
    · simp [Holder.guards, bne_iff_ne.2 hl, Ne.symm hl]
  · next hguard =>
    refine (Heap.SameMarks.refl h).balanced fun l => ?_
    rw [guardCount_singleton]
    unfold Holder.guards
    split
    · next p hholder => exact absurd hholder (hguard p)
    · rfl

/-- The end of an object after what leaves the marks as they are. -/
theorem Balanced.ended {h₁ : Heap U} (B : Balanced [] [] h h₁) (K : Kept [o] h) :
    Balanced [o] [] h (o.ended h₁) := by
  have hstay : Balanced [o] [o] h h₁ := B.sameMarks.balanced fun _ => rfl
  exact hstay.trans (balanced_ended (B.sameMarks.kept K))

/-- An object is passed on with its guard, or ended. -/
theorem settles_passOn {next : Run U (Object U)} (K : Kept [o] h)
    (hnext : Settles h [] next (fun _ => []) fun h' r => o.Onward h' r) :
    Settles h [o] (o.passOn next) (fun r => [r]) fun h' r => o.Onward h' r := by
  cases hrun : next.run h with
  | mk result h₁ =>
      cases result with
      | ok r =>
          obtain ⟨B, onward⟩ := hnext.ok r (congrArg Prod.fst hrun)
          rw [hrun] at B onward
          have hpass := passOn_of_ok (o := o) hrun
          -- A reference keeps the guard of the object; before anything else the object ends.
          cases hview : r.holder.isView with
          | true =>
              rw [if_pos hview] at hpass
              refine settles_of_ok hpass (B.sameMarks.balanced fun l => ?_) onward
              rw [guardCount_singleton, guardCount_singleton, onward.guards hview]
          | false =>
              rw [if_neg (by simp [hview])] at hpass
              have hfree : r.holder.barred (o.ended h₁) = false :=
                (balanced_ended (B.sameMarks.kept K)).barred_eq_false onward.free
              refine settles_of_ok hpass ((Balanced.ended B K).congr fun l => ?_)
                (.of_fresh ⟨hview, hfree⟩)
              rw [guardCount_singleton, Holder.guards_of_not_isView hview]
              rfl
      | error e =>
          obtain ⟨he, B⟩ := hnext.error e (congrArg Prod.fst hrun)
          rw [hrun] at B
          exact settles_of_error (passOn_of_error hrun) he (Balanced.ended B K)

section Reaching

variable (S : o.Sound h) (R : h.Unread) (hfree : o.holder.barred h = false) (K : Kept [o] h)

include S R hfree K

theorem Sound.settles_readAttribute (name : String) :
    Settles h [o] (o.readAttribute name) (fun r => [r]) fun h' r => o.Onward h' r := by
  refine settles_passOn K ?_
  split
  · exact S.settles_readGetter R hfree name _
  · exact S.settles_readFallback R hfree name _
  · exact settles_throw rfl

theorem Sound.settles_readPath (path : List String) :
    Settles h [o] (o.readPath path) (fun r => [r]) fun h' r => o.Onward h' r := by
  induction path generalizing o h with
  | nil => exact settles_pure (.refl [o] h) (.refl hfree)
  | cons name path ih =>
      rw [readPath]
      refine ((S.settles_readAttribute R hfree K name).typed (S.typed_readAttribute name)).bind
        fun r h₁ B hr => ?_
      obtain ⟨onward, S₁⟩ := hr
      exact (ih S₁ (R.of_balanced B) onward.free (B.kept K)).mono fun r' h₂ onward' =>
        ⟨fun _ => rfl, onward.trans onward'⟩

end Reaching

/-- A view that is lent by an object guards the cell that the object shares. -/
def Lends (o r : Object U) : Prop :=
  ∀ l, r.holder.guards l = true ↔ r.holder.isView = true ∧ o.holder = .shared l

theorem Lends.onward {lent r : Object U} (lends : o.Lends lent) (onward : lent.Onward h r) :
    o.Lends r := by
  intro l
  cases hview : r.holder.isView with
  | true => rw [onward.guards hview, lends, onward.view hview]
  | false => simp [Holder.guards_of_not_isView hview]

/-- An object that shares no cell lends its value without a guard. -/
theorem heeds_lend_of_not_shared (hshared : ∀ l, o.holder ≠ .shared l) (p : Place U) :
    Heeds h [o] [] (pure (o.withHolder (.view p false))) (fun lent => [lent]) fun _ lent =>
      lent.holder.isView = true ∧ o.Lends lent := by
  have hlends : o.Lends (o.withHolder (.view p false)) := fun l =>
    ⟨fun hguards => absurd hguards Bool.false_ne_true, fun hl => absurd hl.2 (hshared l)⟩
  refine heeds_singleton (fun hb => ?_) fun _ => ?_
  · unfold Holder.barred at hb
    split at hb
    · next l hholder => exact absurd hholder (hshared l)
    · cases hb
  · exact settles_pure ((Heap.SameMarks.refl h).balanced fun _ => rfl) ⟨rfl, hlends⟩

/-- The writer of a cell that has none is that of the guard that begins. -/
theorem balanced_setWriter {l : Loc} {v : Value U} (hv : h.value? l = some v)
    (hwriter : h.hasWriter l = false) :
    Balanced [] [o.withHolder (.view ⟨l, []⟩ true)] h (h.setWriter l true) := by
  refine ⟨fun i => h.readers_setWriter l true i, fun i => ?_⟩
  rw [guardCount_singleton, Heap.hasWriter_setWriter_true hv]
  change _ = _ + (decide (l = i)).toNat
  by_cases hi : l = i
  · subst hi
    simp [hwriter]
  · simp [hi, beq_false_of_ne (Ne.symm hi)]

theorem Sound.heeds_lend (S : o.Sound h) (R : h.Unread) :
    Heeds h [o] [] o.reborrow (fun lent => [lent]) fun _ lent =>
      lent.holder.isView = true ∧ o.Lends lent := by
  rw [reborrow]
  cases hholder : o.holder with
  | owned l => exact heeds_lend_of_not_shared (by simp [hholder]) _
  | view p guarded => exact heeds_lend_of_not_shared (by simp [hholder]) _
  | shared l =>
      obtain ⟨v, hv⟩ := S.exists_value? hholder
      -- Nobody reads, so that only a writer keeps the handle out.
      have hwrite : h.canWrite l = !h.hasWriter l := by
        rw [Heap.canWrite_eq hv, R l]
        cases h.hasWriter l <;> rfl
      refine heeds_singleton (fun hb => ?_) fun hfree => ?_
      · have hwriter : h.hasWriter l = true := by rwa [hholder] at hb
        have hget : (MonadState.get : Run U (Heap U)).run h = (.ok h, h) := rfl
        rw [bind_of_ok hget, if_neg (by simp [hwrite, hwriter])]
        rfl
      · have hwriter : h.hasWriter l = false := by rwa [hholder] at hfree
        refine settles_get ?_
        rw [if_pos (by simp [hwrite, hwriter])]
        refine settles_of_ok rfl (balanced_setWriter hv hwriter) ⟨rfl, fun i => ?_⟩
        change decide (l = i) = true ↔ true = true ∧ o.holder = .shared i
        simp [hholder]

/-- A reference to the value of a shared cell begins a guard. -/
theorem Sound.heeds_reborrow (S : o.Sound h) (R : h.Unread) :
    Heeds h [o] [] o.reborrow (fun lent => [lent]) fun h' lent =>
      (lent.holder.isView = true ∧ o.Lends lent) ∧ lent.Sound h' ∧
        ∃ holder, lent = o.withHolder holder :=
  (S.heeds_lend R).typed <| S.typed_reborrow.mono fun lent h' K hlent => by
    obtain ⟨holder, rfl, H⟩ := hlent
    exact ⟨(S.mono K).withHolder H, holder, rfl⟩

theorem Sound.heeds_get (S : o.Sound h) (R : h.Unread) (path : List String) :
    Heeds h (if path.isEmpty then [] else [o]) [] (o.get path) (fun r => [r]) fun _ r =>
      o.Lends r := by
  rw [get]
  by_cases hpath : path.isEmpty = true
  · rw [if_pos hpath, if_pos hpath]
    exact (settles_refuse rfl).heeds
  · rw [if_neg hpath, if_neg hpath]
    refine (S.heeds_reborrow R).bind fun lent h₁ B hlent => ?_
    obtain ⟨⟨hview, lends⟩, L, -⟩ := hlent
    have hread := L.settles_readPath (R.of_balanced B) (Holder.barred_of_isView hview h₁)
      (B.kept (kept_nil h)) path
    exact hread.mono fun _ _ onward => ⟨fun _ => rfl, lends.onward onward⟩

theorem Sound.heeds_getPath (S : o.Sound h) (R : h.Unread) (path : String) :
    Heeds h (if path.isEmpty then [] else [o]) [] (o.getPath path) (fun r => [r]) fun _ r =>
      o.Lends r := by
  rw [getPath]
  by_cases hpath : path.isEmpty = true
  · rw [if_pos hpath, if_pos hpath]
    exact (settles_throw rfl).heeds
  · rw [if_neg hpath, if_neg hpath]
    have hsplit : (Text.splitAt '.' path).isEmpty = false := by
      simp [Text.splitAt, Text.piecesBy_ne_nil]
    have hget := S.heeds_get R (Text.splitAt '.' path)
    rwa [hsplit] at hget

theorem Sound.heeds_callRef (S : o.Sound h) (R : h.Unread) (name : String) :
    Heeds h (if o.members.returnsReference name then [o] else []) [] (o.callRef name)
      (fun r => [r]) fun _ r => o.Lends r := by
  rw [callRef, Members.returnsReference, Slots.contains]
  cases o.members.references.get? name with
  | none => exact (settles_refuse rfl).heeds
  | some f =>
      refine heeds_found ((S.heeds_reborrow R).bind fun lent h₁ B hlent => ?_)
      obtain ⟨⟨hview, lends⟩, L, holder, rfl⟩ := hlent
      have hnarrow := L.settles_narrow (R.of_balanced B) (Holder.barred_of_isView hview h₁)
        f.ret f.lens
      have hpass := settles_passOn (B.kept (kept_nil h)) (hnarrow.mono fun r h' hr =>
        ⟨fun _ => rfl, Onward.of_part hview hr⟩)
      exact hpass.mono fun _ _ onward => ⟨fun _ => rfl, lends.onward onward⟩

end Object

end ChainScript.Script
