import ChainScript.Proofs.Heap.Marks
import ChainScript.Proofs.Object.Typed

/-!
# Guards and conflicts

A guarded view keeps the writer of the cell that it refers into, and bars the handles that share
the cell.  A computation may end guards and begin others.  It settles them if the writers that
come and go are those of the guards; and it heeds them if it is refused by the first of the
handles in its way that is barred, and then changes nothing, and otherwise settles them without
a conflict.

## Main definitions

* `Holder.guards`, `Holder.barred` — a holder keeps the writer of a cell, or is kept out by one.
* `Balanced` — the writers of two heaps differ by the guards that ended and that began.
* `Run.Gets` — a computation that needs the values of some objects and nothing else.
* `Run.Settles`, `Run.Heeds` — computations that settle guards, and that heed them.

## Main results

* `Run.Settles.bind`, `Run.Heeds.bind`, `Run.Gets.heeds` and others — how they compose.
-/

namespace ChainScript.Script

variable {U : Universe}

/-- The error is that of a value that is in use elsewhere. -/
def ScriptError.isConflict : ScriptError U → Bool
  | borrowed _ => true
  | _ => false

namespace Holder

/-- The holder keeps the writer of the cell. -/
def guards (l : Loc) : Holder U → Bool
  | view p true => p.root = l
  | _ => false

/-- The holder shares a cell that has a writer. -/
def barred (h : Heap U) : Holder U → Bool
  | shared l => h.hasWriter l
  | _ => false

theorem barred_of_isView {holder : Holder U} (hview : holder.isView = true) (h : Heap U) :
    holder.barred h = false := by
  cases holder with
  | owned l | shared l => cases hview
  | view p guarded => rfl

theorem guards_of_not_isView {holder : Holder U} (hview : holder.isView = false) (l : Loc) :
    holder.guards l = false := by
  cases holder with
  | owned l | shared l => rfl
  | view p guarded => cases hview

theorem guards_iff {holder : Holder U} {l : Loc} :
    holder.guards l = true ↔ ∃ p, holder = .view p true ∧ p.root = l := by
  unfold guards
  split
  · next p => simp
  · next hview =>
    simp only [Bool.false_eq_true, false_iff]
    rintro ⟨p, rfl, -⟩
    exact hview p rfl

/-- A reference to a part keeps the guard. -/
theorem guards_part {holder : Holder U} (hview : holder.isView = true) (s : Step U) (l : Loc) :
    (holder.part s).guards l = holder.guards l := by
  cases holder with
  | owned l | shared l => cases hview
  | view p guarded => cases guarded <;> rfl

end Holder

theorem Object.mode_eq_borrowed {o : Object U} :
    o.mode = .borrowed ↔ o.holder.isView = true := by
  unfold mode Holder.mode Holder.isView
  cases o.holder <;> simp

/-- How many of the objects guard the cell. -/
def guardCount (os : List (Object U)) (l : Loc) : Nat := os.countP (·.holder.guards l)

@[simp] theorem guardCount_nil (l : Loc) : guardCount ([] : List (Object U)) l = 0 := rfl

@[simp] theorem guardCount_singleton (o : Object U) (l : Loc) :
    guardCount [o] l = (o.holder.guards l).toNat := by
  rw [guardCount, List.countP_singleton]
  cases o.holder.guards l <;> rfl

@[simp] theorem guardCount_append (os os' : List (Object U)) (l : Loc) :
    guardCount (os ++ os') l = guardCount os l + guardCount os' l :=
  List.countP_append

theorem guardCount_eq_zero {os : List (Object U)} {l : Loc} :
    guardCount os l = 0 ↔ ∀ o ∈ os, o.holder.guards l = false := by
  simp [guardCount]

/-! ### Balance -/

section Balance

variable {given taken taken' : List (Object U)} {h h' h'' : Heap U}

/-- Between the heaps the guards of the objects `given` end and those of `taken` begin; no
reader comes or goes. -/
structure Balanced (given taken : List (Object U)) (h h' : Heap U) : Prop where
  readers : ∀ l, h'.readers l = h.readers l
  writers : ∀ l, (h'.hasWriter l).toNat + guardCount given l =
    (h.hasWriter l).toNat + guardCount taken l

theorem Balanced.refl (os : List (Object U)) (h : Heap U) : Balanced os os h h :=
  ⟨fun _ => rfl, fun _ => rfl⟩

theorem Balanced.trans (B : Balanced given taken h h') (B' : Balanced taken taken' h' h'') :
    Balanced given taken' h h'' where
  readers l := (B'.readers l).trans (B.readers l)
  writers l := by
    have := B.writers l
    have := B'.writers l
    omega

theorem Balanced.congr (B : Balanced given taken h h')
    (hcount : ∀ l, guardCount taken l = guardCount taken' l) : Balanced given taken' h h' :=
  ⟨B.readers, fun l => hcount l ▸ B.writers l⟩

/-- The marks stay, and as many guards begin as end. -/
theorem Heap.SameMarks.balanced (S : h.SameMarks h')
    (hcount : ∀ l, guardCount given l = guardCount taken l) : Balanced given taken h h' where
  readers := S.readers
  writers l := by rw [S.hasWriter, hcount]

/-- The writer of a guarded cell is there. -/
def Kept (os : List (Object U)) (h : Heap U) : Prop :=
  ∀ l, guardCount os l ≤ (h.hasWriter l).toNat

theorem kept_nil (h : Heap U) : Kept [] h := fun _ => Nat.zero_le _

theorem Heap.SameMarks.kept {os : List (Object U)} (S : h.SameMarks h') (K : Kept os h) :
    Kept os h' :=
  fun l => (S.hasWriter l).symm ▸ K l

theorem Balanced.kept (B : Balanced given taken h h') (K : Kept given h) : Kept taken h' := by
  intro l
  have := B.writers l
  have := K l
  omega

/-- Where guards only end, a holder that was not barred is not barred. -/
theorem Balanced.barred_eq_false {holder : Holder U} (B : Balanced given [] h h')
    (hfree : holder.barred h = false) : holder.barred h' = false := by
  cases holder with
  | owned l | view p guarded => rfl
  | shared l =>
      have hl : h.hasWriter l = false := hfree
      have hsum : (h'.hasWriter l).toNat + guardCount given l = 0 := by
        rw [B.writers, hl]
        rfl
      change h'.hasWriter l = false
      simpa using (Nat.add_eq_zero_iff.1 hsum).1

/-- Where no guard begins or ends, the marks stay. -/
theorem Balanced.sameMarks (B : Balanced [] [] h h') : h.SameMarks h' where
  readers := B.readers
  hasWriter l := by
    have hwriters : (h'.hasWriter l).toNat = (h.hasWriter l).toNat := B.writers l
    revert hwriters
    cases h'.hasWriter l <;> cases h.hasWriter l <;> decide

end Balance

/-- No reader holds a cell. -/
def Heap.Unread (h : Heap U) : Prop := ∀ l, h.readers l = 0

theorem Heap.Unread.of_balanced {given taken : List (Object U)} {h h' : Heap U} (R : h.Unread)
    (B : Balanced given taken h h') : h'.Unread := fun l => (B.readers l).trans (R l)

namespace Run

/-! ### Settling guards -/

section Settles

variable {α β : Type} {h : Heap U} {m : Run U α} {k : α → Run U β}
  {given : List (Object U)} {taken : α → List (Object U)} {taken' : β → List (Object U)}
  {Q : Heap U → α → Prop} {R : Heap U → β → Prop} {e : ScriptError U}

/-- From the heap `h` on, the computation ends the guards of `given` and begins those of
`taken`, or none if it fails; it has no conflict, and its result satisfies `Q`. -/
structure Settles (h : Heap U) (given : List (Object U)) (m : Run U α)
    (taken : α → List (Object U)) (Q : Heap U → α → Prop) : Prop where
  ok : ∀ a, (m.run h).1 = .ok a → Balanced given (taken a) h (m.run h).2 ∧ Q (m.run h).2 a
  error : ∀ e, (m.run h).1 = .error e → e.isConflict = false ∧ Balanced given [] h (m.run h).2

theorem settles_of_ok {a : α} {h' : Heap U} (hrun : m.run h = (.ok a, h'))
    (B : Balanced given (taken a) h h') (ha : Q h' a) : Settles h given m taken Q := by
  constructor <;> rw [hrun]
  · exact fun _ heq => Except.ok.inj heq ▸ ⟨B, ha⟩
  · exact nofun

theorem settles_of_error {h' : Heap U} (hrun : m.run h = (.error e, h'))
    (he : e.isConflict = false) (B : Balanced given [] h h') : Settles h given m taken Q := by
  constructor <;> rw [hrun]
  · exact nofun
  · exact fun _ heq => Except.error.inj heq ▸ ⟨he, B⟩

theorem settles_pure {a : α} (B : Balanced given (taken a) h h) (ha : Q h a) :
    Settles h given (pure a) taken Q :=
  settles_of_ok rfl B ha

theorem settles_throw (he : e.isConflict = false) : Settles h [] (throw e : Run U α) taken Q :=
  settles_of_error rfl he (.refl [] h)

theorem Settles.bind (hm : Settles h given m taken Q)
    (hk : ∀ a h', Balanced given (taken a) h h' → Q h' a → Settles h' (taken a) (k a) taken' R) :
    Settles h given (m >>= k) taken' R := by
  obtain ⟨hok, herror⟩ := hm
  cases hrun : m.run h with
  | mk r h₁ =>
      rw [hrun] at hok herror
      cases r with
      | ok a =>
          obtain ⟨B, ha⟩ := hok a rfl
          obtain ⟨hok', herror'⟩ := hk a h₁ B ha
          constructor <;> rw [bind_of_ok hrun]
          · exact fun b hb => ⟨B.trans (hok' b hb).1, (hok' b hb).2⟩
          · exact fun e he => ⟨(herror' e he).1, B.trans (herror' e he).2⟩
      | error e =>
          constructor <;> rw [bind_of_error hrun]
          · exact nofun
          · exact fun _ heq => herror _ (congrArg _ (Except.error.inj heq))

theorem Settles.mono {taken₁ : α → List (Object U)} {Q₁ : Heap U → α → Prop}
    (hm : Settles h given m taken Q)
    (hQ : ∀ a h', Q h' a → (∀ l, guardCount (taken a) l = guardCount (taken₁ a) l) ∧ Q₁ h' a) :
    Settles h given m taken₁ Q₁ where
  ok a ha := by
    obtain ⟨B, hq⟩ := hm.ok a ha
    obtain ⟨hcount, hq₁⟩ := hQ a _ hq
    exact ⟨B.congr hcount, hq₁⟩
  error := hm.error

theorem Settles.map {f : α → β} (hm : Settles h given m taken Q)
    (hf : ∀ a h', Q h' a → (∀ l, guardCount (taken a) l = guardCount (taken' (f a)) l) ∧
      R h' (f a)) : Settles h given (f <$> m) taken' R := by
  rw [map_eq_pure_bind]
  refine hm.bind fun a h' _ ha => ?_
  obtain ⟨hcount, hr⟩ := hf a h' ha
  exact settles_pure ((Heap.SameMarks.refl h').balanced hcount) hr

/-- What is known of the result of a typed computation. -/
theorem Settles.typed {P : Heap U → α → Prop} (hm : Settles h given m taken Q)
    (ht : Typed h m P) : Settles h given m taken fun h' a => Q h' a ∧ P h' a where
  ok a ha := ⟨(hm.ok a ha).1, (hm.ok a ha).2, ht.ok a ha⟩
  error := hm.error

theorem Settles.congr_run {m' : Run U α} (hm : Settles h given m taken Q)
    (hrun : m'.run h = m.run h) : Settles h given m' taken Q := by
  constructor <;> rw [hrun]
  · exact hm.ok
  · exact hm.error

/-- A look at the heap. -/
theorem settles_get {k : Heap U → Run U β} (hk : Settles h given (k h) taken' R) :
    Settles h given (get >>= k) taken' R :=
  hk.congr_run (bind_of_ok rfl)

/-- A change of the heap that leaves its marks. -/
theorem settles_modify {f : Heap U → Heap U} (S : h.SameMarks (f h)) :
    Settles h [] (modify f : Run U PUnit) (fun _ => []) fun _ _ => True :=
  settles_of_ok rfl (S.balanced fun _ => rfl) trivial

theorem settles_alloc (v : Value U) :
    Settles h [] (alloc v) (fun _ => []) fun h' l => h'.hasWriter l = false := by
  have S := h.sameMarks_alloc v
  refine settles_of_ok rfl (S.balanced fun _ => rfl) ?_
  exact (S.hasWriter _).trans (Heap.hasWriter_of_size_le (Nat.le_refl _))

/-- A failure that is no conflict, or a result that is there. -/
theorem settles_orThrow {a? : Option α} (he : e.isConflict = false) :
    Settles h [] (orThrow a? e) (fun _ => []) fun _ a => a? = some a := by
  cases a? with
  | none => exact settles_throw he
  | some a => exact settles_pure (.refl [] h) rfl

/-- A refusal before anything else is done. -/
theorem settles_refuse (he : e.isConflict = false) :
    Settles h [] ((throw e : Run U α) >>= k) taken' R := by
  have hthrow : Settles h [] (throw e : Run U α) (fun _ => []) fun _ _ => False :=
    settles_throw he
  exact hthrow.bind fun _ _ _ hfalse => hfalse.elim

/-- Item by item, where no guard begins. -/
theorem Settles.mapM {f : α → Run U β} {P : β → Prop} {as : List α}
    (hf : ∀ a ∈ as, ∀ h', Settles h' [] (f a) (fun _ => []) fun _ b => P b) :
    Settles h [] (as.mapM f) (fun _ => []) fun _ bs => ∀ b ∈ bs, P b := by
  induction as generalizing h with
  | nil => exact settles_pure (.refl [] h) (List.forall_mem_nil _)
  | cons a as ih =>
      rw [List.mapM_cons]
      obtain ⟨ha, has⟩ := List.forall_mem_cons.1 hf
      refine (ha h).bind fun b h₁ _ hb => (ih has).bind fun bs h₂ _ hbs => ?_
      exact settles_pure (.refl [] h₂) (List.forall_mem_cons.2 ⟨hb, hbs⟩)

end Settles

/-! ### Needing values -/

section Gets

variable {α β : Type} {h : Heap U} {m : Run U α} {k : α → Run U β} {os os' : List (Object U)}
  {Q : Heap U → α → Prop}

/-- From the heap `h` on, the computation leaves the heap as it is, and has a result unless one
of the objects is barred; the first that is refuses it. -/
structure Gets (h : Heap U) (os : List (Object U)) (m : Run U α) : Prop where
  barred : ∀ o, os.find? (·.holder.barred h) = some o →
    m.run h = (.error (.borrowed o.typeName), h)
  ok : os.find? (·.holder.barred h) = none → ∃ a, m.run h = (.ok a, h)

theorem gets_pure (a : α) : Gets h [] (pure a : Run U α) := ⟨nofun, fun _ => ⟨a, rfl⟩⟩

/-- A look at the value of one object. -/
theorem gets_look {o : Object U} {look : Heap U → Option (Value U)}
    (hbarred : o.holder.barred h = true → look h = none)
    (hfree : o.holder.barred h = false → ∃ v, look h = some v) :
    Gets h [o] (do orThrow (look (← get)) (.borrowed o.typeName)) := by
  have hrun : (do orThrow (look (← get)) (.borrowed o.typeName) : Run U (Value U)).run h =
      (orThrow (look h) (.borrowed o.typeName) : Run U (Value U)).run h := bind_of_ok rfl
  constructor <;> rw [hrun, List.find?_singleton] <;> cases hb : o.holder.barred h
  · exact nofun
  · intro o' ho'
    obtain rfl := Option.some.inj ho'
    rw [hbarred hb]
    rfl
  · obtain ⟨v, hv⟩ := hfree hb
    rw [hv]
    exact fun _ => ⟨v, rfl⟩
  · exact nofun

/-- What comes after the values is refused by the first of its objects that is barred, unless one
of those before is. -/
theorem Gets.barred_bind (hm : Gets h os m) (ht : Typed h m Q)
    (hk : ∀ a, Q h a → ∀ o, os'.find? (·.holder.barred h) = some o →
      (k a).run h = (.error (.borrowed o.typeName), h)) {o : Object U}
    (ho : (os ++ os').find? (·.holder.barred h) = some o) :
    (m >>= k).run h = (.error (.borrowed o.typeName), h) := by
  rw [List.find?_append] at ho
  cases hos : os.find? (·.holder.barred h) with
  | some o' =>
      rw [hos] at ho
      obtain rfl := Option.some.inj ho
      exact bind_of_error (hm.barred o' hos)
  | none =>
      obtain ⟨a, hrun⟩ := hm.ok hos
      have ha := ht.ok a (congrArg Prod.fst hrun)
      rw [hrun] at ha
      rw [hos] at ho
      rw [bind_of_ok hrun]
      exact hk a ha o ho

/-- Where no object is barred, what comes after the values has them. -/
theorem Gets.ok_bind (hm : Gets h os m) (ht : Typed h m Q)
    (hnone : (os ++ os').find? (·.holder.barred h) = none) :
    ∃ a, Q h a ∧ os'.find? (·.holder.barred h) = none ∧ (m >>= k).run h = (k a).run h := by
  rw [List.find?_append] at hnone
  obtain ⟨hos, hos'⟩ := Option.or_eq_none_iff.1 hnone
  obtain ⟨a, hrun⟩ := hm.ok hos
  have ha := ht.ok a (congrArg Prod.fst hrun)
  rw [hrun] at ha
  exact ⟨a, ha, hos', bind_of_ok hrun⟩

theorem Gets.bind (hm : Gets h os m) (ht : Typed h m Q) (hk : ∀ a, Q h a → Gets h os' (k a)) :
    Gets h (os ++ os') (m >>= k) := by
  refine ⟨fun o ho => hm.barred_bind ht (fun a ha => (hk a ha).barred) ho, fun hnone => ?_⟩
  obtain ⟨a, ha, hos', hrun⟩ := hm.ok_bind (k := k) ht hnone
  rw [hrun]
  exact (hk a ha).ok hos'

/-- Values of objects none of which is barred. -/
theorem Gets.settles (hm : Gets h os m) (hfree : ∀ o ∈ os, o.holder.barred h = false) :
    Settles h [] m (fun _ => []) fun h' _ => h' = h := by
  have hnone : os.find? (·.holder.barred h) = none :=
    List.find?_eq_none.2 fun o ho => by simp [hfree o ho]
  obtain ⟨a, ha⟩ := hm.ok hnone
  exact settles_of_ok ha (.refl [] h) rfl

end Gets

/-! ### Heeding guards -/

section Heeds

variable {α β : Type} {h : Heap U} {m : Run U α} {k : α → Run U β}
  {given os os' : List (Object U)} {taken : α → List (Object U)} {taken' : β → List (Object U)}
  {Q : Heap U → α → Prop} {R : Heap U → β → Prop}

/-- From the heap `h` on, the first of the objects `os` that is barred refuses the computation,
which leaves the heap as it is; and if there is none, the computation settles guards. -/
structure Heeds (h : Heap U) (os given : List (Object U)) (m : Run U α)
    (taken : α → List (Object U)) (Q : Heap U → α → Prop) : Prop where
  barred : ∀ o, os.find? (·.holder.barred h) = some o →
    m.run h = (.error (.borrowed o.typeName), h)
  settles : os.find? (·.holder.barred h) = none → Settles h given m taken Q

/-- A computation that needs no value of an object. -/
theorem Settles.heeds (hm : Settles h given m taken Q) : Heeds h [] given m taken Q :=
  ⟨nofun, fun _ => hm⟩

/-- A computation that needs the value of one object. -/
theorem heeds_singleton {o : Object U}
    (hbarred : o.holder.barred h = true → m.run h = (.error (.borrowed o.typeName), h))
    (hfree : o.holder.barred h = false → Settles h given m taken Q) :
    Heeds h [o] given m taken Q := by
  constructor <;> rw [List.find?_singleton] <;> cases hb : o.holder.barred h
  · exact nofun
  · intro o' ho'
    obtain rfl := Option.some.inj ho'
    exact hbarred hb
  · exact fun _ => hfree hb
  · exact nofun

theorem Heeds.bind (hm : Heeds h os given m taken Q)
    (hk : ∀ a h', Balanced given (taken a) h h' → Q h' a → Settles h' (taken a) (k a) taken' R) :
    Heeds h os given (m >>= k) taken' R :=
  ⟨fun o ho => bind_of_error (hm.barred o ho), fun hnone => (hm.settles hnone).bind hk⟩

theorem Heeds.mono {taken₁ : α → List (Object U)} {Q₁ : Heap U → α → Prop}
    (hm : Heeds h os given m taken Q)
    (hQ : ∀ a h', Q h' a → (∀ l, guardCount (taken a) l = guardCount (taken₁ a) l) ∧ Q₁ h' a) :
    Heeds h os given m taken₁ Q₁ :=
  ⟨hm.barred, fun hnone => (hm.settles hnone).mono hQ⟩

theorem Heeds.map {f : α → β} (hm : Heeds h os given m taken Q)
    (hf : ∀ a h', Q h' a → (∀ l, guardCount (taken a) l = guardCount (taken' (f a)) l) ∧
      R h' (f a)) : Heeds h os given (f <$> m) taken' R := by
  refine ⟨fun o ho => ?_, fun hnone => (hm.settles hnone).map hf⟩
  rw [map_eq_pure_bind]
  exact bind_of_error (hm.barred o ho)

/-- After a check that is passed. -/
theorem heeds_found {a : α} {e : ScriptError U} (hk : Heeds h os given (k a) taken' R) :
    Heeds h os given (orThrow (some a) e >>= k) taken' R := by
  rwa [orThrow, pure_bind]

theorem Heeds.typed {P : Heap U → α → Prop} (hm : Heeds h os given m taken Q)
    (ht : Typed h m P) : Heeds h os given m taken fun h' a => Q h' a ∧ P h' a :=
  ⟨hm.barred, fun hnone => (hm.settles hnone).typed ht⟩

/-- After the values of some objects. -/
theorem Gets.heeds (hm : Gets h os m) (ht : Typed h m Q)
    (hk : ∀ a, Q h a → Heeds h os' given (k a) taken' R) :
    Heeds h (os ++ os') given (m >>= k) taken' R := by
  refine ⟨fun o ho => hm.barred_bind ht (fun a ha => (hk a ha).barred) ho, fun hnone => ?_⟩
  obtain ⟨a, ha, hos', hrun⟩ := hm.ok_bind (k := k) ht hnone
  exact ((hk a ha).settles hos').congr_run hrun

end Heeds

end Run

end ChainScript.Script
