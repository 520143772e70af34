import ChainScript.Proofs.Heap.Places
import ChainScript.Proofs.Object.Call
import Mathlib.Order.Nat

/-!
# Confined computations

A zone says what a computation may change: new cells, and of the old ones at most the part at
one place.  What is done in a zone can be summed up as one write to its place, because of two
writes to one place the last one stays.  Computations of a zone compose, and they are told what
they yield by a condition on their results.

## Main definitions

* `Zone`, `Zone.Allows` — a zone, and the changes to a heap that it allows.
* `Zone.Covers`, `Zone.Admits` — holders through which only the zone can be changed, and those
  whose end frees no old cell either.
* `Zone.Keeps`, `Zone.KeepsOk`, `Zone.Confines` — computations that stay in a zone: on any state
  with a heap, those of them that may fail, and those on the heap alone.
-/

namespace ChainScript.Script

variable {U : Universe}

/-- What may be changed: new cells, and of the old ones at most the part at one place. -/
structure Zone (U : Universe) where
  /-- Cells from this number on are new. -/
  fresh : Nat
  place : Option (Place U)
  lawful : ∀ p ∈ place, LawfulPath p.path

namespace Zone

/-- The zone of the new cells only. -/
def new (fresh : Nat) : Zone U := ⟨fresh, none, nofun⟩

/-- The zone of the new cells and the part at a place. -/
def around (fresh : Nat) (p : Place U) (L : LawfulPath p.path) : Zone U :=
  ⟨fresh, some p, fun q hq => by rwa [← Option.some.inj hq]⟩

variable {z : Zone U}

/-- The heap may have changed in the zone: its old cells are the same, or they are as after one
write to the place of the zone. -/
def Allows (z : Zone U) (h h' : Heap U) : Prop :=
  h.cells.size ≤ h'.cells.size ∧
    (h.SameBelow z.fresh h' ∨ ∃ p ∈ z.place, ∃ v, (h.write p v).SameBelow z.fresh h')

theorem Allows.of_same {h h' : Heap U} (hsize : h.cells.size ≤ h'.cells.size)
    (S : h.SameBelow z.fresh h') : z.Allows h h' :=
  ⟨hsize, .inl S⟩

theorem Allows.refl (z : Zone U) (h : Heap U) : z.Allows h h := .of_same le_rfl (.refl _ h)

/-- Changes of the zone add up to one. -/
theorem Allows.trans {h h' h'' : Heap U} (A : z.Allows h h') (A' : z.Allows h' h'') :
    z.Allows h h'' := by
  obtain ⟨hsize, S⟩ := A
  obtain ⟨hsize', S'⟩ := A'
  refine ⟨hsize.trans hsize', ?_⟩
  obtain S | ⟨p, hp, v, S⟩ := S <;> obtain S' | ⟨q, hq, w, S'⟩ := S'
  · exact .inl (S.trans S')
  · exact .inr ⟨q, hq, w, (S.write q w).trans S'⟩
  · exact .inr ⟨p, hp, v, S.trans S'⟩
  · obtain rfl : p = q := Option.some.inj (hp.symm.trans hq)
    have S := (S.write p w).trans S'
    obtain heq | heq := h.write_write (z.lawful p hp) v w
    · exact .inr ⟨p, hp, v, heq ▸ S⟩
    · exact .inr ⟨p, hp, w, heq ▸ S⟩

/-- Changes to a new cell are allowed. -/
theorem allows_modify {l : Loc} (hl : z.fresh ≤ l) (h : Heap U) (f : Cell U → Cell U) :
    z.Allows h ⟨h.cells.modify l f⟩ :=
  .of_same (Array.size_modify).ge (Heap.sameBelow_modify hl f)

/-! ### Holders -/

/-- Only the zone can be changed through the holder. -/
def Covers (z : Zone U) : Holder U → Prop
  | .owned l | .shared l => z.fresh ≤ l
  | .view p _ => z.fresh ≤ p.root ∨ ∃ q ∈ z.place, q.root = p.root ∧ q.path <+: p.path

/-- Only the zone can be changed through the holder, and its end frees no old cell. -/
def Admits (z : Zone U) (holder : Holder U) : Prop :=
  z.Covers holder ∧ ∀ p, holder = .view p true → z.fresh ≤ p.root

theorem Covers.fresh_le {holder : Holder U} {l : Loc} (hc : z.Covers holder)
    (h : holder = .shared l) : z.fresh ≤ l := by
  subst h
  exact hc

/-- A reference to a part reaches no further. -/
theorem Covers.part {holder : Holder U} (hc : z.Covers holder) (s : Step U) :
    z.Covers (holder.part s) := by
  cases holder with
  | owned l | shared l => exact .inl hc
  | view p guarded =>
      obtain hroot | ⟨q, hq, hroot, hpath⟩ := hc
      · exact .inl hroot
      · exact .inr ⟨q, hq, hroot, hpath.trans (List.prefix_append _ _)⟩

theorem Admits.part {holder : Holder U} (ha : z.Admits holder) (s : Step U) :
    z.Admits (holder.part s) := by
  refine ⟨ha.1.part s, fun p hp => ?_⟩
  cases holder with
  | owned l | shared l => cases hp
  | view q guarded =>
      cases hp
      exact ha.2 q rfl

/-- A write through a holder is allowed. -/
theorem Covers.allows_write {holder : Holder U} (hc : z.Covers holder) (h : Heap U) (v : Value U) :
    z.Allows h (h.write holder.place v) := by
  refine ⟨(h.size_write _ _).ge, ?_⟩
  cases holder with
  | owned l | shared l => exact .inl (Heap.sameBelow_write hc v)
  | view p guarded =>
      obtain hroot | ⟨⟨root, path⟩, hq, rfl, ⟨path', hpath⟩⟩ := hc
      · exact .inl (Heap.sameBelow_write hroot v)
      · obtain ⟨root, full⟩ := p
        obtain rfl : path ++ path' = full := hpath
        obtain heq | ⟨w, heq, -⟩ := h.write_append root path path' v
        · exact .inl (by rw [Holder.place, heq]; exact .refl _ h)
        · exact .inr ⟨_, hq, w, by rw [Holder.place, heq]; exact .refl _ _⟩

/-! ### Computations -/

section Keeps

variable {σ ε α β : Type} {π : σ → Heap U} {Q : α → Prop} {R : β → Prop}

/-- The computation changes the zone only, and what it yields satisfies `Q`. -/
def Keeps (z : Zone U) (π : σ → Heap U) (m : StateM σ α) (Q : α → Prop) : Prop :=
  ∀ s, z.fresh ≤ (π s).cells.size → z.Allows (π s) (π (m.run s).2) ∧ Q (m.run s).1

/-- The computation changes the zone only, also where it fails, and what it yields satisfies
`Q`. -/
def KeepsOk (z : Zone U) (π : σ → Heap U) (m : ExceptT ε (StateM σ) α) (Q : α → Prop) : Prop :=
  z.Keeps π m.run fun r => ∀ a, r = .ok a → Q a

/-- The computation on the heap stays in the zone. -/
abbrev Confines (z : Zone U) (m : Run U α) (Q : α → Prop) : Prop := z.KeepsOk (fun h => h) m Q

section State

variable {m : StateM σ α} {k : α → StateM σ β}

theorem Keeps.mono {P : α → Prop} (hm : z.Keeps π m P) (h : ∀ a, P a → Q a) : z.Keeps π m Q :=
  fun s hs => ⟨(hm s hs).1, h _ (hm s hs).2⟩

theorem Keeps.pure {a : α} (h : Q a) : z.Keeps π (pure a) Q := fun s _ => ⟨.refl z (π s), h⟩

theorem Keeps.bind (hm : z.Keeps π m Q) (hk : ∀ a, Q a → z.Keeps π (k a) R) :
    z.Keeps π (m >>= k) R := by
  intro s hs
  obtain ⟨A, hq⟩ := hm s hs
  obtain ⟨A', hq'⟩ := hk _ hq (m.run s).2 (hs.trans A.1)
  exact ⟨A.trans A', hq'⟩

theorem Keeps.get : z.Keeps π get fun _ => True := fun s _ => ⟨.refl z (π s), trivial⟩

theorem Keeps.modify {f : σ → σ}
    (hf : ∀ s, z.fresh ≤ (π s).cells.size → z.Allows (π s) (π (f s))) :
    z.Keeps π (modify f) fun _ => True :=
  fun s hs => ⟨hf s hs, trivial⟩

end State

section Fallible

variable {m : ExceptT ε (StateM σ) α} {k : α → ExceptT ε (StateM σ) β}

theorem KeepsOk.mono {P : α → Prop} (hm : z.KeepsOk π m P) (h : ∀ a, P a → Q a) :
    z.KeepsOk π m Q :=
  Keeps.mono hm fun _ hr a ha => h a (hr a ha)

theorem KeepsOk.pure {a : α} (h : Q a) : z.KeepsOk π (pure a : ExceptT ε (StateM σ) α) Q :=
  Keeps.pure fun _ hb => Except.ok.inj hb ▸ h

theorem KeepsOk.throw (e : ε) : z.KeepsOk π (throw e : ExceptT ε (StateM σ) α) Q :=
  Keeps.pure fun _ hb => nomatch hb

theorem KeepsOk.bind (hm : z.KeepsOk π m Q) (hk : ∀ a, Q a → z.KeepsOk π (k a) R) :
    z.KeepsOk π (m >>= k) R := by
  refine Keeps.bind (k := ExceptT.bindCont k) hm fun r hr => ?_
  cases r with
  | ok a => exact hk a (hr a rfl)
  | error e => exact KeepsOk.throw e

theorem KeepsOk.map {f : α → β} (hm : z.KeepsOk π m Q) (hf : ∀ a, Q a → R (f a)) :
    z.KeepsOk π (f <$> m) R := by
  refine Keeps.bind (k := fun
    | .ok a => (Pure.pure (f a) : ExceptT ε (StateM σ) β).run
    | .error e => (MonadExcept.throw e : ExceptT ε (StateM σ) β).run) hm fun r hr => ?_
  cases r with
  | ok a => exact KeepsOk.pure (hf a (hr a rfl))
  | error e => exact KeepsOk.throw e

theorem KeepsOk.tryCatch {handle : ε → ExceptT ε (StateM σ) α} (hm : z.KeepsOk π m Q)
    (hh : ∀ e, z.KeepsOk π (handle e) Q) : z.KeepsOk π (tryCatch m handle) Q := by
  refine Keeps.bind (k := fun
    | .ok a => (Pure.pure a : ExceptT ε (StateM σ) α).run
    | .error e => (handle e).run) hm fun r hr => ?_
  cases r with
  | ok a => exact KeepsOk.pure (hr a rfl)
  | error e => exact hh e

/-- A computation that cannot fail, among those that can. -/
theorem KeepsOk.of_keeps {m : StateM σ α} (hm : z.Keeps π m Q) :
    z.KeepsOk π (monadLift m : ExceptT ε (StateM σ) α) Q :=
  Keeps.bind hm fun _ ha => KeepsOk.pure ha

theorem KeepsOk.get : z.KeepsOk π (get : ExceptT ε (StateM σ) σ) fun _ => True :=
  .of_keeps .get

theorem KeepsOk.modify {f : σ → σ}
    (hf : ∀ s, z.fresh ≤ (π s).cells.size → z.Allows (π s) (π (f s))) :
    z.KeepsOk π (modify f : ExceptT ε (StateM σ) PUnit) fun _ => True :=
  .of_keeps (.modify hf)

theorem KeepsOk.mapM {f : α → ExceptT ε (StateM σ) β} {as : List α}
    (hf : ∀ a ∈ as, z.KeepsOk π (f a) R) :
    z.KeepsOk π (as.mapM f) fun bs => ∀ b ∈ bs, R b := by
  induction as with
  | nil => exact .pure (by simp)
  | cons a as ih =>
      rw [List.mapM_cons]
      obtain ⟨ha, has⟩ := List.forall_mem_cons.1 hf
      exact ha.bind fun b hb => (ih has).bind fun bs hbs =>
        .pure (List.forall_mem_cons.2 ⟨hb, hbs⟩)

end Fallible

end Keeps

/-- A computation that only looks stays in every zone. -/
theorem confines_of_finds {α : Type} {m : Run U α} {r : Heap U → Option α} (hm : Run.Finds m r) :
    z.Confines m fun _ => True := by
  intro h _
  refine ⟨?_, fun _ _ => trivial⟩
  change z.Allows h (m.run h).2
  rw [(hm h).1]
  exact .refl z h

theorem confines_orThrow {α : Type} (a? : Option α) (e : ScriptError U) :
    z.Confines (Run.orThrow a? e) fun _ => True :=
  confines_of_finds (Run.finds_orThrow a? e)

end Zone

end ChainScript.Script
