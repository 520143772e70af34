import ChainScript.Proofs.Heap.Kinds
import ChainScript.Proofs.Object.Reach
import Mathlib.Data.List.Forall2

/-!
# Computations that keep kinds

A typed computation leaves every cell with a value of the kind that it had, and never fails
because of a foreign value.  Typed computations compose; what one yields is told by a condition
on its result in the heap that it leaves.

## Main definitions

* `ScriptError.isForeign` — failures because of a value of another type.
* `Run.Typed` — a typed computation from a heap on.

## Main results

* `Run.Typed.bind`, `Run.Typed.tryCatch`, `Run.Typed.mapM` and others — how they compose.
-/

namespace ChainScript.Script

variable {U : Universe}

/-- The error is that of a value of another type. -/
def ScriptError.isForeign : ScriptError U → Bool
  | foreignValue _ => true
  | _ => false

namespace Run

/-- From the heap `h` on, the computation keeps the kind of every cell, its result satisfies `Q`
in the heap that it leaves, and it does not fail because of a foreign value. -/
structure Typed {α : Type} (h : Heap U) (m : Run U α) (Q : Heap U → α → Prop) : Prop where
  keeps : h.KeepsKinds (m.run h).2
  ok : ∀ a, (m.run h).1 = .ok a → Q (m.run h).2 a
  no_foreign : ∀ e, (m.run h).1 = .error e → e.isForeign = false

section Typed

variable {α β : Type} {h : Heap U} {m : Run U α} {k : α → Run U β} {Q : Heap U → α → Prop}
  {R : Heap U → β → Prop}

theorem typed_pure {a : α} (ha : Q h a) : Typed h (pure a) Q where
  keeps := .refl h
  ok := fun _ hb => Except.ok.inj hb ▸ ha
  no_foreign := nofun

theorem typed_throw {e : ScriptError U} (he : e.isForeign = false) :
    Typed h (throw e : Run U α) Q where
  keeps := .refl h
  ok := nofun
  no_foreign := fun _ heq => Except.error.inj heq ▸ he

theorem Typed.bind (hm : Typed h m Q)
    (hk : ∀ a h', h.KeepsKinds h' → Q h' a → Typed h' (k a) R) : Typed h (m >>= k) R := by
  obtain ⟨hkeeps, hok, hforeign⟩ := hm
  cases hrun : m.run h with
  | mk r h₁ =>
      rw [hrun] at hkeeps hok hforeign
      cases r with
      | ok a =>
          obtain ⟨hkeeps', hok', hforeign'⟩ := hk a h₁ hkeeps (hok a rfl)
          constructor <;> rw [bind_of_ok hrun]
          · exact hkeeps.trans hkeeps'
          · exact hok'
          · exact hforeign'
      | error e =>
          constructor <;> rw [bind_of_error hrun]
          · exact hkeeps
          · exact nofun
          · exact fun _ heq => hforeign _ (congrArg _ (Except.error.inj heq))

theorem Typed.mono {P : Heap U → α → Prop} (hm : Typed h m P)
    (hQ : ∀ a h', h.KeepsKinds h' → P h' a → Q h' a) : Typed h m Q :=
  ⟨hm.keeps, fun a ha => hQ a _ hm.keeps (hm.ok a ha), hm.no_foreign⟩

theorem Typed.map {f : α → β} (hm : Typed h m Q)
    (hf : ∀ a h', h.KeepsKinds h' → Q h' a → R h' (f a)) : Typed h (f <$> m) R := by
  rw [map_eq_pure_bind]
  exact hm.bind fun a h' K ha => typed_pure (hf a h' K ha)

theorem Typed.tryCatch {handle : ScriptError U → Run U α} (hm : Typed h m Q)
    (hh : ∀ e h', h.KeepsKinds h' → e.isForeign = false → Typed h' (handle e) Q) :
    Typed h (tryCatch m handle) Q := by
  obtain ⟨hkeeps, hok, hforeign⟩ := hm
  cases hrun : m.run h with
  | mk r h₁ =>
      rw [hrun] at hkeeps hok hforeign
      cases r with
      | ok a => constructor <;> rw [run_tryCatch, hrun] <;> assumption
      | error e =>
          obtain ⟨hkeeps', hok', hforeign'⟩ := hh e h₁ hkeeps (hforeign e rfl)
          constructor <;> rw [run_tryCatch, hrun]
          · exact hkeeps.trans hkeeps'
          · exact hok'
          · exact hforeign'

theorem typed_get : Typed h (get : Run U (Heap U)) fun h' a => a = h' where
  keeps := .refl h
  ok := fun _ ha => (Except.ok.inj ha).symm
  no_foreign := nofun

theorem typed_modify {f : Heap U → Heap U} (K : h.KeepsKinds (f h)) :
    Typed h (modify f : Run U PUnit) fun _ _ => True where
  keeps := K
  ok := fun _ _ => trivial
  no_foreign := nofun

/-- The result must be there where the error is that of a foreign value. -/
theorem typed_orThrow {a? : Option α} {e : ScriptError U} (hQ : ∀ a, a? = some a → Q h a)
    (he : a? = none → e.isForeign = false) : Typed h (orThrow a? e) Q := by
  cases a? with
  | none => exact typed_throw (he rfl)
  | some a => exact typed_pure (hQ a rfl)

theorem typed_found {a? : Option α} {e : ScriptError U} (he : e.isForeign = false) :
    Typed h (orThrow a? e) fun _ a => a? = some a :=
  typed_orThrow (fun _ ha => ha) fun _ => he

/-- A refusal before anything else is done. -/
theorem typed_refuse {e : ScriptError U} {k : PUnit → Run U β}
    (he : e.isForeign = false) : Typed h ((throw e : Run U PUnit) >>= k) R :=
  (typed_throw (Q := fun _ _ => False) he).bind fun _ _ _ hfalse => hfalse.elim

/-- Item by item, where what holds of a result goes on to hold. -/
theorem Typed.mapM {f : α → Run U β} {R : Heap U → α → β → Prop}
    (hmono : ∀ h h' a b, h.KeepsKinds h' → R h a b → R h' a b) {as : List α}
    (hf : ∀ a ∈ as, ∀ h', h.KeepsKinds h' → Typed h' (f a) fun h'' b => R h'' a b) :
    Typed h (as.mapM f) fun h' bs => List.Forall₂ (R h') as bs := by
  induction as generalizing h with
  | nil => exact typed_pure .nil
  | cons a as ih =>
      rw [List.mapM_cons]
      obtain ⟨ha, has⟩ := List.forall_mem_cons.1 hf
      refine (ha h (.refl h)).bind fun b h₁ K₁ hb => ?_
      refine (ih fun a ha h' K => has a ha h' (K₁.trans K)).bind fun bs h₂ K₂ hbs => ?_
      exact typed_pure (.cons (hmono _ _ _ _ K₂ hb) hbs)

theorem typed_alloc (v : Value U) : Typed h (alloc v) fun h' l => h'.value? l = some v where
  keeps := h.keepsKinds_alloc v
  ok := fun _ hl => Except.ok.inj hl ▸ h.value?_alloc v
  no_foreign := nofun

end Typed

end Run

end ChainScript.Script
