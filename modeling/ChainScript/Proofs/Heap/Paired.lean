import ChainScript.Script.Heap
import Mathlib.Data.List.Forall2

/-!
# Two computations side by side

Two computations are paired where, from related states, they come to related results and leave
related states; where they may fail, they fail with the same error or for neither.  What is paired
step by step is paired as a whole.

## Main definitions

* `Matched` — related results, or the same error.
* `Paired`, `PairedOk` — paired computations, and paired computations that may fail.
* `Agree` — paired computations on one heap.
-/

namespace ChainScript.Script

/-- Related results, or the same error. -/
inductive Matched {ε α β : Type} (R : α → β → Prop) : Except ε α → Except ε β → Prop
  | ok {a : α} {b : β} (h : R a b) : Matched R (.ok a) (.ok b)
  | error (e : ε) : Matched R (.error e) (.error e)

/-- From related states the computations come to related results and leave related states. -/
def Paired {σ τ α β : Type} (S : σ → τ → Prop) (R : α → β → Prop) (m : StateM σ α)
    (n : StateM τ β) : Prop :=
  ∀ s t, S s t → R (m.run s).1 (n.run t).1 ∧ S (m.run s).2 (n.run t).2

/-- The same of computations that may fail. -/
def PairedOk {σ τ ε α β : Type} (S : σ → τ → Prop) (R : α → β → Prop)
    (m : ExceptT ε (StateM σ) α) (n : ExceptT ε (StateM τ) β) : Prop :=
  Paired S (Matched R) m.run n.run

/-- From the same heap the computations come to related results and leave the same heap. -/
abbrev Agree {U : Universe} {α β : Type} (R : α → β → Prop) (m : Run U α) (n : Run U β) : Prop :=
  PairedOk Eq R m n

section Paired

variable {σ τ ε α β α' β' : Type} {S : σ → τ → Prop} {R : α → β → Prop} {Q : α' → β' → Prop}

section State

variable {m : StateM σ α} {n : StateM τ β} {k : α → StateM σ α'} {l : β → StateM τ β'}

theorem Paired.pure {a : α} {b : β} (h : R a b) : Paired S R (pure a) (pure b) :=
  fun _ _ hs => ⟨h, hs⟩

theorem Paired.bind (hm : Paired S R m n) (hk : ∀ a b, R a b → Paired S Q (k a) (l b)) :
    Paired S Q (m >>= k) (n >>= l) := by
  intro s t hs
  obtain ⟨hr, hs'⟩ := hm s t hs
  exact hk _ _ hr _ _ hs'

theorem Paired.mono {P : α → β → Prop} (hm : Paired S P m n) (h : ∀ a b, P a b → R a b) :
    Paired S R m n :=
  fun s t hs => ⟨h _ _ (hm s t hs).1, (hm s t hs).2⟩

theorem Paired.get : Paired S S get get := fun _ _ hs => ⟨hs, hs⟩

theorem Paired.modify {f : σ → σ} {g : τ → τ} (h : ∀ s t, S s t → S (f s) (g t)) :
    Paired S (fun _ _ => True) (modify f) (modify g) :=
  fun s t hs => ⟨trivial, h s t hs⟩

end State

section Fallible

variable {m : ExceptT ε (StateM σ) α} {n : ExceptT ε (StateM τ) β}
  {k : α → ExceptT ε (StateM σ) α'} {l : β → ExceptT ε (StateM τ) β'}

theorem PairedOk.pure {a : α} {b : β} (h : R a b) :
    PairedOk S R (pure a : ExceptT ε (StateM σ) α) (pure b) :=
  Paired.pure (.ok h)

theorem PairedOk.throw (e : ε) :
    PairedOk S R (throw e : ExceptT ε (StateM σ) α) (throw e : ExceptT ε (StateM τ) β) :=
  Paired.pure (.error e)

theorem PairedOk.bind (hm : PairedOk S R m n)
    (hk : ∀ a b, R a b → PairedOk S Q (k a) (l b)) : PairedOk S Q (m >>= k) (n >>= l) := by
  refine Paired.bind (k := ExceptT.bindCont k) (l := ExceptT.bindCont l) hm ?_
  intro r r' hr
  cases hr with
  | ok h => exact hk _ _ h
  | error e => exact PairedOk.throw e

theorem PairedOk.map {f : α → α'} {g : β → β'} (hm : PairedOk S R m n)
    (h : ∀ a b, R a b → Q (f a) (g b)) : PairedOk S Q (f <$> m) (g <$> n) := by
  rw [map_eq_pure_bind, map_eq_pure_bind]
  exact hm.bind fun a b hab => .pure (h a b hab)

theorem PairedOk.tryCatch {handle : ε → ExceptT ε (StateM σ) α}
    {handle' : ε → ExceptT ε (StateM τ) β} (hm : PairedOk S R m n)
    (hh : ∀ e, PairedOk S R (handle e) (handle' e)) :
    PairedOk S R (tryCatch m handle) (tryCatch n handle') := by
  refine Paired.bind (k := fun
    | .ok a => (Pure.pure a : ExceptT ε (StateM σ) α).run
    | .error e => (handle e).run) (l := fun
    | .ok b => (Pure.pure b : ExceptT ε (StateM τ) β).run
    | .error e => (handle' e).run) hm fun r r' hr => ?_
  cases hr with
  | ok h => exact PairedOk.pure h
  | error e => exact hh e

/-- Computations that cannot fail, among those that can. -/
theorem PairedOk.of_paired {m : StateM σ α} {n : StateM τ β} (hm : Paired S R m n) :
    PairedOk S R (monadLift m : ExceptT ε (StateM σ) α) (monadLift n) :=
  Paired.bind hm fun _ _ h => PairedOk.pure h

theorem PairedOk.modify {f : σ → σ} {g : τ → τ} (h : ∀ s t, S s t → S (f s) (g t)) :
    PairedOk S (fun _ _ => True) (modify f : ExceptT ε (StateM σ) PUnit) (modify g) :=
  .of_paired (.modify h)

theorem PairedOk.mapM {f : α → ExceptT ε (StateM σ) α'} {g : β → ExceptT ε (StateM τ) β'}
    {as : List α} {bs : List β} (has : List.Forall₂ R as bs)
    (hf : ∀ a b, R a b → PairedOk S Q (f a) (g b)) :
    PairedOk S (List.Forall₂ Q) (as.mapM f) (bs.mapM g) := by
  induction has with
  | nil => exact .pure .nil
  | cons hab _ ih =>
      rw [List.mapM_cons, List.mapM_cons]
      exact (hf _ _ hab).bind fun _ _ hr => ih.bind fun _ _ hrs => .pure (.cons hr hrs)

end Fallible

end Paired

section Agree

variable {U : Universe} {α : Type}

/-- A computation agrees with itself. -/
theorem Agree.refl (m : Run U α) : Agree Eq m m := by
  rintro h _ rfl
  refine ⟨?_, rfl⟩
  cases (StateT.run m.run h).1 with
  | ok a => exact .ok rfl
  | error e => exact .error e

/-- A check before both computations. -/
theorem Agree.after_check {β : Type} {R : α → β → Prop} {m : Run U α} {n : Run U β}
    (h : Agree R m n) (c : Prop) [Decidable c] (e : ScriptError U) :
    Agree R (if c then (throw e : Run U PUnit) >>= fun _ => m else m)
      (if c then (throw e : Run U PUnit) >>= fun _ => n else n) := by
  split
  · exact (Agree.refl (throw e)).bind fun _ _ _ => h
  · exact h

theorem agree_orThrow {β : Type} {R : α → β → Prop} {a? : Option α} {b? : Option β}
    (h : Option.Rel R a? b?) (e : ScriptError U) :
    Agree R (Run.orThrow a? e) (Run.orThrow b? e) := by
  cases h with
  | none => exact .throw e
  | some hab => exact .pure hab

end Agree

end ChainScript.Script
