import ChainScript.Proofs.Ordered.Entries

/-!
# Tables that differ in spelling

Keys that are equal need not be the same.  Where keys are compared through a view of them, two
rosters or tables with the same views at every position cannot be told apart by their
operations: a look-up finds the same position, and each change leaves the views the same.

## Main definitions

* `ComparedBy` — keys are equal where their views are the same.
* `Roster.Alike`, `Table.Alike` — the same views at every position.
-/

namespace ChainScript

/-! ### Lists with the same views -/

section Views

variable {α β γ : Type} {f : α → β} {xs ys : List α}

/-- Lists with the same views have items with the same view at every position.  Properties of
such lists are proved by induction on this fact. -/
theorem forall₂_iff_map_eq :
    List.Forall₂ (fun a b => f a = f b) xs ys ↔ xs.map f = ys.map f := by
  rw [← List.forall₂_eq_eq_eq, List.forall₂_map_left_iff, List.forall₂_map_right_iff]

/-- What goes by the views of items is the same for both lists. -/
theorem map_congr_view {p q : α → γ} (h : xs.map f = ys.map f)
    (hp : ∀ a b, f a = f b → p a = q b) : xs.map p = ys.map q := by
  replace h := forall₂_iff_map_eq.2 h
  induction h with
  | nil => rfl
  | cons hab _ ih => rw [List.map_cons, List.map_cons, hp _ _ hab, ih]

theorem flatMap_congr_view {p q : α → List γ} (h : xs.map f = ys.map f)
    (hp : ∀ a b, f a = f b → p a = q b) : xs.flatMap p = ys.flatMap q := by
  rw [List.flatMap_def, List.flatMap_def, map_congr_view h hp]

/-- Items are changed alike where the views of the changed items come from those of the items. -/
theorem map_modify_congr {φ ψ : α → α} (h : xs.map f = ys.map f)
    (hφ : ∀ a b, f a = f b → f (φ a) = f (ψ b)) (i : Nat) :
    (xs.modify i φ).map f = (ys.modify i ψ).map f := by
  replace h := forall₂_iff_map_eq.2 h
  induction h generalizing i with
  | nil => rw [List.modify_nil, List.modify_nil]
  | cons hab hrest ih =>
      cases i with
      | zero =>
          rw [List.modify_zero_cons, List.modify_zero_cons, List.map_cons, List.map_cons,
            hφ _ _ hab, forall₂_iff_map_eq.1 hrest]
      | succ i =>
          rw [List.modify_succ_cons, List.modify_succ_cons, List.map_cons, List.map_cons, hab, ih]

/-- Items are chosen alike where the choice goes by their views. -/
theorem map_filter_congr {p q : α → Bool} (h : xs.map f = ys.map f)
    (hp : ∀ a b, f a = f b → p a = q b) : (xs.filter p).map f = (ys.filter q).map f := by
  replace h := forall₂_iff_map_eq.2 h
  induction h with
  | nil => rfl
  | cons hab _ ih =>
      rw [List.filter_cons, List.filter_cons, hp _ _ hab]
      split
      · rw [List.map_cons, List.map_cons, hab, ih]
      · exact ih

theorem map_takeWhile_congr {p q : α → Bool} (h : xs.map f = ys.map f)
    (hp : ∀ a b, f a = f b → p a = q b) : (xs.takeWhile p).map f = (ys.takeWhile q).map f := by
  replace h := forall₂_iff_map_eq.2 h
  induction h with
  | nil => rfl
  | cons hab _ ih =>
      rw [List.takeWhile_cons, List.takeWhile_cons, hp _ _ hab]
      split
      · rw [List.map_cons, List.map_cons, hab, ih]
      · rfl

/-- Folds of such lists are related where each step keeps the relation. -/
theorem foldl_congr_view {σ τ : Type} {R : σ → τ → Prop} {step : σ → α → σ} {step' : τ → α → τ}
    {s : σ} {t : τ} (h : xs.map f = ys.map f) (hs : R s t)
    (hstep : ∀ s t a b, R s t → f a = f b → R (step s a) (step' t b)) :
    R (xs.foldl step s) (ys.foldl step' t) := by
  replace h := forall₂_iff_map_eq.2 h
  induction h generalizing s t with
  | nil => exact hs
  | cons hab _ ih => exact ih (hstep s t _ _ hs hab)

end Views

/-! ### Results with the same views -/

section Results

variable {α β γ δ : Type} {R : α → β → Prop} {S : γ → δ → Prop} {x : Option α} {y : Option β}

theorem rel_self (x : Option α) : Option.Rel Eq x x := by
  cases x with
  | none => exact .none
  | some a => exact .some rfl

theorem rel_of_map_eq {f : α → γ} {g : β → γ} (h : x.map f = y.map g) :
    Option.Rel (fun a b => f a = g b) x y := by
  cases x with
  | none =>
      rw [Option.map_none, eq_comm, Option.map_eq_none_iff] at h
      rw [h]
      exact .none
  | some a =>
      rw [Option.map_some, eq_comm, Option.map_eq_some_iff] at h
      obtain ⟨b, rfl, hb⟩ := h
      exact .some hb.symm

theorem option_map_congr {x y : Option α} {f : α → β} {p q : α → γ} (h : x.map f = y.map f)
    (hp : ∀ a b, f a = f b → p a = q b) : x.map p = y.map q := by
  cases rel_of_map_eq h with
  | none => rfl
  | some hab => exact congrArg some (hp _ _ hab)

/-- Related computations that go on alike are related. -/
theorem rel_bind {k : α → Option γ} {l : β → Option δ} (h : Option.Rel R x y)
    (hk : ∀ a b, R a b → Option.Rel S (k a) (l b)) : Option.Rel S (x >>= k) (y >>= l) := by
  cases h with
  | none => exact .none
  | some hab => exact hk _ _ hab

theorem rel_map {p : α → γ} {q : β → δ} (h : Option.Rel R x y) (hp : ∀ a b, R a b → S (p a) (q b)) :
    Option.Rel S (p <$> x) (q <$> y) := by
  cases h with
  | none => exact .none
  | some hab => exact .some (hp _ _ hab)

end Results

/-! ### Rosters -/

/-- Keys are equal where their views through `f` are the same. -/
def ComparedBy {K L : Type} [BEq K] (f : K → L) : Prop := ∀ a b : K, (a == b) = true ↔ f a = f b

theorem ComparedBy.beq_congr {K L : Type} [BEq K] {f : K → L} (hf : ComparedBy f) {a b c d : K}
    (hab : f a = f b) (hcd : f c = f d) : (a == c) = (b == d) := by
  rw [Bool.eq_iff_iff, hf, hf, hab, hcd]

section Rosters

variable {K L : Type} [BEq K] [Hashable K] {f : K → L} {r s : Roster K} {k l : K}

/-- The rosters have the same views at every position. -/
def Roster.Alike (f : K → L) (r s : Roster K) : Prop :=
  r.members.toList.map f = s.members.toList.map f

namespace Roster.Alike

theorem size_eq (h : r.Alike f s) : r.size = s.size := by
  have := congrArg List.length h
  simpa [Roster.size] using this

theorem getElem? (h : r.Alike f s) (i : Nat) :
    r.members[i]?.map f = s.members[i]?.map f := by
  rw [← Array.getElem?_toList, ← Array.getElem?_toList, ← List.getElem?_map, h, List.getElem?_map]

/-- A key stands where its view is found. -/
theorem position?_eq_some_iff (hf : ComparedBy f) {i : Nat} :
    r.position? k = some i ↔ r.members[i]?.map f = some (f k) := by
  rw [Roster.position?_eq_some_iff, Option.map_eq_some_iff]
  simp only [hf _ _]

theorem position?_eq (hf : ComparedBy f) (h : r.Alike f s) (hk : f k = f l) :
    r.position? k = s.position? l := by
  apply Option.ext
  intro i
  rw [position?_eq_some_iff hf, position?_eq_some_iff hf, h.getElem? i, hk]

theorem find?_eq (hf : ComparedBy f) (h : r.Alike f s) (hk : f k = f l) :
    (r.find? k).map f = (s.find? l).map f := by
  rw [Roster.find?, Roster.find?, h.position?_eq hf hk, Option.map_bind, Option.map_bind]
  exact congrArg _ (funext h.getElem?)

variable [EquivBEq K] [LawfulHashable K]

theorem insert (hf : ComparedBy f) (h : r.Alike f s) (hk : f k = f l) :
    (r.insert k).Alike f (s.insert l) := by
  have hpos := h.position?_eq hf hk
  cases hr : r.position? k with
  | some i => rwa [insert_of_some hr, insert_of_some (hpos.symm.trans hr)]
  | none =>
      rw [Roster.Alike, toList_insert_of_none hr, toList_insert_of_none (hpos.symm.trans hr),
        List.map_append, List.map_append, h, List.map_singleton, List.map_singleton, hk]

theorem swapRemoveAt (h : r.Alike f s) (i : Nat) :
    (r.swapRemoveAt i).Alike f (s.swapRemoveAt i) := by
  rw [Roster.Alike, toList_swapRemoveAt, toList_swapRemoveAt, map_swapErase, map_swapErase, h]

theorem swapRemove (hf : ComparedBy f) (h : r.Alike f s) (hk : f k = f l) :
    (r.swapRemove k).Alike f (s.swapRemove l) := by
  rw [Roster.swapRemove, Roster.swapRemove, h.position?_eq hf hk]
  split
  · exact h.swapRemoveAt _
  · exact h

theorem ofList {ks ls : List K} (hf : ComparedBy f) (h : ks.map f = ls.map f) :
    (Roster.ofList ks).Alike f (Roster.ofList ls) :=
  foldl_congr_view (R := Roster.Alike f) h rfl fun _ _ _ _ hrs hkl => insert hf hrs hkl

end Roster.Alike

end Rosters

/-! ### Tables -/

section Tables

variable {K L V W : Type} [BEq K] [Hashable K] {f : K → L} {g : V → W} {t u : Table K V}
  {k l : K} {i : Nat}

/-- The tables have the same views of keys and values at every position. -/
def Table.Alike (f : K → L) (g : V → W) (t u : Table K V) : Prop :=
  t.entries.map (Prod.map f g) = u.entries.map (Prod.map f g)

namespace Table.Alike

theorem keys (h : t.Alike f g u) : t.keys.Alike f u.keys := by
  have hfst := congrArg (List.map Prod.fst) h
  rw [List.map_map, List.map_map] at hfst
  rw [Roster.Alike, ← map_fst_entries, ← map_fst_entries, List.map_map, List.map_map]
  exact hfst

theorem values (h : t.Alike f g u) : t.values.toList.map g = u.values.toList.map g := by
  have hsnd := congrArg (List.map Prod.snd) h
  rw [List.map_map, List.map_map] at hsnd
  rw [← map_snd_entries, ← map_snd_entries, List.map_map, List.map_map]
  exact hsnd

theorem getElem?_values (h : t.Alike f g u) (i : Nat) :
    t.values[i]?.map g = u.values[i]?.map g := by
  rw [← Array.getElem?_toList, ← Array.getElem?_toList, ← List.getElem?_map, h.values,
    List.getElem?_map]

theorem size_eq (h : t.Alike f g u) : t.size = u.size := by
  have := congrArg List.length h.values
  simpa [Table.size] using this

theorem position?_eq (hf : ComparedBy f) (h : t.Alike f g u) (hk : f k = f l) :
    t.position? k = u.position? l :=
  h.keys.position?_eq hf hk

theorem find?_eq (hf : ComparedBy f) (h : t.Alike f g u) (hk : f k = f l) :
    (t.find? k).map g = (u.find? l).map g := by
  rw [Table.find?, Table.find?, h.position?_eq hf hk, Option.map_bind, Option.map_bind]
  exact congrArg _ (funext h.getElem?_values)

variable {φ ψ : V → V}

theorem modifyAt (h : t.Alike f g u) (hφ : ∀ a b, g a = g b → g (φ a) = g (ψ b)) (i : Nat) :
    (t.modifyAt i φ).Alike f g (u.modifyAt i ψ) := by
  rw [Table.Alike, entries_modifyAt, entries_modifyAt]
  refine map_modify_congr h ?_ i
  intro a b hab
  obtain ⟨hkey, hvalue⟩ := Prod.mk.inj hab
  exact Prod.ext hkey (hφ _ _ hvalue)

theorem mapValues (h : t.Alike f g u) (hφ : ∀ a b, g a = g b → g (φ a) = g (ψ b)) :
    (t.mapValues φ).Alike f g (u.mapValues ψ) := by
  rw [Table.Alike, entries_mapValues, entries_mapValues, List.map_map, List.map_map]
  refine map_congr_view h ?_
  intro a b hab
  obtain ⟨hkey, hvalue⟩ := Prod.mk.inj hab
  exact Prod.ext hkey (hφ _ _ hvalue)

variable [EquivBEq K] [LawfulHashable K]

theorem update (hf : ComparedBy f) (h : t.Alike f g u) (hk : f k = f l) {v w : V} (hv : g v = g w)
    (hφ : ∀ a b, g a = g b → g (φ a) = g (ψ b)) :
    (t.update k v φ).Alike f g (u.update l w ψ) := by
  have hpos := h.position?_eq hf hk
  cases ht : t.position? k with
  | some i =>
      have hchange := h.modifyAt hφ i
      rwa [Table.Alike, entries_modifyAt, entries_modifyAt, ← entries_update_of_some ht v φ,
        ← entries_update_of_some (hpos.symm.trans ht) w ψ] at hchange
  | none =>
      rw [Table.Alike, entries_update_of_none ht, entries_update_of_none (hpos.symm.trans ht),
        List.map_append, List.map_append, h, List.map_singleton, List.map_singleton]
      rw [Prod.map_apply, Prod.map_apply, hk, hφ v w hv]

theorem swapRemoveAt (h : t.Alike f g u) (i : Nat) :
    (t.swapRemoveAt i).Alike f g (u.swapRemoveAt i) := by
  rw [Table.Alike, entries_swapRemoveAt, entries_swapRemoveAt, map_swapErase, map_swapErase, h]

theorem filter {p q : K → V → Bool} (h : t.Alike f g u)
    (hp : ∀ k l v w, f k = f l → g v = g w → p k v = q l w) :
    (t.filter p).Alike f g (u.filter q) := by
  rw [Table.Alike, entries_filter, entries_filter]
  refine map_filter_congr h ?_
  intro a b hab
  obtain ⟨hkey, hvalue⟩ := Prod.mk.inj hab
  exact hp _ _ _ _ hkey hvalue

end Table.Alike

end Tables

end ChainScript
