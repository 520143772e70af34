import ChainScript.Proofs.Registry.Adopted
import ChainScript.Proofs.Session.Twin

/-!
# Types taken over by a catalog that had none

A catalog without types that takes over those of another has its types in its order, and differs
from it in its number only.  So it is a twin of the other, and every session with the one is
answered as it is with the other.  What becomes of either afterwards is seen only by operations
that name it.

## Main definitions

* `Surroundings.put` — surroundings with a registry at a number.
* `Op.AllAvoid` — operations that do not name the registry of a number.

## Main results

* `Catalog.TakesOver.entries_eq`, `Catalog.Indexed.twin_of_entries` — the types after they were
  taken over.
* `Surroundings.replies_congr` — operations do not see a registry that they do not name.
* `Catalog.imported_spec` — a catalog that has taken all types over behaves like the other.
-/

namespace ChainScript.Script

variable {U : Universe}

/-! ### Surroundings -/

/-- The surroundings with a registry at a number that is in use. -/
def Surroundings.put (e : Surroundings U) (i : Nat) (r : Registry U) : Surroundings U :=
  { e with registries := e.registries.setIfInBounds i r }

/-- The operations do not name the registry of the number `i`. -/
def Op.AllAvoid (e : Surroundings U) (i : Nat) (ops : List (Op U)) : Prop :=
  Op.AllWithin (fun n => n.getD e.home ≠ i) ops

namespace Surroundings

variable (e : Surroundings U) (i : Nat) {r r' : Registry U}

theorem registries_put (r : Registry U) (n : Nat) :
    (e.put i r).registries[n]? =
      if n = i then e.registries[n]?.map fun _ => r else e.registries[n]? := by
  rw [put, Array.getElem?_setIfInBounds]
  by_cases hn : n = i
  · subst hn
    rw [if_pos rfl, if_pos rfl]
    split
    · next hlt => rw [Array.getElem?_eq_getElem hlt, Option.map_some]
    · next hle => rw [Array.getElem?_eq_none (Nat.le_of_not_lt hle), Option.map_none]
  · rw [if_neg (Ne.symm hn), if_neg hn]

/-- Twins at one number give the same replies. -/
theorem replies_put_twin (T : r.Twin r') (ops : List (Op U)) :
    (e.put i r').replies ops = (e.put i r).replies ops := by
  refine Surroundings.Twin.replies (P := fun _ => True) ?_
    (Op.allWithin_of_forall (fun _ => trivial) ops)
  intro n _
  change Option.Rel _ (e.put i r).registries[n.getD e.home]?
    (e.put i r').registries[n.getD e.home]?
  rw [registries_put, registries_put]
  cases e.registries[n.getD e.home]? with
  | none => split <;> exact .none
  | some _ =>
      split
      · exact .some T
      · exact .some (.refl _)

/-- Operations do not see a registry that they do not name. -/
theorem replies_congr {e e' : Surroundings U} {i : Nat} {ops : List (Op U)}
    (hops : Op.AllAvoid e i ops) (hhome : e'.home = e.home)
    (hothers : ∀ n ≠ i, e'.registries[n]? = e.registries[n]?) :
    e'.replies ops = e.replies ops := by
  refine Surroundings.Twin.replies (P := fun n => n.getD e.home ≠ i) ?_ hops
  intro n hn
  rw [hhome, hothers _ hn]
  cases e.registries[n.getD e.home]? with
  | none => exact .none
  | some r => exact .some (.refl r)

end Surroundings

/-! ### Types taken over by an empty catalog -/

namespace Catalog

variable {a b c : Catalog U}

/-- The types after an empty catalog has taken them over. -/
theorem TakesOver.entries_eq (hempty : a.entries = #[]) (h : a.TakesOver b.entries.toList c) :
    c.entries = b.entries.map (·.ownedBy a.id) := by
  have htags : c.tags = b.tags := by
    have hnone : a.tags = [] := by rw [Registry.tags, hempty]; rfl
    rw [h.tags_eq, hnone, List.nil_append, List.filter_eq_self.2 (by simp)]
    rfl
  have hsize : c.entries.size = b.entries.size := by
    simpa [Registry.tags] using congrArg List.length htags
  refine Array.ext (by rw [hsize, Array.size_map]) fun i hi hi' => ?_
  rw [Array.size_map] at hi'
  rw [Array.getElem_map]
  have hkind : c.entries[i].kind = b.entries[i].kind := by
    have htag : c.tags[i]? = b.tags[i]? := by rw [htags]
    simp only [Registry.tags, List.getElem?_map, Array.getElem?_toList,
      Array.getElem?_eq_getElem hi, Array.getElem?_eq_getElem hi'] at htag
    exact congrArg Prod.fst (Option.some.inj htag)
  have htaken := h.taken b.entries[i] (Array.mem_toList_iff.2 (Array.getElem_mem hi'))
  have hfound := h.growsTo.indexed.find?_eq_some_iff.2 ⟨Array.getElem_mem hi, hkind⟩
  exact Option.some.inj (hfound.symm.trans htaken)

/-- The catalog differs from the other in its number only. -/
theorem Indexed.twin_of_entries (B : b.Indexed)
    (hentries : c.entries = b.entries.map (·.ownedBy c.id)) :
    b.toRegistry.Twin c.toRegistry := by
  rw [Registry.Twin, Registry.unnumbered, Registry.unnumbered, hentries, Array.map_map]
  refine Array.map_congr_left fun d hd => ?_
  rw [decide_eq_true (B.owner d hd)]
  exact congrArg (d.face, ·) (decide_eq_true rfl)

/-- **A catalog that has taken all types over behaves like the other.**  A catalog without types
takes over all those of another.  They stand in it in the same order, with the catalog as their
owner.  Whatever else there is in the surroundings, every session is answered with the one as it
is with the other in its place: by the same values, the same texts, the same ways in which objects
hold their values, and the same errors.  What is registered later in either of them does not
change the answers to operations that use the other. -/
theorem imported_spec (ha : a.Reachable) (hempty : a.entries = #[]) (hb : b.Reachable) :
    ∃ c, (Change.adoptAll b).run a = (c, .ok ()) ∧ c.id = a.id ∧
      c.entries = b.entries.map (·.ownedBy a.id) ∧
      (∀ (e : Surroundings U) i ops,
        (e.put i c.toRegistry).replies ops = (e.put i b.toRegistry).replies ops) ∧
      ∀ (e : Surroundings U) i j ops,
        (∀ b', b.Evolves b' → Op.AllAvoid e i ops →
          ((e.put i b'.toRegistry).put j c.toRegistry).replies ops =
            ((e.put i b.toRegistry).put j c.toRegistry).replies ops) ∧
        ∀ c', c.Evolves c' → Op.AllAvoid e j ops →
          ((e.put i b.toRegistry).put j c'.toRegistry).replies ops =
            ((e.put i b.toRegistry).put j c.toRegistry).replies ops := by
  have A := ha.indexed
  have B := hb.indexed
  have hadmits : ∀ d ∈ b.entries, a.Admits d := by
    intro d _
    refine .inr ?_
    rw [Registry.kinds, Registry.names, hempty]
    simp
  have hrun : a.adoptAll b = .ok _ := A.adoptAll_eq_ok_iff.2 ⟨hadmits, rfl⟩
  have H := A.takesOver_foldl_adopt B.byKind.nodup B.byName.nodup
    fun d hd => hadmits d (Array.mem_toList_iff.1 hd)
  have hentries := H.entries_eq hempty
  have T := B.twin_of_entries (H.growsTo.id_eq ▸ hentries)
  refine ⟨_, run_adoptAll_eq_ok_iff.2 hrun, H.growsTo.id_eq, hentries,
    fun e i ops => e.replies_put_twin i T ops, fun e i j ops => ⟨?_, ?_⟩⟩
  · intro b' _ hops
    refine Surroundings.replies_congr (i := i) hops rfl fun n hn => ?_
    simp only [Surroundings.registries_put, if_neg hn]
  · intro c' _ hops
    refine Surroundings.replies_congr (i := j) hops rfl fun n hn => ?_
    simp only [Surroundings.registries_put, if_neg hn]

/-- A catalog that has taken over one type makes and shows numbers as the other does, also after
the other has got a second type. -/
theorem imported_spec_small :
    ∃ a b c b' : Catalog Gallery.world, ∃ ops : List (Op Gallery.world),
      (a.Reachable ∧ a.entries = #[] ∧ b.Reachable) ∧ (Change.adoptAll b).run a = (c, .ok ()) ∧
      c.id ≠ b.id ∧ b.Evolves b' ∧ b'.names = ["number", "text"] ∧
      ((⟨#[b'.toRegistry, c.toRegistry], 1⟩ : Surroundings Gallery.world).replies ops =
        (⟨#[b.toRegistry, b.toRegistry], 1⟩ : Surroundings Gallery.world).replies ops) ∧
      (⟨#[b.toRegistry, b.toRegistry], 1⟩ : Surroundings Gallery.world).replies ops =
        [.andThen (.object ⟨"number", .shared, .ok ⟨.int, 3⟩⟩)
          [.info ⟨"number", .shared, .ok ⟨.int, 3⟩⟩ true true]] := by
  let b : Catalog Gallery.world := ((Change.register .int "number" id).run (.empty 2)).1
  let b' : Catalog Gallery.world := ((Change.register .string "text" id).run b).1
  have hb : b.Reachable := .change _ (.empty 2) nofun
  have hlater : b.Evolves b' := .change _ (.refl b) nofun
  obtain ⟨c, hrun, hid, -, hsame, hothers⟩ := imported_spec (.empty 5) rfl hb
  let e : Surroundings Gallery.world := ⟨#[b.toRegistry, b.toRegistry], 1⟩
  let ops : List (Op Gallery.world) := [.make (.share ⟨.int, 3⟩) none none [.ask none .info]]
  have havoid : Op.AllAvoid e 0 ops :=
    ⟨⟨Nat.one_ne_zero, trivial, trivial, trivial⟩, trivial⟩
  refine ⟨.empty 5, b, c, b', ops, ⟨.empty 5, rfl, hb⟩, hrun, ?_, hlater, rfl, ?_, ?_⟩
  · rw [hid]
    decide
  · exact ((hothers e 0 1 ops).1 b' hlater havoid).trans (hsame e 1 ops)
  · with_unfolding_all rfl

end Catalog

end ChainScript.Script
