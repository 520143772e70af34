import ChainScript.Proofs.Tally.History

/-!
# Places of a tally

The things that a tally counts stand in line, those of the first count before those of the second
and so on.  A place is a count with an offset below it, and the search sends every position in the
line to its place.  Positions and places correspond one to one, and in order: a later position has
a later count, or a greater offset in the same one.

## Main definitions

* `Tally.Finds` — the count in which a position lies, and its offset there.

## Main results

* `Tally.finds_iff` — a position is the sum of the counts before it and an offset.
* `Tally.search_spec` — the search finds every position, and every place in order.
-/

namespace ChainScript.Chain.Tally

/-- The position `k` lies in count `p.1`, behind `p.2` others of that count. -/
structure Finds (t : Tally) (k : Nat) (p : Nat × Nat) : Prop where
  lt_size : p.1 < t.size
  sum_le : t.sum p.1 ≤ k
  lt_sum : k < t.sum (p.1 + 1)
  offset_eq : p.2 = k - t.sum p.1

variable {t : Tally} {counts : List Nat} {k l : Nat} {p q : Nat × Nat}

theorem Answers.finds_iff (A : t.Answers counts) :
    t.Finds k p ↔ p.1 < counts.length ∧ (counts.take p.1).sum ≤ k ∧
      k < (counts.take (p.1 + 1)).sum ∧ p.2 = k - (counts.take p.1).sum := by
  rw [← A.size_eq, ← A.sum_eq, ← A.sum_eq]
  exact ⟨fun F => ⟨F.lt_size, F.sum_le, F.lt_sum, F.offset_eq⟩,
    fun ⟨hsize, hle, hlt, hoff⟩ => ⟨hsize, hle, hlt, hoff⟩⟩

theorem Holds.sum_mono (H : Holds t counts) {m n : Nat} (h : m ≤ n) : t.sum m ≤ t.sum n := by
  rw [sum_spec H, sum_spec H]
  exact sum_take_mono counts h

theorem Holds.sum_add_one (H : Holds t counts) {i : Nat} (hi : i < t.size) :
    t.sum (i + 1) = t.sum i + t.get i := by
  have hi' : i < counts.length := H.size_eq ▸ hi
  rw [sum_spec H, sum_spec H, get_spec H hi', sum_take_add_one hi']

theorem Holds.sum_size (H : Holds t counts) : t.sum t.size = counts.sum := by
  rw [sum_spec H, H.size_eq, List.take_length]

/-- A position lies at the given place where it comes behind all earlier counts by the offset. -/
theorem finds_iff (H : Holds t counts) :
    t.Finds k p ↔ p.1 < t.size ∧ p.2 < t.get p.1 ∧ k = t.sum p.1 + p.2 := by
  constructor
  · rintro ⟨hsize, hle, hlt, hoff⟩
    rw [H.sum_add_one hsize] at hlt
    omega
  · rintro ⟨hsize, hoff, rfl⟩
    refine ⟨hsize, Nat.le_add_right _ _, ?_, (Nat.add_sub_cancel_left _ _).symm⟩
    rw [H.sum_add_one hsize]
    exact Nat.add_lt_add_left hoff _

/-- The counts before a place sum up to no more than the position, so a count that ends at or
before it comes earlier. -/
theorem Finds.fst_le (H : Holds t counts) (F : t.Finds k p) (G : t.Finds l q) (h : k ≤ l) :
    p.1 ≤ q.1 := by
  by_contra hlt
  have hmono := H.sum_mono (show q.1 + 1 ≤ p.1 by omega)
  have hsum := F.sum_le
  have hlt := G.lt_sum
  omega

theorem Finds.unique (H : Holds t counts) (F : t.Finds k p) (G : t.Finds k q) : p = q := by
  have hfst : p.1 = q.1 :=
    Nat.le_antisymm (F.fst_le H G (Nat.le_refl k)) (G.fst_le H F (Nat.le_refl k))
  refine Prod.ext hfst ?_
  rw [F.offset_eq, G.offset_eq, hfst]

/-- A later position has a later place. -/
theorem Finds.lex (H : Holds t counts) (F : t.Finds k p) (G : t.Finds l q) (h : k < l) :
    Prod.Lex (· < ·) (· < ·) p q := by
  rw [Prod.lex_def]
  rcases Nat.lt_or_eq_of_le (F.fst_le H G (Nat.le_of_lt h)) with hfst | hfst
  · exact .inl hfst
  · refine .inr ⟨hfst, ?_⟩
    have hsum := F.sum_le
    rw [F.offset_eq, G.offset_eq, ← hfst]
    omega

theorem finds_locate (H : Holds t counts) (hk : k < t.sum t.size) : t.Finds k (t.locate k) := by
  rw [H.sum_size] at hk
  obtain ⟨i, off, hlocate, hi, hsum, hoff⟩ := locate_spec H hk
  rw [hlocate, finds_iff H]
  refine ⟨H.size_eq ▸ hi, ?_, ?_⟩
  · rwa [get_spec H hi]
  · rw [sum_spec H, hsum]

/-- A place is that of a position below the total. -/
theorem lt_sum_size_of_finds (H : Holds t counts) (F : t.Finds k p) : k < t.sum t.size :=
  Nat.lt_of_lt_of_le F.lt_sum (H.sum_mono F.lt_size)

/-- **The search is exact.**  After every history of changes that can be made, it sends each
position below the total to the one count in which it lies and to its offset there; that count is
never zero.  Over all positions it goes through the places of all counts, each once and in order:
by the count first, and by the offset in it. -/
theorem search_spec {changes : List Change} (h : Admissible [] changes) :
    let t := after changes
    (∀ k < t.sum t.size, t.Finds k (t.locate k) ∧ (∀ p, t.Finds k p → p = t.locate k) ∧
      0 < t.get (t.locate k).1) ∧
    ((List.range (t.sum t.size)).map t.locate).Pairwise (Prod.Lex (· < ·) (· < ·)) ∧
    ∀ p, p ∈ (List.range (t.sum t.size)).map t.locate ↔ p.1 < t.size ∧ p.2 < t.get p.1 := by
  have H := (fits_after h).holds
  refine ⟨?_, ?_, ?_⟩
  · intro k hk
    have F := finds_locate H hk
    have hoff := ((finds_iff H).1 F).2.1
    exact ⟨F, fun p G => G.unique H F, by omega⟩
  · rw [List.pairwise_map]
    refine List.pairwise_lt_range.imp_of_mem ?_
    intro k l hk hl hkl
    rw [List.mem_range] at hk hl
    exact (finds_locate H hk).lex H (finds_locate H hl) hkl
  · intro p
    rw [List.mem_map]
    constructor
    · rintro ⟨k, hk, rfl⟩
      rw [List.mem_range] at hk
      obtain ⟨hsize, hoff, -⟩ := (finds_iff H).1 (finds_locate H hk)
      exact ⟨hsize, hoff⟩
    · rintro ⟨hsize, hoff⟩
      have F := (finds_iff H).2 ⟨hsize, hoff, rfl⟩
      have hlt := lt_sum_size_of_finds H F
      exact ⟨_, List.mem_range.2 hlt, (finds_locate H hlt).unique H F⟩

/-- Counts of which two in a row are zero. -/
def gapped : List Change := [.push 2, .push 0, .push 0, .push 3, .push 1]

theorem search_spec_gapped : Admissible [] gapped ∧ (after gapped).locate 1 = (0, 1) ∧
    (after gapped).locate 2 = (3, 0) := by
  have hadmissible : Admissible [] gapped := by decide
  obtain ⟨hfinds, -, -⟩ := search_spec hadmissible
  have hcounts : countsAfter gapped = [2, 0, 0, 3, 1] := by decide
  have A := (fits_after hadmissible).holds.answers
  rw [hcounts] at A
  have htotal : (after gapped).sum (after gapped).size = 6 := by
    rw [A.size_eq, A.sum_eq]
    rfl
  have hone := (hfinds 1 (by rw [htotal]; decide)).2.1 (0, 1) (A.finds_iff.2 (by decide))
  have htwo := (hfinds 2 (by rw [htotal]; decide)).2.1 (3, 0) (A.finds_iff.2 (by decide))
  exact ⟨hadmissible, hone.symm, htwo.symm⟩

end ChainScript.Chain.Tally
