import ChainScript.Proofs.Generator.Ageing
import ChainScript.Proofs.Generator.Ending
import ChainScript.Proofs.Graph.Addressed

/-!
# What a sweep leaves

An age pass that is due leaves the young records where they stand, and then as many records go
as are too many, one by one.  A drop that finds no record would end the drops early; in a
consistent graph there is none, so the drops are as many as they should be.  This holds at the
ends of the range of instants too, where going back saturates.

## Main definitions

* `Sweeps` — what a sweep leaves of a graph.

## Main results

* `Graph.Consistent.perm_dropRandom` — random drops take records and change none.
* `sweep_spec` — the cutoff, the two passes and what is reported of them.
-/

namespace ChainScript.Chain

variable {g : Graph} {source : Source}

/-! ### The two passes -/

/-- Random drops take as many records as they are told to, and leave the others as they are. -/
theorem Graph.Consistent.perm_dropRandom (C : g.Consistent) {n : Nat} (hn : n ≤ g.count)
    {left : Graph} {c c' : Cursor} (h : g.dropRandom source n c = some (left, c')) :
    left.Consistent ∧
      ∃ gone : List Record, gone.length = n ∧ (gone ++ left.records).Perm g.records := by
  induction n generalizing g c with
  | zero =>
      obtain ⟨rfl, -⟩ := Prod.mk.inj (Option.some.inj h)
      exact ⟨C, [], rfl, .refl _⟩
  | succ n ih =>
      rw [Graph.dropRandom] at h
      obtain ⟨⟨k, c₁⟩, hk, h⟩ := Option.bind_eq_some_iff.1 h
      obtain ⟨p, s, bag, g₁, hrun, R⟩ := C.exists_removedAt (Source.below_lt (by omega) hk)
      simp only [hrun] at h
      have hcount := R.count_eq
      obtain ⟨C', gone, hlen, hrest⟩ := ih (C.removeNth hrun) (by omega) h
      exact ⟨C', (p, s) :: gone, by rw [List.length_cons, hlen], (hrest.cons _).trans R.perm⟩

/-! ### The sweep -/

/-- What a sweep with the given cutoff leaves of a graph: `young` is the graph between the two
passes. -/
structure Sweeps (g young : Graph) (maxSize : Nat) (cutoff now lastCleanup : Instant)
    (swept : Swept) : Prop where
  /-- An age pass that is due leaves the records that are no older than the cutoff, in order. -/
  pass : lastCleanup < cutoff →
    young.records = g.records.filter (cutoff ≤ ·.2.createdAt) ∧ swept.lastCleanup = now
  /-- One that is not due leaves everything. -/
  no_pass : ¬ lastCleanup < cutoff → young = g ∧ swept.lastCleanup = lastCleanup
  /-- The records too many go, and the others stay as they are. -/
  dropped : ∃ gone : List Record, gone.length = young.records.length - maxSize ∧
    swept.dropped = gone.length ∧ (gone ++ swept.graph.records).Perm young.records
  /-- Nothing is touched where none is too many. -/
  fits : young.records.length ≤ maxSize → swept.graph = young
  count_eq : swept.graph.count = min young.records.length maxSize
  /-- Every record that left is reported once. -/
  reported : swept.aged + young.records.length = g.records.length ∧
    swept.aged + swept.dropped + swept.graph.records.length = g.records.length
  consistent : young.Consistent ∧ swept.graph.Consistent

theorem Graph.Consistent.sweeps (C : g.Consistent) {config : Config} {now lastCleanup : Instant}
    {c c' : Cursor} {swept : Swept}
    (h : sweep source config now lastCleanup g c = some (swept, c')) :
    Sweeps g (g.aged config now lastCleanup) config.maxSize (Instant.back now config.maxAge) now
      lastCleanup swept := by
  rw [sweep_apply] at h
  obtain ⟨⟨left, c₁⟩, hdrop, h⟩ := Option.bind_eq_some_iff.1 h
  obtain ⟨rfl, -⟩ := Prod.mk.inj (Option.some.inj h)
  have Y := C.aged config now lastCleanup
  have hless := C.count_aged_le config now lastCleanup
  obtain ⟨L, gone, hgone, hperm⟩ := Y.perm_dropRandom (Nat.sub_le _ _) hdrop
  have hleft := hperm.length_eq
  rw [List.length_append, hgone, L.length_records, Y.length_records] at hleft
  refine ⟨?_, ?_, ⟨gone, ?_, ?_, hperm⟩, ?_, ?_, ?_, Y, L⟩
  · intro hdue
    rw [Graph.aged, if_pos hdue, Graph.records_retainYounger, if_pos hdue]
    exact ⟨rfl, rfl⟩
  · intro hdue
    rw [Graph.aged, if_neg hdue, if_neg hdue]
    exact ⟨rfl, rfl⟩
  · rw [hgone, Y.length_records]
  · rw [hgone]
    dsimp only
    omega
  · intro hfits
    rw [Y.length_records] at hfits
    rw [Nat.sub_eq_zero_of_le hfits] at hdrop
    exact (Prod.mk.inj (Option.some.inj hdrop)).1.symm
  · rw [Y.length_records]
    dsimp only
    omega
  · rw [Y.length_records, C.length_records, L.length_records]
    dsimp only
    omega

/-- **A sweep, exactly.**  The cutoff lies the greatest age before now, as far as instants reach.
A sweep returns where selections among the records do; where it returns, it leaves what it should
and a clean-up reports how many records left. -/
theorem sweep_spec (C : g.Consistent) (source : Source) (config : Config)
    (now lastCleanup : Instant) :
    (Instant.back now config.maxAge).toInt = max (-2 ^ 63) (min (2 ^ 63 - 1)
      (now.toInt - min (config.maxAge.exactMillis : Int) (2 ^ 63 - 1))) ∧
    ((∀ n ≤ g.count, Returns (source.below n)) →
      Returns (sweep source config now lastCleanup g)) ∧
    ∀ c swept c', sweep source config now lastCleanup g c = some (swept, c') →
      (∃ young, Sweeps g young config.maxSize (Instant.back now config.maxAge) now lastCleanup
        swept) ∧
      Generator.cleanup ⟨source, now⟩ ⟨g, config, c, lastCleanup⟩ =
        some (g.records.length - swept.graph.records.length,
          ⟨swept.graph, config, c', swept.lastCleanup⟩) := by
  refine ⟨?_, ?_, ?_⟩
  · have hnow : now.toInt ≤ Int64.maxValue.toInt := now.toInt_le
    have hage := config.maxAge.millis_nonneg
    rw [Instant.toInt_back_eq]
    rw [Duration.toInt_millis] at hage ⊢
    rw [Int64.toInt_maxValue] at *
    rw [Int64.toInt_minValue]
    omega
  · intro hs
    have hless := C.count_aged_le config now lastCleanup
    have hreturns := (C.aged config now lastCleanup).returns_dropRandom
      (fun n hn => hs n (hn.trans hless))
      ((g.aged config now lastCleanup).count - config.maxSize)
    intro c
    obtain ⟨⟨left, c'⟩, hdrop⟩ := hreturns c
    rw [sweep_apply, hdrop]
    exact ⟨_, rfl⟩
  · intro c swept c' h
    have S := C.sweeps h
    refine ⟨⟨_, S⟩, ?_⟩
    have hreported : swept.aged + swept.dropped =
        g.records.length - swept.graph.records.length := by
      have := S.reported.2
      omega
    simp only [Generator.cleanup, Generator.sweep, h, ← hreported]
    rfl

/-- Three records of one bag. -/
def threeAges : List Record :=
  [(.start, ⟨⟨"old"⟩, true, 4⟩), (.start, ⟨⟨"young"⟩, true, 5⟩), (.start, ⟨⟨"new"⟩, true, 9⟩)]

/-- Bounds of one record and four milliseconds. -/
def tight : Config := ⟨1, ⟨0, 4000000, by decide⟩⟩

/-- One record is a millisecond too old and one of the others too many; at the earliest instant
the longest age reaches no further back. -/
theorem sweep_spec_three :
    (∃ swept c', sweep .lcg tight 9 0 (Graph.ofRecords threeAges) ⟨0, 0⟩ =
        some (swept, c') ∧
      swept.aged = 1 ∧ swept.dropped = 1 ∧ swept.graph.count = 1 ∧ swept.lastCleanup = 9) ∧
    (Instant.back Int64.minValue (Duration.ofSeconds (2 ^ 64))).toInt = -2 ^ 63 := by
  have C := (Graph.built_ofRecords threeAges).consistent
  have hrecords : (Graph.ofRecords threeAges).records = threeAges :=
    (Graph.records_ofRecords threeAges).trans (by with_unfolding_all rfl)
  have hcount : (Graph.ofRecords threeAges).count = 3 := Graph.count_ofRecords threeAges
  constructor
  · obtain ⟨-, hreturns, hleft⟩ := sweep_spec C .lcg tight 9 0
    obtain ⟨⟨swept, c'⟩, hsweep⟩ :=
      hreturns (fun n hn => Source.selects_lcg n (by omega)) ⟨0, 0⟩
    obtain ⟨⟨young, S⟩, -⟩ := hleft _ _ _ hsweep
    obtain ⟨hyoung, hlast⟩ := S.pass (by decide)
    have hlength : young.records.length = 2 := by
      rw [hyoung, hrecords]
      decide
    obtain ⟨gone, hgone, hdropped, -⟩ := S.dropped
    have haged := S.reported.1
    rw [hrecords] at haged
    refine ⟨swept, c', hsweep, ?_, ?_, ?_, hlast⟩
    · rw [hlength] at haged
      exact Nat.add_right_cancel haged
    · rw [hdropped, hgone, hlength]
      rfl
    · rw [S.count_eq, hlength]
      rfl
  · obtain ⟨hcutoff, -⟩ := sweep_spec C .lcg { maxAge := Duration.ofSeconds (2 ^ 64) }
      Int64.minValue 0
    exact hcutoff.trans (by decide)

end ChainScript.Chain
