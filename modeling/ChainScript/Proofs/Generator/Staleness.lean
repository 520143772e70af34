import ChainScript.Proofs.Format.Plain

/-!
# How old records get

An age pass is left out while the last one is recent, so a record may outlive the age bound.
Where the clock never goes back it does not outlive it twice: no record that is left was older
than the bound at the last age pass, and a pass that is left out comes no later than the bound
after the last one.

## Main definitions

* `Generator.Timely` — no record was too old at the last age pass.
* `Command.Steady` — a command that loads no binary file and keeps the age bound.

## Main results

* `Generator.staleness_spec` — what a cleanup leaves is at most twice the age bound old.
-/

namespace ChainScript

/-- Nothing saturates where a duration is subtracted from a time after the epoch. -/
theorem Instant.toInt_back_of_nonneg {now : Instant} (hnow : 0 ≤ now.toInt) (d : Duration) :
    (back now d).toInt = now.toInt - d.millis.toInt := by
  have hd : d.millis.toInt ≤ Int64.maxValue.toInt := d.millis.toInt_le
  rw [Int64.toInt_maxValue] at hd
  rw [toInt_back_eq, Int64.toInt_minValue]
  omega

namespace Chain

namespace Generator

/-- The last age pass has taken place at `now`, and no record was older than the bound `d` when
it did.  Where there has been no pass, the epoch counts as one. -/
structure Timely (d : Duration) (now : Instant) (g : Generator) : Prop where
  built : g.graph.Built
  maxAge_eq : g.config.maxAge = d
  lastCleanup_le : g.lastCleanup.toInt ≤ now.toInt
  young : ∀ r ∈ g.graph.records, g.lastCleanup.toInt - d.millis.toInt ≤ r.2.createdAt.toInt

variable {d : Duration} {now : Instant} {env : Env} {g g' : Generator}

theorem timely_new {config : Config} (hnow : 0 ≤ now.toInt) :
    (new config now).Timely config.maxAge now :=
  ⟨.empty, rfl, hnow, fun _ hr => absurd hr List.not_mem_nil⟩

theorem Timely.later (T : g.Timely d now) {later : Instant} (h : now.toInt ≤ later.toInt) :
    g.Timely d later :=
  ⟨T.built, T.maxAge_eq, T.lastCleanup_le.trans h, T.young⟩

/-- Records that are created now are no older than the last age pass. -/
theorem Timely.withGraph (T : g.Timely d now) {graph : Graph} (B : graph.Built)
    (hnew : ∀ x ∈ graph.content, x ∈ g.graph.content ∨ x.2.createdAt = now) :
    { g with graph := graph }.Timely d now := by
  refine ⟨B, T.maxAge_eq, T.lastCleanup_le, ?_⟩
  have hyoung := T.young
  have hlast := T.lastCleanup_le
  have hd := d.millis_nonneg
  rw [← forall_contentOf (P := fun s =>
    g.lastCleanup.toInt - d.millis.toInt ≤ s.createdAt.toInt)] at hyoung ⊢
  intro x hx
  rcases hnew x hx with hold | hcreated
  · exact hyoung x hold
  · rw [hcreated]
    omega

/-- **A sweep leaves no record that is older than twice the bound.**  A pass that is due leaves
none that is older than the bound; where it is left out the last one is no longer ago than
that. -/
theorem Timely.sweep {n : Nat} (T : g.Timely d env.now) (hnow : 0 ≤ env.now.toInt)
    (h : g.sweep env = some (n, g')) :
    g'.Timely d env.now ∧
      ∀ r ∈ g'.graph.records, env.now.toInt - 2 * d.millis.toInt ≤ r.2.createdAt.toInt := by
  obtain ⟨⟨c, hdrop⟩, hconfig, hcleanup⟩ := of_sweep h
  have hback := Instant.toInt_back_of_nonneg hnow d
  have hd := d.millis_nonneg
  have hlast := T.lastCleanup_le
  rw [← T.maxAge_eq] at hback hd ⊢
  -- The bound at the last age pass, which may be the one of this sweep.
  have hpass : g'.lastCleanup.toInt ≤ env.now.toInt ∧
      env.now.toInt - g.config.maxAge.millis.toInt ≤ g'.lastCleanup.toInt ∧
      ∀ r ∈ (g.graph.aged g.config env.now g.lastCleanup).records,
        g'.lastCleanup.toInt - g.config.maxAge.millis.toInt ≤ r.2.createdAt.toInt := by
    rw [hcleanup, Graph.aged]
    by_cases hdue : g.lastCleanup < Instant.back env.now g.config.maxAge
    · simp only [if_pos hdue, Graph.records_retainYounger]
      refine ⟨le_rfl, by omega, fun r hr => ?_⟩
      have hkept := of_decide_eq_true (List.mem_filter.1 hr).2
      rwa [Int64.le_iff_toInt_le, hback] at hkept
    · simp only [if_neg hdue]
      rw [Int64.lt_iff_toInt_lt, hback] at hdue
      exact ⟨hlast, by omega, T.maxAge_eq ▸ T.young⟩
  obtain ⟨hpast, hrecent, hyoung⟩ := hpass
  have hless := Graph.content_dropRandom_le (T.built.aged ..).consistent hdrop
  have hkept : ∀ r ∈ g'.graph.records,
      g'.lastCleanup.toInt - g.config.maxAge.millis.toInt ≤ r.2.createdAt.toInt := by
    rw [← forall_contentOf (P := fun s =>
      g'.lastCleanup.toInt - g.config.maxAge.millis.toInt ≤ s.createdAt.toInt)] at hyoung ⊢
    exact fun x hx => hyoung x (Multiset.mem_of_le hless hx)
  refine ⟨⟨(sound_of_sweep T.built h).built, congrArg _ hconfig, hpast, hkept⟩, ?_⟩
  intro r hr
  have hr := hkept r hr
  omega

/-- A word that is learned now is young. -/
theorem Timely.record (hnow : 0 ≤ env.now.toInt) {p : Prefix} {s : Suffix}
    (hs : s.createdAt = env.now) (T : g.Timely d env.now) (h : g.record env p s = some g') :
    g'.Timely d env.now := by
  have T' : { g with graph := g.graph.insert p s }.Timely d env.now := by
    refine T.withGraph (T.built.insert p s) fun x hx => ?_
    rw [Graph.content_insert, Multiset.mem_cons] at hx
    rcases hx with rfl | hx
    · exact .inr hs
    · exact .inl hx
  rw [Generator.record] at h
  split at h
  · obtain ⟨⟨n, g₁⟩, hsweep, rfl⟩ := Option.map_eq_some_iff.1 h
    exact (T'.sweep hnow hsweep).1
  · exact Option.some.inj h ▸ T'

/-- The records of a text file are as young as words that are learned now. -/
theorem Timely.load (hnow : 0 ≤ env.now.toInt) (T : g.Timely d env.now) {format : Format}
    {input : Input} {r : Except ChainError Nat} (hformat : format ≠ .binary)
    (h : g.load env format input = some (r, g')) : g'.Timely d env.now := by
  obtain ⟨rs, n, hread, hsweep, -⟩ | ⟨e, -, -, rfl⟩ := of_load h
  · have hcreated : ∀ r ∈ rs, r.2.createdAt = env.now := by
      cases format with
      | text => exact TextFormat.createdAt_read hread
      | binary => exact absurd rfl hformat
      | dot => cases hread
    have hcontent : ∀ x ∈ (Graph.ofRecords rs).content, x.2.createdAt = env.now := by
      rw [Graph.content_ofRecords, forall_contentOf (P := fun s => s.createdAt = env.now)]
      exact hcreated
    exact ((T.withGraph (Graph.built_ofRecords rs) fun x hx =>
      .inr (hcontent x hx)).sweep hnow hsweep).1
  · exact T

end Generator

/-! ### Runs -/

/-- The command loads no binary file and does not change the age bound. -/
def Command.Steady (command : Command) : Prop :=
  command.ReadsText ∧ ∀ d, command ≠ .maxAge d

/-- One steady command keeps a generator timely. -/
theorem Command.timely_of_run {d : Duration} {env : Env} {command : Command} {g g' : Generator}
    {r : Except ChainError Answer} (hsteady : command.Steady) (hnow : 0 ≤ env.now.toInt)
    (T : g.Timely d env.now) (h : command.run env g = some (r, g')) : g'.Timely d env.now := by
  cases command with
  | text learned =>
      obtain ⟨g₁, hrun, h⟩ := Option.bind_eq_some_iff.1 h
      obtain ⟨-, rfl⟩ := Prod.mk.inj (Option.some.inj h)
      exact Generator.addText_induction (fun hs T h => T.record hnow hs h) T hrun
  | reader input =>
      obtain ⟨⟨outcome, g₁⟩, hrun, h⟩ := Option.bind_eq_some_iff.1 h
      obtain ⟨-, rfl⟩ := Prod.mk.inj (Option.some.inj h)
      exact Generator.addReader_induction (fun hs T h => T.record hnow hs h) T hrun
  | load format input =>
      obtain ⟨⟨outcome, g₁⟩, hrun, h⟩ := Option.bind_eq_some_iff.1 h
      obtain ⟨-, rfl⟩ := Prod.mk.inj (Option.some.inj h)
      exact T.load hnow (fun hformat => hsteady.1 input (hformat ▸ rfl)) hrun
  | cleanup =>
      obtain ⟨⟨n, g₁⟩, hrun, h⟩ := Option.bind_eq_some_iff.1 h
      obtain ⟨-, rfl⟩ := Prod.mk.inj (Option.some.inj h)
      exact (T.sweep hnow hrun).1
  | maxSize n =>
      obtain ⟨g₁, hrun, h⟩ := Option.bind_eq_some_iff.1 h
      obtain ⟨-, rfl⟩ := Prod.mk.inj (Option.some.inj h)
      obtain ⟨⟨m, g₂⟩, hsweep, rfl⟩ := Option.map_eq_some_iff.1 hrun
      exact (Generator.Timely.sweep (g := { g with config := { g.config with maxSize := n } })
        ⟨T.built, T.maxAge_eq, T.lastCleanup_le, T.young⟩ hnow hsweep).1
  | maxAge d => exact absurd rfl (hsteady.2 d)
  | clear =>
      obtain ⟨-, rfl⟩ := Prod.mk.inj (Option.some.inj h)
      exact T.withGraph .empty fun x hx => absurd hx (Multiset.notMem_zero x)
  | seed | config | stats | size | store =>
      obtain ⟨-, rfl⟩ := Prod.mk.inj (Option.some.inj h)
      exact ⟨T.built, T.maxAge_eq, T.lastCleanup_le, T.young⟩
  | generate least most =>
      obtain ⟨⟨ws, g₁⟩, hrun, h⟩ := Option.bind_eq_some_iff.1 h
      obtain ⟨-, rfl⟩ := Prod.mk.inj (Option.some.inj h)
      obtain ⟨c, rfl⟩ := Generator.exists_cursor_of_generate hrun
      exact ⟨T.built, T.maxAge_eq, T.lastCleanup_le, T.young⟩
  | generateFrom prompt least most =>
      obtain ⟨⟨ws, g₁⟩, hrun, h⟩ := Option.bind_eq_some_iff.1 h
      obtain ⟨-, rfl⟩ := Prod.mk.inj (Option.some.inj h)
      obtain ⟨c, rfl⟩ := Generator.exists_cursor_of_generateFrom hrun
      exact ⟨T.built, T.maxAge_eq, T.lastCleanup_le, T.young⟩

namespace Generator

variable {d : Duration} {now later : Instant} {env : Env} {g g' : Generator}

/-- A run of steady commands keeps a generator timely while the clock does not go back. -/
theorem Timely.runAll {steps : List (Env × Command)} (T : g.Timely d now) (hnow : 0 ≤ now.toInt)
    (hclock : (now :: (steps.map (·.1.now) ++ [later])).Pairwise (· ≤ ·))
    (hsteady : ∀ step ∈ steps, step.2.Steady) (h : runAll steps g = some g') :
    g'.Timely d later := by
  induction steps generalizing g now with
  | nil =>
      have hlater := (List.pairwise_cons.1 hclock).1 later (by simp)
      exact Option.some.inj h ▸ T.later (Int64.le_iff_toInt_le.1 hlater)
  | cons step steps ih =>
      obtain ⟨hnext, hclock⟩ := List.pairwise_cons.1 hclock
      obtain ⟨hstep, hsteady⟩ := List.forall_mem_cons.1 hsteady
      obtain ⟨⟨r, g₁⟩, hrun, h⟩ := Option.bind_eq_some_iff.1 h
      have hlater : now.toInt ≤ step.1.now.toInt :=
        Int64.le_iff_toInt_le.1 (hnext step.1.now (by simp))
      have T₁ := Command.timely_of_run hstep (hnow.trans hlater) (T.later hlater) hrun
      exact ih T₁ (hnow.trans hlater) hclock hsteady h

/-- Where the last age pass is recent, a sweep drops records by number only. -/
theorem sweep_of_recent {n : Nat} (B : g.graph.Built) (hnow : 0 ≤ env.now.toInt)
    (hrecent : env.now.toInt - g.config.maxAge.millis.toInt ≤ g.lastCleanup.toInt)
    (h : g.sweep env = some (n, g')) :
    g'.lastCleanup = g.lastCleanup ∧
      (g.graph.count ≤ g.config.maxSize → g'.graph = g.graph) := by
  have hdue : ¬ g.lastCleanup < Instant.back env.now g.config.maxAge := by
    rw [Int64.lt_iff_toInt_lt, Instant.toInt_back_of_nonneg hnow]
    omega
  obtain ⟨-, -, hcleanup⟩ := of_sweep h
  exact ⟨hcleanup.trans (if_neg hdue), fun hfits => graph_sweep_of_not_due B hfits hdue h⟩

/-- **What a cleanup leaves is at most twice the age bound old.**  The clock starts after the epoch
and never goes back, no binary file is loaded and the age bound stays.  Then this holds of every
record right after a cleanup or a change of the size bound, although either leaves the age pass
out where the last one is recent, and then drops records by number only. -/
theorem staleness_spec {config : Config} {start : Instant} {steps : List (Env × Command)}
    {command : Command} {r : Except ChainError Answer} (hstart : 0 ≤ start.toInt)
    (hclock : (start :: (steps.map (·.1.now) ++ [env.now])).Pairwise (· ≤ ·))
    (hsteady : ∀ step ∈ steps, step.2.Steady)
    (hcommand : command = .cleanup ∨ ∃ n, command = .maxSize n)
    (hrun : Chain.runAll steps (new config start) = some g)
    (hlast : command.run env g = some (r, g')) :
    (∀ x ∈ g'.graph.records,
      env.now.toInt - 2 * config.maxAge.millis.toInt ≤ x.2.createdAt.toInt) ∧
    (env.now.toInt - config.maxAge.millis.toInt ≤ g.lastCleanup.toInt →
      g'.lastCleanup = g.lastCleanup ∧
      (g.graph.count ≤ g'.config.maxSize → g'.graph = g.graph)) := by
  have hnow : 0 ≤ env.now.toInt := hstart.trans
    (Int64.le_iff_toInt_le.1 ((List.pairwise_cons.1 hclock).1 env.now (by simp)))
  have T : g.Timely config.maxAge env.now :=
    (timely_new hstart).runAll hstart hclock hsteady hrun
  -- Either command is a sweep, of a generator that differs from `g` in the size bound at most.
  obtain ⟨m, n, hsweep⟩ : ∃ m n,
      { g with config := { g.config with maxSize := m } }.sweep env = some (n, g') := by
    rcases hcommand with rfl | ⟨m, rfl⟩
    · obtain ⟨⟨n, g₁⟩, hsweep, h⟩ := Option.bind_eq_some_iff.1 hlast
      obtain ⟨-, rfl⟩ := Prod.mk.inj (Option.some.inj h)
      exact ⟨g.config.maxSize, n, hsweep⟩
    · obtain ⟨g₁, hset, h⟩ := Option.bind_eq_some_iff.1 hlast
      obtain ⟨-, rfl⟩ := Prod.mk.inj (Option.some.inj h)
      obtain ⟨⟨n, g₂⟩, hsweep, rfl⟩ := Option.map_eq_some_iff.1 hset
      exact ⟨m, n, hsweep⟩
  have T' : { g with config := { g.config with maxSize := m } }.Timely config.maxAge env.now :=
    ⟨T.built, T.maxAge_eq, T.lastCleanup_le, T.young⟩
  refine ⟨(T'.sweep hnow hsweep).2, fun hrecent => ?_⟩
  rw [config_sweep hsweep]
  exact sweep_of_recent T'.built hnow (T'.maxAge_eq ▸ hrecent) hsweep

/-- A word that is five and a half seconds old stays under a bound of four, since the last age pass
is three and a half seconds ago. -/
theorem staleness_spec_skipped :
    ∃ g n g', Chain.runAll
        [(⟨Source.counter, 10000⟩, .text "a"), (⟨Source.counter, 12000⟩, .cleanup)]
        (new { maxAge := .ofSeconds 4 } 10000) = some g ∧
      Command.cleanup.run ⟨Source.counter, 15500⟩ g = some (.ok (.count n), g') ∧
      g'.graph.records = [(.start, ⟨⟨"a"⟩, true, 10000⟩)] ∧
      ∀ x ∈ g'.graph.records, 15500 - 2 * 4000 ≤ x.2.createdAt.toInt := by
  obtain ⟨g, hrun, hconfig, hlast, hrecords⟩ := exists_run_word_cleanup
  have hg : g.Reachable := ⟨_, _, _, hrun⟩
  obtain ⟨n, g', hsweep, -⟩ := exists_sweep_of_fits ⟨Source.counter, 15500⟩ hg.sound.built
    hg.sound.count_le
  have hcleanup : Command.cleanup.run ⟨Source.counter, 15500⟩ g = some (.ok (.count n), g') := by
    rw [Command.run, cleanup, hsweep]
    rfl
  have hsteady : ∀ step ∈ [((⟨Source.counter, 10000⟩, .text "a") : Env × Command),
      (⟨Source.counter, 12000⟩, .cleanup)], step.2.Steady := by
    simp [Command.Steady, Command.ReadsText]
  obtain ⟨hbound, hskipped⟩ := staleness_spec (by decide) (by decide) hsteady (.inl rfl) hrun
    hcleanup
  have hgraph := (hskipped (by rw [hlast]; decide)).2 (config_sweep hsweep ▸ hg.sound.count_le)
  exact ⟨g, n, g', hrun, hcleanup, hgraph ▸ hrecords, hbound⟩

end Generator

end Chain

end ChainScript
