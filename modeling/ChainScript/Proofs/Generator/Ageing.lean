import ChainScript.Proofs.Binary.RoundTrip
import ChainScript.Proofs.Generator.Learned

/-!
# The bounds after a load and after a change of the age bound

Loading and changing the age bound sweep.  The size bound then always holds.  The age pass of
the sweep is left out where the last one does not lie before the cutoff, and neither operation
resets the time of the last one; so the age bound holds where the pass is due, or where no
record was too old to begin with, and in no other case.

## Main definitions

* `Instant.Exact` — going back from an instant by a duration does not saturate.
* `Generator.WithinBounds` — few enough records, and none too old.
* `Generator.Due` — the next sweep makes an age pass.

## Main results

* `Generator.bounds_spec` — when a load and a change of the age bound bring a generator within
  its bounds.
-/

namespace ChainScript

theorem Duration.toInt_millis (d : Duration) :
    d.millis.toInt = min (d.exactMillis : Int) Int64.maxValue.toInt := by
  rw [millis, Int64.toInt_maxValue]
  exact Int64.toInt_ofInt_of_le (by omega) (by omega)

theorem Duration.millis_nonneg (d : Duration) : 0 ≤ d.millis.toInt := by
  rw [toInt_millis, Int64.toInt_maxValue]
  omega

namespace Instant

/-- Going back saturates at the earliest instant only. -/
theorem toInt_back_eq (t : Instant) (d : Duration) :
    (back t d).toInt = max Int64.minValue.toInt (t.toInt - d.millis.toInt) := by
  have ht : t.toInt ≤ Int64.maxValue.toInt := t.toInt_le
  have hd := d.millis_nonneg
  rw [Int64.toInt_maxValue] at ht
  rw [back, saturated, Int64.toInt_maxValue, Int64.toInt_minValue, min_eq_left (by omega)]
  exact Int64.toInt_ofInt_of_le (by omega) (by omega)

/-- No instant lies before the ones that it goes back to. -/
theorem back_le (t : Instant) (d : Duration) : back t d ≤ t := by
  have ht : Int64.minValue.toInt ≤ t.toInt := t.le_toInt
  have hd := d.millis_nonneg
  rw [Int64.le_iff_toInt_le, toInt_back_eq]
  omega

/-- The duration has that many milliseconds, and the instant that much earlier exists. -/
def Exact (now : Instant) (d : Duration) : Prop :=
  (d.exactMillis : Int) ≤ Int64.maxValue.toInt ∧
    Int64.minValue.toInt ≤ now.toInt - d.exactMillis

instance {now : Instant} {d : Duration} : Decidable (Exact now d) :=
  inferInstanceAs (Decidable (_ ∧ _))

theorem toInt_back {now : Instant} {d : Duration} (h : Exact now d) :
    (back now d).toInt = now.toInt - d.exactMillis := by
  rw [toInt_back_eq, d.toInt_millis, min_eq_left h.1, max_eq_right h.2]

end Instant

namespace Chain

/-! ### Times of records -/

/-- What holds of the suffixes of a list of records can be read off its content. -/
theorem forall_contentOf {rs : List Record} {P : Suffix → Prop} :
    (∀ x ∈ contentOf rs, P x.2) ↔ ∀ r ∈ rs, P r.2 := by
  rw [contentOf]
  simp only [Multiset.mem_coe, List.forall_mem_map]
  rfl

/-- A line that holds a record has four fields, of which the last is a flag. -/
theorem TextFormat.parseLine_eq_some {now : Instant} {number : Nat} {line : String} {r : Record}
    (h : parseLine now number line = .ok (some r)) :
    ∃ a b word flag terminal, Text.splitAt '\t' (trimEnds line) = [a, b, word, flag] ∧
      flag? flag = some terminal ∧ r = (⟨⟨a⟩, ⟨b⟩⟩, ⟨⟨word⟩, terminal, now⟩) := by
  simp only [parseLine] at h
  split at h
  · cases h
  · split at h
    · next a b word flag hfields =>
      cases hflag : flag? flag with
      | none =>
          rw [hflag] at h
          cases h
      | some terminal =>
          rw [hflag] at h
          exact ⟨a, b, word, flag, terminal, hfields, hflag,
            (Option.some.inj (Except.ok.inj h)).symm⟩
    · cases h

/-- Each record of a text file stands on a line of its own. -/
theorem TextFormat.mem_readLines {now : Instant} {number : Nat} {ls : List (List UInt8)}
    {found rs : List Record} (h : readLines now number ls found = .ok rs) {r : Record}
    (hr : r ∈ rs) :
    r ∈ found ∨ ∃ l ∈ ls, ∃ text n, Text.decode? l = some text ∧
      parseLine now n text = .ok (some r) := by
  induction ls generalizing number found with
  | nil =>
      obtain rfl := Except.ok.inj h
      exact .inl (List.mem_reverse.1 hr)
  | cons l ls ih =>
      have hlater : ∀ {n : Nat} {found' : List Record},
          readLines now n ls found' = .ok rs → r ∈ found' ∨
            ∃ l' ∈ l :: ls, ∃ text n, Text.decode? l' = some text ∧
              parseLine now n text = .ok (some r) := by
        intro n found' hrest
        refine (ih hrest).imp_right ?_
        rintro ⟨l', hl', hline⟩
        exact ⟨l', List.mem_cons_of_mem l hl', hline⟩
      rw [readLines] at h
      split at h
      · cases h
      · next text hdecode =>
        cases hparse : parseLine now number text with
        | error cause =>
            rw [hparse] at h
            cases h
        | ok line? =>
            rw [hparse] at h
            cases line? with
            | none => exact hlater h
            | some r' =>
                rcases hlater h with hfound | hline
                · rcases List.mem_cons.1 hfound with rfl | hfound
                  · exact .inr ⟨l, List.mem_cons_self, text, number, hdecode, hparse⟩
                  · exact .inl hfound
                · exact .inr hline

/-- The records of a file are those of its lines. -/
theorem TextFormat.mem_read {now : Instant} {input : Input} {rs : List Record}
    (h : read now input = .ok rs) {r : Record} (hr : r ∈ rs) :
    ∃ l ∈ input.rawLines, ∃ text n, Text.decode? l = some text ∧
      parseLine now n text = .ok (some r) := by
  rw [read] at h
  cases hlines : readLines now 1 input.rawLines [] with
  | error e =>
      rw [hlines] at h
      cases h
  | ok rs' =>
      rw [hlines] at h
      cases hfail : input.failure with
      | some failure =>
          simp only [hfail] at h
          cases h
      | none =>
          simp only [hfail] at h
          obtain rfl : rs' = rs := Except.ok.inj h
          exact (mem_readLines hlines hr).resolve_left (List.not_mem_nil)

/-- The records of a text file are created when it is read. -/
theorem TextFormat.createdAt_read {now : Instant} {input : Input} {rs : List Record}
    (h : read now input = .ok rs) : ∀ r ∈ rs, r.2.createdAt = now := by
  intro r hr
  obtain ⟨l, -, text, n, -, hparse⟩ := mem_read h hr
  obtain ⟨a, b, word, flag, terminal, -, -, rfl⟩ := parseLine_eq_some hparse
  rfl

namespace Generator

variable {env : Env} {g g' : Generator} {now : Instant}

/-- No record is older than the duration. -/
def AllYoung (now : Instant) (d : Duration) (rs : List Record) : Prop :=
  ∀ r ∈ rs, now.toInt - d.exactMillis ≤ r.2.createdAt.toInt

/-- The records are few enough, and none is too old. -/
def WithinBounds (now : Instant) (g : Generator) : Prop :=
  g.graph.count ≤ g.config.maxSize ∧ AllYoung now g.config.maxAge g.graph.records

/-- The last age pass is longer ago than the duration. -/
def Due (now : Instant) (d : Duration) (g : Generator) : Prop :=
  g.lastCleanup.toInt < now.toInt - d.exactMillis

theorem due_iff {d : Duration} (h : Instant.Exact now d) :
    g.Due now d ↔ g.lastCleanup < Instant.back now d := by
  rw [Int64.lt_iff_toInt_lt, Instant.toInt_back h, Due]

/-! ### Sweeps -/

theorem config_sweep {n : Nat} (h : g.sweep env = some (n, g')) : g'.config = g.config :=
  (of_sweep h).2.1

/-- Without an age pass, records that are few enough stay. -/
theorem graph_sweep_of_not_due {n : Nat} (B : g.graph.Built)
    (hfits : g.graph.count ≤ g.config.maxSize)
    (hdue : ¬ g.lastCleanup < Instant.back env.now g.config.maxAge)
    (h : g.sweep env = some (n, g')) : g'.graph = g.graph := by
  obtain ⟨m, g₁, hsweep, hgraph, -⟩ := exists_sweep_of_fits env B hfits
  obtain rfl : g₁ = g' := (Prod.mk.inj (Option.some.inj (hsweep.symm.trans h))).2
  rw [hgraph, Graph.aged, if_neg hdue]

/-- No record is too old after an age pass, and none turns old in a sweep. -/
theorem allYoung_of_sweep {n : Nat} (B : g.graph.Built)
    (hexact : Instant.Exact env.now g.config.maxAge)
    (hyoung : g.Due env.now g.config.maxAge ∨ AllYoung env.now g.config.maxAge g.graph.records)
    (h : g.sweep env = some (n, g')) : AllYoung env.now g.config.maxAge g'.graph.records := by
  obtain ⟨⟨c, hdrop⟩, -⟩ := of_sweep h
  have haged : AllYoung env.now g.config.maxAge
      (g.graph.aged g.config env.now g.lastCleanup).records := by
    rw [Graph.aged]
    split
    · rw [Graph.records_retainYounger]
      intro r hr
      have hle := of_decide_eq_true (List.mem_filter.1 hr).2
      rwa [Int64.le_iff_toInt_le, Instant.toInt_back hexact] at hle
    · next hdue => exact hyoung.resolve_left fun hcon => hdue ((due_iff hexact).1 hcon)
  have hless := Graph.content_dropRandom_le (B.aged ..).consistent hdrop
  rw [AllYoung, ← forall_contentOf (P := fun s =>
    env.now.toInt - g.config.maxAge.exactMillis ≤ s.createdAt.toInt)] at haged ⊢
  exact fun x hx => haged x (Multiset.mem_of_le hless hx)

/-- Where the records fit, a sweep brings a generator within its bounds just when the age pass
is due or no record is too old. -/
theorem withinBounds_sweep_iff {n : Nat} (B : g.graph.Built)
    (hexact : Instant.Exact env.now g.config.maxAge) (hfits : g.graph.count ≤ g.config.maxSize)
    (h : g.sweep env = some (n, g')) :
    g'.WithinBounds env.now ↔
      g.Due env.now g.config.maxAge ∨ AllYoung env.now g.config.maxAge g.graph.records := by
  rw [WithinBounds, config_sweep h]
  constructor
  · rintro ⟨-, hyoung⟩
    refine or_iff_not_imp_left.2 fun hdue => ?_
    rwa [graph_sweep_of_not_due B hfits (fun hcon => hdue ((due_iff hexact).2 hcon)) h] at hyoung
  · intro hyoung
    have hcount := (sound_of_sweep B h).count_le
    rw [config_sweep h] at hcount
    exact ⟨hcount, allYoung_of_sweep B hexact hyoung h⟩

/-- A graph is as young as the records it is made of. -/
theorem allYoung_ofRecords {d : Duration} {rs : List Record} :
    AllYoung now d (Graph.ofRecords rs).records ↔ AllYoung now d rs := by
  have h := Graph.content_ofRecords rs
  rw [Graph.content] at h
  rw [AllYoung, AllYoung, ← forall_contentOf (P := fun s =>
      now.toInt - d.exactMillis ≤ s.createdAt.toInt), h,
    forall_contentOf (P := fun s => now.toInt - d.exactMillis ≤ s.createdAt.toInt)]

/-- A load that succeeds sweeps the graph of the records of the file. -/
theorem sweep_of_load {format : Format} {input : Input} {n : Nat}
    (h : g.load env format input = some (.ok n, g')) :
    ∃ rs m, readRecords format env.now input = .ok rs ∧
      { g with graph := Graph.ofRecords rs }.sweep env = some (m, g') ∧ n = g'.graph.count := by
  obtain ⟨rs, m, hread, hsweep, hn⟩ | ⟨e, -, hn, -⟩ := of_load h
  · exact ⟨rs, m, hread, hsweep, Except.ok.inj hn⟩
  · cases hn

/-- **When loading and changing the age bound bring a generator within its bounds.**  The size
bound always holds.  The age bound holds where the last age pass is longer ago than the bound,
where none of the records is too old, and hence after every text file; where the records fit, it
holds in no other case. -/
theorem bounds_spec (hg : g.Reachable) (env : Env) :
    (∀ format input n g', g.load env format input = some (.ok n, g') →
      Instant.Exact env.now g.config.maxAge →
      ∃ rs, readRecords format env.now input = .ok rs ∧ n = g'.graph.count ∧
        g'.graph.count ≤ g'.config.maxSize ∧
        (g.Due env.now g.config.maxAge ∨ AllYoung env.now g.config.maxAge rs →
          g'.WithinBounds env.now) ∧
        (rs.length ≤ g.config.maxSize → g'.WithinBounds env.now →
          g.Due env.now g.config.maxAge ∨ AllYoung env.now g.config.maxAge rs) ∧
        (format = .text → g'.WithinBounds env.now)) ∧
    (∀ d g', g.setMaxAge env d = some g' → Instant.Exact env.now d →
      g'.graph.count ≤ g'.config.maxSize ∧
      (g'.WithinBounds env.now ↔ g.Due env.now d ∨ AllYoung env.now d g.graph.records)) := by
  constructor
  · intro format input n g' hload hexact
    obtain ⟨rs, m, hread, hsweep, hn⟩ := sweep_of_load hload
    have B := Graph.built_ofRecords rs
    have hconfig := config_sweep hsweep
    have hcount := (sound_of_sweep B hsweep).count_le
    have hwithin : g.Due env.now g.config.maxAge ∨ AllYoung env.now g.config.maxAge rs →
        g'.WithinBounds env.now := by
      rw [← @allYoung_ofRecords env.now _ rs]
      intro hyoung
      exact ⟨hcount, hconfig ▸ allYoung_of_sweep B hexact hyoung hsweep⟩
    refine ⟨rs, hread, hn, hcount, hwithin, ?_, ?_⟩
    · intro hfits hbounds
      have hlength : (Graph.ofRecords rs).count ≤ g.config.maxSize := by
        rwa [← B.consistent.card_content, Graph.content_ofRecords, contentOf, Multiset.coe_card,
          List.length_map]
      rw [← @allYoung_ofRecords env.now _ rs]
      exact (withinBounds_sweep_iff (g := { g with graph := Graph.ofRecords rs }) B hexact hlength
        hsweep).1 hbounds
    · rintro rfl
      rw [readRecords] at hread
      refine hwithin (.inr fun r hr => ?_)
      rw [TextFormat.createdAt_read hread r hr]
      generalize g.config.maxAge.exactMillis = age
      omega
  · intro d g' hset hexact
    obtain ⟨⟨m, g₁⟩, hsweep, rfl⟩ := Option.map_eq_some_iff.1 hset
    obtain ⟨B, hcount⟩ := hg.sound
    exact ⟨(sound_of_sweep (g := { g with config := { g.config with maxAge := d } }) B
        hsweep).count_le,
      withinBounds_sweep_iff (g := { g with config := { g.config with maxAge := d } }) B hexact
        hcount hsweep⟩

/-- A word, and an age pass two seconds later that keeps it. -/
theorem exists_run_word_cleanup :
    ∃ g, runAll [(⟨Source.counter, 10000⟩, .text "a"), (⟨Source.counter, 12000⟩, .cleanup)]
        (new { maxAge := .ofSeconds 4 } 10000) = some g ∧
      g.config = { maxAge := .ofSeconds 4 } ∧ g.lastCleanup = 12000 ∧
      g.graph.records = [(.start, ⟨⟨"a"⟩, true, 10000⟩)] := by
  have hrecords : (Graph.ofRecords (textRecords 10000 "a")).records =
      [(.start, ⟨⟨"a"⟩, true, 10000⟩)] := by
    have htext : textRecords 10000 "a" = [(.start, ⟨⟨"a"⟩, true, 10000⟩)] := by rfl
    rw [Graph.records_ofRecords, htext]
    simp [grouped, List.eraseDups_cons]
  obtain ⟨g₁, hg₁⟩ : ∃ g₁ : Generator, g₁ = { new { maxAge := .ofSeconds 4 } 10000 with
      graph := Graph.ofRecords (textRecords 10000 "a") } := ⟨_, rfl⟩
  have htext : (new { maxAge := .ofSeconds 4 } 10000).addText ⟨Source.counter, 10000⟩ "a" =
      some g₁ := hg₁ ▸ addText_of_fits (by decide)
  have hconfig₁ : g₁.config = { maxAge := .ofSeconds 4 } := by rw [hg₁]; rfl
  have hlast₁ : g₁.lastCleanup = 0 := by rw [hg₁]; rfl
  have hrecords₁ : g₁.graph.records = [(.start, ⟨⟨"a"⟩, true, 10000⟩)] := by rw [hg₁, ← hrecords]
  have S := (sound_new { maxAge := .ofSeconds 4 } 10000).addText htext
  obtain ⟨n, g, hsweep, hgraph, hconfig, hlast⟩ :=
    exists_sweep_of_fits ⟨Source.counter, 12000⟩ S.built S.count_le
  have hcleanup : Command.cleanup.run ⟨Source.counter, 12000⟩ g₁ = some (.ok (.count n), g) := by
    rw [Command.run, cleanup, hsweep]
    rfl
  refine ⟨g, ?_, hconfig.trans hconfig₁, ?_, ?_⟩
  · rw [runAll_cons_of_run (run_text_of_addText htext), runAll_cons_of_run hcleanup]
    rfl
  · rw [hlast, hlast₁, hconfig₁, if_pos (by decide)]
  · rw [hgraph, Graph.aged, hlast₁, hconfig₁, if_pos (by decide), Graph.records_retainYounger,
      hrecords₁]
    rfl

/-- Half a second after an age pass, a word from before it stays when the bound is lowered to one
second; four seconds after it, so does a word of a file. -/
theorem bounds_spec_not_due :
    ∃ g g₁ g₂, runAll [(⟨Source.counter, 10000⟩, .text "a"), (⟨Source.counter, 12000⟩, .cleanup)]
        (new { maxAge := .ofSeconds 4 } 10000) = some g ∧
      g.setMaxAge ⟨Source.counter, 12500⟩ (.ofSeconds 1) = some g₁ ∧ ¬ g₁.WithinBounds 12500 ∧
      g.load ⟨Source.counter, 16000⟩ .binary
        ⟨[0x4d, 0x4b, 0x56, 0x31, 1, 0, 1, 0, 0, 0, 0, 0, 0, 0,
          0, 0, 0, 0, 1, 0, 0x61, 1, 0, 0, 0, 0, 0, 0, 0, 0], none⟩ = some (.ok 1, g₂) ∧
      ¬ g₂.WithinBounds 16000 := by
  obtain ⟨g, hrun, hconfig, hlast, hrecords⟩ := exists_run_word_cleanup
  have hg : g.Reachable := ⟨_, _, _, hrun⟩
  obtain ⟨m, g₁, hsweep, -⟩ := exists_sweep_of_fits ⟨Source.counter, 12500⟩
    (g := { g with config := { g.config with maxAge := .ofSeconds 1 } }) hg.sound.built
    hg.sound.count_le
  have hset : g.setMaxAge ⟨Source.counter, 12500⟩ (.ofSeconds 1) = some g₁ := by
    rw [setMaxAge, hsweep]
    rfl
  have hspells : BinaryFormat.SpellsFile _ [(Prefix.start, ⟨⟨"a"⟩, true, 0⟩)] :=
    BinaryFormat.spellsFile_header (by decide) (by decide)
  have hcount : (Graph.ofRecords [(Prefix.start, ⟨⟨"a"⟩, true, 0⟩)]).count = 1 :=
    Graph.count_insertAll Graph.empty _
  obtain ⟨m₂, g₂, hsweep₂, hgraph, -⟩ := exists_sweep_of_fits ⟨Source.counter, 16000⟩
    (g := { g with graph := Graph.ofRecords [(Prefix.start, ⟨⟨"a"⟩, true, 0⟩)] })
    (Graph.built_ofRecords _) (by rw [hcount, hconfig]; decide)
  have hload : g.load ⟨Source.counter, 16000⟩ .binary ⟨_, none⟩ = _ := load_of_spells hspells none
  rw [Graph.aged, hlast, hconfig, if_neg (by decide)] at hgraph
  rw [hsweep₂, Option.map_some, hgraph, hcount] at hload
  refine ⟨g, g₁, g₂, hrun, hset, ?_, hload, ?_⟩
  · rw [((bounds_spec hg ⟨Source.counter, 12500⟩).2 _ _ hset (by decide)).2, Due, hlast, hrecords]
    simp only [AllYoung, List.forall_mem_singleton]
    decide
  · intro hbounds
    obtain ⟨rs, hread, -, -, -, hconverse, -⟩ :=
      (bounds_spec hg ⟨Source.counter, 16000⟩).1 _ _ _ _ hload (by rw [hconfig]; decide)
    obtain rfl : rs = [(Prefix.start, ⟨⟨"a"⟩, true, 0⟩)] :=
      Except.ok.inj (hread.symm.trans (BinaryFormat.read_eq_ok_iff.2 hspells))
    have hcase := hconverse (by rw [hconfig]; decide) hbounds
    rw [Due, hlast, hconfig] at hcase
    simp only [AllYoung, List.forall_mem_singleton] at hcase
    exact absurd hcase (by decide)

end Generator

end Chain

end ChainScript
