import ChainScript.Proofs.Generator.Alike
import ChainScript.Proofs.Binary.RoundTrip
import ChainScript.Proofs.Graph.Rebuilt

/-!
# Reloaded generators replay

While no record is removed, a graph is the graph of the records that were introduced.  Every
removal makes it smaller than that for good, so the record count tells whether there was one.  A
graph without removals is made again from its file, the order of its starts included.  Then
whatever is asked of the original and of the reloaded generator from one seed, the same random
words are drawn and the answers are the same.

## Main definitions

* `Graph.LeftOf` — what is left of the graph of some records.
* `Generator.Unevicted` — nothing was removed since the graph was last replaced.
* `DrawsAlike` — computations that draw the same words from the same seed.
* `Command.Asks`, `Generator.answers` — requests that change nothing but the random state, and
  the answers to a list of requests.

## Main results

* `Generator.identical_of_sweep` — a sweep that removes nothing changes nothing.
* `Graph.lasting_leftOf` — what is left after insertions and sweeps.
* `Generator.replay_spec` — a reloaded generator answers like the original.
-/

namespace ChainScript.Chain

open Text

/-! ### What removals leave -/

namespace Generator

variable {env : Env} {g g' : Generator} {n : Nat}

theorem count_sweep_le (B : g.graph.Built) (h : g.sweep env = some (n, g')) :
    g'.graph.count ≤ g.graph.count := by
  have hless := Multiset.card_le_card (content_sweep_le B h)
  rwa [B.consistent.card_content, (sound_of_sweep B h).built.consistent.card_content] at hless

/-- A sweep that removes nothing changes nothing. -/
theorem identical_of_sweep (B : g.graph.Built) (h : g.sweep env = some (n, g'))
    (hcount : g'.graph.count = g.graph.count) : g'.graph.Identical g.graph := by
  obtain ⟨⟨c, hdrop⟩, -⟩ := of_sweep h
  have haged := B.aged g.config env.now g.lastCleanup
  have hless := B.consistent.count_aged_le g.config env.now g.lastCleanup
  have hleft := (Graph.dropRandom_spec haged (Nat.sub_le ..) hdrop).2
  -- Both passes only take away, so neither takes anything.
  have hsame : (g.graph.aged g.config env.now g.lastCleanup).count = g.graph.count := by omega
  have hnone : (g.graph.aged g.config env.now g.lastCleanup).count - g.config.maxSize = 0 := by
    omega
  rw [hnone, Graph.dropRandom] at hdrop
  obtain ⟨hgraph, -⟩ := Prod.mk.inj (Option.some.inj hdrop)
  rw [← hgraph]
  rw [Graph.aged] at hsame ⊢
  split at hsame
  · next hdue =>
    rw [if_pos hdue]
    exact B.consistent.identical_retainYounger hsame
  · next hdue =>
    rw [if_neg hdue]
    exact .refl _

end Generator

/-- The graph is what removals have left of the graph of the records, which it still is where
there was none. -/
structure Graph.LeftOf (rs : List Record) (g : Graph) : Prop where
  built : g.Built
  count_le : g.count ≤ rs.length
  identical : g.count = rs.length → g.Identical (ofRecords rs)

theorem Graph.lasting_leftOf : Lasting Graph.LeftOf where
  empty := ⟨.empty, le_rfl, fun _ => .refl _⟩
  insert := by
    rintro rs g r ⟨B, hle, hsame⟩
    have hcount := g.count_insert r.1 r.2
    have hlength : (rs ++ [r]).length = rs.length + 1 := List.length_append
    refine ⟨B.insert r.1 r.2, by omega, ?_⟩
    intro h
    have hall : ofRecords (rs ++ [r]) = (ofRecords rs).insert r.1 r.2 :=
      insertAll_append empty rs [r]
    rw [hall]
    exact (hsame (by omega)).insert r.1 r.2
  sweep := by
    rintro env rs n g g' ⟨B, hle, hsame⟩ hsweep
    have hless := Generator.count_sweep_le B hsweep
    refine ⟨(Generator.sound_of_sweep B hsweep).built, hless.trans hle, ?_⟩
    intro h
    exact (Generator.identical_of_sweep B hsweep (by omega)).trans (hsame (by omega))

/-- The run has removed no record since the graph was last replaced: as many are held as were
introduced. -/
def Generator.Unevicted (steps : List (Env × Command)) (g : Generator) : Prop :=
  g.graph.count = (introducedBy steps []).length

/-- Without removals the records that were introduced make the graph. -/
theorem Generator.Unevicted.identical {steps : List (Env × Command)} {config : Config}
    {now : Instant} {g : Generator} (U : g.Unevicted steps)
    (h : runAll steps (new config now) = some g) :
    g.graph.Identical (Graph.ofRecords (introducedBy steps [])) :=
  (Graph.lasting_leftOf.runAll (g := new config now) Graph.lasting_leftOf.empty h).identical U

/-! ### Draws from one seed -/

/-- From cursors with one state word both computations draw for ever, or both come to one result
and leave one state word. -/
def DrawsAlike {α : Type} (d e : Draw α) : Prop :=
  ∀ c c' : Cursor, c.word = c'.word →
    Option.Rel (fun a b : α × Cursor => a.1 = b.1 ∧ a.2.word = b.2.word) (d c) (e c')

section DrawsAlike

variable {α β : Type}

theorem drawsAlike_pure (a : α) : DrawsAlike (pure a) (pure a) :=
  fun _ _ hc => .some ⟨rfl, hc⟩

theorem DrawsAlike.bind {d e : Draw α} {k l : α → Draw β} (h : DrawsAlike d e)
    (hk : ∀ a, DrawsAlike (k a) (l a)) : DrawsAlike (d >>= k) (e >>= l) := by
  intro c c' hc
  refine rel_bind (h c c' hc) ?_
  rintro ⟨a, c₁⟩ ⟨_, c₁'⟩ ⟨rfl, hword⟩
  exact hk a c₁ c₁' hword

theorem drawsAlike_draw (source : Source) : DrawsAlike source.draw source.draw := by
  intro c c' hc
  rw [Source.draw, Source.draw, hc]
  exact .some ⟨rfl, rfl⟩

theorem drawsAlike_belowWithin (source : Source) (n limit : Nat) :
    DrawsAlike (source.belowWithin n limit) (source.belowWithin n limit) := by
  induction limit with
  | zero => exact fun _ _ _ => .none
  | succ limit ih =>
      rw [Source.belowWithin]
      refine (drawsAlike_draw source).bind fun word => ?_
      cases Source.accept? n word with
      | none => exact ih
      | some i => exact drawsAlike_pure i

theorem drawsAlike_below (source : Source) (n : Nat) :
    DrawsAlike (source.below n) (source.below n) := by
  rw [Source.below]
  split
  · exact drawsAlike_pure 0
  · exact drawsAlike_belowWithin source n _

theorem drawsAlike_pick (source : Source) (items : Array α) :
    DrawsAlike (source.pick items) (source.pick items) := by
  rw [Source.pick]
  split
  · exact drawsAlike_pure none
  · exact (drawsAlike_below source _).bind fun i => drawsAlike_pure _

end DrawsAlike

/-! ### Walks over identical graphs -/

namespace Graph.Identical

variable {g h : Graph}

theorem forward (I : g.Identical h) (source : Source) (least room : Nat) (p : Prefix)
    (out : Array Word) :
    DrawsAlike (Chain.forward source g least room p out)
      (Chain.forward source h least room p out) := by
  induction room generalizing p out with
  | zero => exact drawsAlike_pure out
  | succ room ih =>
      rw [Chain.forward, Chain.forward, I.successors_eq]
      refine (drawsAlike_pick source _).bind fun next => ?_
      cases next with
      | none => exact drawsAlike_pure out
      | some next =>
          dsimp only
          split
          · exact drawsAlike_pure _
          · exact ih _ _

theorem predecessors_eq (I : g.Identical h) (text : List Word) :
    predecessors g text = predecessors h text := by
  match text with
  | [] => rfl
  | [_] => rw [predecessors, predecessors, I.records_eq]
  | _ :: _ :: _ => rw [predecessors, predecessors, I.records_eq]

theorem backward (I : g.Identical h) (source : Source) (room : Nat) (text : List Word) :
    DrawsAlike (Chain.backward source g room text) (Chain.backward source h room text) := by
  induction room generalizing text with
  | zero => exact drawsAlike_pure text
  | succ room ih =>
      rw [Chain.backward, Chain.backward, I.predecessors_eq]
      refine (drawsAlike_pick source _).bind fun word => ?_
      cases word with
      | none => exact drawsAlike_pure text
      | some word =>
          dsimp only
          split
          · exact drawsAlike_pure text
          · exact ih _

theorem resumePrefix (I : g.Identical h) (source : Source) (text : List Word) :
    DrawsAlike (Chain.resumePrefix source g text) (Chain.resumePrefix source h text) := by
  match text with
  | [] => exact drawsAlike_pure _
  | [only] =>
      rw [Chain.resumePrefix, Chain.resumePrefix]
      simp only [I.successors_eq, I.records_eq]
      split
      · exact (drawsAlike_pick source _).bind fun p => drawsAlike_pure _
      · exact drawsAlike_pure _
  | _ :: _ :: _ => exact drawsAlike_pure _

theorem walk (I : g.Identical h) (source : Source) (least most : Nat) :
    DrawsAlike (Generator.walk source g least most) (Generator.walk source h least most) := by
  rw [Generator.walk, Generator.walk, Roster.size, Roster.size, I.starts]
  refine (drawsAlike_below source _).bind fun i => ?_
  cases h.starts.members[i]? with
  | none => exact drawsAlike_pure _
  | some start => exact I.forward source least _ start _

theorem walkFrom (I : g.Identical h) (source : Source) (prompt : List Word) (least most : Nat) :
    DrawsAlike (Generator.walkFrom source g prompt least most)
      (Generator.walkFrom source h prompt least most) := by
  rw [Generator.walkFrom, Generator.walkFrom]
  refine (I.backward source _ prompt).bind fun text => ?_
  refine (I.resumePrefix source text).bind fun p => ?_
  exact I.forward source least _ p _

end Graph.Identical

/-! ### Requests -/

/-- The request asks for a text, the statistics or a file.  It changes the random state at most. -/
def Command.Asks : Command → Prop
  | generate _ _ | generateFrom _ _ _ | stats | store _ _ => True
  | _ => False

namespace Generator

/-- The answers to requests in order, each in its own surroundings; `none` where one of them draws
for ever. -/
def answers : List (Env × Command) → Generator → Option (List (Except ChainError Answer))
  | [], _ => some []
  | (env, command) :: rest, g => do
      let (answer, g) ← command.run env g
      return answer :: (← answers rest g)

/-- The generators have identical graphs and one random state. -/
structure Twins (g h : Generator) : Prop where
  graph : g.graph.Identical h.graph
  word : g.cursor.word = h.cursor.word

namespace Twins

variable {g h : Generator} {env : Env}

theorem drawing {α : Type} {d e : Draw α} (T : g.Twins h) (hd : DrawsAlike d e) :
    Option.Rel (fun a b : α × Generator => a.1 = b.1 ∧ a.2.Twins b.2) (g.drawing d)
      (h.drawing e) := by
  rw [Generator.drawing, Generator.drawing]
  refine rel_bind (hd g.cursor h.cursor T.word) ?_
  rintro ⟨a, c⟩ ⟨_, c'⟩ ⟨rfl, hword⟩
  exact .some ⟨rfl, T.graph, hword⟩

theorem generate (T : g.Twins h) (least most : Nat) :
    Option.Rel (fun a b : List String × Generator => a.1 = b.1 ∧ a.2.Twins b.2)
      (g.generate env least most) (h.generate env least most) := by
  rw [Generator.generate, Generator.generate]
  refine rel_bind (T.drawing (T.graph.walk env.source least most)) ?_
  rintro ⟨out, g'⟩ ⟨_, h'⟩ ⟨rfl, T'⟩
  exact .some ⟨rfl, T'⟩

theorem generateFrom (T : g.Twins h) (prompt : String) (least most : Nat) :
    Option.Rel (fun a b : List String × Generator => a.1 = b.1 ∧ a.2.Twins b.2)
      (g.generateFrom env prompt least most) (h.generateFrom env prompt least most) := by
  rw [Generator.generateFrom, Generator.generateFrom]
  split
  · exact T.generate least most
  · refine rel_bind (T.drawing (T.graph.walkFrom env.source _ least most)) ?_
    rintro ⟨out, g'⟩ ⟨_, h'⟩ ⟨rfl, T'⟩
    exact .some ⟨rfl, T'⟩

/-- Twins answer alike and stay twins. -/
theorem run (T : g.Twins h) {command : Command} (hasks : command.Asks) :
    Option.Rel (fun a b : Except ChainError Answer × Generator => a.1 = b.1 ∧ a.2.Twins b.2)
      (command.run env g) (command.run env h) := by
  cases command with
  | generate least most =>
      refine rel_bind (T.generate least most) ?_
      rintro ⟨ws, g'⟩ ⟨_, h'⟩ ⟨rfl, T'⟩
      exact .some ⟨rfl, T'⟩
  | generateFrom prompt least most =>
      refine rel_bind (T.generateFrom prompt least most) ?_
      rintro ⟨ws, g'⟩ ⟨_, h'⟩ ⟨rfl, T'⟩
      exact .some ⟨rfl, T'⟩
  | stats => exact .some ⟨by rw [T.graph.stats_eq], T⟩
  | store format sink => exact .some ⟨by rw [T.graph.store_eq], T⟩
  | _ => exact absurd hasks id

theorem answers_eq (T : g.Twins h) {asked : List (Env × Command)}
    (hasks : ∀ step ∈ asked, step.2.Asks) : answers asked g = answers asked h := by
  induction asked generalizing g h with
  | nil => rfl
  | cons step rest ih =>
      obtain ⟨hfirst, hrest⟩ := List.forall_mem_cons.1 hasks
      have hrun : Option.Rel _ (step.2.run step.1 g) (step.2.run step.1 h) := T.run hfirst
      rw [answers, answers]
      generalize step.2.run step.1 g = x at hrun ⊢
      generalize step.2.run step.1 h = y at hrun ⊢
      cases hrun with
      | none => rfl
      | @some a b hab =>
          obtain ⟨hanswer, T'⟩ := hab
          simp only [Option.bind_eq_bind, Option.bind_some, hanswer, ih T' hrest]

end Twins

end Generator

/-! ### The reloaded generator -/

/-- The words of a graph are those of the records that it is made of. -/
theorem BinaryFormat.AllFit.ofRecords {rs : List Record} (h : BinaryFormat.AllFit rs) :
    BinaryFormat.AllFit (Graph.ofRecords rs).records := by
  rw [Graph.records_ofRecords]
  intro r hr
  obtain ⟨⟨a, ha, hprefix⟩, b, hb, hsuffix⟩ := mem_grouped hr
  have hfirst := h a ha
  have hsecond := h b hb
  simp only [BinaryFormat.wordsOf, List.all_cons, List.all_nil, Bool.and_true, Bool.and_eq_true,
    hprefix, hsuffix] at hfirst hsecond ⊢
  exact ⟨hfirst.1, hfirst.2.1, hsecond.2.2⟩

namespace Generator

variable {g : Generator}

theorem failure?_of_store {format : Format} {sink : Sink} {n : Nat}
    (h : (g.graph.store format sink).outcome = .ok n) :
    sink.failure? (g.graph.render format).bytes = none := by
  simp only [Graph.store] at h
  cases hfailure : sink.failure? (g.graph.render format).bytes with
  | none => rfl
  | some reason =>
      rw [hfailure] at h
      cases h

/-- **A reloaded generator replays the original where nothing was evicted.**  If a generator has
removed no record since its graph was last replaced, and its binary file is written and loaded
without one, the loaded graph is identical, the order of its starts included.  From one seed, and
with the same sources, all texts, statistics and files asked of either are then the same.  A load
removes nothing just where it answers the number of the stored records, and it does so where they
fit and are young.  A record count is a 64-bit word. -/
theorem replay_spec {steps : List (Env × Command)} {config : Config} {now : Instant}
    (hrun : runAll steps (new config now) = some g) (hkept : g.Unevicted steps)
    (hcount : g.graph.count < 2 ^ 64) {sink : Sink} {n : Nat}
    (hstore : (g.graph.store .binary sink).outcome = .ok n) :
    (∀ (env : Env) (t : Generator) (failure : Option ReadFailure),
      g.graph.count ≤ t.config.maxSize →
      (¬ t.lastCleanup < Instant.back env.now t.config.maxAge ∨
        ∀ r ∈ g.graph.records, Instant.back env.now t.config.maxAge ≤ r.2.createdAt) →
      ∃ t', t.load env .binary ⟨(g.graph.store .binary sink).taken, failure⟩ =
        some (.ok g.graph.count, t')) ∧
    ∀ (env : Env) (t t' : Generator) (failure : Option ReadFailure),
      t.load env .binary ⟨(g.graph.store .binary sink).taken, failure⟩ =
        some (.ok g.graph.count, t') →
      t'.graph.Identical g.graph ∧
      ∀ (seed : UInt64) (asked : List (Env × Command)), (∀ step ∈ asked, step.2.Asks) →
        answers asked (t'.setSeed seed) = answers asked (g.setSeed seed) := by
  have hg : g.Reachable := ⟨config, now, steps, hrun⟩
  have C := hg.sound.built.consistent
  have hsink := failure?_of_store hstore
  refine ⟨?_, ?_⟩
  · intro env t failure hroom hage
    obtain ⟨t', hload, -⟩ :=
      (binary_round_trip hg hcount hsink).2 ⟨n, hstore⟩ env t failure hroom hage
    exact ⟨t', hload⟩
  · intro env t t' failure hload
    have hfit := (Graph.store_binary_ok_iff hsink).1 ⟨n, hstore⟩
    have hspells := BinaryFormat.spellsFile_header (C.length_records ▸ hcount) hfit
    rw [C.length_records] at hspells
    rw [Graph.store_binary_of_fits hfit hsink, load_of_spells hspells] at hload
    obtain ⟨⟨m, swept⟩, hsweep, hswept⟩ := Option.map_eq_some_iff.1 hload
    obtain ⟨hanswer, rfl⟩ := Prod.mk.inj hswept
    have hsame : swept.graph.count = (Graph.ofRecords g.graph.records).count := by
      rw [Graph.count_ofRecords, C.length_records]
      exact Except.ok.inj hanswer
    have hloaded := identical_of_sweep (g := { t with graph := Graph.ofRecords g.graph.records })
      (Graph.built_ofRecords g.graph.records) hsweep hsame
    have O := (hkept.identical hrun).orderly (Graph.orderly_ofRecords _)
    have I := hloaded.trans (C.identical_ofRecords O)
    refine ⟨I, ?_⟩
    intro seed asked hasks
    have T : (swept.setSeed seed).Twins (g.setSeed seed) := ⟨I, rfl⟩
    exact T.answers_eq hasks

/-- Two lines, of which the second continues the bags of the first. -/
theorem replay_spec_two_lines :
    ∃ g t', runAll [(⟨Source.counter, 0⟩, .text "I am\ni AM")] (new {} 0) = some g ∧
      (new {} 0).load ⟨Source.counter, 1⟩ .binary
        ⟨(g.graph.store .binary .unlimited).taken, none⟩ = some (.ok 4, t') ∧
      t'.graph.Identical g.graph ∧
      ∀ seed, answers [(⟨.counter, 1⟩, .generate 2 3), (⟨.counter, 1⟩, .stats)]
          (t'.setSeed seed) =
        answers [(⟨.counter, 1⟩, .generate 2 3), (⟨.counter, 1⟩, .stats)] (g.setSeed seed) := by
  have htext : (new {} 0).addText ⟨Source.counter, 0⟩ "I am\ni AM" = some
      { new {} 0 with graph := Graph.ofRecords (textRecords 0 "I am\ni AM") } :=
    addText_of_fits (by decide)
  have hrun : runAll [(⟨Source.counter, 0⟩, .text "I am\ni AM")] (new {} 0) = some
      { new {} 0 with graph := Graph.ofRecords (textRecords 0 "I am\ni AM") } := by
    rw [runAll_cons_of_run (run_text_of_addText htext)]
    rfl
  have hcount : (Graph.ofRecords (textRecords 0 "I am\ni AM")).count = 4 := by
    rw [Graph.count_ofRecords]
    decide
  have hfits : BinaryFormat.AllFit (Graph.ofRecords (textRecords 0 "I am\ni AM")).records :=
    BinaryFormat.AllFit.ofRecords (by decide)
  generalize Graph.ofRecords (textRecords 0 "I am\ni AM") = graph at hrun hcount hfits
  have hsink : Sink.unlimited.failure? (graph.render .binary).bytes = none := rfl
  obtain ⟨n, hstore⟩ := (Graph.store_binary_ok_iff hsink).2 hfits
  have hkept : Unevicted [(⟨Source.counter, 0⟩, .text "I am\ni AM")]
      { new {} 0 with graph := graph } := by
    rw [Unevicted, hcount]
    decide
  have hfew : graph.count < 2 ^ 64 := by
    rw [hcount]
    decide
  obtain ⟨hexists, hreplay⟩ :=
    replay_spec (g := { new {} 0 with graph := graph }) hrun hkept hfew hstore
  obtain ⟨t', hload⟩ := hexists ⟨Source.counter, 1⟩ (new {} 0) none
    (by rw [hcount]; decide) (.inl (by decide))
  obtain ⟨I, hanswers⟩ := hreplay _ _ _ _ hload
  rw [hcount] at hload
  refine ⟨_, t', hrun, hload, I, fun seed => hanswers seed _ ?_⟩
  exact List.forall_mem_cons.2 ⟨trivial, List.forall_mem_singleton.2 trivial⟩

end Generator

end ChainScript.Chain
