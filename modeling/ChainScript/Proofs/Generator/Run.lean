import ChainScript.Chain.Command
import ChainScript.Proofs.Graph.Consistent
import ChainScript.Proofs.Random.Selection

/-!
# Runs of a generator

A graph is built when it comes from the empty graph by insertions, removals and age passes.
Built graphs are consistent.  Every operation of a generator leaves a built graph that fits the
size bound, so every run of commands does.

## Main definitions

* `Graph.Built` — the graphs that the elementary changes reach.
* `Generator.Sound` — the graph is built and fits the size bound.
* `Generator.Reachable` — the generators that a run from a new one reaches.
-/

namespace ChainScript

namespace Chain

/-! ### Elementary changes of graphs -/

/-- The graphs that insertions, removals and age passes make from the empty graph. -/
inductive Graph.Built : Graph → Prop
  | empty : Built empty
  | insert {g : Graph} (p : Prefix) (s : Suffix) : Built g → Built (g.insert p s)
  | removeNth {g g' : Graph} {k : Nat} {s : Suffix} :
      Built g → g.removeNth k = some (s, g') → Built g'
  | retainYounger {g : Graph} (cutoff : Instant) : Built g → Built (g.retainYounger cutoff)

namespace Graph

theorem Built.consistent {g : Graph} (B : g.Built) : g.Consistent := by
  induction B with
  | empty => exact consistent_empty
  | insert p s _ ih => exact ih.insert p s
  | removeNth _ h ih => exact ih.removeNth h
  | retainYounger cutoff _ ih => exact ih.retainYounger cutoff

/-- The graph with the given records added in order. -/
def insertAll (g : Graph) (rs : List Record) : Graph := rs.foldl (fun g r => g.insert r.1 r.2) g

theorem insertAll_append (g : Graph) (rs rs' : List Record) :
    g.insertAll (rs ++ rs') = (g.insertAll rs).insertAll rs' :=
  List.foldl_append

theorem count_insertAll (g : Graph) (rs : List Record) :
    (g.insertAll rs).count = g.count + rs.length := by
  induction rs generalizing g with
  | nil => rfl
  | cons r rs ih =>
      have h := ih (g.insert r.1 r.2)
      rw [count_insert, Nat.add_assoc, Nat.add_comm 1] at h
      exact h

theorem Built.insertAll {g : Graph} (B : g.Built) (rs : List Record) : (g.insertAll rs).Built := by
  induction rs generalizing g with
  | nil => exact B
  | cons r rs ih => exact ih (B.insert r.1 r.2)

theorem built_ofRecords (rs : List Record) : (ofRecords rs).Built := Built.empty.insertAll rs

theorem count_ofRecords (rs : List Record) : (ofRecords rs).count = rs.length :=
  (count_insertAll empty rs).trans (Nat.zero_add _)

/-- Random drops down to a bound that holds already draw nothing. -/
theorem dropRandom_of_count_le {g : Graph} {most : Nat} (h : g.count ≤ most) (source : Source)
    (c : Cursor) : g.dropRandom source (g.count - most) c = some (g, c) := by
  rw [Nat.sub_eq_zero_of_le h]
  rfl

/-- Random drops take away as many records as they are told to. -/
theorem dropRandom_spec {source : Source} {n : Nat} {g g' : Graph} {c c' : Cursor}
    (B : g.Built) (hn : n ≤ g.count) (h : g.dropRandom source n c = some (g', c')) :
    g'.Built ∧ g'.count = g.count - n := by
  induction n generalizing g c with
  | zero =>
      obtain ⟨rfl, -⟩ : g = g' ∧ c = c' := by
        simpa using (Option.some.inj h : (g, c) = (g', c'))
      exact ⟨B, rfl⟩
  | succ n ih =>
      rw [dropRandom] at h
      obtain ⟨⟨k, c₁⟩, hk, h⟩ := Option.bind_eq_some_iff.1 h
      obtain ⟨i, offset, p, bag, s, g₁, hrun, -, -, -, R⟩ :=
        removeNth_spec B.consistent (Source.below_lt (by omega) hk)
      have hcount := R.count_eq
      simp only [hrun] at h
      obtain ⟨B', hcount'⟩ := ih (B.removeNth hrun) (by omega) h
      exact ⟨B', by omega⟩

end Graph

/-! ### Operations of generators -/

/-- The graph after the age pass that a sweep makes or leaves out. -/
def Graph.aged (g : Graph) (config : Config) (now lastCleanup : Instant) : Graph :=
  if lastCleanup < Instant.back now config.maxAge then
    g.retainYounger (Instant.back now config.maxAge)
  else g

theorem Graph.Consistent.aged {g : Graph} (C : g.Consistent) (config : Config)
    (now lastCleanup : Instant) : (g.aged config now lastCleanup).Consistent := by
  rw [Graph.aged]
  split
  · exact C.retainYounger _
  · exact C

theorem Graph.Built.aged {g : Graph} (B : g.Built) (config : Config) (now lastCleanup : Instant) :
    (g.aged config now lastCleanup).Built := by
  rw [Graph.aged]
  split
  · exact B.retainYounger _
  · exact B

theorem sweep_apply (source : Source) (config : Config) (now lastCleanup : Instant) (g : Graph)
    (c : Cursor) :
    sweep source config now lastCleanup g c =
      ((g.aged config now lastCleanup).dropRandom source
        ((g.aged config now lastCleanup).count - config.maxSize) c).bind fun left =>
          some (⟨left.1,
            if lastCleanup < Instant.back now config.maxAge then now else lastCleanup,
            g.count - (g.aged config now lastCleanup).count,
            (g.aged config now lastCleanup).count - left.1.count⟩, left.2) :=
  rfl

namespace Generator

/-- The graph is built and fits the size bound. -/
structure Sound (g : Generator) : Prop where
  built : g.graph.Built
  count_le : g.graph.count ≤ g.config.maxSize

variable {env : Env} {g g' : Generator}

theorem sound_new (config : Config) (now : Instant) : (new config now).Sound :=
  ⟨.empty, Nat.zero_le _⟩

/-- A sweep returns where its random drops do. -/
theorem sweep_eq {r : Graph} {c : Cursor}
    (h : (g.graph.aged g.config env.now g.lastCleanup).dropRandom env.source
      ((g.graph.aged g.config env.now g.lastCleanup).count - g.config.maxSize) g.cursor =
        some (r, c)) :
    g.sweep env = some
      (g.graph.count - (g.graph.aged g.config env.now g.lastCleanup).count +
        ((g.graph.aged g.config env.now g.lastCleanup).count - r.count),
      { g with
        graph := r
        lastCleanup :=
          if g.lastCleanup < Instant.back env.now g.config.maxAge then env.now
          else g.lastCleanup
        cursor := c }) := by
  rw [Generator.sweep, sweep_apply, h]
  rfl

/-- A sweep that returns leaves what its random drops leave. -/
theorem of_sweep {n : Nat} (h : g.sweep env = some (n, g')) :
    (∃ c, (g.graph.aged g.config env.now g.lastCleanup).dropRandom env.source
      ((g.graph.aged g.config env.now g.lastCleanup).count - g.config.maxSize) g.cursor =
        some (g'.graph, c)) ∧
    g'.config = g.config ∧
    g'.lastCleanup =
      if g.lastCleanup < Instant.back env.now g.config.maxAge then env.now else g.lastCleanup := by
  obtain ⟨⟨r, c⟩, hr, h⟩ := Option.bind_eq_some_iff.1 h
  obtain ⟨-, rfl⟩ := Prod.mk.inj (Option.some.inj h)
  rw [sweep_apply] at hr
  obtain ⟨⟨left, c'⟩, hdrop, hr⟩ := Option.bind_eq_some_iff.1 hr
  obtain ⟨rfl, -⟩ := Prod.mk.inj (Option.some.inj hr)
  exact ⟨⟨c', hdrop⟩, rfl, rfl⟩

/-- A sweep makes any built graph fit. -/
theorem sound_of_sweep {n : Nat} (B : g.graph.Built) (h : g.sweep env = some (n, g')) :
    g'.Sound := by
  obtain ⟨⟨c, hdrop⟩, hconfig, -⟩ := of_sweep h
  obtain ⟨hbuilt, hcount⟩ :=
    Graph.dropRandom_spec (B.aged g.config env.now g.lastCleanup) (Nat.sub_le _ _) hdrop
  exact ⟨hbuilt, by rw [hconfig]; omega⟩

theorem Sound.record (S : g.Sound) {p : Prefix} {s : Suffix} (h : g.record env p s = some g') :
    g'.Sound := by
  rw [Generator.record] at h
  split at h
  · obtain ⟨⟨n, g₁⟩, hsweep, rfl⟩ := Option.map_eq_some_iff.1 h
    exact sound_of_sweep (S.built.insert p s) hsweep
  · next hfits =>
    obtain rfl := Option.some.inj h
    exact ⟨S.built.insert p s, by simpa using hfits⟩

/-! ### Learning, record by record -/

section Learning

variable {P : Generator → Prop}
  (hrecord : ∀ {g g' : Generator} {p : Prefix} {s : Suffix}, s.createdAt = env.now → P g →
    g.record env p s = some g' → P g')
include hrecord

/-- What every record keeps, every line keeps. -/
theorem learnWords_induction {p : Prefix} {ws : List String} (hg : P g)
    (h : g.learnWords env p ws = some g') : P g' := by
  induction ws generalizing p g with
  | nil => exact Option.some.inj h ▸ hg
  | cons w ws ih =>
      obtain ⟨g₁, hfirst, h⟩ := Option.bind_eq_some_iff.1 h
      exact ih (hrecord rfl hg hfirst) h

theorem addText_induction {text : String} (hg : P g) (h : g.addText env text = some g') :
    P g' := by
  rw [addText] at h
  generalize Text.lines text = ls at h
  induction ls generalizing g with
  | nil => exact Option.some.inj h ▸ hg
  | cons l ls ih =>
      obtain ⟨g₁, hline, h⟩ := Option.bind_eq_some_iff.1 h
      exact ih (learnWords_induction hrecord hg hline) h

theorem learnRaw_induction {endsOpen : Bool} {ls : List (List UInt8)}
    {r : Except ChainError Unit} (hg : P g) (h : g.learnRaw env endsOpen ls = some (r, g')) :
    P g' := by
  induction ls generalizing g with
  | nil =>
      obtain ⟨-, rfl⟩ := Prod.mk.inj (Option.some.inj h)
      exact hg
  | cons l ls ih =>
      rw [learnRaw_cons] at h
      split at h
      · obtain ⟨-, rfl⟩ := Prod.mk.inj (Option.some.inj h)
        exact hg
      · obtain ⟨g₁, hline, h⟩ := Option.bind_eq_some_iff.1 h
        exact ih (learnWords_induction hrecord hg hline) h

omit hrecord in
/-- A stream leaves the generator as its lines do. -/
theorem exists_learnRaw_of_addReader {input : Input} {r : Except ChainError Unit}
    (h : g.addReader env input = some (r, g')) :
    ∃ r', g.learnRaw env input.endsOpen input.rawLines = some (r', g') := by
  obtain ⟨⟨r₁, g₁⟩, hraw, h⟩ := Option.bind_eq_some_iff.1 h
  have hsame : g₁ = g' := by
    cases r₁ <;> cases hfail : input.failure <;> rw [hfail] at h <;>
      exact (Prod.mk.inj (Option.some.inj h)).2
  exact ⟨r₁, hsame ▸ hraw⟩

theorem addReader_induction {input : Input} {r : Except ChainError Unit} (hg : P g)
    (h : g.addReader env input = some (r, g')) : P g' := by
  obtain ⟨r', hraw⟩ := exists_learnRaw_of_addReader h
  exact learnRaw_induction hrecord hg hraw

end Learning

theorem Sound.addText (S : g.Sound) {text : String} (h : g.addText env text = some g') :
    g'.Sound :=
  addText_induction (fun _ S h => S.record h) S h

theorem Sound.addReader (S : g.Sound) {input : Input} {r : Except ChainError Unit}
    (h : g.addReader env input = some (r, g')) : g'.Sound :=
  addReader_induction (fun _ S h => S.record h) S h

/-- A load sweeps the graph of the records of the file, or fails and changes nothing. -/
theorem of_load {format : Format} {input : Input} {r : Except ChainError Nat}
    (h : g.load env format input = some (r, g')) :
    (∃ rs n, readRecords format env.now input = .ok rs ∧
      { g with graph := Graph.ofRecords rs }.sweep env = some (n, g') ∧
      r = .ok g'.graph.count) ∨
    ∃ e, readRecords format env.now input = .error e ∧ r = .error e ∧ g' = g := by
  rw [Generator.load, Graph.load] at h
  cases hread : readRecords format env.now input with
  | error e =>
      rw [hread] at h
      obtain ⟨rfl, rfl⟩ := Prod.mk.inj (Option.some.inj h)
      exact .inr ⟨e, rfl, rfl, rfl⟩
  | ok rs =>
      rw [hread] at h
      obtain ⟨⟨n, g₁⟩, hsweep, h⟩ := Option.bind_eq_some_iff.1 h
      obtain ⟨rfl, rfl⟩ := Prod.mk.inj (Option.some.inj h)
      exact .inl ⟨rs, n, rfl, hsweep, rfl⟩

theorem Sound.load (S : g.Sound) {format : Format} {input : Input} {r : Except ChainError Nat}
    (h : g.load env format input = some (r, g')) : g'.Sound := by
  obtain ⟨rs, n, -, hsweep, -⟩ | ⟨e, -, -, rfl⟩ := of_load h
  · exact sound_of_sweep (Graph.built_ofRecords rs) hsweep
  · exact S

/-! ### Making text -/

/-- Making text moves the cursor only. -/
theorem exists_cursor_of_drawing {α : Type} {d : Draw α} {a : α} (h : g.drawing d = some (a, g')) :
    ∃ c, g' = { g with cursor := c } := by
  obtain ⟨⟨a', c⟩, -, h⟩ := Option.bind_eq_some_iff.1 h
  obtain ⟨-, rfl⟩ := Prod.mk.inj (Option.some.inj h)
  exact ⟨c, rfl⟩

theorem exists_cursor_of_generate {least most : Nat} {ws : List String}
    (h : g.generate env least most = some (ws, g')) : ∃ c, g' = { g with cursor := c } := by
  obtain ⟨⟨out, g₁⟩, hdraw, h⟩ := Option.bind_eq_some_iff.1 h
  obtain ⟨-, rfl⟩ := Prod.mk.inj (Option.some.inj h)
  exact exists_cursor_of_drawing hdraw

theorem exists_cursor_of_generateFrom {prompt : String} {least most : Nat} {ws : List String}
    (h : g.generateFrom env prompt least most = some (ws, g')) :
    ∃ c, g' = { g with cursor := c } := by
  rw [generateFrom] at h
  split at h
  · exact exists_cursor_of_generate h
  · obtain ⟨⟨out, g₁⟩, hdraw, h⟩ := Option.bind_eq_some_iff.1 h
    obtain ⟨-, rfl⟩ := Prod.mk.inj (Option.some.inj h)
    exact exists_cursor_of_drawing hdraw

end Generator

/-! ### Texts that fit -/

/-- The records of the words that follow a prefix on a line. -/
def lineRecords (now : Instant) : Prefix → List String → List Record
  | _, [] => []
  | p, w :: rest =>
      (p, ⟨⟨w⟩, rest.isEmpty || Text.endsSentence w, now⟩) :: lineRecords now (p.shift ⟨w⟩) rest

/-- The records of a text, line by line. -/
def textRecords (now : Instant) (text : String) : List Record :=
  (Text.lines text).flatMap fun line => lineRecords now Prefix.start (Text.words line)

namespace Generator

variable {env : Env} {g : Generator}

theorem record_of_fits {p : Prefix} {s : Suffix} (h : g.graph.count < g.config.maxSize) :
    g.record env p s = some { g with graph := g.graph.insert p s } := by
  rw [record, if_neg]
  simp only [Graph.count_insert]
  omega

/-- Words that leave the size bound alone are learned without a sweep. -/
theorem learnWords_of_fits {p : Prefix} {ws : List String}
    (h : g.graph.count + (lineRecords env.now p ws).length ≤ g.config.maxSize) :
    g.learnWords env p ws =
      some { g with graph := g.graph.insertAll (lineRecords env.now p ws) } := by
  induction ws generalizing p g with
  | nil => rfl
  | cons w ws ih =>
      rw [lineRecords, List.length_cons] at h
      rw [learnWords, record_of_fits (by omega)]
      exact ih (by simp only [Graph.count_insert]; omega)

/-- A text that leaves the size bound alone is learned without a sweep. -/
theorem addText_of_fits {text : String}
    (h : g.graph.count + (textRecords env.now text).length ≤ g.config.maxSize) :
    g.addText env text =
      some { g with graph := g.graph.insertAll (textRecords env.now text) } := by
  rw [addText, textRecords] at *
  generalize Text.lines text = ls at *
  induction ls generalizing g with
  | nil => rfl
  | cons l ls ih =>
      rw [List.flatMap_cons, List.length_append] at h
      rw [List.foldlM_cons, learnLine, learnWords_of_fits (by omega), List.flatMap_cons,
        Graph.insertAll_append]
      exact ih (by simp only [Graph.count_insertAll]; omega)

end Generator

/-! ### Runs of commands -/

/-- One command keeps a generator sound, also where it fails. -/
theorem Command.sound_of_run {env : Env} {command : Command} {g g' : Generator}
    {r : Except ChainError Answer} (S : g.Sound) (h : command.run env g = some (r, g')) :
    g'.Sound := by
  cases command with
  | seed word =>
      obtain ⟨-, rfl⟩ := Prod.mk.inj (Option.some.inj h)
      exact ⟨S.built, S.count_le⟩
  | text learned =>
      obtain ⟨g₁, hrun, h⟩ := Option.bind_eq_some_iff.1 h
      obtain ⟨-, rfl⟩ := Prod.mk.inj (Option.some.inj h)
      exact S.addText hrun
  | reader input =>
      obtain ⟨⟨outcome, g₁⟩, hrun, h⟩ := Option.bind_eq_some_iff.1 h
      obtain ⟨-, rfl⟩ := Prod.mk.inj (Option.some.inj h)
      exact S.addReader hrun
  | generate least most =>
      obtain ⟨⟨ws, g₁⟩, hrun, h⟩ := Option.bind_eq_some_iff.1 h
      obtain ⟨-, rfl⟩ := Prod.mk.inj (Option.some.inj h)
      obtain ⟨c, rfl⟩ := Generator.exists_cursor_of_generate hrun
      exact ⟨S.built, S.count_le⟩
  | generateFrom prompt least most =>
      obtain ⟨⟨ws, g₁⟩, hrun, h⟩ := Option.bind_eq_some_iff.1 h
      obtain ⟨-, rfl⟩ := Prod.mk.inj (Option.some.inj h)
      obtain ⟨c, rfl⟩ := Generator.exists_cursor_of_generateFrom hrun
      exact ⟨S.built, S.count_le⟩
  | cleanup =>
      obtain ⟨⟨n, g₁⟩, hrun, h⟩ := Option.bind_eq_some_iff.1 h
      obtain ⟨-, rfl⟩ := Prod.mk.inj (Option.some.inj h)
      exact Generator.sound_of_sweep S.built hrun
  | maxSize n =>
      obtain ⟨g₁, hrun, h⟩ := Option.bind_eq_some_iff.1 h
      obtain ⟨-, rfl⟩ := Prod.mk.inj (Option.some.inj h)
      obtain ⟨⟨m, g₂⟩, hsweep, rfl⟩ := Option.map_eq_some_iff.1 hrun
      exact Generator.sound_of_sweep (g := { g with config := { g.config with maxSize := n } })
        S.built hsweep
  | maxAge d =>
      obtain ⟨g₁, hrun, h⟩ := Option.bind_eq_some_iff.1 h
      obtain ⟨-, rfl⟩ := Prod.mk.inj (Option.some.inj h)
      obtain ⟨⟨m, g₂⟩, hsweep, rfl⟩ := Option.map_eq_some_iff.1 hrun
      exact Generator.sound_of_sweep (g := { g with config := { g.config with maxAge := d } })
        S.built hsweep
  | config | stats | size =>
      obtain ⟨-, rfl⟩ := Prod.mk.inj (Option.some.inj h)
      exact S
  | clear =>
      obtain ⟨-, rfl⟩ := Prod.mk.inj (Option.some.inj h)
      exact ⟨.empty, Nat.zero_le _⟩
  | store format sink =>
      obtain ⟨-, rfl⟩ := Prod.mk.inj (Option.some.inj h)
      exact S
  | load format input =>
      obtain ⟨⟨outcome, g₁⟩, hrun, h⟩ := Option.bind_eq_some_iff.1 h
      obtain ⟨-, rfl⟩ := Prod.mk.inj (Option.some.inj h)
      exact S.load hrun

/-- A run of commands keeps a generator sound. -/
theorem sound_of_runAll {steps : List (Env × Command)} {g g' : Generator} (S : g.Sound)
    (h : runAll steps g = some g') : g'.Sound := by
  induction steps generalizing g with
  | nil => exact Option.some.inj h ▸ S
  | cons step steps ih =>
      obtain ⟨⟨r, g₁⟩, hrun, h⟩ := Option.bind_eq_some_iff.1 h
      exact ih (Command.sound_of_run S hrun) h

namespace Generator

/-- The generators that a run of commands reaches from a new one. -/
def Reachable (g : Generator) : Prop :=
  ∃ config now steps, runAll steps (new config now) = some g

theorem Reachable.sound {g : Generator} (h : g.Reachable) : g.Sound := by
  obtain ⟨config, now, steps, h⟩ := h
  exact sound_of_runAll (sound_new config now) h

/-- The parts of a generator agree: the graph with itself and with the size bound. -/
structure PartsAgree (g : Generator) : Prop where
  bag_ne_empty : ∀ bag ∈ g.graph.bags.values, bag ≠ #[]
  keys_nodup : (g.graph.bags.keys.members.toList.map Prefix.folded).Nodup
  weights_size : g.graph.weights.size = g.graph.bags.size
  weights_get : ∀ i (hi : i < g.graph.bags.values.size),
    g.graph.weights.get i = g.graph.bags.values[i].size
  count_eq : g.graph.count = (g.graph.bags.values.toList.map (·.size)).sum
  starts_nodup : (g.graph.starts.members.toList.map Prefix.folded).Nodup
  start_mem : Prefix.start ∈ g.graph.starts.members
  mem_starts : ∀ p, p ≠ Prefix.start →
    (p ∈ g.graph.starts.members ↔ p ∈ g.graph.bags.keys.members ∧ p.older = Word.blank)
  count_le : g.graph.count ≤ g.config.maxSize

/-- **Whatever a generator has been through, its parts agree.** -/
theorem reachable_parts_agree {g : Generator} (h : g.Reachable) : g.PartsAgree := by
  obtain ⟨B, hle⟩ := h.sound
  have C := B.consistent
  have hvalues : g.graph.bags.values.toList.map (·.size) = g.graph.sizes := by
    rw [← Table.map_snd_entries, List.map_map]
    rfl
  refine ⟨?_, ?_, ?_, ?_, ?_, ?_, C.start_mem, ?_, hle⟩
  · rintro bag hbag rfl
    have := C.size_pos 0 (hvalues ▸ List.mem_map_of_mem (Array.mem_toList_iff.2 hbag))
    omega
  · exact Prefix.nodup_folded.2 g.graph.bags.keys.distinct_members
  · rw [C.weights.size_eq, Graph.sizes, List.length_map, Table.length_entries]
  · intro i hi
    have hlen : i < g.graph.sizes.length := by simpa [← hvalues] using hi
    rw [Tally.get_spec C.weights hlen]
    simp [← hvalues]
  · rw [hvalues, C.count_eq]
  · exact Prefix.nodup_folded.2 g.graph.starts.distinct_members
  · intro p hp
    have hstart : p.isStart = false := by
      by_contra hcon
      exact hp (Prefix.isStart_iff.1 (by simpa using hcon))
    rw [C.mem_starts p hstart, Prefix.beginsLine, Word.isBlank_iff]

/-- A text of four words, of which a smaller size bound then drops one at random. -/
theorem reachable_parts_agree_shrunk :
    ∃ g, runAll [(⟨Source.counter, 0⟩, .text "I am. i AM"), (⟨Source.counter, 1⟩, .maxSize 3)]
      (new {} 0) = some g ∧ g.PartsAgree := by
  have htext : (new {} 0).addText ⟨Source.counter, 0⟩ "I am. i AM" = some
      { new {} 0 with graph := Graph.empty.insertAll (textRecords 0 "I am. i AM") } :=
    addText_of_fits (by decide)
  have hcount : (Graph.empty.insertAll (textRecords 0 "I am. i AM")).count = 4 := by
    rw [Graph.count_insertAll]
    decide
  generalize Graph.empty.insertAll (textRecords 0 "I am. i AM") = graph at htext hcount
  have hbelow : Source.counter.below 4 ⟨0, 0⟩ = some (1, ⟨1, 1⟩) := by rfl
  obtain ⟨⟨left, c⟩, hdrop⟩ : ∃ r, graph.dropRandom Source.counter 1 ⟨0, 0⟩ = some r := by
    simp only [Graph.dropRandom, hcount, bind, StateT.bind, Option.bind, hbelow]
    cases graph.removeNth 1 <;> exact ⟨_, rfl⟩
  have haged : graph.aged { maxSize := 3 } 1 0 = graph := by
    rw [Graph.aged, if_neg (by decide)]
  obtain ⟨g, hmax⟩ : ∃ g, { new {} 0 with graph := graph }.setMaxSize ⟨Source.counter, 1⟩ 3 =
      some g := by
    rw [setMaxSize, sweep_eq (r := left) (c := c)]
    · exact ⟨_, rfl⟩
    · simp only [new, haged, hcount]
      exact hdrop
  have hrun : runAll [(⟨Source.counter, 0⟩, .text "I am. i AM"),
      (⟨Source.counter, 1⟩, .maxSize 3)] (new {} 0) = some g := by
    simp only [runAll, Command.run, htext, hmax, bind, Option.bind, pure]
  exact ⟨g, hrun, reachable_parts_agree ⟨_, _, _, hrun⟩⟩

end Generator

end Chain

end ChainScript
