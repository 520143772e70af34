import ChainScript.Proofs.Generator.Learned
import ChainScript.Proofs.Random.Period

/-!
# Every operation returns

The operations of a generator draw in selections only, and what they select from is never more
than the records and one: the records themselves, a bag, the starts, or the predecessors of a
text.  So they return where every selection below a 64-bit bound does, as with the congruential
generator.

## Main definitions

* `Returns` — a computation that draws returns from every cursor.
* `Source.Selects` — every selection below a 64-bit bound returns.
* `Command.peak` — the most records that the graph holds while a command is carried out.

## Main results

* `Command.exists_run` — every command returns.
* `Source.lcg_spec` — the period of the congruential generator, and what follows from it.
-/

namespace ChainScript

/-- The computation returns, whatever the cursor. -/
def Returns {α : Type} (d : Draw α) : Prop := ∀ c, ∃ r, d c = some r

section Returns

variable {α β : Type} {d : Draw α}

theorem returns_pure (a : α) : Returns (pure a : Draw α) := fun c => ⟨(a, c), rfl⟩

theorem Returns.bind {k : α → Draw β} (hd : Returns d) (hk : ∀ a, Returns (k a)) :
    Returns (d >>= k) := by
  intro c
  obtain ⟨⟨a, c₁⟩, ha⟩ := hd c
  obtain ⟨r, hr⟩ := hk a c₁
  exact ⟨r, Option.bind_eq_some_iff.2 ⟨(a, c₁), ha, hr⟩⟩

end Returns

/-- Every selection below a 64-bit bound returns. -/
def Source.Selects (source : Source) : Prop := ∀ n < 2 ^ 64, Returns (source.below n)

theorem Source.selects_lcg : lcg.Selects := by
  intro n hn c
  obtain ⟨i, c', hbelow, -⟩ := exists_below_lcg hn c
  exact ⟨(i, c'), hbelow⟩

theorem Source.Selects.pick {source : Source} (hs : source.Selects) {α : Type} {items : Array α}
    (hsize : items.size < 2 ^ 64) : Returns (source.pick items) := by
  rw [Source.pick]
  split
  · exact returns_pure _
  · exact (hs _ hsize).bind fun i => returns_pure _

namespace Chain

/-! ### What is selected from -/

namespace Graph

variable {g g' : Graph}

/-- A bag holds no more records than the graph. -/
theorem Consistent.size_successors_le (C : g.Consistent) (p : Prefix) :
    (g.successors p).size ≤ g.count := by
  rw [successors_eq]
  cases hfind : g.bags.entries.find? (·.1 == p) with
  | none => exact Nat.zero_le _
  | some e =>
      rw [C.count_eq]
      exact List.le_sum_of_mem (List.mem_map_of_mem (List.mem_of_find?_eq_some hfind))

/-- There are no more starts than bags, and one: every other start has a bag. -/
theorem Consistent.size_starts_le (C : g.Consistent) : g.starts.size ≤ g.count + 1 := by
  have hsubset : g.starts.members.toList ⊆ Prefix.start :: g.bags.keys.members.toList := by
    intro p hp
    rw [Array.mem_toList_iff] at hp
    by_cases hstart : p.isStart = true
    · rw [Prefix.isStart_iff.1 hstart]
      exact List.mem_cons_self
    · have hkey := ((C.mem_starts p (by simpa using hstart)).1 hp).1
      exact List.mem_cons_of_mem _ (Array.mem_toList_iff.2 hkey)
  have hlength := (List.subperm_of_subset g.starts.distinct_members.nodup hsubset).length_le
  have hbags : g.bags.keys.members.toList.length = g.sizes.length := by
    rw [← Table.map_fst_entries, List.length_map, sizes, List.length_map]
  have hsizes := List.length_le_sum_of_one_le g.sizes C.size_pos
  rw [List.length_cons, hbags, Array.length_toList] at hlength
  rw [C.count_eq, Roster.size]
  omega

/-- Predecessors are words of different records. -/
theorem length_predecessors_le (g : Graph) (text : List Word) :
    (predecessors g text).length ≤ g.records.length := by
  match text with
  | [] => exact Nat.zero_le _
  | [_] | _ :: _ :: _ =>
      rw [predecessors, List.length_map]
      exact List.length_filter_le _ _

variable {source : Source}

/-- Random drops return: each selects from the records that are left. -/
theorem Consistent.returns_dropRandom (C : g.Consistent)
    (hs : ∀ m ≤ g.count, Returns (source.below m)) (n : Nat) : Returns (g.dropRandom source n) := by
  induction n generalizing g with
  | zero => exact returns_pure g
  | succ n ih =>
      refine (hs _ le_rfl).bind fun k => ?_
      cases hremove : g.removeNth k with
      | none => exact returns_pure g
      | some r =>
          obtain ⟨s, g'⟩ := r
          obtain ⟨p, hperm⟩ := perm_removeNth C hremove
          have C' := C.removeNth hremove
          have hfewer := hperm.length_eq
          rw [List.length_cons, C'.length_records, C.length_records] at hfewer
          exact ih C' fun m hm => hs m (by omega)

variable (hs : source.Selects)
include hs

/-! ### Walks -/

theorem Consistent.returns_forward (C : g.Consistent) (hcount : g.count < 2 ^ 64) (least room : Nat)
    (p : Prefix) (out : Array Word) : Returns (forward source g least room p out) := by
  induction room generalizing p out with
  | zero => exact returns_pure out
  | succ room ih =>
      refine (hs.pick ((C.size_successors_le p).trans_lt hcount)).bind fun next? => ?_
      cases next? with
      | none => exact returns_pure out
      | some next =>
          dsimp only
          split
          · exact returns_pure _
          · exact ih _ _

theorem Consistent.returns_backward (C : g.Consistent) (hcount : g.count < 2 ^ 64) (room : Nat)
    (text : List Word) : Returns (backward source g room text) := by
  induction room generalizing text with
  | zero => exact returns_pure text
  | succ room ih =>
      have hsize : (predecessors g text).toArray.size < 2 ^ 64 := by
        have hless := length_predecessors_le g text
        rw [C.length_records] at hless
        rw [List.size_toArray]
        exact hless.trans_lt hcount
      refine (hs.pick hsize).bind fun word? => ?_
      cases word? with
      | none => exact returns_pure text
      | some word =>
          dsimp only
          split
          · exact returns_pure _
          · exact ih _

theorem Consistent.returns_resumePrefix (C : g.Consistent) (hcount : g.count < 2 ^ 64)
    (text : List Word) : Returns (resumePrefix source g text) := by
  have hknown : ∀ p : Record → Bool, ((g.records.filter p).map (·.1)).toArray.size < 2 ^ 64 := by
    intro p
    rw [List.size_toArray, List.length_map]
    exact (List.length_filter_le _ _).trans_lt (C.length_records ▸ hcount)
  match text with
  | [] | _ :: _ :: _ => exact returns_pure _
  | [only] =>
      dsimp only [resumePrefix]
      split
      · exact (hs.pick (hknown _)).bind fun p? => returns_pure _
      · exact returns_pure _

theorem Consistent.returns_walk (C : g.Consistent) (hcount : g.count + 1 < 2 ^ 64)
    (least most : Nat) : Returns (Generator.walk source g least most) := by
  refine (hs _ (C.size_starts_le.trans_lt hcount)).bind fun i => ?_
  cases g.starts.members[i]? with
  | none => exact returns_pure _
  | some start => exact C.returns_forward hs (by omega) _ _ _ _

theorem Consistent.returns_walkFrom (C : g.Consistent) (hcount : g.count < 2 ^ 64)
    (prompt : List Word) (least most : Nat) :
    Returns (Generator.walkFrom source g prompt least most) :=
  (C.returns_backward hs hcount _ _).bind fun text =>
    (C.returns_resumePrefix hs hcount text).bind fun _ => C.returns_forward hs hcount _ _ _ _

end Graph

/-! ### Operations -/

namespace Generator

/-- The most records that the generator holds while it learns `more` of them. -/
def peak (g : Generator) (more : Nat) : Nat := min (g.graph.count + more) (g.config.maxSize + 1)

/-- The second generator has learned at most `more` records more than the first. -/
structure GrownBy (more : Nat) (g g' : Generator) : Prop where
  sound : g'.Sound
  maxSize_eq : g'.config.maxSize = g.config.maxSize
  count_le : g'.graph.count ≤ g.graph.count + more

variable {env : Env} {g g' : Generator} {more : Nat}

theorem GrownBy.peak_le (G : g.GrownBy more g') (rest : Nat) :
    g'.peak rest ≤ g.peak (more + rest) := by
  have hcount := G.count_le
  rw [peak, peak, G.maxSize_eq]
  omega

theorem GrownBy.trans {g'' : Generator} {rest : Nat} (G : g.GrownBy more g')
    (H : g'.GrownBy rest g'') : g.GrownBy (more + rest) g'' :=
  ⟨H.sound, H.maxSize_eq.trans G.maxSize_eq, by have := G.count_le; have := H.count_le; omega⟩

theorem Sound.grownBy_zero (S : g.Sound) : g.GrownBy 0 g := ⟨S, rfl, le_rfl⟩

variable (hs : env.source.Selects)
include hs

theorem exists_sweep (B : g.graph.Built) (hcount : g.graph.count < 2 ^ 64) :
    ∃ r, g.sweep env = some r := by
  have hless := B.consistent.count_aged_le g.config env.now g.lastCleanup
  obtain ⟨⟨left, c⟩, hdrop⟩ := (B.aged g.config env.now g.lastCleanup).consistent.returns_dropRandom
    (fun m hm => hs m (by omega)) _ g.cursor
  exact ⟨_, sweep_eq hdrop⟩

omit hs in
/-- The sweep after a load draws nothing where the records fit; else it returns where selections
do. -/
theorem exists_sweep_ofRecords {rs : List Record}
    (hroom : rs.length ≤ g.config.maxSize ∨ env.source.Selects ∧ rs.length < 2 ^ 64) :
    ∃ r, { g with graph := Graph.ofRecords rs }.sweep env = some r := by
  have B := Graph.built_ofRecords rs
  have hcount := Graph.count_ofRecords rs
  obtain hfits | ⟨hs, hlength⟩ := hroom
  · obtain ⟨n, g', hsweep, -⟩ := exists_sweep_of_fits (g := { g with graph := Graph.ofRecords rs })
      env B (hcount.trans_le hfits)
    exact ⟨_, hsweep⟩
  · exact exists_sweep hs B (hcount.trans_lt hlength)

/-- A record that is one too many makes the graph as large as it gets. -/
theorem Sound.exists_record (S : g.Sound) (hpeak : g.peak 1 < 2 ^ 64) (p : Prefix) (s : Suffix) :
    ∃ g', g.record env p s = some g' ∧ g.GrownBy 1 g' := by
  have hmax := S.count_le
  obtain ⟨g', hg', hsize⟩ : ∃ g', g.record env p s = some g' ∧
      g'.config.maxSize = g.config.maxSize := by
    rw [Generator.record]
    split
    · have hcount : (g.graph.insert p s).count < 2 ^ 64 := by
        rw [Graph.count_insert]
        rw [peak] at hpeak
        omega
      obtain ⟨⟨n, g'⟩, hsweep⟩ := exists_sweep (g := { g with graph := g.graph.insert p s }) hs
        (S.built.insert p s) hcount
      exact ⟨g', by simp only [hsweep]; rfl, congrArg _ (of_sweep hsweep).2.1⟩
    · exact ⟨_, rfl, rfl⟩
  have S' := S.record hg'
  have hcard := Multiset.card_le_card (content_record_le S hg')
  rw [Multiset.card_add, S'.built.consistent.card_content, S.built.consistent.card_content] at hcard
  exact ⟨g', hg', S', hsize, hcard⟩

theorem Sound.exists_learnWords (S : g.Sound) {ws : List String} (hpeak : g.peak ws.length < 2 ^ 64)
    (p : Prefix) : ∃ g', g.learnWords env p ws = some g' ∧ g.GrownBy ws.length g' := by
  induction ws generalizing p g with
  | nil => exact ⟨g, rfl, S.grownBy_zero⟩
  | cons w ws ih =>
      rw [List.length_cons] at hpeak ⊢
      obtain ⟨g₁, hrecord, G⟩ := S.exists_record hs (by rw [peak] at hpeak ⊢; omega) p
        ⟨⟨w⟩, ws.isEmpty || Text.endsSentence w, env.now⟩
      rw [Nat.add_comm] at hpeak ⊢
      obtain ⟨g₂, hrest, H⟩ := ih G.sound ((G.peak_le _).trans_lt hpeak) (p.shift ⟨w⟩)
      exact ⟨g₂, Option.bind_eq_some_iff.2 ⟨g₁, hrecord, hrest⟩, G.trans H⟩

theorem Sound.exists_learnLine (S : g.Sound) (line : String)
    (hpeak : g.peak (observedLine env.now (Text.words line)).length < 2 ^ 64) :
    ∃ g', g.learnLine env line = some g' ∧
      g.GrownBy (observedLine env.now (Text.words line)).length g' := by
  have hlength : (observedLine env.now (Text.words line)).length = (Text.words line).length := by
    rw [observedLine, List.length_map, List.length_range]
  rw [hlength] at hpeak ⊢
  exact S.exists_learnWords hs hpeak Prefix.start

theorem Sound.exists_addText (S : g.Sound) {text : String}
    (hpeak : g.peak (observedText env.now text).length < 2 ^ 64) :
    ∃ g', g.addText env text = some g' := by
  rw [observedText] at hpeak
  rw [Generator.addText]
  generalize Text.lines text = ls at hpeak ⊢
  induction ls generalizing g with
  | nil => exact ⟨g, rfl⟩
  | cons l ls ih =>
      rw [List.flatMap_cons, List.length_append] at hpeak
      obtain ⟨g₁, hline, G⟩ := S.exists_learnLine hs l (by rw [peak] at hpeak ⊢; omega)
      obtain ⟨g₂, hrest⟩ := ih G.sound ((G.peak_le _).trans_lt hpeak)
      exact ⟨g₂, by rw [List.foldlM_cons, hline]; exact hrest⟩

theorem Sound.exists_learnRaw (S : g.Sound) {endsOpen : Bool} {ls : List (List UInt8)}
    (hpeak : g.peak ((readable ls).flatMap fun l => observedLine env.now (Text.words l)).length <
      2 ^ 64) : ∃ r, g.learnRaw env endsOpen ls = some r := by
  induction ls generalizing g with
  | nil => exact ⟨_, rfl⟩
  | cons l ls ih =>
      rw [learnRaw_cons]
      rw [readable] at hpeak
      cases hdecode : Text.decode? l with
      | none => exact ⟨_, rfl⟩
      | some line =>
          simp only [hdecode, List.flatMap_cons, List.length_append] at hpeak ⊢
          obtain ⟨g₁, hline, G⟩ := S.exists_learnLine hs line (by rw [peak] at hpeak ⊢; omega)
          obtain ⟨r, hrest⟩ := ih G.sound ((G.peak_le _).trans_lt hpeak)
          exact ⟨r, by rw [hline]; exact hrest⟩

theorem Sound.exists_addReader (S : g.Sound) {input : Input}
    (hpeak : g.peak (observedLines env.now input).length < 2 ^ 64) :
    ∃ r, g.addReader env input = some r := by
  obtain ⟨⟨outcome, g'⟩, hraw⟩ := S.exists_learnRaw hs hpeak
  rw [Generator.addReader, hraw]
  cases outcome <;> cases input.failure <;> exact ⟨_, rfl⟩

theorem exists_load {format : Format} {input : Input}
    (hcount : ∀ rs, readRecords format env.now input = .ok rs → rs.length < 2 ^ 64)
    (g : Generator) : ∃ r, g.load env format input = some r := by
  rw [Generator.load, Graph.load]
  cases hread : readRecords format env.now input with
  | error e => exact ⟨_, rfl⟩
  | ok rs =>
      obtain ⟨r, hsweep⟩ := exists_sweep (g := { g with graph := Graph.ofRecords rs }) hs
        (Graph.built_ofRecords rs) (by rw [Graph.count_ofRecords]; exact hcount rs hread)
      exact ⟨_, Option.bind_eq_some_iff.2 ⟨r, hsweep, rfl⟩⟩

omit hs in
theorem exists_drawing {α : Type} {d : Draw α} (h : Returns d) (g : Generator) :
    ∃ r, g.drawing d = some r := by
  obtain ⟨⟨a, c⟩, hdraw⟩ := h g.cursor
  exact ⟨_, Option.bind_eq_some_iff.2 ⟨(a, c), hdraw, rfl⟩⟩

theorem Sound.exists_generate (S : g.Sound) (hcount : g.graph.count + 1 < 2 ^ 64)
    (least most : Nat) : ∃ r, g.generate env least most = some r := by
  obtain ⟨⟨out, g'⟩, hdraw⟩ :=
    exists_drawing (S.built.consistent.returns_walk hs hcount least most) g
  exact ⟨_, Option.bind_eq_some_iff.2 ⟨(out, g'), hdraw, rfl⟩⟩

theorem Sound.exists_generateFrom (S : g.Sound) (hcount : g.graph.count + 1 < 2 ^ 64)
    (prompt : String) (least most : Nat) :
    ∃ r, g.generateFrom env prompt least most = some r := by
  rw [generateFrom]
  split
  · exact S.exists_generate hs hcount least most
  · obtain ⟨⟨out, g'⟩, hdraw⟩ := exists_drawing
      (S.built.consistent.returns_walkFrom hs (by omega) _ least most) g
    exact ⟨_, Option.bind_eq_some_iff.2 ⟨(out, g'), hdraw, rfl⟩⟩

end Generator

/-- The most records that the graph holds while the command is carried out. -/
def Command.peak (env : Env) (g : Generator) : Command → Nat
  | text learned => g.peak (observedText env.now learned).length
  | reader input => g.peak (observedLines env.now input).length
  | load format input =>
      match readRecords format env.now input with
      | .ok rs => rs.length
      | .error _ => g.graph.count
  | _ => g.graph.count

/-- **Every command returns** where selections do. -/
theorem Command.exists_run {env : Env} {g : Generator} (hs : env.source.Selects) (S : g.Sound)
    (command : Command) (hpeak : command.peak env g + 1 < 2 ^ 64) :
    ∃ r, command.run env g = some r := by
  cases command with
  | text learned =>
      obtain ⟨g', hrun⟩ := S.exists_addText hs (Nat.lt_of_succ_lt hpeak)
      exact ⟨_, Option.bind_eq_some_iff.2 ⟨g', hrun, rfl⟩⟩
  | reader input =>
      obtain ⟨r, hrun⟩ := S.exists_addReader hs (Nat.lt_of_succ_lt hpeak)
      exact ⟨_, Option.bind_eq_some_iff.2 ⟨r, hrun, rfl⟩⟩
  | load format input =>
      have hcount : ∀ rs, readRecords format env.now input = .ok rs → rs.length < 2 ^ 64 := by
        intro rs hread
        simp only [peak, hread] at hpeak
        omega
      obtain ⟨r, hrun⟩ := Generator.exists_load hs hcount g
      exact ⟨_, Option.bind_eq_some_iff.2 ⟨r, hrun, rfl⟩⟩
  | cleanup =>
      obtain ⟨r, hrun⟩ := Generator.exists_sweep hs S.built (Nat.lt_of_succ_lt hpeak)
      exact ⟨_, Option.bind_eq_some_iff.2 ⟨r, hrun, rfl⟩⟩
  | maxSize n =>
      obtain ⟨r, hrun⟩ := Generator.exists_sweep hs
        (g := { g with config := { g.config with maxSize := n } }) S.built
        (Nat.lt_of_succ_lt hpeak)
      exact ⟨_, Option.bind_eq_some_iff.2 ⟨r.2, by rw [Generator.setMaxSize, hrun]; rfl, rfl⟩⟩
  | maxAge d =>
      obtain ⟨r, hrun⟩ := Generator.exists_sweep hs
        (g := { g with config := { g.config with maxAge := d } }) S.built
        (Nat.lt_of_succ_lt hpeak)
      exact ⟨_, Option.bind_eq_some_iff.2 ⟨r.2, by rw [Generator.setMaxAge, hrun]; rfl, rfl⟩⟩
  | generate least most =>
      obtain ⟨r, hrun⟩ := S.exists_generate hs hpeak least most
      exact ⟨_, Option.bind_eq_some_iff.2 ⟨r, hrun, rfl⟩⟩
  | generateFrom prompt least most =>
      obtain ⟨r, hrun⟩ := S.exists_generateFrom hs hpeak prompt least most
      exact ⟨_, Option.bind_eq_some_iff.2 ⟨r, hrun, rfl⟩⟩
  | seed | config | stats | size | clear | store => exact ⟨_, rfl⟩

end Chain

namespace Source

open Chain

/-- **The congruential generator has full period, so whatever draws from it returns.**  From every
seed, `2 ^ 64` draws yield every word once and bring the seed back.  So a selection below `n`
returns an index, and when it does it has met no more words than it rejects, and one; and every
command of a generator returns, with all its random drops and walks.  Counts of records and of
starts are 64-bit words. -/
theorem lcg_spec :
    (∀ c : Cursor, ∃ words,
      lcg.drawList (2 ^ 64) c = some (words, ⟨c.word, c.draws + 2 ^ 64⟩) ∧
      words.Nodup ∧ ∀ word, word ∈ words) ∧
    (∀ (n : Nat) (c : Cursor), 2 ≤ n → n < 2 ^ 64 →
      ∃ i c', lcg.below n c = some (i, c') ∧ i < n ∧
        c'.draws ≤ c.draws + ((2 ^ 64 - 1) % n + 2)) ∧
    (∀ (g : Generator) (env : Env) (command : Command), g.Reachable → env.source = lcg →
      command.peak env g + 1 < 2 ^ 64 → ∃ r, command.run env g = some r) := by
  refine ⟨?_, ?_, ?_⟩
  · intro c
    have hdraws := lcg.drawList_eq (2 ^ 64) c
    have hback : lcg.step^[2 ^ 64] c.word = c.word :=
      (iterate_step_lcg_eq_iff _ _).2 (dvd_refl _)
    rw [hback] at hdraws
    exact ⟨_, hdraws, nodup_of_drawList le_rfl hdraws, mem_of_drawList hdraws⟩
  · intro n c htwo hn
    obtain ⟨i, c', hbelow, hdraws⟩ := exists_below_lcg hn c
    exact ⟨i, c', hbelow, below_lt (by omega) hbelow, hdraws⟩
  · intro g env command hg hsource hpeak
    exact Command.exists_run (hsource ▸ selects_lcg) hg.sound command hpeak

/-- A die needs five words at most, and two short sentences are learned under a bound of one
record, of which three are dropped at random. -/
theorem lcg_spec_small :
    (∃ i c', lcg.below 6 ⟨0, 0⟩ = some (i, c') ∧ i < 6 ∧ c'.draws ≤ 5) ∧
    ∃ r, (Command.text "I am. I am.").run ⟨lcg, 0⟩ (Generator.new { maxSize := 1 } 0) = some r := by
  obtain ⟨-, hbelow, hrun⟩ := lcg_spec
  refine ⟨?_, hrun _ _ _ ⟨_, _, [], rfl⟩ rfl (by decide)⟩
  obtain ⟨i, c', hsome, hlt, hdraws⟩ := hbelow 6 ⟨0, 0⟩ (by decide) (by decide)
  exact ⟨i, c', hsome, hlt, hdraws⟩

end Source

end ChainScript
