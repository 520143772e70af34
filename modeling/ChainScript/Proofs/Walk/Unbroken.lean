import ChainScript.Proofs.Format.Nodes
import ChainScript.Proofs.Format.Plain
import ChainScript.Proofs.Generator.Replay
import ChainScript.Proofs.Walk.Around

/-!
# Walks that do not break off

In the middle of a line the last record that was learned leads to a prefix without records; once
the line is learned every record that is not terminal leads to another one.  Lines are learned
as a whole, so a graph that was learned from text and has lost nothing has this of all its
records, however case merges the prefixes of different lines.  A walk in it ends early only
with a terminal record.

## Main definitions

* `Continued` — every record that is not terminal leads to a prefix with records.
* `Generator.Unbroken` — the same of a generator, with what it means for the texts it makes.

## Main results

* `continued_introducedBy` — what is learned from text is continued.
* `Generator.unbroken_spec` — a generator that has lost nothing is unbroken, and so is one that
  is loaded from its file.
-/

namespace ChainScript.Chain

open Text

/-! ### Records that are continued -/

/-- Every record that is not terminal leads to a prefix with records, and the start prefix has
records if there are any; prefixes are compared up to case. -/
structure Continued (m : Multiset ((String × String) × Suffix)) : Prop where
  goesOn : ∀ x ∈ m, x.2.terminal = false → ∃ y ∈ m, y.1 = (x.1.2, fold x.2.word.text)
  begins : ∀ x ∈ m, ∃ y ∈ m, y.1 = Prefix.start.folded

theorem continued_zero : Continued 0 where
  goesOn _ hx := absurd hx (Multiset.notMem_zero _)
  begins _ hx := absurd hx (Multiset.notMem_zero _)

theorem Continued.add {m m' : Multiset ((String × String) × Suffix)} (h : Continued m)
    (h' : Continued m') : Continued (m + m') where
  goesOn := by
    intro x hx hx'
    rcases Multiset.mem_add.1 hx with hx | hx
    · obtain ⟨y, hy, heq⟩ := h.goesOn x hx hx'
      exact ⟨y, Multiset.mem_add.2 (.inl hy), heq⟩
    · obtain ⟨y, hy, heq⟩ := h'.goesOn x hx hx'
      exact ⟨y, Multiset.mem_add.2 (.inr hy), heq⟩
  begins := by
    intro x hx
    rcases Multiset.mem_add.1 hx with hx | hx
    · obtain ⟨y, hy, heq⟩ := h.begins x hx
      exact ⟨y, Multiset.mem_add.2 (.inl hy), heq⟩
    · obtain ⟨y, hy, heq⟩ := h'.begins x hx
      exact ⟨y, Multiset.mem_add.2 (.inr hy), heq⟩

/-- When the records were created does not matter. -/
theorem Continued.dated {rs : List Record} (h : Continued (contentOf rs)) (now : Instant) :
    Continued (contentOf (rs.map (Record.dated now))) := by
  have hmem : ∀ x, x ∈ contentOf (rs.map (Record.dated now)) ↔
      ∃ y ∈ contentOf rs, x = (y.1, y.2.dated now) := by
    intro x
    simp only [contentOf, Multiset.mem_coe, List.mem_map, exists_exists_and_eq_and]
    exact exists_congr fun r => and_congr_right fun _ => eq_comm
  constructor
  · intro x hx hgoes
    obtain ⟨x', hx', rfl⟩ := (hmem x).1 hx
    obtain ⟨y, hy, heq⟩ := h.goesOn x' hx' hgoes
    exact ⟨_, (hmem _).2 ⟨y, hy, rfl⟩, heq⟩
  · intro x hx
    obtain ⟨x', hx', rfl⟩ := (hmem x).1 hx
    obtain ⟨y, hy, heq⟩ := h.begins x' hx'
    exact ⟨_, (hmem _).2 ⟨y, hy, rfl⟩, heq⟩

/-! ### What is learned is continued -/

/-- The record of a word that does not end its line comes before that of the next word. -/
theorem goesOn_lineRecords {now : Instant} {p : Prefix} {ws : List String} {r : Record}
    (hr : r ∈ lineRecords now p ws) (hgoes : r.2.terminal = false) :
    ∃ r' ∈ lineRecords now p ws, r'.1 = r.1.shift r.2.word := by
  induction ws generalizing p with
  | nil => cases hr
  | cons w ws ih =>
      rw [lineRecords] at hr ⊢
      rcases List.mem_cons.1 hr with rfl | hr
      · cases ws with
        | nil => cases hgoes
        | cons next ws => exact ⟨_, List.mem_cons_of_mem _ List.mem_cons_self, rfl⟩
      · obtain ⟨r', hr', heq⟩ := ih hr
        exact ⟨r', List.mem_cons_of_mem _ hr', heq⟩

/-- A line is continued once it has been learned to its end. -/
theorem continued_observedLine (now : Instant) (line : String) :
    Continued (contentOf (observedLine now (words line))) := by
  rw [← lineRecords_words]
  constructor
  · intro x hx hgoes
    obtain ⟨r, hr, rfl⟩ := List.mem_map.1 (Multiset.mem_coe.1 hx)
    obtain ⟨r', hr', heq⟩ := goesOn_lineRecords hr hgoes
    refine ⟨foldedRecord r', Multiset.mem_coe.2 (List.mem_map_of_mem hr'), ?_⟩
    rw [foldedRecord, heq]
    rfl
  · intro x hx
    obtain ⟨r, hr, rfl⟩ := List.mem_map.1 (Multiset.mem_coe.1 hx)
    cases hws : words line with
    | nil => rw [hws] at hr; cases hr
    | cons w ws =>
        rw [lineRecords]
        exact ⟨foldedRecord (.start, _), Multiset.mem_coe.2 List.mem_cons_self, rfl⟩

theorem continued_observedLines (now : Instant) (ls : List String) :
    Continued (contentOf (ls.flatMap fun line => observedLine now (words line))) := by
  induction ls with
  | nil => exact continued_zero
  | cons line ls ih =>
      rw [List.flatMap_cons, contentOf_append]
      exact (continued_observedLine now line).add ih

theorem Command.continued_introduced {env : Env} {command : Command} {rs : List Record}
    (hcommand : command.LoadsNothing) (h : Continued (contentOf rs)) :
    Continued (contentOf (command.introduced env rs)) := by
  cases command with
  | text learned | reader input =>
      rw [introduced, contentOf_append]
      exact h.add (continued_observedLines _ _)
  | load format input => exact absurd rfl (hcommand format input)
  | clear => exact continued_zero
  | _ => exact h

/-- What commands learn is continued, also where a stream fails: it does so between lines. -/
theorem continued_introducedBy {steps : List (Env × Command)}
    (hsteps : ∀ step ∈ steps, step.2.LoadsNothing) {rs : List Record}
    (h : Continued (contentOf rs)) : Continued (contentOf (introducedBy steps rs)) := by
  induction steps generalizing rs with
  | nil => exact h
  | cons step steps ih =>
      obtain ⟨hfirst, hrest⟩ := List.forall_mem_cons.1 hsteps
      exact ih hrest (Command.continued_introduced hfirst h)

/-! ### Walks in a continued graph -/

theorem Prefix.along_concat (p : Prefix) (ss : List Suffix) (s : Suffix) :
    p.along (ss ++ [s]) = (p.along ss).shift s.word :=
  List.foldl_append

namespace Graph

variable {g : Graph} {p q : Prefix} {r : Record}

theorem follows_concat {ss : List Suffix} {s : Suffix} :
    g.Follows p (ss ++ [s]) ↔ g.Follows p ss ∧ s ∈ g.successors (p.along ss) := by
  induction ss generalizing p with
  | nil => exact and_comm
  | cons s' ss ih =>
      rw [List.cons_append, Follows, Follows, ih, and_assoc]
      rfl

theorem successors_congr (h : (p == q) = true) : g.successors p = g.successors q := by
  have hkey : (fun e : Prefix × Array Suffix => e.1 == p) = fun e => e.1 == q :=
    funext fun _ => BEq.congr_right h
  rw [successors_eq, successors_eq, hkey]

/-- The bag of a prefix has the words of all records with that prefix. -/
theorem mem_successors_of_mem_records (hr : r ∈ g.records) (h : (r.1 == p) = true) :
    r.2 ∈ g.successors p := by
  obtain ⟨e, he, hbag⟩ := List.mem_flatMap.1 hr
  obtain ⟨s, hs, rfl⟩ := List.mem_map.1 hbag
  rw [successors_eq]
  cases hfind : g.bags.entries.find? (·.1 == p) with
  | none => exact absurd h (List.find?_eq_none.1 hfind e he)
  | some e' =>
      have hkey : (e'.1 == p) = true := by simpa using List.find?_some hfind
      obtain rfl := Table.eq_of_beq he (List.mem_of_find?_eq_some hfind)
        (BEq.trans h (BEq.symm hkey))
      exact Array.mem_toList_iff.1 hs

theorem successors_ne_of_folded (hr : r ∈ g.records) (h : r.1.folded = p.folded) :
    g.successors p ≠ #[] :=
  Array.ne_empty_of_mem (mem_successors_of_mem_records hr (Prefix.beq_iff_folded.2 h))

variable (U : Continued g.content)
include U

/-- A record that is not terminal leads to a bag. -/
theorem successors_shift_ne (hr : r ∈ g.records) (hgoes : r.2.terminal = false) :
    g.successors (r.1.shift r.2.word) ≠ #[] := by
  obtain ⟨y, hy, heq⟩ := U.goesOn _ (Multiset.mem_coe.2 (List.mem_map_of_mem hr)) hgoes
  obtain ⟨r', hr', rfl⟩ := List.mem_map.1 (Multiset.mem_coe.1 hy)
  exact successors_ne_of_folded hr' heq

/-- Every start has a bag, the start prefix too if there is any record. -/
theorem Consistent.successors_start_ne (C : g.Consistent) (hcount : g.count ≠ 0)
    (hp : p ∈ g.starts.members) : g.successors p ≠ #[] := by
  cases hstart : p.isStart with
  | false =>
      obtain ⟨r, hr, rfl⟩ := C.exists_record ((C.mem_starts p hstart).1 hp).1
      exact successors_ne_of_folded hr rfl
  | true =>
      rw [Prefix.isStart_iff.1 hstart]
      rw [← C.length_records] at hcount
      obtain ⟨r, hr⟩ := List.exists_mem_of_ne_nil _ fun hnil => hcount (congrArg List.length hnil)
      obtain ⟨y, hy, heq⟩ := U.begins _ (Multiset.mem_coe.2 (List.mem_map_of_mem hr))
      obtain ⟨r', hr', rfl⟩ := List.mem_map.1 (Multiset.mem_coe.1 hy)
      exact successors_ne_of_folded hr' heq

/-- A walk from a start that leaves room has ended with a terminal record. -/
theorem Chosen.exists_terminal (C : g.Consistent) (hcount : g.count ≠ 0)
    (hp : p ∈ g.starts.members) {least room given : Nat} {ss : List Suffix}
    (H : g.Chosen least room given p ss) (hroom : ss.length < room) :
    ∃ before s, ss = before ++ [s] ∧ s.terminal = true := by
  obtain hnone | ⟨s, hlast, hend⟩ := H.ended hroom
  · obtain rfl | ⟨before, s, rfl⟩ := List.eq_nil_or_concat' ss
    · exact absurd hnone (C.successors_start_ne U hcount hp)
    · refine ⟨before, s, rfl, ?_⟩
      -- Otherwise the last record leads to a bag, so the walk has not come to its end.
      by_contra hgoes
      obtain ⟨q, hq, hmem⟩ := exists_record_of_mem_successors (follows_concat.1 H.follows).2
      have hbag := successors_shift_ne U hmem (by simpa using hgoes)
      rw [successors_congr (Prefix.beq_shift hq BEq.rfl), ← Prefix.along_concat] at hbag
      exact hbag hnone
  · obtain ⟨before, rfl⟩ := List.getLast?_eq_some_iff.1 hlast
    exact ⟨before, s, rfl, hend.1⟩

end Graph

/-! ### Texts of an unbroken generator -/

namespace Generator

variable {g : Generator}

/-- Every record that is not terminal leads to a prefix with a bag.  So, from every seed, a text
is empty only if no word is asked for or none is known, and one that is shorter than it may be
ends with the word of a terminal record: `s`, from the bag that the records before it lead to. -/
structure Unbroken (g : Generator) : Prop where
  goesOn : ∀ r ∈ g.graph.records, r.2.terminal = false →
    ∃ bag, g.graph.bags.find? (r.1.shift r.2.word) = some bag ∧ bag ≠ #[]
  empty_iff : ∀ {env : Env} {seed : UInt64} {least most : Nat} {ws : List String} {g' : Generator},
    (g.setSeed seed).generate env least most = some (ws, g') →
    (ws = [] ↔ max least most = 0 ∨ g.graph.count = 0)
  short : ∀ {env : Env} {seed : UInt64} {least most : Nat} {ws : List String} {g' : Generator},
    (g.setSeed seed).generate env least most = some (ws, g') →
    ws ≠ [] → ws.length < max least most →
    ∃ p ∈ g.graph.starts.members, ∃ before s, s.terminal = true ∧
      g.graph.Follows p before ∧ s ∈ g.graph.successors (p.along before) ∧
      ws = (p.tokens ++ before.map (·.word) ++ [s.word]).map (·.text)

/-- The words of a text are those of a start and of the records chosen from there. -/
theorem exists_chosen_of_generate (C : g.graph.Consistent) {env : Env} {seed : UInt64}
    {least most : Nat} {ws : List String} {g' : Generator}
    (h : (g.setSeed seed).generate env least most = some (ws, g')) :
    ∃ p ∈ g.graph.starts.members, ∃ ss,
      g.graph.Chosen least (max least most - (p.tokens.take (max least most)).length)
        (p.tokens.take (max least most)).length p ss ∧
      ws = (p.tokens.take (max least most) ++ ss.map (·.word)).map (·.text) := by
  obtain ⟨⟨out, g₁⟩, hdraw, h⟩ := Option.bind_eq_some_iff.1 h
  obtain ⟨rfl, -⟩ := Prod.mk.inj (Option.some.inj h)
  obtain ⟨⟨r, c⟩, hwalk, hdraw⟩ := Option.bind_eq_some_iff.1 hdraw
  obtain ⟨rfl, -⟩ := Prod.mk.inj (Option.some.inj hdraw)
  have hstarts : 0 < g.graph.starts.size := Array.size_pos_of_mem C.start_mem
  obtain ⟨p, hp, ss, H, hr⟩ := yields_walk env.source hstarts least most _ _ _ hwalk
  rw [Nat.max_comm most least] at H hr
  exact ⟨p, hp, ss, H, by rw [hr]⟩

/-- Without records the only start is the start prefix, and no record follows it. -/
theorem words_eq_nil_of_count_eq_zero (C : g.graph.Consistent) (hcount : g.graph.count = 0)
    {p : Prefix} (hp : p ∈ g.graph.starts.members) {ss : List Suffix}
    (hss : g.graph.Follows p ss) : p.tokens = [] ∧ ss = [] := by
  have hnone : g.graph.records = [] := by
    rw [← List.length_eq_zero_iff, C.length_records, hcount]
  have hstart : p.isStart = true := by
    by_contra hstart
    obtain ⟨r, hr, -⟩ := C.exists_record ((C.mem_starts p (by simpa using hstart)).1 hp).1
    rw [hnone] at hr
    cases hr
  constructor
  · rw [Prefix.isStart_iff.1 hstart]
    rfl
  · cases ss with
    | nil => rfl
    | cons s ss =>
        obtain ⟨q, -, hmem⟩ := Graph.exists_record_of_mem_successors hss.1
        rw [hnone] at hmem
        cases hmem

section Continued

variable (C : g.graph.Consistent) (U : Continued g.graph.content) {env : Env} {seed : UInt64}
  {least most : Nat} {ws : List String} {g' : Generator}
  (h : (g.setSeed seed).generate env least most = some (ws, g'))
include C U h

theorem eq_nil_iff_of_generate : ws = [] ↔ max least most = 0 ∨ g.graph.count = 0 := by
  obtain ⟨p, hp, ss, H, rfl⟩ := exists_chosen_of_generate C h
  rw [List.map_eq_nil_iff, List.append_eq_nil_iff, List.map_eq_nil_iff]
  constructor
  · rintro ⟨htokens, rfl⟩
    by_contra hsome
    rw [not_or] at hsome
    rw [htokens] at H
    obtain ⟨before, s, hss, -⟩ := H.exists_terminal U C hsome.2 hp
      (by simpa using Nat.pos_of_ne_zero hsome.1)
    cases before <;> cases hss
  · rintro (hmost | hcount)
    · have hroom := H.length_le
      rw [hmost] at hroom ⊢
      exact ⟨rfl, List.eq_nil_of_length_eq_zero (by omega)⟩
    · obtain ⟨htokens, hss⟩ := words_eq_nil_of_count_eq_zero C hcount hp H.follows
      rw [htokens]
      exact ⟨List.take_nil, hss⟩

/-- A text that is shorter than it may be ends with the word of a terminal record. -/
theorem exists_terminal_of_generate (hsome : ws ≠ []) (hshort : ws.length < max least most) :
    ∃ p ∈ g.graph.starts.members, ∃ before s, s.terminal = true ∧
      g.graph.Follows p before ∧ s ∈ g.graph.successors (p.along before) ∧
      ws = (p.tokens ++ before.map (·.word) ++ [s.word]).map (·.text) := by
  have hcount : g.graph.count ≠ 0 :=
    fun hcount => hsome ((eq_nil_iff_of_generate C U h).2 (.inr hcount))
  obtain ⟨p, hp, ss, H, rfl⟩ := exists_chosen_of_generate C h
  rw [List.length_map, List.length_append, List.length_map] at hshort
  obtain ⟨before, s, rfl, hterminal⟩ := H.exists_terminal U C hcount hp (by omega)
  have hfollows := Graph.follows_concat.1 H.follows
  have htake : p.tokens.take (max least most) = p.tokens := by
    rw [List.length_take] at hshort
    exact List.take_of_length_le (by omega)
  have hwords : (before ++ [s]).map (·.word) = before.map (·.word) ++ [s.word] := List.map_append
  exact ⟨p, hp, before, s, hterminal, hfollows.1, hfollows.2,
    by rw [htake, hwords, List.append_assoc]⟩

end Continued

theorem unbroken_of_continued (C : g.graph.Consistent) (U : Continued g.graph.content) :
    g.Unbroken := by
  refine ⟨?_, eq_nil_iff_of_generate C U, exists_terminal_of_generate C U⟩
  intro r hr hgoes
  have hbag := Graph.successors_shift_ne U hr hgoes
  rw [Graph.successors] at hbag
  cases hfind : g.graph.bags.find? (r.1.shift r.2.word) with
  | none =>
      rw [hfind] at hbag
      exact absurd rfl hbag
  | some bag =>
      rw [hfind] at hbag
      exact ⟨bag, rfl, hbag⟩

/-! ### Reloaded generators -/

/-- A file holds the records it was written from, up to their times in a text file. -/
theorem readRecords_of_store (C : g.graph.Consistent) (hcount : g.graph.count < 2 ^ 64)
    (hplain : ∀ r ∈ g.graph.records, Record.Plain r) {format : Format} {sink : Sink} {n : Nat}
    (hstore : (g.graph.store format sink).outcome = .ok n) {now : Instant} {rs : List Record}
    (hread : readRecords format now ⟨(g.graph.store format sink).taken, none⟩ = .ok rs) :
    rs = g.graph.records ∨ rs = g.graph.records.map (Record.dated now) := by
  have hsink := failure?_of_store hstore
  cases format with
  | text =>
      rw [Graph.store_text hsink, readRecords, TextFormat.read_write hplain] at hread
      exact .inr (Except.ok.inj hread).symm
  | binary =>
      have hfit := (Graph.store_binary_ok_iff hsink).1 ⟨n, hstore⟩
      have hspells := BinaryFormat.spellsFile_header (C.length_records ▸ hcount) hfit
      rw [C.length_records] at hspells
      rw [Graph.store_binary_of_fits hfit hsink, readRecords,
        BinaryFormat.read_eq_ok_iff.2 hspells] at hread
      exact .inl (Except.ok.inj hread).symm
  | dot => cases hread

/-- **Without evictions a walk only stops early at the end of a sentence or a line.**  This holds
of every generator that was filled from texts and readers alone and has removed no record, and of
every generator that loads its file without removing one.  A record count is a 64-bit word. -/
theorem unbroken_spec {steps : List (Env × Command)} {config : Config} {now : Instant}
    (hsteps : ∀ step ∈ steps, step.2.LoadsNothing)
    (hrun : runAll steps (new config now) = some g) (hkept : g.Unevicted steps) :
    g.Unbroken ∧
    (g.graph.count < 2 ^ 64 → ∀ (format : Format) (sink : Sink) (n : Nat),
      (g.graph.store format sink).outcome = .ok n → ∀ (env : Env) (t t' : Generator),
        t.load env format ⟨(g.graph.store format sink).taken, none⟩ =
          some (.ok g.graph.count, t') → t'.Unbroken) := by
  have hg : g.Reachable := ⟨config, now, steps, hrun⟩
  have C := hg.sound.built.consistent
  have U : Continued g.graph.content := by
    have hrecords := (hkept.identical hrun).records_eq
    rw [Graph.content, hrecords, ← Graph.content, Graph.content_ofRecords]
    exact continued_introducedBy hsteps continued_zero
  refine ⟨unbroken_of_continued C U, ?_⟩
  intro hcount format sink n hstore env t t' hload
  obtain ⟨rs, m, hread, hsweep, hkeeps⟩ := sweep_of_load hload
  have hplain := plain_of_runAll (fun step hstep input => hsteps step hstep .binary input) hrun
  have hrs := readRecords_of_store C hcount hplain hstore hread
  have hlength : (Graph.ofRecords rs).count = g.graph.count := by
    rw [Graph.count_ofRecords, ← C.length_records]
    obtain rfl | rfl := hrs
    · rfl
    · exact List.length_map _
  have hloaded : t'.graph.Identical (Graph.ofRecords rs) :=
    identical_of_sweep (g := { t with graph := Graph.ofRecords rs }) (Graph.built_ofRecords rs)
      hsweep (hkeeps.symm.trans hlength.symm)
  have V : Continued t'.graph.content := by
    rw [Graph.content, hloaded.records_eq, ← Graph.content, Graph.content_ofRecords]
    obtain rfl | rfl := hrs
    · exact U
    · exact U.dated env.now
  exact unbroken_of_continued (sound_of_sweep (Graph.built_ofRecords rs) hsweep).built.consistent V

/-- The second line continues bags of the first under another spelling. -/
theorem unbroken_spec_two_lines :
    ∃ g t', runAll [(⟨Source.counter, 0⟩, .text "I am\ni AM")] (new {} 0) = some g ∧ g.Unbroken ∧
      (new {} 0).load ⟨Source.counter, 5⟩ .text
        ⟨(g.graph.store .text .unlimited).taken, none⟩ = some (.ok 4, t') ∧ t'.Unbroken := by
  have htext : (new {} 0).addText ⟨Source.counter, 0⟩ "I am\ni AM" = some
      { new {} 0 with graph := Graph.ofRecords (textRecords 0 "I am\ni AM") } :=
    addText_of_fits (by decide)
  have hrun : runAll [(⟨Source.counter, 0⟩, .text "I am\ni AM")] (new {} 0) = some
      { new {} 0 with graph := Graph.ofRecords (textRecords 0 "I am\ni AM") } := by
    rw [runAll_cons_of_run (run_text_of_addText htext)]
    rfl
  have hcount : (Graph.ofRecords (textRecords 0 "I am\ni AM")).count = 4 := by
    rw [Graph.count_ofRecords]
    decide
  have B := Graph.built_ofRecords (textRecords 0 "I am\ni AM")
  generalize Graph.ofRecords (textRecords 0 "I am\ni AM") = graph at hrun hcount B
  have hsteps : ∀ step ∈ [((⟨Source.counter, 0⟩ : Env), Command.text "I am\ni AM")],
      step.2.LoadsNothing :=
    List.forall_mem_singleton.2 fun _ _ h => by cases h
  have hkept : Unevicted [(⟨Source.counter, 0⟩, .text "I am\ni AM")]
      { new {} 0 with graph := graph } := by
    rw [Unevicted, hcount]
    decide
  obtain ⟨hfilled, hloaded⟩ := unbroken_spec hsteps hrun hkept
  have hsink : Sink.unlimited.failure? (graph.render .text).bytes = none := rfl
  have hstore := Graph.store_text hsink
  have hplain := plain_of_runAll (fun step hstep input => hsteps step hstep .binary input) hrun
  obtain ⟨t', hload, -⟩ := exists_load_text (g := { new {} 0 with graph := graph })
    ⟨Source.counter, 5⟩ (t := new {} 0) B.consistent (by rw [hcount]; decide) hplain
  have hback : (new {} 0).load ⟨Source.counter, 5⟩ .text
      ⟨(graph.store .text .unlimited).taken, none⟩ = some (.ok graph.count, t') := by
    rw [hstore]
    exact hload
  have hunbroken := hloaded (by rw [hcount]; decide) .text .unlimited _
    (congrArg Stored.outcome hstore) _ _ _ hback
  rw [hcount] at hback
  exact ⟨_, t', hrun, hfilled, hback, hunbroken⟩

end Generator

end ChainScript.Chain
