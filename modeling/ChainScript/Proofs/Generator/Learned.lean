import ChainScript.Proofs.Generator.Run
import ChainScript.Proofs.Graph.Content

/-!
# What a generator has learned

The records of a line are read off the line: one for each word, after the two words before it.
A text that fits adds exactly the records of its lines, each at the end of the bag of its
prefix.  Where records are evicted, also between two words of one line, what is left was
introduced by the run: eviction only takes away.

## Main definitions

* `observedLine`, `observedText` — the records of a line and of a text.
* `Command.introduced`, `introducedBy` — the records that a run has introduced since the graph
  was last replaced.
* `Lasting` — a relation between introduced records and a graph that learning and evicting keep.

## Main results

* `Generator.content_le_of_runAll` — a run leaves no other records than it introduced.
* `Generator.learning_spec` — a text is learned in full where it fits, and nothing else is ever
  learned.
-/

namespace ChainScript

namespace Text

/-- Words hold no blanks. -/
theorem not_isBlank_of_mem_words {line w : String} (hw : w ∈ words line) :
    ∀ c ∈ w.toList, isBlank c = false := by
  intro c hc
  obtain ⟨piece, hpiece, rfl⟩ := List.mem_map.1 hw
  have hflat : c ∈ (piecesBy isBlank line.toList).flatten :=
    List.mem_flatten.2 ⟨piece, (List.mem_filter.1 hpiece).1, by simpa using hc⟩
  rw [flatten_piecesBy] at hflat
  simpa using (List.mem_filter.1 hflat).2

/-- A word without blanks closes a sentence if its last character is a full stop. -/
theorem endsSentence_eq {w : String} (h : ∀ c ∈ w.toList, isBlank c = false) :
    endsSentence w = (w.toList.getLast? == some '.') := by
  have hdrop : w.toList.reverse.dropWhile isBlank = w.toList.reverse := by
    cases hr : w.toList.reverse with
    | nil => rfl
    | cons c cs =>
        have hc : isBlank c = false := h c (List.mem_reverse.1 (hr ▸ List.mem_cons_self))
        rw [List.dropWhile_cons_of_neg (by simp [hc])]
  rw [endsSentence, hdrop, List.head?_reverse]

end Text

namespace Chain

open Text

/-! ### The records of a text -/

/-- The records of the words of a line.  The prefix of a word is the two words before it, with
blanks for those that would stand before the line; the last word is terminal, and so is each
that ends in a full stop. -/
def observedLine (now : Instant) (ws : List String) : List Record :=
  let marked : List Word := .blank :: .blank :: ws.map Word.mk
  (List.range ws.length).map fun i =>
    (⟨marked.getD i .blank, marked.getD (i + 1) .blank⟩,
      ⟨marked.getD (i + 2) .blank,
        decide (i + 1 = ws.length) || (ws.getD i "").toList.getLast? == some '.', now⟩)

/-- The records of a text, line by line. -/
def observedText (now : Instant) (text : String) : List Record :=
  (lines text).flatMap fun line => observedLine now (words line)

/-- The records of the rest of a line, by position. -/
theorem lineRecords_eq {now : Instant} {p : Prefix} {ws : List String}
    (h : ∀ w ∈ ws, ∀ c ∈ w.toList, isBlank c = false) :
    lineRecords now p ws = (List.range ws.length).map fun i =>
      (⟨(p.older :: p.newer :: ws.map Word.mk).getD i .blank,
          (p.older :: p.newer :: ws.map Word.mk).getD (i + 1) .blank⟩,
        ⟨(p.older :: p.newer :: ws.map Word.mk).getD (i + 2) .blank,
          decide (i + 1 = ws.length) || (ws.getD i "").toList.getLast? == some '.', now⟩) := by
  induction ws generalizing p with
  | nil => rfl
  | cons w ws ih =>
      have hlast : ws.isEmpty = decide (0 + 1 = (w :: ws).length) := by
        cases ws <;> simp
      rw [lineRecords, ih fun w' hw' => h w' (List.mem_cons_of_mem _ hw'),
        endsSentence_eq (h w List.mem_cons_self), hlast, List.length_cons,
        List.range_succ_eq_map, List.map_cons, List.map_map]
      refine congrArg₂ List.cons rfl (List.map_congr_left fun i _ => ?_)
      simp [Prefix.shift]

/-- The lines before the first that is no text. -/
def readable : List (List UInt8) → List String
  | [] => []
  | l :: ls =>
      match decode? l with
      | none => []
      | some line => line :: readable ls

/-- The records of a stream: those of the lines before the first that is no text. -/
def observedLines (now : Instant) (input : Input) : List Record :=
  (readable input.rawLines).flatMap fun line => observedLine now (words line)

theorem lineRecords_words (now : Instant) (line : String) :
    lineRecords now .start (words line) = observedLine now (words line) :=
  lineRecords_eq fun _ => not_isBlank_of_mem_words

theorem textRecords_eq (now : Instant) (text : String) :
    textRecords now text = observedText now text :=
  List.flatMap_congr fun line _ => lineRecords_words now line

/-! ### What one change leaves -/

namespace Graph

variable {g g' : Graph}

/-- Added records are the only ones that come. -/
theorem content_insertAll (g : Graph) (rs : List Record) :
    (g.insertAll rs).content = g.content + contentOf rs := by
  induction rs generalizing g with
  | nil => simp [insertAll, contentOf]
  | cons r rs ih =>
      have hcons : contentOf (r :: rs) = foldedRecord r ::ₘ contentOf rs := rfl
      have htail := ih (g.insert r.1 r.2)
      rw [content_insert, Multiset.cons_add, ← Multiset.add_cons] at htail
      rw [hcons]
      exact htail

/-- Added records follow the old ones of their prefix, in order. -/
theorem toList_successors_insertAll (g : Graph) (rs : List Record) (p : Prefix) :
    ((g.insertAll rs).successors p).toList =
      (g.successors p).toList ++ (rs.filter (·.1 == p)).map (·.2) := by
  induction rs generalizing g with
  | nil => simp [insertAll]
  | cons r rs ih =>
      have htail := ih (g.insert r.1 r.2)
      rw [toList_successors_insert, List.append_assoc] at htail
      refine htail.trans (congrArg _ ?_)
      rw [List.filter_cons]
      split <;> rfl

theorem content_ofRecords (rs : List Record) : (ofRecords rs).content = contentOf rs := by
  have h := content_insertAll empty rs
  have hempty : empty.content = 0 := rfl
  rw [hempty, zero_add] at h
  exact h

/-- Random drops only take away. -/
theorem content_dropRandom_le {source : Source} {n : Nat} {c c' : Cursor} (C : g.Consistent)
    (h : g.dropRandom source n c = some (g', c')) : g'.content ≤ g.content := by
  induction n generalizing g c with
  | zero =>
      obtain ⟨rfl, -⟩ : g = g' ∧ c = c' := by
        simpa using (Option.some.inj h : (g, c) = (g', c'))
      exact le_rfl
  | succ n ih =>
      rw [dropRandom] at h
      obtain ⟨⟨k, c₁⟩, -, h⟩ := Option.bind_eq_some_iff.1 h
      cases hremove : g.removeNth k with
      | none =>
          simp only [hremove] at h
          obtain ⟨rfl, -⟩ : g = g' ∧ c₁ = c' := by
            simpa using (Option.some.inj h : (g, c₁) = (g', c'))
          exact le_rfl
      | some r =>
          obtain ⟨s, g₁⟩ := r
          simp only [hremove] at h
          obtain ⟨p, hperm⟩ := perm_removeNth C hremove
          have hless : g₁.records.Subperm g.records :=
            (List.sublist_cons_self (p, s) g₁.records).subperm.trans hperm.subperm
          exact (ih (C.removeNth hremove) h).trans (contentOf_le hless)

theorem content_aged_le (g : Graph) (config : Config) (now lastCleanup : Instant) :
    (g.aged config now lastCleanup).content ≤ g.content := by
  rw [aged]
  split
  · rw [content, records_retainYounger]
    exact contentOf_le List.filter_sublist.subperm
  · exact le_rfl

theorem Consistent.length_records (C : g.Consistent) : g.records.length = g.count := by
  rw [Graph.length_records, C.count_eq]

theorem Consistent.card_content (C : g.Consistent) : Multiset.card g.content = g.count := by
  rw [content, contentOf, Multiset.coe_card, List.length_map, C.length_records]

theorem Consistent.count_aged_le (C : g.Consistent) (config : Config)
    (now lastCleanup : Instant) : (g.aged config now lastCleanup).count ≤ g.count := by
  have hless := Multiset.card_le_card (g.content_aged_le config now lastCleanup)
  rwa [C.card_content, (C.aged ..).card_content] at hless

end Graph

namespace Generator

variable {env : Env} {g g' : Generator}

/-- A sweep only takes away. -/
theorem content_sweep_le {n : Nat} (B : g.graph.Built) (h : g.sweep env = some (n, g')) :
    g'.graph.content ≤ g.graph.content := by
  obtain ⟨⟨c, hdrop⟩, -⟩ := of_sweep h
  exact (Graph.content_dropRandom_le (B.aged ..).consistent hdrop).trans
    (g.graph.content_aged_le ..)

/-- Where the records fit, a sweep draws nothing. -/
theorem exists_sweep_of_fits (env : Env) (B : g.graph.Built)
    (hfits : g.graph.count ≤ g.config.maxSize) :
    ∃ n g', g.sweep env = some (n, g') ∧
      g'.graph = g.graph.aged g.config env.now g.lastCleanup ∧ g'.config = g.config ∧
      g'.lastCleanup =
        if g.lastCleanup < Instant.back env.now g.config.maxAge then env.now
        else g.lastCleanup := by
  have hless := B.consistent.count_aged_le g.config env.now g.lastCleanup
  have hdrop := Graph.dropRandom_of_count_le (hless.trans hfits) env.source g.cursor
  exact ⟨_, _, sweep_eq hdrop, rfl, rfl, rfl⟩

/-! ### Learning with evictions in between -/

/-- A record that is added is the only one that comes. -/
theorem content_record_le (S : g.Sound) {p : Prefix} {s : Suffix}
    (h : g.record env p s = some g') : g'.graph.content ≤ g.graph.content + contentOf [(p, s)] := by
  have hadded : (g.graph.insert p s).content = g.graph.content + contentOf [(p, s)] :=
    g.graph.content_insertAll [(p, s)]
  rw [record] at h
  split at h
  · obtain ⟨⟨n, g₁⟩, hsweep, rfl⟩ := Option.map_eq_some_iff.1 h
    exact (content_sweep_le (S.built.insert p s) hsweep).trans_eq hadded
  · obtain rfl := Option.some.inj h
    exact hadded.le

end Generator

/-! ### Runs -/

/-- The records introduced since the graph was last replaced, after one more command, which
may have failed. -/
def Command.introduced (env : Env) (command : Command) (rs : List Record) : List Record :=
  match command with
  | text learned => rs ++ observedText env.now learned
  | reader input => rs ++ observedLines env.now input
  | load format input =>
      match readRecords format env.now input with
      | .ok loaded => loaded
      | .error _ => rs
  | clear => []
  | _ => rs

/-- The records introduced since the graph was last replaced, after more commands. -/
def introducedBy (steps : List (Env × Command)) (rs : List Record) : List Record :=
  steps.foldl (fun rs step => step.2.introduced step.1 rs) rs

/-- A run goes on from where its first command leaves the generator. -/
theorem runAll_cons_of_run {env : Env} {command : Command} {rest : List (Env × Command)}
    {g g' : Generator} {r : Except ChainError Answer} (h : command.run env g = some (r, g')) :
    runAll ((env, command) :: rest) g = runAll rest g' := by
  rw [runAll, h]
  rfl

theorem run_text_of_addText {env : Env} {text : String} {g g' : Generator}
    (h : g.addText env text = some g') : (Command.text text).run env g = some (.ok .done, g') := by
  rw [Command.run, h]
  rfl

/-- A run that learns one text and leaves the size bound alone. -/
theorem runAll_text_of_fits {env : Env} {text : String} {g : Generator}
    (h : g.graph.count + (textRecords env.now text).length ≤ g.config.maxSize) :
    runAll [(env, .text text)] g =
      some { g with graph := g.graph.insertAll (textRecords env.now text) } := by
  rw [runAll_cons_of_run (run_text_of_addText (Generator.addText_of_fits h))]
  rfl

/-! ### What insertions and sweeps keep -/

/-- Insertions and sweeps keep it.  It is said of a graph and of the records that were introduced
since the graph was last replaced. -/
structure Lasting (Q : List Record → Graph → Prop) : Prop where
  empty : Q [] Graph.empty
  insert : ∀ {rs : List Record} {g : Graph} (r : Record), Q rs g → Q (rs ++ [r]) (g.insert r.1 r.2)
  sweep : ∀ {env : Env} {rs : List Record} {n : Nat} {g g' : Generator}, Q rs g.graph →
    g.sweep env = some (n, g') → Q rs g'.graph

namespace Lasting

variable {Q : List Record → Graph → Prop} {env : Env} {rs : List Record} {g g' : Generator}

/-- The prefix of a word does not depend on what has been evicted, also in the middle of a line. -/
theorem learnWords (L : Lasting Q) {p : Prefix} {ws : List String} (hg : Q rs g.graph)
    (h : g.learnWords env p ws = some g') : Q (rs ++ lineRecords env.now p ws) g'.graph := by
  induction ws generalizing p rs g with
  | nil =>
      obtain rfl := Option.some.inj h
      rwa [lineRecords, List.append_nil]
  | cons w ws ih =>
      obtain ⟨g₁, hrecord, h⟩ := Option.bind_eq_some_iff.1 h
      rw [Generator.record] at hrecord
      have hfirst : Q (rs ++ [(p, ⟨⟨w⟩, ws.isEmpty || endsSentence w, env.now⟩)]) g₁.graph := by
        split at hrecord
        · obtain ⟨⟨n, g₂⟩, hswept, rfl⟩ := Option.map_eq_some_iff.1 hrecord
          exact L.sweep (L.insert _ hg) hswept
        · obtain rfl := Option.some.inj hrecord
          exact L.insert _ hg
      have hrest := ih hfirst h
      rwa [List.append_assoc] at hrest

theorem learnLine (L : Lasting Q) {line : String} (hg : Q rs g.graph)
    (h : g.learnLine env line = some g') :
    Q (rs ++ observedLine env.now (words line)) g'.graph := by
  rw [← lineRecords_words]
  exact L.learnWords hg h

theorem addText (L : Lasting Q) {text : String} (hg : Q rs g.graph)
    (h : g.addText env text = some g') :
    Q (rs ++ observedText env.now text) g'.graph := by
  rw [Generator.addText] at h
  rw [observedText]
  generalize lines text = ls at h ⊢
  induction ls generalizing rs g with
  | nil =>
      obtain rfl := Option.some.inj h
      rwa [List.flatMap_nil, List.append_nil]
  | cons l ls ih =>
      rw [List.foldlM_cons] at h
      obtain ⟨g₁, hline, h⟩ := Option.bind_eq_some_iff.1 h
      have hrest := ih (L.learnLine hg hline) h
      rwa [List.append_assoc] at hrest

/-- Lines that a stream yields before it fails are learned. -/
theorem addReader (L : Lasting Q) {input : Input} {r : Except ChainError Unit} (hg : Q rs g.graph)
    (h : g.addReader env input = some (r, g')) :
    Q (rs ++ observedLines env.now input) g'.graph := by
  obtain ⟨r', hraw⟩ := Generator.exists_learnRaw_of_addReader h
  rw [observedLines]
  generalize input.rawLines = ls at hraw ⊢
  clear h
  induction ls generalizing rs g with
  | nil =>
      obtain ⟨-, rfl⟩ := Prod.mk.inj (Option.some.inj hraw)
      rwa [readable, List.flatMap_nil, List.append_nil]
  | cons l ls ih =>
      rw [Generator.learnRaw_cons] at hraw
      rw [readable]
      cases hdecode : decode? l with
      | none =>
          simp only [hdecode] at hraw
          obtain ⟨-, rfl⟩ := Prod.mk.inj (Option.some.inj hraw)
          rwa [List.flatMap_nil, List.append_nil]
      | some line =>
          simp only [hdecode] at hraw
          obtain ⟨g₁, hline, hraw⟩ := Option.bind_eq_some_iff.1 hraw
          have hrest := ih (L.learnLine hg hline) hraw
          rwa [List.append_assoc] at hrest

theorem ofRecords (L : Lasting Q) (rs : List Record) : Q rs (Graph.ofRecords rs) := by
  have hall : ∀ old g, Q old g → Q (old ++ rs) (g.insertAll rs) := by
    induction rs with
    | nil => exact fun old g hg => by rwa [List.append_nil]
    | cons r rs ih =>
        intro old g hg
        have hrest := ih (old ++ [r]) (g.insert r.1 r.2) (L.insert r hg)
        rwa [List.append_assoc] at hrest
  exact hall [] Graph.empty L.empty

/-- One command keeps it, also where it fails. -/
theorem run (L : Lasting Q) {command : Command} {r : Except ChainError Answer}
    (hg : Q rs g.graph) (h : command.run env g = some (r, g')) :
    Q (command.introduced env rs) g'.graph := by
  cases command with
  | text learned =>
      obtain ⟨g₁, hrun, h⟩ := Option.bind_eq_some_iff.1 h
      obtain ⟨-, rfl⟩ := Prod.mk.inj (Option.some.inj h)
      exact L.addText hg hrun
  | reader input =>
      obtain ⟨⟨outcome, g₁⟩, hrun, h⟩ := Option.bind_eq_some_iff.1 h
      obtain ⟨-, rfl⟩ := Prod.mk.inj (Option.some.inj h)
      exact L.addReader hg hrun
  | load format input =>
      obtain ⟨⟨outcome, g₁⟩, hrun, h⟩ := Option.bind_eq_some_iff.1 h
      obtain ⟨-, rfl⟩ := Prod.mk.inj (Option.some.inj h)
      rw [Command.introduced]
      obtain ⟨loaded, n, hread, hswept, -⟩ | ⟨e, hread, -, rfl⟩ := Generator.of_load hrun
      · rw [hread]
        exact L.sweep (g := { g with graph := Graph.ofRecords loaded })
          (L.ofRecords loaded) hswept
      · rw [hread]
        exact hg
  | clear =>
      obtain ⟨-, rfl⟩ := Prod.mk.inj (Option.some.inj h)
      exact L.empty
  | cleanup =>
      obtain ⟨⟨n, g₁⟩, hrun, h⟩ := Option.bind_eq_some_iff.1 h
      obtain ⟨-, rfl⟩ := Prod.mk.inj (Option.some.inj h)
      exact L.sweep hg hrun
  | maxSize n =>
      obtain ⟨g₁, hrun, h⟩ := Option.bind_eq_some_iff.1 h
      obtain ⟨-, rfl⟩ := Prod.mk.inj (Option.some.inj h)
      obtain ⟨⟨m, g₂⟩, hswept, rfl⟩ := Option.map_eq_some_iff.1 hrun
      exact L.sweep (g := { g with config := { g.config with maxSize := n } }) hg hswept
  | maxAge d =>
      obtain ⟨g₁, hrun, h⟩ := Option.bind_eq_some_iff.1 h
      obtain ⟨-, rfl⟩ := Prod.mk.inj (Option.some.inj h)
      obtain ⟨⟨m, g₂⟩, hswept, rfl⟩ := Option.map_eq_some_iff.1 hrun
      exact L.sweep (g := { g with config := { g.config with maxAge := d } }) hg hswept
  | seed | config | stats | size | store =>
      obtain ⟨-, rfl⟩ := Prod.mk.inj (Option.some.inj h)
      exact hg
  | generate least most =>
      obtain ⟨⟨ws, g₁⟩, hrun, h⟩ := Option.bind_eq_some_iff.1 h
      obtain ⟨-, rfl⟩ := Prod.mk.inj (Option.some.inj h)
      obtain ⟨c, rfl⟩ := Generator.exists_cursor_of_generate hrun
      exact hg
  | generateFrom prompt least most =>
      obtain ⟨⟨ws, g₁⟩, hrun, h⟩ := Option.bind_eq_some_iff.1 h
      obtain ⟨-, rfl⟩ := Prod.mk.inj (Option.some.inj h)
      obtain ⟨c, rfl⟩ := Generator.exists_cursor_of_generateFrom hrun
      exact hg

/-- What insertions and sweeps keep, given the records that were introduced, every run keeps. -/
theorem runAll (L : Lasting Q) {steps : List (Env × Command)} (hg : Q rs g.graph)
    (h : Chain.runAll steps g = some g') : Q (introducedBy steps rs) g'.graph := by
  induction steps generalizing g rs with
  | nil => exact Option.some.inj h ▸ hg
  | cons step steps ih =>
      obtain ⟨⟨r, g₁⟩, hrun, h⟩ := Option.bind_eq_some_iff.1 h
      exact ih (L.run hg hrun) h

end Lasting

namespace Generator

variable {g g' : Generator}

/-- **No run leaves a record that was not introduced since the graph was last replaced.** -/
theorem content_le_of_runAll {steps : List (Env × Command)} {rs : List Record} (S : g.Sound)
    (hle : g.graph.content ≤ contentOf rs) (h : runAll steps g = some g') :
    g'.graph.content ≤ contentOf (introducedBy steps rs) := by
  have L : Lasting fun rs g => g.Built ∧ g.content ≤ contentOf rs :=
    { empty := ⟨.empty, le_rfl⟩
      insert := fun {rs g} r ⟨B, hle⟩ => ⟨B.insert r.1 r.2, by
        rw [contentOf_append]
        exact (g.content_insertAll [r]).trans_le (add_le_add_left hle _)⟩
      sweep := fun ⟨B, hle⟩ hswept =>
        ⟨(sound_of_sweep B hswept).built, (content_sweep_le B hswept).trans hle⟩ }
  exact (L.runAll ⟨S.built, hle⟩ h).2

/-- What holds of the records that each command introduces holds of the records of a run. -/
theorem forall_records_of_runAll {P : Record → Prop}
    (hP : ∀ r r', foldedRecord r = foldedRecord r' → P r' → P r) {steps : List (Env × Command)}
    (hsteps : ∀ step ∈ steps, ∀ rs, (∀ r ∈ rs, P r) → ∀ r ∈ step.2.introduced step.1 rs, P r)
    {config : Config} {now : Instant} (h : runAll steps (new config now) = some g) :
    ∀ r ∈ g.graph.records, P r := by
  have hintroduced : ∀ {rs : List Record}, (∀ r ∈ rs, P r) → ∀ r ∈ introducedBy steps rs, P r := by
    clear h
    induction steps with
    | nil => exact id
    | cons step steps ih =>
        intro rs hrs
        obtain ⟨hstep, hsteps⟩ := List.forall_mem_cons.1 hsteps
        exact ih hsteps (hstep rs hrs)
  have hle : g.graph.content ≤ contentOf (introducedBy steps []) :=
    content_le_of_runAll (sound_new config now) le_rfl h
  exact forall_of_content_le hP hle (hintroduced fun _ hr => absurd hr List.not_mem_nil)

/-- **What is learned is what was said, and nothing is made up.**  A text that fits the size
bound adds exactly the records of its lines, and within each bag behind the old ones and in the
order of the text.  After any run, with any evictions, also between two words of a line, the
records are among those introduced since the graph was last cleared or loaded, with the loaded
ones; the words of prefixes compare up to case and all else as it is. -/
theorem learning_spec (g : Generator) :
    (∀ (env : Env) (text : String),
      g.graph.count + (observedText env.now text).length ≤ g.config.maxSize →
      ∃ g', g.addText env text = some g' ∧
        g'.graph.content = g.graph.content + contentOf (observedText env.now text) ∧
        ∀ p, (g'.graph.successors p).toList = (g.graph.successors p).toList ++
          ((observedText env.now text).filter (·.1 == p)).map (·.2)) ∧
    (g.Reachable → ∀ steps g', runAll steps g = some g' →
      g'.graph.content ≤ contentOf (introducedBy steps g.graph.records)) := by
  refine ⟨fun env text hfits => ?_, fun hg steps g' hrun =>
    content_le_of_runAll hg.sound le_rfl hrun⟩
  rw [← textRecords_eq] at hfits ⊢
  exact ⟨_, addText_of_fits hfits, g.graph.content_insertAll _,
    g.graph.toList_successors_insertAll _⟩

/-- Two sentences are learned in full, and then pass out of age. -/
theorem learning_spec_aged :
    (∃ g, (new {} 0).addText ⟨Source.counter, 7⟩ "I am. i AM" = some g ∧
      g.graph.content = contentOf (observedText 7 "I am. i AM") ∧
      (g.graph.successors .start).toList = [⟨⟨"I"⟩, false, 7⟩]) ∧
    ∃ g, runAll [(⟨Source.counter, 7⟩, .text "I am. i AM"),
        (⟨Source.counter, 5000⟩, .maxAge (Duration.ofSeconds 1))] (new {} 0) = some g ∧
      g.graph.content ≤ contentOf (observedText 7 "I am. i AM") := by
  obtain ⟨hlearn, hrun⟩ := learning_spec (new {} 0)
  have hempty : (new {} 0).graph.content = 0 := rfl
  have hnone : ((new {} 0).graph.successors .start).toList = [] := by
    rw [Graph.successors_eq]
    rfl
  obtain ⟨g, hg, hcontent, hbag⟩ := hlearn ⟨Source.counter, 7⟩ "I am. i AM" (by decide)
  have S := (sound_new {} 0).addText hg
  have hcount : g.graph.count ≤ g.config.maxSize := S.count_le
  obtain ⟨n, g', hsweep, -⟩ := exists_sweep_of_fits ⟨Source.counter, 5000⟩
    (g := { g with config := { g.config with maxAge := Duration.ofSeconds 1 } }) S.built hcount
  have hsteps : runAll [(⟨Source.counter, 7⟩, .text "I am. i AM"),
      (⟨Source.counter, 5000⟩, .maxAge (Duration.ofSeconds 1))] (new {} 0) = some g' := by
    rw [runAll_cons_of_run (run_text_of_addText hg)]
    simp only [runAll, Command.run, setMaxAge, hsweep, bind, Option.bind, pure, Functor.map,
      Option.map]
  refine ⟨⟨g, hg, ?_, ?_⟩, g', hsteps, hrun ⟨{}, 0, [], rfl⟩ _ g' hsteps⟩
  · rw [hcontent, hempty, zero_add]
  · simp only [hbag, hnone, Prefix.beq_start]
    rfl

end Generator

end Chain

end ChainScript
