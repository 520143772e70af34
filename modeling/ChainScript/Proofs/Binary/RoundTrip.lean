import ChainScript.Proofs.Binary.Reading
import ChainScript.Proofs.Generator.Run
import ChainScript.Proofs.Graph.Regroup
import Mathlib.Data.List.TakeWhile

/-!
# Storing and loading binary files

The writer spells the records of a graph, if their words are short enough, and loading them
again gives the graph back.

## Main results

* `Generator.binary_round_trip` — what is stored loads as it was.
-/

namespace ChainScript.Chain

open Text

namespace BinaryFormat

/-! ### What is written is spelled -/

theorem spellsWord_encodeWord {w : Word} (h : fits w = true) : SpellsWord (encodeWord w) w := by
  have hsize : (bytes w.text).length < 256 ^ 2 := by
    have : (bytes w.text).length ≤ maxWordSize := by simpa [fits] using h
    simp only [maxWordSize] at this
    omega
  refine ⟨littleEndian 2 (bytes w.text).length, bytes w.text, rfl, length_littleEndian ..,
    (ofLittleEndian_littleEndian hsize).symm, decode?_eq_some_iff.2 rfl⟩

theorem spellsTime_littleEndian (time : Instant) :
    SpellsTime (littleEndian 8 time.toUInt64.toNat) time := by
  refine ⟨length_littleEndian .., ?_⟩
  rw [ofLittleEndian_littleEndian time.toUInt64.toNat_lt, UInt64.ofNat_toNat]
  exact (Int64.toInt64_toUInt64 time).symm

theorem spellsRecord_encodeRecord {r : Record} (h : (wordsOf r).all fits = true) :
    SpellsRecord (encodeRecord r) r := by
  simp only [wordsOf, List.all_cons, List.all_nil, Bool.and_true, Bool.and_eq_true] at h
  refine ⟨encodeWord r.1.older, encodeWord r.1.newer, encodeWord r.2.word,
    [if r.2.terminal then 1 else 0], littleEndian 8 r.2.createdAt.toUInt64.toNat,
    by simp [encodeRecord, wordsOf], spellsWord_encodeWord h.1, spellsWord_encodeWord h.2.1,
    spellsWord_encodeWord h.2.2, ?_, spellsTime_littleEndian _⟩
  cases r.2.terminal with
  | false => exact .inl ⟨rfl, rfl⟩
  | true => exact .inr ⟨rfl, rfl⟩

/-- Every word of the records is short enough for its length field. -/
def AllFit (rs : List Record) : Prop := ∀ r ∈ rs, (wordsOf r).all fits = true

instance (rs : List Record) : Decidable (AllFit rs) :=
  inferInstanceAs (Decidable (∀ r ∈ rs, (wordsOf r).all fits = true))

theorem spellsRecords_flatMap {rs : List Record} (h : AllFit rs) :
    SpellsRecords (rs.flatMap encodeRecord) rs := by
  induction rs with
  | nil => exact .nil
  | cons r rs ih =>
      rw [AllFit, List.forall_mem_cons] at h
      exact .cons (spellsRecord_encodeRecord h.1) (ih h.2)

theorem spellsFile_header {rs : List Record} (hcount : rs.length < 2 ^ 64) (h : AllFit rs) :
    SpellsFile (header rs.length ++ rs.flatMap encodeRecord) rs := by
  refine ⟨littleEndian 8 rs.length, rs.flatMap encodeRecord, [], ?_, length_littleEndian ..,
    ofLittleEndian_littleEndian hcount, spellsRecords_flatMap h⟩
  rw [List.append_nil]
  rfl

theorem drop_length_takeWhile {α : Type} (p : α → Bool) (xs : List α) :
    xs.drop (xs.takeWhile p).length = xs.dropWhile p := by
  have h := List.takeWhile_append_dropWhile (p := p) (l := xs)
  calc xs.drop (xs.takeWhile p).length
      = (xs.takeWhile p ++ xs.dropWhile p).drop (xs.takeWhile p).length := by rw [h]
    _ = xs.dropWhile p := List.drop_left

/-- Words that fit are written in full, without a fault. -/
theorem write_of_fits {rs : List Record} (count : Nat) (h : AllFit rs) :
    write count rs = (header count ++ rs.flatMap encodeRecord, none) := by
  have hwhole : (rs.takeWhile fun r => (wordsOf r).all fits) = rs := List.takeWhile_eq_self_iff.2 h
  have hrest : rs.drop rs.length = [] := List.drop_length
  simp only [write, hwhole, hrest]

/-- There is a fault where a word does not fit, and only there. -/
theorem write_fault_iff {rs : List Record} (count : Nat) :
    (write count rs).2 = none ↔ AllFit rs := by
  constructor
  · intro hnone
    rw [AllFit, ← List.dropWhile_eq_nil_iff, ← drop_length_takeWhile]
    rw [write] at hnone
    split at hnone
    · next hrest => exact hrest
    · next r rest hrest =>
      rw [drop_length_takeWhile] at hrest
      have hr : (wordsOf r).all fits = false := by
        have := List.head?_dropWhile_not (fun r => (wordsOf r).all fits) rs
        rwa [hrest] at this
      have htooLong := Option.map_eq_none_iff.1 hnone
      rw [drop_length_takeWhile, List.head?_eq_none_iff, List.dropWhile_eq_nil_iff,
        ← List.all_eq_true, hr] at htooLong
      cases htooLong
  · intro h
    rw [write_of_fits count h]

end BinaryFormat

/-- A sink that does not fail takes every byte. -/
theorem Sink.takes_of_failure?_none {sink : Sink} {bs : List UInt8} (h : sink.failure? bs = none) :
    sink.takes bs = bs := by
  cases sink with
  | unlimited => rfl
  | limited capacity reason =>
      have hle : bs.length ≤ capacity := by
        by_contra hlt
        simp only [failure?, if_pos (by omega : capacity < bs.length)] at h
        cases h
      exact List.take_of_length_le hle

namespace Graph

variable {g : Graph} {sink : Sink}

theorem store_binary_of_fits (h : BinaryFormat.AllFit g.records)
    (hsink : sink.failure? (g.render .binary).bytes = none) :
    g.store .binary sink =
      ⟨BinaryFormat.header g.count ++ g.records.flatMap BinaryFormat.encodeRecord,
        .ok g.count⟩ := by
  have hrender : g.render .binary =
      ⟨BinaryFormat.header g.count ++ g.records.flatMap BinaryFormat.encodeRecord, none⟩ := by
    simp only [render, BinaryFormat.write_of_fits g.count h]
  rw [hrender] at hsink
  simp only [store, hrender, hsink, Sink.takes_of_failure?_none hsink]

theorem store_binary_ok_iff (hsink : sink.failure? (g.render .binary).bytes = none) :
    (∃ n, (g.store .binary sink).outcome = .ok n) ↔
      BinaryFormat.AllFit g.records := by
  rw [← BinaryFormat.write_fault_iff g.count]
  have hfault : (g.render .binary).fault = (BinaryFormat.write g.count g.records).2 := rfl
  rw [← hfault]
  simp only [store, hsink]
  cases (g.render .binary).fault with
  | none => simp
  | some fault => simp

/-! ### Loading -/

theorem load_binary_of_spells {bs : List UInt8} {rs : List Record}
    (h : BinaryFormat.SpellsFile bs rs) (now : Instant) (failure : Option ReadFailure) :
    load .binary now ⟨bs, failure⟩ = .ok (ofRecords rs) := by
  have hread : BinaryFormat.read ⟨bs, failure⟩ = .ok rs := BinaryFormat.read_eq_ok_iff.2 h
  rw [load, readRecords, hread]
  rfl

/-- An age pass that is not due, or that finds every record young, leaves the content alone. -/
theorem Consistent.same_aged (C : g.Consistent) {config : Config} {now lastCleanup : Instant}
    (h : ¬ lastCleanup < Instant.back now config.maxAge ∨
      ∀ r ∈ g.records, Instant.back now config.maxAge ≤ r.2.createdAt) :
    (g.aged config now lastCleanup).Same g ∧ (g.aged config now lastCleanup).count = g.count := by
  rw [Graph.aged]
  split
  · next hdue =>
    have S := C.same_retainYounger (h.resolve_left (not_not_intro hdue))
    exact ⟨S, S.count_eq (C.retainYounger _) C⟩
  · exact ⟨Same.refl g, rfl⟩

end Graph

namespace Generator

variable {env : Env} {g : Generator}

theorem load_of_spells {bs : List UInt8} {rs : List Record} (h : BinaryFormat.SpellsFile bs rs)
    (failure : Option ReadFailure) :
    g.load env .binary ⟨bs, failure⟩ =
      ({ g with graph := Graph.ofRecords rs }.sweep env).map fun r : Nat × Generator =>
        (.ok r.2.graph.count, r.2) := by
  rw [load, Graph.load_binary_of_spells h, Option.map_eq_bind]
  rfl

/-- A graph that fits and holds nothing old survives a sweep. -/
theorem sweep_of_fits (env : Env) (C : g.graph.Consistent)
    (hcount : g.graph.count ≤ g.config.maxSize)
    (hage : ¬ g.lastCleanup < Instant.back env.now g.config.maxAge ∨
      ∀ r ∈ g.graph.records, Instant.back env.now g.config.maxAge ≤ r.2.createdAt) :
    ∃ n g', g.sweep env = some (n, g') ∧ g'.graph.Same g.graph ∧
      g'.graph.count = g.graph.count := by
  obtain ⟨S, hsize⟩ := C.same_aged hage
  have hdrop := Graph.dropRandom_of_count_le (hsize.trans_le hcount) env.source g.cursor
  exact ⟨_, _, sweep_eq hdrop, S, hsize⟩

/-- **What is stored in binary form loads as it was.**  A sink that does not fail takes the file
exactly when every word is short enough for its length field.  A generator with room for the
records, whose age pass leaves them alone, then holds the same bags in the same order and the
same starts, and stores the same file.  A record count is a 64-bit word. -/
theorem binary_round_trip {sink : Sink} (hg : g.Reachable) (hcount : g.graph.count < 2 ^ 64)
    (hsink : sink.failure? (g.graph.render .binary).bytes = none) :
    ((∃ n, (g.graph.store .binary sink).outcome = .ok n) ↔
      ∀ r ∈ g.graph.records, ∀ w ∈ [r.1.older, r.1.newer, r.2.word],
        (bytes w.text).length ≤ 65535) ∧
    ((∃ n, (g.graph.store .binary sink).outcome = .ok n) →
      ∀ (env : Env) (t : Generator) (failure : Option ReadFailure),
        g.graph.count ≤ t.config.maxSize →
        (¬ t.lastCleanup < Instant.back env.now t.config.maxAge ∨
          ∀ r ∈ g.graph.records, Instant.back env.now t.config.maxAge ≤ r.2.createdAt) →
        ∃ t', t.load env .binary ⟨(g.graph.store .binary sink).taken, failure⟩ =
            some (.ok g.graph.count, t') ∧
          t'.graph.bags.entries = g.graph.bags.entries ∧
          (∀ p, p ∈ t'.graph.starts.members ↔ p ∈ g.graph.starts.members) ∧
          t'.graph.stats = g.graph.stats ∧
          ∀ sink', t'.graph.store .binary sink' = g.graph.store .binary sink') := by
  have C := hg.sound.built.consistent
  have hlength : g.graph.records.length = g.graph.count := by
    rw [Graph.length_records, C.count_eq]
  have hfits : BinaryFormat.AllFit g.graph.records ↔
      ∀ r ∈ g.graph.records, ∀ w ∈ [r.1.older, r.1.newer, r.2.word],
        (bytes w.text).length ≤ 65535 := by
    simp only [BinaryFormat.AllFit, List.all_eq_true, BinaryFormat.fits, BinaryFormat.wordsOf]
    exact ⟨fun h r hr w hw => of_decide_eq_true (h r hr w hw),
      fun h r hr w hw => decide_eq_true (h r hr w hw)⟩
  refine ⟨(Graph.store_binary_ok_iff hsink).trans hfits, ?_⟩
  intro hstored env t failure hroom hage
  have hfit := (Graph.store_binary_ok_iff hsink).1 hstored
  have hspells := BinaryFormat.spellsFile_header (hlength ▸ hcount) hfit
  rw [hlength] at hspells
  have D := (Graph.built_ofRecords g.graph.records).consistent
  have S : (Graph.ofRecords g.graph.records).Same g.graph := D.same C C.entries_ofRecords
  have hsize := S.count_eq D C
  have hage' : ¬ t.lastCleanup < Instant.back env.now t.config.maxAge ∨
      ∀ r ∈ (Graph.ofRecords g.graph.records).records,
        Instant.back env.now t.config.maxAge ≤ r.2.createdAt := by
    rw [S.records_eq]
    exact hage
  obtain ⟨n, t', hsweep, S', hsize'⟩ :=
    sweep_of_fits env (g := { t with graph := Graph.ofRecords g.graph.records }) D
      (by rw [hsize]; exact hroom) hage'
  have T : t'.graph.Same g.graph := S'.trans S
  have hfinal : t'.graph.count = g.graph.count := hsize'.trans hsize
  refine ⟨t', ?_, T.entries, T.mem_starts, T.stats_eq hfinal, ?_⟩
  · rw [Graph.store_binary_of_fits hfit hsink, load_of_spells hspells, hsweep, Option.map_some,
      hfinal]
  · intro sink'
    rw [Graph.store, Graph.store, Graph.render, Graph.render, T.records_eq, hfinal]

/-- Two lines, of which the second continues the bags of the first. -/
theorem binary_round_trip_two_lines :
    ∃ g t, runAll [(⟨Source.counter, 0⟩, .text "I am\ni AM")] (new {} 0) = some g ∧
      (new {} 0).load ⟨Source.counter, 1⟩ .binary
        ⟨(g.graph.store .binary .unlimited).taken, none⟩ = some (.ok 4, t) ∧
      t.graph.stats = g.graph.stats := by
  have htext : (new {} 0).addText ⟨Source.counter, 0⟩ "I am\ni AM" = some
      { new {} 0 with graph := Graph.ofRecords (textRecords 0 "I am\ni AM") } :=
    addText_of_fits (by decide)
  have hrun : runAll [(⟨Source.counter, 0⟩, .text "I am\ni AM")] (new {} 0) = some
      { new {} 0 with graph := Graph.ofRecords (textRecords 0 "I am\ni AM") } := by
    simp only [runAll, Command.run, htext, bind, Option.bind, pure]
  have hcount : (Graph.ofRecords (textRecords 0 "I am\ni AM")).count = 4 := by
    refine (Graph.count_insertAll Graph.empty _).trans ?_
    decide
  have hfits : ∀ r ∈ (Graph.ofRecords (textRecords 0 "I am\ni AM")).records,
      ∀ w ∈ [r.1.older, r.1.newer, r.2.word], (bytes w.text).length ≤ 65535 := by
    have hwords : ∀ r ∈ textRecords 0 "I am\ni AM", ∀ w ∈ [r.1.older, r.1.newer, r.2.word],
        (bytes w.text).length ≤ 65535 := by
      decide
    rw [Graph.records_ofRecords]
    intro r hr w hw
    obtain ⟨⟨a, ha, hprefix⟩, b, hb, hsuffix⟩ := mem_grouped hr
    rw [← hprefix, ← hsuffix] at hw
    cases hw with
    | head => exact hwords a ha _ (by simp)
    | tail _ hw =>
        cases hw with
        | head => exact hwords a ha _ (by simp)
        | tail _ hw => exact hwords b hb w (List.mem_cons_of_mem _ (List.mem_cons_of_mem _ hw))
  generalize Graph.ofRecords (textRecords 0 "I am\ni AM") = graph at hrun hcount hfits
  have hfew : graph.count < 2 ^ 64 := by
    rw [hcount]
    decide
  have hsink : Sink.unlimited.failure? (graph.render .binary).bytes = none := rfl
  have H := binary_round_trip (g := { new {} 0 with graph := graph }) ⟨_, _, _, hrun⟩ hfew hsink
  obtain ⟨t, hload, -, -, hstats, -⟩ := H.2 (H.1.2 hfits) ⟨Source.counter, 1⟩ (new {} 0) none
    (by rw [hcount]; decide) (.inl (by decide))
  rw [hcount] at hload
  exact ⟨_, t, hrun, hload, hstats⟩

end Generator

end ChainScript.Chain
