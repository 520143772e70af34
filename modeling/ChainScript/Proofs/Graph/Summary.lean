import ChainScript.Proofs.Format.Edges
import ChainScript.Proofs.Generator.Learned

/-!
# What a summary counts

A summary is put together from counters of different kinds: a table of words that is filled on the
spot, the sizes of the bags, the record count and the set of starts.  Each of its numbers is the
size of a set that the list of the records alone determines, with words and prefixes taken up to
case.  The most frequent word is the one that a scan of the list keeps which gives way only to a
greater count, so of several it is the one met first, in its first spelling.

## Main definitions

* `timesRecorded`, `MostCommon` — how often a word was recorded, and the word recorded most often.
* `Stats.Summarizes` — the summary says of the records what its fields stand for.

## Main results

* `mostFrequent_eq_some` — the entry that a scan for the greatest count finds.
* `Graph.summarizes_stats` — the summary of a consistent graph.
* `Generator.summary_spec` — the summary of a generator, and the order of its numbers.
-/

namespace ChainScript

namespace Chain

open Text

/-! ### The most frequent word -/

section MostFrequent

variable {entries : List (Word × Nat)}

theorem mostFrequent_concat (entries : List (Word × Nat)) (e : Word × Nat) :
    mostFrequent (entries ++ [e]) =
      match mostFrequent entries with
      | some b => if b.2 < e.2 then some e else some b
      | none => some e := by
  rw [mostFrequent, List.foldl_append, ← mostFrequent, List.foldl_cons, List.foldl_nil]
  cases mostFrequent entries <;> rfl

theorem mostFrequent_eq_none_iff : mostFrequent entries = none ↔ entries = [] := by
  induction entries using List.reverseRecOn with
  | nil => exact iff_of_true rfl rfl
  | append_singleton entries e _ =>
      refine iff_of_false ?_ (by simp)
      rw [mostFrequent_concat]
      split
      · split <;> simp
      · simp

/-- A scan finds an entry with the greatest count, and of several the first. -/
theorem mostFrequent_eq_some {b : Word × Nat} (h : mostFrequent entries = some b) :
    ∃ before after, entries = before ++ b :: after ∧
      (∀ e ∈ before, e.2 < b.2) ∧ ∀ e ∈ after, e.2 ≤ b.2 := by
  induction entries using List.reverseRecOn generalizing b with
  | nil => cases h
  | append_singleton entries e ih =>
      rw [mostFrequent_concat] at h
      cases hmost : mostFrequent entries with
      | none =>
          obtain rfl := mostFrequent_eq_none_iff.1 hmost
          rw [hmost] at h
          obtain rfl := Option.some.inj h
          exact ⟨[], [], rfl, List.forall_mem_nil _, List.forall_mem_nil _⟩
      | some c =>
          obtain ⟨before, after, rfl, hbefore, hafter⟩ := ih hmost
          simp only [hmost] at h
          split at h
          · next hless =>
            -- The new entry exceeds the greatest count so far, and with it all the others.
            obtain rfl := Option.some.inj h
            refine ⟨before ++ c :: after, [], rfl, ?_, List.forall_mem_nil _⟩
            rw [List.forall_mem_append, List.forall_mem_cons]
            exact ⟨fun d hd => (hbefore d hd).trans hless, hless,
              fun d hd => (hafter d hd).trans_lt hless⟩
          · next hle =>
            obtain rfl := Option.some.inj h
            refine ⟨before, after ++ [e], by simp, hbefore, ?_⟩
            rw [List.forall_mem_append, List.forall_mem_singleton]
            exact ⟨hafter, Nat.le_of_not_lt hle⟩

end MostFrequent

/-- How often a word was recorded, in whatever case. -/
def timesRecorded (rs : List Record) (text : String) : Nat :=
  (rs.filter fun r => fold r.2.word.text = fold text).length

/-- The text is the word that was recorded most often, as it is spelled in its first record.  Words
recorded as often were met later. -/
def MostCommon (rs : List Record) (text : String) : Prop :=
  ∃ before first after, rs = before ++ first :: after ∧ first.2.word.text = text ∧
    (∀ r ∈ before, fold r.2.word.text ≠ fold text) ∧
    (∀ r ∈ rs, timesRecorded rs r.2.word.text ≤ timesRecorded rs text) ∧
    ∀ r ∈ before, timesRecorded rs r.2.word.text < timesRecorded rs text

section MostCommon

variable {rs : List Record} {a b : String}

theorem timesRecorded_congr (h : fold a = fold b) : timesRecorded rs a = timesRecorded rs b := by
  rw [timesRecorded, timesRecorded, h]

/-- One word is the most common. -/
theorem MostCommon.unique (ha : MostCommon rs a) (hb : MostCommon rs b) : a = b := by
  obtain ⟨as, r, as', hrs, rfl, -, hmost, hless⟩ := ha
  obtain ⟨bs, s, bs', hrs', rfl, -, hmost', hless'⟩ := hb
  have hr : r ∈ rs := by simp [hrs]
  have hs : s ∈ rs := by simp [hrs']
  -- The one that came later would have been recorded more often.
  obtain ⟨cs, rfl, htail⟩ | ⟨cs, rfl, htail⟩ :=
    List.append_eq_append_iff.1 (hrs.symm.trans hrs')
  · cases cs with
    | nil => rw [(List.cons.inj htail).1]
    | cons c cs =>
        obtain ⟨rfl, -⟩ := List.cons.inj htail
        exact absurd (hmost s hs) (Nat.not_le_of_lt (hless' r (by simp)))
  · cases cs with
    | nil => rw [(List.cons.inj htail).1]
    | cons c cs =>
        obtain ⟨rfl, -⟩ := List.cons.inj htail
        exact absurd (hmost' r hr) (Nat.not_le_of_lt (hless s (by simp)))

theorem entries_wordCounts (rs : List Record) : (wordCounts rs).entries =
    (rs.map (·.2.word)).eraseDups.map fun w => (w, timesRecorded rs w.text) := by
  refine (Table.entries_foldl_update (·.2.word) 0 (fun _ n => n + 1) rs).trans ?_
  refine List.map_congr_left fun w _ => ?_
  have hcount : ∀ (qs : List Record) (n : Nat), qs.foldl (fun n _ => n + 1) n = n + qs.length := by
    intro qs
    induction qs with
    | nil => exact fun _ => rfl
    | cons q qs ih =>
        intro n
        rw [List.foldl_cons, ih, List.length_cons]
        omega
  rw [hcount, Nat.zero_add]
  rfl

/-- The entry that stands first with the greatest count tells the most common word. -/
theorem mostCommon_of_mostFrequent {e : Word × Nat}
    (h : mostFrequent (wordCounts rs).entries = some e) : MostCommon rs e.1.text := by
  obtain ⟨before, after, hentries, hbefore, hafter⟩ := mostFrequent_eq_some h
  rw [entries_wordCounts, List.map_eq_append_iff] at hentries
  obtain ⟨older, rest, hwords, rfl, hrest⟩ := hentries
  obtain ⟨w, newer, rfl, rfl, rfl⟩ := List.map_eq_cons_iff.1 hrest
  simp only [List.forall_mem_map] at hbefore hafter
  -- The words met before the first record of the word are those listed before it.
  obtain ⟨earlier, later, hsplit, rfl⟩ := exists_append_of_eraseDups_eq hwords
  obtain ⟨rs₁, rest, rfl, rfl, hrest⟩ := List.map_eq_append_iff.1 hsplit
  obtain ⟨r, rs₂, rfl, rfl, rfl⟩ := List.map_eq_cons_iff.1 hrest
  have hdistinct := distinct_eraseDups ((rs₁ ++ r :: rs₂).map (·.2.word))
  rw [hwords] at hdistinct
  have hbeq {v w : Word} (h : (v == w) = true) : timesRecorded (rs₁ ++ r :: rs₂) v.text =
      timesRecorded (rs₁ ++ r :: rs₂) w.text := timesRecorded_congr (Word.beq_iff.1 h)
  have hearlier : ∀ q ∈ rs₁, ∃ v ∈ (rs₁.map (·.2.word)).eraseDups, (v == q.2.word) = true :=
    fun q hq => exists_mem_eraseDups (List.mem_map_of_mem hq)
  refine ⟨rs₁, r, rs₂, rfl, rfl, ?_, ?_, ?_⟩
  · intro q hq hfold
    obtain ⟨v, hv, hvq⟩ := hearlier q hq
    have hne := (List.pairwise_append.1 hdistinct).2.2 v hv r.2.word List.mem_cons_self
    rw [Word.beq_iff.2 ((Word.beq_iff.1 hvq).trans hfold)] at hne
    cases hne
  · intro q hq
    obtain ⟨v, hv, hvq⟩ := exists_mem_eraseDups (List.mem_map_of_mem (f := (·.2.word)) hq)
    rw [hwords, List.mem_append, List.mem_cons] at hv
    rw [← hbeq hvq]
    obtain hv | rfl | hv := hv
    · exact (hbefore v hv).le
    · exact le_rfl
    · exact hafter v hv
  · intro q hq
    obtain ⟨v, hv, hvq⟩ := hearlier q hq
    rw [← hbeq hvq]
    exact hbefore v hv

theorem mostCommonWord_eq_some_iff {g : Graph} {text : String} :
    g.stats.mostCommonWord = some text ↔ MostCommon g.records text := by
  have hfound (t : String) (h : g.stats.mostCommonWord = some t) : MostCommon g.records t := by
    obtain ⟨e, he, rfl⟩ := Option.map_eq_some_iff.1 h
    exact mostCommon_of_mostFrequent he
  refine ⟨hfound text, fun hmost => ?_⟩
  cases h : g.stats.mostCommonWord with
  | some t => rw [(hfound t h).unique hmost]
  | none =>
      have hnone := mostFrequent_eq_none_iff.1 (Option.map_eq_none_iff.1 h)
      obtain ⟨before, r, after, hrs, -⟩ := hmost
      rw [entries_wordCounts, List.map_eq_nil_iff] at hnone
      rw [eraseDups_eq_nil_iff, List.map_eq_nil_iff, hrs] at hnone
      exact absurd hnone (by simp)

end MostCommon

/-! ### The counters -/

/-- A line's beginning with one word behind it is no start of a line. -/
theorem Prefix.oneWord_iff {p : Prefix} :
    (p.beginsLine && !p.isStart) = true ↔ p.older.text = "" ∧ p.newer.text ≠ "" := by
  simp only [beginsLine, isStart, Word.isBlank, Bool.and_eq_true, Bool.not_eq_true',
    String.isEmpty_iff, Bool.eq_false_iff, ne_eq]
  grind

namespace Graph

variable {g : Graph}

/-- Words are told apart by their folded spellings. -/
theorem wordCount_stats (g : Graph) :
    g.stats.wordCount = (g.records.map fun r => fold r.2.word.text).toFinset.card := by
  have hsize : g.stats.wordCount = (wordCounts g.records).size := rfl
  rw [hsize, ← Table.length_entries, entries_wordCounts, List.length_map,
    length_eraseDups_eq_card (f := fun w => fold w.text) fun _ _ => Word.beq_iff, List.map_map]
  rfl

/-- Transitions are told apart by the folded spellings of their words. -/
theorem transitions_stats (g : Graph) : g.stats.transitions =
    (g.records.map fun r => (r.1.folded, fold r.2.word.text)).toFinset.card := by
  have hedges : ∀ a b : DotFormat.Edge, (a == b) = true ↔
      (a.source.folded, fold a.word.text) = (b.source.folded, fold b.word.text) := by
    intro a b
    rw [DotFormat.Edge.beq_iff, Prefix.beq_iff_folded, Word.beq_iff]
    exact Prod.mk_inj.symm
  rw [← DotFormat.length_eraseDups_edgeOf, length_eraseDups_eq_card hedges, List.map_map]
  rfl

/-- The keys of a consistent graph are the prefixes of its records, each once. -/
theorem Consistent.length_filter_keys (C : g.Consistent) (P : Prefix → Bool) :
    (g.bags.keys.members.toList.filter P).length =
      ((g.records.filter (P ·.1)).map (·.1.folded)).toFinset.card := by
  have hdistinct : Distinct (g.bags.keys.members.toList.filter P) :=
    g.bags.keys.distinct_members.filter _
  have hnodup := Prefix.nodup_folded.2 hdistinct
  have hsame : ((g.bags.keys.members.toList.filter P).map Prefix.folded).toFinset =
      ((g.records.filter (P ·.1)).map (·.1.folded)).toFinset := by
    ext f
    simp only [List.mem_toFinset, List.mem_map, List.mem_filter, Array.mem_toList_iff]
    constructor
    · rintro ⟨p, ⟨hp, hP⟩, rfl⟩
      obtain ⟨r, hr, rfl⟩ := C.exists_record hp
      exact ⟨r, ⟨hr, hP⟩, rfl⟩
    · rintro ⟨r, ⟨hr, hP⟩, rfl⟩
      exact ⟨r.1, ⟨mem_keys_of_mem_records hr, hP⟩, rfl⟩
  rw [← hsame, List.toFinset_card_of_nodup hnodup, List.length_map]

/-- The starts are the start prefix and the keys that lie at a line's beginning without being
it. -/
theorem Consistent.starts_perm (C : g.Consistent) : g.starts.members.toList.Perm
    (Prefix.start :: g.bags.keys.members.toList.filter fun p => p.beginsLine && !p.isStart) := by
  have hstart : Prefix.start.isStart = true := Prefix.isStart_iff.2 rfl
  have hkeys := g.bags.keys.distinct_members.nodup.filter fun p => p.beginsLine && !p.isStart
  rw [List.perm_ext_iff_of_nodup g.starts.distinct_members.nodup
    (List.nodup_cons.2 ⟨by simp [hstart], hkeys⟩)]
  intro p
  simp only [List.mem_cons, List.mem_filter, Array.mem_toList_iff, Bool.and_eq_true,
    Bool.not_eq_true']
  cases hp : p.isStart with
  | true =>
      obtain rfl := Prefix.isStart_iff.1 hp
      simp [C.start_mem]
  | false =>
      have hne : p ≠ Prefix.start := fun h => by simp [h, hstart] at hp
      rw [C.mem_starts p hp]
      simp [hne]

end Graph

/-- The summary says of the records what its fields stand for. -/
structure Stats.Summarizes (s : Stats) (rs : List Record) : Prop where
  wordCount : s.wordCount = (rs.map fun r => fold r.2.word.text).toFinset.card
  transitions :
    s.transitions = (rs.map fun r => (r.1.folded, fold r.2.word.text)).toFinset.card
  records : s.records = rs.length
  prefixes : s.prefixes = (rs.map (·.1.folded)).toFinset.card
  /-- Beside the start prefix these are the prefixes with one word. -/
  startPrefixes : s.startPrefixes = 1 +
    ((rs.filter fun r => r.1.older.text = "" ∧ r.1.newer.text ≠ "").map
      (·.1.folded)).toFinset.card
  mostCommonWord_eq_none : s.mostCommonWord = none ↔ rs = []
  mostCommonWord_eq_some : ∀ text, s.mostCommonWord = some text ↔ MostCommon rs text

namespace Stats.Summarizes

variable {s : Stats} {rs : List Record}

/-- Each word is that of a transition. -/
theorem wordCount_le (S : s.Summarizes rs) : s.wordCount ≤ s.transitions := by
  rw [S.wordCount, S.transitions]
  exact card_toFinset_map_le (fun r : Record => (r.1.folded, fold r.2.word.text)) Prod.snd rs

/-- Each prefix is that of a transition. -/
theorem prefixes_le (S : s.Summarizes rs) : s.prefixes ≤ s.transitions := by
  rw [S.prefixes, S.transitions]
  exact card_toFinset_map_le (fun r : Record => (r.1.folded, fold r.2.word.text)) Prod.fst rs

theorem transitions_le (S : s.Summarizes rs) : s.transitions ≤ s.records := by
  rw [S.transitions, S.records]
  exact (List.toFinset_card_le _).trans_eq (List.length_map ..)

end Stats.Summarizes

/-- The counters of a consistent graph are the sizes of the sets that they stand for. -/
theorem Graph.summarizes_stats {g : Graph} (C : g.Consistent) : g.stats.Summarizes g.records where
  wordCount := wordCount_stats g
  transitions := transitions_stats g
  records := C.count_eq.trans (length_records g).symm
  prefixes := by
    have hsize : g.stats.prefixes = g.bags.keys.members.toList.length := g.bags.size_eq
    rw [hsize]
    simpa only [List.filter_true] using C.length_filter_keys fun _ => true
  startPrefixes := by
    have hsize : g.stats.startPrefixes = g.starts.members.toList.length := rfl
    rw [hsize, C.starts_perm.length_eq, List.length_cons, C.length_filter_keys, Nat.add_comm]
    congr 4
    refine List.filter_congr fun r _ => ?_
    rw [Bool.eq_iff_iff, decide_eq_true_iff, Prefix.oneWord_iff]
  mostCommonWord_eq_none := by
    have hnone : g.stats.mostCommonWord = none ↔ (wordCounts g.records).entries = [] :=
      Option.map_eq_none_iff.trans mostFrequent_eq_none_iff
    rw [hnone, entries_wordCounts, List.map_eq_nil_iff, eraseDups_eq_nil_iff, List.map_eq_nil_iff]
  mostCommonWord_eq_some _ := mostCommonWord_eq_some_iff

namespace Generator

/-- **The numbers of a summary are what they stand for.**  Whatever a generator has been through,
it reports the number of different words, of different transitions, of records, of prefixes that
have a record, and of those among them that have one word, with the start prefix in addition;
words are told apart up to case.  The most common word is the one with the most records, as the
first of them spells it, and the first met of several; there is none just where there is no
record.  So there are no more words and no more prefixes than transitions, no more transitions than
records, and no more records than the size bound admits. -/
theorem summary_spec {g : Generator} (h : g.Reachable) :
    ∃ s : Stats, (∀ env, Command.stats.run env g = some (.ok (.stats s), g)) ∧
      (∀ env, Command.size.run env g = some (.ok (.count s.records), g)) ∧
      s.Summarizes g.graph.records ∧
      s.wordCount ≤ s.transitions ∧ s.transitions ≤ s.records ∧
      s.records ≤ g.config.maxSize ∧ s.prefixes ≤ s.transitions := by
  have S := Graph.summarizes_stats h.sound.built.consistent
  exact ⟨g.graph.stats, fun _ => rfl, fun _ => rfl, S, S.wordCount_le, S.transitions_le,
    h.sound.count_le, S.prefixes_le⟩

/-- Two words with two records each, in two spellings: the one met first is the most common. -/
theorem summary_spec_tie :
    ∃ g, runAll [(⟨Source.counter, 0⟩, .text "one Two\ntwo ONE")] (new {} 0) = some g ∧
      ∃ s : Stats, (∀ env, Command.stats.run env g = some (.ok (.stats s), g)) ∧
        s = ⟨2, 4, 4, 3, 3, some "one"⟩ ∧ s.records ≤ g.config.maxSize := by
  let rs : List Record := [(.start, ⟨⟨"one"⟩, false, 0⟩), (⟨.blank, ⟨"one"⟩⟩, ⟨⟨"Two"⟩, true, 0⟩),
    (.start, ⟨⟨"two"⟩, false, 0⟩), (⟨.blank, ⟨"two"⟩⟩, ⟨⟨"ONE"⟩, true, 0⟩)]
  let inBags : List Record := [(.start, ⟨⟨"one"⟩, false, 0⟩), (.start, ⟨⟨"two"⟩, false, 0⟩),
    (⟨.blank, ⟨"one"⟩⟩, ⟨⟨"Two"⟩, true, 0⟩), (⟨.blank, ⟨"two"⟩⟩, ⟨⟨"ONE"⟩, true, 0⟩)]
  have htext : textRecords 0 "one Two\ntwo ONE" = rs := by rfl
  have hrecords : (Graph.ofRecords rs).records = inBags := by
    rw [Graph.records_ofRecords]
    simp [rs, inBags, grouped, List.eraseDups_cons, Prefix.beq_eq, Word.beq_eq, Prefix.start,
      Word.blank]
  have hrun : runAll [(⟨Source.counter, 0⟩, .text "one Two\ntwo ONE")] (new {} 0) =
      some { new {} 0 with graph := Graph.ofRecords (textRecords 0 "one Two\ntwo ONE") } :=
    runAll_text_of_fits (by decide)
  rw [htext] at hrun
  obtain ⟨s, hstats, -, S, -, -, hmax, -⟩ := summary_spec ⟨_, _, _, hrun⟩
  refine ⟨_, hrun, s, hstats, ?_, hmax⟩
  have S : s.Summarizes inBags := hrecords ▸ S
  have hfold : fold "" = "" ∧ fold "one" = "one" ∧ fold "two" = "two" ∧ fold "Two" = "two" ∧
      fold "ONE" = "one" := by
    simp only [← String.toList_inj, toList_fold]
    decide
  obtain ⟨hblank, hone, htwo, hTwo, hONE⟩ := hfold
  have htimes : ∀ r ∈ inBags, timesRecorded inBags r.2.word.text = 2 := by
    simp [inBags, timesRecorded, hone, htwo, hTwo, hONE]
  have hword : s.mostCommonWord = some "one" := by
    refine (S.mostCommonWord_eq_some "one").2 ⟨[], _, _, rfl, rfl, ?_, ?_, ?_⟩
    · exact List.forall_mem_nil _
    · intro r hr
      rw [htimes r hr, htimes (.start, ⟨⟨"one"⟩, false, 0⟩) List.mem_cons_self]
    · exact List.forall_mem_nil _
  have hwords : s.wordCount = 2 := by
    rw [S.wordCount]
    simp only [inBags, List.map_cons, List.map_nil, hone, htwo, hTwo, hONE]
    decide
  have htransitions : s.transitions = 4 := by
    rw [S.transitions]
    simp only [inBags, List.map_cons, List.map_nil, Prefix.folded, Prefix.start, Word.blank, hblank,
      hone, htwo, hTwo, hONE]
    decide
  have hprefixes : s.prefixes = 3 := by
    rw [S.prefixes]
    simp only [inBags, List.map_cons, List.map_nil, Prefix.folded, Prefix.start, Word.blank, hblank,
      hone, htwo]
    decide
  have hstarts : s.startPrefixes = 3 := by
    have hfilter : (inBags.filter fun r => r.1.older.text = "" ∧ r.1.newer.text ≠ "") =
      [(⟨.blank, ⟨"one"⟩⟩, ⟨⟨"Two"⟩, true, 0⟩), (⟨.blank, ⟨"two"⟩⟩, ⟨⟨"ONE"⟩, true, 0⟩)] := by rfl
    rw [S.startPrefixes, hfilter]
    simp only [List.map_cons, List.map_nil, Prefix.folded, Word.blank, hblank, hone, htwo]
    decide
  have hcount : s.records = 4 := S.records
  cases s
  simp only [Stats.mk.injEq]
  exact ⟨hwords, htransitions, hcount, hprefixes, hstarts, hword⟩

end Generator

end Chain

end ChainScript
