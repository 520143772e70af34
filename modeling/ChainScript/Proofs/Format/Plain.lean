import ChainScript.Proofs.Generator.Ageing
import ChainScript.Proofs.Text.Folding

/-!
# Storing and loading text files

A text file keeps its fields apart with tabs and its records with newlines, and escapes neither.
So a file gives its records back where no word holds one of the two, and in no other case: what is
read from a text file never does.  Words that were learned from text, or read from text files,
hold neither; only a binary file brings in others.

## Main definitions

* `Plain`, `Record.Plain` — a text and the words of a record without tabs and newlines.
* `Graph.Redated` — a graph is another one with all its records created at one time.
* `Command.ReadsText` — a command that loads no binary file.

## Main results

* `Text.splitAt_intercalate`, `Text.intercalate_splitAt` — cutting at separators and joining again.
* `TextFormat.read_write` — plain records are read as they were written.
* `Generator.text_round_trip` — when a text file gives a graph back.
-/

namespace ChainScript.Text

/-- The text can stand in a field of a line: it holds no tab and no newline. -/
def Plain (s : String) : Prop := ∀ c ∈ s.toList, c ≠ '\t' ∧ c ≠ '\n'

instance (s : String) : Decidable (Plain s) :=
  inferInstanceAs (Decidable (∀ c ∈ s.toList, c ≠ '\t' ∧ c ≠ '\n'))

theorem plain_empty : Plain "" := by simp [Plain]

/-- Case does not matter to separators. -/
theorem plain_fold {s : String} : Plain (fold s) ↔ Plain s := by
  rw [Plain, Plain, toList_fold, List.forall_mem_map]
  refine forall₂_congr fun c _ => ?_
  rw [ne_eq, ne_eq, toLower_eq_iff (by decide), toLower_eq_iff (by decide)]

/-- Words of a line are plain. -/
theorem plain_of_mem_words {line w : String} (hw : w ∈ words line) : Plain w := by
  intro c hc
  have hblank := not_isBlank_of_mem_words hw c hc
  constructor <;> (rintro rfl; exact absurd hblank (by decide))

/-! ### Pieces -/

section Pieces

variable {p : Char → Bool} {cs : List Char}

/-- Without a separator there is one piece. -/
theorem piecesBy_of_forall (h : ∀ c ∈ cs, p c = false) : piecesBy p cs = [cs] := by
  induction cs with
  | nil => rfl
  | cons c cs ih =>
      obtain ⟨hc, hcs⟩ := List.forall_mem_cons.1 h
      rw [piecesBy_cons, hc, ih hcs]
      rfl

/-- The first piece ends at the first separator. -/
theorem piecesBy_append_cons (h : ∀ c ∈ cs, p c = false) {sep : Char} (hsep : p sep = true)
    (rest : List Char) : piecesBy p (cs ++ sep :: rest) = cs :: piecesBy p rest := by
  induction cs with
  | nil =>
      rw [List.nil_append, piecesBy_cons, if_pos hsep]
  | cons c cs ih =>
      obtain ⟨hc, hcs⟩ := List.forall_mem_cons.1 h
      rw [List.cons_append, piecesBy_cons, hc, ih hcs]
      rfl

/-- Pieces hold no separators, and nothing but what was cut. -/
theorem of_mem_piecesBy {piece : List Char} (h : piece ∈ piecesBy p cs) {c : Char}
    (hc : c ∈ piece) : c ∈ cs ∧ p c = false := by
  have hflat : c ∈ (piecesBy p cs).flatten := List.mem_flatten.2 ⟨piece, h, hc⟩
  rw [flatten_piecesBy] at hflat
  simpa using List.mem_filter.1 hflat

section Separator

variable {sep : Char} {s : String} (hs : s.toList = [sep])
include hs

/-- Pieces without a separator can be read back from the text that they make with separators
between them. -/
theorem splitAt_intercalate {ls : List String} (hne : ls ≠ []) (h : ∀ l ∈ ls, sep ∉ l.toList) :
    splitAt sep (s.intercalate ls) = ls := by
  have hpiece : ∀ l : String, sep ∉ l.toList → ∀ c ∈ l.toList, (c == sep) = false :=
    fun l hl c hc => beq_eq_false_iff_ne.2 (ne_of_mem_of_not_mem hc hl)
  induction ls with
  | nil => exact absurd rfl hne
  | cons l ls ih =>
      obtain ⟨hl, hls⟩ := List.forall_mem_cons.1 h
      cases ls with
      | nil =>
          rw [String.intercalate_singleton, splitAt, piecesBy_of_forall (hpiece l hl)]
          simp
      | cons l' ls =>
          have htext : (s.intercalate (l :: l' :: ls)).toList =
              l.toList ++ sep :: (s.intercalate (l' :: ls)).toList := by
            rw [String.intercalate_cons_cons]
            simp [hs]
          have hrest := ih (List.cons_ne_nil l' ls) hls
          rw [splitAt, htext, piecesBy_append_cons (hpiece l hl) (beq_self_eq_true sep),
            List.map_cons, String.ofList_toList, ← splitAt, hrest]

/-- A text is made of its pieces. -/
theorem intercalate_splitAt (text : String) : s.intercalate (splitAt sep text) = text := by
  have hjoin : ∀ cs, (s.intercalate ((piecesBy (· == sep) cs).map String.ofList)).toList = cs := by
    intro cs
    induction cs with
    | nil => simp
    | cons c cs ih =>
        obtain ⟨piece, pieces, hpieces⟩ :=
          List.exists_cons_of_ne_nil (piecesBy_ne_nil (· == sep) cs)
        rw [hpieces, List.map_cons] at ih
        rw [piecesBy_cons, hpieces]
        by_cases hc : c = sep
        · rw [if_pos (beq_iff_eq.2 hc), List.map_cons, List.map_cons,
            String.intercalate_cons_cons, String.toList_append, ih]
          simp [hs, hc]
        · rw [if_neg (by simpa using hc)]
          cases pieces with
          | nil => simpa using ih
          | cons next rest => simpa [String.intercalate_cons_cons] using ih
  rw [← String.toList_inj]
  exact hjoin text.toList

end Separator

end Pieces

/-! ### Bytes -/

theorem bytes_append (s t : String) : bytes (s ++ t) = bytes s ++ bytes t := by
  rw [bytes_eq, bytes_eq, bytes_eq, String.toList_append, List.flatMap_append]

/-- The byte of a newline stands for a newline only. -/
theorem mem_bytes_newline {s : String} : 10 ∈ bytes s ↔ '\n' ∈ s.toList := by
  rw [bytes_eq, List.mem_flatMap]
  constructor
  · rintro ⟨c, hc, hbyte⟩
    obtain ⟨hlt, hone⟩ | ⟨-, hge⟩ := utf8EncodeChar_cases c
    · rw [hone, List.mem_singleton, ← UInt8.toNat_inj, UInt8.toNat_ofNat',
        Nat.mod_eq_of_lt (by omega)] at hbyte
      have hnewline : c = '\n' := by
        rw [← Char.ofNat_toNat c, ← hbyte]
        rfl
      exact hnewline ▸ hc
    · exact absurd (hge 10 hbyte) (by decide)
  · intro hc
    exact ⟨'\n', hc, by decide⟩

end ChainScript.Text

namespace ChainScript.Chain

open Text

/-! ### Lines of a stream -/

/-- The first piece ends at the first newline. -/
theorem newlinePieces_append_cons {line : List UInt8} (h : 10 ∉ line) (rest : List UInt8) :
    newlinePieces (line ++ 10 :: rest) = line :: newlinePieces rest := by
  induction line with
  | nil => rfl
  | cons b line ih =>
      obtain ⟨hb, hline⟩ := not_or.1 (mt List.mem_cons.2 h)
      have hstep : newlinePieces (b :: (line ++ 10 :: rest)) =
          (newlinePieces (line ++ 10 :: rest)).modifyHead (b :: ·) :=
        if_neg (Ne.symm hb)
      rw [List.cons_append, hstep, ih hline]
      rfl

/-- Pieces between newlines hold none. -/
theorem newline_not_mem_of_mem_newlinePieces {bs piece : List UInt8}
    (h : piece ∈ newlinePieces bs) : 10 ∉ piece := by
  induction bs generalizing piece with
  | nil =>
      obtain rfl := List.mem_singleton.1 h
      exact List.not_mem_nil
  | cons b bs ih =>
      have hstep : newlinePieces (b :: bs) =
          if b = 10 then [] :: newlinePieces bs else (newlinePieces bs).modifyHead (b :: ·) := rfl
      rw [hstep] at h
      split at h
      · rcases List.mem_cons.1 h with rfl | h
        · exact List.not_mem_nil
        · exact ih h
      · next hb =>
        cases hpieces : newlinePieces bs with
        | nil =>
            rw [hpieces] at h
            cases h
        | cons first rest =>
            rw [hpieces] at h ih
            rcases List.mem_cons.1 h with rfl | h
            · rw [List.mem_cons, not_or]
              exact ⟨Ne.symm hb, ih List.mem_cons_self⟩
            · exact ih (List.mem_cons_of_mem _ h)

theorem newline_not_mem_of_mem_rawLines {input : Input} {line : List UInt8}
    (h : line ∈ input.rawLines) : 10 ∉ line := by
  rw [Input.rawLines] at h
  split at h
  · exact newline_not_mem_of_mem_newlinePieces (List.mem_of_mem_dropLast h)
  · exact newline_not_mem_of_mem_newlinePieces h

/-- Lines that end in newlines are read one by one. -/
theorem rawLines_flatMap {lines : List (List UInt8)} (h : ∀ line ∈ lines, 10 ∉ line) :
    Input.rawLines ⟨lines.flatMap (· ++ [10]), none⟩ = lines := by
  have hpieces : newlinePieces (lines.flatMap (· ++ [10])) = lines ++ [[]] := by
    induction lines with
    | nil => rfl
    | cons line lines ih =>
        obtain ⟨hline, hlines⟩ := List.forall_mem_cons.1 h
        rw [List.flatMap_cons, List.append_assoc, List.singleton_append,
          newlinePieces_append_cons hline, ih hlines, List.cons_append]
  simp [Input.rawLines, hpieces]

/-! ### Records of a text file -/

/-- The words of the record hold no tab and no newline. -/
def Record.Plain (r : Record) : Prop := ∀ w ∈ [r.1.older, r.1.newer, r.2.word], Text.Plain w.text

instance (r : Record) : Decidable (Record.Plain r) :=
  inferInstanceAs (Decidable (∀ w ∈ [r.1.older, r.1.newer, r.2.word], Text.Plain w.text))

theorem Record.plain_iff {r : Record} :
    r.Plain ↔ Text.Plain r.1.older.text ∧ Text.Plain r.1.newer.text ∧
      Text.Plain r.2.word.text := by
  simp [Record.Plain]

/-- The suffix as if it had been created at `now`. -/
def Suffix.dated (now : Instant) (s : Suffix) : Suffix := { s with createdAt := now }

/-- The record as if it had been created at `now`. -/
def Record.dated (now : Instant) (r : Record) : Record := (r.1, r.2.dated now)

namespace TextFormat

/-- The line of a record, without its newline. -/
def line (r : Record) : String :=
  r.1.older.text ++ "\t" ++ r.1.newer.text ++ "\t" ++ r.2.word.text ++ "\t" ++
    flagDigit r.2.terminal

variable {now : Instant} {r : Record} {rs : List Record}

theorem toList_line (r : Record) : (line r).toList =
    r.1.older.text.toList ++ '\t' :: (r.1.newer.text.toList ++
      '\t' :: (r.2.word.text.toList ++ '\t' :: (flagDigit r.2.terminal).toList)) := by
  simp [line]

theorem plain_flagDigit (terminal : Bool) : Text.Plain (flagDigit terminal) := by
  intro c hc
  have hdigit : (flagDigit terminal).toList = [if terminal then '1' else '0'] := by
    cases terminal <;> rfl
  rw [hdigit, List.mem_singleton] at hc
  rw [hc]
  cases terminal <;> decide

/-- The line of a plain record has its words and its flag as fields. -/
theorem splitAt_line (h : r.Plain) : splitAt '\t' (line r) =
    [r.1.older.text, r.1.newer.text, r.2.word.text, flagDigit r.2.terminal] := by
  have hfield : ∀ {s : String}, Text.Plain s → ∀ c ∈ s.toList, (c == '\t') = false :=
    fun hs c hc => by simpa using (hs c hc).1
  obtain ⟨holder, hnewer, hword⟩ := Record.plain_iff.1 h
  have hflag : Text.Plain (flagDigit r.2.terminal) := plain_flagDigit _
  rw [splitAt, toList_line, piecesBy_append_cons (hfield holder) rfl,
    piecesBy_append_cons (hfield hnewer) rfl, piecesBy_append_cons (hfield hword) rfl,
    piecesBy_of_forall (hfield hflag)]
  simp

/-- A line ends in its flag, so nothing is cut off its end. -/
theorem trimEnds_line (r : Record) : trimEnds (line r) = line r := by
  have hlast : ∃ c, (flagDigit r.2.terminal).toList = [c] ∧ (c == '\r' || c == '\n') = false := by
    cases r.2.terminal
    · exact ⟨'0', rfl, rfl⟩
    · exact ⟨'1', rfl, rfl⟩
  obtain ⟨c, hflag, hc⟩ := hlast
  obtain ⟨front, hfront⟩ : ∃ front, (line r).toList = front ++ [c] :=
    ⟨r.1.older.text.toList ++ '\t' :: (r.1.newer.text.toList ++
      '\t' :: (r.2.word.text.toList ++ ['\t'])), by rw [toList_line, hflag]; simp⟩
  have hreverse : (line r).toList.reverse = c :: front.reverse := by
    rw [hfront, List.reverse_append]
    rfl
  rw [trimEnds, hreverse, List.dropWhile_cons_of_neg (by simpa using hc), ← hreverse,
    List.reverse_reverse, String.ofList_toList]

/-- The line of a plain record is read as the record. -/
theorem parseLine_line (h : r.Plain) (number : Nat) :
    parseLine now number (line r) = .ok (some (r.dated now)) := by
  have hsome : (line r).isEmpty = false := by
    rw [← Bool.not_eq_true, String.isEmpty_iff]
    intro hempty
    have hlist := toList_line r
    rw [hempty] at hlist
    simp at hlist
  have hflag : flag? (flagDigit r.2.terminal) = some r.2.terminal := by
    cases r.2.terminal <;> rfl
  simp only [parseLine, trimEnds_line, hsome, splitAt_line h, hflag]
  rfl

/-- The lines of plain records are read as the records. -/
theorem readLines_map_line (h : ∀ r ∈ rs, Record.Plain r) (number : Nat) (found : List Record) :
    readLines now number (rs.map (bytes ∘ line)) found =
      .ok (found.reverse ++ rs.map (Record.dated now)) := by
  induction rs generalizing number found with
  | nil => simp [readLines]
  | cons r rs ih =>
      obtain ⟨hr, hrs⟩ := List.forall_mem_cons.1 h
      have hdecode : decode? (bytes (line r)) = some (line r) := decode?_eq_some_iff.2 rfl
      rw [List.map_cons, readLines, Function.comp_apply, hdecode]
      simp only [parseLine_line hr]
      rw [ih hrs, List.reverse_cons, List.map_cons, List.append_assoc, List.singleton_append]

theorem writeRecord_eq (r : Record) : bytes (writeRecord r) = bytes (line r) ++ [10] := by
  have hline : writeRecord r = line r ++ "\n" := rfl
  rw [hline, bytes_append]
  rfl

/-- **Plain records are read as they were written**, each created when it is read. -/
theorem read_write (h : ∀ r ∈ rs, Record.Plain r) :
    read now ⟨write rs, none⟩ = .ok (rs.map (Record.dated now)) := by
  have hlines : ∀ l ∈ rs.map (bytes ∘ line), 10 ∉ l := by
    rw [List.forall_mem_map]
    intro r hr
    obtain ⟨holder, hnewer, hword⟩ := Record.plain_iff.1 (h r hr)
    rw [Function.comp_apply, mem_bytes_newline, toList_line]
    have hflag : '\n' ∉ (flagDigit r.2.terminal).toList :=
      fun hc => (plain_flagDigit _ _ hc).2 rfl
    simp only [List.mem_append, List.mem_cons, not_or]
    exact ⟨fun hc => (holder _ hc).2 rfl, by decide, fun hc => (hnewer _ hc).2 rfl, by decide,
      fun hc => (hword _ hc).2 rfl, by decide, hflag⟩
  have hwrite : write rs = (rs.map (bytes ∘ line)).flatMap (· ++ [10]) := by
    rw [write, List.flatMap_map]
    exact List.flatMap_congr fun r _ => writeRecord_eq r
  rw [read, hwrite, rawLines_flatMap hlines, readLines_map_line h]
  rfl

/-- What is read from a text file is plain. -/
theorem plain_of_read {input : Input} (h : read now input = .ok rs) (hr : r ∈ rs) : r.Plain := by
  obtain ⟨l, hl, text, n, hdecode, hparse⟩ := mem_read h hr
  obtain ⟨a, b, word, flag, terminal, hfields, -, rfl⟩ := parseLine_eq_some hparse
  have hnewline : '\n' ∉ text.toList := by
    rw [← mem_bytes_newline, decode?_eq_some_iff.1 hdecode]
    exact newline_not_mem_of_mem_rawLines hl
  have hfield : ∀ s ∈ splitAt '\t' (trimEnds text), Text.Plain s := by
    intro s hs c hc
    obtain ⟨piece, hpiece, rfl⟩ := List.mem_map.1 hs
    rw [String.toList_ofList] at hc
    obtain ⟨hmem, htab⟩ := of_mem_piecesBy hpiece hc
    refine ⟨by simpa using htab, ?_⟩
    rintro rfl
    rw [trimEnds, String.toList_ofList, List.mem_reverse] at hmem
    exact hnewline (List.mem_reverse.1 ((List.dropWhile_sublist _).mem hmem))
  rw [hfields] at hfield
  rw [Record.plain_iff]
  exact ⟨hfield a (by simp), hfield b (by simp), hfield word (by simp)⟩

end TextFormat

/-! ### Graphs -/

/-- The case of prefixes does not matter to separators. -/
theorem Record.Plain.of_foldedRecord_eq (r r' : Record) (h : foldedRecord r = foldedRecord r')
    (hplain : Record.Plain r') : r.Plain := by
  obtain ⟨hfolds, hsuffix⟩ := Prod.mk.inj h
  obtain ⟨holder, hnewer⟩ := Prod.mk.inj hfolds
  rw [Record.plain_iff, ← plain_fold, ← holder, plain_fold,
    ← plain_fold (s := r'.1.newer.text), ← hnewer, plain_fold, ← hsuffix] at hplain
  exact Record.plain_iff.2 hplain

namespace Graph

variable {now : Instant} {g h k : Graph}

/-- The second graph is the first one with every record created at `now`. -/
structure Redated (now : Instant) (g h : Graph) : Prop where
  entries : h.bags.entries = g.bags.entries.map fun e => (e.1, e.2.map (Suffix.dated now))
  mem_starts : ∀ p, p ∈ h.starts.members ↔ p ∈ g.starts.members

theorem Redated.same (R : g.Redated now h) (S : k.Same h) : g.Redated now k :=
  ⟨S.entries.trans R.entries, fun p => (S.mem_starts p).trans (R.mem_starts p)⟩

theorem flatMap_bagRecords_dated (es : List (Prefix × Array Suffix)) :
    (es.map fun e => (e.1, e.2.map (Suffix.dated now))).flatMap bagRecords =
      (es.flatMap bagRecords).map (Record.dated now) := by
  rw [List.flatMap_map, List.map_flatMap]
  refine List.flatMap_congr fun e _ => ?_
  simp [bagRecords, Record.dated]

theorem Redated.records_eq (R : g.Redated now h) :
    h.records = g.records.map (Record.dated now) := by
  rw [Graph.records_eq, Graph.records_eq, R.entries, flatMap_bagRecords_dated]

/-- The records of a consistent graph make it again, also with other times. -/
theorem Consistent.redated_ofRecords (C : g.Consistent) :
    g.Redated now (ofRecords (g.records.map (Record.dated now))) := by
  have D := (built_ofRecords (g.records.map (Record.dated now))).consistent
  have hentries : (ofRecords (g.records.map (Record.dated now))).bags.entries =
      g.bags.entries.map fun e => (e.1, e.2.map (Suffix.dated now)) := by
    rw [records_eq, ← flatMap_bagRecords_dated]
    refine entries_ofRecords_flatMap ?_ ?_
    · rw [List.map_map]
      exact g.bags.distinct_entries
    · rw [List.forall_mem_map]
      intro e he
      rw [Array.size_map]
      exact C.size_pos _ (List.mem_map_of_mem he)
  refine ⟨hentries, fun p => ?_⟩
  by_cases hp : p.isStart = true
  · rw [Prefix.isStart_iff.1 hp]
    exact iff_of_true D.start_mem C.start_mem
  · have hp : p.isStart = false := by simpa using hp
    rw [D.mem_starts p hp, C.mem_starts p hp, mem_keys, mem_keys, hentries]
    simp only [List.mem_map, exists_exists_and_eq_and]

theorem store_text {sink : Sink} (hsink : sink.failure? (g.render .text).bytes = none) :
    g.store .text sink = ⟨TextFormat.write g.records, .ok g.count⟩ := by
  have hrender : g.render .text = ⟨TextFormat.write g.records, none⟩ := rfl
  rw [hrender] at hsink
  simp only [store, hrender, hsink, Sink.takes_of_failure?_none hsink]

end Graph

/-! ### What is learned -/

/-- The command loads no binary file. -/
def Command.ReadsText (command : Command) : Prop := ∀ input, command ≠ .load .binary input

theorem plain_lineRecords {now : Instant} {p : Prefix} {ws : List String}
    (holder : Text.Plain p.older.text) (hnewer : Text.Plain p.newer.text)
    (hws : ∀ w ∈ ws, Text.Plain w) : ∀ r ∈ lineRecords now p ws, Record.Plain r := by
  induction ws generalizing p with
  | nil => exact fun _ hr => absurd hr List.not_mem_nil
  | cons w ws ih =>
      obtain ⟨hw, hws⟩ := List.forall_mem_cons.1 hws
      rw [lineRecords, List.forall_mem_cons]
      exact ⟨Record.plain_iff.2 ⟨holder, hnewer, hw⟩, ih hnewer hw hws⟩

theorem plain_observedLines {now : Instant} {ls : List String} {r : Record}
    (hr : r ∈ ls.flatMap fun line => observedLine now (words line)) : r.Plain := by
  obtain ⟨line, -, hr⟩ := List.mem_flatMap.1 hr
  rw [← lineRecords_words] at hr
  exact plain_lineRecords plain_empty plain_empty (fun _ => plain_of_mem_words) r hr

/-- One command that reads text introduces plain records only. -/
theorem Command.plain_introduced {env : Env} {command : Command} {rs : List Record}
    (hcommand : command.ReadsText) (h : ∀ r ∈ rs, Record.Plain r) :
    ∀ r ∈ command.introduced env rs, Record.Plain r := by
  cases command with
  | text learned | reader input =>
      intro r hr
      rw [introduced] at hr
      exact (List.mem_append.1 hr).elim (h r) plain_observedLines
  | load format input =>
      rw [introduced]
      split
      · next loaded hread =>
        cases format with
        | text => exact fun r hr => TextFormat.plain_of_read hread hr
        | binary => exact absurd rfl (hcommand input)
        | dot => cases hread
      · exact h
  | clear => exact fun _ hr => absurd hr List.not_mem_nil
  | _ => exact h

namespace Generator

variable {env : Env} {g g' : Generator}

/-- A run that reads text leaves plain records only. -/
theorem plain_of_runAll {steps : List (Env × Command)} {config : Config} {now : Instant}
    (hsteps : ∀ step ∈ steps, step.2.ReadsText) (h : runAll steps (new config now) = some g) :
    ∀ r ∈ g.graph.records, Record.Plain r := by
  refine forall_records_of_runAll Record.Plain.of_foldedRecord_eq (fun step hstep rs hrs => ?_) h
  exact Command.plain_introduced (hsteps step hstep) hrs

/-- The text file of plain records is loaded as the graph they come from. -/
theorem exists_load_text (env : Env) {t : Generator} (C : g.graph.Consistent)
    (hroom : g.graph.count ≤ t.config.maxSize) (h : ∀ r ∈ g.graph.records, Record.Plain r) :
    ∃ t', t.load env .text ⟨TextFormat.write g.graph.records, none⟩ =
        some (.ok g.graph.count, t') ∧ g.graph.Redated env.now t'.graph := by
  have R : g.graph.Redated env.now (Graph.ofRecords (g.graph.records.map (Record.dated env.now))) :=
    C.redated_ofRecords
  have D := (Graph.built_ofRecords (g.graph.records.map (Record.dated env.now))).consistent
  have hcount : (Graph.ofRecords (g.graph.records.map (Record.dated env.now))).count =
      g.graph.count := by
    rw [Graph.count_ofRecords, List.length_map, Graph.length_records, C.count_eq]
  obtain ⟨n, t', hsweep, S, hsize⟩ := sweep_of_fits env
    (g := { t with graph := Graph.ofRecords (g.graph.records.map (Record.dated env.now)) }) D
    (hcount.trans_le hroom) (.inr (by
      rw [R.records_eq, List.forall_mem_map]
      exact fun r _ => Instant.back_le env.now t.config.maxAge))
  have hload : Graph.load .text env.now ⟨TextFormat.write g.graph.records, none⟩ =
      .ok (Graph.ofRecords (g.graph.records.map (Record.dated env.now))) := by
    rw [Graph.load, readRecords, TextFormat.read_write h]
    rfl
  refine ⟨t', ?_, R.same S⟩
  rw [load, hload, ← hcount, ← hsize]
  exact Option.bind_eq_some_iff.2 ⟨_, hsweep, rfl⟩

/-- **A text file gives its graph back just when no word holds a separator.**  Then any generator
with room for the records loads the same bags in the same order and the same starts, each
record created at the time of the load.  Whatever has been learned from text, or loaded from
text files, holds no separators. -/
theorem text_round_trip {sink : Sink} (hg : g.Reachable)
    (hsink : sink.failure? (g.graph.render .text).bytes = none) :
    (g.graph.store .text sink).outcome = .ok g.graph.count ∧
    (∀ (env : Env) (t : Generator), g.graph.count ≤ t.config.maxSize →
      ((∃ n t', t.load env .text ⟨(g.graph.store .text sink).taken, none⟩ = some (.ok n, t') ∧
          g.graph.Redated env.now t'.graph) ↔
        ∀ r ∈ g.graph.records, ∀ w ∈ [r.1.older, r.1.newer, r.2.word],
          '\t' ∉ w.text.toList ∧ '\n' ∉ w.text.toList)) ∧
    (∀ config now steps, (∀ step ∈ steps, step.2.ReadsText) →
      runAll steps (new config now) = some g →
      ∀ (env : Env) (t : Generator), g.graph.count ≤ t.config.maxSize →
        ∃ t', t.load env .text ⟨(g.graph.store .text sink).taken, none⟩ =
            some (.ok g.graph.count, t') ∧ g.graph.Redated env.now t'.graph) := by
  have C := hg.sound.built.consistent
  have hplain : ∀ r : Record, r.Plain ↔ ∀ w ∈ [r.1.older, r.1.newer, r.2.word],
      '\t' ∉ w.text.toList ∧ '\n' ∉ w.text.toList := by
    intro r
    refine forall₂_congr fun w _ => ?_
    exact ⟨fun h => ⟨fun hc => (h _ hc).1 rfl, fun hc => (h _ hc).2 rfl⟩,
      fun h c hc => ⟨ne_of_mem_of_not_mem hc h.1, ne_of_mem_of_not_mem hc h.2⟩⟩
  simp only [← hplain]
  rw [Graph.store_text hsink]
  refine ⟨rfl, fun env t hroom => ⟨?_, fun h => ⟨_, exists_load_text env C hroom h⟩⟩,
    fun config now steps hsteps hrun env t hroom =>
      exists_load_text env C hroom (plain_of_runAll hsteps hrun)⟩
  rintro ⟨n, t', hload, R⟩
  obtain ⟨rs, m, hread, hsweep, -⟩ := sweep_of_load hload
  have hle : t'.graph.content ≤ contentOf rs :=
    Graph.content_ofRecords rs ▸ content_sweep_le (Graph.built_ofRecords rs) hsweep
  have hloaded := forall_of_content_le Record.Plain.of_foldedRecord_eq hle
    fun r hr => TextFormat.plain_of_read hread hr
  rw [R.records_eq, List.forall_mem_map] at hloaded
  exact hloaded

/-- Two lines of text come back, five milliseconds old words as new ones; a tab that was loaded
as a word does not. -/
theorem text_round_trip_two_lines :
    (∃ g t, runAll [(⟨Source.counter, 0⟩, .text "I am\ni AM")] (new {} 0) = some g ∧
      (new {} 0).load ⟨Source.counter, 5⟩ .text
        ⟨(g.graph.store .text .unlimited).taken, none⟩ = some (.ok 4, t) ∧
      g.graph.Redated 5 t.graph) ∧
    ∃ g, runAll [(⟨Source.counter, 0⟩, .load .binary
        ⟨[0x4d, 0x4b, 0x56, 0x31, 1, 0, 1, 0, 0, 0, 0, 0, 0, 0,
          0, 0, 0, 0, 1, 0, 0x09, 1, 0, 0, 0, 0, 0, 0, 0, 0], none⟩)] (new {} 0) = some g ∧
      ¬ ∃ n t, (new {} 0).load ⟨Source.counter, 5⟩ .text
        ⟨(g.graph.store .text .unlimited).taken, none⟩ = some (.ok n, t) ∧
        g.graph.Redated 5 t.graph := by
  constructor
  · have htext : (new {} 0).addText ⟨Source.counter, 0⟩ "I am\ni AM" = some
        { new {} 0 with graph := Graph.ofRecords (textRecords 0 "I am\ni AM") } :=
      addText_of_fits (by decide)
    have hcount : (Graph.ofRecords (textRecords 0 "I am\ni AM")).count = 4 := by
      rw [Graph.count_ofRecords]
      decide
    have hrun : runAll [(⟨Source.counter, 0⟩, .text "I am\ni AM")] (new {} 0) = some _ :=
      runAll_cons_of_run (run_text_of_addText htext)
    generalize Graph.ofRecords (textRecords 0 "I am\ni AM") = graph at hrun hcount
    obtain ⟨-, -, hreads⟩ := text_round_trip ⟨_, _, _, hrun⟩
      (rfl : Sink.unlimited.failure? _ = none)
    obtain ⟨t, hload, R⟩ := hreads {} 0 _
      (List.forall_mem_singleton.2 (fun _ h => by cases h)) hrun ⟨Source.counter, 5⟩ (new {} 0)
      (by rw [hcount]; decide)
    rw [hcount] at hload
    exact ⟨_, t, hrun, hload, R⟩
  · have hspells : BinaryFormat.SpellsFile _ [(Prefix.start, ⟨⟨"\t"⟩, true, 0⟩)] :=
      BinaryFormat.spellsFile_header (by decide) (by decide)
    have B := Graph.built_ofRecords [(Prefix.start, ⟨⟨"\t"⟩, true, 0⟩)]
    have hcount : (Graph.ofRecords [(Prefix.start, ⟨⟨"\t"⟩, true, 0⟩)]).count = 1 :=
      Graph.count_ofRecords _
    obtain ⟨n, g, hsweep, S, hsize⟩ := sweep_of_fits ⟨Source.counter, 0⟩
      (g := { new {} 0 with graph := Graph.ofRecords [(Prefix.start, ⟨⟨"\t"⟩, true, 0⟩)] })
      B.consistent (by rw [hcount]; decide) (.inl (by decide))
    have hrun : runAll [(⟨Source.counter, 0⟩, .load .binary ⟨_, none⟩)] (new {} 0) = some g :=
      runAll_cons_of_run (by rw [Command.run, load_of_spells hspells, hsweep]; rfl)
    refine ⟨g, hrun, fun hreads => ?_⟩
    obtain ⟨-, hiff, -⟩ := text_round_trip ⟨_, _, _, hrun⟩
      (rfl : Sink.unlimited.failure? _ = none)
    have hplain := (hiff ⟨Source.counter, 5⟩ (new {} 0)
      (by rw [hsize, hcount]; decide)).1 hreads (.start, ⟨⟨"\t"⟩, true, 0⟩)
      (by rw [S.records_eq, Graph.records_ofRecords]; simp [grouped, List.eraseDups_cons])
      ⟨"\t"⟩ (by simp)
    exact absurd hplain.1 (by decide)

end Generator

end ChainScript.Chain
