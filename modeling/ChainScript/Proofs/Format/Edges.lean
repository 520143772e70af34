import ChainScript.Proofs.Format.Nodes

/-!
# The edges of a drawing

A drawing is a list of lines, one for each edge, and a line has three quoted names.  Whatever the
names are, a quote or a backslash in them stands behind a backslash, so the line can be cut at the
quotes that do not, in one way only, and the names be read back without their escapes.  An edge
stands for all records with its prefix and its word, up to case; together the edges stand for
every record once.

## Main definitions

* `Sealed`, `CutInto` — texts without open quotes, and a line that is cut at its open quotes.
* `recordsOf` — the records of an edge.
* `Draws` — the line of an edge, as it is read back.

## Main results

* `cutInto_intercalate` — sealed pieces are the only ones of the line that they make.
* `length_eraseDups_edgeOf` — the edges of a graph, counted bag by bag.
* `edges_spec` — what is in the file of a drawing.
-/

namespace ChainScript.Chain.DotFormat

open Text

/-! ### Cutting at quotes -/

/-- No quote of the text is open: each stands behind a backslash that is not escaped itself, and
such a backslash has a character behind it. -/
inductive Sealed : List Char → Prop
  | nil : Sealed []
  | plain {c : Char} {cs : List Char} : c ≠ '"' → c ≠ '\\' → Sealed cs → Sealed (c :: cs)
  | escaped {c : Char} {cs : List Char} : Sealed cs → Sealed ('\\' :: c :: cs)

section Sealed

variable {as bs xs ys : List Char}

theorem sealed_of_forall (h : ∀ c ∈ as, c ≠ '"' ∧ c ≠ '\\') : Sealed as := by
  induction as with
  | nil => exact .nil
  | cons c cs ih =>
      obtain ⟨hc, hcs⟩ := List.forall_mem_cons.1 h
      exact .plain hc.1 hc.2 (ih hcs)

/-- Escapes leave no quote open. -/
theorem sealed_flatMap_escapeChar (cs : List Char) : Sealed (cs.flatMap escapeChar) := by
  induction cs with
  | nil => exact .nil
  | cons c cs ih =>
      rw [List.flatMap_cons, escapeChar]
      split
      · exact .escaped ih
      · next hc => exact .plain (fun h => hc (.inr h)) (fun h => hc (.inl h)) ih

/-- The first open quote is where a sealed text in front of one ends. -/
theorem Sealed.append_quote_inj (ha : Sealed as) (hb : Sealed bs)
    (h : as ++ '"' :: xs = bs ++ '"' :: ys) : as = bs ∧ xs = ys := by
  induction ha generalizing bs with
  | nil =>
      cases hb with
      | nil => exact ⟨rfl, (List.cons.inj h).2⟩
      | plain hquote => exact absurd (List.cons.inj h).1.symm hquote
      | escaped => cases (List.cons.inj h).1
  | plain hquote hslash _ ih =>
      cases hb with
      | nil => exact absurd (List.cons.inj h).1 hquote
      | plain _ _ hb =>
          obtain ⟨rfl, hrest⟩ := List.cons.inj h
          obtain ⟨rfl, rfl⟩ := ih hb hrest
          exact ⟨rfl, rfl⟩
      | escaped => exact absurd (List.cons.inj h).1 hslash
  | escaped _ ih =>
      cases hb with
      | nil => cases (List.cons.inj h).1
      | plain _ hslash => exact absurd (List.cons.inj h).1.symm hslash
      | escaped hb =>
          obtain ⟨rfl, hrest⟩ := List.cons.inj (List.cons.inj h).2
          obtain ⟨rfl, rfl⟩ := ih hb hrest
          exact ⟨rfl, rfl⟩

end Sealed

/-- The line is cut at its open quotes into the pieces, and cannot be cut otherwise. -/
def CutInto (line : String) (pieces : List String) : Prop :=
  ∀ ps, (ps ≠ [] ∧ (∀ p ∈ ps, Sealed p.toList) ∧ "\"".intercalate ps = line) ↔ ps = pieces

/-- Pieces with quotes between them and one more at the end. -/
theorem toList_intercalate_quote {ps : List String} (hne : ps ≠ []) :
    ("\"".intercalate ps).toList ++ ['"'] = ps.flatMap fun p => p.toList ++ ['"'] := by
  induction ps with
  | nil => exact absurd rfl hne
  | cons p ps ih =>
      cases ps with
      | nil => simp
      | cons q ps =>
          rw [String.intercalate_cons_cons, List.flatMap_cons, ← ih (List.cons_ne_nil _ _)]
          simp

theorem flatMap_quote_inj {ps qs : List String} (hp : ∀ p ∈ ps, Sealed p.toList)
    (hq : ∀ q ∈ qs, Sealed q.toList)
    (h : (ps.flatMap fun p => p.toList ++ ['"']) = qs.flatMap fun q => q.toList ++ ['"']) :
    ps = qs := by
  induction ps generalizing qs with
  | nil =>
      cases qs with
      | nil => rfl
      | cons q qs => simp at h
  | cons p ps ih =>
      cases qs with
      | nil => simp at h
      | cons q qs =>
          obtain ⟨hp, hps⟩ := List.forall_mem_cons.1 hp
          obtain ⟨hq, hqs⟩ := List.forall_mem_cons.1 hq
          rw [List.flatMap_cons, List.flatMap_cons, List.append_assoc, List.append_assoc] at h
          obtain ⟨htext, hrest⟩ := hp.append_quote_inj hq h
          rw [String.toList_inj.1 htext, ih hps hqs hrest]

/-- Sealed pieces are the only ones of the line that they make. -/
theorem cutInto_intercalate {pieces : List String} (hne : pieces ≠ [])
    (h : ∀ p ∈ pieces, Sealed p.toList) : CutInto ("\"".intercalate pieces) pieces := by
  intro ps
  constructor
  · rintro ⟨hps, hsealed, hline⟩
    refine flatMap_quote_inj hsealed h ?_
    rw [← toList_intercalate_quote hps, hline, toList_intercalate_quote hne]
  · rintro rfl
    exact ⟨hne, h, rfl⟩

/-! ### The line of an edge -/

/-- What a line says behind its last name. -/
def ending (stroke : Stroke) : String :=
  ", weight=" ++ toString stroke.weight ++ (if stroke.bold then ", style=bold" else "") ++ "];"

/-- The pieces of the line of an edge between its open quotes. -/
def pieces (g : Graph) (e : Edge) (stroke : Stroke) : List String :=
  ["  ", escape (nodeLabel e.source), " -> ", escape (nodeLabel (target g e)), " [label=",
    escape e.word.text, ending stroke]

theorem edgeLine_eq_intercalate (g : Graph) (e : Edge) (stroke : Stroke) :
    edgeLine g e stroke = "\"".intercalate (pieces g e stroke) ++ "\n" := by
  rw [← String.toList_inj]
  simp [edgeLine, pieces, quoted, target, ending, String.intercalate_cons_cons]

/-- A weight, a style and the brackets hold no quotes, backslashes and newlines. -/
theorem plain_ending (stroke : Stroke) :
    ∀ c ∈ (ending stroke).toList, c ≠ '"' ∧ c ≠ '\\' ∧ c ≠ '\n' := by
  intro c hc
  simp only [ending, String.toList_append, List.mem_append] at hc
  obtain ((hc | hc) | hc) | hc := hc
  · have hall : ∀ c ∈ ", weight=".toList, c ≠ '"' ∧ c ≠ '\\' ∧ c ≠ '\n' := by simp
    exact hall c hc
  · rw [Nat.toString_eq_repr, Nat.repr, String.toList_ofList] at hc
    have hdigit := Nat.isDigit_of_mem_toDigits (by decide) le_rfl hc
    refine ⟨?_, ?_, ?_⟩ <;> (rintro rfl; exact absurd hdigit (by decide))
  · have hall : ∀ c ∈ ", style=bold".toList, c ≠ '"' ∧ c ≠ '\\' ∧ c ≠ '\n' := by simp
    split at hc
    · exact hall c hc
    · cases hc
  · have hall : ∀ c ∈ "];".toList, c ≠ '"' ∧ c ≠ '\\' ∧ c ≠ '\n' := by simp
    exact hall c hc

/-- Every piece is sealed, whatever the names. -/
theorem sealed_pieces (g : Graph) (e : Edge) (stroke : Stroke) :
    ∀ p ∈ pieces g e stroke, Sealed p.toList := by
  have hescape (s : String) : Sealed (escape s).toList := by
    rw [escape, String.toList_ofList]
    exact sealed_flatMap_escapeChar _
  simp only [pieces, List.forall_mem_cons]
  refine ⟨?_, hescape _, ?_, hescape _, ?_, hescape _, ?_, List.forall_mem_nil _⟩
  · exact sealed_of_forall (by simp)
  · exact sealed_of_forall (by simp)
  · exact sealed_of_forall (by simp)
  · refine sealed_of_forall fun c hc => ?_
    obtain ⟨hquote, hslash, -⟩ := plain_ending stroke c hc
    exact ⟨hquote, hslash⟩

/-! ### Lines without newlines -/

/-- A character that no piece and no separator holds is not in the text that they make. -/
theorem not_mem_intercalate {c : Char} {s : String} {ls : List String} (hs : c ∉ s.toList)
    (h : ∀ l ∈ ls, c ∉ l.toList) : c ∉ (s.intercalate ls).toList := by
  induction ls with
  | nil => simp
  | cons l ls ih =>
      obtain ⟨hl, hls⟩ := List.forall_mem_cons.1 h
      cases ls with
      | nil => rwa [String.intercalate_singleton]
      | cons l' ls =>
          rw [String.intercalate_cons_cons, String.toList_append, String.toList_append,
            List.mem_append, List.mem_append]
          exact not_or.2 ⟨not_or.2 ⟨hl, hs⟩, ih hls⟩

/-- The words of the prefix hold no newline. -/
def OneLine (p : Prefix) : Prop := '\n' ∉ p.older.text.toList ∧ '\n' ∉ p.newer.text.toList

theorem newline_not_mem_nodeLabel {p : Prefix} (h : OneLine p) : '\n' ∉ (nodeLabel p).toList := by
  rw [nodeLabel]
  split
  · simp
  · refine not_mem_intercalate (by simp) ?_
    rw [List.forall_mem_map]
    intro w hw
    have hword : w = p.older ∨ w = p.newer := by simpa using (List.mem_filter.1 hw).1
    obtain rfl | rfl := hword
    · exact h.1
    · exact h.2

theorem newline_not_mem_escape {s : String} (h : '\n' ∉ s.toList) : '\n' ∉ (escape s).toList := by
  rw [escape, String.toList_ofList, List.mem_flatMap]
  rintro ⟨c, hc, hmem⟩
  rw [escapeChar] at hmem
  have hne : '\n' ≠ c := (ne_of_mem_of_not_mem hc h).symm
  split at hmem <;> simp [hne] at hmem

variable {g : Graph} {e : Edge}

/-- An edge leads to a prefix of the words of a record, or of its own. -/
theorem oneLine_target (C : g.Consistent) (h : ∀ r ∈ g.records, OneLine r.1)
    (hsource : OneLine e.source) (hword : '\n' ∉ e.word.text.toList) : OneLine (target g e) := by
  rw [target]
  cases hkey : g.key? (e.source.shift e.word) with
  | none => exact ⟨hsource.2, hword⟩
  | some p =>
      obtain ⟨r, hr, rfl⟩ := C.exists_record (Graph.key?_eq_some_iff.1 hkey).1
      exact h r hr

theorem newline_not_mem_line (C : g.Consistent) (h : ∀ r ∈ g.records, OneLine r.1)
    (hsource : OneLine e.source) (hword : '\n' ∉ e.word.text.toList) (stroke : Stroke) :
    '\n' ∉ ("\"".intercalate (pieces g e stroke)).toList := by
  refine not_mem_intercalate (by simp) ?_
  simp only [pieces, List.forall_mem_cons]
  refine ⟨by simp, newline_not_mem_escape (newline_not_mem_nodeLabel hsource), by simp,
    newline_not_mem_escape (newline_not_mem_nodeLabel (oneLine_target C h hsource hword)), by simp,
    newline_not_mem_escape hword, fun hmem => (plain_ending stroke _ hmem).2.2 rfl,
    List.forall_mem_nil _⟩

/-! ### The records of an edge -/

/-- The records that an edge stands for: those with its prefix and its word, up to case. -/
def recordsOf (g : Graph) (e : Edge) : List Record := g.records.filter (edgeOf · == e)

/-- An edge is drawn by the number of its records and whether one of them is terminal. -/
def strokeOf (g : Graph) (e : Edge) : Stroke :=
  ⟨(recordsOf g e).length, (recordsOf g e).any (·.2.terminal)⟩

theorem entries_edges (g : Graph) : (edges g.records).entries =
    (g.records.map edgeOf).eraseDups.map fun e => (e, strokeOf g e) := by
  have hfold : ∀ (rs : List Record) (stroke : Stroke),
      rs.foldl (fun stroke r => ⟨stroke.weight + 1, stroke.bold || r.2.terminal⟩) stroke =
        ⟨stroke.weight + rs.length, stroke.bold || rs.any (·.2.terminal)⟩ := by
    intro rs
    induction rs with
    | nil => exact fun _ => by simp
    | cons r rs ih =>
        intro stroke
        rw [List.foldl_cons, ih]
        simp [Bool.or_assoc, Nat.add_assoc, Nat.add_comm 1]
  refine (Table.entries_foldl_update edgeOf (⟨0, false⟩ : Stroke)
    (fun r stroke => ⟨stroke.weight + 1, stroke.bold || r.2.terminal⟩) g.records).trans ?_
  refine List.map_congr_left fun e _ => ?_
  rw [hfold, strokeOf, recordsOf, Nat.zero_add, Bool.false_or]

/-! ### Counting edges -/

/-- The edges of different prefixes are different, so the edges of a graph are those of its
bags. -/
theorem eraseDups_edgeOf_flatMap {es : List (Prefix × Array Suffix)}
    (hd : Distinct (es.map Prod.fst)) :
    ((es.flatMap bagRecords).map edgeOf).eraseDups =
      es.flatMap fun e => (e.2.toList.map (·.word)).eraseDups.map (Edge.mk e.1) := by
  induction es with
  | nil => rfl
  | cons e es ih =>
      obtain ⟨hne, hes⟩ := List.pairwise_cons.1 hd
      have hbag : ((bagRecords e).map edgeOf).eraseDups =
          (e.2.toList.map (·.word)).eraseDups.map (Edge.mk e.1) := by
        rw [← eraseDups_map, bagRecords, List.map_map, List.map_map]
        · rfl
        · intro a b
          rw [Edge.beq_eq, BEq.rfl, Bool.true_and]
      have hapart : ∀ k ∈ (bagRecords e).map edgeOf, ∀ l ∈ (es.flatMap bagRecords).map edgeOf,
          (k == l) = false := by
        intro k hk l hl
        obtain ⟨r, hr, rfl⟩ := List.mem_map.1 hk
        obtain ⟨s, -, rfl⟩ := List.mem_map.1 hr
        obtain ⟨r', hr', rfl⟩ := List.mem_map.1 hl
        obtain ⟨e', he', hr'⟩ := List.mem_flatMap.1 hr'
        obtain ⟨s', -, rfl⟩ := List.mem_map.1 hr'
        rw [Edge.beq_eq, Bool.and_eq_false_iff]
        exact .inl (hne _ (List.mem_map_of_mem he'))
      rw [List.flatMap_cons, List.map_append, eraseDups_append_of_forall_ne hapart, ih hes, hbag,
        List.flatMap_cons]

/-- The edges of a graph are counted bag by bag. -/
theorem length_eraseDups_edgeOf (g : Graph) :
    (g.records.map edgeOf).eraseDups.length = g.stats.transitions := by
  have hwords (bag : Array Suffix) :
      distinctWords bag = (bag.toList.map (·.word)).eraseDups.length := by
    rw [distinctWords, Roster.size, ← Array.length_toList, Roster.toList_ofList]
  have htransitions : g.stats.transitions = (g.bags.values.toList.map distinctWords).sum := rfl
  rw [htransitions, ← Table.map_snd_entries, List.map_map, Graph.records_eq,
    eraseDups_edgeOf_flatMap g.bags.distinct_entries, List.length_flatMap]
  simp only [List.length_map, Function.comp_def, hwords]

/-! ### The file of a drawing -/

/-- The line is that of the edge: it is cut at its open quotes in one way, and its names are,
without their escapes, the labels of the two ends and the word. -/
def Draws (g : Graph) (e : Edge) (line : String) : Prop :=
  ∃ source next word : String,
    CutInto line ["  ", source, " -> ", next, " [label=", word,
      ", weight=" ++ toString (recordsOf g e).length ++
        (if ∃ r ∈ recordsOf g e, r.2.terminal = true then ", style=bold" else "") ++ "];"] ∧
    unescape source.toList = (nodeLabel e.source).toList ∧
    unescape next.toList = (nodeLabel (target g e)).toList ∧
    unescape word.toList = e.word.text.toList

theorem draws_pieces (g : Graph) (e : Edge) :
    Draws g e ("\"".intercalate (pieces g e (strokeOf g e))) := by
  have hescape (s : String) : unescape (escape s).toList = s.toList := by
    rw [escape, String.toList_ofList, unescape_flatMap_escapeChar]
  have hcut := cutInto_intercalate (List.cons_ne_nil _ _) (sealed_pieces g e (strokeOf g e))
  refine ⟨_, _, _, ?_, hescape _, hescape _, hescape _⟩
  simpa only [pieces, ending, strokeOf, List.any_eq_true] using hcut

/-- The lines of the edges, in the order of their first records. -/
def drawn (g : Graph) : List String :=
  (g.records.map edgeOf).eraseDups.map fun e => "\"".intercalate (pieces g e (strokeOf g e))

/-- A drawing is its lines, each with a newline behind it. -/
theorem drawing_eq (g : Graph) : drawing g =
    (["digraph markov \x7b", "  node [shape=box];"] ++ drawn g ++ ["\x7d"]).map (· ++ "\n") := by
  have hheader : ["digraph markov \x7b\n", "  node [shape=box];\n"] =
      ["digraph markov \x7b", "  node [shape=box];"].map (· ++ "\n") := by decide
  have hbrace : ["\x7d\n"] = ["\x7d"].map (· ++ "\n") := by decide
  rw [drawing, entries_edges, List.map_map, List.map_append, List.map_append, ← hheader, ← hbrace,
    drawn, List.map_map]
  simp only [Function.comp_def, edgeLine_eq_intercalate]

theorem write_eq (g : Graph) : write g =
    (["digraph markov \x7b", "  node [shape=box];"] ++ drawn g ++ ["\x7d"]).flatMap
      fun line => bytes line ++ [10] := by
  rw [write, drawing_eq, List.flatMap_map]
  refine List.flatMap_congr fun line _ => ?_
  rw [bytes_append]
  rfl

theorem store_dot {sink : Sink} (hsink : sink.failure? (g.render .dot).bytes = none) :
    g.store .dot sink = ⟨write g, .ok g.count⟩ := by
  have hrender : g.render .dot = ⟨write g, none⟩ := rfl
  rw [hrender] at hsink
  simp only [Graph.store, hrender, hsink, Sink.takes_of_failure?_none hsink]

/-- **A drawing lists the edges of its graph, and they can be read back.**  Where no word holds a
newline, a drawing is two lines, a line for each edge and a brace.  Edges are the pairs of a
prefix and a word with records, told apart up to case, in the order of their first records and
spelled as in those.  Whatever else the words hold, the line of an edge is cut at its open quotes
in one way only, and the names in it are, without their escapes, the label of the prefix, that of
the prefix to which the word leads, and the word.  Its weight is the number of its records, and
it is bold where one of them is terminal.  There are as many edges as transitions, and their
weights make the number of records. -/
theorem edges_spec (B : g.Built)
    (hlines : ∀ r ∈ g.records, ∀ w ∈ [r.1.older, r.1.newer, r.2.word], '\n' ∉ w.text.toList) :
    ∃ drawn : List String,
      (∀ sink, sink.failure? (g.render .dot).bytes = none →
        g.store .dot sink =
          ⟨(["digraph markov \x7b", "  node [shape=box];"] ++ drawn ++ ["\x7d"]).flatMap
            fun line => bytes line ++ [10], .ok g.stats.records⟩) ∧
      (∀ line ∈ drawn, '\n' ∉ line.toList) ∧
      List.Forall₂ (Draws g) (g.records.map edgeOf).eraseDups drawn ∧
      drawn.length = g.stats.transitions ∧
      ((g.records.map edgeOf).eraseDups.map fun e => (recordsOf g e).length).sum =
        g.stats.records := by
  have C := B.consistent
  refine ⟨drawn g, ?_, ?_, ?_, ?_, ?_⟩
  · intro sink hsink
    rw [store_dot hsink, write_eq]
    rfl
  · rw [drawn, List.forall_mem_map]
    intro e he
    obtain ⟨r, hr, rfl⟩ := List.mem_map.1 (mem_of_mem_eraseDups he)
    have hsources : ∀ r ∈ g.records, OneLine r.1 := fun r hr =>
      ⟨hlines r hr _ (by simp), hlines r hr _ (by simp)⟩
    have hword : '\n' ∉ (edgeOf r).word.text.toList := hlines r hr r.2.word (by simp)
    exact newline_not_mem_line C hsources (hsources r hr) hword _
  · rw [drawn, List.forall₂_map_right_iff, List.forall₂_same]
    exact fun e _ => draws_pieces g e
  · rw [drawn, List.length_map, length_eraseDups_edgeOf]
  · have hrecords : g.stats.records = g.count := rfl
    rw [hrecords, C.count_eq, ← Graph.length_records]
    exact sum_length_filter_eraseDups edgeOf g.records

/-- Two spellings of a word that ends in a backslash are one edge, and the words of the other one
are quoted themselves. -/
theorem edges_spec_escapes :
    ∃ (g : Graph) (drawn : List String), g.Built ∧
      (∀ r ∈ g.records, ∀ w ∈ [r.1.older, r.1.newer, r.2.word], '\n' ∉ w.text.toList) ∧
      g.store .dot .unlimited =
        ⟨(["digraph markov \x7b", "  node [shape=box];"] ++ drawn ++ ["\x7d"]).flatMap
          fun line => bytes line ++ [10], .ok 3⟩ ∧
      List.Forall₂ (Draws g)
        [⟨.start, ⟨"say\\"⟩⟩, ⟨⟨.blank, ⟨"say\\"⟩⟩, ⟨"\"hi\""⟩⟩] drawn ∧
      drawn.length = g.stats.transitions := by
  let rs : List Record := [(.start, ⟨⟨"say\\"⟩, false, 0⟩), (.start, ⟨⟨"SAY\\"⟩, true, 0⟩),
    (⟨.blank, ⟨"say\\"⟩⟩, ⟨⟨"\"hi\""⟩, true, 0⟩)]
  have hrecords : (Graph.ofRecords rs).records = rs := by
    rw [Graph.records_ofRecords]
    simp [rs, grouped, List.eraseDups_cons, Prefix.beq_eq, Word.beq_eq, Prefix.start, Word.blank]
  have hedges : (rs.map edgeOf).eraseDups =
      [⟨.start, ⟨"say\\"⟩⟩, ⟨⟨.blank, ⟨"say\\"⟩⟩, ⟨"\"hi\""⟩⟩] := by
    simp [rs, edgeOf, List.eraseDups_cons, Edge.beq_eq, Prefix.beq_eq, Word.beq_eq, Prefix.start,
      Word.blank]
  have hlines : ∀ r ∈ (Graph.ofRecords rs).records, ∀ w ∈ [r.1.older, r.1.newer, r.2.word],
      '\n' ∉ w.text.toList := by
    rw [hrecords]
    simp [rs, Prefix.start, Word.blank]
  have hcount : (Graph.ofRecords rs).stats.records = 3 := Graph.count_ofRecords rs
  have B := Graph.built_ofRecords rs
  obtain ⟨drawn, hstore, -, hdraws, hlength, -⟩ := edges_spec B hlines
  rw [hrecords, hedges] at hdraws
  rw [hcount] at hstore
  exact ⟨Graph.ofRecords rs, drawn, B, hlines, hstore .unlimited rfl, hdraws, hlength⟩

end ChainScript.Chain.DotFormat
