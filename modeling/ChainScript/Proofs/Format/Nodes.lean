import ChainScript.Proofs.Format.Plain

/-!
# The nodes of a drawing

The name of a node is the words of its prefix with a space between them, and words hold no blanks;
so the words can be read back from the name, and with them the prefix.  Two things come in the way
of nodes that are prefixes up to case.  A caret names the beginning of a line, but can also be the
first word of one.  And a drawing takes the spelling of a prefix from its records, so a prefix
without records, to which an edge leads all the same, is a node of its own in each spelling.

## Main definitions

* `DotFormat.unescape` — what is left of a quoted name without its escapes.
* `Text.IsWord`, `Prefix.Spoken`, `Record.Spoken` — what can be learned from text.
* `DotFormat.nodes`, `DotFormat.nodeName` — the nodes of a drawing, with their names.
* `DotFormat.Clash` — two nodes whose names do not tell whether they are one prefix.

## Main results

* `DotFormat.nodeLabel_eq_iff` — the name tells the prefix, the caret apart.
* `DotFormat.nodes_spec` — when the nodes of a drawing are prefixes up to case.
-/

namespace ChainScript.Text

/-! ### Words -/

/-- The text is a word of a line: it is not empty and holds no blanks. -/
def IsWord (s : String) : Prop := s.toList ≠ [] ∧ ∀ c ∈ s.toList, isBlank c = false

instance (s : String) : Decidable (IsWord s) :=
  inferInstanceAs (Decidable (s.toList ≠ [] ∧ ∀ c ∈ s.toList, isBlank c = false))

theorem isWord_of_mem_words {line w : String} (hw : w ∈ words line) : IsWord w := by
  refine ⟨?_, not_isBlank_of_mem_words hw⟩
  obtain ⟨piece, hpiece, rfl⟩ := List.mem_map.1 hw
  simpa using (List.mem_filter.1 hpiece).2

/-- Case does not matter to blanks. -/
theorem isWord_fold {s : String} : IsWord (fold s) ↔ IsWord s := by
  rw [IsWord, IsWord, toList_fold, List.forall_mem_map, ne_eq, List.map_eq_nil_iff]
  simp only [isBlank_toLower]

theorem words_of_isWord {w : String} (hw : IsWord w) : words w = [w] := by
  rw [words, piecesBy_of_forall hw.2]
  simp [hw.1]

theorem words_append_space {w : String} (hw : IsWord w) (s : String) :
    words (w ++ " " ++ s) = w :: words s := by
  have htext : (w ++ " " ++ s).toList = w.toList ++ ' ' :: s.toList := by simp
  rw [words, htext, piecesBy_append_cons hw.2 rfl]
  simp [hw.1, words]

end ChainScript.Text

namespace ChainScript.Chain

open Text

/-! ### Equality of words and prefixes, computed -/

theorem Word.beq_eq (a b : Word) :
    (a == b) = (a.text.toList.map Char.toLower == b.text.toList.map Char.toLower) := by
  rw [Bool.eq_iff_iff, beq_iff, beq_iff_eq, ← String.toList_inj, toList_fold, toList_fold]

theorem Prefix.beq_eq (p q : Prefix) : (p == q) = (p.older == q.older && p.newer == q.newer) := rfl

theorem DotFormat.Edge.beq_eq (a b : Edge) :
    (a == b) = (a.source == b.source && a.word == b.word) := rfl

/-! ### What can be learned from text -/

/-- A prefix of words that were learned from text: a line's beginning, the first word of a line,
or two words of one. -/
inductive Prefix.Spoken : Prefix → Prop
  | start : Spoken .start
  | first {w : Word} (hw : IsWord w.text) : Spoken ⟨.blank, w⟩
  | later {v w : Word} (hv : IsWord v.text) (hw : IsWord w.text) : Spoken ⟨v, w⟩

@[simp] theorem Word.isBlank_blank : blank.isBlank = true := rfl

theorem Word.isBlank_of_isWord {w : Word} (hw : IsWord w.text) : w.isBlank = false := by
  rw [← Bool.not_eq_true, isBlank_iff]
  rintro rfl
  exact hw.1 rfl

/-- A record that was learned from text. -/
def Record.Spoken (r : Record) : Prop := r.1.Spoken ∧ IsWord r.2.word.text

theorem Prefix.Spoken.shift {p : Prefix} (hp : p.Spoken) {w : Word} (hw : IsWord w.text) :
    (p.shift w).Spoken := by
  cases hp with
  | start => exact .first hw
  | first hv => exact .later hv hw
  | later _ hv => exact .later hv hw

/-- Only the blank word has its folded spelling. -/
theorem Word.eq_blank_of_fold_eq {w : Word} (h : fold w.text = fold Word.blank.text) :
    w = .blank := by
  rw [← Word.isBlank_iff, ← Word.beq_blank]
  exact Word.beq_iff.2 h

/-- Case does not matter to whether a prefix was learned from text. -/
theorem Prefix.Spoken.of_folded_eq {p q : Prefix} (h : p.folded = q.folded) (hq : q.Spoken) :
    p.Spoken := by
  obtain ⟨older, newer⟩ := p
  obtain ⟨holder, hnewer⟩ := Prod.mk.inj h
  dsimp only at holder hnewer
  cases hq with
  | start =>
      obtain rfl := Word.eq_blank_of_fold_eq holder
      obtain rfl := Word.eq_blank_of_fold_eq hnewer
      exact .start
  | first hw =>
      obtain rfl := Word.eq_blank_of_fold_eq holder
      rw [← isWord_fold, ← hnewer, isWord_fold] at hw
      exact .first hw
  | later hv hw =>
      rw [← isWord_fold, ← holder, isWord_fold] at hv
      rw [← isWord_fold, ← hnewer, isWord_fold] at hw
      exact .later hv hw

theorem Record.Spoken.of_foldedRecord_eq (r r' : Record) (h : foldedRecord r = foldedRecord r')
    (hspoken : Record.Spoken r') : r.Spoken := by
  obtain ⟨hfolded, hsuffix⟩ := Prod.mk.inj h
  exact ⟨hspoken.1.of_folded_eq hfolded, hsuffix ▸ hspoken.2⟩

theorem spoken_lineRecords {now : Instant} {p : Prefix} {ws : List String} (hp : p.Spoken)
    (hws : ∀ w ∈ ws, IsWord w) : ∀ r ∈ lineRecords now p ws, Record.Spoken r := by
  induction ws generalizing p with
  | nil => exact fun _ hr => absurd hr List.not_mem_nil
  | cons w ws ih =>
      obtain ⟨hw, hws⟩ := List.forall_mem_cons.1 hws
      rw [lineRecords, List.forall_mem_cons]
      exact ⟨⟨hp, hw⟩, ih (hp.shift hw) hws⟩

theorem spoken_observedLines {now : Instant} {ls : List String} {r : Record}
    (hr : r ∈ ls.flatMap fun line => observedLine now (words line)) : r.Spoken := by
  obtain ⟨line, -, hr⟩ := List.mem_flatMap.1 hr
  rw [← lineRecords_words] at hr
  exact spoken_lineRecords .start (fun _ => isWord_of_mem_words) r hr

/-- The command loads no file. -/
def Command.LoadsNothing (command : Command) : Prop :=
  ∀ format input, command ≠ .load format input

theorem Command.spoken_introduced {env : Env} {command : Command} {rs : List Record}
    (hcommand : command.LoadsNothing) (h : ∀ r ∈ rs, Record.Spoken r) :
    ∀ r ∈ command.introduced env rs, Record.Spoken r := by
  cases command with
  | text learned | reader input =>
      intro r hr
      rw [introduced] at hr
      exact (List.mem_append.1 hr).elim (h r) spoken_observedLines
  | load format input => exact absurd rfl (hcommand format input)
  | clear => exact fun _ hr => absurd hr List.not_mem_nil
  | _ => exact h

/-- A run that loads nothing leaves only records that were learned from text. -/
theorem Generator.spoken_of_runAll {steps : List (Env × Command)} {config : Config}
    {now : Instant} {g : Generator} (hsteps : ∀ step ∈ steps, step.2.LoadsNothing)
    (h : runAll steps (new config now) = some g) : ∀ r ∈ g.graph.records, Record.Spoken r := by
  refine forall_records_of_runAll Record.Spoken.of_foldedRecord_eq (fun step hstep rs hrs => ?_) h
  exact Command.spoken_introduced (hsteps step hstep) hrs

/-! ### Prefixes with records -/

namespace Graph

variable {g : Graph} {p q : Prefix}

theorem key?_eq_some_iff : g.key? p = some q ↔ q ∈ g.bags.keys.members ∧ (q == p) = true :=
  Roster.find?_eq_some_iff

theorem key?_eq_none_iff : g.key? p = none ↔ ∀ q ∈ g.bags.keys.members, (q == p) = false :=
  Roster.find?_eq_none_iff

/-- A prefix with a bag has records. -/
theorem Consistent.exists_record (C : g.Consistent) (hp : p ∈ g.bags.keys.members) :
    ∃ r ∈ g.records, r.1 = p := by
  obtain ⟨e, he, rfl⟩ := mem_keys.1 hp
  have hpos : 0 < e.2.size := C.size_pos _ (List.mem_map_of_mem he)
  refine ⟨(e.1, e.2[0]), List.mem_flatMap.2 ⟨e, he, ?_⟩, rfl⟩
  exact List.mem_map_of_mem (Array.mem_toList_iff.2 (Array.getElem_mem hpos))

theorem mem_keys_of_mem_records {r : Record} (hr : r ∈ g.records) :
    r.1 ∈ g.bags.keys.members := by
  obtain ⟨e, he, hr⟩ := List.mem_flatMap.1 hr
  obtain ⟨s, -, rfl⟩ := List.mem_map.1 hr
  exact mem_keys.2 ⟨e, he, rfl⟩

end Graph

namespace DotFormat

/-! ### Quoted names -/

/-- The text of a quoted name: a character after a backslash stands for itself. -/
def unescape : List Char → List Char
  | '\\' :: c :: rest => c :: unescape rest
  | c :: rest => c :: unescape rest
  | [] => []

theorem unescape_cons {c : Char} (hc : c ≠ '\\') (rest : List Char) :
    unescape (c :: rest) = c :: unescape rest := by
  rw [unescape.eq_def]
  split
  · next h => exact absurd (List.cons.inj h).1 hc
  · next h => rw [(List.cons.inj h).1, (List.cons.inj h).2]
  · next h => cases h

theorem unescape_flatMap_escapeChar (cs : List Char) : unescape (cs.flatMap escapeChar) = cs := by
  induction cs with
  | nil => rfl
  | cons c cs ih =>
      rw [List.flatMap_cons, escapeChar]
      split
      · rw [List.cons_append, List.singleton_append, unescape, ih]
      · next hc => rw [List.singleton_append, unescape_cons (fun h => hc (.inl h)), ih]

/-- Different texts have different quoted names. -/
theorem quoted_inj {s t : String} : quoted s = quoted t ↔ s = t := by
  refine ⟨fun h => ?_, congrArg quoted⟩
  have hchars : ∀ s, (quoted s).toList = '"' :: (s.toList.flatMap escapeChar ++ ['"']) := by
    simp [quoted, escape]
  have hlist := congrArg String.toList h
  rw [hchars, hchars] at hlist
  have hescaped := List.append_cancel_right (List.cons.inj hlist).2
  rw [← String.toList_inj, ← unescape_flatMap_escapeChar s.toList, hescaped,
    unescape_flatMap_escapeChar]

/-! ### Labels -/

/-- A caret that is the first word of a line. -/
def caret : Prefix := ⟨.blank, ⟨"^"⟩⟩

section Labels

variable {v w : Word}

theorem words_nodeLabel_start : words (nodeLabel .start) = ["^"] := by decide

theorem words_nodeLabel_first (hw : IsWord w.text) :
    words (nodeLabel ⟨.blank, w⟩) = [w.text] := by
  have hlabel : nodeLabel ⟨.blank, w⟩ = w.text := by
    simp [nodeLabel, Prefix.isStart, Prefix.tokens, Word.isBlank_of_isWord hw]
  rw [hlabel, words_of_isWord hw]

theorem words_nodeLabel_later (hv : IsWord v.text) (hw : IsWord w.text) :
    words (nodeLabel ⟨v, w⟩) = [v.text, w.text] := by
  have hlabel : nodeLabel ⟨v, w⟩ = v.text ++ " " ++ w.text := by
    simp [nodeLabel, Prefix.isStart, Prefix.tokens, Word.isBlank_of_isWord hv,
      Word.isBlank_of_isWord hw]
  rw [hlabel, words_append_space hv, words_of_isWord hw]

end Labels

/-- The label tells the prefix, but a caret that begins a line is labelled like the beginning. -/
theorem nodeLabel_eq_iff {p q : Prefix} (hp : p.Spoken) (hq : q.Spoken) :
    nodeLabel p = nodeLabel q ↔ p = q ∨ p = .start ∧ q = caret ∨ p = caret ∧ q = .start := by
  constructor
  · intro h
    have hwords := congrArg words h
    cases hp with
    | start =>
        rw [words_nodeLabel_start] at hwords
        cases hq with
        | start => exact .inl rfl
        | first hw =>
            rw [words_nodeLabel_first hw, List.singleton_inj] at hwords
            exact .inr (.inl ⟨rfl, by rw [caret, hwords]⟩)
        | later hv hw => simp [words_nodeLabel_later hv hw] at hwords
    | first hw =>
        rw [words_nodeLabel_first hw] at hwords
        cases hq with
        | start =>
            rw [words_nodeLabel_start, List.singleton_inj] at hwords
            exact .inr (.inr ⟨by rw [caret, ← hwords], rfl⟩)
        | first hw' =>
            rw [words_nodeLabel_first hw', List.singleton_inj] at hwords
            exact .inl (congrArg (Prefix.mk .blank) (congrArg Word.mk hwords))
        | later hv hw' => simp [words_nodeLabel_later hv hw'] at hwords
    | later hv hw =>
        rw [words_nodeLabel_later hv hw] at hwords
        cases hq with
        | start => simp [words_nodeLabel_start] at hwords
        | first hw' => simp [words_nodeLabel_first hw'] at hwords
        | later hv' hw' =>
            rw [words_nodeLabel_later hv' hw'] at hwords
            obtain ⟨hv, hwords⟩ := List.cons.inj hwords
            obtain ⟨hw, -⟩ := List.cons.inj hwords
            exact .inl (congrArg₂ Prefix.mk (congrArg Word.mk hv) (congrArg Word.mk hw))
  · rintro (rfl | ⟨rfl, rfl⟩ | ⟨rfl, rfl⟩) <;> rfl

/-! ### Nodes -/

/-- The edge of a record. -/
def edgeOf (r : Record) : Edge := ⟨r.1, r.2.word⟩

/-- The node to which an edge leads: the prefix after the word, as the graph spells it. -/
def target (g : Graph) (e : Edge) : Prefix :=
  (g.key? (e.source.shift e.word)).getD (e.source.shift e.word)

/-- The nodes of the drawing of a graph: where its edges begin and where they lead. -/
def nodes (g : Graph) : List Prefix :=
  (edges g.records).entries.flatMap fun e => [e.1.source, target g e.1]

/-- The name of a node as it is drawn. -/
def nodeName (p : Prefix) : String := quoted (nodeLabel p)

/-- What the line of an edge says after its nodes. -/
def attributes (e : Edge) (stroke : Stroke) : String :=
  " [label=" ++ quoted e.word.text ++ ", weight=" ++ toString stroke.weight ++
    (if stroke.bold then ", style=bold" else "") ++ "];\n"

theorem edgeLine_eq (g : Graph) (e : Edge) (stroke : Stroke) :
    edgeLine g e stroke =
      "  " ++ nodeName e.source ++ " -> " ++ nodeName (target g e) ++ attributes e stroke := by
  simp only [edgeLine, nodeName, target, attributes, String.append_assoc]

/-- Two nodes whose names do not tell whether they are one prefix: two spellings of a prefix
without records, or the beginning of a line and a caret that is its first word. -/
def Clash (g : Graph) (p q : Prefix) : Prop :=
  ((p == q) = true ∧ p ≠ q ∧ g.key? p = none) ∨
    p = .start ∧ q = caret ∨ p = caret ∧ q = .start

variable {g : Graph} {p q : Prefix}

/-- The edges are those of the records, in the order of their first records. -/
theorem map_fst_entries_edges (rs : List Record) :
    (edges rs).entries.map Prod.fst = (rs.map edgeOf).eraseDups := by
  have hentries := Table.entries_foldl_update edgeOf (⟨0, false⟩ : Stroke)
    (fun r stroke => ⟨stroke.weight + 1, stroke.bold || r.2.terminal⟩) rs
  rw [edges]
  refine (congrArg (List.map Prod.fst) hentries).trans ?_
  rw [List.map_map]
  exact List.map_id _

theorem exists_record_of_mem_edges {rs : List Record} {e : Edge}
    (he : e ∈ (edges rs).entries.map Prod.fst) : ∃ r ∈ rs, edgeOf r = e := by
  rw [map_fst_entries_edges] at he
  exact List.mem_map.1 (mem_of_mem_eraseDups he)

theorem beq_target (g : Graph) (e : Edge) : (target g e == e.source.shift e.word) = true := by
  rw [target]
  cases h : g.key? (e.source.shift e.word) with
  | none => exact BEq.rfl
  | some k => exact (Graph.key?_eq_some_iff.1 h).2

theorem mem_nodes : p ∈ nodes g ↔
    ∃ e ∈ (edges g.records).entries.map Prod.fst, p = e.source ∨ p = target g e := by
  simp [nodes, List.mem_flatMap]

/-- A node is spelled as the graph spells it, or has no records. -/
theorem key?_of_mem_nodes (hp : p ∈ nodes g) : g.key? p = some p ∨ g.key? p = none := by
  obtain ⟨e, he, rfl | rfl⟩ := mem_nodes.1 hp
  · obtain ⟨r, hr, hre⟩ := exists_record_of_mem_edges he
    rw [← hre]
    exact .inl (Graph.key?_eq_some_iff.2 ⟨Graph.mem_keys_of_mem_records hr, BEq.rfl⟩)
  · rw [target]
    cases h : g.key? (e.source.shift e.word) with
    | none => exact .inr h
    | some k => exact .inl (Graph.key?_eq_some_iff.2 ⟨(Graph.key?_eq_some_iff.1 h).1, BEq.rfl⟩)

/-- Nodes that are one prefix with records are spelled alike. -/
theorem eq_or_key?_eq_none (hp : p ∈ nodes g) (hq : q ∈ nodes g) (h : (p == q) = true) :
    p = q ∨ g.key? p = none := by
  obtain hkey | hnone := key?_of_mem_nodes hp
  · obtain hkey' | hnone' := key?_of_mem_nodes hq
    · have hfind := Graph.key?_eq_some_iff.2 ⟨(Graph.key?_eq_some_iff.1 hkey').1, BEq.symm h⟩
      exact .inl (Option.some.inj (hkey.symm.trans hfind))
    · have hne := Graph.key?_eq_none_iff.1 hnone' p (Graph.key?_eq_some_iff.1 hkey).1
      rw [h] at hne
      cases hne
  · exact .inr hnone

/-- The nodes of records that were learned from text were so too. -/
theorem spoken_of_mem_nodes (C : g.Consistent) (h : ∀ r ∈ g.records, Record.Spoken r)
    (hp : p ∈ nodes g) : p.Spoken := by
  obtain ⟨e, he, hp⟩ := mem_nodes.1 hp
  obtain ⟨r, hr, hre⟩ := exists_record_of_mem_edges he
  rw [← hre] at hp
  obtain rfl | rfl := hp
  · exact (h r hr).1
  · rw [target]
    cases hkey : g.key? ((edgeOf r).source.shift (edgeOf r).word) with
    | none => exact (h r hr).1.shift (h r hr).2
    | some k =>
        obtain ⟨r', hr', rfl⟩ := C.exists_record (Graph.key?_eq_some_iff.1 hkey).1
        exact (h r' hr').1

theorem nodeName_eq_iff (C : g.Consistent) (h : ∀ r ∈ g.records, Record.Spoken r)
    (hp : p ∈ nodes g) (hq : q ∈ nodes g) :
    nodeName p = nodeName q ↔ p = q ∨ p = .start ∧ q = caret ∨ p = caret ∧ q = .start :=
  quoted_inj.trans (nodeLabel_eq_iff (spoken_of_mem_nodes C h hp) (spoken_of_mem_nodes C h hq))

/-- A line does not begin with its beginning. -/
theorem beq_ne_true_of_caret (h : p = .start ∧ q = caret ∨ p = caret ∧ q = .start) :
    (p == q) ≠ true := by
  have hcaret : (caret == Prefix.start) = false := by
    rw [Prefix.beq_start]
    rfl
  obtain ⟨rfl, rfl⟩ | ⟨rfl, rfl⟩ := h
  · rw [BEq.comm, hcaret]
    exact Bool.false_ne_true
  · rw [hcaret]
    exact Bool.false_ne_true

/-- **Nodes are prefixes, but for spellings without records and for the caret.**  After any run
that loads no file, with any evictions, the drawing names its edges by their nodes: the prefix
before the word and, up to case, the prefix after it.  The names of two nodes are the same just
when the prefixes are the same up to case, with two exceptions and no other: of a prefix that has
no records each spelling has a name of its own, and a caret that begins a line has the name of the
beginning. -/
theorem nodes_spec {steps : List (Env × Command)} {config : Config} {now : Instant}
    {g : Generator} (hsteps : ∀ step ∈ steps, step.2.LoadsNothing)
    (hrun : runAll steps (.new config now) = some g) :
    (g.graph.store .dot .unlimited).taken =
      (["digraph markov \x7b\n", "  node [shape=box];\n"] ++
        (edges g.graph.records).entries.map (fun e => "  " ++ nodeName e.1.source ++ " -> " ++
          nodeName (target g.graph e.1) ++ attributes e.1 e.2) ++ ["\x7d\n"]).flatMap Text.bytes ∧
    (∀ e : Edge, (target g.graph e == e.source.shift e.word) = true) ∧
    ∀ p ∈ nodes g.graph, ∀ q ∈ nodes g.graph,
      (nodeName p = nodeName q ↔ (p == q) = true) ↔ ¬ Clash g.graph p q := by
  have C := (Generator.Reachable.sound ⟨config, now, steps, hrun⟩).built.consistent
  refine ⟨?_, beq_target g.graph, fun p hp q hq => ?_⟩
  · simp only [← edgeLine_eq]
    rfl
  · rw [nodeName_eq_iff C (Generator.spoken_of_runAll hsteps hrun) hp hq, Clash]
    by_cases hpq : p = q
    · subst hpq
      refine iff_of_true (iff_of_true (.inl rfl) BEq.rfl) ?_
      rintro (⟨-, hne, -⟩ | hcaret)
      · exact hne rfl
      · exact absurd BEq.rfl (beq_ne_true_of_caret hcaret)
    · constructor
      · rintro hnames (⟨hbeq, -, -⟩ | hcaret)
        · exact beq_ne_true_of_caret ((hnames.2 hbeq).resolve_left hpq) hbeq
        · exact beq_ne_true_of_caret hcaret (hnames.1 (.inr hcaret))
      · intro hclash
        refine ⟨fun hname => absurd (.inr (hname.resolve_left hpq)) hclash, fun hbeq => ?_⟩
        exact absurd (.inl ⟨hbeq, hpq, (eq_or_key?_eq_none hp hq hbeq).resolve_left hpq⟩) hclash

/-- After two lines that end in one prefix, spelled in two ways, the prefix is two nodes. -/
theorem nodes_spec_two_spellings :
    ∃ g, runAll [(⟨Source.counter, 0⟩, .text "b c\nx b C")] (.new {} 0) = some g ∧
      ⟨⟨"b"⟩, ⟨"c"⟩⟩ ∈ nodes g.graph ∧ ⟨⟨"b"⟩, ⟨"C"⟩⟩ ∈ nodes g.graph ∧
      (Prefix.mk ⟨"b"⟩ ⟨"c"⟩ == ⟨⟨"b"⟩, ⟨"C"⟩⟩) = true ∧
      nodeName ⟨⟨"b"⟩, ⟨"c"⟩⟩ ≠ nodeName ⟨⟨"b"⟩, ⟨"C"⟩⟩ := by
  have htext : Generator.addText ⟨Source.counter, 0⟩ "b c\nx b C" (.new {} 0) = some
      { Generator.new {} 0 with graph := Graph.ofRecords (textRecords 0 "b c\nx b C") } :=
    Generator.addText_of_fits (by decide)
  have hrun : runAll [(⟨Source.counter, 0⟩, .text "b c\nx b C")] (.new {} 0) = some _ :=
    runAll_cons_of_run (run_text_of_addText htext)
  have hlearned : textRecords 0 "b c\nx b C" =
      [(.start, ⟨⟨"b"⟩, false, 0⟩), (⟨.blank, ⟨"b"⟩⟩, ⟨⟨"c"⟩, true, 0⟩),
        (.start, ⟨⟨"x"⟩, false, 0⟩), (⟨.blank, ⟨"x"⟩⟩, ⟨⟨"b"⟩, false, 0⟩),
        (⟨⟨"x"⟩, ⟨"b"⟩⟩, ⟨⟨"C"⟩, true, 0⟩)] := by rfl
  have hrecords : (Graph.ofRecords (textRecords 0 "b c\nx b C")).records =
      [(.start, ⟨⟨"b"⟩, false, 0⟩), (.start, ⟨⟨"x"⟩, false, 0⟩),
        (⟨.blank, ⟨"b"⟩⟩, ⟨⟨"c"⟩, true, 0⟩), (⟨.blank, ⟨"x"⟩⟩, ⟨⟨"b"⟩, false, 0⟩),
        (⟨⟨"x"⟩, ⟨"b"⟩⟩, ⟨⟨"C"⟩, true, 0⟩)] := by
    rw [Graph.records_ofRecords, hlearned]
    simp [grouped, List.eraseDups_cons, Prefix.beq_eq, Word.beq_eq, Prefix.start, Word.blank]
  have C := (Graph.built_ofRecords (textRecords 0 "b c\nx b C")).consistent
  obtain ⟨-, -, hnames⟩ := nodes_spec (List.forall_mem_singleton.2 fun _ _ h => by cases h) hrun
  dsimp only at hnames
  generalize Graph.ofRecords (textRecords 0 "b c\nx b C") = graph at hrun hrecords C hnames
  have hedges : (edges graph.records).entries.map Prod.fst =
      [⟨.start, ⟨"b"⟩⟩, ⟨.start, ⟨"x"⟩⟩, ⟨⟨.blank, ⟨"b"⟩⟩, ⟨"c"⟩⟩, ⟨⟨.blank, ⟨"x"⟩⟩, ⟨"b"⟩⟩,
        ⟨⟨⟨"x"⟩, ⟨"b"⟩⟩, ⟨"C"⟩⟩] := by
    rw [map_fst_entries_edges, hrecords]
    simp [edgeOf, List.eraseDups_cons, Edge.beq_eq, Prefix.beq_eq, Word.beq_eq, Prefix.start,
      Word.blank]
  have hother : ∀ r ∈ graph.records, ∀ w ∈ ["c", "C"], (r.1 == ⟨⟨"b"⟩, ⟨w⟩⟩) = false := by
    rw [hrecords]
    simp [Prefix.beq_eq, Word.beq_eq, Prefix.start, Word.blank]
  have hnone : ∀ w ∈ ["c", "C"], graph.key? ⟨⟨"b"⟩, ⟨w⟩⟩ = none := by
    intro w hw
    rw [Graph.key?_eq_none_iff]
    intro q hq
    obtain ⟨r, hr, rfl⟩ := C.exists_record hq
    exact hother r hr w hw
  have hbeq : (Prefix.mk ⟨"b"⟩ ⟨"c"⟩ == ⟨⟨"b"⟩, ⟨"C"⟩⟩) = true := by
    simp [Prefix.beq_eq, Word.beq_eq]
  have hnode : ⟨⟨"b"⟩, ⟨"c"⟩⟩ ∈ nodes graph := by
    refine mem_nodes.2 ⟨⟨⟨.blank, ⟨"b"⟩⟩, ⟨"c"⟩⟩, by simp [hedges], .inr ?_⟩
    simp [target, Prefix.shift, hnone]
  have hnode' : ⟨⟨"b"⟩, ⟨"C"⟩⟩ ∈ nodes graph := by
    refine mem_nodes.2 ⟨⟨⟨⟨"x"⟩, ⟨"b"⟩⟩, ⟨"C"⟩⟩, by simp [hedges], .inr ?_⟩
    simp [target, Prefix.shift, hnone]
  refine ⟨_, hrun, hnode, hnode', hbeq, fun hname => ?_⟩
  exact (hnames _ hnode _ hnode').1 (iff_of_true hname hbeq)
    (.inl ⟨hbeq, by simp, hnone "c" (by simp)⟩)

end DotFormat

end ChainScript.Chain
