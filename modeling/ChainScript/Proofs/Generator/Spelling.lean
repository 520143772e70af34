import ChainScript.Chain.Command
import ChainScript.Proofs.Binary.Alike
import ChainScript.Proofs.Generator.Alike

/-!
# Requests that differ in spelling

Files that alike graphs are stored in are read alike again, in every format but one: the magic
bytes of a binary file are told apart by case, so a text file that is loaded as a binary one may
be refused for one spelling only.  Requests that differ in the case of ASCII letters only, to
alike generators, are answered alike and leave alike generators.

## Main definitions

* `SameFile` — stored files that cannot be told apart but for their spelling.
* `SameAnswer`, `Command.Alike` — answers and requests that differ in spelling only.

## Main results

* `Graph.Alike.store` — alike graphs are stored in such files.
* `Generator.Alike.run` — alike requests are answered alike.
-/

namespace ChainScript.Chain

open Text

/-! ### Stored files -/

/-- Stored files, each with its format, that cannot be told apart but for their spelling. -/
structure SameFile (f f' : Format × List UInt8) : Prop where
  format : f.1 = f'.1
  /-- They are the same after lowering each byte. -/
  bytes : f.2.map lowerByte = f'.2.map lowerByte
  /-- They are read alike as binary files, unless they are text files. -/
  records : f.1 ≠ .text → ∀ failure,
    SameOutcome SameRecords (BinaryFormat.read ⟨f.2, failure⟩) (BinaryFormat.read ⟨f'.2, failure⟩)

/-- Bytes that do not begin with the magic ones are refused for their first four. -/
theorem BinaryFormat.read_of_not_magic {bs : List UInt8} (h : bs.take 4 ≠ magic)
    (failure : Option ReadFailure) :
    read ⟨bs, failure⟩ =
      if (bs.take 4).length = 4 then .error (.corrupt (.magic (bs.take 4)))
      else .error (Corruption.truncated.reported failure) := by
  have hrefused : ∀ rest, require (bs.take 4 = magic) (.corrupt (.magic (bs.take 4))) rest =
      .error (.corrupt (.magic (bs.take 4))) := by
    intro rest
    rw [require, if_neg h]
    rfl
  change Except.map Prod.fst (readFile failure bs) = _
  rw [readFile_eq]
  split
  · next hlength =>
    have htake : take failure 4 bs = .ok (bs.take 4, bs.drop 4) := if_pos hlength
    rw [bind_of_ok htake, bind_of_error (hrefused _)]
    rfl
  · next hlength =>
    rw [bind_of_error (take_of_short hlength)]
    rfl

/-- A drawing does not begin with the magic bytes of a binary file. -/
theorem DotFormat.take_write (g : Graph) : (write g).take 4 = [0x64, 0x69, 0x67, 0x72] := by
  have hfirst : (Text.bytes "digraph markov \x7b\n").take 4 = [0x64, 0x69, 0x67, 0x72] := by decide
  have hlength : 4 ≤ (Text.bytes "digraph markov \x7b\n").length := by decide
  rw [write, drawing, List.cons_append, List.cons_append, List.flatMap_cons,
    List.take_append_of_le_length hlength, hfirst]

namespace Graph.Alike

variable {g h : Graph}

/-- Alike graphs are written alike, and one word is too long for both or for neither. -/
theorem render (A : g.Alike h) (format : Format) :
    (g.render format).bytes.map lowerByte = (h.render format).bytes.map lowerByte ∧
      (g.render format).fault = (h.render format).fault := by
  cases format with
  | text => exact ⟨TextFormat.lower_write A.records, rfl⟩
  | binary =>
      rw [Graph.render, Graph.render, A.count]
      exact BinaryFormat.lower_write A.records h.count
  | dot => exact ⟨DotFormat.lower_write A, rfl⟩

/-- A sink takes beginnings of one length. -/
theorem takes (sink : Sink) {bs bs' : List UInt8} (hlength : bs.length = bs'.length) :
    ∃ k, sink.takes bs = bs.take k ∧ sink.takes bs' = bs'.take k := by
  cases sink with
  | unlimited =>
      exact ⟨bs.length, (List.take_length).symm, hlength ▸ (List.take_length).symm⟩
  | limited capacity reason => exact ⟨capacity, rfl, rfl⟩

theorem store (A : g.Alike h) (format : Format) (sink : Sink) :
    SameFile (format, (g.store format sink).taken) (format, (h.store format sink).taken) ∧
      (g.store format sink).outcome = (h.store format sink).outcome := by
  obtain ⟨hbytes, hfault⟩ := A.render format
  have hlength : (g.render format).bytes.length = (h.render format).bytes.length := by
    simpa using congrArg List.length hbytes
  obtain ⟨k, hg, hh⟩ := takes sink hlength
  refine ⟨⟨rfl, ?_, ?_⟩, ?_⟩
  · change (g.store format sink).taken.map lowerByte = (h.store format sink).taken.map lowerByte
    rw [Graph.store, Graph.store, hg, hh, List.map_take, List.map_take, hbytes]
  · intro hformat failure
    change SameOutcome SameRecords (BinaryFormat.read ⟨(g.store format sink).taken, failure⟩)
      (BinaryFormat.read ⟨(h.store format sink).taken, failure⟩)
    rw [Graph.store, Graph.store, hg, hh]
    cases format with
    | text => exact absurd rfl hformat
    | binary =>
        rw [Graph.render, Graph.render, A.count]
        exact BinaryFormat.read_alike A.records h.count k failure
    | dot =>
        -- However much of a drawing is kept, it does not begin with the magic bytes.
        have hfour : ∀ g : Graph, ((g.render .dot).bytes.take k).take 4 =
            ([0x64, 0x69, 0x67, 0x72] : List UInt8).take k := by
          intro g
          rw [Graph.render, List.take_take, Nat.min_comm, ← List.take_take, DotFormat.take_write]
        have hmagic : ([0x64, 0x69, 0x67, 0x72] : List UInt8).take k ≠ BinaryFormat.magic := by
          cases k with
          | zero => decide
          | succ k => exact fun h => absurd (List.cons.inj h).1 (by decide)
        rw [BinaryFormat.read_of_not_magic (hfour g ▸ hmagic),
          BinaryFormat.read_of_not_magic (hfour h ▸ hmagic), hfour, hfour]
        split
        · exact .error rfl
        · exact .error rfl
  · have hfailure :
        sink.failure? (g.render format).bytes = sink.failure? (h.render format).bytes := by
      cases sink with
      | unlimited => rfl
      | limited capacity reason => rw [Sink.failure?, Sink.failure?, hlength]
    simp only [Graph.store, hfailure, hfault, A.count]

end Graph.Alike

/-! ### Requests -/

/-- The answer in lower case. -/
def Answer.lower : Answer → Answer
  | words ws => words (ws.map fold)
  | stats s => stats { s with mostCommonWord := s.mostCommonWord.map fold }
  | stored records bs => stored records (bs.map lowerByte)
  | answer => answer

/-- Answers that are the same up to case. -/
def SameAnswer (a b : Answer) : Prop := a.lower = b.lower

/-- The requests are the same, but for the case of ASCII letters in what is learned or
continued. -/
inductive Command.Alike : Command → Command → Prop
  | same (c : Command) : Alike c c
  | text {learned learned' : String} : fold learned = fold learned' →
      Alike (text learned) (text learned')
  | reader {input input' : Input} : input.Alike input' → Alike (reader input) (reader input')
  | generateFrom {prompt prompt' : String} (least most : Nat) : fold prompt = fold prompt' →
      Alike (generateFrom prompt least most) (generateFrom prompt' least most)

/-- Storing alike graphs is answered alike. -/
theorem Graph.Alike.store_answer {g h : Graph} (A : g.Alike h) (format : Format) (sink : Sink) :
    SameOutcome SameAnswer
      ((g.store format sink).outcome.map fun n => .stored n (g.store format sink).taken)
      ((h.store format sink).outcome.map fun n => .stored n (h.store format sink).taken) := by
  obtain ⟨hfile, houtcome⟩ := A.store format sink
  rw [houtcome]
  refine (SameOutcome.refl (R := Eq) (fun _ => rfl) _).map ?_
  rintro n _ rfl
  rw [SameAnswer, Answer.lower, Answer.lower, hfile.bytes]

namespace Generator.Alike

variable {g h : Generator} {env : Env}

/-- Loading files with the same records up to case replaces alike graphs by alike graphs. -/
theorem load (A : g.Alike h) {format : Format} {input input' : Input}
    (hread : SameOutcome SameRecords (readRecords format env.now input)
      (readRecords format env.now input')) :
    Option.Rel (AlikeWith (SameOutcome Eq)) (g.load env format input)
      (h.load env format input') := by
  have hload : SameOutcome Graph.Alike (Graph.load format env.now input)
      (Graph.load format env.now input') := by
    rw [Graph.load, Graph.load]
    exact hread.bind fun _ _ hrs => .ok (Graph.Alike.ofRecords hrs)
  rw [Generator.load, Generator.load]
  generalize Graph.load format env.now input = x at hload ⊢
  generalize Graph.load format env.now input' = y at hload ⊢
  cases hload with
  | error he => exact .some ⟨.error he, A⟩
  | @ok graph graph' B =>
      have C : Generator.Alike { g with graph := graph } { h with graph := graph' } :=
        ⟨B, A.config, A.cursor, A.lastCleanup⟩
      exact rel_bind C.sweep fun _ _ hab =>
        .some ⟨.ok hab.generator.graph.count, hab.generator⟩

/-- The numbers of alike generators are the same, and so is the most frequent word up to case. -/
theorem sameAnswer_stats (A : g.Alike h) :
    SameAnswer (.stats g.graph.stats) (.stats h.graph.stats) := by
  obtain ⟨hnumbers, hword⟩ := A.graph.stats
  rw [SameAnswer, Answer.lower, Answer.lower, hword, hnumbers]

/-- A change that answers nothing is answered alike. -/
theorem answer_done {x y : Option Generator} (hxy : Option.Rel Generator.Alike x y) :
    Option.Rel (AlikeWith (SameOutcome SameAnswer))
      (x >>= fun g => pure (.ok .done, g)) (y >>= fun g => pure (.ok .done, g)) :=
  rel_bind hxy fun _ _ B => .some ⟨.ok rfl, B⟩

/-- Texts that are the same up to case are answered alike. -/
theorem answer_words {x y : Option (List String × Generator)}
    (hxy : Option.Rel (AlikeWith fun ws ws' => ws.map fold = ws'.map fold) x y) :
    Option.Rel (AlikeWith (SameOutcome SameAnswer))
      (x >>= fun r => pure (.ok (.words r.1), r.2)) (y >>= fun r => pure (.ok (.words r.1), r.2)) :=
  rel_bind hxy fun _ _ hab => .some ⟨.ok (congrArg Answer.words hab.result), hab.generator⟩

theorem run_reader (A : g.Alike h) {input input' : Input} (hinput : input.Alike input') :
    Option.Rel (AlikeWith (SameOutcome SameAnswer)) ((Command.reader input).run env g)
      ((Command.reader input').run env h) := by
  refine rel_bind (A.addReader hinput) fun a b hab => .some ⟨?_, hab.generator⟩
  exact hab.result ▸ (SameOutcome.refl (R := Eq) (fun _ => rfl) a.1).map fun _ _ _ => rfl

theorem run_load (A : g.Alike h) {format : Format} {input input' : Input}
    (hread : SameOutcome SameRecords (readRecords format env.now input)
      (readRecords format env.now input')) :
    Option.Rel (AlikeWith (SameOutcome SameAnswer)) ((Command.load format input).run env g)
      ((Command.load format input').run env h) :=
  rel_bind (A.load hread) fun _ _ hab =>
    .some ⟨hab.result.map fun _ _ hn => congrArg (Answer.lower ∘ .count) hn, hab.generator⟩

/-- Alike requests to alike generators are answered alike and leave alike generators. -/
theorem run (A : g.Alike h) {c c' : Command} (hc : c.Alike c') :
    Option.Rel (AlikeWith (SameOutcome SameAnswer)) (c.run env g) (c'.run env h) := by
  cases hc with
  | text htext => exact answer_done (A.addText htext)
  | reader hinput => exact A.run_reader hinput
  | generateFrom least most hprompt => exact answer_words (A.generateFrom hprompt least most)
  | same =>
      cases c with
      | seed word => exact .some ⟨.ok rfl, A.setSeed word⟩
      | text learned => exact answer_done (A.addText rfl)
      | reader input => exact A.run_reader ⟨rfl, rfl⟩
      | generate least most => exact answer_words (A.generate least most)
      | generateFrom prompt least most => exact answer_words (A.generateFrom rfl least most)
      | cleanup =>
          exact rel_bind A.sweep fun _ _ hab =>
            .some ⟨.ok (congrArg (Answer.lower ∘ .count) hab.result), hab.generator⟩
      | maxSize n => exact answer_done (A.setMaxSize n)
      | maxAge d => exact answer_done (A.setMaxAge d)
      | config => exact .some ⟨.ok (congrArg (Answer.lower ∘ .config) A.config), A⟩
      | stats => exact .some ⟨.ok A.sameAnswer_stats, A⟩
      | size => exact .some ⟨.ok (congrArg (Answer.lower ∘ .count) A.graph.count), A⟩
      | clear => exact .some ⟨.ok rfl, A.clear⟩
      | store format sink => exact .some ⟨A.graph.store_answer format sink, A⟩
      | load format input => exact A.run_load (.refl SameRecords.refl _)

end Generator.Alike

end ChainScript.Chain
