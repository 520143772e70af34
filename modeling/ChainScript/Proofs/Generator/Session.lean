import ChainScript.Proofs.Generator.Spelling

/-!
# Letter case decides spelling and nothing else

A session asks a generator for one thing after another, and loads files that it has stored
before.  Two sessions whose texts differ in the case of ASCII letters only go the same way: they
draw the same random words, keep the same number of records, answer alike up to case, and
succeed or fail alike.  The exception is a text file that is loaded as a binary one.

## Main definitions

* `Session`, `Session.Step`, `Session.runAll` — a generator with the files it has stored.
* `Session.Step.Alike` — steps whose texts differ in case only.
* `Session.Faithful` — no text file is loaded as a binary one.

## Main results

* `Session.Alike.step`, `Session.Alike.runAll` — one step, and a run, keep sessions alike.
* `Session.spelling_spec` — alike runs show the same numbers and answer alike.
-/

namespace ChainScript.Chain

open Text

/-! ### Sessions -/

/-- A generator with the files it has stored so far, each with its format. -/
structure Session where
  generator : Generator
  files : List (Format × List UInt8) := []

namespace Session

/-- The formats of the files stored so far. -/
def formats (s : Session) : List Format := s.files.map (·.1)

/-- The bytes of the file with the given number, counted from zero; none where there is none. -/
def file (s : Session) (n : Nat) : List UInt8 := (s.files[n]?).elim [] (·.2)

/-- What can be asked in a session: anything of the generator, and to load a file that was stored
before. -/
inductive Step
  | ask (command : Command)
  | reload (format : Format) (failure : Option ReadFailure) (number : Nat)

/-- The file that a request leaves. -/
def stored (g : Generator) : Command → List (Format × List UInt8)
  | .store format sink => [(format, (g.graph.store format sink).taken)]
  | _ => []

/-- Carries out a step. -/
def Step.run (env : Env) : Step → Session → Option (Except ChainError Answer × Session)
  | ask command, s => do
      let (answer, g) ← command.run env s.generator
      return (answer, ⟨g, s.files ++ stored s.generator command⟩)
  | reload format failure n, s => do
      let (answer, g) ← (Command.load format ⟨s.file n, failure⟩).run env s.generator
      return (answer, { s with generator := g })

/-- Carries out steps in order, each in its own surroundings, and returns the answers. -/
def runAll : List (Env × Step) → Session → Option (List (Except ChainError Answer) × Session)
  | [], s => some ([], s)
  | (env, step) :: rest, s => do
      let (answer, s) ← step.run env s
      let (answers, s) ← runAll rest s
      return (answer :: answers, s)

theorem runAll_cons_of_run {env : Env} {step : Step} {rest : List (Env × Step)} {s s' : Session}
    {answer : Except ChainError Answer} (h : step.run env s = some (answer, s')) :
    runAll ((env, step) :: rest) s = (runAll rest s').map fun r => (answer :: r.1, r.2) := by
  rw [runAll, h, Option.map_eq_bind]
  rfl

theorem run_ask {env : Env} {command : Command} {s : Session} {g : Generator}
    {answer : Except ChainError Answer} (h : command.run env s.generator = some (answer, g)) :
    (Step.ask command).run env s =
      some (answer, ⟨g, s.files ++ stored s.generator command⟩) := by
  rw [Step.run, h]
  rfl

/-- The formats of the stored files after a step, from those before. -/
def Step.formats (before : List Format) : Step → List Format
  | ask (.store format _) => before ++ [format]
  | _ => before

/-- The step loads no text file as a binary one.  The formats are those of the stored files. -/
def Step.Faithful (formats : List Format) : Step → Prop
  | reload .binary _ n => formats[n]? ≠ some .text
  | _ => True

/-- No step loads a text file as a binary one.  The formats are those of the files that are
stored at the start. -/
def Faithful : (formats : List Format) → List (Env × Step) → Prop
  | _, [] => True
  | formats, (_, step) :: rest => step.Faithful formats ∧ Faithful (step.formats formats) rest

theorem Faithful.take {formats : List Format} {steps : List (Env × Step)}
    (h : Faithful formats steps) (n : Nat) : Faithful formats (steps.take n) := by
  induction steps generalizing formats n with
  | nil => rwa [List.take_nil]
  | cons step rest ih =>
      cases n with
      | zero => trivial
      | succ n => exact ⟨h.1, ih h.2 n⟩

/-- The steps are the same in the same surroundings, but for the case of ASCII letters in what is
learned or continued. -/
inductive Step.Alike : Env × Step → Env × Step → Prop
  | ask (env : Env) {c c' : Command} : c.Alike c' → Alike (env, .ask c) (env, .ask c')
  | reload (env : Env) (format : Format) (failure : Option ReadFailure) (n : Nat) :
      Alike (env, .reload format failure n) (env, .reload format failure n)

/-- The sessions differ in the case of ASCII letters only. -/
structure Alike (s t : Session) : Prop where
  generator : s.generator.Alike t.generator
  files : List.Forall₂ SameFile s.files t.files

namespace Alike

variable {s t : Session} {env : Env}

/-- The files with one number are alike, if there are any. -/
theorem getElem?_files (A : s.Alike t) (n : Nat) :
    Option.Rel SameFile s.files[n]? t.files[n]? := by
  obtain ⟨-, hfiles⟩ := A
  generalize s.files = fs at hfiles ⊢
  generalize t.files = fs' at hfiles ⊢
  induction hfiles generalizing n with
  | nil => exact .none
  | cons hfile _ ih =>
      cases n with
      | zero => exact .some hfile
      | succ n => exact ih n

/-- A stored file is read alike, in any format but where it is a text file that is read as a
binary one. -/
theorem readRecords (A : s.Alike t) {format : Format} {failure : Option ReadFailure} {n : Nat}
    (h : (Step.reload format failure n).Faithful s.formats) (now : Instant) :
    SameOutcome SameRecords (Chain.readRecords format now ⟨s.file n, failure⟩)
      (Chain.readRecords format now ⟨t.file n, failure⟩) := by
  have hfiles := A.getElem?_files n
  have hformats : s.formats[n]? = s.files[n]?.map (·.1) := List.getElem?_map ..
  rw [file, file]
  generalize s.files[n]? = f at hfiles hformats
  generalize t.files[n]? = f' at hfiles
  cases hfiles with
  | none => exact .refl SameRecords.refl _
  | some hfile =>
      cases format with
      | text =>
          have hinput : Input.Alike ⟨_, failure⟩ ⟨_, failure⟩ := ⟨hfile.bytes, rfl⟩
          exact TextFormat.read_alike hinput now
      | binary =>
          refine hfile.records (fun htext => h ?_) failure
          rw [hformats, Option.map_some, htext]
      | dot => exact .error rfl

/-- The files that alike requests leave are alike. -/
theorem stored {g h : Generator} (A : g.Alike h) {c c' : Command} (hc : c.Alike c') :
    List.Forall₂ SameFile (Session.stored g c) (Session.stored h c') := by
  cases hc with
  | same =>
      cases c with
      | store format sink => exact .cons (A.graph.store format sink).1 .nil
      | _ => exact .nil
  | _ => exact .nil

/-- An alike step is answered alike and keeps sessions alike. -/
theorem step (A : s.Alike t) {x y : Env × Step} (hxy : Step.Alike x y)
    (hx : x.2.Faithful s.formats) :
    Option.Rel (fun a b => SameOutcome SameAnswer a.1 b.1 ∧ a.2.Alike b.2 ∧
        a.2.formats = x.2.formats s.formats)
      (x.2.run x.1 s) (y.2.run y.1 t) := by
  cases hxy with
  | @ask env c c' hc =>
      refine rel_bind (A.generator.run hc) fun a b hab =>
        .some ⟨hab.result, ⟨hab.generator, ?_⟩, ?_⟩
      · exact List.rel_append A.files (stored A.generator hc)
      · rw [formats, List.map_append]
        cases c with
        | store format sink => rfl
        | _ => exact List.append_nil _
  | reload env format failure n =>
      exact rel_bind (A.generator.run_load (A.readRecords hx env.now)) fun a b hab =>
        .some ⟨hab.result, ⟨hab.generator, A.files⟩, rfl⟩

/-- Alike steps are answered alike one after another, and keep sessions alike. -/
theorem runAll (A : s.Alike t) {steps steps' : List (Env × Step)}
    (hsteps : List.Forall₂ Step.Alike steps steps') (hfaithful : Faithful s.formats steps) :
    Option.Rel (fun a b => List.Forall₂ (SameOutcome SameAnswer) a.1 b.1 ∧ a.2.Alike b.2)
      (runAll steps s) (runAll steps' t) := by
  induction hsteps generalizing s t with
  | nil => exact .some ⟨.nil, A⟩
  | cons hstep _ ih =>
      -- The formats of the stored files go by the steps alone, so the rest is faithful too.
      refine rel_bind (A.step hstep hfaithful.1) fun a b hab => ?_
      obtain ⟨hanswer, B, hformats⟩ := hab
      refine rel_bind (ih B (hformats ▸ hfaithful.2)) fun as bs hrest => ?_
      exact .some ⟨.cons hanswer hrest.1, hrest.2⟩

end Alike

/-- What a session shows besides its answers: the random cursor with the number of draws, the
number of records, the time of the last age pass and the statistics up to case. -/
structure SameNumbers (s t : Session) : Prop where
  cursor : s.generator.cursor = t.generator.cursor
  count : s.generator.graph.count = t.generator.graph.count
  lastCleanup : s.generator.lastCleanup = t.generator.lastCleanup
  stats : SameAnswer (.stats s.generator.graph.stats) (.stats t.generator.graph.stats)

theorem Alike.sameNumbers {s t : Session} (A : s.Alike t) : SameNumbers s t :=
  ⟨A.generator.cursor, A.generator.graph.count, A.generator.lastCleanup,
    A.generator.sameAnswer_stats⟩

/-- **Letter case decides spelling and nothing else.**  Two sessions start with a new generator of
one configuration and take steps that differ in the case of ASCII letters only.  Then after any
number of steps both have drawn for ever, or both have given answers that are the same up to case,
have failed at the same steps, and show the same numbers.  No step may load a text file as a
binary one. -/
theorem spelling_spec (config : Config) (now : Instant) {steps steps' : List (Env × Step)}
    (hsteps : List.Forall₂ Step.Alike steps steps') (hfaithful : Faithful [] steps) (n : Nat) :
    Option.Rel
      (fun a b => List.Forall₂ (SameOutcome SameAnswer) a.1 b.1 ∧ SameNumbers a.2 b.2)
      (runAll (steps.take n) ⟨Generator.new config now, []⟩)
      (runAll (steps'.take n) ⟨Generator.new config now, []⟩) := by
  have start : Alike ⟨Generator.new config now, []⟩ ⟨Generator.new config now, []⟩ :=
    ⟨.refl _, .nil⟩
  have hrun := start.runAll (List.forall₂_take n hsteps) (hfaithful.take n)
  generalize runAll (steps.take n) _ = x at hrun ⊢
  generalize runAll (steps'.take n) _ = y at hrun ⊢
  cases hrun with
  | none => exact .none
  | some hab => exact .some ⟨hab.1, hab.2.sameNumbers⟩

/-- A text is learned and continued, stored in a binary file that is loaded again, and stored as
text that is loaded again. -/
def reloaded (text prompt : String) : List (Env × Step) :=
  let env : Env := ⟨Source.counter, 7⟩
  [(env, .ask (.text text)), (env, .ask (.generateFrom prompt 1 5)),
    (env, .ask (.store .binary .unlimited)), (env, .reload .binary none 0),
    (env, .ask (.store .text .unlimited)), (env, .reload .text none 1), (env, .ask .stats)]

/-- Two spellings of a text and of a prompt. -/
theorem spelling_spec_reloaded :
    List.Forall₂ Step.Alike (reloaded "Ab cD." "AB") (reloaded "aB Cd." "ab") ∧
      Faithful [] (reloaded "Ab cD." "AB") ∧
      Option.Rel
        (fun a b => List.Forall₂ (SameOutcome SameAnswer) a.1 b.1 ∧ SameNumbers a.2 b.2)
        (runAll ((reloaded "Ab cD." "AB").take 7) ⟨Generator.new {} 7, []⟩)
        (runAll ((reloaded "aB Cd." "ab").take 7) ⟨Generator.new {} 7, []⟩) := by
  have htext : fold "Ab cD." = fold "aB Cd." := by
    rw [← String.toList_inj, toList_fold, toList_fold]
    decide
  have hprompt : fold "AB" = fold "ab" := by
    rw [← String.toList_inj, toList_fold, toList_fold]
    decide
  have hsteps : List.Forall₂ Step.Alike (reloaded "Ab cD." "AB") (reloaded "aB Cd." "ab") :=
    .cons (.ask _ (.text htext)) (.cons (.ask _ (.generateFrom 1 5 hprompt))
      (.cons (.ask _ (.same _)) (.cons (.reload ..) (.cons (.ask _ (.same _))
      (.cons (.reload ..) (.cons (.ask _ (.same _)) .nil))))))
  have hfaithful : Faithful [] (reloaded "Ab cD." "AB") :=
    ⟨trivial, trivial, trivial, by simp [Step.Faithful, Step.formats], trivial, trivial, trivial,
      trivial⟩
  exact ⟨hsteps, hfaithful, spelling_spec {} 7 hsteps hfaithful 7⟩

/-! ### Text that is loaded as a binary file -/

/-- What follows the magic bytes in a binary file without records. -/
def afterMagic : String := "\x01\x00\x00\x00\x00\x00\x00\x00\x00\x00"

/-- Learns three words, drops the record that starts the line, stores the others as text and loads
them as a binary file. -/
def misread (word : String) : List (Env × Step) :=
  let env : Env := ⟨Source.counter, 2⟩
  [(env, .ask (.text (word ++ " b c"))), (env, .ask (.maxSize 2)),
    (env, .ask (.store .text .unlimited)), (env, .reload .binary none 0)]

/-- The records of the three words, by prefixes. -/
def misreadEntries (word : String) : List (Prefix × Array Suffix) :=
  [(.start, #[⟨⟨word⟩, false, 2⟩]), (⟨.blank, ⟨word⟩⟩, #[⟨⟨"b"⟩, false, 2⟩]),
    (⟨⟨word⟩, ⟨"b"⟩⟩, #[⟨⟨"c"⟩, true, 2⟩])]

/-- The text file that is loaded. -/
def misreadFile (word : String) : List UInt8 :=
  TextFormat.write ((misreadEntries word).tail.reverse.flatMap bagRecords)

theorem distinct_misreadEntries {word : String} (hblank : Word.isBlank ⟨word⟩ = false) :
    Distinct ((misreadEntries word).map Prod.fst) := by
  have hparts (p q : Prefix) : (p == q) = (p.older == q.older && p.newer == q.newer) := rfl
  have hne : (Word.blank == ⟨word⟩) = false := by rwa [beq_eq_false_comm, Word.beq_blank]
  simp [Distinct, misreadEntries, Prefix.start, hparts, hne]

/-- The first word drawn is a multiple of three, so the record that starts the line is dropped. -/
theorem exists_drop_first {word : String}
    (htext : textRecords 2 (word ++ " b c") = (misreadEntries word).flatMap bagRecords)
    (hblank : Word.isBlank ⟨word⟩ = false) :
    ∃ g₁ g₂, (Generator.new {} 2).addText ⟨Source.counter, 2⟩ (word ++ " b c") = some g₁ ∧
      g₁.setMaxSize ⟨Source.counter, 2⟩ 2 = some g₂ ∧
      g₂.graph.bags.entries = (misreadEntries word).tail.reverse ∧ g₂.graph.count = 2 := by
  have hlength : (textRecords 2 (word ++ " b c")).length = 3 := by rw [htext]; rfl
  obtain ⟨graph, hgraph⟩ : ∃ graph, graph = Graph.ofRecords (textRecords 2 (word ++ " b c")) :=
    ⟨_, rfl⟩
  have hentries : graph.bags.entries = misreadEntries word := by
    rw [hgraph, htext, Graph.entries_ofRecords_flatMap (distinct_misreadEntries hblank)]
    simp [misreadEntries]
  have hcount : graph.count = 3 := by
    rw [hgraph, ← hlength]
    exact (Graph.count_insertAll ..).trans (Nat.zero_add _)
  have B : graph.Built := hgraph ▸ Graph.built_ofRecords _
  have hlearn : (Generator.new {} 2).addText ⟨Source.counter, 2⟩ (word ++ " b c") =
      some { Generator.new {} 2 with graph := graph } := by
    rw [hgraph]
    refine Generator.addText_of_fits ?_
    change 0 + (textRecords 2 (word ++ " b c")).length ≤ _
    rw [hlength]
    decide
  obtain ⟨left, hremove, hleft, hleftCount⟩ := B.consistent.exists_removeNth_zero hentries
  have hbelow : Source.counter.below 3 ⟨2, 0⟩ = some (0, ⟨3, 1⟩) := by rfl
  have hdrop : graph.dropRandom Source.counter 1 ⟨2, 0⟩ = some (left, ⟨3, 1⟩) := by
    simp only [Graph.dropRandom, hcount, bind, StateT.bind, Option.bind, hbelow, hremove]
    rfl
  have haged : graph.aged { maxSize := 2 } 2 0 = graph := by
    rw [Graph.aged, if_neg (by decide)]
  obtain ⟨g, hset, hg⟩ : ∃ g, { Generator.new {} 2 with graph := graph }.setMaxSize
      ⟨Source.counter, 2⟩ 2 = some g ∧ g.graph = left := by
    rw [Generator.setMaxSize, Generator.sweep_eq (r := left) (c := ⟨3, 1⟩)]
    · exact ⟨_, rfl, rfl⟩
    · simp only [Generator.new, haged, hcount]
      exact hdrop
  exact ⟨_, g, hlearn, hset, by rw [hg, hleft]; rfl, by rw [hg, hleftCount, hcount]⟩

/-- The last step is taken in a session whose file is the text of the two records left. -/
theorem runAll_misread (word : String)
    (htext : textRecords 2 (word ++ " b c") = (misreadEntries word).flatMap bagRecords)
    (hblank : Word.isBlank ⟨word⟩ = false) :
    ∃ s : Session, s.file 0 = misreadFile word ∧
      runAll (misread word) ⟨Generator.new {} 2, []⟩ =
        ((Step.reload .binary none 0).run ⟨Source.counter, 2⟩ s).map fun r =>
          ([.ok .done, .ok .done, .ok (.stored 2 (misreadFile word)), r.1], r.2) := by
  obtain ⟨g₁, g₂, hlearn, hset, hentries, hcount⟩ := exists_drop_first htext hblank
  have hwritten : (g₂.graph.store .text .unlimited).taken = misreadFile word := by
    rw [Graph.store, Graph.render, Graph.records_eq, hentries]
    rfl
  have houtcome : (g₂.graph.store .text .unlimited).outcome = .ok 2 := by
    change Except.ok g₂.graph.count = _
    rw [hcount]
  have learn : (Step.ask (.text (word ++ " b c"))).run ⟨Source.counter, 2⟩
      ⟨Generator.new {} 2, []⟩ = some (.ok .done, ⟨g₁, []⟩) :=
    run_ask (by rw [Command.run, hlearn]; rfl)
  have drop : (Step.ask (.maxSize 2)).run ⟨Source.counter, 2⟩ ⟨g₁, []⟩ =
      some (.ok .done, ⟨g₂, []⟩) :=
    run_ask (by rw [Command.run, hset]; rfl)
  have store : (Step.ask (.store .text .unlimited)).run ⟨Source.counter, 2⟩ ⟨g₂, []⟩ =
      some (.ok (.stored 2 (misreadFile word)), ⟨g₂, [(.text, misreadFile word)]⟩) := by
    rw [← hwritten]
    exact run_ask (by rw [Command.run, houtcome]; rfl)
  refine ⟨⟨g₂, [(.text, misreadFile word)]⟩, rfl, ?_⟩
  rw [misread, runAll_cons_of_run learn, runAll_cons_of_run drop, runAll_cons_of_run store, runAll,
    Option.map_map, Option.map_map]
  cases (Step.reload .binary none 0).run ⟨Source.counter, 2⟩
    (⟨g₂, [(.text, misreadFile word)]⟩ : Session) with
  | none => rfl
  | some r => rfl

/-- A binary file without records is loaded in place of the text. -/
theorem run_reload_of_spells (env : Env) {s : Session}
    (h : BinaryFormat.SpellsFile (s.file 0) []) :
    ∃ s', (Step.reload .binary none 0).run env s = some (.ok (.count 0), s') := by
  obtain ⟨n, g, hsweep, -, hcount⟩ := Generator.sweep_of_fits
    (g := { s.generator with graph := Graph.empty }) env Graph.consistent_empty (Nat.zero_le _)
    (.inr fun _ hr => nomatch hr)
  have hload : s.generator.load env .binary ⟨s.file 0, none⟩ = some (.ok 0, g) := by
    rw [Generator.load_of_spells h]
    change Option.map _ ({ s.generator with graph := Graph.empty }.sweep env) = _
    rw [hsweep, Option.map_some, hcount]
    rfl
  refine ⟨{ s with generator := g }, ?_⟩
  rw [Step.run, Command.run, hload]
  rfl

/-- A file that is refused leaves the session as it is. -/
theorem run_reload_of_error (env : Env) {s : Session} {e : ChainError}
    (h : BinaryFormat.read ⟨s.file 0, none⟩ = .error e) :
    (Step.reload .binary none 0).run env s = some (.error e, s) := by
  have hload : s.generator.load env .binary ⟨s.file 0, none⟩ = some (.error e, s.generator) := by
    rw [Generator.load, Graph.load, readRecords, h]
    rfl
  rw [Step.run, Command.run, hload]
  rfl

/-- The text of one session is taken for a binary file, and that of the other is not. -/
theorem misread_differs :
    List.Forall₂ Step.Alike (misread ("MKV1" ++ afterMagic)) (misread ("mkv1" ++ afterMagic)) ∧
      ¬ Option.Rel
        (fun a b => List.Forall₂ (SameOutcome SameAnswer) a.1 b.1 ∧ SameNumbers a.2 b.2)
        (runAll (misread ("MKV1" ++ afterMagic)) ⟨Generator.new {} 2, []⟩)
        (runAll (misread ("mkv1" ++ afterMagic)) ⟨Generator.new {} 2, []⟩) := by
  obtain ⟨s, hfile, hs⟩ := runAll_misread ("MKV1" ++ afterMagic) (by rfl) (by decide)
  obtain ⟨t, hfile', ht⟩ := runAll_misread ("mkv1" ++ afterMagic) (by rfl) (by decide)
  have hspells : BinaryFormat.SpellsFile (s.file 0) [] := by
    rw [hfile]
    exact ⟨[0, 0, 0, 0, 0, 0, 0, 0], [], (misreadFile ("MKV1" ++ afterMagic)).drop 14,
      by rfl, rfl, rfl, .nil⟩
  have hrefused : BinaryFormat.read ⟨t.file 0, none⟩ =
      .error (.corrupt (.magic [0x6d, 0x6b, 0x76, 0x31])) := by
    rw [hfile']
    rfl
  obtain ⟨s', hlast⟩ := run_reload_of_spells ⟨Source.counter, 2⟩ hspells
  have hlast' := run_reload_of_error ⟨Source.counter, 2⟩ hrefused
  have hmagic : fold "MKV1" = fold "mkv1" := by
    rw [← String.toList_inj, toList_fold, toList_fold]
    decide
  have htexts : fold ("MKV1" ++ afterMagic ++ " b c") = fold ("mkv1" ++ afterMagic ++ " b c") := by
    simp only [fold_append, hmagic]
  refine ⟨.cons (.ask _ (.text htexts)) (.cons (.ask _ (.same _)) (.cons (.ask _ (.same _))
    (.cons (.reload ..) .nil))), ?_⟩
  rw [hs, ht, hlast, hlast', Option.map_some, Option.map_some]
  intro h
  obtain ⟨⟨hanswers, -⟩⟩ := h
  obtain _ | ⟨-, hanswers⟩ := hanswers
  obtain _ | ⟨-, hanswers⟩ := hanswers
  obtain _ | ⟨-, hanswers⟩ := hanswers
  obtain _ | ⟨hanswer, -⟩ := hanswers
  cases hanswer

end Session

end ChainScript.Chain
