import ChainScript.Chain.Stats
import ChainScript.Chain.Storage
import ChainScript.Chain.Sweep
import ChainScript.Chain.Walk

/-!
# Generators

A generator learns transitions from text, keeps them within its bounds and walks over them to
make new text.  Its operations take the surroundings, a random source and the current time,
and are `none` where the source never yields an acceptable word.

## Main definitions

* `Env` — the surroundings of an operation.
* `Generator` — graph, bounds, random cursor and time of the last age pass.
* `Generator.addText`, `Generator.addReader`, `Generator.load` — learning.
* `Generator.generate`, `Generator.generateFrom` — making text.
* `Generator.cleanup`, `Generator.setMaxSize`, `Generator.setMaxAge`, `Generator.clear` —
  forgetting.
-/

namespace ChainScript.Chain

open Text

/-- The surroundings of an operation. -/
structure Env where
  source : Source
  now : Instant

/-- A bounded, ageing chain. -/
structure Generator where
  graph : Graph := Graph.empty
  config : Config := {}
  cursor : Cursor
  /-- When the last age pass took place. -/
  lastCleanup : Instant := 0

namespace Generator

variable (env : Env)

/-- A generator without records, seeded with the time of its creation. -/
def new (config : Config) (now : Instant) : Generator :=
  { config := config, cursor := ⟨now.toUInt64, 0⟩ }

/-- The generator with another random state. -/
def setSeed (seed : UInt64) (g : Generator) : Generator :=
  { g with cursor := { g.cursor with word := seed } }

/-- Runs a computation that draws, on the generator's cursor. -/
def drawing {α : Type} (g : Generator) (d : Draw α) : Option (α × Generator) := do
  let (a, cursor) ← d g.cursor
  return (a, { g with cursor := cursor })

/-- Sweeps the graph, and counts the records that leave it. -/
def sweep (g : Generator) : Option (Nat × Generator) := do
  let (swept, cursor) ← Chain.sweep env.source g.config env.now g.lastCleanup g.graph g.cursor
  return (swept.aged + swept.dropped,
    { g with graph := swept.graph, lastCleanup := swept.lastCleanup, cursor := cursor })

/-! ### Learning -/

/-- Adds a record, and sweeps if that makes one too many. -/
def record (p : Prefix) (s : Suffix) (g : Generator) : Option Generator :=
  let g := { g with graph := g.graph.insert p s }
  if g.config.maxSize < g.graph.count then (·.2) <$> g.sweep env else some g

/-- Learns the words that follow the prefix on a line.  The last is terminal, and so is each
that ends a sentence. -/
def learnWords : Prefix → List String → Generator → Option Generator
  | _, [], g => some g
  | p, w :: rest, g => do
      let g ← g.record env p ⟨⟨w⟩, rest.isEmpty || endsSentence w, env.now⟩
      learnWords (p.shift ⟨w⟩) rest g

/-- Learns a line. -/
def learnLine (g : Generator) (line : String) : Option Generator :=
  g.learnWords env Prefix.start (words line)

/-- Learns every line of a text. -/
def addText (text : String) (g : Generator) : Option Generator :=
  (lines text).foldlM (learnLine env) g

/-- Carriage returns at a line's end make no difference to what is learned. -/
@[simp] theorem learnLine_withoutReturn (g : Generator) (line : String) :
    g.learnLine env (withoutReturn line) = g.learnLine env line := by
  rw [learnLine, words_withoutReturn, learnLine]

/-- Learns lines until one is no text.  The stream drops a carriage return with the newline that
it precedes, so not from a last line without newline (`endsOpen`); one more is dropped from
each line. -/
def learnRaw (endsOpen : Bool) :
    List (List UInt8) → Generator → Option (Except ChainError Unit × Generator)
  | [], g => some (.ok (), g)
  | line :: rest, g =>
      match decode? line with
      | none => some (.error (.io .invalidText), g)
      | some text => do
          let read := if endsOpen && rest.isEmpty then text else withoutReturn text
          learnRaw endsOpen rest (← g.learnLine env (withoutReturn read))

/-- Each line is learned with whatever carriage returns it has. -/
theorem learnRaw_cons (endsOpen : Bool) (line : List UInt8) (rest : List (List UInt8))
    (g : Generator) :
    g.learnRaw env endsOpen (line :: rest) =
      match decode? line with
      | none => some (.error (.io .invalidText), g)
      | some text => g.learnLine env text >>= learnRaw env endsOpen rest := by
  rw [learnRaw]
  cases decode? line with
  | none => rfl
  | some text => cases endsOpen && rest.isEmpty <;> simp

/-- Learns the lines of a stream.  Lines before one that cannot be read stay learned. -/
def addReader (input : Input) (g : Generator) :
    Option (Except ChainError Unit × Generator) := do
  match ← g.learnRaw env input.endsOpen input.rawLines, input.failure with
  | (.ok (), g), some failure => return (.error (.io (.device failure.reason)), g)
  | result, _ => return result

/-- Replaces the graph by a stored one and sweeps it; returns the number of records kept.
Where the stored one cannot be read nothing changes. -/
def load (format : Format) (input : Input) (g : Generator) :
    Option (Except ChainError Nat × Generator) := do
  match Graph.load format env.now input with
  | .error e => return (.error e, g)
  | .ok graph =>
      let (_, g) ← { g with graph := graph }.sweep env
      return (.ok g.graph.count, g)

/-! ### Forgetting -/

/-- Sweeps now; returns the number of records that left. -/
def cleanup (g : Generator) : Option (Nat × Generator) := g.sweep env

/-- Changes the size bound and sweeps. -/
def setMaxSize (maxSize : Nat) (g : Generator) : Option Generator :=
  (·.2) <$> { g with config := { g.config with maxSize := maxSize } }.sweep env

/-- Changes the age bound and sweeps. -/
def setMaxAge (maxAge : Duration) (g : Generator) : Option Generator :=
  (·.2) <$> { g with config := { g.config with maxAge := maxAge } }.sweep env

/-- Forgets every record; bounds, random state and time of the last age pass stay. -/
def clear (g : Generator) : Generator := { g with graph := Graph.empty }

/-! ### Making text -/

/-- The words of a walk from a random start. -/
def walk (source : Source) (graph : Graph) (least most : Nat) : Draw (Array Word) := do
  let most := max most least
  let i ← source.below graph.starts.size
  match graph.starts.members[i]? with
  | none => pure #[]
  | some start =>
      let out := (start.tokens.take most).toArray
      forward source graph least (most - out.size) start out

/-- The words of a walk around a prompt, backwards to half the greatest length and then
forwards. -/
def walkFrom (source : Source) (graph : Graph) (prompt : List Word) (least most : Nat) :
    Draw (Array Word) := do
  let most := max most least
  let text ← backward source graph (most / 2 - prompt.length) prompt
  let p ← resumePrefix source graph text
  let out := text.toArray
  forward source graph least (most - out.size) p out

/-- Makes a text of at least `least` words where the records allow it, and of at most `most`;
a greatest length below the least is read as equal to it. -/
def generate (least most : Nat) (g : Generator) : Option (List String × Generator) := do
  let (out, g) ← g.drawing (walk env.source g.graph least most)
  return (out.toList.map (·.text), g)

/-- Makes a text that holds the words of the prompt as they are spelled.  A blank prompt asks
for any text. -/
def generateFrom (prompt : String) (least most : Nat) (g : Generator) :
    Option (List String × Generator) := do
  match words prompt with
  | [] => g.generate env least most
  | given =>
      let (out, g) ← g.drawing
        (walkFrom env.source g.graph (given.map Word.mk) least most)
      return (out.toList.map (·.text), g)

/-- The words of a text with a space between them. -/
def sentence (ws : List String) : String := " ".intercalate ws

end Generator

end ChainScript.Chain
