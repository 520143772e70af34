import ChainScript.Chain.Generator

/-!
# Commands

What a generator can be asked to do, as data, and what it answers.  A run of commands is a
list of them, so that statements about every history of a generator are statements about
lists.

## Main definitions

* `Command`, `Answer` — requests and answers.
* `Command.run` — carries out a request.
-/

namespace ChainScript.Chain

/-- A request to a generator. -/
inductive Command
  /-- Changes the random state. -/
  | seed (word : UInt64)
  /-- Learns a text. -/
  | text (learned : String)
  /-- Learns the lines of a stream. -/
  | reader (input : Input)
  /-- Makes a text. -/
  | generate (least most : Nat)
  /-- Makes a text around a prompt. -/
  | generateFrom (prompt : String) (least most : Nat)
  | cleanup
  | maxSize (n : Nat)
  | maxAge (d : Duration)
  | config
  | stats
  | size
  | clear
  | store (format : Format) (sink : Sink)
  | load (format : Format) (input : Input)

/-- What a generator answers. -/
inductive Answer
  | done
  | words (ws : List String)
  | count (n : Nat)
  | config (c : Config)
  | stats (s : Stats)
  | stored (records : Nat) (bytes : List UInt8)

/-- Carries out a request.  A request that fails may still have changed the generator: lines
read before the failure stay learned. -/
def Command.run (env : Env) (command : Command) (g : Generator) :
    Option (Except ChainError Answer × Generator) :=
  match command with
  | seed word => some (.ok .done, g.setSeed word)
  | text learned => do return (.ok .done, ← g.addText env learned)
  | reader input => do
      let (outcome, g) ← g.addReader env input
      return (outcome.map fun _ => .done, g)
  | generate least most => do
      let (ws, g) ← g.generate env least most
      return (.ok (.words ws), g)
  | generateFrom prompt least most => do
      let (ws, g) ← g.generateFrom env prompt least most
      return (.ok (.words ws), g)
  | cleanup => do
      let (n, g) ← g.cleanup env
      return (.ok (.count n), g)
  | maxSize n => do return (.ok .done, ← g.setMaxSize env n)
  | maxAge d => do return (.ok .done, ← g.setMaxAge env d)
  | config => some (.ok (.config g.config), g)
  | stats => some (.ok (.stats g.graph.stats), g)
  | size => some (.ok (.count g.graph.count), g)
  | clear => some (.ok .done, g.clear)
  | store format sink =>
      let stored := g.graph.store format sink
      some (stored.outcome.map fun n => .stored n stored.taken, g)
  | load format input => do
      let (outcome, g) ← g.load env format input
      return (outcome.map .count, g)

/-- Carries out requests in order, each in its own surroundings; answers are dropped. -/
def runAll : List (Env × Command) → Generator → Option Generator
  | [], g => some g
  | (env, command) :: rest, g => do
      let (_, g) ← command.run env g
      runAll rest g

end ChainScript.Chain
