import ChainScript.Chain.Command

/-!
# The workbench

A workbench holds several generators that share a clock and a random source, and files by
name.  A generator may instead have surroundings of its own, whose draws are not counted.

## Main definitions

* `Workbench` — clock, source, generators and files.
* `Request` — what a workbench can be asked to do.
* `Request.run` — carries out a request; `Workbench.draws` counts the words drawn so far.
-/

namespace ChainScript.Chain

/-- A generator on a workbench. -/
structure Station where
  generator : Generator
  /-- Surroundings of its own, if it does not share those of the workbench. -/
  own : Option Env := none

/-- Generators, files, a clock and a random source. -/
structure Workbench where
  source : Source
  clock : Instant
  stations : List (Nat × Station) := []
  files : List (String × List UInt8) := []
  /-- Words drawn from the shared source so far. -/
  draws : Nat := 0

namespace Workbench

/-- The station with the given number. -/
def station? (b : Workbench) (g : Nat) : Option Station := b.stations.lookup g

/-- The number of records of a generator; none where there is no such generator. -/
def count (b : Workbench) (g : Nat) : Nat :=
  (b.station? g).elim 0 (·.generator.graph.count)

/-- Puts a station in its place. -/
def putStation (b : Workbench) (g : Nat) (s : Station) : Workbench :=
  { b with stations := (g, s) :: b.stations.filter (·.1 != g) }

/-- The bytes of a file; a file that was never written is empty. -/
def file (b : Workbench) (name : String) : List UInt8 := (b.files.lookup name).getD []

/-- Writes a file. -/
def putFile (b : Workbench) (name : String) (bs : List UInt8) : Workbench :=
  { b with files := (name, bs) :: b.files.filter (·.1 != name) }

/-- Makes a generator in the shared surroundings, or in its own. -/
def create (b : Workbench) (g : Nat) (config : Config) (own : Option Env) : Workbench :=
  let now := own.elim b.clock (·.now)
  b.putStation g ⟨Generator.new config now, own⟩

/-- Carries out a command on a generator, and counts its draws. -/
def command (b : Workbench) (g : Nat) (c : Command) :
    Option (Except ChainError Answer × Workbench) := do
  let s ← b.station? g
  let env := s.own.getD ⟨b.source, b.clock⟩
  let (answer, after) ← c.run env s.generator
  let spent := if s.own.isSome then 0 else after.cursor.draws - s.generator.cursor.draws
  let b := b.putStation g { s with generator := after }
  return (answer, { b with draws := b.draws + spent })

end Workbench

/-- A request to a workbench. -/
inductive Request
  /-- Makes or replaces a generator. -/
  | create (g : Nat) (config : Config) (own : Option Env)
  /-- Asks a generator. -/
  | ask (g : Nat) (command : Command)
  /-- Stores a graph; what was written in full becomes a file. -/
  | keep (g : Nat) (format : Format) (sink : Sink) (file : String)
  /-- Loads a graph from a file. -/
  | fetch (g : Nat) (format : Format) (failure : Option ReadFailure) (file : String)
  /-- Sets the clock. -/
  | setClock (now : Instant)
  /-- Moves the clock on. -/
  | advance (elapsed : Int64)

/-- Carries out a request; `none` where there is no such generator, or where the source never
yields an acceptable word. -/
def Request.run (r : Request) (b : Workbench) :
    Option (Except ChainError Answer × Workbench) :=
  match r with
  | create g config own => some (.ok .done, b.create g config own)
  | ask g command => b.command g command
  | keep g format sink name => do
      let (answer, b) ← b.command g (.store format sink)
      match answer with
      | .ok (.stored n bs) => return (.ok (.stored n bs), b.putFile name bs)
      | answer => return (answer, b)
  | fetch g format failure name => b.command g (.load format ⟨b.file name, failure⟩)
  | setClock now => some (.ok .done, { b with clock := now })
  | advance elapsed => some (.ok .done, { b with clock := b.clock + elapsed })

end ChainScript.Chain
