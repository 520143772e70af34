import ChainScript.Script.Object.Call
import ChainScript.Script.Object.Inspect
import ChainScript.Script.Object.Visit

/-!
# Sessions

A session works on objects in numbered slots, one operation after another.  An operation takes
the object of its slot away while it works on it; what runs inside it works on the object that
it yielded.

## Main definitions

* `Op` — operations, with the operations that run inside them.
* `Reply`, `Shown` — what an operation answers, and how it shows an object.
* `Session`, `Act`, `Try` — the heap and the slots, and computations on them.
-/

namespace ChainScript.Script

/-! ### Operations -/

/-- An argument: a new object, by a registry of its own if one is given, or the object of a
slot. -/
inductive Arg (U : Universe)
  | value (v : Value U) (registry : Option Nat)
  | slot (n : Nat)

/-- How a registry makes an object. -/
inductive Making (U : Universe)
  | object (v : Value U)
  | share (v : Value U)
  | construct (k : Kind U) (args : List (Arg U))
  | constructNamed (name : String) (args : List (Arg U))

/-- How an object is reached from another. -/
inductive Reaching
  | path (names : List String)
  | dotted (names : String)
  | reference (name : String)

/-- How an object is made from another. -/
inductive Deriving (U : Universe)
  | convertTo (k : Kind U)
  | copy
  | shareHandle

/-- Questions to an object. -/
inductive Question (U : Universe)
  | value
  | info
  | text
  | diagnostics
  | is (k : Kind U)
  | cast (k : Kind U)
  | convertedCast (k : Kind U)

/-- Operations.  One that works on an object names its slot, or else works on the current
object; `into` is the slot for the result where a slot or a registry was named, and `next` runs
inside the operation. -/
inductive Op (U : Universe)
  /-- A registry makes an object. -/
  | make (how : Making U) (registry into : Option Nat) (next : List (Op U))
  /-- An object is made for a variable that holds the value. -/
  | bind (v : Value U) (policy : Policy) (registry : Option Nat) (next : List (Op U))
  | reach (slot : Option Nat) (how : Reaching) (next : List (Op U))
  | call (slot : Option Nat) (name : String) (args : List (Arg U)) (into : Option Nat)
      (next : List (Op U))
  | set (slot : Option Nat) (name : String) (value : Arg U) (converted : Bool)
  | derive (slot : Option Nat) (how : Deriving U) (into : Option Nat) (next : List (Op U))
  | ask (slot : Option Nat) (question : Question U)
  /-- All items at once; `next` runs on the first. -/
  | items (slot into : Option Nat) (next : List (Op U))
  /-- One item after another; `next` runs on each. -/
  | iterate (slot : Option Nat) (next : List (Op U))
  /-- A visit during which `next` runs, and at whose end a value may be assigned. -/
  | visit (slot : Option Nat) (k : Kind U) (access : Access) (assign : Option (Value U))
      (next : List (Op U))
  | intoInner (slot : Nat) (k : Kind U)
  | drop (slot : Nat)

/-! ### Replies -/

variable {U : Universe}

/-- Why an operation yields nothing. -/
inductive Fault (U : Universe)
  | failed (e : ScriptError U)
  /-- There is no such registry, or no object where one is needed. -/
  | misplaced

/-- An object as replies show it. -/
structure Shown (U : Universe) where
  type : String
  mode : Mode
  value : Except (ScriptError U) (Value U)

/-- What an operation answers. -/
inductive Reply (U : Universe)
  | fault (f : Fault U)
  | nothing
  | truth (b : Bool)
  | text (s : String)
  | value (v : Value U)
  | object (o : Shown U)
  | objects (l : List (Shown U))
  | info (o : Shown U) (consistent registered : Bool)
  /-- One reply for each item. -/
  | each (l : List (Reply U))
  /-- The replies of the operations that ran inside. -/
  | andThen (r : Reply U) (next : List (Reply U))
  /-- The value of the receiver afterwards. -/
  | andNow (r : Reply U) (now : Except (ScriptError U) (Value U))
  /-- The value of the bound variable afterwards. -/
  | andNative (r : Reply U) (v : Value U)

/-- A reply and the objects to be stored. -/
structure Yield (U : Universe) where
  reply : Reply U
  objects : List (Object U) := []

/-! ### States and computations -/

/-- The registries that a session uses, and the number of the one that it uses where none is
named. -/
structure Surroundings (U : Universe) where
  registries : Array (Registry U)
  home : Nat

/-- The heap and the slots. -/
structure Session (U : Universe) where
  heap : Heap U := {}
  slots : List (Nat × Object U) := []

/-- A computation on a session. -/
abbrev Act (U : Universe) (α : Type) := StateM (Session U) α

/-- A computation on a session that may fail. -/
abbrev Try (U : Universe) (α : Type) := ExceptT (Fault U) (StateM (Session U)) α

namespace Session

/-- The session without the object of a slot. -/
def take (n : Nat) (s : Session U) : Session U :=
  { s with slots := s.slots.filter (·.1 != n) }

/-- The session with an object in a slot. -/
def store (n : Nat) (o : Object U) (s : Session U) : Session U :=
  { s with slots := (n, o) :: (s.take n).slots }

/-- The session with objects in a slot and those after it. -/
def storeAll (n : Nat) : List (Object U) → Session U → Session U
  | [], s => s
  | o :: rest, s => storeAll (n + 1) rest (s.store n o)

/-- The session with another heap. -/
def onHeap (f : Heap U → Heap U) (s : Session U) : Session U := { s with heap := f s.heap }

end Session

/-- A computation on the heap, as one on the session. -/
def attempt {α : Type} (run : Run U α) : Act U (Except (ScriptError U) α) := fun s =>
  let (a, h) := run.run s.heap
  (a, { s with heap := h })

namespace Try

/-- There is nothing to work with. -/
def misplaced {α : Type} : Try U α := throw .misplaced

/-- A computation on the heap, whose errors are those of the operation. -/
def lift {α : Type} (run : Run U α) : Try U α := do
  match ← attempt run with
  | .ok a => return a
  | .error e => throw (.failed e)

/-- The registry of a number, or the usual one. -/
def registry (e : Surroundings U) (n : Option Nat) : Try U (Registry U) := do
  match e.registries[n.getD e.home]? with
  | some r => return r
  | none => misplaced

/-- The object of a slot. -/
def slot (n : Nat) : Try U (Object U) := do
  match (← get).slots.lookup n with
  | some o => return o
  | none => misplaced

/-- The computation, whose failure is its reply. -/
def reply (act : Try U (Yield U)) : Act U (Yield U) := do
  match ← act.run with
  | .ok y => return y
  | .error f => return ⟨.fault f, []⟩

end Try

end ChainScript.Script
