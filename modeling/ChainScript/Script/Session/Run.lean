import ChainScript.Script.Session.Basic

/-!
# Running a session

Operations run one after another.  An operation that fails leaves its error as its reply, and
the session goes on.

## Main definitions

* `Op.run`, `Op.runAll` — run operations.
* `Surroundings.replies` — the replies to operations that begin with empty slots.
-/

namespace ChainScript.Script

variable {U : Universe}

/-- The object of an argument; a new one is made by the given registry or by its own. -/
def Arg.object (e : Surroundings U) (types : Registry U) : Arg U → Try U (Object U)
  | .slot n => Try.slot n
  | .value v none => Try.lift (types.object v)
  | .value v (some n) => do Try.lift ((← Try.registry e (some n)).object v)

/-- Makes an object. -/
def Making.run (e : Surroundings U) (types : Registry U) : Making U → Try U (Object U)
  | .object v => Try.lift (types.object v)
  | .share v => Try.lift (types.share v)
  | .construct k args => do
      let args ← args.mapM (·.object e types)
      Try.lift (types.construct k args)
  | .constructNamed name args => do
      let args ← args.mapM (·.object e types)
      Try.lift (types.constructNamed name args)

/-- Reaches an object from another. -/
def Reaching.run (o : Object U) : Reaching → Run U (Object U)
  | .path names => o.get names
  | .dotted names => o.getPath names
  | .reference name => o.callRef name

/-- Makes an object from another, unless it cannot be shared. -/
def Deriving.run (o : Object U) : Deriving U → Run U (Option (Object U))
  | .convertTo k => some <$> o.convertTo k
  | .copy => some <$> o.copy
  | .shareHandle => pure o.shareHandle

/-- The value of an object. -/
def Object.now (o : Object U) : Act U (Except (ScriptError U) (Value U)) := attempt o.copyValue

/-- The object as replies show it. -/
def Object.show (o : Object U) : Act U (Shown U) := return ⟨o.typeName, o.mode, ← o.now⟩

/-- Answers a question. -/
def Question.answer (o : Object U) : Question U → Try U (Reply U)
  | .value => return .object (← o.show)
  | .info => do
      let registered := o.types.indexOfName? o.typeName = some o.index
      return .info (← o.show) (o.isConsistent (← get).heap) registered
  | .text => return .text (o.display (← get).heap)
  | .diagnostics => return .text (o.shown (← get).heap)
  | .is k => return .truth (o.is k)
  | .cast k => return .value ⟨k, ← Try.lift (o.cast k)⟩
  | .convertedCast k => return .value ⟨k, ← Try.lift (o.convertedCast k)⟩

/-- Replies with an object, goes on with it, and ends it unless it is stored. -/
def goOn (o : Object U) (next : Act U (List (Reply U))) : Try U (Yield U) := do
  let reply := Reply.object (← o.show)
  let replies ← next
  modify (·.onHeap o.ended)
  return ⟨.andThen reply replies, [o]⟩

/-- Replies as the operation does, and with the value of the object afterwards. -/
def thenNow (o : Object U) (act : Try U (Yield U)) : Try U (Yield U) := do
  let y ← act.reply
  return { y with reply := .andNow y.reply (← o.now) }

/-- Runs an operation and stores what it yields. -/
def perform (into : Option Nat) (act : Try U (Yield U)) : Act U (Reply U) := do
  let y ← act.reply
  match into with
  | some n => modify (·.storeAll n y.objects)
  | none => pure ()
  return y.reply

/-- Runs an operation on the object of a slot, which is away meanwhile, or on the current
object.  What is yielded by the current object is not stored. -/
def onObject (current : Option (Object U)) (slot into : Option Nat)
    (act : Object U → Try U (Yield U)) : Act U (Reply U) :=
  match slot, current with
  | some n, _ => perform into do
      let o ← Try.slot n
      modify (·.take n)
      let y ← (act o).reply
      modify (·.store n o)
      return y
  | none, some o => perform none (act o)
  | none, none => perform none Try.misplaced

/-- Ends the object of a slot and replies with its value. -/
def takeInner (n : Nat) (k : Kind U) : Act U (Reply U) :=
  perform none do
    let o ← Try.slot n
    modify (·.take n)
    return ⟨.value ⟨k, ← Try.lift (o.intoInner k)⟩, []⟩

/-- Empties a slot and tells whether it held an object. -/
def dropSlot (n : Nat) : Act U (Reply U) := do
  let held := ((← get).slots.lookup n).isSome
  modify (·.take n)
  return .truth held

/-- Binds a variable that holds the value, goes on with the object, and replies with the value
of the variable afterwards. -/
def bindValue (types : Registry U) (v : Value U) (policy : Policy)
    (next : Object U → Act U (List (Reply U))) : Try U (Yield U) := do
  let cell ← Try.lift (Run.alloc v)
  let o ← Try.lift (types.bind cell v policy)
  let y ← goOn o (next o)
  return { y with reply := .andNative y.reply (((← get).heap.value? cell).getD v) }

/-- Replies with the items of an object and goes on with the first. -/
def yieldItems (o : Object U) (next : Object U → Act U (List (Reply U))) : Try U (Yield U) := do
  let items ← Try.lift o.items
  let reply := Reply.objects (← items.mapM fun item => (item.show : Act U (Shown U)))
  match items with
  | [] => return ⟨reply, items⟩
  | item :: _ => return ⟨.andThen reply (← next item), items⟩

/-- Goes on with one item of an object after another. -/
def iterate (o : Object U) (next : Object U → Act U (List (Reply U))) : Try U (Yield U) := do
  let e ← Try.lift o.elements
  modify (·.onHeap (o.enter .reading))
  let replies ← e.values.mapM fun v => perform none do
    let item ← Try.lift (e.object v)
    goOn item (next item)
  modify (·.onHeap (o.leave .reading))
  return ⟨.each replies, []⟩

/-- Visits an object: replies with its content, and assigns a value at the end. -/
def visit (o : Object U) (k : Kind U) (access : Access) (assign : Option (Value U))
    (next : Act U (List (Reply U))) : Try U (Yield U) := do
  let x ← Try.lift (o.visit k access)
  let replies ← next
  match assign with
  | some v => Try.lift (o.replace v)
  | none => pure ()
  modify (·.onHeap (o.leave access))
  return ⟨.andThen (.value ⟨k, x⟩) replies, []⟩

namespace Op

mutual

/-- Runs an operation. -/
def run (e : Surroundings U) (current : Option (Object U)) : Op U → Act U (Reply U)
  | make how registry into next => perform into do
      let o ← how.run e (← Try.registry e registry)
      goOn o (runAll e (some o) next)
  | bind v policy registry next => perform none do
      bindValue (← Try.registry e registry) v policy fun o => runAll e (some o) next
  | reach slot how next => onObject current slot none fun o => thenNow o do
      let r ← Try.lift (how.run o)
      goOn r (runAll e (some r) next)
  | call slot name args into next => onObject current slot into fun o => thenNow o do
      let args ← args.mapM (·.object e o.types)
      let r ← Try.lift (o.call name args)
      goOn r (runAll e (some r) next)
  | set slot name value converted => onObject current slot none fun o => thenNow o do
      let v ← value.object e o.types
      Try.lift (if converted then o.setConverted name v else o.set name v)
      return ⟨.nothing, []⟩
  | derive slot how into next => onObject current slot into fun o => do
      match ← Try.lift (how.run o) with
      | some r => goOn r (runAll e (some r) next)
      | none => return ⟨.nothing, []⟩
  | ask slot question => onObject current slot none fun o => return ⟨← question.answer o, []⟩
  | items slot into next => onObject current slot into fun o =>
      yieldItems o fun item => runAll e (some item) next
  | iterate slot next => onObject current slot none fun o =>
      Script.iterate o fun item => runAll e (some item) next
  | visit slot k access assign next => onObject current slot none fun o =>
      Script.visit o k access assign (runAll e none next)
  | intoInner slot k => takeInner slot k
  | drop slot => dropSlot slot

/-- Runs operations one after another on the same current object. -/
def runAll (e : Surroundings U) (current : Option (Object U)) :
    List (Op U) → Act U (List (Reply U))
  | [] => pure []
  | op :: rest => return (← run e current op) :: (← runAll e current rest)

end

end Op

/-- The replies to operations that begin with empty slots. -/
def Surroundings.replies (e : Surroundings U) (ops : List (Op U)) : List (Reply U) :=
  ((Op.runAll e none ops).run {}).1

end ChainScript.Script
