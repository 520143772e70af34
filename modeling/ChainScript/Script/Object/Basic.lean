import ChainScript.Script.Heap
import ChainScript.Script.Registry

/-!
# Objects

An object is a handle to a value of a registered type.  It owns the value, shares it with
other handles, or refers to a part of a value that belongs elsewhere.  A reference into a
shared value guards it: the cell has a writer as long as the reference lives.

## Main definitions

* `Holder`, `Mode` — how an object holds its value.
* `Object` — a holder with the descriptor of its type.
* `Object.read`, `Object.content`, `Object.copyValue` — the value, if it can be read.
* `Object.edit`, `Object.replace` — the value, if it can be written, and its replacement.
* `Object.reborrow`, `Object.passOn`, `Object.release` — a reference to the value, what is
  reached from it, and its end.
* `Registry.wrap`, `Registry.object`, `Registry.share`, `Registry.bind` — new objects.
-/

namespace ChainScript.Script

variable {U : Universe}

/-- How an object holds its value. -/
inductive Holder (U : Universe)
  /-- The cell is the object's own. -/
  | owned (cell : Loc)
  /-- The cell is shared with other handles. -/
  | shared (cell : Loc)
  /-- The value is at a place that belongs elsewhere.  A guarded place lies in a shared cell
  and keeps its writer. -/
  | view (place : Place U) (guarded : Bool)

/-- The sorts of holders, as they can be told apart from outside. -/
inductive Mode
  | owned
  | shared
  | borrowed
  deriving DecidableEq

/-- The form that diagnostics show. -/
def Mode.shown : Mode → String
  | owned => "Owned"
  | shared => "Shared"
  | borrowed => "Borrowed"

namespace Holder

/-- The sort of the holder. -/
def mode : Holder U → Mode
  | owned _ => .owned
  | shared _ => .shared
  | view .. => .borrowed

/-- The holder refers to a value elsewhere. -/
def isView : Holder U → Bool
  | view .. => true
  | _ => false

/-- The place of the value. -/
def place : Holder U → Place U
  | owned l | shared l => ⟨l, []⟩
  | view p _ => p

/-- A reference to a part of the value.  It keeps the guard. -/
def part (s : Step U) : Holder U → Holder U
  | owned l | shared l => .view ⟨l, [s]⟩ false
  | view p guarded => .view ⟨p.root, p.path ++ [s]⟩ guarded

/-- The value, unless it is shared and has a writer. -/
def read? (h : Heap U) : Holder U → Option (Value U)
  | shared l => if h.canRead l then h.value? l else none
  | holder => h.read? holder.place

/-- The value, unless it is shared and in use. -/
def edit? (h : Heap U) : Holder U → Option (Value U)
  | shared l => if h.canWrite l then h.value? l else none
  | holder => h.read? holder.place

end Holder

/-- A handle to a value of a registered type. -/
structure Object (U : Universe) where
  types : Registry U
  /-- Which of the registered types the value is described by. -/
  index : Fin types.entries.size
  holder : Holder U

namespace Object

/-- The descriptor of the object's type. -/
def desc (o : Object U) : Descriptor U := o.types.entry o.index

/-- The name of the object's type. -/
def typeName (o : Object U) : String := o.desc.name

/-- The kind that the object's value should have. -/
def kind (o : Object U) : Kind U := o.desc.kind

/-- The members of the object's type. -/
def members (o : Object U) : Members o.kind := o.desc.members

/-- How the object holds its value. -/
def mode (o : Object U) : Mode := o.holder.mode

/-- The object's type is of the given kind. -/
def is (o : Object U) (k : Kind U) : Bool := o.kind = k

/-- The value; it cannot be read while a reference guards it. -/
def read (o : Object U) : Run U (Value U) := do
  Run.orThrow (o.holder.read? (← get)) (.borrowed o.typeName)

/-- The value, to be changed; it must not be in use. -/
def edit (o : Object U) : Run U (Value U) := do
  Run.orThrow (o.holder.edit? (← get)) (.borrowed o.typeName)

/-- The content of a value of the object's kind. -/
def contentOf (o : Object U) (v : Value U) : Run U o.kind.Carrier :=
  Run.orThrow (v.as? o.kind) (.foreignValue o.typeName)

/-- The content of the object. -/
def content (o : Object U) : Run U o.kind.Carrier := do o.contentOf (← o.read)

/-- Replaces the object's value. -/
def replace (o : Object U) (v : Value U) : Run U Unit := modify (·.write o.holder.place v)

/-- A copy of the value. -/
def copyValue (o : Object U) : Run U (Value U) := return ⟨o.kind, ← o.content⟩

/-- The same type at another holder. -/
def withHolder (o : Object U) (holder : Holder U) : Object U := { o with holder := holder }

/-- A reference to the object's value.  A shared value must not be in use, and is guarded from
now on. -/
def reborrow (o : Object U) : Run U (Object U) := do
  match o.holder with
  | .owned l => return o.withHolder (.view ⟨l, []⟩ false)
  | .shared l =>
      if (← get).canWrite l then
        modify (·.setWriter l true)
        return o.withHolder (.view ⟨l, []⟩ true)
      else throw (.borrowed o.typeName)
  | .view p _ => return o.withHolder (.view p false)

/-- The heap after the end of the object: the value that it guards is free again. -/
def ended (o : Object U) (h : Heap U) : Heap U :=
  match o.holder with
  | .view p true => h.setWriter p.root false
  | _ => h

/-- Ends the object. -/
def release (o : Object U) : Run U Unit := modify o.ended

/-- Goes on from an object to another and ends the first, unless the second refers to a part
of its value: then the guard goes over to it. -/
def passOn (o : Object U) (next : Run U (Object U)) : Run U (Object U) := do
  let r ← tryCatch next fun e => do
    o.release
    throw e
  unless r.holder.isView do o.release
  return r

end Object

namespace Registry

/-- The object of a kind at a holder. -/
def wrap (r : Registry U) (holder : Holder U) (k : Kind U) : Run U (Object U) :=
  match r.indexOf? k with
  | some i => pure ⟨r, i, holder⟩
  | none => throw (.unregistered k)

/-- A holder of a new value, by policy.  Members that compute a value under the reference
policy are refused before they get here. -/
def hold (policy : Policy) (v : Value U) : Run U (Holder U) := do
  let l ← Run.alloc v
  match policy with
  | .share => return .shared l
  | .copy | .wrapReference => return .owned l

/-- An object of a value that a member yielded. -/
def wrapNew (r : Registry U) (policy : Policy) (v : Value U) : Run U (Object U) := do
  match r.indexOf? v.kind with
  | some i => return ⟨r, i, ← hold policy v⟩
  | none => throw (.unregistered v.kind)

/-- An object that owns a value. -/
def object (r : Registry U) (v : Value U) : Run U (Object U) := r.wrapNew .copy v

/-- An object that shares a value with its handles to come. -/
def share (r : Registry U) (v : Value U) : Run U (Object U) := r.wrapNew .share v

/-- An object that refers to a cell of the program, which holds a value of kind `k`. -/
def reference (r : Registry U) (cell : Loc) (k : Kind U) : Run U (Object U) :=
  r.wrap (.view ⟨cell, []⟩ false) k

/-- An object for a cell of the program and the value in it, by policy: a copy of the value, a
reference to the cell, or a shared copy. -/
def bind (r : Registry U) (cell : Loc) (v : Value U) : Policy → Run U (Object U)
  | .copy => r.object v
  | .wrapReference => r.reference cell v.kind
  | .share => r.share v

end Registry

end ChainScript.Script
