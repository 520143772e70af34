import ChainScript.Ordered.Slots
import ChainScript.Script.Kind
import ChainScript.Script.Lens

/-!
# Members

What a type offers by name: attributes, methods, constructors, converters, fallbacks, iteration
and display.  Members are typed by the kind of their owner; a member that yields a value keeps
the policy under which it was registered.

## Main definitions

* `Policy` — how a yielded value becomes an object.
* `Getter`, `Setter`, `Overload`, `Reference`, `Constructor`, `Converter`, `FallbackGetter`,
  `FallbackSetter`, `Iteration` — the sorts of members.
* `Members` — all members of a type.
* `addOverload`, `selectOverload`, `arities` — lists of overloads, told apart by their
  parameter lists.
-/

namespace ChainScript.Script

variable {U : Universe}

/-- How a yielded value becomes an object. -/
inductive Policy
  /-- An object that owns a copy. -/
  | copy
  /-- A reference into the value it comes from. -/
  | wrapReference
  /-- An object that shares a new value with its handles. -/
  | share
  deriving DecidableEq

/-- The form that diagnostics show. -/
def Policy.shown : Policy → String
  | copy => "Copy"
  | wrapReference => "WrapReference"
  | share => "Share"

/-- An attribute that can be read. -/
inductive Getter (k : Kind U)
  /-- Computes a new value. -/
  | computed (ret : Kind U) (policy : Policy) (read : k.Carrier → ret.Carrier)
  /-- Reaches a part of the owner. -/
  | field (ret : Kind U) (policy : Policy) (lens : Lens k.Carrier ret.Carrier)

/-- An attribute that can be written. -/
structure Setter (k : Kind U) where
  arg : Kind U
  write : k.Carrier → arg.Carrier → k.Carrier

/-- What a method does with its receiver. -/
inductive Body (k : Kind U) (params : List (Kind U)) (ret : Kind U)
  /-- It has none. -/
  | free (f : Args params → ret.Carrier)
  /-- It reads it. -/
  | reading (f : k.Carrier → Args params → ret.Carrier)
  /-- It changes it. -/
  | writing (f : k.Carrier → Args params → ret.Carrier × k.Carrier)

/-- A method with one list of parameters. -/
structure Overload (k : Kind U) where
  params : List (Kind U)
  ret : Kind U
  policy : Policy
  body : Body k params ret

/-- The method needs no receiver. -/
def Overload.isStatic {k : Kind U} (o : Overload k) : Bool :=
  match o.body with
  | .free _ => true
  | _ => false

/-- A method that returns a reference into its receiver. -/
structure Reference (k : Kind U) where
  ret : Kind U
  lens : Lens k.Carrier ret.Carrier

/-- A constructor with one list of parameters. -/
structure Constructor (k : Kind U) where
  params : List (Kind U)
  policy : Policy
  make : Args params → k.Carrier

/-- A converter to another type. -/
structure Converter (k : Kind U) where
  target : Kind U
  /-- It is also applied where no conversion is asked for. -/
  implicit : Bool
  convert : k.Carrier → target.Carrier

/-- Reads attributes that are not registered, unless it declines the name. -/
structure FallbackGetter (k : Kind U) where
  ret : Kind U
  policy : Policy
  read : k.Carrier → String → Option ret.Carrier

/-- Writes attributes that are not registered; the result says whether it accepts the name. -/
structure FallbackSetter (k : Kind U) where
  arg : Kind U
  write : k.Carrier → String → arg.Carrier → Bool × k.Carrier

/-- The items of a value. -/
structure Iteration (k : Kind U) where
  item : Kind U
  policy : Policy
  walk : k.Carrier → List item.Carrier

/-- All members of a type. -/
structure Members (k : Kind U) where
  getters : Slots (Getter k) := .empty
  setters : Slots (Setter k) := .empty
  methods : Slots (List (Overload k)) := .empty
  references : Slots (Reference k) := .empty
  constructors : List (Constructor k) := []
  converters : List (Converter k) := []
  fallbackGetter : Option (FallbackGetter k) := none
  fallbackSetter : Option (FallbackSetter k) := none
  iteration : Option (Iteration k) := none
  display : Option (k.Carrier → String) := none

/-! ### Lists of overloads -/

/-- The list with `o` in the place of the member that has its parameters, or at the end. -/
def addOverload {α : Type} (params : α → List (Kind U)) (o : α) : List α → List α
  | [] => [o]
  | x :: rest => if params x = params o then o :: rest else x :: addOverload params o rest

/-- The member whose parameters are the given kinds. -/
def selectOverload {α : Type} (params : α → List (Kind U)) (bucket : List α)
    (kinds : List (Kind U)) : Option α :=
  bucket.find? (params · = kinds)

/-- The number put into an increasing list that may hold it already. -/
def insertNat (n : Nat) : List Nat → List Nat
  | [] => [n]
  | m :: rest =>
      if n < m then n :: m :: rest else if n = m then m :: rest else m :: insertNat n rest

/-- The numbers of parameters that occur in the list, in increasing order. -/
def arities {α : Type} (params : α → List (Kind U)) (bucket : List α) : List Nat :=
  bucket.foldr (fun o ns => insertNat (params o).length ns) []

/-! ### Questions about members -/

namespace Members

variable {k : Kind U} (m : Members k)

/-- An attribute of this name can be read. -/
def hasAttribute (name : String) : Bool := m.getters.contains name

/-- An attribute of this name has a setter of its own. -/
def isWritable (name : String) : Bool := m.setters.contains name

/-- The names of the attributes, in order. -/
def attributes : List String := m.getters.names

/-- The name is that of a method that returns a reference. -/
def returnsReference (name : String) : Bool := m.references.contains name

/-- The overloads of a method. -/
def overloads (name : String) : List (Overload k) := (m.methods.get? name).getD []

/-- The names of the methods of both sorts, in order. -/
def methodNames : List String :=
  (m.references.names.foldl (fun names name => names.put name ())
    (m.methods.names.foldl (fun names name => names.put name ()) (.empty : Slots Unit))).names

/-- The converter to a type. -/
def converter? (target : Kind U) : Option (Converter k) :=
  m.converters.find? (·.target = target)

/-- There is a converter to the type. -/
def convertsTo (target : Kind U) : Bool := (m.converter? target).isSome

/-- There is an implicit converter to the type. -/
def convertsImplicitlyTo (target : Kind U) : Bool := (m.converter? target).any (·.implicit)

end Members

end ChainScript.Script
