import ChainScript.Script.Kind
import ChainScript.Text.Quoted

/-!
# Errors

Why an operation on registries and objects fails.  An error is a cause; its wording depends on
how the host program spells its types and is given by `ScriptError.message`.
-/

namespace ChainScript.Script

variable {U : Universe}

/-- Why a member cannot be used. -/
inductive Missing
  | noAttribute
  | readOnly
  /-- The fallback accessor does not know the name. -/
  | declined
  | noMethod
  /-- The method must be called by reference. -/
  | returnsReference
  | noConstructor
  | notIterable
  | emptyPath
  /-- No type is registered under the name. -/
  | unknownType
  /-- No overload takes arguments of the given types; `arities` are the numbers that are
  taken. -/
  | noOverload (given : Nat) (arities : List Nat)
  deriving DecidableEq

/-- Why an operation fails. -/
inductive ScriptError (U : Universe)
  /-- A value of one type stands where one of another is wanted. -/
  | mismatch (expected found : Label U)
  /-- An object's value is not of the type that its descriptor describes. -/
  | foreignValue (expected : String)
  /-- A type is not registered. -/
  | unregistered (kind : Kind U)
  /-- A type has no such member. -/
  | missing (type member : String) (why : Missing)
  /-- A type has no converter to another. -/
  | noConverter (type : String) (target : Label U)
  /-- A type or a name is taken already. -/
  | alreadyRegistered (kind : Kind U) (existing : String)
  /-- A shared value is in use elsewhere. -/
  | borrowed (type : String)
  /-- A member computes its value, so there is nothing to refer to. -/
  | noReferent (type member : String)

/-- The wording of a reason. -/
def Missing.message : Missing → String
  | noAttribute => "no such attribute"
  | readOnly => "attribute is read-only"
  | declined => "fallback accessor declined the name"
  | noMethod => "no such method"
  | returnsReference => "method returns a reference; invoke it with call_ref"
  | noConstructor => "no constructor registered"
  | notIterable => "type is not iterable"
  | emptyPath => "empty attribute path"
  | unknownType => "no type registered under this name"
  | noOverload given arities =>
      "no overload takes these " ++ toString given ++ " argument(s); registered arities: " ++
        Text.bracketed (arities.map toString)

namespace ScriptError

/-- The wording of a mismatch. -/
def mismatchText (expected found : String) : String :=
  "Type mismatch: expected " ++ expected ++ ", found " ++ found

/-- The wording of a missing member. -/
def missingText (type member why : String) : String :=
  type ++ " has no member '" ++ member ++ "': " ++ why

/-- The wording of an error. -/
def message (spell : Spelling U) : ScriptError U → String
  | mismatch expected found => mismatchText (expected.text spell) (found.text spell)
  | foreignValue expected => mismatchText expected "a value of another type"
  | unregistered kind => mismatchText "a registered type" (spell kind)
  | missing type member why => missingText type member why.message
  | noConverter type target =>
      missingText type (target.text spell) "no converter registered"
  | alreadyRegistered kind existing =>
      "Type " ++ spell kind ++ " is already registered as '" ++ existing ++ "'"
  | borrowed type => "Value of type " ++ type ++ " is already borrowed"
  | noReferent type member =>
      type ++ "." ++ member ++ " yields a computed value, which cannot be bound by reference"

end ScriptError

end ChainScript.Script
