import ChainScript.Decimal.Shortest
import ChainScript.Script.Provider
import ChainScript.Text.Case
import ChainScript.Text.Search

/-!
# Built-in types

The members of the types that every program has: unit, truth values, integers, floats and
texts.

## Main definitions

* `builtinTypes` — the provider of the built-in types.
* `Registry.standard` — a registry that knows them.
-/

namespace ChainScript.Script

variable {U : Universe}

/-- The text of a truth value. -/
def showBool (b : Bool) : String := if b then "true" else "false"

/-- The absolute value; that of the least integer is itself. -/
def absInt (n : Int64) : Int64 := if n < 0 then -n else n

/-- The integer that a truth value counts as. -/
def intOfBool (b : Bool) : Int64 := if b then 1 else 0

/-- The members of the unit type. -/
def unitMembers (b : Builder (.unit : Kind U)) : Builder (.unit : Kind U) :=
  b.withDisplay fun _ => "()"

/-- The members of truth values. -/
def boolMembers (b : Builder (.bool : Kind U)) : Builder (.bool : Kind U) :=
  b.withDisplay showBool
    |>.implicitConversion .int intOfBool
    |>.conversion .string showBool

/-- The members of integers. -/
def intMembers (b : Builder (.int : Kind U)) : Builder (.int : Kind U) :=
  b.withDisplay (fun n : Int64 => toString n)
    |>.implicitConversion .float Int64.toFloat
    |>.conversion .string (fun n : Int64 => toString n)
    |>.addMethod "abs" [] .int fun n _ => absInt n

/-- The members of floats.  A float converts to the integer that is left without its fraction,
or to the nearest integer there is. -/
def floatMembers (b : Builder (.float : Kind U)) : Builder (.float : Kind U) :=
  b.withDisplay Decimal.showFloat
    |>.conversion .int Float.toInt64
    |>.conversion .string Decimal.showFloat
    |>.addMethod "abs" [] .float (fun x _ => Float.abs x)
    |>.addMethod "floor" [] .float fun x _ => Float.floor x

/-- The members of texts.  A text is as long as its bytes are many. -/
def stringMembers (b : Builder (.string : Kind U)) : Builder (.string : Kind U) :=
  b.withDisplay (fun s => s)
    |>.addReadonly "len" .int (fun s : String => Int64.ofNat s.utf8ByteSize)
    |>.addMethod "is_empty" [] .bool (fun s _ => String.isEmpty s)
    |>.addMethod "contains" [.string] .bool (fun s args => Text.contains s args.1)
    |>.addMethod "to_upper" [] .string (fun s _ => Text.upper s)
    |>.addMethod "to_lower" [] .string fun s _ => Text.lower s

/-- The provider of the built-in types. -/
def builtinTypes : List (Registration U) :=
  [⟨.unit, "unit", unitMembers⟩, ⟨.bool, "bool", boolMembers⟩, ⟨.int, "int", intMembers⟩,
    ⟨.float, "float", floatMembers⟩, ⟨.string, "string", stringMembers⟩]

/-- A registry that knows the built-in types. -/
def Registry.standard (id : Nat) : Registry U := (Registry.provide ⟨id, #[]⟩ builtinTypes).1

end ChainScript.Script
