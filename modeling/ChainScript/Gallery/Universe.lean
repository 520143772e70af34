import ChainScript.Gallery.Types
import ChainScript.Script.Kind

/-!
# The universe of the gallery

The types of the gallery by name, as scripts see them.
-/

namespace ChainScript.Gallery

open Script

/-- The names of the types. -/
inductive Host
  | point
  | rect
  | list
  | countdown
  | settings
  | celsius
  | fahrenheit
  | node
  | byte
  | other
  deriving DecidableEq

/-- The type of a name. -/
@[reducible] def Host.Carrier : Host → Type
  | point => Point
  | rect => Rect
  | list => List Int64
  | countdown => Countdown
  | settings => Settings
  | celsius => Celsius
  | fahrenheit => Fahrenheit
  | node => Node
  | byte => UInt8
  | other => Other

/-- The types of the gallery. -/
@[reducible] def world : Universe := ⟨Host, inferInstance, Host.Carrier⟩

/-- The kinds of the gallery's types, in the order in which they are listed. -/
def kinds : List (Kind world) :=
  [.unit, .bool, .int, .float, .string, .host .point, .host .rect, .host .list,
    .host .countdown, .host .settings, .host .celsius, .host .fahrenheit, .host .node,
    .host .byte, .host .other]

/-- The value of each type that stands for nothing in particular. -/
def blank : (k : Kind world) → k.Carrier
  | .unit => ()
  | .bool => false
  | .int => (0 : Int64)
  | .float => (0 : Float)
  | .string => ""
  | .host .point => (⟨0, 0⟩ : Point)
  | .host .rect => (⟨⟨0, 0⟩, 0, 0⟩ : Rect)
  | .host .list => ([] : List Int64)
  | .host .countdown => (⟨[]⟩ : Countdown)
  | .host .settings => (Slots.empty : Settings)
  | .host .celsius => (⟨0⟩ : Celsius)
  | .host .fahrenheit => (⟨0⟩ : Fahrenheit)
  | .host .node => (⟨0, []⟩ : Node)
  | .host .byte => (0 : UInt8)
  | .host .other => (⟨⟩ : Other)

end ChainScript.Gallery
