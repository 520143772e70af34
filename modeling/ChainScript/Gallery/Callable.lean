import ChainScript.Gallery.Universe
import ChainScript.Script.Builtin

/-!
# Callables of the gallery

The members that scripts may give to the types of the gallery, by sort and by name.  Some
belong to a type, others fit every type.  A member may also yield a given value, always the
same.

## Main definitions

* `Slot` — the sorts of members.
* `ownMember`, `anyMember` — the members of one type, and of every type.
* `givenMember` — a member that yields a given value.
* `Origin`, `member` — a member from where it comes.
-/

namespace ChainScript.Gallery

open Script

/-- The sorts of members. -/
inductive Slot
  | constant
  | readonlyStatic
  | readonly
  | field
  | readwrite
  | method
  | methodMut
  | methodRef
  | static
  | constructor
  | constructorFrom
  | conversion
  | implicitConversion
  | fallbackGetter
  | fallbackGetterStatic
  | fallbackSetter
  | iteration
  | printable
  | display
  deriving DecidableEq

/-- A change of the members of a kind. -/
abbrev Member (k : Kind world) := Builder k → Builder k

/-! ### Texts that tell what a callable was given -/

/-- The sixteen hexadecimal digits of a number below `2 ^ 64`. -/
def hexWord (n : Nat) : String :=
  let digits := Text.hexDigits n
  String.ofList (List.replicate (16 - digits.length) '0') ++ digits

/-- The digits of a float's bits. -/
def floatDigits (x : Float) : String := hexWord x.toBits.toNat

/-- The name of a callable and what it was given. -/
def report (name : String) (args : List String) : String := name ++ ":" ++ ",".intercalate args

/-- The text of an argument. -/
def argText (n : Int64) : String := toString n

/-! ### Members of one type -/

/-- The members of truth values. -/
def boolOwn (name : String) : Slot → String → Option (Member .bool)
  | .method, "not" => some (·.addMethod name [] .bool fun b _ => not b)
  | .printable, _ => some (·.withDisplay showBool)
  | _, _ => none

/-- The integers from zero up to a bound, which is lowered to twenty. -/
def range (n : Int64) : List Int64 :=
  (List.range (min n.toInt.toNat 20)).map Int64.ofNat

/-- The members of integers. -/
def intOwn (name : String) : Slot → String → Option (Member .int)
  | .method, "add" => some (·.addMethod name [.int] .int fun (n : Int64) a => n + a.1)
  | .methodMut, "inc" => some (·.addMethodMut name [] .int fun (n : Int64) _ => (n + 1, n + 1))
  | .constructorFrom, "bool" => some (·.addConstructor [.bool] fun a => intOfBool a.1)
  | .constructorFrom, "byte" =>
      some (·.addConstructor [.host .byte] fun (a : UInt8 × Unit) => a.1.toUInt64.toInt64)
  | .iteration, "range" => some (·.iterable .int range)
  | .printable, _ => some (·.withDisplay argText)
  | _, _ => none

/-- The members of floats. -/
def floatOwn (name : String) : Slot → String → Option (Member .float)
  | .method, "halve" => some (·.addMethod name [] .float fun (x : Float) _ => x / 2)
  | .constructorFrom, "byte" =>
      some (·.addConstructor [.host .byte] fun (a : UInt8 × Unit) => a.1.toFloat)
  | .printable, _ => some (·.withDisplay Decimal.showFloat)
  | _, _ => none

/-- The members of texts. -/
def stringOwn (name : String) : Slot → String → Option (Member .string)
  | .methodMut, "append" =>
      some (·.addMethodMut name [.string] .unit fun (s : String) a => ((), s ++ a.1))
  | .iteration, "chars" =>
      some (·.iterable .string fun (s : String) => s.toList.map Char.toString)
  | .printable, _ => some (·.withDisplay fun s => s)
  | _, _ => none

/-- The members of points. -/
def pointOwn (name : String) : Slot → String → Option (Member (.host .point))
  | .field, "x" => some (·.addField name .int Point.xPart)
  | .field, "y" => some (·.addField name .int Point.yPart)
  | .readonly, "sum" => some (·.addReadonly name .int Point.sum)
  | .readonly, "mirror" => some (·.addReadonly name (.host .point) Point.flipped)
  | .readwrite, "xf" =>
      some (·.addReadwrite name .float .int (fun p : Point => p.x.toFloat) Point.xPart.put)
  | .readwrite, "whole" =>
      some (·.addReadwrite name (.host .point) (.host .point) (fun p => p) fun _ q => q)
  | .readwrite, "byte" =>
      some (·.addReadwrite name (.host .byte) (.host .byte)
        (fun p : Point => p.x.toUInt64.toUInt8)
        fun (p : Point) (b : UInt8) => { p with x := b.toUInt64.toInt64 })
  | .method, "norm2" => some (·.addMethod name [] .int fun (p : Point) _ => p.norm2)
  | .method, "dot" => some (·.addMethod name [.host .point] .int fun (p : Point) a => p.dot a.1)
  | .methodMut, "translate" =>
      some (·.addMethodMut name [.int, .int] .unit fun (p : Point) a =>
        ((), p.moved a.1 a.2.1))
  | .methodMut, "shift" =>
      some (·.addMethodMut name [.int] .int fun (p : Point) a =>
        let q := p.moved a.1 0
        (q.x, q))
  | .methodMut, "bump" =>
      some (·.addMethodMut name [] (.host .byte) fun (p : Point) _ =>
        let q := p.moved 1 0
        (q.x.toUInt64.toUInt8, q))
  | .methodRef, "x" => some (·.addMethodRef name .int Point.xPart)
  | .methodRef, "y" => some (·.addMethodRef name .int Point.yPart)
  | .constructor, "xy" => some (·.addConstructor [.int, .int] fun a => (⟨a.1, a.2.1⟩ : Point))
  | .constructor, "yx" => some (·.addConstructor [.int, .int] fun a => (⟨a.2.1, a.1⟩ : Point))
  | .constructor, "x" => some (·.addConstructor [.int] fun a => (⟨a.1, 0⟩ : Point))
  | .constructor, "float" =>
      some (·.addConstructor [.float] fun a => (⟨Float.toInt64 a.1, -1⟩ : Point))
  | .constructor, "quad" =>
      some (·.addConstructor [.int, .int, .int, .int] fun a =>
        (⟨a.1, a.2.1⟩ : Point).moved a.2.2.1 a.2.2.2.1)
  | .constructor, "rect" =>
      some (·.addConstructor [.host .rect] fun (a : Rect × Unit) => a.1.origin)
  | .constructorFrom, "int" => some (·.addConstructor [.int] fun a => (⟨a.1, a.1⟩ : Point))
  | .conversion, "string" => some (·.conversion .string Point.text)
  | .conversion, "list" =>
      some (·.conversion (.host .list) fun p : Point => [p.x, p.y])
  | .conversion, "int" => some (·.conversion .int fun p : Point => p.x)
  | .implicitConversion, "int" => some (·.implicitConversion .int fun p : Point => p.x)
  | .implicitConversion, "rect" =>
      some (·.implicitConversion (.host .rect) fun p : Point => (⟨p, 0, 0⟩ : Rect))
  | .iteration, "xy" => some (·.iterable .int fun p : Point => [p.x, p.y])
  | .printable, _ => some (·.withDisplay Point.text)
  | .display, "debugish" => some (·.withDisplay Point.angled)
  | _, _ => none

/-- The members of rectangles. -/
def rectOwn (name : String) : Slot → String → Option (Member (.host .rect))
  | .field, "origin" => some (·.addField name (.host .point) Rect.originPart)
  | .field, "w" => some (·.addField name .float Rect.wPart)
  | .field, "h" => some (·.addField name .float Rect.hPart)
  | .readonly, "h" => some (·.addReadonly name .float Rect.h)
  | .readonly, "origin" => some (·.addReadonly name (.host .point) Rect.origin)
  | .readwrite, "w" => some (·.addReadwrite name .float .float Rect.w Rect.wPart.put)
  | .method, "area" => some (·.addMethod name [] .float fun (r : Rect) _ => r.area)
  | .method, "area_scaled" =>
      some (·.addMethod name [.float] .float fun (r : Rect) (a : Float × Unit) => r.area * a.1)
  | .methodMut, "resize" =>
      some (·.addMethodMut name [.float, .float] .unit fun (r : Rect) a =>
        ((), (⟨r.origin, a.1, a.2.1⟩ : Rect)))
  | .methodMut, "move_to" =>
      some (·.addMethodMut name [.host .point] (.host .point) fun (r : Rect) a =>
        (r.origin, (⟨a.1, r.w, r.h⟩ : Rect)))
  | .methodRef, "origin" => some (·.addMethodRef name (.host .point) Rect.originPart)
  | .methodRef, "w" => some (·.addMethodRef name .float Rect.wPart)
  | .static, "unit" =>
      some (·.addStatic name [] (.host .rect) fun _ => (⟨⟨0, 0⟩, 1, 1⟩ : Rect))
  | .constructor, "pwh" =>
      some (·.addConstructor [.host .point, .float, .float] fun a =>
        (⟨a.1, a.2.1, a.2.2.1⟩ : Rect))
  | .conversion, "point" => some (·.conversion (.host .point) Rect.origin)
  | .implicitConversion, "float" => some (·.implicitConversion .float Rect.area)
  | _, _ => none

/-- The members of lists. -/
def listOwn (name : String) : Slot → String → Option (Member (.host .list))
  | .readonly, "len" =>
      some (·.addReadonly name .int fun l : List Int64 => Int64.ofNat l.length)
  | .method, "at" =>
      some (·.addMethod name [.int] .int fun (l : List Int64) a => itemAt l a.1)
  | .methodMut, "push" =>
      some (·.addMethodMut name [.int] .unit fun (l : List Int64) a => ((), l ++ [a.1]))
  | .methodMut, "pop" => some (·.addMethodMut name [] .int fun (l : List Int64) _ => popLast l)
  | .methodMut, "extend" =>
      some (·.addMethodMut name [.host .list] .int fun (l : List Int64) a =>
        (Int64.ofNat (l ++ a.1).length, l ++ a.1))
  | .methodRef, "first" => some (·.addMethodRef name .int firstPart)
  | .constructor, "pair" => some (·.addConstructor [.int, .int] fun a => [a.1, a.2.1])
  | .implicitConversion, "countdown" =>
      some (·.implicitConversion (.host .countdown) Countdown.mk)
  | .iteration, "forward" => some (·.iterable .int fun l => l)
  | .iteration, "reverse" => some (·.iterable .int List.reverse)
  | .iteration, "floats" =>
      some (·.iterable .float fun l : List Int64 => l.map Int64.toFloat)
  | _, _ => none

/-- The members of countdowns. -/
def countdownOwn (name : String) : Slot → String → Option (Member (.host .countdown))
  | .field, "list" => some (·.addField name (.host .list) Countdown.itemsPart)
  | .constructorFrom, "list" => some (·.addConstructor [.host .list] fun a => Countdown.mk a.1)
  | .iteration, "reverse" => some (·.iterable .int fun c : Countdown => c.items.reverse)
  | _, _ => none

/-- The name is none of those that begin with an underscore. -/
def isPublic (name : String) : Bool := !"_".isPrefixOf name

/-- The members of settings. -/
def settingsOwn (name : String) : Slot → String → Option (Member (.host .settings))
  | .readonly, "count" =>
      some (·.addReadonly name .int fun s : Settings => Int64.ofNat s.entries.length)
  | .fallbackGetter, "map" => some (·.fallbackGetter .int Slots.get?)
  | .fallbackSetter, "map" =>
      some (·.fallbackSetter .int fun (s : Settings) n v =>
        if isPublic n then (true, s.put n v) else (false, s))
  | _, _ => none

/-- The members of temperatures in degrees Celsius. -/
def celsiusOwn (name : String) : Slot → String → Option (Member (.host .celsius))
  | .field, "deg" => some (·.addField name .float Celsius.degreesPart)
  | .implicitConversion, "fahrenheit" =>
      some (·.implicitConversion (.host .fahrenheit) Celsius.fahrenheit)
  | .conversion, "float" => some (·.conversion .float Celsius.degrees)
  | _, _ => none

/-- The members of temperatures in degrees Fahrenheit. -/
def fahrenheitOwn (name : String) : Slot → String → Option (Member (.host .fahrenheit))
  | .field, "deg" => some (·.addField name .float Fahrenheit.degreesPart)
  | .conversion, "celsius" => some (·.conversion (.host .celsius) Fahrenheit.celsius)
  | .display, "deg" =>
      some (·.withDisplay fun f : Fahrenheit => Decimal.showFloat f.degrees ++ "°F")
  | _, _ => none

/-- The members of nodes. -/
def nodeOwn (name : String) : Slot → String → Option (Member (.host .node))
  | .field, "value" => some (·.addField name .int Node.valuePart)
  | .field, "child" => some (·.addField name (.host .node) Node.childPart)
  | .readonly, "child" => some (·.addReadonly name (.host .node) Node.childPart.view)
  | .method, "depth" =>
      some (·.addMethod name [] .int fun (n : Node) _ => Int64.ofNat n.depth)
  | .methodRef, "child" => some (·.addMethodRef name (.host .node) Node.childPart)
  | _, _ => none

/-- The members of bytes. -/
def byteOwn : Slot → String → Option (Member (.host .byte))
  | .printable, _ => some (·.withDisplay fun b : UInt8 => toString b)
  | _, _ => none

/-- The members of one type. -/
def ownMember (slot : Slot) (name callable : String) : (k : Kind world) → Option (Member k)
  | .bool => boolOwn name slot callable
  | .int => intOwn name slot callable
  | .float => floatOwn name slot callable
  | .string => stringOwn name slot callable
  | .host .point => pointOwn name slot callable
  | .host .rect => rectOwn name slot callable
  | .host .list => listOwn name slot callable
  | .host .countdown => countdownOwn name slot callable
  | .host .settings => settingsOwn name slot callable
  | .host .celsius => celsiusOwn name slot callable
  | .host .fahrenheit => fahrenheitOwn name slot callable
  | .host .node => nodeOwn name slot callable
  | .host .byte => byteOwn slot callable
  | .unit | .host .other => none

/-! ### Members of every type -/

/-- The methods of every type that read their receiver. -/
def anyMethod (k : Kind world) (name : String) : String → Option (Member k)
  | "self" => some (·.addMethod name [] k fun t _ => t)
  | "T" => some (·.addMethod name [k] k fun _ a => a.1)
  | "u" => some (·.addMethod name [.unit] .string fun _ _ => "u")
  | "i" => some (·.addMethod name [.int] .string fun _ a => report "i" [argText a.1])
  | "f" => some (·.addMethod name [.float] .string fun _ a => report "f" [floatDigits a.1])
  | "s" => some (·.addMethod name [.string] .string fun _ a => report "s" [a.1])
  | "ii" =>
      some (·.addMethod name [.int, .int] .string fun _ a =>
        report "ii" [argText a.1, argText a.2.1])
  | "is" =>
      some (·.addMethod name [.int, .string] .string fun _ a =>
        report "is" [argText a.1, a.2.1])
  | "si" =>
      some (·.addMethod name [.string, .int] .string fun _ a =>
        report "si" [a.1, argText a.2.1])
  | "ibs" =>
      some (·.addMethod name [.int, .bool, .string] .string fun _ a =>
        report "ibs" [argText a.1, showBool a.2.1, a.2.2.1])
  | "iiii" =>
      some (·.addMethod name [.int, .int, .int, .int] .string fun _ a =>
        report "iiii" [argText a.1, argText a.2.1, argText a.2.2.1, argText a.2.2.2.1])
  | _ => none

/-- The methods of every type that change their receiver. -/
def anyMethodMut (k : Kind world) (name : String) : String → Option (Member k)
  | "replace" => some (·.addMethodMut name [k] k fun t a => (t, a.1))
  | "reset" => some (·.addMethodMut name [] .unit fun _ _ => ((), blank k))
  | "reset_byte" => some (·.addMethodMut name [] (.host .byte) fun _ _ => ((7 : UInt8), blank k))
  | "iii" =>
      some (·.addMethodMut name [.int, .int, .int] .string fun t a =>
        (report "iii!" [argText a.1, argText a.2.1, argText a.2.2.1], t))
  | "isib" =>
      some (·.addMethodMut name [.int, .string, .int, .bool] .string fun t a =>
        (report "isib!" [argText a.1, a.2.1, argText a.2.2.1, showBool a.2.2.2.1], t))
  | _ => none

/-- The methods of every type that have no receiver. -/
def anyStatic (k : Kind world) (name : String) : String → Option (Member k)
  | "i" => some (·.addStatic name [.int] .string fun a => report "static i" [argText a.1])
  | "sub" => some (·.addStatic name [.int, .int] .int fun (a : Int64 × Int64 × Unit) =>
      a.1 - a.2.1)
  | "sss" =>
      some (·.addStatic name [.string, .string, .string] .string
        fun (a : String × String × String × Unit) => a.1 ++ a.2.1 ++ a.2.2.1)
  | "iiii" =>
      some (·.addStatic name [.int, .int, .int, .int] .string fun a =>
        report "static iiii"
          [argText a.1, argText a.2.1, argText a.2.2.1, argText a.2.2.2.1])
  | _ => none

/-- The fallback setters of every type. -/
def anyFallbackSetter (k : Kind world) : String → Option (Member k)
  | "replace" =>
      some (·.fallbackSetter k fun t n v => if isPublic n then (true, v) else (false, t))
  | "replace_decline" => some (·.fallbackSetter k fun _ _ v => (false, v))
  | "decline_int" => some (·.fallbackSetter .int fun t _ _ => (false, t))
  | "accept_byte" => some (·.fallbackSetter (.host .byte) fun t _ _ => (true, t))
  | _ => none

/-- The members of every type. -/
def anyMember (k : Kind world) (name : String) : Slot → String → Option (Member k)
  | .readonly, "self" => some (·.addReadonly name k fun t => t)
  | .field, "self" => some (·.addField name k Lens.id)
  | .methodRef, "self" => some (·.addMethodRef name k Lens.id)
  | .method, f => anyMethod k name f
  | .methodMut, f => anyMethodMut k name f
  | .static, f => anyStatic k name f
  | .constructor, "default" => some (·.addConstructor [] fun _ => blank k)
  | .constructor, "copy" => some (·.addConstructor [k] fun a => a.1)
  | .constructor, "ignore3" => some (·.addConstructor [.int, .int, .int] fun _ => blank k)
  | .fallbackGetter, "echo" =>
      some (·.fallbackGetter .string fun _ n => if isPublic n then some n else none)
  | .fallbackGetter, "me" =>
      some (·.fallbackGetter k fun t n => if n = "me" then some t else none)
  | .fallbackGetterStatic, "len" =>
      some (·.fallbackGetter .int fun _ n =>
        if n.isEmpty then none else some (Int64.ofNat n.utf8ByteSize))
  | .fallbackGetterStatic, "byte" =>
      some (·.fallbackGetter (.host .byte) fun _ _ => some (9 : UInt8))
  | .fallbackSetter, f => anyFallbackSetter k f
  | .iteration, "once" => some (·.iterable k fun t => [t])
  | .iteration, "none" => some (·.iterable .int fun _ => [])
  | .iteration, "bytes" => some (·.iterable (.host .byte) fun _ => [(1 : UInt8), 2])
  | _, _ => none

/-! ### Members that yield a given value -/

/-- A member that yields the given value. -/
def givenMember (k : Kind world) (name : String) (v : Value world) :
    Slot → Option (Member k)
  | .constant => some (·.addConstant name v)
  | .readonlyStatic | .readonly => some (·.addReadonly name v.kind fun _ => v.content)
  | .method => some (·.addMethod name [] v.kind fun _ _ => v.content)
  | .static => some (·.addStatic name [] v.kind fun _ => v.content)
  | .conversion => some (·.conversion v.kind fun _ => v.content)
  | .implicitConversion => some (·.implicitConversion v.kind fun _ => v.content)
  | .display => (v.as? .string).map fun s b => b.withDisplay fun _ => s
  | .constructor => (v.as? k).map fun x b => b.addConstructor [] fun _ => x
  | _ => none

/-- Where a member comes from. -/
inductive Origin
  /-- The callable of a name. -/
  | callable (name : String)
  /-- A value. -/
  | given (v : Value world)

/-- The member of a sort, under the given name.  A type's own callables hide those of every
type. -/
def member (k : Kind world) (slot : Slot) (name : String) : Origin → Option (Member k)
  | .callable f => (ownMember slot name f k).or (anyMember k name slot f)
  | .given v => givenMember k name v slot

end ChainScript.Gallery
