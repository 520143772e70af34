import ChainScript.Ordered.Slots
import ChainScript.Script.Lens

/-!
# The types of the gallery

A small collection of types for scripts to work on: geometry, lists, settings, temperatures and
chains, each with the functions and parts that scripts may use.  Arithmetic on integers wraps
around.

A part is a lens.  Most are lawful; the first item of a list and the child of a node are made
when they are missing, so that reaching them may change the whole.
-/

namespace ChainScript.Gallery

open Script (Lens)

/-- A value is its own part. -/
theorem lawful_id {s : Type} : (Lens.id : Lens s s).Lawful :=
  ⟨fun _ _ => rfl, fun _ => rfl, fun _ _ _ => rfl⟩

/-! ### Points -/

/-- A point of the integer grid. -/
structure Point where
  x : Int64
  y : Int64
  deriving DecidableEq, Inhabited

namespace Point

/-- The first coordinate. -/
def xPart : Lens Point Int64 := ⟨(·.x), fun p x => { p with x := x }⟩

/-- The second coordinate. -/
def yPart : Lens Point Int64 := ⟨(·.y), fun p y => { p with y := y }⟩

theorem lawful_xPart : xPart.Lawful := ⟨fun _ _ => rfl, fun _ => rfl, fun _ _ _ => rfl⟩

theorem lawful_yPart : yPart.Lawful := ⟨fun _ _ => rfl, fun _ => rfl, fun _ _ _ => rfl⟩

/-- The sum of the coordinates. -/
def sum (p : Point) : Int64 := p.x + p.y

/-- The point with its coordinates exchanged. -/
def flipped (p : Point) : Point := ⟨p.y, p.x⟩

/-- The scalar product. -/
def dot (p q : Point) : Int64 := p.x * q.x + p.y * q.y

/-- The square of the distance from the origin. -/
def norm2 (p : Point) : Int64 := p.dot p

/-- The point moved in both directions. -/
def moved (p : Point) (dx dy : Int64) : Point := ⟨p.x + dx, p.y + dy⟩

/-- The coordinates between the given marks. -/
def between (left middle right : String) (p : Point) : String :=
  left ++ toString p.x ++ middle ++ toString p.y ++ right

/-- The text of a point. -/
def text : Point → String := between "(" ", " ")"

/-- Another text of a point. -/
def angled : Point → String := between "<" "|" ">"

end Point

/-! ### Rectangles -/

/-- A rectangle at a point. -/
structure Rect where
  origin : Point
  w : Float
  h : Float
  deriving Inhabited

namespace Rect

/-- The point where the rectangle is. -/
def originPart : Lens Rect Point := ⟨(·.origin), fun r p => { r with origin := p }⟩

/-- The width. -/
def wPart : Lens Rect Float := ⟨(·.w), fun r w => { r with w := w }⟩

/-- The height. -/
def hPart : Lens Rect Float := ⟨(·.h), fun r h => { r with h := h }⟩

theorem lawful_originPart : originPart.Lawful :=
  ⟨fun _ _ => rfl, fun _ => rfl, fun _ _ _ => rfl⟩

theorem lawful_wPart : wPart.Lawful := ⟨fun _ _ => rfl, fun _ => rfl, fun _ _ _ => rfl⟩

theorem lawful_hPart : hPart.Lawful := ⟨fun _ _ => rfl, fun _ => rfl, fun _ _ _ => rfl⟩

/-- The area. -/
def area (r : Rect) : Float := r.w * r.h

end Rect

/-! ### Lists -/

/-- The item at a place that may lie outside the list. -/
def itemAt (l : List Int64) (i : Int64) : Int64 :=
  if i < 0 then 0 else l.getD i.toInt.toNat 0

/-- The last item, or zero, and the items before it. -/
def popLast (l : List Int64) : Int64 × List Int64 := (l.getLast?.getD 0, l.dropLast)

/-- The first item.  An empty list gets a zero to be its first. -/
def firstPart : Lens (List Int64) Int64 := ⟨fun l => l.headD 0, fun l n => n :: l.tail⟩

/-- What was put first is first. -/
theorem view_put_firstPart (l : List Int64) (n : Int64) :
    firstPart.view (firstPart.put l n) = n := rfl

/-- A list that is counted down. -/
structure Countdown where
  items : List Int64
  deriving Inhabited

/-- The items of a countdown. -/
def Countdown.itemsPart : Lens Countdown (List Int64) := ⟨(·.items), fun _ l => ⟨l⟩⟩

theorem Countdown.lawful_itemsPart : itemsPart.Lawful :=
  ⟨fun _ _ => rfl, fun _ => rfl, fun _ _ _ => rfl⟩

/-! ### Settings -/

/-- Numbers by name. -/
abbrev Settings := Slots Int64

/-! ### Temperatures -/

/-- Degrees Celsius. -/
structure Celsius where
  degrees : Float
  deriving Inhabited

/-- Degrees Fahrenheit. -/
structure Fahrenheit where
  degrees : Float
  deriving Inhabited

/-- The number of degrees Celsius. -/
def Celsius.degreesPart : Lens Celsius Float := ⟨(·.degrees), fun _ d => ⟨d⟩⟩

/-- The number of degrees Fahrenheit. -/
def Fahrenheit.degreesPart : Lens Fahrenheit Float := ⟨(·.degrees), fun _ d => ⟨d⟩⟩

/-- The temperature in degrees Fahrenheit. -/
def Celsius.fahrenheit (c : Celsius) : Fahrenheit := ⟨c.degrees * 9 / 5 + 32⟩

/-- The temperature in degrees Celsius. -/
def Fahrenheit.celsius (f : Fahrenheit) : Celsius := ⟨(f.degrees - 32) * 5 / 9⟩

/-! ### Nodes -/

/-- A node with the chain of its descendants, of which each has one child at most. -/
structure Node where
  value : Int64
  /-- The values of the descendants, nearest first. -/
  below : List Int64
  deriving DecidableEq, Inhabited

namespace Node

/-- The child, if there is one. -/
def child? (n : Node) : Option Node :=
  match n.below with
  | [] => none
  | v :: below => some ⟨v, below⟩

/-- The node with another child. -/
def withChild (n c : Node) : Node := ⟨n.value, c.value :: c.below⟩

/-- The value. -/
def valuePart : Lens Node Int64 := ⟨(·.value), fun n v => { n with value := v }⟩

/-- The child.  A node without one gets one. -/
def childPart : Lens Node Node := ⟨fun n => n.child?.getD ⟨0, []⟩, withChild⟩

theorem lawful_valuePart : valuePart.Lawful := ⟨fun _ _ => rfl, fun _ => rfl, fun _ _ _ => rfl⟩

/-- The child that was put is the child. -/
theorem view_put_childPart (n c : Node) : childPart.view (childPart.put n c) = c := rfl

/-- Reaching the child of a node that has one changes nothing. -/
theorem touch_childPart {n : Node} (h : n.child?.isSome = true) : childPart.touch n = n := by
  obtain ⟨v, below⟩ := n
  cases below with
  | nil => simp [child?] at h
  | cons w below => rfl

/-- The number of nodes in the chain. -/
def depth (n : Node) : Nat := n.below.length + 1

end Node

/-! ### A type without content -/

/-- Something that scripts do not know. -/
structure Other
  deriving DecidableEq, Inhabited

end ChainScript.Gallery
