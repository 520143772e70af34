/-!
# Shortest decimals

A binary floating-point number is shown by the decimal with the fewest digits that reads back
to it.  The reals that read back to one number form an interval around it, so the search goes
from coarse powers of ten to fine ones and stops at the first whose multiples meet the
interval next to the number.

## Main definitions

* `Binary` — a positive number `significand * 2 ^ exponent` with the interval that rounds
  to it.
* `Binary.shortest` — digits and place of the shortest decimal.
* `positional` — a decimal written out without an exponent.
* `showBits` — the text of a double given by its bits.
-/

namespace ChainScript.Decimal

/-- A positive double.  `significand * 2 ^ exponent` is its value.  The reals that round to it
end half a unit of the last place above it and half a unit below it, or a quarter below it
where the spacing changes. -/
structure Binary where
  significand : Nat
  exponent : Int
  /-- The next number below is half as far away as the next above. -/
  narrowBelow : Bool

/-- A quantity of quarters of the last place, as a multiple of `10 ^ place`: the numerator
over `Binary.unit`. -/
def Binary.scaled (b : Binary) (quarters : Nat) (place : Int) : Nat :=
  quarters * Nat.pow 2 (b.exponent - 2).toNat * Nat.pow 10 (-place).toNat

/-- The denominator that goes with `Binary.scaled`. -/
def Binary.unit (b : Binary) (place : Int) : Nat :=
  Nat.pow 2 (2 - b.exponent).toNat * Nat.pow 10 place.toNat

/-- The multiple of `10 ^ place` next to the number that reads back to it, if one of its two
neighbours does.  Of two that do the nearer is taken, and the upper one on a tie.  The ends of
the interval belong to it when the significand is even. -/
def Binary.neighbour? (b : Binary) (place : Int) : Option Nat :=
  let unit := b.unit place
  let value := b.scaled (4 * b.significand) place
  let low := b.scaled (4 * b.significand - if b.narrowBelow then 1 else 2) place
  let high := b.scaled (4 * b.significand + 2) place
  let below := value / unit
  let closed := b.significand % 2 == 0
  let takesBelow := if closed then low ≤ below * unit else low < below * unit
  let takesAbove := if closed then (below + 1) * unit ≤ high else (below + 1) * unit < high
  if takesAbove && (!takesBelow || unit ≤ 2 * (value % unit)) then some (below + 1)
  else if takesBelow then some below
  else none

/-- Looks at `count` places from `place` downwards and returns the first hit. -/
def Binary.search (b : Binary) : (count : Nat) → (place : Int) → Nat × Int
  | 0, place => (0, place)
  | count + 1, place =>
      match b.neighbour? place with
      | some digits => (digits, place)
      | none => b.search count (place - 1)

/-- The digits and the place of the shortest decimal that reads back.  The whole part bounds
the coarsest place worth trying; at place `-1074` the number itself is a multiple, so the
search ends. -/
def Binary.shortest (b : Binary) : Nat × Int :=
  let whole := b.scaled (4 * b.significand + 2) 0 / b.unit 0
  let coarsest := (Nat.toDigits 10 whole).length
  b.search (coarsest + 1075) coarsest

/-- The number `digits * 10 ^ place` written out without an exponent. -/
def positional (digits : Nat) (place : Int) : String :=
  if 0 ≤ place then toString (digits * Nat.pow 10 place.toNat)
  else
    let shown := Nat.toDigits 10 digits
    let fraction := (-place).toNat
    let padded := List.replicate (fraction + 1 - shown.length) '0' ++ shown
    let whole := padded.length - fraction
    String.ofList (padded.take whole) ++ "." ++ String.ofList (padded.drop whole)

/-- The text of the double with the given bits: its shortest decimal written out, or the name
of what is no number. -/
def showBits (bits : UInt64) : String :=
  let n : Nat := bits.toNat
  let fraction : Nat := n % Nat.pow 2 52
  let field : Nat := n / Nat.pow 2 52 % Nat.pow 2 11
  let sign := if n / Nat.pow 2 63 = 1 then "-" else ""
  if field = 2047 then
    if fraction = 0 then sign ++ "inf" else "NaN"
  else if field = 0 && fraction = 0 then sign ++ "0"
  else
    let b : Binary :=
      if field = 0 then ⟨fraction, -1074, false⟩
      else ⟨Nat.pow 2 52 + fraction, Int.ofNat field - 1075, fraction == 0 && 1 < field⟩
    let (digits, place) := b.shortest
    sign ++ positional digits place

/-- The text of a double. -/
def showFloat (x : Float) : String := showBits x.toBits

end ChainScript.Decimal
