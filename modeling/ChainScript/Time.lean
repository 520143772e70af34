/-!
# Durations and instants

An instant is a signed count of milliseconds since the epoch, a duration a count of seconds
and nanoseconds.  Conversions between them saturate at the ends of the signed 64-bit range.

## Main definitions

* `Duration` — seconds and nanoseconds.
* `Duration.millis` — whole milliseconds, at most the greatest instant.
* `Instant` — milliseconds since the epoch.
* `Instant.seconds`, `Instant.back` — the second an instant lies in, and the instant a
  duration earlier.
-/

namespace ChainScript

/-- A length of time. -/
structure Duration where
  seconds : Nat
  nanos : Nat
  /-- A full second of nanoseconds counts as a second. -/
  nanos_lt : nanos < 1000000000 := by omega
  deriving DecidableEq

namespace Duration

/-- A number of seconds and a number of nanoseconds, however many. -/
def ofParts (seconds nanos : Nat) : Duration :=
  ⟨seconds + nanos / 1000000000, nanos % 1000000000, Nat.mod_lt _ (by decide)⟩

/-- Whole seconds. -/
def ofSeconds (n : Nat) : Duration := ofParts n 0

/-- Whole days. -/
def days (n : Nat) : Duration := ofSeconds (n * 24 * 60 * 60)

/-- The whole milliseconds of a duration, without a bound. -/
def exactMillis (d : Duration) : Nat := d.seconds * 1000 + d.nanos / 1000000

/-- The whole milliseconds of a duration, or the greatest signed 64-bit number where they are
more. -/
def millis (d : Duration) : Int64 :=
  Int64.ofInt (min (d.exactMillis : Int) Int64.maxValue.toInt)

end Duration

/-- A point in time: milliseconds since the epoch. -/
abbrev Instant := Int64

namespace Instant

/-- The number as an instant, or the nearest end of the range. -/
def saturated (n : Int) : Instant :=
  Int64.ofInt (max Int64.minValue.toInt (min n Int64.maxValue.toInt))

/-- The second that the instant lies in, counted from the epoch: the quotient rounds down. -/
def seconds (t : Instant) : Int := t.toInt.fdiv 1000

/-- The instant a duration earlier, or the earliest one there is. -/
def back (t : Instant) (d : Duration) : Instant := saturated (t.toInt - d.millis.toInt)

end Instant

end ChainScript
