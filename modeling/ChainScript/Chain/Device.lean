import ChainScript.Chain.Error
import ChainScript.Chain.Stream

/-!
# Devices

A device takes bytes in writes.  A write of some bytes takes the first of them, one at least, and
says how many it took; it fails where the device has no room left.  A write of no bytes does
nothing.  Bytes are written in full by writing what is left of them until nothing is.  What a
device takes it has: there is nothing to flush.

## Main definitions

* `Device`, `Device.write` — a device with the bytes it has taken, and one write to it.
* `Device.ofSink` — a device without bytes that has the room of a sink.
* `Emission`, `writeAll` — computations that write, and bytes written in full.
-/

namespace ChainScript.Chain

/-- Where bytes are written, write by write. -/
structure Device where
  /-- The bytes taken so far. -/
  taken : List UInt8 := []
  /-- How many bytes it takes yet, if there is a limit. -/
  room : Option Nat
  /-- What it reports where it has no room. -/
  reason : String
  /-- The most that one write takes when so many bytes have been taken. -/
  portion : Nat → Nat
  portion_pos : ∀ n, 0 < portion n

namespace Device

/-- A device that takes in all what the sink does, by the given portions. -/
def ofSink (sink : Sink) (portion : Nat → Nat) (portion_pos : ∀ n, 0 < portion n) : Device :=
  match sink with
  | .unlimited => { room := none, reason := "", portion, portion_pos }
  | .limited capacity reason => { room := some capacity, reason, portion, portion_pos }

/-- The device after it has taken bytes. -/
def take (d : Device) (bs : List UInt8) : Device :=
  { d with taken := d.taken ++ bs, room := d.room.map (· - bs.length) }

/-- How many of the bytes one write takes. -/
def accepted (d : Device) (bs : List UInt8) : Nat :=
  min (d.portion d.taken.length) (min bs.length (d.room.getD bs.length))

end Device

/-- A computation that writes to a device. -/
abbrev Emission (α : Type) := ExceptT ChainError (StateM Device) α

/-- Writes once; answers how many of the bytes were taken. -/
def Device.write (bs : List UInt8) : Emission Nat := fun d =>
  if bs ≠ [] ∧ d.room = some 0 then (.error (.io (.device d.reason)), d)
  else (.ok (d.accepted bs), d.take (bs.take (d.accepted bs)))

/-- Writes all of the bytes.  A device that took none of them without a failure would be asked
forever, so that is a failure too. -/
def writeAll : List UInt8 → Emission Unit
  | [] => pure ()
  | b :: bs => do
      match ← Device.write (b :: bs) with
      | 0 => throw (.io (.device "failed to write whole buffer"))
      | n + 1 => writeAll (bs.drop n)
termination_by bs => bs.length
decreasing_by
  rw [List.length_drop, List.length_cons]
  omega

end ChainScript.Chain
