/-!
# Byte streams

A stream that is read ends after its last byte, either as such or with a failure of the device.
A sink that is written to takes every byte, or a number of bytes and then fails.

## Main definitions

* `FailureKind`, `ReadFailure` — how a device that is read from fails.
* `Input`, `Input.rawLines`, `Input.endsOpen` — what is read, and its lines.
* `Sink`, `Sink.takes` — where it is written, and what of it gets there.
-/

namespace ChainScript.Chain

/-- The kinds of failure that a reader tells apart. -/
inductive FailureKind
  /-- The input is at its end, where more was to come. -/
  | unexpectedEnd
  /-- Any other. -/
  | other
  deriving DecidableEq

/-- What a device that is read from reports when it fails.  A read that is interrupted is tried
again and does not count. -/
structure ReadFailure where
  kind : FailureKind
  reason : String
  deriving DecidableEq

/-- A reason alone is that of a failure of no special kind. -/
instance : Coe String ReadFailure := ⟨fun reason => ⟨.other, reason⟩⟩

/-- Bytes to be read. -/
structure Input where
  bytes : List UInt8
  /-- What the device reports after the last byte, if it does not report the end. -/
  failure : Option ReadFailure := none

/-- The pieces of bytes between newlines.  There is one piece more than there are newlines. -/
def newlinePieces (bs : List UInt8) : List (List UInt8) :=
  bs.foldr (fun b ps => if b = 10 then [] :: ps else ps.modifyHead (b :: ·)) [[]]

/-- The lines that can be read in full, without their newlines.  The piece after the last
newline counts if it holds bytes and the stream ends after it; where the device fails, the
line is never completed. -/
def Input.rawLines (input : Input) : List (List UInt8) :=
  let pieces := newlinePieces input.bytes
  if input.failure.isSome || pieces.getLast? = some [] then pieces.dropLast else pieces

/-- The last line that can be read has no newline: the stream ends after it. -/
def Input.endsOpen (input : Input) : Bool :=
  input.failure.isNone && (newlinePieces input.bytes).getLast? != some []

/-- Where bytes are written. -/
inductive Sink
  /-- Takes every byte. -/
  | unlimited
  /-- Takes `capacity` bytes and then fails every write with `reason`. -/
  | limited (capacity : Nat) (reason : String)

/-- The bytes that the sink takes of those written to it. -/
def Sink.takes : Sink → List UInt8 → List UInt8
  | .unlimited, bs => bs
  | .limited capacity _, bs => bs.take capacity

/-- What a sink reports after the bytes written to it. -/
def Sink.failure? : Sink → List UInt8 → Option String
  | .unlimited, _ => none
  | .limited capacity reason, bs => if capacity < bs.length then some reason else none

end ChainScript.Chain
