import ChainScript.Chain.Error
import ChainScript.Chain.Graph
import ChainScript.Chain.Stream

/-!
# The binary format

A file begins with four magic bytes, a version and a record count.  A record holds three
words, each after its length in two bytes, a flag byte and a time in eight bytes.  Numbers are
little-endian and words UTF-8.

## Main definitions

* `BinaryFormat.encodeRecord`, `BinaryFormat.write` — the bytes of records and files.
* `BinaryFormat.shortfall` — how a file that ends too early is reported.
* `BinaryFormat.decodeRecord`, `BinaryFormat.read` — records and files from bytes.
-/

namespace ChainScript.Chain.BinaryFormat

open Text

/-- The bytes that a file begins with. -/
def magic : List UInt8 := [0x4d, 0x4b, 0x56, 0x31]

/-- The version that is written and read. -/
def version : Nat := 1

/-- The greatest length of a word in bytes. -/
def maxWordSize : Nat := 65535

/-- A number in `width` bytes, the lowest first. -/
def littleEndian : (width n : Nat) → List UInt8
  | 0, _ => []
  | width + 1, n => UInt8.ofNat n :: littleEndian width (n / 256)

/-- The number that bytes stand for, the lowest first. -/
def ofLittleEndian : List UInt8 → Nat
  | [] => 0
  | b :: rest => b.toNat + 256 * ofLittleEndian rest

/-! ### Writing -/

/-- The word fits its length field. -/
def fits (w : Word) : Bool := (bytes w.text).length ≤ maxWordSize

/-- A word after its length. -/
def encodeWord (w : Word) : List UInt8 :=
  let text := bytes w.text
  littleEndian 2 text.length ++ text

/-- The words of a record in the order in which they are written. -/
def wordsOf (r : Record) : List Word := [r.1.older, r.1.newer, r.2.word]

/-- The bytes of a record whose words fit. -/
def encodeRecord (r : Record) : List UInt8 :=
  (wordsOf r).flatMap encodeWord ++
    (if r.2.terminal then 1 else 0) :: littleEndian 8 r.2.createdAt.toUInt64.toNat

/-- The bytes before the records. -/
def header (count : Nat) : List UInt8 :=
  magic ++ littleEndian 2 version ++ littleEndian 8 count

/-- The bytes of a file, up to the first word that does not fit, and the fault that the word
is if there is one. -/
def write (count : Nat) (rs : List Record) : List UInt8 × Option IoFault :=
  let whole := rs.takeWhile fun r => (wordsOf r).all fits
  let written := header count ++ whole.flatMap encodeRecord
  match rs.drop whole.length with
  | [] => (written, none)
  | r :: _ =>
      let before := (wordsOf r).takeWhile fits
      let tooLong := ((wordsOf r).drop before.length).head?
      (written ++ before.flatMap encodeWord,
        tooLong.map fun w => .wordTooLong (bytes w.text).length)

/-! ### Reading -/

/-- A step of reading: it consumes bytes or fails. -/
abbrev Reader (α : Type) := StateT (List UInt8) (Except ChainError) α

/-- What missing bytes are reported as.  The file is truncated if the device reports the end of
the input, as such or by a failure of that kind; any other failure is passed on. -/
def shortfall : Option ReadFailure → ChainError
  | none | some ⟨.unexpectedEnd, _⟩ => .corrupt .truncated
  | some ⟨.other, reason⟩ => .io (.device reason)

/-- Consumes `n` bytes, if the stream has them. -/
def take (failure : Option ReadFailure) (n : Nat) : Reader (List UInt8) := fun bs =>
  let chunk := bs.take n
  if chunk.length = n then .ok (chunk, bs.drop n) else .error (shortfall failure)

/-- Consumes a number of `width` bytes. -/
def takeNumber (failure : Option ReadFailure) (width : Nat) : Reader Nat :=
  return ofLittleEndian (← take failure width)

/-- Consumes a word and its length. -/
def takeWord (failure : Option ReadFailure) : Reader Word := do
  let chunk ← take failure (← takeNumber failure 2)
  match decode chunk with
  | .ok text => return ⟨text⟩
  | .error fault => throw (.corrupt (.badText fault))

/-- Consumes the record with the given number, counted from zero. -/
def decodeRecord (failure : Option ReadFailure) (number : Nat) : Reader Record := do
  let older ← takeWord failure
  let newer ← takeWord failure
  let word ← takeWord failure
  let terminal ← match ← takeNumber failure 1 with
    | 0 => pure false
    | 1 => pure true
    | flag => throw (.corrupt (.recordFlag number flag))
  let time ← takeNumber failure 8
  return (⟨older, newer⟩, ⟨word, terminal, (UInt64.ofNat time).toInt64⟩)

/-- Consumes `count` records from the one with the given number on. -/
def decodeRecords (failure : Option ReadFailure) : (count number : Nat) → (found : List Record) →
    Reader (List Record)
  | 0, _, found => return found.reverse
  | count + 1, number, found => do
      let r ← decodeRecord failure number
      decodeRecords failure count (number + 1) (r :: found)

/-- Consumes a file; bytes after its last record are left. -/
def readFile (failure : Option ReadFailure) : Reader (List Record) := do
  let found ← take failure 4
  unless found = magic do throw (.corrupt (.magic found))
  let v ← takeNumber failure 2
  unless v = version do throw (.corrupt (.version v))
  let count ← takeNumber failure 8
  decodeRecords failure count 0 []

/-- The records of a file. -/
def read (input : Input) : Except ChainError (List Record) :=
  (readFile input.failure).run' input.bytes

end ChainScript.Chain.BinaryFormat
