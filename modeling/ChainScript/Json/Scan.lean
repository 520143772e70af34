import ChainScript.Text.Fold

/-!
# Scanning JSON

Typed values are read from a JSON text in one pass, from the left.  A reader consumes bytes
and stops at the first fault, of which there are three kinds: the text ends where more is due,
a byte cannot stand where it stands, or a well-formed value is not of the wanted type.

## Main definitions

* `Fault`, `Scan` — the kinds of faults, and readers.
* `Scan.natural`, `Scan.string`, `Scan.key` — readers of typed values.
* `Scan.skip` — passes over a value of any type.
* `Scan.whole` — runs a reader on a text that must hold nothing else.
-/

namespace ChainScript.Json

/-- Why a text does not hold the wanted value. -/
inductive Fault
  /-- A value is well formed but not of the wanted type, or has no such variant or field. -/
  | mismatch
  /-- A byte cannot stand where it stands. -/
  | malformed
  /-- The text ends too early. -/
  | ended
  deriving DecidableEq, Repr

/-- A reader consumes bytes from the left. -/
abbrev Scan (α : Type) := StateT (List UInt8) (Except Fault) α

namespace Scan

/-- The code of an ASCII character. -/
def code (c : Char) : UInt8 := UInt8.ofNat c.toNat

/-- The byte is a decimal digit. -/
def isDigit (b : UInt8) : Bool := code '0' ≤ b && b ≤ code '9'

/-- The byte is a space, a tab or an end of line. -/
def isBlank (b : UInt8) : Bool :=
  b == code ' ' || b == code '\n' || b == code '\t' || b == code '\r'

/-- The next byte, which stays. -/
def look : Scan (Option UInt8) := return (← get).head?

/-- The next byte that is no blank, which stays. -/
def peek : Scan (Option UInt8) := do
  modify (·.dropWhile isBlank)
  look

/-- Consumes a byte. -/
def advance : Scan Unit := modify (·.drop 1)

/-- Consumes a byte that must be there. -/
def next : Scan UInt8 := do
  match ← look with
  | some b => advance; return b
  | none => throw .ended

/-- Consumes the given bytes. -/
def expect (bs : List UInt8) : Scan Unit :=
  bs.forM fun b => do unless (← next) == b do throw .malformed

/-- Consumes one of the three literal names, of which `b` is the first letter. -/
def literal (b : UInt8) : Scan Unit := do
  advance
  expect (if b == code 'n' then Text.bytes "ull"
    else if b == code 't' then Text.bytes "rue" else Text.bytes "alse")

/-! ### Strings -/

/-- The value of a hexadecimal digit. -/
def hexDigit? (b : UInt8) : Option Nat :=
  if isDigit b then some (b - code '0').toNat
  else if code 'a' ≤ b && b ≤ code 'f' then some ((b - code 'a').toNat + 10)
  else if code 'A' ≤ b && b ≤ code 'F' then some ((b - code 'A').toNat + 10)
  else none

/-- Consumes four hexadecimal digits. -/
def hex4 : Scan Nat := do
  let ds := (← get).take 4
  if ds.length < 4 then throw .ended
  modify (·.drop 4)
  match ds.mapM hexDigit? with
  | some ns => return ns.foldl (16 * · + ·) 0
  | none => throw .malformed

/-- Consumes the digits of an escaped code point.  A leading half of a pair must be followed
by a trailing one; a trailing one cannot come first.  Where the string is only passed over,
halves need not pair. -/
def codePoint (paired : Bool) : Scan Nat := do
  let n ← hex4
  if !paired then return n
  if 0xdc00 ≤ n && n ≤ 0xdfff then throw .malformed
  if n < 0xd800 || 0xdbff < n then return n
  expect [code '\\', code 'u']
  let m ← hex4
  if m < 0xdc00 || 0xdfff < m then throw .malformed
  return 0x10000 + (n - 0xd800) * 0x400 + (m - 0xdc00)

/-- Consumes an escape after its backslash and returns the bytes it stands for. -/
def escape (paired : Bool) : Scan (List UInt8) := do
  let b ← next
  if b == code '"' || b == code '\\' || b == code '/' then return [b]
  else if b == code 'b' then return [8]
  else if b == code 'f' then return [12]
  else if b == code 'n' then return [10]
  else if b == code 'r' then return [13]
  else if b == code 't' then return [9]
  else if b == code 'u' then
    return Text.bytes (Char.ofNat (← codePoint paired)).toString
  else throw .malformed

/-- Consumes a string after its opening quote, at most `limit` characters and escapes, and
returns its bytes after those already `found`. -/
def stringBody (paired : Bool) : (limit : Nat) → (found : List (List UInt8)) → Scan (List UInt8)
  | 0, _ => throw .ended
  | limit + 1, found => do
      let b ← next
      if b == code '"' then return found.reverse.flatten
      else if b == code '\\' then stringBody paired limit ((← escape paired) :: found)
      else if b < 0x20 then throw .malformed
      else stringBody paired limit ([b] :: found)

/-- Consumes a string after its opening quote. -/
def string (paired : Bool) : Scan (List UInt8) := do
  stringBody paired ((← get).length + 1) []

/-! ### Numbers -/

/-- Consumes digits. -/
def digits : Scan (List UInt8) := do
  let bs ← get
  let ds := bs.takeWhile isDigit
  set (bs.drop ds.length)
  return ds

/-- The number that digits stand for. -/
def value (ds : List UInt8) : Nat := ds.foldl (fun n d => 10 * n + (d - code '0').toNat) 0

/-- The greatest natural number that is kept exactly. -/
def maxNatural : Nat := UInt64.size - 1

/-- A read number: a natural number in range, or any other. -/
inductive Number
  | natural (n : Nat)
  | other
  deriving DecidableEq

/-- The digits from the left whose number stays in range, and how many are left over. -/
def significand : List UInt8 → (n : Nat) → Nat × Nat
  | [], n => (n, 0)
  | d :: rest, n =>
      let m := 10 * n + (d - code '0').toNat
      if maxNatural < m then (n, rest.length + 1) else significand rest m

/-- Refuses a number past the range of doubles: `n * 10 ^ e` with a rounded `n`. -/
def inRange (n : Nat) (e : Int) : Scan Unit := do
  if 0 < e && n != 0 &&
      (308 < e || (Float.ofNat n * Float.ofScientific 1 false e.toNat).isInf) then
    throw .malformed

/-- Consumes an exponent after its letter. -/
def exponent : Scan Int := do
  let b ← look
  if b == some (code '+') || b == some (code '-') then advance
  let d ← next
  unless isDigit d do throw .malformed
  let e := value (d :: (← digits))
  return if b == some (code '-') then -(e : Int) else e

/-- Consumes a number after its sign. -/
def number (positive : Bool) : Scan Number := do
  let first ← next
  unless isDigit first do throw .malformed
  if first == code '0' then
    if let some b ← look then if isDigit b then throw .malformed
  let whole := first :: (← digits)
  let (n, dropped) := significand whole 0
  let b ← look
  let mut n := n
  let mut e : Int := dropped
  let mut exact := dropped == 0 && positive
  if b == some (code '.') then
    advance
    let fraction ← digits
    if fraction.isEmpty then
      throw (if (← look).isSome then .malformed else .ended)
    let (m, left) := significand fraction n
    n := m
    e := e - (fraction.length - left : Nat)
    exact := false
  let b ← look
  if b == some (code 'e') || b == some (code 'E') then
    advance
    e := e + (← exponent)
    exact := false
  inRange n e
  return if exact then .natural n else .other

/-! ### Values -/

/-- Meets a value of an unwanted type at the byte `b`.  The value is read as far as its kind,
so that a malformed one is told apart from a mismatch. -/
def mismatch {α : Type} (b : UInt8) : Scan α := do
  if b == code 'n' || b == code 't' || b == code 'f' then literal b
  else if b == code '-' then advance; discard (number false)
  else if isDigit b then discard (number true)
  else if b == code '"' then advance; discard (string true)
  else unless b == code '[' || b == code '\x7b' do throw .malformed
  throw .mismatch

/-- Reads a natural number in range. -/
def natural : Scan Nat := do
  match ← peek with
  | none => throw .ended
  | some b =>
      let found ←
        if b == code '-' then advance; number false
        else if isDigit b then number true
        else mismatch b
      match found with
      | .natural n => return n
      | .other => throw .mismatch

/-- Reads the key of an object's item; nothing but a string can stand there. -/
def key : Scan (List UInt8) := do
  match ← peek with
  | none => throw .ended
  | some b => if b == code '"' then advance; string true else throw .malformed

/-- Reads a null. -/
def null : Scan Unit := do
  match ← peek with
  | none => throw .ended
  | some b => if b == code 'n' then literal b else mismatch b

/-- Consumes the colon after a key. -/
def colon : Scan Unit := do
  match ← peek with
  | none => throw .ended
  | some b => if b == code ':' then advance else throw .malformed

/-! ### Passing over values -/

/-- Consumes digits that must be there; in a number that is passed over, the end of the text
is no special case. -/
def someDigits : Scan Unit := do if (← digits).isEmpty then throw .malformed

/-- Passes over a number after its sign. -/
def skipNumber : Scan Unit := do
  if (← look) == some (code '0') then
    advance
    if let some b ← look then if isDigit b then throw .malformed
  else someDigits
  if (← look) == some (code '.') then
    advance
    someDigits
  let b ← look
  if b == some (code 'e') || b == some (code 'E') then
    advance
    let b ← look
    if b == some (code '+') || b == some (code '-') then advance
    someDigits

/-- An array or an object that is not closed yet. -/
inductive Frame
  | array
  | object
  deriving DecidableEq

/-- What comes next while a value is passed over. -/
inductive Stage
  /-- A value. -/
  | value
  /-- The first item of the innermost frame, or its end. -/
  | opened
  /-- The end of the innermost frame, or a comma. -/
  | closing

/-- The byte that ends a frame. -/
def Frame.close : Frame → UInt8
  | array => code ']'
  | object => code '\x7d'

/-- Passes over the key of an object's item. -/
def skipKey : Frame → Scan Unit
  | .array => pure ()
  | .object => do
      match ← peek with
      | none => throw .ended
      | some b =>
          unless b == code '"' do throw .malformed
          advance
          discard (string false)
          colon

/-- Passes over a value with the given open frames, in at most `limit` steps. -/
def skipWithin : (limit : Nat) → Stage → List Frame → Scan Unit
  | 0, _, _ => throw .ended
  | _ + 1, .closing, [] => return
  | limit + 1, .closing, f :: outer => do
      match ← peek with
      | none => throw .ended
      | some b =>
          if b == code ',' then
            advance
            skipKey f
            skipWithin limit .value (f :: outer)
          else if b == f.close then
            advance
            skipWithin limit .closing outer
          else throw .malformed
  | limit + 1, .opened, frames => do
      match frames, ← peek with
      | [], _ => return
      | _ :: _, none => throw .ended
      | f :: outer, some b =>
          if b == f.close then
            advance
            skipWithin limit .closing outer
          else
            skipKey f
            skipWithin limit .value frames
  | limit + 1, .value, frames => do
      match ← peek with
      | none => throw .ended
      | some b =>
          if b == code '[' then
            advance
            skipWithin limit .opened (.array :: frames)
          else if b == code '\x7b' then
            advance
            skipWithin limit .opened (.object :: frames)
          else
            if b == code 'n' || b == code 't' || b == code 'f' then literal b
            else if b == code '-' then advance; skipNumber
            else if isDigit b then skipNumber
            else if b == code '"' then advance; discard (string false)
            else throw .malformed
            skipWithin limit .closing frames

/-- Passes over a value.  Every second step consumes a byte. -/
def skip : Scan Unit := do skipWithin (2 * (← get).length + 2) .value []

/-- Runs a reader on a whole text. -/
def whole {α : Type} (scan : Scan α) (text : String) : Except Fault α := do
  let (a, rest) ← scan.run (Text.bytes text)
  if (rest.dropWhile isBlank).isEmpty then return a else throw .malformed

end Scan

end ChainScript.Json
