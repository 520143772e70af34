import ChainScript.Chain.Error
import ChainScript.Chain.Graph
import ChainScript.Chain.Stream
import ChainScript.Text.Line

/-!
# The text format

One record a line: the two words of the prefix, the word and the terminal flag, with tabs
between them.  Times are not kept.

## Main definitions

* `TextFormat.writeRecord` — the line of a record.
* `TextFormat.parseLine` — the record of a line, if it has one.
* `TextFormat.read` — the records of a file.
-/

namespace ChainScript.Chain.TextFormat

open Text

/-- The digit of a flag. -/
def flagDigit (terminal : Bool) : String := if terminal then "1" else "0"

/-- The line of a record, newline included. -/
def writeRecord (r : Record) : String :=
  r.1.older.text ++ "\t" ++ r.1.newer.text ++ "\t" ++ r.2.word.text ++ "\t" ++
    flagDigit r.2.terminal ++ "\n"

/-- The file of a list of records. -/
def write (rs : List Record) : List UInt8 := rs.flatMap (bytes ∘ writeRecord)

/-- The line without the carriage returns and newlines at its end. -/
def trimEnds (line : String) : String :=
  String.ofList (line.toList.reverse.dropWhile fun c => c == '\r' || c == '\n').reverse

/-- The flag of a digit. -/
def flag? : String → Option Bool
  | "0" => some false
  | "1" => some true
  | _ => none

/-- The record on a line, created at `now`; none where the line is empty.  `number` is the
line's place in the file, counted from one. -/
def parseLine (now : Instant) (number : Nat) (line : String) :
    Except Corruption (Option Record) :=
  let line := trimEnds line
  if line.isEmpty then .ok none
  else
    match splitAt '\t' line with
    | [a, b, word, flag] =>
        match flag? flag with
        | some terminal => .ok (some (⟨⟨a⟩, ⟨b⟩⟩, ⟨⟨word⟩, terminal, now⟩))
        | none => .error (.lineFlag number flag)
    | fields => .error (.fieldCount number fields.length)

/-- The records on the lines from the one with the given number on, in order.  The first line
that is no text or holds no record decides the error. -/
def readLines (now : Instant) : (number : Nat) → List (List UInt8) → (found : List Record) →
    Except ChainError (List Record)
  | _, [], found => .ok found.reverse
  | number, line :: rest, found =>
      match decode? line with
      | none => .error (.io .invalidText)
      | some text =>
          match parseLine now number text with
          | .error cause => .error (.corrupt cause)
          | .ok none => readLines now (number + 1) rest found
          | .ok (some r) => readLines now (number + 1) rest (r :: found)

/-- The records of a file, each created at `now`.  A failing device is met after the last line
that could be read, and its failure is passed on whatever its kind. -/
def read (now : Instant) (input : Input) : Except ChainError (List Record) := do
  let rs ← readLines now 1 input.rawLines []
  match input.failure with
  | some failure => .error (.io (.device failure.reason))
  | none => return rs

end ChainScript.Chain.TextFormat
