import ChainScript.Chain.Format.Basic
import ChainScript.Text.Quoted
import ChainScript.Text.Utf8

/-!
# Errors

Why storing or loading a graph, or learning from a stream, fails.  An error is a cause; its
wording is given by `ChainError.message`.
-/

namespace ChainScript.Chain

open Text

/-- Why bytes are no stored graph. -/
inductive Corruption
  /-- A line of a text file, counted from one, has a wrong number of fields. -/
  | fieldCount (line found : Nat)
  /-- The last field of a line is no flag. -/
  | lineFlag (line : Nat) (flag : String)
  /-- A binary file begins with other bytes than it should. -/
  | magic (found : List UInt8)
  /-- A binary file has an unknown version. -/
  | version (found : Nat)
  /-- The flag byte of a binary record, counted from zero, is no flag. -/
  | recordFlag (record flag : Nat)
  /-- A word in a binary file is no text. -/
  | badText (fault : Fault)
  /-- A binary file ends within its header or a record. -/
  | truncated
  deriving DecidableEq

/-- Why reading or writing fails. -/
inductive IoFault
  /-- The device fails. -/
  | device (reason : String)
  /-- A line that is read is no text. -/
  | invalidText
  /-- A word is too long for the length field of a binary record. -/
  | wordTooLong (size : Nat)
  deriving DecidableEq

/-- Why an operation on a chain fails. -/
inductive ChainError
  | corrupt (cause : Corruption)
  /-- The format has no such operation. -/
  | unsupported (format : Format) (operation : String)
  | io (fault : IoFault)
  deriving DecidableEq

/-- The byte as two hexadecimal digits. -/
def hexByte (b : UInt8) : String :=
  let digits := hexDigits b.toNat
  if digits.length < 2 then "0" ++ digits else digits

/-- The wording of a corruption. -/
def Corruption.message : Corruption → String
  | fieldCount line found =>
      "line " ++ toString line ++ ": expected 4 fields, found " ++ toString found
  | lineFlag line flag => "line " ++ toString line ++ ": bad terminal flag " ++ quote flag
  | magic found => "bad magic " ++ bracketed (found.map hexByte)
  | version found => "unsupported version " ++ toString found
  | recordFlag record flag =>
      "record " ++ toString record ++ ": bad terminal flag " ++ toString flag
  | badText fault => "invalid UTF-8: " ++ fault.message
  | truncated => "truncated input"

/-- The wording of a fault of input or output. -/
def IoFault.message : IoFault → String
  | device reason => reason
  | invalidText => "stream did not contain valid UTF-8"
  | wordTooLong size => "word of " ++ toString size ++ " bytes does not fit a u16 length"

/-- The wording of an error. -/
def ChainError.message : ChainError → String
  | corrupt cause => "corrupt graph: " ++ cause.message
  | unsupported format operation =>
      format.name ++ " format does not support " ++ operation
  | io fault => "I/O error: " ++ fault.message

end ChainScript.Chain
