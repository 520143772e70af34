import ChainScript.Text.Fold

/-!
# Reading UTF-8

Bytes are text when they are valid UTF-8.  When they are not, the fault says where the longest
valid beginning ends and whether the bytes after it are wrong or only cut short.

## Main definitions

* `decode?` — the text that the bytes spell, if they are valid.
* `Fault`, `faultIn` — the first place where bytes are no UTF-8.
-/

namespace ChainScript.Text

/-- The text that the bytes spell; `none` when they are not valid UTF-8. -/
def decode? (bs : List UInt8) : Option String := String.fromUTF8? ⟨bs.toArray⟩

/-- Why bytes are no text. -/
inductive Fault
  /-- At `index` stand `length` bytes that begin no character. -/
  | invalid (length index : Nat)
  /-- At `index` a character begins that the end of the bytes cuts short. -/
  | incomplete (index : Nat)
  deriving DecidableEq, Repr

/-- The wording of a fault. -/
def Fault.message : Fault → String
  | .invalid length index =>
      "invalid utf-8 sequence of " ++ toString length ++ " bytes from index " ++ toString index
  | .incomplete index => "incomplete utf-8 byte sequence from index " ++ toString index

/-- The byte continues a character. -/
def isContinuation (b : UInt8) : Bool := 0x80 ≤ b && b ≤ 0xbf

/-- The second byte may follow the first of a three-byte character: no overlong form and no
surrogate. -/
def follows3 (a b : UInt8) : Bool :=
  if a == 0xe0 then 0xa0 ≤ b && b ≤ 0xbf
  else if a == 0xed then 0x80 ≤ b && b ≤ 0x9f
  else isContinuation b

/-- The second byte may follow the first of a four-byte character: no overlong form and
nothing past the last code point. -/
def follows4 (a b : UInt8) : Bool :=
  if a == 0xf0 then 0x90 ≤ b && b ≤ 0xbf
  else if a == 0xf4 then 0x80 ≤ b && b ≤ 0x8f
  else isContinuation b

/-- The first fault in bytes that begin at `index`; `none` when they are valid. -/
def faultIn (index : Nat) : List UInt8 → Option Fault
  | [] => none
  | a :: r =>
      if a < 0x80 then faultIn (index + 1) r
      else if 0xc2 ≤ a && a ≤ 0xdf then
        match r with
        | [] => some (.incomplete index)
        | b :: r => if isContinuation b then faultIn (index + 2) r else some (.invalid 1 index)
      else if 0xe0 ≤ a && a ≤ 0xef then
        match r with
        | [] => some (.incomplete index)
        | [b] => some (if follows3 a b then .incomplete index else .invalid 1 index)
        | b :: c :: r =>
            if !follows3 a b then some (.invalid 1 index)
            else if !isContinuation c then some (.invalid 2 index)
            else faultIn (index + 3) r
      else if 0xf0 ≤ a && a ≤ 0xf4 then
        match r with
        | [] => some (.incomplete index)
        | [b] => some (if follows4 a b then .incomplete index else .invalid 1 index)
        | [b, c] =>
            some (if !follows4 a b then .invalid 1 index
              else if isContinuation c then .incomplete index else .invalid 2 index)
        | b :: c :: d :: r =>
            if !follows4 a b then some (.invalid 1 index)
            else if !isContinuation c then some (.invalid 2 index)
            else if !isContinuation d then some (.invalid 3 index)
            else faultIn (index + 4) r
      else some (.invalid 1 index)

/-- Text or the first fault.  The last branch is never taken: bytes without a fault decode. -/
def decode (bs : List UInt8) : Except Fault String :=
  match decode? bs with
  | some s => .ok s
  | none => .error ((faultIn 0 bs).getD (.incomplete 0))

end ChainScript.Text
