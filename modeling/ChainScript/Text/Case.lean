import ChainScript.Text.CaseTable
import ChainScript.Text.Printable

/-!
# Full case mapping

Upper and lower case of a whole text.  A character may map to several, and a capital sigma
maps to the final form at the end of a word.
-/

namespace ChainScript.Text

/-- The code points that `n` maps to: its special mapping if it has one, else its place in a
run, else itself. -/
def mapCase (runs : Array CaseRun) (specials : Array (Nat × List Nat)) (n : Nat) : List Nat :=
  match specials.find? (·.1 == n) with
  | some special => special.2
  | none =>
      match runs.find? (·.holds n) with
      | some run => [(n + run.shift : Int).toNat]
      | none => [n]

/-- The upper case of a character. -/
def upperChar (c : Char) : List Char :=
  if c.toNat < 0x80 then [c.toUpper]
  else (mapCase upperRuns upperSpecials c.toNat).map Char.ofNat

/-- The lower case of a character, out of context. -/
def lowerChar (c : Char) : List Char :=
  if c.toNat < 0x80 then [c.toLower]
  else (mapCase lowerRuns lowerSpecials c.toNat).map Char.ofNat

/-- Past the characters that case ignores, the first one is cased. -/
def meetsCased (cs : List Char) : Bool :=
  match cs.dropWhile (inRanges ignorableRanges ·.toNat) with
  | c :: _ => inRanges casedRanges c.toNat
  | [] => false

/-- Lower case, where `before` holds the characters already passed, nearest first.  A capital
sigma with a cased character before it and none after it takes the final form. -/
def lowerAfter (before : List Char) : List Char → List Char
  | [] => []
  | c :: rest =>
      let low :=
        if c = 'Σ' then
          if meetsCased before && !meetsCased rest then ['ς'] else ['σ']
        else lowerChar c
      low ++ lowerAfter (c :: before) rest

/-- The text in upper case. -/
def upper (s : String) : String := String.ofList (s.toList.flatMap upperChar)

/-- The text in lower case. -/
def lower (s : String) : String := String.ofList (lowerAfter [] s.toList)

end ChainScript.Text
