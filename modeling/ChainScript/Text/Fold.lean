/-!
# ASCII case folding

Two spellings are the same word when they differ only in the case of ASCII letters; every
other character compares as it stands.  `fold` picks the lower-case spelling of a text,
`foldEq` compares two texts through it, and `foldHash` is a 64-bit hash of the folded
spelling, so spellings of one word hash alike.

## Main definitions

* `fold` — the text with its ASCII capitals lowered.
* `foldEq` — equality of folded texts.
* `foldHash` — the FNV-1a hash of the UTF-8 bytes of the folded text.
-/

namespace ChainScript.Text

/-- The text with its ASCII capitals lowered.  `Char.toLower` moves no other character. -/
def fold (s : String) : String := s.map Char.toLower

/-- Two texts are equal up to the case of ASCII letters. -/
def foldEq (a b : String) : Bool := fold a == fold b

/-- The UTF-8 bytes of a text. -/
def bytes (s : String) : List UInt8 := s.toUTF8.data.toList

/-- One byte of an FNV-1a hash: mix the byte in, then multiply by the prime. -/
def hashByte (h : UInt64) (b : UInt8) : UInt64 := (h ^^^ b.toUInt64) * 1099511628211

/-- The FNV-1a hash of the folded text, from the offset basis. -/
def foldHash (s : String) : UInt64 := (bytes (fold s)).foldl hashByte 14695981039346656037

@[simp] theorem toList_fold (s : String) : (fold s).toList = s.toList.map Char.toLower :=
  String.toList_map

theorem foldEq_iff {a b : String} : foldEq a b = true ↔ fold a = fold b := by
  simp [foldEq]

/-- Spellings of one word have one hash. -/
theorem foldHash_congr {a b : String} (h : foldEq a b = true) : foldHash a = foldHash b := by
  rw [foldHash, foldHash, foldEq_iff.1 h]

end ChainScript.Text
