import ChainScript.Text.Fold
import ChainScript.Text.Quoted
import ChainScript.Time

/-!
# Words, prefixes and records

A chain learns which word follows which two words.  A word keeps its spelling and compares by
folded spelling; the empty word marks the beginning of a line.  A prefix is the pair of words
before a transition, and a suffix is one observed word after it.

Words and prefixes have `BEq` and `Hashable` instances through the folded spelling.  They are
equivalences that agree with the hash, so a table keyed by either treats spellings as one key.

## Main definitions

* `Word`, `Prefix`, `Suffix` — the tokens of a chain.
* `Prefix.start`, `Prefix.shift` — the beginning of a line, and the step along it.
* `Word.shown`, `Prefix.shown`, `Suffix.shown` — the forms that diagnostics show.
-/

namespace ChainScript.Chain

open Text

/-- A word, spelled as it was met. -/
structure Word where
  text : String

namespace Word

/-- The mark of a line's beginning. -/
def blank : Word := ⟨""⟩

/-- The word marks a line's beginning. -/
def isBlank (w : Word) : Bool := w.text.isEmpty

instance : BEq Word := ⟨fun a b => foldEq a.text b.text⟩

/-- The word is the one that the text spells. -/
def spells (w : Word) (text : String) : Bool := foldEq w.text text

instance : Hashable Word := ⟨fun w => foldHash w.text⟩

theorem beq_iff {a b : Word} : (a == b) = true ↔ fold a.text = fold b.text := foldEq_iff

instance : EquivBEq Word where
  rfl := beq_iff.2 rfl
  symm h := beq_iff.2 (beq_iff.1 h).symm
  trans h₁ h₂ := beq_iff.2 ((beq_iff.1 h₁).trans (beq_iff.1 h₂))

instance : LawfulHashable Word where
  hash_eq _ _ h := foldHash_congr h

/-- The quoted spelling. -/
def shown (w : Word) : String := quote w.text

end Word

/-- The two words before a transition, the older first. -/
structure Prefix where
  older : Word
  newer : Word

namespace Prefix

/-- The state that every line starts from. -/
def start : Prefix := ⟨.blank, .blank⟩

/-- The prefix is that of a line's beginning. -/
def isStart (p : Prefix) : Bool := p.older.isBlank && p.newer.isBlank

/-- The prefix lies at a line's beginning: at most one word has passed. -/
def beginsLine (p : Prefix) : Bool := p.older.isBlank

/-- The prefix after one more word. -/
def shift (p : Prefix) (next : Word) : Prefix := ⟨p.newer, next⟩

/-- The words of the prefix that are no mark, the older first. -/
def tokens (p : Prefix) : List Word := [p.older, p.newer].filter (! ·.isBlank)

instance : BEq Prefix := ⟨fun p q => p.older == q.older && p.newer == q.newer⟩

instance : Hashable Prefix := ⟨fun p => mixHash (hash p.older) (hash p.newer)⟩

theorem beq_iff {p q : Prefix} :
    (p == q) = true ↔ (p.older == q.older) = true ∧ (p.newer == q.newer) = true := by
  change (p.older == q.older && p.newer == q.newer) = true ↔ _
  simp

instance : EquivBEq Prefix where
  rfl := beq_iff.2 ⟨BEq.rfl, BEq.rfl⟩
  symm h := beq_iff.2 ⟨BEq.symm (beq_iff.1 h).1, BEq.symm (beq_iff.1 h).2⟩
  trans h₁ h₂ := beq_iff.2
    ⟨BEq.trans (beq_iff.1 h₁).1 (beq_iff.1 h₂).1, BEq.trans (beq_iff.1 h₁).2 (beq_iff.1 h₂).2⟩

instance : LawfulHashable Prefix where
  hash_eq p q h := by
    change mixHash (hash p.older) (hash p.newer) = mixHash (hash q.older) (hash q.newer)
    rw [hash_eq (beq_iff.1 h).1, hash_eq (beq_iff.1 h).2]

/-- The hashes of the two words, the older first. -/
def hashes (p : Prefix) : List UInt64 := [hash p.older, hash p.newer]

/-- The pair of quoted spellings. -/
def shown (p : Prefix) : String := "Prefix(" ++ p.older.shown ++ ", " ++ p.newer.shown ++ ")"

end Prefix

/-- One observed word after a prefix. -/
structure Suffix where
  word : Word
  /-- The word closed a sentence or ended its line. -/
  terminal : Bool
  /-- When it was observed. -/
  createdAt : Instant

namespace Suffix

instance : BEq Suffix :=
  ⟨fun a b => a.word == b.word && a.terminal == b.terminal && a.createdAt == b.createdAt⟩

/-- The record with its fields named. -/
def shown (s : Suffix) : String :=
  "Suffix \x7b word: " ++ s.word.shown ++ ", terminal: " ++ toString s.terminal ++
    ", created_at: " ++ toString s.createdAt.toInt ++ " \x7d"

end Suffix

/-- A transition: a prefix and a word observed after it. -/
abbrev Record := Prefix × Suffix

end ChainScript.Chain
