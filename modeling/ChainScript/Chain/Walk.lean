import ChainScript.Chain.Graph
import ChainScript.Random
import ChainScript.Text.Line

/-!
# Walks

A forward walk appends observed successors to a text until a terminal word past the least
length, the greatest length, or a prefix without records.  A backward walk prepends observed
predecessors until a length, a line's beginning or a sentence's end.

## Main definitions

* `forward` — the words of a forward walk.
* `predecessors`, `backward` — the candidates before a text, and a backward walk.
* `tailPrefix`, `resumePrefix` — the prefix from which a text is continued.
-/

namespace ChainScript.Chain

open Text

/-- Appends at most `room` successors of the prefix to the words of `out`.  It ends after a
terminal word once there are `least` words, and where the prefix has no records. -/
def forward (source : Source) (g : Graph) (least : Nat) :
    (room : Nat) → Prefix → (out : Array Word) → Draw (Array Word)
  | 0, _, out => pure out
  | room + 1, p, out => do
      match ← source.pick (g.successors p) with
      | none => pure out
      | some next =>
          let out := out.push next.word
          if next.terminal && least ≤ out.size then pure out
          else forward source g least room (p.shift next.word) out

/-- The words that may stand before a text: where it has two words or more, the word before
every record of its first two; where it has one, the newer word of every prefix it followed. -/
def predecessors (g : Graph) : (text : List Word) → List Word
  | [] => []
  | [only] => (g.records.filter (·.2.word == only)).map (·.1.newer)
  | a :: b :: _ =>
      (g.records.filter fun r => r.1.newer == a && r.2.word == b).map (·.1.older)

/-- Prepends at most `room` predecessors to the text.  It ends at a line's beginning, and
before a word that closes a sentence unless the text has a single word. -/
def backward (source : Source) (g : Graph) : (room : Nat) → (text : List Word) → Draw (List Word)
  | 0, text => pure text
  | room + 1, text => do
      match ← source.pick (predecessors g text).toArray with
      | none => pure text
      | some word =>
          if word.isBlank || (1 < text.length && endsSentence word.text) then pure text
          else backward source g room (word :: text)

/-- The prefix formed by the last two words of a text. -/
def tailPrefix : (text : List Word) → Prefix
  | [] => Prefix.start
  | [only] => ⟨.blank, only⟩
  | [a, b] => ⟨a, b⟩
  | _ :: rest => tailPrefix rest

/-- The prefix from which a text is continued: its last two words, or, for a single word that
never began a line, a recorded prefix that ends in it. -/
def resumePrefix (source : Source) (g : Graph) (text : List Word) : Draw Prefix := do
  let p := tailPrefix text
  match text with
  | [only] =>
      if (g.successors p).isEmpty then
        let known := g.records.filter fun r => !r.1.older.isBlank && r.1.newer == only
        return ((← source.pick (known.map (·.1)).toArray)).getD p
      else return p
  | _ => return p

end ChainScript.Chain
