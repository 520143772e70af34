import ChainScript.Chain.Format.Dot
import ChainScript.Proofs.Graph.Alike
import ChainScript.Proofs.Ordered.OneKey
import ChainScript.Proofs.Text.Bytewise

/-!
# Spellings of one word

A word keeps the spelling in which it was met, and is compared and hashed without regard to the
case of its ASCII letters.  Equality and hash belong together: spellings of one word agree in
everything that is asked of a word, and so do the prefixes made of them.  The bags and the starts
of a graph are kept by prefix, its words are counted by word, and the edges of its drawing are
kept by both, so in each of these all spellings are one key.

## Main definitions

* `Prefix.Variants`, `Word.Variants` — spellings of one prefix or one word agree.

## Main results

* `Prefix.variants_of_beq`, `Word.variants_of_beq` — equal prefixes and words agree.
* `Word.coherence_spec` — when words are equal, and what follows from it.
-/

namespace ChainScript.Chain

open Text

/-! ### Prefixes -/

/-- The prefixes agree in all but their spelling. -/
structure Prefix.Variants (p q : Prefix) : Prop where
  hashes_eq : p.hashes = q.hashes
  isStart_eq : p.isStart = q.isStart
  beginsLine_eq : p.beginsLine = q.beginsLine
  oneKey : OneKey p q
  successors_eq (g : Graph) : g.successors p = g.successors q
  key?_eq (g : Graph) : g.key? p = g.key? q
  /-- Records of either go into one bag. -/
  bags_insert (g : Graph) (s t : Suffix) :
    ((g.insert p s).insert q t).bags = ((g.insert p s).insert p t).bags

theorem Prefix.variants_of_beq {p q : Prefix} (h : (p == q) = true) : p.Variants q where
  hashes_eq := by rw [hashes, hashes, hash_eq (beq_iff.1 h).1, hash_eq (beq_iff.1 h).2]
  isStart_eq := isStart_congr ((comparedBy_lower p q).1 h)
  beginsLine_eq := beginsLine_congr ((comparedBy_lower p q).1 h)
  oneKey := oneKey_of_beq h
  successors_eq g := congrArg (Option.getD · #[]) ((oneKey_of_beq h).value_eq g.bags)
  key?_eq g := (oneKey_of_beq h).find?_eq g.bags.keys
  bags_insert g s t := by
    rw [Graph.bags_insert _ q, Graph.bags_insert _ p t, Graph.bags_insert g,
      (oneKey_of_beq h).update_update, (oneKey_of_beq BEq.rfl).update_update]

/-! ### Words -/

namespace Word

/-- The words agree in all but their spelling. -/
structure Variants (v w : Word) : Prop where
  hash_eq : foldHash v.text = foldHash w.text
  isBlank_eq : v.isBlank = w.isBlank
  endsSentence_eq : endsSentence v.text = endsSentence w.text
  oneKey : OneKey v w
  /-- Appended to spellings of one prefix, the words make spellings of one prefix. -/
  shift_beq {p q : Prefix} (h : (p == q) = true) : (p.shift v == q.shift w) = true
  newer {p q : Prefix} (h : (p == q) = true) : (p.shift v).Variants (q.shift w)
  older (u : Word) : Prefix.Variants ⟨v, u⟩ ⟨w, u⟩
  edge {p q : Prefix} (h : (p == q) = true) : OneKey (⟨p, v⟩ : DotFormat.Edge) ⟨q, w⟩

theorem variants_of_beq {v w : Word} (h : (v == w) = true) : v.Variants w where
  hash_eq := foldHash_congr h
  isBlank_eq := isBlank_congr ((comparedBy_lower v w).1 h)
  endsSentence_eq := endsSentence_congr ((comparedBy_lower v w).1 h)
  oneKey := oneKey_of_beq h
  shift_beq hp := Prefix.beq_shift hp h
  newer hp := Prefix.variants_of_beq (Prefix.beq_shift hp h)
  older _ := Prefix.variants_of_beq (Prefix.beq_iff.2 ⟨h, BEq.rfl⟩)
  edge hp := oneKey_of_beq (DotFormat.Edge.beq_iff.2 ⟨hp, h⟩)

/-- **Equality and hash of words belong together.**  Equality is an equivalence.  Two words are
equal where their UTF-8 bytes are the same once `A` to `Z` are mapped to `a` to `z`, which is to
say that they are of one length and agree pair by pair; a word is compared with a plain text in
the same way.  The hash takes in the bytes so mapped.  Words that are equal agree in everything
but their spelling, in every roster and table that is kept by them, and only these do. -/
theorem coherence_spec :
    Equivalence (fun v w : Word => (v == w) = true) ∧ ∀ a b : String,
      (((⟨a⟩ : Word) == ⟨b⟩) = true ↔ (bytes a).map lowerByte = (bytes b).map lowerByte) ∧
      ((⟨a⟩ : Word) == ⟨b⟩) = alikeInPairs (bytes a) (bytes b) ∧
      (⟨a⟩ : Word).spells b = ((⟨a⟩ : Word) == ⟨b⟩) ∧
      hash (⟨a⟩ : Word) =
        (bytes a).foldl (fun h byte => hashByte h (lowerByte byte)) 14695981039346656037 ∧
      (((⟨a⟩ : Word) == ⟨b⟩) = true ↔ Variants ⟨a⟩ ⟨b⟩) := by
  refine ⟨⟨fun _ => BEq.rfl, BEq.symm, BEq.trans⟩, fun a b => ?_⟩
  refine ⟨foldEq_iff_bytes, foldEq_eq_alikeInPairs a b, rfl, foldHash_eq_foldl a, ?_⟩
  exact ⟨variants_of_beq, fun V => oneKey_iff_beq.1 V.oneKey⟩

/-- Letters past ASCII keep their case. -/
example : ((⟨"É"⟩ : Word) == ⟨"é"⟩) = false := by cbv

end Word

end ChainScript.Chain
