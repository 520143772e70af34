import ChainScript.Proofs.Text.Folding

/-!
# Comparison and hashing, byte by byte

Texts are folded as a whole before they are compared or hashed.  Since folding lowers the bytes of
a text one by one, it need not be done beforehand: the bytes can be compared in pairs and hashed
in one pass, each lowered when its turn comes.  The bytes of a character past ASCII are no
capitals, so they take part as they stand.

## Main definitions

* `alikeInPairs` — bytes of one number that agree pair by pair once lowered.

## Main results

* `foldEq_iff_bytes` — texts are equal up to case where their lowered bytes are the same.
* `foldEq_eq_alikeInPairs`, `foldHash_eq_foldl` — comparison and hash as passes over the bytes.
-/

namespace ChainScript.Text

/-- A text is determined by its bytes. -/
theorem bytes_inj {a b : String} : bytes a = bytes b ↔ a = b := by
  constructor
  · intro h
    have hdecode : decode? (bytes a) = decode? (bytes b) := congrArg decode? h
    rw [decode?_eq_some_iff.2 rfl, decode?_eq_some_iff.2 rfl] at hdecode
    exact Option.some.inj hdecode
  · rintro rfl
    rfl

theorem foldEq_iff_bytes {a b : String} :
    foldEq a b = true ↔ (bytes a).map lowerByte = (bytes b).map lowerByte := by
  rw [foldEq_iff, ← bytes_fold, ← bytes_fold, bytes_inj]

/-- There are as many bytes on both sides, and they agree pair by pair once lowered. -/
def alikeInPairs (as bs : List UInt8) : Bool :=
  as.length == bs.length && (as.zip bs).all fun p => lowerByte p.1 == lowerByte p.2

theorem alikeInPairs_iff {as bs : List UInt8} :
    alikeInPairs as bs = true ↔ as.map lowerByte = bs.map lowerByte := by
  induction as generalizing bs with
  | nil => cases bs <;> simp [alikeInPairs]
  | cons a as ih =>
      cases bs with
      | nil => simp [alikeInPairs]
      | cons b bs =>
          rw [List.map_cons, List.map_cons, List.cons.injEq, ← ih]
          simp only [alikeInPairs, List.length_cons, List.zip_cons_cons, List.all_cons,
            Bool.and_eq_true, beq_iff_eq, Nat.add_right_cancel_iff]
          exact and_left_comm

theorem foldEq_eq_alikeInPairs (a b : String) : foldEq a b = alikeInPairs (bytes a) (bytes b) := by
  rw [Bool.eq_iff_iff, foldEq_iff_bytes, alikeInPairs_iff]

/-- The hash takes in the bytes one after the other, each lowered. -/
theorem foldHash_eq_foldl (s : String) :
    foldHash s = (bytes s).foldl (fun h b => hashByte h (lowerByte b)) 14695981039346656037 := by
  rw [foldHash, bytes_fold, List.foldl_map]

end ChainScript.Text
