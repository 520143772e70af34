import ChainScript.Text.Blank

/-!
# Lines, words and sentence ends

A text is cut into lines at newlines, a line into words at blanks.  Both cuts are one
function, `piecesBy`, which keeps empty pieces: lines keep them, words drop them.

## Main definitions

* `piecesBy` — the pieces of a character list between separators.
* `lines` — the lines of a text, each without one trailing carriage return.
* `withoutReturn` — a line without one more.
* `words` — the words of a line, spelled as they stand.
* `endsSentence` — the word closes a sentence.
-/

namespace ChainScript.Text

/-- The pieces between the characters that satisfy `p`, empty ones included.  There is one
piece more than there are separators. -/
def piecesBy (p : Char → Bool) (cs : List Char) : List (List Char) :=
  cs.foldr (fun c ps => if p c then [] :: ps else ps.modifyHead (c :: ·)) [[]]

/-- The pieces of a text between occurrences of the character `sep`. -/
def splitAt (sep : Char) (text : String) : List String :=
  (piecesBy (· == sep) text.toList).map String.ofList

/-- The text without one trailing carriage return. -/
def dropReturn (line : List Char) : List Char :=
  if line.getLast? = some '\r' then line.dropLast else line

/-- The line without one trailing carriage return. -/
def withoutReturn (line : String) : String := String.ofList (dropReturn line.toList)

/-- The lines of a text: cut at every newline, with one trailing carriage return dropped
from each. -/
def lines (text : String) : List String :=
  (piecesBy (· == '\n') text.toList).map (String.ofList ∘ dropReturn)

/-- The words of a line, in order and spelled as they stand. -/
def words (line : String) : List String :=
  ((piecesBy isBlank line.toList).filter (! ·.isEmpty)).map String.ofList

/-- The word, with its trailing blanks dropped, ends in a full stop. -/
def endsSentence (word : String) : Bool :=
  (word.toList.reverse.dropWhile isBlank).head? == some '.'

@[simp] theorem piecesBy_nil (p : Char → Bool) : piecesBy p [] = [[]] := rfl

theorem piecesBy_cons (p : Char → Bool) (c : Char) (cs : List Char) :
    piecesBy p (c :: cs) =
      if p c then [] :: piecesBy p cs else (piecesBy p cs).modifyHead (c :: ·) := rfl

/-- There is always a first piece. -/
theorem piecesBy_ne_nil (p : Char → Bool) (cs : List Char) : piecesBy p cs ≠ [] := by
  induction cs with
  | nil => simp
  | cons c cs ih =>
      rw [piecesBy_cons]
      split
      · simp
      · cases h : piecesBy p cs with
        | nil => exact absurd h ih
        | cons q qs => simp

/-- The pieces hold every character that is no separator, in order. -/
theorem flatten_piecesBy (p : Char → Bool) (cs : List Char) :
    (piecesBy p cs).flatten = cs.filter (! p ·) := by
  induction cs with
  | nil => rfl
  | cons c cs ih =>
      rw [piecesBy_cons]
      by_cases hc : p c = true
      · simp [hc, ih]
      · cases h : piecesBy p cs with
        | nil => exact absurd h (piecesBy_ne_nil p cs)
        | cons q qs => rw [h] at ih; simp [hc, ← ih]

/-- A separator at the end adds an empty piece. -/
theorem piecesBy_append_singleton {p : Char → Bool} {sep : Char} (hsep : p sep = true)
    (cs : List Char) : piecesBy p (cs ++ [sep]) = piecesBy p cs ++ [[]] := by
  induction cs with
  | nil => simp [piecesBy_cons, hsep]
  | cons c cs ih =>
      rw [List.cons_append, piecesBy_cons, piecesBy_cons, ih]
      split
      · rfl
      · cases h : piecesBy p cs with
        | nil => exact absurd h (piecesBy_ne_nil p cs)
        | cons q qs => rfl

/-- A carriage return is blank, so it makes no difference to the words of a line. -/
@[simp] theorem words_withoutReturn (line : String) : words (withoutReturn line) = words line := by
  rw [words, withoutReturn, String.toList_ofList, dropReturn]
  split
  · next hlast =>
    obtain ⟨front, hfront⟩ := List.getLast?_eq_some_iff.1 hlast
    rw [words, hfront, List.dropLast_concat, piecesBy_append_singleton rfl]
    simp
  · rfl

end ChainScript.Text
