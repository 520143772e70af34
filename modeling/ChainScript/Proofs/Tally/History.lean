import ChainScript.Proofs.Tally.Checked

/-!
# Histories of a tally

A tally is grown, shrunk and changed in place, and its cells follow.  After every history it
stands for the list of counts to which the same changes are made: it has the length of the list,
every sum of first counts, and every count.  No other list would give these answers.

Each change is described once, by what it makes of a tally that holds counts (`Holds.changed`) and
by the checks it passes (`changed?_spec`); histories are these steps, one after the other.

## Main definitions

* `Tally.Change` — a change, with what it does to a tally and to a list of counts.
* `Tally.Admissible` — the changes can be made one after the other, and totals stay in range.
* `Tally.after`, `Tally.after?`, `Tally.countsAfter` — what a history makes of nothing.
* `Tally.Answers` — the tally answers as the list of counts.

## Main results

* `Tally.fits_after` — what holds of a tally with a history.
* `Tally.history_spec` — a tally with a history stands for one list of counts.
-/

namespace ChainScript.Chain.Tally

/-- A change of a tally. -/
inductive Change
  | push (count : Nat)
  | increment (i : Nat)
  | decrement (i : Nat)
  | set (i count : Nat)
  | pop
  | clear

/-- The change of a list of counts. -/
def Change.onCounts (counts : List Nat) : Change → List Nat
  | push count => counts ++ [count]
  | increment i => counts.modify i (· + 1)
  | decrement i => counts.modify i (· - 1)
  | set i count => counts.set i count
  | pop => counts.dropLast
  | clear => []

/-- The position is that of a count, and a count that is lowered is at least one. -/
def Change.Applies (counts : List Nat) : Change → Prop
  | increment i => i < counts.length
  | decrement i => ∃ hi : i < counts.length, 0 < counts[i]
  | set i _ => i < counts.length
  | push _ => True
  | pop => True
  | clear => True

instance (counts : List Nat) (c : Change) : Decidable (c.Applies counts) :=
  match c with
  | .increment i => inferInstanceAs (Decidable (i < counts.length))
  | .decrement i => inferInstanceAs (Decidable (∃ hi : i < counts.length, 0 < counts[i]))
  | .set i _ => inferInstanceAs (Decidable (i < counts.length))
  | .push _ => .isTrue trivial
  | .pop => .isTrue trivial
  | .clear => .isTrue trivial

/-- The tally after a change. -/
def changed (t : Tally) : Change → Tally
  | .push count => t.push count
  | .increment i => t.increment i
  | .decrement i => t.decrement i
  | .set i count => t.set i count
  | .pop => t.pop
  | .clear => empty

/-- The tally after a change, step by step checked. -/
def changed? (t : Tally) : Change → Option Tally
  | .push count => t.push? count
  | .increment i => t.increment? i
  | .decrement i => t.decrement? i
  | .set i count => t.set? i count
  | .pop => some t.pop
  | .clear => some empty

/-- The changes can be made to the counts one after the other, and no total reaches `2 ^ 64`. -/
def Admissible : (counts : List Nat) → List Change → Prop
  | _, [] => True
  | counts, c :: changes =>
      c.Applies counts ∧ (c.onCounts counts).sum < 2 ^ 64 ∧ Admissible (c.onCounts counts) changes

instance decidableAdmissible :
    (counts : List Nat) → (changes : List Change) → Decidable (Admissible counts changes)
  | _, [] => .isTrue trivial
  | counts, c :: changes =>
      have := decidableAdmissible (c.onCounts counts) changes
      inferInstanceAs (Decidable (c.Applies counts ∧ (c.onCounts counts).sum < 2 ^ 64 ∧
        Admissible (c.onCounts counts) changes))

/-- The tally that the changes make, one after the other, of the tally of no counts. -/
def after (changes : List Change) : Tally := changes.foldl changed empty

/-- The same, where no check fails. -/
def after? (changes : List Change) : Option Tally := changes.foldlM changed? empty

/-- The counts that the changes make of none. -/
def countsAfter (changes : List Change) : List Nat := changes.foldl Change.onCounts []

/-! ### One change -/

variable {t : Tally} {counts : List Nat}

theorem modify_eq_set_getElem {i : Nat} (hi : i < counts.length) (f : Nat → Nat) :
    counts.modify i f = counts.set i (f counts[i]) := by
  rw [List.modify_eq_set_getElem?, List.getElem?_eq_getElem hi]
  rfl

theorem Holds.changed (H : Holds t counts) {c : Change} (hc : c.Applies counts) :
    Holds (t.changed c) (c.onCounts counts) := by
  cases c with
  | push count => exact push_spec H count
  | increment i =>
      rw [Change.onCounts, modify_eq_set_getElem hc]
      exact increment_spec H hc
  | decrement i =>
      obtain ⟨hi, hpos⟩ := hc
      rw [Change.onCounts, modify_eq_set_getElem hi]
      exact decrement_spec H hi hpos
  | set i count => exact set_spec H hc count
  | pop => exact pop_spec H
  | clear => exact holds_empty

/-- The tally holds the counts, and their total is in range. -/
structure Fits (t : Tally) (counts : List Nat) : Prop where
  holds : Holds t counts
  total : counts.sum < 2 ^ 64

theorem fits_empty : Fits empty [] := ⟨holds_empty, by decide⟩

theorem changed?_spec (F : Fits t counts) {c : Change} (hc : c.Applies counts)
    (hroom : (c.onCounts counts).sum < 2 ^ 64) : t.changed? c = some (t.changed c) := by
  cases c with
  | push count =>
      rw [Change.onCounts, List.sum_append, List.sum_singleton] at hroom
      exact push?_spec F.holds hroom
  | increment i =>
      have hsum := sum_set hc (counts[i] + 1)
      rw [Change.onCounts, modify_eq_set_getElem hc] at hroom
      exact increment?_spec F.holds hc (by omega)
  | decrement i =>
      obtain ⟨hi, hpos⟩ := hc
      exact decrement?_spec F.holds hi hpos
  | set i count => exact set?_spec F.holds hc F.total hroom
  | pop => rfl
  | clear => rfl

/-! ### Histories -/

/-- From a tally that holds counts, a history leads to one that holds the changed counts, and no
check fails on the way. -/
theorem Fits.foldl {changes : List Change} (F : Fits t counts) (h : Admissible counts changes) :
    Fits (changes.foldl Tally.changed t) (changes.foldl Change.onCounts counts) ∧
      changes.foldlM changed? t = some (changes.foldl Tally.changed t) := by
  induction changes generalizing t counts with
  | nil => exact ⟨F, rfl⟩
  | cons c changes ih =>
      obtain ⟨hc, hroom, hrest⟩ := h
      obtain ⟨hfits, hchecked⟩ := ih ⟨F.holds.changed hc, hroom⟩ hrest
      refine ⟨hfits, ?_⟩
      rw [List.foldlM_cons, changed?_spec F hc hroom]
      exact hchecked

theorem fits_after {changes : List Change} (h : Admissible [] changes) :
    Fits (after changes) (countsAfter changes) :=
  (fits_empty.foldl h).1

/-- The tally answers every question as the list of counts does. -/
structure Answers (t : Tally) (counts : List Nat) : Prop where
  size_eq : t.size = counts.length
  /-- Past the last count, the sum is that of all. -/
  sum_eq : ∀ n, t.sum n = (counts.take n).sum
  get_eq : ∀ i (hi : i < counts.length), t.get i = counts[i]

theorem Holds.answers (H : Holds t counts) : t.Answers counts where
  size_eq := H.size_eq
  sum_eq := sum_spec H
  get_eq _ hi := get_spec H hi

/-- One list gives the answers of a tally. -/
theorem Answers.unique {counts' : List Nat} (A : t.Answers counts) (A' : t.Answers counts') :
    counts = counts' := by
  refine List.ext_getElem (A.size_eq.symm.trans A'.size_eq) ?_
  intro i hi hi'
  rw [← A.get_eq i hi, A'.get_eq i hi']

/-- **A tally stands for one list of counts.**  After every history of changes that can be made, it
answers as the list to which the same changes are made, and as no other.  On the way no difference
falls below zero, no sum reaches `2 ^ 64` and no cell is missing, neither in a change nor in the
answer to a question. -/
theorem history_spec {changes : List Change} (h : Admissible [] changes) :
    (after changes).Answers (countsAfter changes) ∧
      (∀ counts, (after changes).Answers counts → counts = countsAfter changes) ∧
      after? changes = some (after changes) ∧
      (∀ n, (after changes).sum? n = some ((after changes).sum n)) ∧
      ∀ i, (after changes).get? i = some ((after changes).get i) := by
  obtain ⟨F, hchecked⟩ := fits_empty.foldl h
  have hanswers := F.holds.answers
  exact ⟨hanswers, fun counts A => A.unique hanswers, hchecked, sum?_spec F.holds F.total,
    get?_spec F.holds F.total⟩

/-- Five counts, of which the last takes the place of the second, and a count after them. -/
def replaced : List Change :=
  [.push 1, .push 2, .push 3, .push 4, .push 5, .set 1 5, .pop, .increment 2, .decrement 0, .push 7]

theorem history_spec_replaced : Admissible [] replaced ∧ (after replaced).size = 5 ∧
    (after replaced).sum 4 = 13 ∧ (after replaced).sum 9 = 20 ∧ (after replaced).get 1 = 5 ∧
    (after? replaced).isSome = true := by
  have hadmissible : Admissible [] replaced := by decide
  obtain ⟨A, -, hchecked, -⟩ := history_spec hadmissible
  have hcounts : countsAfter replaced = [0, 5, 4, 4, 7] := by decide
  rw [hcounts] at A
  exact ⟨hadmissible, A.size_eq, A.sum_eq 4, A.sum_eq 9, A.get_eq 1 (by decide),
    by rw [hchecked]; rfl⟩

end ChainScript.Chain.Tally
