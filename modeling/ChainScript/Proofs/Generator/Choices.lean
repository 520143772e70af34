import ChainScript.Chain.Generator
import ChainScript.Proofs.Graph.Addressed
import ChainScript.Proofs.Random.Uniform

/-!
# Uniform choices

What is left to chance in a chain is a record to drop, a start, and the next record of a walk.
Each is a uniform choice: of the words that a draw can yield, equally many choose each record,
start or successor.  For records this rests on the removal of an addressed one
(`Graph.RemovedAt`): different positions are different records, whatever was removed before.

## Main results

* `Graph.Consistent.fair_dropRandom`, `fair_walk`, `fair_forward` — the three choices.
* `choices_spec` — every choice is uniform.
-/

namespace ChainScript.Chain

/-- A uniform item of two or more. -/
theorem fair_pick {α : Type} {items : Array α} (hitems : 2 ≤ items.size) :
    Fair items.size (fun source => source.pick items) fun i _ => pure items[i.val]? := by
  have hsome : ¬ items.isEmpty = true := by
    rw [Array.isEmpty_iff, ← Array.size_eq_zero_iff]
    omega
  simp only [Source.pick, if_neg hsome]
  exact ((fair_below hitems).bind _).congr fun i _ => pure_bind i.val _

variable {g : Graph}

/-- A random drop takes one record, at a uniform position among all. -/
theorem Graph.Consistent.fair_dropRandom (C : g.Consistent) (hcount : 2 ≤ g.count) (more : Nat) :
    Fair g.count (fun source => g.dropRandom source (more + 1))
      fun k source => (g.changed (.removeNth k)).dropRandom source more := by
  simp only [Graph.dropRandom]
  refine ((fair_below hcount).bind _).congr fun k source => ?_
  obtain ⟨p, s, bag, left, hrun, -⟩ := C.exists_removedAt k.isLt
  rw [pure_bind, Graph.changed, hrun]
  rfl

/-- A forward walk that has room goes on with a uniform record of its prefix. -/
theorem fair_forward {p : Prefix} (hsuccessors : 2 ≤ (g.successors p).size) (least room : Nat)
    (out : Array Word) :
    Fair (g.successors p).size (fun source => forward source g least (room + 1) p out)
      fun i source =>
        let next := (g.successors p)[i]
        if next.terminal && least ≤ out.size + 1 then pure (out.push next.word)
        else forward source g least room (p.shift next.word) (out.push next.word) := by
  simp only [forward]
  refine ((fair_pick hsuccessors).bind _).congr fun i source => ?_
  rw [pure_bind, Array.getElem?_eq_getElem i.isLt]
  simp only [Array.size_push]
  rfl

/-- A text begins at a uniform start. -/
theorem fair_walk (hstarts : 2 ≤ g.starts.members.size) (least most : Nat) :
    Fair g.starts.members.size (fun source => Generator.walk source g least most) fun i source =>
      let start := g.starts.members[i]
      let out := (start.tokens.take (max most least)).toArray
      forward source g least (max most least - out.size) start out := by
  simp only [Generator.walk]
  refine ((fair_below hstarts).bind _).congr fun i source => ?_
  rw [pure_bind, Array.getElem?_eq_getElem i.isLt]
  rfl

/-- **Every choice is exactly uniform.**  A selection below `n` selects each index with
`(2 ^ 64 - 1) / n` of the words that a draw can yield and passes over the others; where `n` leaves
no choice it draws nothing.  So, in every graph that changes can make: a random drop takes the
record at position `k` of all records, whichever bag it is in, for equally many words for each
`k`; and equally many words begin a text at each start, and go on from a prefix with each of its
records. -/
theorem choices_spec :
    (∀ n, 2 ≤ n → Fair n (fun source => source.below n) fun i _ => pure i.val) ∧
    (∀ n ≤ 1, ∀ (source : Source) (c : Cursor), source.below n c = some (0, c)) ∧
    ∀ g : Graph, g.Built →
      (2 ≤ g.count → ∀ more, Fair g.count (fun source => g.dropRandom source (more + 1))
        fun k source => (g.changed (.removeNth k)).dropRandom source more) ∧
      (∀ k < g.count, ∃ p s bag, g.RemovedAt (g.changed (.removeNth k)) k p s bag) ∧
      (2 ≤ g.starts.members.size → ∀ least most, Fair g.starts.members.size
        (fun source => Generator.walk source g least most) fun i source =>
          let start := g.starts.members[i]
          let out := (start.tokens.take (max most least)).toArray
          forward source g least (max most least - out.size) start out) ∧
      ∀ p, 2 ≤ (g.successors p).size → ∀ least room out, Fair (g.successors p).size
        (fun source => forward source g least (room + 1) p out) fun i source =>
          let next := (g.successors p)[i]
          if next.terminal && least ≤ out.size + 1 then pure (out.push next.word)
          else forward source g least room (p.shift next.word) (out.push next.word) := by
  refine ⟨fun n hn => fair_below hn, ?_, ?_⟩
  · intro n hn source c
    rw [Source.below, if_pos hn]
    rfl
  · intro g B
    refine ⟨B.consistent.fair_dropRandom, ?_, fun hstarts => fair_walk hstarts,
      fun p hsuccessors => fair_forward hsuccessors⟩
    intro k hk
    obtain ⟨p, s, bag, left, hrun, R⟩ := B.consistent.exists_removedAt hk
    refine ⟨p, s, bag, ?_⟩
    rwa [Graph.changed, hrun]

/-- The word 1 takes the second of three records, as do `(2 ^ 64 - 1) / 3` words in all, and goes
on from the start with the second of two. -/
theorem choices_spec_scattered :
    {word : UInt64 | Source.accept? 3 word = some 1}.ncard = 6148914691236517205 ∧
    (Graph.after Graph.scattered).dropRandom .counter 1 ⟨0, 0⟩ =
      some ((Graph.after Graph.scattered).changed (.removeNth 1), ⟨1, 1⟩) ∧
    forward .counter (Graph.after Graph.scattered) 1 1 .start #[] ⟨0, 0⟩ =
      some (#[⟨"We"⟩], ⟨1, 1⟩) := by
  obtain ⟨hbelow, -, hgraph⟩ := choices_spec
  obtain ⟨hdrop, -, -, hforward⟩ := hgraph _ (Graph.built_after Graph.scattered)
  have hcount : (Graph.after Graph.scattered).count = 3 := Graph.count_ofRecords
    [(.start, ⟨⟨"I"⟩, false, 0⟩), (⟨.blank, ⟨"I"⟩⟩, ⟨⟨"am."⟩, true, 0⟩),
      (.start, ⟨⟨"We"⟩, false, 0⟩)]
  have hfirst : (Graph.after Graph.scattered).successors .start =
      #[⟨⟨"I"⟩, false, 0⟩, ⟨⟨"We"⟩, false, 0⟩] := by
    simp [Graph.successors_eq, Graph.entries_after_scattered]
  have hsize : ((Graph.after Graph.scattered).successors .start).size = 2 := by rw [hfirst]; rfl
  refine ⟨(hbelow 3 (by decide)).ncard_eq 1, ?_, ?_⟩
  · have F := hdrop (by rw [hcount]; decide) 0
    rw [hcount] at F
    exact F.accepted .counter ⟨0, 0⟩ 1 (by decide)
  · have haccept : Source.accept? ((Graph.after Graph.scattered).successors .start).size
        (Source.counter.upcoming ⟨0, 0⟩) = some 1 := by rw [hsize]; decide
    have F := hforward .start (by rw [hsize]) 1 0 #[]
    have hnext := F.accepted .counter ⟨0, 0⟩ ⟨1, by rw [hsize]; decide⟩ haccept
    simp only [hfirst] at hnext
    exact hnext

end ChainScript.Chain
