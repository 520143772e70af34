import ChainScript.Chain.Stats
import ChainScript.Proofs.Graph.Consistent
import ChainScript.Proofs.Ordered.Alike
import ChainScript.Proofs.Text.Folding

/-!
# Graphs that differ in spelling

Two graphs are alike where they differ in the case of ASCII letters only: at every position
they have the same prefix and the same suffixes up to spelling.  Since words are compared by
their folded spelling, each operation on alike graphs with alike arguments leaves alike graphs,
and what is counted is counted the same.

## Main definitions

* `Word.lower`, `Prefix.lower`, `Suffix.lower` — the lower-case spelling.
* `Graph.Alike` — graphs that differ in spelling only.
-/

namespace ChainScript.Chain

open Text

/-! ### Words -/

/-- The word in lower case. -/
def Word.lower (w : Word) : Word := ⟨fold w.text⟩

/-- The prefix in lower case. -/
def Prefix.lower (p : Prefix) : Prefix := ⟨p.older.lower, p.newer.lower⟩

/-- The suffix in lower case. -/
def Suffix.lower (s : Suffix) : Suffix := { s with word := s.word.lower }

/-- The record in lower case. -/
def lowerRecord (r : Record) : Record := (r.1.lower, r.2.lower)

/-- The suffixes of a bag in lower case. -/
def lowerBag (bag : Array Suffix) : List Suffix := bag.toList.map Suffix.lower

theorem Word.comparedBy_lower : ComparedBy Word.lower := by
  intro a b
  rw [Word.beq_iff, lower, lower, Word.mk.injEq]

theorem Word.lower_blank : Word.blank.lower = Word.blank := by
  rw [lower, blank, Word.mk.injEq, ← String.toList_inj, toList_fold]
  rfl

theorem Prefix.comparedBy_lower : ComparedBy Prefix.lower := by
  intro p q
  rw [Prefix.beq_iff, Word.comparedBy_lower, Word.comparedBy_lower, lower, lower, Prefix.mk.injEq]

section Words

variable {a b : Word} {p q : Prefix}

theorem isBlank_congr (h : a.lower = b.lower) : a.isBlank = b.isBlank := by
  rw [← Word.beq_blank, ← Word.beq_blank]
  exact Word.comparedBy_lower.beq_congr h rfl

theorem endsSentence_congr (h : a.lower = b.lower) :
    endsSentence a.text = endsSentence b.text := by
  rw [← endsSentence_fold, ← endsSentence_fold b.text, (Word.mk.inj h : fold a.text = fold b.text)]

theorem isStart_congr (h : p.lower = q.lower) : p.isStart = q.isStart := by
  obtain ⟨holder, hnewer⟩ := Prefix.mk.inj h
  rw [Prefix.isStart, Prefix.isStart, isBlank_congr holder, isBlank_congr hnewer]

theorem beginsLine_congr (h : p.lower = q.lower) : p.beginsLine = q.beginsLine :=
  isBlank_congr (Prefix.mk.inj h).1

theorem lower_shift_congr (h : p.lower = q.lower) (hw : a.lower = b.lower) :
    (p.shift a).lower = (q.shift b).lower := by
  rw [Prefix.shift, Prefix.shift, Prefix.lower, Prefix.lower, hw, (Prefix.mk.inj h).2]

theorem map_lower_tokens_congr (h : p.lower = q.lower) :
    p.tokens.map Word.lower = q.tokens.map Word.lower := by
  refine map_filter_congr ?_ fun a b hab => by rw [isBlank_congr hab]
  obtain ⟨holder, hnewer⟩ := Prefix.mk.inj h
  rw [List.map_cons, List.map_cons, List.map_cons, List.map_cons, holder, hnewer]

/-- Records with one lower-case spelling have words with one each. -/
theorem words_congr {r r' : Record} (h : lowerRecord r = lowerRecord r') :
    r.1.older.lower = r'.1.older.lower ∧ r.1.newer.lower = r'.1.newer.lower ∧
      r.2.word.lower = r'.2.word.lower := by
  obtain ⟨hp, hs⟩ := Prod.mk.inj h
  obtain ⟨holder, hnewer⟩ := Prefix.mk.inj hp
  exact ⟨holder, hnewer, (Suffix.mk.inj hs).1⟩

end Words

/-! ### Graphs -/

namespace Graph

/-- The graphs differ in the case of ASCII letters only. -/
structure Alike (g h : Graph) : Prop where
  bags : g.bags.Alike Prefix.lower lowerBag h.bags
  weights : g.weights = h.weights
  starts : g.starts.Alike Prefix.lower h.starts
  count : g.count = h.count

variable {g h : Graph}

theorem Alike.refl (g : Graph) : g.Alike g := ⟨rfl, rfl, rfl, rfl⟩

namespace Alike

variable {p q : Prefix} {s t : Suffix}

/-- Alike graphs have the same records in lower case. -/
theorem records (A : g.Alike h) : g.records.map lowerRecord = h.records.map lowerRecord := by
  have hbag : ∀ e : Prefix × Array Suffix, (e.2.toList.map (e.1, ·)).map lowerRecord =
      (lowerBag e.2).map (e.1.lower, ·) := by
    intro e
    rw [lowerBag, List.map_map, List.map_map]
    rfl
  rw [Graph.records, Graph.records, List.map_flatMap, List.map_flatMap]
  simp only [hbag]
  have hflat := congrArg (List.flatMap fun e : Prefix × List Suffix => e.2.map (e.1, ·)) A.bags
  rw [List.flatMap_map, List.flatMap_map] at hflat
  exact hflat

theorem successors (A : g.Alike h) (hp : p.lower = q.lower) :
    lowerBag (g.successors p) = lowerBag (h.successors q) := by
  have hfind := rel_of_map_eq (A.bags.find?_eq Prefix.comparedBy_lower hp)
  rw [Graph.successors, Graph.successors]
  generalize g.bags.find? p = bag at hfind ⊢
  generalize h.bags.find? q = bag' at hfind ⊢
  cases hfind with
  | none => rfl
  | some hbag => exact hbag

theorem key? (A : g.Alike h) (hp : p.lower = q.lower) :
    (g.key? p).map Prefix.lower = (h.key? q).map Prefix.lower :=
  A.bags.keys.find?_eq Prefix.comparedBy_lower hp

theorem lowerBag_push {bag bag' : Array Suffix} (hbag : lowerBag bag = lowerBag bag')
    (hs : s.lower = t.lower) : lowerBag (bag.push s) = lowerBag (bag'.push t) := by
  rw [lowerBag, lowerBag, Array.toList_push, Array.toList_push, List.map_append, List.map_append,
    List.map_singleton, List.map_singleton, hs]
  exact congrArg (· ++ _) hbag

theorem size_eq_of_lowerBag {bag bag' : Array Suffix} (hbag : lowerBag bag = lowerBag bag') :
    bag.size = bag'.size := by
  simpa [lowerBag] using congrArg List.length hbag

theorem getElem?_lowerBag {bag bag' : Array Suffix} (hbag : lowerBag bag = lowerBag bag')
    (i : Nat) :
    bag[i]?.map Suffix.lower = bag'[i]?.map Suffix.lower := by
  rw [← Array.getElem?_toList, ← Array.getElem?_toList, ← List.getElem?_map, ← List.getElem?_map]
  exact congrArg (·[i]?) hbag

theorem insert (A : g.Alike h) (hp : p.lower = q.lower) (hs : s.lower = t.lower) :
    (g.insert p s).Alike (h.insert q t) := by
  have hpos := A.bags.position?_eq Prefix.comparedBy_lower hp
  have hpush : ∀ bag bag', lowerBag bag = lowerBag bag' →
      lowerBag (bag.push s) = lowerBag (bag'.push t) := fun _ _ hbag => lowerBag_push hbag hs
  rw [Graph.insert, Graph.insert, ← hpos]
  cases g.bags.position? p with
  | some i => exact ⟨A.bags.modifyAt hpush i, by rw [A.weights], A.starts, by rw [A.count]⟩
  | none =>
      refine ⟨A.bags.update Prefix.comparedBy_lower hp rfl hpush, by rw [A.weights], ?_,
        by rw [A.count]⟩
      simp only [beginsLine_congr hp]
      split
      · exact A.starts.insert Prefix.comparedBy_lower hp
      · exact A.starts

theorem ofRecords {rs rs' : List Record} (hrs : rs.map lowerRecord = rs'.map lowerRecord) :
    (Graph.ofRecords rs).Alike (Graph.ofRecords rs') := by
  refine foldl_congr_view hrs (Alike.refl _) ?_
  intro g h a b A hab
  obtain ⟨hp, hs⟩ := Prod.mk.inj hab
  exact A.insert hp hs

theorem dropStart {r r' : Roster Prefix} (hr : r.Alike Prefix.lower r') (hp : p.lower = q.lower) :
    (Graph.dropStart r p).Alike Prefix.lower (Graph.dropStart r' q) := by
  rw [Graph.dropStart, Graph.dropStart, isStart_congr hp]
  split
  · exact hr
  · exact hr.swapRemove Prefix.comparedBy_lower hp

theorem removeBag (A : g.Alike h) (i : Nat) : (g.removeBag i).Alike (h.removeBag i) := by
  have hkey := rel_of_map_eq (A.bags.keys.getElem? i)
  refine ⟨A.bags.swapRemoveAt i, ?_, ?_, A.count⟩
  · simp only [Graph.removeBag]
    rw [A.bags.size_eq, A.weights]
  · simp only [Graph.removeBag]
    generalize g.bags.keys.members[i]? = p at hkey ⊢
    generalize h.bags.keys.members[i]? = q at hkey ⊢
    cases hkey with
    | none => exact A.starts
    | some hp => exact dropStart A.starts hp

theorem lowerBag_swapRemoveSuffix {bag bag' : Array Suffix} (hbag : lowerBag bag = lowerBag bag')
    (i : Nat) : lowerBag (swapRemoveSuffix bag i) = lowerBag (swapRemoveSuffix bag' i) := by
  rw [lowerBag, lowerBag, toList_swapRemoveSuffix, toList_swapRemoveSuffix, map_swapErase,
    map_swapErase]
  exact congrArg (swapErase · i) hbag

/-- Removing a record from alike graphs fails alike, and else leaves alike graphs. -/
theorem removeNth (A : g.Alike h) (k : Nat) :
    Option.Rel (fun a b : Suffix × Graph => a.2.Alike b.2) (g.removeNth k) (h.removeNth k) := by
  rw [Graph.removeNth, Graph.removeNth, ← A.count, ← A.weights]
  refine rel_bind (rel_self _) fun _ _ _ => ?_
  obtain ⟨i, offset⟩ := g.weights.locate k
  refine rel_bind (rel_of_map_eq (A.bags.getElem?_values i)) fun bag bag' hbag => ?_
  refine rel_bind (rel_of_map_eq (getElem?_lowerBag hbag offset)) fun _ _ _ => .some ?_
  have hsize : bag.size = bag'.size := size_eq_of_lowerBag hbag
  have shrunk : Graph.Alike
      { g with
        bags := g.bags.modifyAt i (swapRemoveSuffix · offset)
        weights := g.weights.decrement i
        count := g.count - 1 }
      { h with
        bags := h.bags.modifyAt i (swapRemoveSuffix · offset)
        weights := g.weights.decrement i
        count := g.count - 1 } :=
    ⟨A.bags.modifyAt (fun _ _ hb => lowerBag_swapRemoveSuffix hb offset) i, rfl, A.starts, rfl⟩
  simp only [hsize]
  split
  · exact shrunk.removeBag i
  · exact shrunk

theorem lowerBag_filter {bag bag' : Array Suffix} (hbag : lowerBag bag = lowerBag bag')
    (cutoff : Instant) :
    lowerBag (bag.filter (cutoff ≤ ·.createdAt)) =
      lowerBag (bag'.filter (cutoff ≤ ·.createdAt)) := by
  rw [lowerBag, lowerBag, Array.toList_filter, Array.toList_filter]
  refine map_filter_congr hbag fun a b hab => ?_
  rw [(Suffix.mk.inj hab).2.2]

theorem retainYounger (A : g.Alike h) (cutoff : Instant) :
    (g.retainYounger cutoff).Alike (h.retainYounger cutoff) := by
  have aged := A.bags.mapValues fun _ _ hbag => lowerBag_filter hbag cutoff
  have hempty : ∀ bag bag' : Array Suffix, lowerBag bag = lowerBag bag' →
      bag.isEmpty = bag'.isEmpty := by
    intro bag bag' hbag
    rw [Array.isEmpty, Array.isEmpty, size_eq_of_lowerBag hbag]
  have kept := aged.filter (p := fun _ bag => !bag.isEmpty) (q := fun _ bag => !bag.isEmpty)
    fun _ _ _ _ _ hbag => by rw [hempty _ _ hbag]
  have hsizes := map_congr_view kept.values (p := Array.size) (q := Array.size)
    fun _ _ hbag => size_eq_of_lowerBag hbag
  have hemptied := map_filter_congr aged (p := (·.2.isEmpty)) (q := (·.2.isEmpty))
    fun _ _ hab => hempty _ _ (Prod.mk.inj hab).2
  refine ⟨kept, congrArg Tally.ofList hsizes, ?_, congrArg (List.foldr _ _) hsizes⟩
  refine foldl_congr_view (R := Roster.Alike Prefix.lower) (f := Prefix.lower) ?_ A.starts
    fun _ _ _ _ hr hp => dropStart hr hp
  rw [List.map_map, List.map_map]
  exact map_congr_view hemptied fun _ _ hab => (Prod.mk.inj hab).1

/-! ### Statistics -/

theorem wordCounts {rs rs' : List Record} (hrs : rs.map lowerRecord = rs'.map lowerRecord) :
    (Chain.wordCounts rs).Alike Word.lower id (Chain.wordCounts rs') := by
  refine foldl_congr_view (R := Table.Alike Word.lower id) hrs rfl ?_
  intro t u a b htu hab
  exact htu.update Word.comparedBy_lower (Suffix.mk.inj (Prod.mk.inj hab).2).1 rfl
    fun _ _ hn => congrArg (· + 1) hn

theorem mostFrequent {es es' : List (Word × Nat)}
    (h : es.map (Prod.map Word.lower id) = es'.map (Prod.map Word.lower id)) :
    (Chain.mostFrequent es).map (Prod.map Word.lower id) =
      (Chain.mostFrequent es').map (Prod.map Word.lower id) := by
  refine foldl_congr_view (R := fun b b' : Option (Word × Nat) =>
    b.map (Prod.map Word.lower id) = b'.map (Prod.map Word.lower id)) h rfl ?_
  intro best best' e e' hbest he
  have hcount : e.2 = e'.2 := (Prod.mk.inj he).2
  cases rel_of_map_eq hbest with
  | none => exact congrArg some he
  | @some b b' hb =>
      have hcount' : b.2 = b'.2 := (Prod.mk.inj hb).2
      simp only [hcount, hcount']
      split
      · exact congrArg some he
      · exact congrArg some hb

theorem distinctWords {bag bag' : Array Suffix} (hbag : lowerBag bag = lowerBag bag') :
    Chain.distinctWords bag = Chain.distinctWords bag' := by
  refine (Roster.Alike.ofList Word.comparedBy_lower ?_).size_eq
  rw [List.map_map, List.map_map]
  exact map_congr_view hbag fun _ _ hab => (Suffix.mk.inj hab).1

/-- The numbers of alike graphs are the same, and so is the most frequent word up to case. -/
theorem stats (A : g.Alike h) :
    h.stats = { g.stats with mostCommonWord := h.stats.mostCommonWord } ∧
      g.stats.mostCommonWord.map fold = h.stats.mostCommonWord.map fold := by
  have counts := wordCounts A.records
  have hdistinct := map_congr_view A.bags.values fun _ _ hbag => distinctWords hbag
  constructor
  · simp only [Graph.stats, Stats.mk.injEq, and_true]
    exact ⟨counts.size_eq.symm, congrArg (List.foldr _ _) hdistinct.symm, A.count.symm,
      A.bags.size_eq.symm, A.starts.size_eq.symm⟩
  · have hmost := congrArg (Option.map fun e : Word × Nat => e.1.text) (mostFrequent counts)
    rw [Option.map_map, Option.map_map] at hmost
    simp only [Graph.stats, Option.map_map]
    exact hmost

end Alike

end Graph

end ChainScript.Chain
