import ChainScript.Proofs.Graph.Rebuilt
import ChainScript.Proofs.Walk.Unbroken

/-!
# Walks that are taken up again

Where a text around a prompt is to go on, its last two words may have no bag: a single word has
one only if it began a line.  A recorded prefix that ends in the word is then taken instead, so the
walk stays where it is only if no prefix ends in that word.  A longer text that stops before its
least length has come to two words without a bag.

## Main results

* `yields_resumePrefix_lone` — a single word is taken up wherever it stands in a prefix.
* `Generator.resumed_spec` — what a short text around a prompt says about the graph.
-/

namespace ChainScript.Chain

open Text

/-! ### Two facts about one computation -/

theorem Yields.and {α : Type} {d : Draw α} {Q R : α → Prop} (hQ : Yields d Q) (hR : Yields d R) :
    Yields d fun a => Q a ∧ R a :=
  fun c a c' hrun => ⟨hQ c a c' hrun, hR c a c' hrun⟩

/-! ### The seam -/

variable {source : Source} {g : Graph}

/-- The words that are chosen move the text and its prefix along. -/
theorem Prefix.Continues.along {p : Prefix} {text : List Word} (h : p.Continues text)
    (ss : List Suffix) : (p.along ss).Continues (text ++ ss.map (·.word)) := by
  induction ss generalizing p text with
  | nil => rwa [List.map_nil, List.append_nil]
  | cons s ss ih =>
      have hstep := ih (h.shift s.word)
      rwa [List.append_assoc] at hstep

/-- Where a text of two words or more goes on from is its last two words. -/
theorem Prefix.beq_of_continues {p : Prefix} {front : List Word} {a b : Word}
    (h : p.Continues (front ++ [a, b])) : (p == ⟨a, b⟩) = true := by
  generalize htext : front ++ [a, b] = text at h
  cases h with
  | pair front' h =>
      cases List.append_inj_right' htext rfl
      exact h
  | lone h => exact absurd (congrArg List.length htext) (by simp)

/-- A prefix without words in it that ends in the word is the one of a line that it begins. -/
theorem Prefix.beq_of_isBlank {p : Prefix} {w : Word} (hblank : p.older.isBlank = true)
    (hw : (p.newer == w) = true) : (p == ⟨.blank, w⟩) = true :=
  beq_iff.2 ⟨(Word.beq_blank _).trans hblank, hw⟩

/-- A single word is taken up at a prefix without records only if no prefix ends in it. -/
theorem yields_resumePrefix_lone (C : g.Consistent) (only : Word) :
    Yields (resumePrefix source g [only]) fun p => g.successors p = #[] →
      ∀ q ∈ g.bags.keys.members, (q.newer == only) = false := by
  rw [resumePrefix]
  dsimp only
  split
  · next hnone =>
    have hnone : g.successors (tailPrefix [only]) = #[] := by simpa using hnone
    refine (yields_pick source _).bind fun p? hp => yields_pure fun hstuck q hq => ?_
    obtain ⟨r, hr, rfl⟩ := C.exists_record hq
    by_contra hends
    rw [Bool.not_eq_false] at hends
    cases hblank : r.1.older.isBlank with
    | true =>
        -- The word begins a line, and what follows it there is in the bag that was tried first.
        have hbag := Graph.mem_successors_of_mem_records hr (Prefix.beq_of_isBlank hblank hends)
        exact Array.ne_empty_of_mem hbag hnone
    | false =>
        have hknown : r.1 ∈ ((g.records.filter fun r => !r.1.older.isBlank &&
            r.1.newer == only).map (·.1)).toArray :=
          List.mem_toArray.2 (List.mem_map_of_mem (List.mem_filter.2 ⟨hr, by simp [hblank, hends]⟩))
        cases p? with
        | none => exact Array.ne_empty_of_mem hknown (hp.1 rfl)
        | some p =>
            obtain ⟨r', hr', rfl⟩ := List.mem_map.1 (List.mem_toArray.1 (hp.2 p rfl))
            have hbag := Graph.mem_successors_of_mem_records (List.mem_filter.1 hr').1 BEq.rfl
            exact Array.ne_empty_of_mem hbag hstuck
  · next hsome => exact yields_pure fun hstuck => absurd hstuck (by simpa using hsome)

namespace Generator

variable {env : Env} {g' : Generator}

/-- The walks around a prompt stop early only where the graph knows nothing that comes next. -/
theorem yields_walkFrom_stuck (C : g.Consistent) {given : List Word} (hgiven : given ≠ [])
    {least most : Nat} (hmost : 2 ≤ max least most) :
    Yields (walkFrom source g given least most) fun r =>
      (∀ w, r.toList = [w] → ∀ q ∈ g.bags.keys.members, (q.newer == w) = false) ∧
      ∀ front a b, r.toList = front ++ [a, b] → r.size < least → g.successors ⟨a, b⟩ = #[] := by
  rw [walkFrom, Nat.max_comm most least]
  refine (yields_backward source g _ hgiven).bind ?_
  rintro text ⟨before, rfl, -, -⟩
  have htext : before ++ given ≠ [] := List.append_ne_nil_of_right_ne_nil _ hgiven
  generalize before ++ given = text at htext
  have hlone : Yields (resumePrefix source g text) fun p => ∀ w, text = [w] →
      g.successors p = #[] → ∀ q ∈ g.bags.keys.members, (q.newer == w) = false := by
    intro c p c' hrun w htext
    subst htext
    exact yields_resumePrefix_lone C w c p c' hrun
  refine ((yields_resumePrefix source g htext).and hlone).bind fun p hp => ?_
  obtain ⟨hcontinues, hlone⟩ := hp
  refine (yields_forward source g _ _ _ _).mono ?_
  rintro r ⟨ss, H, hr⟩
  have hended := H.ended
  rw [List.size_toArray] at hended
  rw [List.toList_toArray] at hr
  constructor
  · intro w hw
    obtain ⟨hnil, -⟩ | ⟨rfl, hss⟩ := List.append_eq_singleton_iff.1 (hr.symm.trans hw)
    · exact absurd hnil htext
    · obtain rfl := List.map_eq_nil_iff.1 hss
      have hroom : ([] : List Suffix).length < max least most - [w].length :=
        Nat.sub_pos_of_lt hmost
      obtain hstuck | ⟨s, hlast, -⟩ := hended hroom
      · exact hlone w rfl hstuck
      · cases hlast
  · intro front a b hab hshort
    have hlen : r.size = text.length + ss.length := by
      rw [← Array.length_toList, hr, List.length_append, List.length_map]
    obtain hstuck | ⟨s, -, -, hlong⟩ := hended (by omega)
    · have htail := hcontinues.along ss
      rw [← hr, hab] at htail
      rwa [← Graph.successors_congr (Prefix.beq_of_continues htail)]
    · omega

/-- **A prompt is continued wherever the graph knows how.**  Where a text around a prompt may
have two words or more and has a single one, no prefix with records ends in that word, up to
case: nothing was ever recorded after it.  Where it has more, and still fewer than the least
length, its last two words have no bag. -/
theorem resumed_spec {prompt : String} {least most : Nat} {ws : List String} {g : Generator}
    (hg : g.Reachable) (hprompt : words prompt ≠ []) (hmost : 2 ≤ max least most)
    (h : g.generateFrom env prompt least most = some (ws, g')) :
    (∀ w, ws = [w] → ∀ q ∈ g.graph.bags.keys.members, fold q.newer.text ≠ fold w) ∧
    ∀ front a b, ws = front ++ [a, b] → ws.length < least →
      g.graph.bags.find? ⟨⟨a⟩, ⟨b⟩⟩ = none := by
  have C := hg.sound.built.consistent
  rw [generateFrom] at h
  split at h
  · next hnil => exact absurd hnil hprompt
  · obtain ⟨⟨out, g₁⟩, hdraw, h⟩ := Option.bind_eq_some_iff.1 h
    obtain ⟨rfl, -⟩ := Prod.mk.inj (Option.some.inj h)
    obtain ⟨⟨r, c⟩, hwalk, hdraw⟩ := Option.bind_eq_some_iff.1 hdraw
    obtain ⟨rfl, -⟩ := Prod.mk.inj (Option.some.inj hdraw)
    have hgiven : (words prompt).map Word.mk ≠ [] := hprompt ∘ List.map_eq_nil_iff.1
    obtain ⟨hlone, hshort⟩ := yields_walkFrom_stuck C hgiven hmost _ _ _ hwalk
    constructor
    · intro w hw q hq heq
      obtain ⟨v, hr, rfl⟩ := List.map_eq_singleton_iff.1 hw
      exact Bool.eq_false_iff.1 (hlone v hr q hq) (Word.beq_iff.2 heq)
    · intro front a b hab hlen
      obtain ⟨front', ends, hr, -, hends⟩ := List.map_eq_append_iff.1 hab
      obtain ⟨v, rest, rfl, rfl, hrest⟩ := List.map_eq_cons_iff.1 hends
      obtain ⟨w, rfl, rfl⟩ := List.map_eq_singleton_iff.1 hrest
      rw [List.length_map, Array.length_toList] at hlen
      exact C.find?_eq_none_iff.2 (hshort front' v w hr hlen)

/-- After a word that is not in the line nothing comes, and the line's own end has no bag. -/
theorem resumed_spec_unknown :
    ∃ g, runAll [(⟨Source.counter, 0⟩, .text "a b c")] (new {} 0) = some g ∧
      words "x" ≠ [] ∧ words "c" ≠ [] ∧ 2 ≤ max 0 10 ∧ 2 ≤ max 5 10 ∧
      g.generateFrom ⟨Source.counter, 0⟩ "x" 0 10 = some (["x"], g) ∧
      (∀ q ∈ g.graph.bags.keys.members, fold q.newer.text ≠ fold "x") ∧
      g.generateFrom ⟨Source.counter, 0⟩ "c" 5 10 = some (["a", "b", "c"], g) ∧
      g.graph.bags.find? ⟨⟨"b"⟩, ⟨"c"⟩⟩ = none := by
  let rs : List Record := [(.start, ⟨⟨"a"⟩, false, 0⟩), (⟨.blank, ⟨"a"⟩⟩, ⟨⟨"b"⟩, false, 0⟩),
    (⟨⟨"a"⟩, ⟨"b"⟩⟩, ⟨⟨"c"⟩, true, 0⟩)]
  let g : Generator := { new {} 0 with graph := Graph.ofRecords rs }
  have hrun : runAll [(⟨Source.counter, 0⟩, .text "a b c")] (new {} 0) = some g :=
    runAll_text_of_fits (by decide)
  have hentries : g.graph.bags.entries = [(.start, #[⟨⟨"a"⟩, false, 0⟩]),
      (⟨.blank, ⟨"a"⟩⟩, #[⟨⟨"b"⟩, false, 0⟩]), (⟨⟨"a"⟩, ⟨"b"⟩⟩, #[⟨⟨"c"⟩, true, 0⟩])] :=
    (Graph.entries_ofRecords rs).trans (by with_unfolding_all rfl)
  have hrecords : g.graph.records = rs := by
    rw [Graph.records_eq, hentries]
    rfl
  have hnone : g.graph.successors ⟨.blank, ⟨"x"⟩⟩ = #[] := by
    rw [Graph.successors_eq, hentries]
    decide +kernel
  have hlast : g.graph.successors ⟨⟨"b"⟩, ⟨"c"⟩⟩ = #[] := by
    rw [Graph.successors_eq, hentries]
    decide +kernel
  have hunknown : walkFrom Source.counter g.graph [⟨"x"⟩] 0 10 = pure #[⟨"x"⟩] := by
    have hbefore : predecessors g.graph [⟨"x"⟩] = [] := by
      rw [predecessors, hrecords]
      decide +kernel
    have hback : backward Source.counter g.graph 4 [⟨"x"⟩] = pure [⟨"x"⟩] := by
      rw [backward, hbefore, pick_empty, pure_bind]
    have hknown : g.graph.records.filter (fun r => !r.1.older.isBlank && r.1.newer == ⟨"x"⟩) =
        [] := by
      rw [hrecords]
      decide +kernel
    have hresume : resumePrefix Source.counter g.graph [⟨"x"⟩] = pure ⟨.blank, ⟨"x"⟩⟩ := by
      simp [resumePrefix, tailPrefix, hnone, hknown, pick_empty]
    change (backward Source.counter g.graph 4 [⟨"x"⟩] >>= _) = _
    rw [hback, pure_bind, hresume, pure_bind]
    exact forward_of_stuck Source.counter hnone 0 9 _
  have hknown : walkFrom Source.counter g.graph [⟨"c"⟩] 5 10 = pure #[⟨"a"⟩, ⟨"b"⟩, ⟨"c"⟩] := by
    have hbefore : predecessors g.graph [⟨"c"⟩] = [⟨"b"⟩] := by
      rw [predecessors, hrecords]
      with_unfolding_all rfl
    have hsecond : predecessors g.graph [⟨"b"⟩, ⟨"c"⟩] = [⟨"a"⟩] := by
      rw [predecessors, hrecords]
      with_unfolding_all rfl
    have hfirst : predecessors g.graph [⟨"a"⟩, ⟨"b"⟩, ⟨"c"⟩] = [.blank] := by
      rw [predecessors, hrecords]
      with_unfolding_all rfl
    have hback : backward Source.counter g.graph 4 [⟨"c"⟩] = pure [⟨"a"⟩, ⟨"b"⟩, ⟨"c"⟩] := by
      rw [backward, hbefore, pick_singleton, pure_bind]
      change backward Source.counter g.graph 3 [⟨"b"⟩, ⟨"c"⟩] = _
      rw [backward, hsecond, pick_singleton, pure_bind]
      change backward Source.counter g.graph 2 [⟨"a"⟩, ⟨"b"⟩, ⟨"c"⟩] = _
      rw [backward, hfirst, pick_singleton, pure_bind]
      rfl
    change (backward Source.counter g.graph 4 [⟨"c"⟩] >>= _) = _
    have hresume (graph : Graph) (a b c : Word) :
        resumePrefix Source.counter graph [a, b, c] = pure ⟨b, c⟩ := rfl
    rw [hback, pure_bind, hresume, pure_bind]
    exact forward_of_stuck Source.counter hlast 5 7 _
  have hgen : g.generateFrom ⟨Source.counter, 0⟩ "x" 0 10 = some (["x"], g) := by
    rw [generateFrom, show words "x" = ["x"] by decide]
    simp only [drawing, List.map_cons, List.map_nil, hunknown]
    rfl
  have hgen' : g.generateFrom ⟨Source.counter, 0⟩ "c" 5 10 = some (["a", "b", "c"], g) := by
    rw [generateFrom, show words "c" = ["c"] by decide]
    simp only [drawing, List.map_cons, List.map_nil, hknown]
    rfl
  have hx : words "x" ≠ [] := by decide
  have hc : words "c" ≠ [] := by decide
  obtain ⟨hlone, -⟩ := resumed_spec ⟨_, _, _, hrun⟩ hx (by decide) hgen
  obtain ⟨-, hshort⟩ := resumed_spec ⟨_, _, _, hrun⟩ hc (by decide) hgen'
  exact ⟨g, hrun, hx, hc, by decide, by decide, hgen, hlone "x" rfl, hgen',
    hshort ["a"] "b" "c" rfl (by decide)⟩

end Generator

end ChainScript.Chain
