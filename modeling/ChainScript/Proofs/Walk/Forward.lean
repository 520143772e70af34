import ChainScript.Proofs.Generator.Learned

/-!
# Forward walks

A forward walk chooses records one after another, each from the bag of the prefix that the words
so far end in.  It goes on until it has the greatest length, until a terminal record is chosen
with the least length reached, or until a prefix has no bag; no record before the last one could
have ended it.

## Main definitions

* `Yields` — what a computation that draws returns, whatever it draws.
* `Graph.Follows`, `Prefix.along` — records chosen one after another, and the prefix reached.
* `Graph.Chosen` — the records that a forward walk chooses.

## Main results

* `yields_forward` — the words of a forward walk.
* `Generator.generate_spec` — the words of a text that begins anywhere.
-/

namespace ChainScript.Chain

/-! ### Computations that draw -/

/-- Whatever the computation draws, what it returns satisfies `Q`. -/
def Yields {α : Type} (d : Draw α) (Q : α → Prop) : Prop :=
  ∀ c a c', d c = some (a, c') → Q a

section Yields

variable {α β : Type} {d : Draw α} {Q : α → Prop} {R : β → Prop}

theorem yields_pure {a : α} (h : Q a) : Yields (pure a : Draw α) Q := by
  intro c b c' hrun
  obtain ⟨rfl, -⟩ := Prod.mk.inj (Option.some.inj hrun)
  exact h

theorem Yields.mono {P : α → Prop} (hd : Yields d P) (h : ∀ a, P a → Q a) : Yields d Q :=
  fun c a c' hrun => h a (hd c a c' hrun)

theorem Yields.bind {k : α → Draw β} (hd : Yields d Q) (hk : ∀ a, Q a → Yields (k a) R) :
    Yields (d >>= k) R := by
  intro c b c' hrun
  obtain ⟨⟨a, c₁⟩, ha, hrest⟩ := Option.bind_eq_some_iff.1 hrun
  exact hk a (hd c a c₁ ha) c₁ b c' hrest

theorem yields_below (source : Source) {n : Nat} (hn : 0 < n) : Yields (source.below n) (· < n) :=
  fun _ _ _ hrun => Source.below_lt hn hrun

/-- A choice is one of the items, and is made where there is an item. -/
theorem yields_pick (source : Source) (items : Array α) :
    Yields (source.pick items) fun a? =>
      (a? = none → items = #[]) ∧ ∀ a, a? = some a → a ∈ items := by
  rw [Source.pick]
  split
  · next hempty => exact yields_pure ⟨fun _ => by simpa using hempty, nofun⟩
  · next hsome =>
    have hpos : 0 < items.size := Array.size_pos_iff.2 (by simpa using hsome)
    refine (yields_below source hpos).bind fun i hi => yields_pure ?_
    rw [Array.getElem?_eq_getElem hi]
    exact ⟨nofun, fun a ha => Option.some.inj ha ▸ Array.getElem_mem hi⟩

end Yields

/-! ### Records chosen one after another -/

/-- The prefix that is reached from `p` by the words of the records. -/
def Prefix.along (p : Prefix) (ss : List Suffix) : Prefix := ss.foldl (fun p s => p.shift s.word) p

namespace Graph

/-- Each record stands in the bag of the prefix that the ones before it reach from `p`. -/
def Follows (g : Graph) : (p : Prefix) → List Suffix → Prop
  | _, [] => True
  | p, s :: ss => s ∈ g.successors p ∧ g.Follows (p.shift s.word) ss

/-- A record of a forward walk ends it: it is terminal, and with it there are enough words. -/
def Ends (least words : Nat) (s : Suffix) : Prop := s.terminal = true ∧ least ≤ words

/-- The records that a forward walk chooses from `p` on, with room for `room` words behind the
`given` ones that are there. -/
structure Chosen (g : Graph) (least room given : Nat) (p : Prefix) (ss : List Suffix) : Prop where
  follows : g.Follows p ss
  length_le : ss.length ≤ room
  /-- No record before the last ends the walk. -/
  not_ended : ∀ before s after, ss = before ++ s :: after → after ≠ [] →
    ¬ Ends least (given + before.length + 1) s
  /-- A walk that leaves room has come to a prefix without records or to its end. -/
  ended : ss.length < room → g.successors (p.along ss) = #[] ∨
    ∃ s, ss.getLast? = some s ∧ Ends least (given + ss.length) s

variable {g : Graph} {least room given : Nat} {p : Prefix} {s : Suffix} {ss : List Suffix}

/-- The walk that makes no choice. -/
theorem chosen_nil (h : room = 0 ∨ g.successors p = #[]) : g.Chosen least room given p [] where
  follows := trivial
  length_le := Nat.zero_le _
  not_ended := by
    intro before s after heq
    cases before <;> cases heq
  ended := fun hroom => .inl (h.resolve_left (Nat.ne_of_gt hroom))

/-- The walk that ends with its first choice. -/
theorem chosen_singleton (hs : s ∈ g.successors p) (hend : Ends least (given + 1) s) :
    g.Chosen least (room + 1) given p [s] where
  follows := ⟨hs, trivial⟩
  length_le := Nat.le_add_left 1 room
  not_ended := by
    intro before t after heq hne
    cases before with
    | nil => exact absurd (List.cons.inj heq).2.symm hne
    | cons _ before => cases before <;> cases (List.cons.inj heq).2
  ended := fun _ => .inr ⟨s, rfl, hend⟩

/-- A choice that does not end the walk comes before the choices of the rest. -/
theorem Chosen.cons (H : g.Chosen least room (given + 1) (p.shift s.word) ss)
    (hs : s ∈ g.successors p) (hgo : ¬ Ends least (given + 1) s) :
    g.Chosen least (room + 1) given p (s :: ss) where
  follows := ⟨hs, H.follows⟩
  length_le := Nat.succ_le_succ H.length_le
  not_ended := by
    intro before t after heq hne
    cases before with
    | nil =>
        obtain ⟨rfl, -⟩ := List.cons.inj heq
        exact hgo
    | cons _ before =>
        obtain ⟨rfl, rfl⟩ := List.cons.inj heq
        rw [List.length_cons, Nat.add_comm before.length, ← Nat.add_assoc]
        exact H.not_ended before t after rfl hne
  ended := by
    intro hroom
    obtain hnone | ⟨t, hlast, hend⟩ := H.ended (Nat.lt_of_succ_lt_succ hroom)
    · exact .inl hnone
    · refine .inr ⟨t, ?_, ?_⟩
      · rw [List.getLast?_cons, hlast]
        rfl
      · rw [List.length_cons, Nat.add_comm ss.length, ← Nat.add_assoc]
        exact hend

end Graph

/-- A forward walk appends the words of the records that it chooses. -/
theorem yields_forward (source : Source) (g : Graph) (least room : Nat) (p : Prefix)
    (out : Array Word) :
    Yields (forward source g least room p out) fun r => ∃ ss,
      g.Chosen least room out.size p ss ∧ r.toList = out.toList ++ ss.map (·.word) := by
  induction room generalizing p out with
  | zero => exact yields_pure ⟨[], Graph.chosen_nil (.inl rfl), by simp⟩
  | succ room ih =>
      rw [forward]
      refine (yields_pick source _).bind fun next? hnext => ?_
      cases next? with
      | none => exact yields_pure ⟨[], Graph.chosen_nil (.inr (hnext.1 rfl)), by simp⟩
      | some next =>
          have hmem := hnext.2 next rfl
          dsimp only
          split
          · next hend =>
            have hend : Graph.Ends least (out.size + 1) next := by
              simpa [Graph.Ends] using hend
            exact yields_pure ⟨[next], Graph.chosen_singleton hmem hend, by simp⟩
          · next hgo =>
            have hgo : ¬ Graph.Ends least (out.size + 1) next := by
              simpa [Graph.Ends] using hgo
            refine (ih _ _).mono ?_
            rintro r ⟨ss, H, hr⟩
            rw [Array.size_push] at H
            exact ⟨next :: ss, H.cons hmem hgo, by rw [hr]; simp⟩

/-! ### Texts that begin anywhere -/

/-- The bag of a prefix is missing exactly where the prefix has no records. -/
theorem Graph.Consistent.find?_eq_none_iff {g : Graph} (C : g.Consistent) {p : Prefix} :
    g.bags.find? p = none ↔ g.successors p = #[] := by
  rw [Graph.successors]
  constructor
  · intro h
    rw [h]
    rfl
  · intro h
    rw [Table.find?_eq] at h ⊢
    rw [Option.map_eq_none_iff]
    cases hfind : g.bags.entries.find? (·.1 == p) with
    | none => rfl
    | some e =>
        have hmem := List.mem_of_find?_eq_some hfind
        have hpos := C.size_pos e.2.size (List.mem_map_of_mem hmem)
        rw [hfind] at h
        have hempty : e.2 = #[] := h
        simp [hempty] at hpos

/-- The start prefix is a start already: its records bring no new one. -/
theorem Graph.Consistent.starts_insert_start {g : Graph} (C : g.Consistent) (s : Suffix) :
    (g.insert .start s).starts = g.starts := by
  rw [Graph.insert]
  split
  · rfl
  · obtain ⟨i, hi⟩ := Array.getElem?_of_mem C.start_mem
    exact Roster.insert_of_some (Roster.position?_eq_some_iff.2 ⟨_, hi, BEq.rfl⟩)

/-- What fits behind the first `n` items is not cut off. -/
theorem take_append_of_room {α : Type} {n : Nat} {xs ys : List α}
    (h : ys.length ≤ n - (xs.take n).length) : xs.take n ++ ys = (xs ++ ys).take n := by
  rw [List.length_take] at h
  rw [List.take_append, List.take_of_length_le (l := ys) (by omega)]

namespace Generator

variable {env : Env} {g g' : Generator}

/-- A choice from a single item makes no draw. -/
theorem pick_singleton {α : Type} (source : Source) (a : α) :
    source.pick #[a] = pure (some a) := rfl

theorem pick_empty {α : Type} (source : Source) : source.pick (#[] : Array α) = pure none := rfl

/-- Where there is no bag a walk ends, with no draw. -/
theorem forward_of_stuck (source : Source) {g : Graph} {p : Prefix} (h : g.successors p = #[])
    (least room : Nat) (out : Array Word) : forward source g least room p out = pure out := by
  cases room with
  | zero => rfl
  | succ room => rw [forward, h, pick_empty, pure_bind]

/-- A walk takes the words of a start and goes on from it. -/
theorem yields_walk (source : Source) {graph : Graph} (hstarts : 0 < graph.starts.size)
    (least most : Nat) :
    Yields (walk source graph least most) fun r => ∃ p ∈ graph.starts.members, ∃ ss,
      graph.Chosen least (max most least - (p.tokens.take (max most least)).length)
        (p.tokens.take (max most least)).length p ss ∧
      r.toList = p.tokens.take (max most least) ++ ss.map (·.word) := by
  refine (yields_below source hstarts).bind fun i hi => ?_
  have hi : i < graph.starts.members.size := hi
  rw [Array.getElem?_eq_getElem hi]
  refine (yields_forward source graph _ _ _ _).mono ?_
  rintro r ⟨ss, H, hr⟩
  rw [List.size_toArray] at H
  exact ⟨_, Array.getElem_mem hi, ss, H, hr⟩

/-- **A text is a walk that ends when it should.**  Where the draws let it return, a text of at
least `least` and at most `most` words has at most the greater of both.  It begins with the words
of a start `p` and goes on with the words of records chosen one after another, spelled as they
are recorded, each from the bag of the prefix reached; bags are looked up to case.  A text that
is shorter than it may be has come to a prefix without a bag, or its last record was chosen,
is terminal and made it long enough; no earlier record was terminal with enough words.  So a text
shorter than `least` has come to a prefix without a bag. -/
theorem generate_spec {least most : Nat} {ws : List String} (hg : g.Reachable)
    (h : g.generate env least most = some (ws, g')) :
    ws.length ≤ max least most ∧
    ∃ p ∈ g.graph.starts.members, ∃ ss : List Suffix,
      g.graph.Follows p ss ∧
      ws = ((p.tokens ++ ss.map (·.word)).take (max least most)).map (·.text) ∧
      ws.length = (p.tokens.take (max least most)).length + ss.length ∧
      (ws.length < max least most → g.graph.bags.find? (p.along ss) = none ∨
        ∃ s, ss.getLast? = some s ∧ s.terminal = true ∧ least ≤ ws.length) ∧
      (∀ before s after, ss = before ++ s :: after → after ≠ [] →
        ¬ (s.terminal = true ∧ least ≤ (p.tokens ++ (before ++ [s]).map (·.word)).length)) ∧
      (ws.length < least → g.graph.bags.find? (p.along ss) = none) := by
  have C := hg.sound.built.consistent
  obtain ⟨⟨out, g₁⟩, hdraw, h⟩ := Option.bind_eq_some_iff.1 h
  obtain ⟨rfl, -⟩ := Prod.mk.inj (Option.some.inj h)
  obtain ⟨⟨r, c⟩, hwalk, hdraw⟩ := Option.bind_eq_some_iff.1 hdraw
  obtain ⟨rfl, -⟩ := Prod.mk.inj (Option.some.inj hdraw)
  have hstarts : 0 < g.graph.starts.size := Array.size_pos_of_mem C.start_mem
  obtain ⟨p, hp, ss, H, hr⟩ := yields_walk env.source hstarts least most _ _ _ hwalk
  rw [Nat.max_comm most least] at H hr
  have hroom := H.length_le
  have hlen : (r.toList.map (·.text)).length =
      (p.tokens.take (max least most)).length + ss.length := by
    rw [List.length_map, hr, List.length_append, List.length_map]
  have hended : (r.toList.map (·.text)).length < max least most →
      g.graph.bags.find? (p.along ss) = none ∨ ∃ s, ss.getLast? = some s ∧ s.terminal = true ∧
        least ≤ (r.toList.map (·.text)).length := by
    intro hshort
    rw [hlen] at hshort ⊢
    rw [C.find?_eq_none_iff]
    exact H.ended (by omega)
  refine ⟨?_, p, hp, ss, H.follows, ?_, hlen, hended, ?_, ?_⟩
  · rw [hlen]
    have := List.length_take_le (max least most) p.tokens
    omega
  · rw [hr, take_append_of_room (by rwa [List.length_map])]
  · intro before s after heq hne
    have hfull : p.tokens.take (max least most) = p.tokens := by
      refine List.take_of_length_le ?_
      have : 0 < ss.length := by rw [heq, List.length_append, List.length_cons]; omega
      rw [List.length_take] at hroom
      omega
    have hgo := H.not_ended before s after heq hne
    rw [hfull, Graph.Ends] at hgo
    simpa [Nat.add_assoc] using hgo
  · intro hshort
    obtain hnone | ⟨s, -, -, hlong⟩ := hended (by omega)
    · exact hnone
    · omega

/-- A line of one word is shorter than the text that is asked for: after it there is no bag. -/
theorem generate_spec_short :
    ∃ g g', runAll [(⟨Source.counter, 0⟩, .text "Hi.")] (new {} 0) = some g ∧
      g.generate ⟨Source.counter, 0⟩ 2 5 = some (["Hi."], g') ∧
      ∃ p ∈ g.graph.starts.members, ∃ ss, g.graph.Follows p ss ∧
        ["Hi."] = ((p.tokens ++ ss.map (·.word)).take 5).map (·.text) ∧
        g.graph.bags.find? (p.along ss) = none := by
  let s : Suffix := ⟨⟨"Hi."⟩, true, 0⟩
  let g : Generator := { new {} 0 with graph := Graph.empty.insert .start s }
  have htext : (new {} 0).addText ⟨Source.counter, 0⟩ "Hi." = some g := addText_of_fits (by decide)
  have hrun : runAll [(⟨Source.counter, 0⟩, .text "Hi.")] (new {} 0) = some g := by
    rw [runAll_cons_of_run (run_text_of_addText htext)]
    rfl
  have hsuccessors : ∀ p,
      (g.graph.successors p).toList = if Prefix.start == p then [s] else [] := by
    intro p
    rw [Graph.toList_successors_insert, Graph.successors_eq]
    rfl
  have hstarts : g.graph.starts.members.toList = [.start] := by
    rw [Graph.consistent_empty.starts_insert_start, Graph.empty,
      Roster.toList_insert_of_none (by simp [Roster.position?, Roster.empty])]
    rfl
  have hfirst : g.graph.successors .start = #[s] :=
    Array.toList_inj.1 ((hsuccessors _).trans (if_pos BEq.rfl))
  have hsecond : g.graph.successors ⟨.blank, ⟨"Hi."⟩⟩ = #[] :=
    Array.toList_inj.1 ((hsuccessors _).trans (if_neg (by
      rw [BEq.comm, Prefix.beq_start]
      decide)))
  have hwalk : walk Source.counter g.graph 2 5 = pure #[⟨"Hi."⟩] := by
    have hsize : g.graph.starts.size = 1 := congrArg List.length hstarts
    have hstart : g.graph.starts.members[0]? = some .start := by
      rw [← Array.getElem?_toList, hstarts]
      rfl
    rw [walk, hsize, show Source.counter.below 1 = pure 0 from rfl, pure_bind, hstart]
    change forward Source.counter g.graph 2 5 .start #[] = _
    rw [forward, hfirst, pick_singleton, pure_bind]
    change forward Source.counter g.graph 2 4 ⟨.blank, ⟨"Hi."⟩⟩ #[⟨"Hi."⟩] = _
    rw [forward, hsecond]
    rfl
  have hgen : g.generate ⟨Source.counter, 0⟩ 2 5 = some (["Hi."], g) := by
    rw [generate, drawing, hwalk]
    rfl
  obtain ⟨-, p, hp, ss, hfollows, hwords, -, -, -, hshort⟩ := generate_spec ⟨_, _, _, hrun⟩ hgen
  exact ⟨g, g, hrun, hgen, p, hp, ss, hfollows, hwords, hshort (by decide)⟩

end Generator

end ChainScript.Chain
