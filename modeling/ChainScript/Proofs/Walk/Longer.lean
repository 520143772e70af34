import ChainScript.Proofs.Graph.Rebuilt
import ChainScript.Proofs.Walk.Forward

/-!
# Longer walks

The bounds on the length of a text decide where its walk stops, and nothing else.  Two walks from
one random state that differ in their bounds draw the same words and choose the same records, until
the one with the lower bounds stops; so what the other one makes begins with what this one has
made.  Around a prompt the greatest length also bounds the walk backwards, so there only the least
length may differ.

## Main definitions

* `Shortens` — a computation returns a beginning of what another one returns.

## Main results

* `shortens_forward` — the loop of a forward walk, under two pairs of bounds.
* `Generator.longer_spec` — raised bounds extend a text.
-/

namespace ChainScript.Chain

open Text

/-! ### Two computations on the same draws -/

/-- Whenever the second computation returns, the first one does so too, from the same random
state, and with words that the others begin with. -/
def Shortens (d d' : Draw (Array Word)) : Prop :=
  ∀ c r' c', d' c = some (r', c') → ∃ r c₁, d c = some (r, c₁) ∧ r.toList <+: r'.toList

section Shortens

variable {α : Type} {d d' : Draw (Array Word)}

/-- The words that are there already are a beginning of all that is made from them. -/
theorem shortens_pure {out : Array Word} (h : Yields d' fun r => out.toList <+: r.toList) :
    Shortens (pure out) d' :=
  fun c r' c' hrun => ⟨out, c, rfl, h c r' c' hrun⟩

/-- The same draws come first. -/
theorem shortens_bind (m : Draw α) {k k' : α → Draw (Array Word)}
    (hk : ∀ a, Shortens (k a) (k' a)) : Shortens (m >>= k) (m >>= k') := by
  intro c r' c' hrun
  obtain ⟨⟨a, c₁⟩, ha, hrest⟩ := Option.bind_eq_some_iff.1 hrun
  obtain ⟨r, c₂, hr, hprefix⟩ := hk a c₁ r' c' hrest
  exact ⟨r, c₂, Option.bind_eq_some_iff.2 ⟨(a, c₁), ha, hr⟩, hprefix⟩

end Shortens

/-! ### Forward walks -/

variable {source : Source} {g : Graph} {least least' : Nat}

/-- A forward walk keeps the words it is given. -/
theorem yields_forward_extends {room : Nat} {p : Prefix} {out : Array Word} :
    Yields (forward source g least room p out) fun r => out.toList <+: r.toList := by
  refine (yields_forward source g least room p out).mono ?_
  rintro r ⟨ss, -, hr⟩
  rw [hr]
  exact List.prefix_append _ _

/-- A walk that is to have more words goes the same way, and stops no sooner. -/
theorem shortens_forward (hleast : least ≤ least') {room room' : Nat} (hroom : room ≤ room')
    (p : Prefix) (out : Array Word) :
    Shortens (forward source g least room p out) (forward source g least' room' p out) := by
  induction room generalizing room' p out with
  | zero => exact shortens_pure yields_forward_extends
  | succ room ih =>
      obtain ⟨room', rfl⟩ : ∃ n, room' = n + 1 := ⟨room' - 1, by omega⟩
      rw [forward, forward]
      refine shortens_bind _ fun next? => ?_
      cases next? with
      | none => exact shortens_pure (yields_pure List.prefix_rfl)
      | some next =>
          dsimp only
          split
          · -- The shorter walk ends here; the longer one ends too or keeps what it has.
            refine shortens_pure ?_
            split
            · exact yields_pure List.prefix_rfl
            · exact yields_forward_extends
          · next hgo =>
            have hgo' :
                ¬ (next.terminal && decide (least' ≤ (out.push next.word).size)) = true := by
              simp only [Bool.and_eq_true, decide_eq_true_eq, not_and] at hgo ⊢
              exact fun hterminal hlong => hgo hterminal (hleast.trans hlong)
            rw [if_neg hgo']
            exact ih (Nat.le_of_succ_le_succ hroom) _ _

namespace Generator

/-! ### Texts -/

/-- A walk from a start of which no more words fit is cut to the words of the start. -/
theorem shortens_walk (source : Source) (graph : Graph) {most most' : Nat}
    (hleast : least ≤ least') (hmost : most ≤ most') :
    Shortens (walk source graph least most) (walk source graph least' most') := by
  have hbound : max most least ≤ max most' least' := max_le_max hmost hleast
  refine shortens_bind _ fun i => ?_
  cases graph.starts.members[i]? with
  | none => exact shortens_pure (yields_pure List.prefix_rfl)
  | some start =>
      dsimp only
      rcases Nat.le_total (max most least) start.tokens.length with hcut | hfits
      · have hnone : max most least - (start.tokens.take (max most least)).toArray.size = 0 := by
          simp only [List.size_toArray, List.length_take]
          omega
        have hcuts : start.tokens.take (max most least) <+: start.tokens.take (max most' least') :=
          List.take_prefix_take_left hbound
        rw [hnone]
        exact shortens_pure (yields_forward_extends.mono fun r hr => hcuts.trans hr)
      · rw [List.take_of_length_le hfits, List.take_of_length_le (hfits.trans hbound)]
        exact shortens_forward hleast (Nat.sub_le_sub_right hbound _) _ _

/-- Around a prompt the walks backwards are the same where the greatest lengths are. -/
theorem shortens_walkFrom (source : Source) (graph : Graph) (prompt : List Word) {most : Nat}
    (hleast : least ≤ least') (hmost : least' ≤ most) :
    Shortens (walkFrom source graph prompt least most)
      (walkFrom source graph prompt least' most) := by
  rw [walkFrom, walkFrom, Nat.max_eq_left (hleast.trans hmost), Nat.max_eq_left hmost]
  refine shortens_bind _ fun text => shortens_bind _ fun p => ?_
  exact shortens_forward hleast le_rfl _ _

variable {env : Env} {ws' : List String} {g g' : Generator}

/-- What a computation returns on the cursor of a generator begins what another one returns. -/
theorem exists_prefix_of_shortens {d d' : Draw (Array Word)} (hd : Shortens d d')
    {out' : Array Word} (h : g.drawing d' = some (out', g')) :
    ∃ out g₁, g.drawing d = some (out, g₁) ∧
      out.toList.map (·.text) <+: out'.toList.map (·.text) := by
  obtain ⟨⟨r', c'⟩, hrun, h⟩ := Option.bind_eq_some_iff.1 h
  obtain ⟨rfl, -⟩ := Prod.mk.inj (Option.some.inj h)
  obtain ⟨r, c, hr, hprefix⟩ := hd _ _ _ hrun
  exact ⟨r, _, Option.bind_eq_some_iff.2 ⟨(r, c), hr, rfl⟩, hprefix.map _⟩

theorem exists_prefix_of_generate {most most' : Nat} (hleast : least ≤ least')
    (hmost : most ≤ most') (h : g.generate env least' most' = some (ws', g')) :
    ∃ ws g₁, g.generate env least most = some (ws, g₁) ∧ ws <+: ws' := by
  obtain ⟨⟨out', g₂⟩, hdraw, h⟩ := Option.bind_eq_some_iff.1 h
  obtain ⟨rfl, -⟩ := Prod.mk.inj (Option.some.inj h)
  obtain ⟨out, g₁, hout, hprefix⟩ :=
    exists_prefix_of_shortens (shortens_walk env.source g.graph hleast hmost) hdraw
  exact ⟨_, g₁, Option.bind_eq_some_iff.2 ⟨(out, g₁), hout, rfl⟩, hprefix⟩

theorem exists_prefix_of_generateFrom {prompt : String} {most : Nat} (hleast : least ≤ least')
    (hmost : least' ≤ most) (h : g.generateFrom env prompt least' most = some (ws', g')) :
    ∃ ws g₁, g.generateFrom env prompt least most = some (ws, g₁) ∧ ws <+: ws' := by
  rw [generateFrom] at h ⊢
  cases hwords : words prompt with
  | nil =>
      rw [hwords] at h
      exact exists_prefix_of_generate hleast le_rfl h
  | cons w given =>
      rw [hwords] at h
      obtain ⟨⟨out', g₂⟩, hdraw, h⟩ := Option.bind_eq_some_iff.1 h
      obtain ⟨rfl, -⟩ := Prod.mk.inj (Option.some.inj h)
      obtain ⟨out, g₁, hout, hprefix⟩ := exists_prefix_of_shortens
        (shortens_walkFrom env.source g.graph ((w :: given).map Word.mk) hleast hmost) hdraw
      exact ⟨_, g₁, Option.bind_eq_some_iff.2 ⟨(out, g₁), hout, rfl⟩, hprefix⟩

/-- **Raised bounds only extend a text.**  Whatever the records, the random state and the source,
where the draws let the text under the higher bounds return, the text under the lower ones returns
as well, and the other begins with it.  Around a prompt this holds as long as the least length is
raised within the same greatest length. -/
theorem longer_spec (env : Env) (g : Generator) {least least' : Nat} (hleast : least ≤ least') :
    (∀ most most' ws' g', most ≤ most' → g.generate env least' most' = some (ws', g') →
      ∃ ws g₁, g.generate env least most = some (ws, g₁) ∧ ws <+: ws') ∧
    (∀ prompt most ws' g', least' ≤ most →
      g.generateFrom env prompt least' most = some (ws', g') →
      ∃ ws g₁, g.generateFrom env prompt least most = some (ws, g₁) ∧ ws <+: ws') :=
  ⟨fun _ _ _ _ hmost h => exists_prefix_of_generate hleast hmost h,
    fun _ _ _ _ hmost h => exists_prefix_of_generateFrom hleast hmost h⟩

/-- The least length decides whether the first full stop ends a line. -/
theorem longer_spec_two_stops :
    ∃ g g', runAll [(⟨Source.counter, 0⟩, .text "I am. Sam")] (new {} 0) = some g ∧ 0 ≤ 3 ∧ 3 ≤ 5 ∧
      g.generate ⟨Source.counter, 0⟩ 3 5 = some (["I", "am.", "Sam"], g') ∧
      g.generateFrom ⟨Source.counter, 0⟩ "I" 3 5 = some (["I", "am.", "Sam"], g) ∧
      (∃ ws g₁, g.generate ⟨Source.counter, 0⟩ 0 4 = some (ws, g₁) ∧ ws <+: ["I", "am.", "Sam"]) ∧
      ∃ ws g₁, g.generateFrom ⟨Source.counter, 0⟩ "I" 0 5 = some (ws, g₁) ∧
        ws <+: ["I", "am.", "Sam"] := by
  let rs : List Record := [(.start, ⟨⟨"I"⟩, false, 0⟩), (⟨.blank, ⟨"I"⟩⟩, ⟨⟨"am."⟩, true, 0⟩),
    (⟨⟨"I"⟩, ⟨"am."⟩⟩, ⟨⟨"Sam"⟩, true, 0⟩)]
  let g : Generator := { new {} 0 with graph := Graph.ofRecords rs }
  have hrun : runAll [(⟨Source.counter, 0⟩, .text "I am. Sam")] (new {} 0) = some g :=
    runAll_text_of_fits (by decide)
  have hentries : g.graph.bags.entries = [(.start, #[⟨⟨"I"⟩, false, 0⟩]),
      (⟨.blank, ⟨"I"⟩⟩, #[⟨⟨"am."⟩, true, 0⟩]), (⟨⟨"I"⟩, ⟨"am."⟩⟩, #[⟨⟨"Sam"⟩, true, 0⟩])] :=
    (Graph.entries_ofRecords rs).trans (by with_unfolding_all rfl)
  have hstarts : g.graph.starts.members.toList = [.start, ⟨.blank, ⟨"I"⟩⟩] := by
    rw [Graph.orderly_ofRecords rs, ← Table.map_fst_entries, hentries]
    rfl
  have hfirst : g.graph.successors ⟨.blank, ⟨"I"⟩⟩ = #[⟨⟨"am."⟩, true, 0⟩] := by
    rw [Graph.successors_eq, hentries]
    with_unfolding_all rfl
  have hsecond : g.graph.successors ⟨⟨"I"⟩, ⟨"am."⟩⟩ = #[⟨⟨"Sam"⟩, true, 0⟩] := by
    rw [Graph.successors_eq, hentries]
    with_unfolding_all rfl
  have hrecords : g.graph.records = rs := by
    rw [Graph.records_eq, hentries]
    rfl
  have hforward : forward Source.counter g.graph 3 4 ⟨.blank, ⟨"I"⟩⟩ #[⟨"I"⟩] =
      pure #[⟨"I"⟩, ⟨"am."⟩, ⟨"Sam"⟩] := by
    rw [forward, hfirst, pick_singleton, pure_bind]
    change forward Source.counter g.graph 3 3 ⟨⟨"I"⟩, ⟨"am."⟩⟩ #[⟨"I"⟩, ⟨"am."⟩] = _
    rw [forward, hsecond, pick_singleton, pure_bind]
    rfl
  have hwalk : walk Source.counter g.graph 3 5 ⟨0, 0⟩ =
      some (#[⟨"I"⟩, ⟨"am."⟩, ⟨"Sam"⟩], ⟨1, 1⟩) := by
    have hsize : g.graph.starts.size = 2 := congrArg List.length hstarts
    have hstart : g.graph.starts.members[1]? = some ⟨.blank, ⟨"I"⟩⟩ := by
      rw [← Array.getElem?_toList, hstarts]
      rfl
    have hbelow : Source.counter.below 2 ⟨0, 0⟩ = some (1, ⟨1, 1⟩) := by rfl
    simp only [walk, hsize, bind, StateT.bind, hbelow, Option.bind, hstart]
    exact congrFun hforward _
  have hbefore : predecessors g.graph [⟨"I"⟩] = [.blank] := by
    rw [predecessors, hrecords]
    with_unfolding_all rfl
  have hwalkFrom : walkFrom Source.counter g.graph [⟨"I"⟩] 3 5 =
      pure #[⟨"I"⟩, ⟨"am."⟩, ⟨"Sam"⟩] := by
    have hback : backward Source.counter g.graph 1 [⟨"I"⟩] = pure [⟨"I"⟩] := by
      rw [backward, hbefore, pick_singleton, pure_bind]
      rfl
    have hresume : resumePrefix Source.counter g.graph [⟨"I"⟩] = pure ⟨.blank, ⟨"I"⟩⟩ := by
      simp [resumePrefix, tailPrefix, hfirst]
    change (backward Source.counter g.graph 1 [⟨"I"⟩] >>= _) = _
    rw [hback, pure_bind, hresume, pure_bind]
    exact hforward
  have hgen : g.generate ⟨Source.counter, 0⟩ 3 5 =
      some (["I", "am.", "Sam"], { g with cursor := ⟨1, 1⟩ }) := by
    rw [generate, drawing]
    change ((walk Source.counter g.graph 3 5 ⟨0, 0⟩).bind _).bind _ = _
    rw [hwalk]
    rfl
  have hgenFrom : g.generateFrom ⟨Source.counter, 0⟩ "I" 3 5 = some (["I", "am.", "Sam"], g) := by
    rw [generateFrom, show words "I" = ["I"] by decide]
    simp only [drawing, List.map_cons, List.map_nil, hwalkFrom]
    rfl
  obtain ⟨hlonger, hlongerFrom⟩ := longer_spec ⟨Source.counter, 0⟩ g (Nat.zero_le 3)
  exact ⟨g, _, hrun, by decide, by decide, hgen, hgenFrom, hlonger 4 5 _ _ (by decide) hgen,
    hlongerFrom "I" 5 _ _ (by decide) hgenFrom⟩

end Generator

end ChainScript.Chain
