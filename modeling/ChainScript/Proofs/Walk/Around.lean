import ChainScript.Proofs.Graph.Regroup
import ChainScript.Proofs.Walk.Forward

/-!
# Walks around a prompt

A prompted text grows backwards from the prompt and then forwards from the end of what it has
become.  Every word it gains stands next to its neighbours in a record of the graph, and is
spelled as in that record; the prompt itself is kept as it is.

## Main definitions

* `Graph.Leads` — a record has the word before the words that a text begins with.
* `Prefix.Continues` — the prefix is the one from which a text goes on.
* `Graph.Surrounds` — the words that may stand before and after a prompt.

## Main results

* `yields_backward`, `yields_resumePrefix` — the loop to the front, and the seam.
* `Generator.generateFrom_spec` — the words of a text that holds a prompt.
-/

namespace ChainScript.Chain

open Text

/-! ### Lists that grow in front -/

/-- What holds of an item and those behind it holds in a longer list where it holds of the item
that was added, with nothing behind it, and of the others with the item behind them. -/
theorem forall_split_concat {α : Type} {as : List α} {b : α} {P : α → List α → Prop}
    (hlast : P b []) (hinit : ∀ xs a ys, as = xs ++ a :: ys → P a (ys ++ [b])) :
    ∀ xs a ys, as ++ [b] = xs ++ a :: ys → P a ys := by
  intro xs a ys h
  obtain rfl | ⟨ys, c, rfl⟩ := ys.eq_nil_or_concat
  · obtain ⟨-, hb⟩ := List.append_inj' h rfl
    obtain ⟨rfl, -⟩ := List.cons.inj hb
    exact hlast
  · rw [List.concat_eq_append, ← List.cons_append, ← List.append_assoc] at h
    obtain ⟨has, hb⟩ := List.append_inj' h rfl
    obtain ⟨rfl, -⟩ := List.cons.inj hb
    rw [List.concat_eq_append]
    exact hinit xs a ys has

/-! ### Neighbours -/

/-- A record has the word before the words that the text begins with, and spells it so.  Before
two words or more stands the older word of the record's prefix; before a single word stands the
newer one. -/
inductive Graph.Leads (g : Graph) : Word → (text : List Word) → Prop
  | pair {r : Record} {b c : Word} {rest : List Word} : r ∈ g.records →
      (r.1.newer == b) = true → (r.2.word == c) = true → g.Leads r.1.older (b :: c :: rest)
  | lone {r : Record} {b : Word} : r ∈ g.records → (r.2.word == b) = true →
      g.Leads r.1.newer [b]

/-- The text goes on from the prefix: it is the last two words of the text or, where there is a
single word, ends in it. -/
inductive Prefix.Continues : Prefix → (text : List Word) → Prop
  | pair {p : Prefix} (front : List Word) {a b : Word} : (p == ⟨a, b⟩) = true →
      p.Continues (front ++ [a, b])
  | lone {p : Prefix} {a : Word} : (p.newer == a) = true → p.Continues [a]

theorem Prefix.Continues.congr {p q : Prefix} {text : List Word} (h : p.Continues text)
    (hqp : (q == p) = true) : q.Continues text := by
  cases h with
  | pair front h => exact .pair front (BEq.trans hqp h)
  | lone h => exact .lone (BEq.trans (Prefix.beq_iff.1 hqp).2 h)

/-- One more word moves the text and its prefix along. -/
theorem Prefix.Continues.shift {p : Prefix} {text : List Word} (h : p.Continues text) (w : Word) :
    (p.shift w).Continues (text ++ [w]) := by
  cases h with
  | @pair front a b h =>
      have hsplit : front ++ [a, b] ++ [w] = (front ++ [a]) ++ [b, w] := by simp
      rw [hsplit]
      exact .pair _ (Prefix.beq_iff.2 ⟨(Prefix.beq_iff.1 h).2, BEq.rfl⟩)
  | lone h => exact .pair [] (Prefix.beq_iff.2 ⟨h, BEq.rfl⟩)

/-- A text goes on from the prefix of its last two words. -/
theorem tailPrefix_continues {text : List Word} (h : text ≠ []) :
    (tailPrefix text).Continues text := by
  fun_induction tailPrefix text with
  | case1 => exact absurd rfl h
  | case2 only => exact .lone BEq.rfl
  | case3 a b => exact .pair [] BEq.rfl
  | case4 x rest hone htwo ih =>
      have hrest : rest ≠ [] := fun hnil => hone (by rw [hnil])
      cases ih hrest with
      | pair front h => exact .pair (x :: front) h
      | lone h => exact absurd rfl (htwo _)

/-! ### Growing backwards -/

/-- The word is one that a backward walk puts before the text. -/
structure Graph.Prepends (g : Graph) (a : Word) (text : List Word) : Prop where
  leads : g.Leads a text
  not_blank : a.isBlank = false
  /-- A word that closes a sentence stands before a single word only. -/
  not_closing : endsSentence a.text = true → text.length = 1

/-- Candidates stand in records before the words that the text begins with. -/
theorem Graph.leads_of_mem_predecessors {g : Graph} {a : Word} {text : List Word}
    (h : a ∈ predecessors g text) : g.Leads a text := by
  match text with
  | [] => cases h
  | [only] =>
      obtain ⟨r, hr, rfl⟩ := List.mem_map.1 h
      obtain ⟨hmem, honly⟩ := List.mem_filter.1 hr
      exact .lone hmem honly
  | b :: c :: rest =>
      obtain ⟨r, hr, rfl⟩ := List.mem_map.1 h
      obtain ⟨hmem, hpair⟩ := List.mem_filter.1 hr
      rw [Bool.and_eq_true] at hpair
      exact .pair hmem hpair.1 hpair.2

/-- A backward walk puts words before the text, each before what the text has then become. -/
theorem yields_backward (source : Source) (g : Graph) (room : Nat) {text : List Word}
    (htext : text ≠ []) :
    Yields (backward source g room text) fun r => ∃ before, r = before ++ text ∧
      before.length ≤ room ∧
      ∀ xs a ys, before = xs ++ a :: ys → g.Prepends a (ys ++ text) := by
  have hstop : ∀ xs (a : Word) ys, [] = xs ++ a :: ys → g.Prepends a (ys ++ text) := by
    intro xs a ys h
    cases xs <;> cases h
  induction room generalizing text with
  | zero => exact yields_pure ⟨[], rfl, le_rfl, hstop⟩
  | succ room ih =>
      rw [backward]
      refine (yields_pick source _).bind fun word? hword => ?_
      cases word? with
      | none => exact yields_pure ⟨[], rfl, Nat.zero_le _, hstop⟩
      | some word =>
          have hmem : word ∈ predecessors g text := by simpa using hword.2 word rfl
          have hpos : 0 < text.length := List.length_pos_iff.2 htext
          dsimp only
          split
          · exact yields_pure ⟨[], rfl, Nat.zero_le _, hstop⟩
          · next hgo =>
            have hword : g.Prepends word text := by
              simp only [Bool.or_eq_true, Bool.and_eq_true, decide_eq_true_eq, not_or,
                not_and, Bool.not_eq_true] at hgo
              refine ⟨Graph.leads_of_mem_predecessors hmem, hgo.1, fun hclosing => ?_⟩
              have hshort : ¬ 1 < text.length := fun hlong => by
                rw [hgo.2 hlong] at hclosing
                cases hclosing
              omega
            refine (ih (List.cons_ne_nil _ _) ?_).mono ?_
            · intro xs a ys h
              cases xs <;> cases h
            · rintro r ⟨before, rfl, hlen, hbefore⟩
              refine ⟨before ++ [word], by simp, by simpa using hlen, ?_⟩
              refine forall_split_concat hword fun xs a ys h => ?_
              rw [List.append_assoc]
              exact hbefore xs a ys h

/-! ### Going on forwards -/

/-- The prefix from which a text is continued is one from which it goes on. -/
theorem yields_resumePrefix (source : Source) (g : Graph) {text : List Word} (htext : text ≠ []) :
    Yields (resumePrefix source g text) (·.Continues text) := by
  have htail := tailPrefix_continues htext
  unfold resumePrefix
  split
  · next only =>
    dsimp only
    split
    · refine (yields_pick source _).bind fun p? hp => yields_pure ?_
      cases p? with
      | none => exact htail
      | some p =>
          obtain ⟨r, hr, rfl⟩ := List.mem_map.1 (List.mem_toArray.1 (hp.2 p rfl))
          have hknown := (List.mem_filter.1 hr).2
          rw [Bool.and_eq_true] at hknown
          exact .lone hknown.2
    · exact yields_pure htail
  · exact yields_pure htail

/-- A word of the bag of a prefix is the word of a record with that prefix. -/
theorem Graph.exists_record_of_mem_successors {g : Graph} {p : Prefix} {s : Suffix}
    (h : s ∈ g.successors p) : ∃ q, (q == p) = true ∧ (q, s) ∈ g.records := by
  rw [Graph.successors_eq] at h
  cases hfind : g.bags.entries.find? (·.1 == p) with
  | none => simp [hfind] at h
  | some e =>
      rw [hfind] at h
      have he : e ∈ g.bags.entries := List.mem_of_find?_eq_some hfind
      have hkey : (e.1 == p) = true := by simpa using List.find?_some hfind
      have hbag : s ∈ e.2.toList := Array.mem_toList_iff.2 h
      exact ⟨e.1, hkey, List.mem_flatMap.2 ⟨e, he, List.mem_map_of_mem hbag⟩⟩

/-- Records that follow one another continue the text, each what it has then become. -/
theorem Graph.Follows.continues {g : Graph} {p : Prefix} {ss : List Suffix} {text : List Word}
    (h : g.Follows p ss) (hp : p.Continues text) :
    ∀ xs c ys, ss.map (·.word) = xs ++ c :: ys →
      ∃ r ∈ g.records, r.1.Continues (text ++ xs) ∧ r.2.word = c := by
  intro xs c ys hsplit
  induction ss generalizing p text xs with
  | nil => cases xs <;> cases hsplit
  | cons s ss ih =>
      obtain ⟨hs, hrest⟩ := h
      cases xs with
      | nil =>
          obtain ⟨q, hq, hmem⟩ := exists_record_of_mem_successors hs
          rw [List.append_nil]
          exact ⟨(q, s), hmem, hp.congr hq, (List.cons.inj hsplit).1⟩
      | cons x xs =>
          obtain ⟨rfl, hrests⟩ := List.cons.inj hsplit
          have hstep := ih hrest (hp.shift s.word) xs hrests
          rwa [List.append_assoc] at hstep

/-! ### Texts that hold a prompt -/

/-- The words before and after a given prompt that a graph allows, where there is room for
`most` words. -/
structure Graph.Surrounds (g : Graph) (most : Nat) (before given after : List Word) : Prop where
  /-- Backwards the text grows to half the length at most. -/
  length_before_le : (before ++ given).length ≤ max (most / 2) given.length
  length_le : (before ++ given ++ after).length ≤ max most given.length
  not_blank : ∀ a ∈ before, a.isBlank = false
  /-- No word before the prompt ends in a full stop, blanks behind it or not, but the one right
  before a prompt of a single word. -/
  not_closing : ∀ xs a ys, before = xs ++ a :: ys →
    a.text.toList.getLast? = some '.' ∨ endsSentence a.text = true →
    ys = [] ∧ given.length = 1
  /-- A word before the prompt stands in a record before the two words that come next. -/
  leads : ∀ xs a ys, before = xs ++ a :: ys → g.Leads a (ys ++ given)
  /-- A word after the prompt is that of a record whose prefix is the two words before it. -/
  continues : ∀ xs c ys, after = xs ++ c :: ys →
    ∃ r ∈ g.records, r.1.Continues (before ++ given ++ xs) ∧ r.2.word = c

/-- A word whose last character is a full stop closes a sentence. -/
theorem endsSentence_of_getLast? {w : String} (h : w.toList.getLast? = some '.') :
    endsSentence w = true := by
  rw [← List.head?_reverse] at h
  obtain ⟨cs, hcs⟩ := List.head?_eq_some_iff.1 h
  rw [endsSentence, hcs, List.dropWhile_cons_of_neg (by decide)]
  rfl

/-- What the walks around a prompt make surrounds it. -/
theorem surrounds_of_prepends {g : Graph} {most : Nat} {before given : List Word} {p : Prefix}
    {ss : List Suffix} (hgiven : given ≠ []) (hlen : before.length ≤ most / 2 - given.length)
    (hbefore : ∀ xs a ys, before = xs ++ a :: ys → g.Prepends a (ys ++ given))
    (hp : p.Continues (before ++ given)) (hfollows : g.Follows p ss)
    (hroom : ss.length ≤ most - (before ++ given).length) :
    g.Surrounds most before given (ss.map (·.word)) where
  length_before_le := by
    rw [List.length_append]
    omega
  length_le := by
    rw [List.length_append, List.length_append, List.length_map]
    rw [List.length_append] at hroom
    omega
  not_blank := by
    intro a ha
    obtain ⟨xs, ys, hsplit⟩ := List.append_of_mem ha
    exact (hbefore xs a ys hsplit).not_blank
  not_closing := by
    intro xs a ys hsplit hstop
    have hone := (hbefore xs a ys hsplit).not_closing (hstop.elim endsSentence_of_getLast? id)
    have hpos : 0 < given.length := List.length_pos_iff.2 hgiven
    rw [List.length_append] at hone
    exact ⟨List.length_eq_zero_iff.1 (by omega), by omega⟩
  leads := fun xs a ys hsplit => (hbefore xs a ys hsplit).leads
  continues := hfollows.continues hp

namespace Generator

variable {env : Env} {g g' : Generator}

/-- The walks around a prompt surround it. -/
theorem yields_walkFrom (source : Source) (graph : Graph) {given : List Word}
    (hgiven : given ≠ []) (least most : Nat) :
    Yields (walkFrom source graph given least most) fun r => ∃ before after,
      r.toList = before ++ given ++ after ∧
      graph.Surrounds (max least most) before given after := by
  rw [walkFrom, Nat.max_comm most least]
  refine (yields_backward source graph _ hgiven).bind ?_
  rintro text ⟨before, rfl, hlen, hbefore⟩
  have htext : before ++ given ≠ [] := List.append_ne_nil_of_right_ne_nil _ hgiven
  refine (yields_resumePrefix source graph htext).bind fun p hp => ?_
  refine (yields_forward source graph _ _ _ _).mono ?_
  rintro r ⟨ss, H, hr⟩
  exact ⟨before, ss.map (·.word), hr,
    surrounds_of_prepends hgiven hlen hbefore hp H.follows H.length_le⟩

/-- **A prompted text keeps the prompt and gains observed neighbours.**  Where the draws let it
return, the words of the prompt stand in it as they are spelled, with words before and after
them.  Backwards the text grows to half the length asked for at most, and with the words after
the prompt to all of it, unless the prompt alone is longer.  No word before the prompt is empty,
and none ends in a full stop but one right before a prompt of a single word.  Each word that is
gained is spelled as in a record that has it next to its two neighbours, up to case; where a
prompt of a single word leaves one neighbour only, next to that one. -/
theorem generateFrom_spec {prompt : String} {least most : Nat} {ws : List String}
    (hprompt : words prompt ≠ []) (h : g.generateFrom env prompt least most = some (ws, g')) :
    ∃ before after : List Word,
      ws = before.map (·.text) ++ words prompt ++ after.map (·.text) ∧
      g.graph.Surrounds (max least most) before ((words prompt).map Word.mk) after := by
  rw [generateFrom] at h
  split at h
  · next hnil => exact absurd hnil hprompt
  · obtain ⟨⟨out, g₁⟩, hdraw, h⟩ := Option.bind_eq_some_iff.1 h
    obtain ⟨rfl, -⟩ := Prod.mk.inj (Option.some.inj h)
    obtain ⟨⟨r, c⟩, hwalk, hdraw⟩ := Option.bind_eq_some_iff.1 hdraw
    obtain ⟨rfl, -⟩ := Prod.mk.inj (Option.some.inj hdraw)
    have hgiven : (words prompt).map Word.mk ≠ [] := hprompt ∘ List.map_eq_nil_iff.1
    obtain ⟨before, after, hr, hsurrounds⟩ :=
      yields_walkFrom env.source g.graph hgiven least most _ _ _ hwalk
    refine ⟨before, after, ?_, hsurrounds⟩
    rw [hr, List.map_append, List.map_append, List.map_map]
    simp only [Function.comp_def, List.map_id']

/-- One word in the middle of a line of three, in another case, gets its neighbours back. -/
theorem generateFrom_spec_middle :
    ∃ g g', runAll [(⟨Source.counter, 0⟩, .text "a b c")] (new {} 0) = some g ∧
      g.generateFrom ⟨Source.counter, 0⟩ "B" 0 10 = some (["a", "B", "c"], g') ∧
      words "B" ≠ [] ∧
      ∃ before after : List Word,
        ["a", "B", "c"] = before.map (·.text) ++ words "B" ++ after.map (·.text) ∧
        g.graph.Surrounds 10 before ((words "B").map Word.mk) after := by
  let rs : List Record := [(.start, ⟨⟨"a"⟩, false, 0⟩), (⟨.blank, ⟨"a"⟩⟩, ⟨⟨"b"⟩, false, 0⟩),
    (⟨⟨"a"⟩, ⟨"b"⟩⟩, ⟨⟨"c"⟩, true, 0⟩)]
  let g : Generator := { new {} 0 with graph := Graph.ofRecords rs }
  have htext : (new {} 0).addText ⟨Source.counter, 0⟩ "a b c" = some g :=
    addText_of_fits (by decide)
  have hrun : runAll [(⟨Source.counter, 0⟩, .text "a b c")] (new {} 0) = some g := by
    rw [runAll_cons_of_run (run_text_of_addText htext)]
    rfl
  have hrecords : g.graph.records = rs := by
    rw [Graph.records_ofRecords]
    with_unfolding_all rfl
  have hcase : (Word.mk "B" == ⟨"b"⟩) = true := by
    rw [Word.beq_iff, ← String.toList_inj, toList_fold, toList_fold]
    decide
  have hword (w : Word) : (w == ⟨"B"⟩) = (w == ⟨"b"⟩) := BEq.congr_right hcase
  have hprefix (p : Prefix) : (p == ⟨⟨"a"⟩, ⟨"B"⟩⟩) = (p == ⟨⟨"a"⟩, ⟨"b"⟩⟩) :=
    BEq.congr_right (Prefix.beq_iff.2 ⟨BEq.rfl, hcase⟩)
  have hbefore : predecessors g.graph [⟨"B"⟩] = [⟨"a"⟩] := by
    simp only [predecessors, hrecords, hword]
    with_unfolding_all rfl
  have hfirst : predecessors g.graph [⟨"a"⟩, ⟨"B"⟩] = [.blank] := by
    simp only [predecessors, hrecords, hword]
    with_unfolding_all rfl
  have hafter : g.graph.successors ⟨⟨"a"⟩, ⟨"B"⟩⟩ = #[⟨⟨"c"⟩, true, 0⟩] := by
    refine Array.toList_inj.1 ((Graph.toList_successors_insertAll .empty rs _).trans ?_)
    simp only [Graph.successors_eq, hprefix]
    with_unfolding_all rfl
  have hback : backward Source.counter g.graph 4 [⟨"B"⟩] = pure [⟨"a"⟩, ⟨"B"⟩] := by
    rw [backward, hbefore, pick_singleton, pure_bind]
    change backward Source.counter g.graph 3 [⟨"a"⟩, ⟨"B"⟩] = _
    rw [backward, hfirst, pick_singleton, pure_bind]
    rfl
  have hforward : forward Source.counter g.graph 0 8 ⟨⟨"a"⟩, ⟨"B"⟩⟩ #[⟨"a"⟩, ⟨"B"⟩] =
      pure #[⟨"a"⟩, ⟨"B"⟩, ⟨"c"⟩] := by
    rw [forward, hafter, pick_singleton, pure_bind]
    rfl
  have hwalk : walkFrom Source.counter g.graph [⟨"B"⟩] 0 10 = pure #[⟨"a"⟩, ⟨"B"⟩, ⟨"c"⟩] := by
    have hroom : max 10 0 / 2 - ([⟨"B"⟩] : List Word).length = 4 := rfl
    have hresume (graph : Graph) (a b : Word) :
        resumePrefix Source.counter graph [a, b] = pure ⟨a, b⟩ := rfl
    rw [walkFrom, hroom, hback, pure_bind, hresume, pure_bind]
    exact hforward
  have hgen : g.generateFrom ⟨Source.counter, 0⟩ "B" 0 10 = some (["a", "B", "c"], g) := by
    rw [generateFrom, show words "B" = ["B"] by decide]
    simp only [drawing, List.map_cons, List.map_nil, hwalk]
    rfl
  have hprompt : words "B" ≠ [] := by decide
  exact ⟨g, g, hrun, hgen, hprompt, generateFrom_spec hprompt hgen⟩

end Generator

end ChainScript.Chain
