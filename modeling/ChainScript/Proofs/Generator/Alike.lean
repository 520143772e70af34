import ChainScript.Chain.Generator
import ChainScript.Proofs.Graph.Alike

/-!
# Generators that differ in spelling

Two generators are alike where their graphs are and all else is the same.  A walk or a sweep on
one draws the same random words as on the other and comes to the same numbers, and to words
that differ in the case of ASCII letters only.  So each operation keeps generators alike, and
fails for both or for neither.

## Main definitions

* `Pairs` — two computations draw the same words and have related results.
* `Generator.Alike` — generators that differ in spelling only; `Generator.AlikeWith` is the same
  of what an operation leaves, with a relation of the results.
-/

namespace ChainScript.Chain

open Text

/-! ### Computations that draw -/

/-- From any cursor both computations draw for ever, or both come to related results and leave
the same cursor. -/
def Pairs {α β : Type} (R : α → β → Prop) (d : Draw α) (e : Draw β) : Prop :=
  ∀ c, Option.Rel (fun a b : _ × Cursor => R a.1 b.1 ∧ a.2 = b.2) (d c) (e c)

section Pairs

variable {α β γ δ : Type} {R : α → β → Prop} {S : γ → δ → Prop} {d : Draw α} {e : Draw β}

theorem pairs_pure {a : α} {b : β} (h : R a b) : Pairs R (pure a) (pure b) :=
  fun _ => .some ⟨h, rfl⟩

theorem pairs_self (d : Draw α) : Pairs Eq d d := by
  intro c
  cases d c with
  | none => exact .none
  | some a => exact .some ⟨rfl, rfl⟩

theorem Pairs.bind {k : α → Draw γ} {l : β → Draw δ} (h : Pairs R d e)
    (hk : ∀ a b, R a b → Pairs S (k a) (l b)) : Pairs S (d >>= k) (e >>= l) := by
  intro c
  refine rel_bind (h c) ?_
  rintro ⟨a, c₁⟩ ⟨b, c₂⟩ ⟨hab, rfl⟩
  exact hk a b hab c₁

/-- A choice among items goes by their number. -/
theorem pairs_pick (source : Source) {xs ys : Array α} {f : α → γ}
    (h : xs.toList.map f = ys.toList.map f) :
    Pairs (fun a b : Option α => a.map f = b.map f) (source.pick xs) (source.pick ys) := by
  have hsize : xs.size = ys.size := by simpa using congrArg List.length h
  rw [Source.pick, Source.pick, Array.isEmpty, Array.isEmpty, hsize]
  split
  · exact pairs_pure rfl
  · refine (pairs_self _).bind fun i _ hi => pairs_pure ?_
    subst hi
    rw [← Array.getElem?_toList, ← Array.getElem?_toList, ← List.getElem?_map, h,
      List.getElem?_map]

end Pairs

/-! ### Walks -/

/-- The words differ in the case of ASCII letters only. -/
def SameWords (out out' : Array Word) : Prop :=
  out.toList.map Word.lower = out'.toList.map Word.lower

theorem SameWords.size_eq {out out' : Array Word} (h : SameWords out out') :
    out.size = out'.size := by
  simpa using congrArg List.length h

theorem SameWords.push {out out' : Array Word} {a b : Word} (h : SameWords out out')
    (hab : a.lower = b.lower) : SameWords (out.push a) (out'.push b) := by
  rw [SameWords, Array.toList_push, Array.toList_push, List.map_append, List.map_append, h,
    List.map_singleton, List.map_singleton, hab]

namespace Graph.Alike

variable {g h : Graph}

theorem forward (A : g.Alike h) (source : Source) (least room : Nat) {p q : Prefix}
    (hp : p.lower = q.lower) {out out' : Array Word} (hout : SameWords out out') :
    Pairs SameWords (Chain.forward source g least room p out)
      (Chain.forward source h least room q out') := by
  induction room generalizing p q out out' with
  | zero => exact pairs_pure hout
  | succ room ih =>
      rw [Chain.forward, Chain.forward]
      -- A choice goes by the position in the bag, and the bags are alike at every position.
      refine (pairs_pick source (A.successors hp)).bind ?_
      intro next next' hnext
      cases rel_of_map_eq hnext with
      | none => exact pairs_pure hout
      | @some s t hst =>
          obtain ⟨hword, hterminal, -⟩ := Suffix.mk.inj hst
          have hpush := hout.push hword
          simp only [hterminal, hpush.size_eq]
          split
          · exact pairs_pure hpush
          · exact ih (lower_shift_congr hp hword) hpush

theorem predecessors (A : g.Alike h) {text text' : List Word}
    (ht : text.map Word.lower = text'.map Word.lower) :
    (Chain.predecessors g text).map Word.lower = (Chain.predecessors h text').map Word.lower := by
  have heq {a b c d : Word} (hab : a.lower = b.lower) (hcd : c.lower = d.lower) :
      (a == c) = (b == d) := Word.comparedBy_lower.beq_congr hab hcd
  match text, text', ht with
  | [], [], _ => rfl
  | [a], [b], ht =>
      have hab := (List.cons.inj ht).1
      rw [Chain.predecessors, Chain.predecessors, List.map_map, List.map_map]
      refine map_congr_view (map_filter_congr A.records fun r r' hr => ?_) ?_
      · exact heq (words_congr hr).2.2 hab
      · exact fun r r' hr => (words_congr hr).2.1
  | [_], _ :: _ :: _, ht => cases (List.cons.inj ht).2
  | _ :: _ :: _, [_], ht => cases (List.cons.inj ht).2
  | a :: b :: _, a' :: b' :: _, ht =>
      obtain ⟨ha, hrest⟩ := List.cons.inj ht
      have hb := (List.cons.inj hrest).1
      rw [Chain.predecessors, Chain.predecessors, List.map_map, List.map_map]
      refine map_congr_view (map_filter_congr A.records fun r r' hr => ?_) ?_
      · rw [heq (words_congr hr).2.1 ha, heq (words_congr hr).2.2 hb]
      · exact fun r r' hr => (words_congr hr).1

theorem backward (A : g.Alike h) (source : Source) (room : Nat) {text text' : List Word}
    (ht : text.map Word.lower = text'.map Word.lower) :
    Pairs (fun a b => a.map Word.lower = b.map Word.lower) (Chain.backward source g room text)
      (Chain.backward source h room text') := by
  induction room generalizing text text' with
  | zero => exact pairs_pure ht
  | succ room ih =>
      rw [Chain.backward, Chain.backward]
      refine (pairs_pick source (A.predecessors ht)).bind ?_
      intro word word' hword
      cases rel_of_map_eq hword with
      | none => exact pairs_pure ht
      | @some w w' hw =>
          have hlength : text.length = text'.length := by simpa using congrArg List.length ht
          simp only [isBlank_congr hw, endsSentence_congr hw, hlength]
          split
          · exact pairs_pure ht
          · exact ih (by rw [List.map_cons, List.map_cons, hw, ht])

theorem lower_tailPrefix {text text' : List Word}
    (ht : text.map Word.lower = text'.map Word.lower) :
    (tailPrefix text).lower = (tailPrefix text').lower := by
  have hmap : ∀ ws : List Word, (tailPrefix ws).lower = tailPrefix (ws.map Word.lower) := by
    intro ws
    induction ws using tailPrefix.induct with
    | case1 =>
        rw [tailPrefix, List.map_nil, tailPrefix, Prefix.start, Prefix.lower, Word.lower_blank]
    | case2 w => rw [tailPrefix, List.map_singleton, tailPrefix, Prefix.lower, Word.lower_blank]
    | case3 a b => rfl
    | case4 w rest hone htwo ih =>
        cases rest with
        | nil => exact absurd rfl hone
        | cons a rest =>
            cases rest with
            | nil => exact absurd rfl (htwo a)
            | cons b rest => exact ih
  rw [hmap, hmap, ht]

theorem resumePrefix (A : g.Alike h) (source : Source) {text text' : List Word}
    (ht : text.map Word.lower = text'.map Word.lower) :
    Pairs (fun p q => p.lower = q.lower) (Chain.resumePrefix source g text)
      (Chain.resumePrefix source h text') := by
  have htail := lower_tailPrefix ht
  have hempty : (g.successors (tailPrefix text)).isEmpty =
      (h.successors (tailPrefix text')).isEmpty := by
    rw [Array.isEmpty, Array.isEmpty, size_eq_of_lowerBag (A.successors htail)]
  match text, text', ht with
  | [], [], _ => exact pairs_pure rfl
  | [a], [b], ht =>
      have hab := (List.cons.inj ht).1
      rw [Chain.resumePrefix, Chain.resumePrefix]
      simp only [hempty]
      split
      · have hknown : ∀ r r' : Record, lowerRecord r = lowerRecord r' →
            (!r.1.older.isBlank && r.1.newer == a) = (!r'.1.older.isBlank && r'.1.newer == b) := by
          intro r r' hr
          obtain ⟨holder, hnewer, -⟩ := words_congr hr
          rw [isBlank_congr holder, Word.comparedBy_lower.beq_congr hnewer hab]
        have hprefixes := map_congr_view (map_filter_congr A.records hknown)
          (p := fun r => r.1.lower) (q := fun r => r.1.lower) fun _ _ hr => (Prod.mk.inj hr).1
        refine (pairs_pick source (f := Prefix.lower) ?_).bind ?_
        · rw [List.map_map, List.map_map]
          exact hprefixes
        · intro p q hpq
          cases rel_of_map_eq hpq with
          | none => exact pairs_pure htail
          | some hlower => exact pairs_pure hlower
      · exact pairs_pure htail
  | [_], _ :: _ :: _, ht => cases (List.cons.inj ht).2
  | _ :: _ :: _, [_], ht => cases (List.cons.inj ht).2
  | _ :: _ :: _, _ :: _ :: _, _ => exact pairs_pure htail

end Graph.Alike

/-! ### Sweeps -/

namespace Graph.Alike

variable {g h : Graph}

theorem dropRandom (A : g.Alike h) (source : Source) (n : Nat) :
    Pairs Graph.Alike (g.dropRandom source n) (h.dropRandom source n) := by
  induction n generalizing g h with
  | zero => exact pairs_pure A
  | succ n ih =>
      rw [Graph.dropRandom, Graph.dropRandom, A.count]
      refine (pairs_self _).bind ?_
      rintro k _ rfl
      have hrel := A.removeNth k
      generalize g.removeNth k = left at hrel ⊢
      generalize h.removeNth k = left' at hrel ⊢
      cases hrel with
      | none => exact pairs_pure A
      | some B => exact ih B

/-- What a sweep leaves differs in spelling only. -/
theorem sweep (A : g.Alike h) (source : Source) (config : Config) (now lastCleanup : Instant) :
    Pairs (fun a b : Swept => a.graph.Alike b.graph ∧ a.lastCleanup = b.lastCleanup ∧
        a.aged = b.aged ∧ a.dropped = b.dropped)
      (Chain.sweep source config now lastCleanup g)
      (Chain.sweep source config now lastCleanup h) := by
  have aged : Graph.Alike
      (if lastCleanup < Instant.back now config.maxAge then
        g.retainYounger (Instant.back now config.maxAge) else g)
      (if lastCleanup < Instant.back now config.maxAge then
        h.retainYounger (Instant.back now config.maxAge) else h) := by
    split
    · exact A.retainYounger _
    · exact A
  rw [Chain.sweep, Chain.sweep]
  simp only [aged.count]
  refine (aged.dropRandom source _).bind fun left left' B => pairs_pure ?_
  exact ⟨B, rfl, by rw [A.count], by rw [B.count]⟩

end Graph.Alike

/-! ### Generators -/

namespace Generator

/-- The generators differ in the case of ASCII letters only. -/
structure Alike (g h : Generator) : Prop where
  graph : g.graph.Alike h.graph
  config : g.config = h.config
  cursor : g.cursor = h.cursor
  lastCleanup : g.lastCleanup = h.lastCleanup

/-- The results are related, and what is left are generators that differ in spelling only. -/
structure AlikeWith {α β : Type} (R : α → β → Prop) (a : α × Generator) (b : β × Generator) :
    Prop where
  result : R a.1 b.1
  generator : a.2.Alike b.2

namespace Alike

variable {g h : Generator} {env : Env}

theorem refl (g : Generator) : g.Alike g := ⟨.refl _, rfl, rfl, rfl⟩

/-- A computation that draws has related results on both generators. -/
theorem drawing {α β : Type} {R : α → β → Prop} {d : Draw α} {e : Draw β} (A : g.Alike h)
    (hd : Pairs R d e) :
    Option.Rel (AlikeWith R) (g.drawing d) (h.drawing e) := by
  rw [Generator.drawing, Generator.drawing, A.cursor]
  refine rel_bind (hd _) ?_
  rintro ⟨a, c⟩ ⟨b, _⟩ ⟨hab, rfl⟩
  exact .some ⟨hab, A.graph, A.config, rfl, A.lastCleanup⟩

theorem sweep (A : g.Alike h) :
    Option.Rel (AlikeWith Eq) (g.sweep env) (h.sweep env) := by
  rw [Generator.sweep, Generator.sweep, A.config, A.cursor, A.lastCleanup]
  refine rel_bind (A.graph.sweep env.source h.config env.now h.lastCleanup h.cursor) ?_
  rintro ⟨swept, c⟩ ⟨swept', _⟩ ⟨⟨hgraph, hlast, haged, hdropped⟩, rfl⟩
  refine .some ⟨?_, hgraph, rfl, rfl, hlast⟩
  exact congrArg₂ (· + ·) haged hdropped

/-! ### Learning -/

theorem record (A : g.Alike h) {p q : Prefix} {s t : Suffix} (hp : p.lower = q.lower)
    (hs : s.lower = t.lower) :
    Option.Rel Generator.Alike (g.record env p s) (h.record env q t) := by
  have B : Generator.Alike { g with graph := g.graph.insert p s }
      { h with graph := h.graph.insert q t } :=
    ⟨A.graph.insert hp hs, A.config, A.cursor, A.lastCleanup⟩
  have hfull : (g.config.maxSize < (g.graph.insert p s).count) =
      (h.config.maxSize < (h.graph.insert q t).count) := by
    rw [A.config, B.graph.count]
  rw [Generator.record, Generator.record]
  simp only [hfull]
  split
  · exact rel_map B.sweep fun _ _ hab => hab.generator
  · exact .some B

theorem learnWords (A : g.Alike h) {p q : Prefix} (hp : p.lower = q.lower) {ws ws' : List String}
    (hws : ws.map fold = ws'.map fold) :
    Option.Rel Generator.Alike (g.learnWords env p ws) (h.learnWords env q ws') := by
  replace hws := forall₂_iff_map_eq.2 hws
  induction hws generalizing g h p q with
  | nil => exact .some A
  | @cons w w' ws ws' hw hrest ih =>
      have hword : Word.lower ⟨w⟩ = Word.lower ⟨w'⟩ := congrArg Word.mk hw
      have hempty : ws.isEmpty = ws'.isEmpty := by
        cases hrest with
        | nil => rfl
        | cons => rfl
      rw [Generator.learnWords, Generator.learnWords]
      refine rel_bind (A.record hp ?_) fun g' h' B => ih B (lower_shift_congr hp hword)
      rw [hempty, endsSentence_congr hword, Suffix.lower, Suffix.lower, hword]

theorem learnLine (A : g.Alike h) {line line' : String} (hline : fold line = fold line') :
    Option.Rel Generator.Alike (g.learnLine env line) (h.learnLine env line') :=
  A.learnWords rfl (by rw [← words_fold, hline, words_fold])

theorem addText (A : g.Alike h) {text text' : String} (htext : fold text = fold text') :
    Option.Rel Generator.Alike (g.addText env text) (h.addText env text') := by
  have hlines : List.Forall₂ (fun a b => fold a = fold b) (lines text) (lines text') :=
    forall₂_iff_map_eq.2 (by rw [← lines_fold, htext, lines_fold])
  rw [Generator.addText, Generator.addText]
  generalize lines text = ls at hlines ⊢
  generalize lines text' = ls' at hlines ⊢
  induction hlines generalizing g h with
  | nil => exact .some A
  | cons hline _ ih =>
      rw [List.foldlM_cons, List.foldlM_cons]
      exact rel_bind (A.learnLine hline) fun _ _ B => ih B

/-- Learning from a stream stops at the same line for both, if it stops. -/
theorem learnRaw (A : g.Alike h) {endsOpen endsOpen' : Bool} {ls ls' : List (List UInt8)}
    (hls : ls.map (List.map lowerByte) = ls'.map (List.map lowerByte)) :
    Option.Rel (AlikeWith Eq) (g.learnRaw env endsOpen ls) (h.learnRaw env endsOpen' ls') := by
  replace hls := forall₂_iff_map_eq.2 hls
  induction hls generalizing g h with
  | nil => exact .some ⟨rfl, A⟩
  | @cons line line' _ _ hline _ ih =>
      have hdecode : Option.Rel (fun a b => fold a = fold b) (decode? line) (decode? line') :=
        rel_of_map_eq (by rw [← decode?_map_lowerByte, hline, decode?_map_lowerByte])
      rw [learnRaw_cons, learnRaw_cons]
      generalize decode? line = text at hdecode ⊢
      generalize decode? line' = text' at hdecode ⊢
      cases hdecode with
      | none => exact .some ⟨rfl, A⟩
      | some hfold => exact rel_bind (A.learnLine hfold) fun _ _ B => ih B

theorem addReader (A : g.Alike h) {input input' : Input} (hinput : input.Alike input') :
    Option.Rel (AlikeWith Eq) (g.addReader env input) (h.addReader env input') := by
  rw [Generator.addReader, Generator.addReader, hinput.failure]
  refine rel_bind (A.learnRaw hinput.rawLines) ?_
  rintro ⟨r, g'⟩ ⟨_, h'⟩ ⟨rfl, B⟩
  cases r with
  | error e => exact .some ⟨rfl, B⟩
  | ok _ =>
      cases input'.failure with
      | none => exact .some ⟨rfl, B⟩
      | some failure => exact .some ⟨rfl, B⟩

/-! ### Making text -/

theorem texts_of_sameWords {out out' : Array Word} (hout : SameWords out out') :
    (out.toList.map (·.text)).map fold = (out'.toList.map (·.text)).map fold := by
  rw [List.map_map, List.map_map]
  exact map_congr_view hout fun _ _ hw => Word.mk.inj hw

theorem walk (A : g.Alike h) (source : Source) (least most : Nat) :
    Pairs SameWords (Generator.walk source g.graph least most)
      (Generator.walk source h.graph least most) := by
  rw [Generator.walk, Generator.walk, A.graph.starts.size_eq]
  refine (pairs_self _).bind ?_
  rintro i _ rfl
  have hstart := rel_of_map_eq (A.graph.starts.getElem? i)
  generalize g.graph.starts.members[i]? = start at hstart ⊢
  generalize h.graph.starts.members[i]? = start' at hstart ⊢
  cases hstart with
  | none => exact pairs_pure rfl
  | @some p q hp =>
      have hout : SameWords (p.tokens.take (max most least)).toArray
          (q.tokens.take (max most least)).toArray := by
        rw [SameWords, List.map_take, List.map_take, map_lower_tokens_congr hp]
      simp only [hout.size_eq]
      exact A.graph.forward source least _ hp hout

theorem walkFrom (A : g.Alike h) (source : Source) {prompt prompt' : List Word}
    (hprompt : prompt.map Word.lower = prompt'.map Word.lower) (least most : Nat) :
    Pairs SameWords (Generator.walkFrom source g.graph prompt least most)
      (Generator.walkFrom source h.graph prompt' least most) := by
  have hlength : prompt.length = prompt'.length := by simpa using congrArg List.length hprompt
  rw [Generator.walkFrom, Generator.walkFrom, hlength]
  refine (A.graph.backward source _ hprompt).bind fun text text' htext => ?_
  refine (A.graph.resumePrefix source htext).bind fun p q hp => ?_
  have hout : SameWords text.toArray text'.toArray := htext
  simp only [hout.size_eq]
  exact A.graph.forward source least _ hp hout

theorem generate (A : g.Alike h) (least most : Nat) :
    Option.Rel (AlikeWith fun ws ws' => ws.map fold = ws'.map fold)
      (g.generate env least most) (h.generate env least most) := by
  rw [Generator.generate, Generator.generate]
  refine rel_bind (A.drawing (A.walk env.source least most)) ?_
  rintro ⟨out, g'⟩ ⟨out', h'⟩ ⟨hout, B⟩
  exact .some ⟨texts_of_sameWords hout, B⟩

theorem generateFrom (A : g.Alike h) {prompt prompt' : String}
    (hprompt : fold prompt = fold prompt') (least most : Nat) :
    Option.Rel (AlikeWith fun ws ws' => ws.map fold = ws'.map fold)
      (g.generateFrom env prompt least most) (h.generateFrom env prompt' least most) := by
  have hwords : (words prompt).map fold = (words prompt').map fold := by
    rw [← words_fold, hprompt, words_fold]
  rw [Generator.generateFrom, Generator.generateFrom]
  match words prompt, words prompt', hwords with
  | [], [], _ => exact A.generate least most
  | w :: ws, w' :: ws', hwords =>
      have hgiven : ((w :: ws).map Word.mk).map Word.lower =
          ((w' :: ws').map Word.mk).map Word.lower := by
        rw [List.map_map, List.map_map]
        exact map_congr_view hwords fun _ _ hw => congrArg Word.mk hw
      refine rel_bind (A.drawing (A.walkFrom env.source hgiven least most)) ?_
      rintro ⟨out, g'⟩ ⟨out', h'⟩ ⟨hout, B⟩
      exact .some ⟨texts_of_sameWords hout, B⟩

/-! ### Forgetting -/

theorem setMaxSize (A : g.Alike h) (n : Nat) :
    Option.Rel Generator.Alike (g.setMaxSize env n) (h.setMaxSize env n) := by
  rw [Generator.setMaxSize, Generator.setMaxSize, A.config]
  exact rel_map (sweep ⟨A.graph, rfl, A.cursor, A.lastCleanup⟩) fun _ _ hab => hab.generator

theorem setMaxAge (A : g.Alike h) (d : Duration) :
    Option.Rel Generator.Alike (g.setMaxAge env d) (h.setMaxAge env d) := by
  rw [Generator.setMaxAge, Generator.setMaxAge, A.config]
  exact rel_map (sweep ⟨A.graph, rfl, A.cursor, A.lastCleanup⟩) fun _ _ hab => hab.generator

theorem clear (A : g.Alike h) : g.clear.Alike h.clear :=
  ⟨.refl _, A.config, A.cursor, A.lastCleanup⟩

theorem setSeed (A : g.Alike h) (seed : UInt64) : (g.setSeed seed).Alike (h.setSeed seed) :=
  ⟨A.graph, A.config, by rw [Generator.setSeed, Generator.setSeed, A.cursor], A.lastCleanup⟩

end Alike

end Generator

end ChainScript.Chain
