import ChainScript.Chain.Storage
import ChainScript.Proofs.Graph.Alike

/-!
# Files that differ in spelling

Alike graphs are written to files that are the same after lowering each byte, in every format.
Text files that are the same after lowering each byte are read alike: they hold the same records
up to spelling, or both are refused for the same cause, with at most a quoted flag spelled
otherwise.

## Main definitions

* `ChainError.lower` — the error, with what it quotes in lower case.
* `SameOutcome` — two operations succeed alike or fail alike.
* `SameRecords` — records that are the same up to spelling.
-/

namespace ChainScript.Text

theorem fold_append (s t : String) : fold (s ++ t) = fold s ++ fold t := by
  rw [← String.toList_inj, toList_fold, String.toList_append, String.toList_append, List.map_append,
    toList_fold, toList_fold]

theorem fold_intercalate (sep : String) (ts : List String) :
    fold (sep.intercalate ts) = (fold sep).intercalate (ts.map fold) := by
  induction ts with
  | nil =>
      rw [String.intercalate_nil, List.map_nil, String.intercalate_nil, ← String.toList_inj,
        toList_fold]
      rfl
  | cons t ts ih =>
      cases ts with
      | nil => rw [String.intercalate_singleton, List.map_singleton, String.intercalate_singleton]
      | cons u us =>
          rw [String.intercalate_cons_cons, fold_append, fold_append, ih, List.map_cons,
            List.map_cons, List.map_cons, String.intercalate_cons_cons]

end ChainScript.Text

namespace ChainScript.Chain

open Text

/-! ### Outcomes -/

/-- The corruption, with the flag that it quotes in lower case. -/
def Corruption.lower : Corruption → Corruption
  | lineFlag line flag => lineFlag line (fold flag)
  | cause => cause

/-- The error, with what it quotes in lower case. -/
def ChainError.lower : ChainError → ChainError
  | corrupt cause => corrupt cause.lower
  | e => e

/-- Both operations succeed with related results, or both fail with one error up to case. -/
inductive SameOutcome {α β : Type} (R : α → β → Prop) :
    Except ChainError α → Except ChainError β → Prop
  | ok {a : α} {b : β} : R a b → SameOutcome R (.ok a) (.ok b)
  | error {e f : ChainError} : e.lower = f.lower → SameOutcome R (.error e) (.error f)

theorem SameOutcome.bind {α β γ δ : Type} {R : α → β → Prop} {S : γ → δ → Prop}
    {x : Except ChainError α} {y : Except ChainError β} {k : α → Except ChainError γ}
    {l : β → Except ChainError δ} (h : SameOutcome R x y)
    (hk : ∀ a b, R a b → SameOutcome S (k a) (l b)) : SameOutcome S (x >>= k) (y >>= l) := by
  cases h with
  | ok hab => exact hk _ _ hab
  | error he => exact .error he

theorem SameOutcome.map {α β γ δ : Type} {R : α → β → Prop} {S : γ → δ → Prop}
    {x : Except ChainError α} {y : Except ChainError β} {p : α → γ} {q : β → δ}
    (h : SameOutcome R x y) (hp : ∀ a b, R a b → S (p a) (q b)) :
    SameOutcome S (x.map p) (y.map q) := by
  cases h with
  | ok hab => exact .ok (hp _ _ hab)
  | error he => exact .error he

theorem SameOutcome.refl {α : Type} {R : α → α → Prop} (hR : ∀ a, R a a)
    (x : Except ChainError α) : SameOutcome R x x := by
  cases x with
  | ok a => exact .ok (hR a)
  | error e => exact .error rfl

/-! ### Writing -/

/-- Records that are the same up to spelling. -/
def SameRecords (rs rs' : List Record) : Prop := rs.map lowerRecord = rs'.map lowerRecord

theorem SameRecords.refl (rs : List Record) : SameRecords rs rs := Eq.refl (rs.map lowerRecord)

namespace TextFormat

theorem fold_writeRecord_congr {r r' : Record} (h : lowerRecord r = lowerRecord r') :
    fold (writeRecord r) = fold (writeRecord r') := by
  obtain ⟨holder, hnewer, hword⟩ := words_congr h
  have hterminal : r.2.terminal = r'.2.terminal := (Suffix.mk.inj (Prod.mk.inj h).2).2.1
  simp only [writeRecord, fold_append, Word.mk.inj holder, Word.mk.inj hnewer, Word.mk.inj hword,
    hterminal]

theorem lower_write {rs rs' : List Record} (h : rs.map lowerRecord = rs'.map lowerRecord) :
    (write rs).map lowerByte = (write rs').map lowerByte := by
  have hbytes : ∀ rs : List Record, (write rs).map lowerByte =
      (rs.map (fold ∘ writeRecord)).flatMap bytes := by
    intro rs
    rw [write, List.map_flatMap, List.flatMap_map]
    exact List.flatMap_congr fun r _ => (bytes_fold (writeRecord r)).symm
  have hlines : rs.map (fold ∘ writeRecord) = rs'.map (fold ∘ writeRecord) :=
    map_congr_view h fun _ _ hr => fold_writeRecord_congr hr
  rw [hbytes, hbytes, hlines]

end TextFormat

namespace DotFormat

/-- The edge in lower case. -/
def Edge.lower (e : Edge) : Edge := ⟨e.source.lower, e.word.lower⟩

theorem Edge.comparedBy_lower : ComparedBy Edge.lower := by
  intro a b
  rw [Edge.beq_iff, Prefix.comparedBy_lower, Word.comparedBy_lower, lower, lower, Edge.mk.injEq]

theorem edges_alike {rs rs' : List Record} (h : rs.map lowerRecord = rs'.map lowerRecord) :
    (edges rs).Alike Edge.lower id (edges rs') := by
  refine foldl_congr_view h rfl ?_
  intro t u r r' htu hr
  obtain ⟨hp, hs⟩ := Prod.mk.inj hr
  have hedge : Edge.lower ⟨r.1, r.2.word⟩ = Edge.lower ⟨r'.1, r'.2.word⟩ := by
    rw [Edge.lower, Edge.lower, hp, (Suffix.mk.inj hs).1]
  refine htu.update Edge.comparedBy_lower hedge rfl ?_
  intro stroke stroke' hstroke
  obtain rfl : stroke = stroke' := hstroke
  rw [(Suffix.mk.inj hs).2.1]

theorem fold_nodeLabel_congr {p q : Prefix} (h : p.lower = q.lower) :
    fold (nodeLabel p) = fold (nodeLabel q) := by
  rw [nodeLabel, nodeLabel, isStart_congr h]
  split
  · rfl
  · have htexts : p.tokens.map (fold ∘ (·.text)) = q.tokens.map (fold ∘ (·.text)) :=
      map_congr_view (map_lower_tokens_congr h) fun _ _ hw => Word.mk.inj hw
    rw [fold_intercalate, fold_intercalate, List.map_map, List.map_map, htexts]

theorem escape_fold (s : String) : escape (fold s) = fold (escape s) := by
  have hchar : ∀ c : Char, escapeChar c.toLower = (escapeChar c).map Char.toLower := by
    intro c
    have hmark : (c.toLower = '\\' ∨ c.toLower = '"') ↔ (c = '\\' ∨ c = '"') := by
      rw [toLower_eq_iff (by decide), toLower_eq_iff (by decide)]
    simp only [escapeChar, hmark]
    split
    · rfl
    · rfl
  rw [escape, escape, ← ofList_map_toLower, toList_fold, List.map_flatMap, List.flatMap_map]
  exact congrArg String.ofList (List.flatMap_congr fun c _ => hchar c)

theorem fold_quoted_congr {s t : String} (h : fold s = fold t) :
    fold (quoted s) = fold (quoted t) := by
  rw [quoted, quoted, fold_append, fold_append, fold_append, fold_append, ← escape_fold, h,
    escape_fold]

theorem fold_edgeLine {g h : Graph} (A : g.Alike h) {e e' : Edge} (he : e.lower = e'.lower)
    (stroke : Stroke) : fold (edgeLine g e stroke) = fold (edgeLine h e' stroke) := by
  obtain ⟨hsource, hword⟩ := Edge.mk.inj he
  have hnext := lower_shift_congr hsource hword
  have htarget : ((g.key? (e.source.shift e.word)).getD (e.source.shift e.word)).lower =
      ((h.key? (e'.source.shift e'.word)).getD (e'.source.shift e'.word)).lower := by
    have hkey := rel_of_map_eq (A.key? hnext)
    generalize g.key? (e.source.shift e.word) = key at hkey ⊢
    generalize h.key? (e'.source.shift e'.word) = key' at hkey ⊢
    cases hkey with
    | none => exact hnext
    | some hlower => exact hlower
  have hlabel : fold e.word.text = fold e'.word.text := Word.mk.inj hword
  simp only [edgeLine, fold_append, fold_quoted_congr (fold_nodeLabel_congr htarget),
    fold_quoted_congr (fold_nodeLabel_congr hsource), fold_quoted_congr hlabel]

theorem lower_write {g h : Graph} (A : g.Alike h) :
    (write g).map lowerByte = (write h).map lowerByte := by
  have hedges : ((edges g.records).entries.map fun e => fold (edgeLine g e.1 e.2)) =
      (edges h.records).entries.map fun e => fold (edgeLine h e.1 e.2) := by
    refine map_congr_view (edges_alike A.records) fun e e' he => ?_
    obtain ⟨hedge, hstroke⟩ : e.1.lower = e'.1.lower ∧ e.2 = e'.2 := Prod.mk.inj he
    rw [fold_edgeLine A hedge, hstroke]
  have hlines : (drawing g).map fold = (drawing h).map fold := by
    simp only [drawing, List.map_append, List.map_map]
    exact congrArg (_ ++ · ++ _) hedges
  have hbytes : ∀ g : Graph, (write g).map lowerByte =
      ((drawing g).map fold).flatMap Text.bytes := by
    intro g
    rw [write, List.map_flatMap, List.flatMap_map]
    exact List.flatMap_congr fun s _ => (bytes_fold s).symm
  rw [hbytes, hbytes, hlines]

end DotFormat

/-! ### Reading text files -/

namespace TextFormat

theorem trimEnds_fold (line : String) : trimEnds (fold line) = fold (trimEnds line) := by
  have hend : ∀ c : Char, (c.toLower == '\r' || c.toLower == '\n') = (c == '\r' || c == '\n') := by
    intro c
    rw [toLower_beq (by decide), toLower_beq (by decide)]
  rw [trimEnds, trimEnds, toList_fold, ← List.map_reverse, dropWhile_map_toLower hend,
    ← List.map_reverse, ofList_map_toLower]

theorem fold_eq_ofList_iff {s : String} {c : Char} (hc : c.isAlpha = false) :
    fold s = String.ofList [c] ↔ s = String.ofList [c] := by
  rw [← String.toList_inj, ← String.toList_inj, toList_fold, String.toList_ofList,
    List.map_eq_singleton_iff]
  simp only [toLower_eq_iff hc, exists_eq_right]

theorem flag?_eq (s : String) :
    flag? s = if s = "0" then some false else if s = "1" then some true else none := by
  unfold flag?
  split
  · rfl
  · rfl
  · next h₀ h₁ => rw [if_neg h₀, if_neg h₁]

theorem flag?_fold (s : String) : flag? (fold s) = flag? s := by
  have hzero : fold s = "0" ↔ s = "0" := fold_eq_ofList_iff (by decide)
  have hone : fold s = "1" ↔ s = "1" := fold_eq_ofList_iff (by decide)
  simp only [flag?_eq, hzero, hone]

theorem isEmpty_fold (s : String) : (fold s).isEmpty = s.isEmpty := by
  rw [Bool.eq_iff_iff, String.isEmpty_iff, String.isEmpty_iff, ← String.toList_inj,
    ← String.toList_inj, toList_fold]
  exact List.map_eq_nil_iff

/-- The result of reading with records and errors in lower case. -/
def lowered : Except ChainError (List Record) → Except ChainError (List Record)
  | .ok rs => .ok (rs.map lowerRecord)
  | .error e => .error e.lower

/-- The lower-case spelling of a line holds the record in lower case, or is refused alike. -/
theorem parseLine_fold (now : Instant) (number : Nat) (line : String) :
    parseLine now number (fold line) =
      match parseLine now number line with
      | .ok r => .ok (r.map lowerRecord)
      | .error cause => .error cause.lower := by
  have hsplit : splitAt '\t' (fold (trimEnds line)) = (splitAt '\t' (trimEnds line)).map fold :=
    splitAt_fold (by decide) _
  simp only [parseLine, trimEnds_fold, isEmpty_fold, hsplit]
  split
  · rfl
  · match splitAt '\t' (trimEnds line) with
    | [a, b, word, flag] =>
        simp only [List.map_cons, List.map_nil, flag?_fold]
        cases flag? flag with
        | none => rfl
        | some terminal => rfl
    | [] => rfl
    | [_] => rfl
    | [_, _] => rfl
    | [_, _, _] => rfl
    | a :: b :: word :: flag :: extra :: rest =>
        simp only [List.map_cons, List.length_cons, List.length_map]
        rfl

theorem readLines_lower (now : Instant) (number : Nat) (ls : List (List UInt8))
    (found : List Record) :
    readLines now number (ls.map (List.map lowerByte)) (found.map lowerRecord) =
      lowered (readLines now number ls found) := by
  induction ls generalizing number found with
  | nil => rw [List.map_nil, readLines, readLines, lowered, List.map_reverse]
  | cons line ls ih =>
      rw [List.map_cons, readLines, readLines, decode?_map_lowerByte]
      cases decode? line with
      | none => rfl
      | some text =>
          simp only [Option.map_some, parseLine_fold]
          cases parseLine now number text with
          | error cause => rfl
          | ok r =>
              cases r with
              | none => exact ih (number + 1) found
              | some r => exact ih (number + 1) (r :: found)

/-- Text files that differ in the case of ASCII letters only are read alike. -/
theorem read_alike {input input' : Input} (h : input.Alike input') (now : Instant) :
    SameOutcome SameRecords (read now input) (read now input') := by
  have hlines : lowered (readLines now 1 input.rawLines []) =
      lowered (readLines now 1 input'.rawLines []) := by
    rw [← readLines_lower, h.rawLines, readLines_lower]
  have hsame : ∀ {x y : Except ChainError (List Record)}, lowered x = lowered y →
      SameOutcome SameRecords x y := by
    intro x y hxy
    match x, y, hxy with
    | .ok _, .ok _, hxy => exact .ok (Except.ok.inj hxy)
    | .error _, .error _, hxy => exact .error (Except.error.inj hxy)
  rw [read, read, h.failure]
  refine (hsame hlines).bind fun rs rs' hrs => ?_
  cases input'.failure with
  | none => exact .ok hrs
  | some failure => exact .error rfl

end TextFormat

end ChainScript.Chain
