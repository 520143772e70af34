import ChainScript.Proofs.Format.Alike
import ChainScript.Proofs.Generator.Ending
import ChainScript.Proofs.Generator.Reader
import Mathlib.Data.List.ReduceOption

/-!
# What the text reader accepts

A grammar says which bytes are a line of a text file and what record they spell; another relation
says what is wrong with a line that the grammar does not know.  The reader finds the records of a
file all of whose lines are spelled, if the device comes to the end; in any other case it reports
the first line that is not, or the device.

## Main definitions

* `Trims`, `Fields` — the part of a line that counts, and its fields.
* `SpellsLine`, `SpellsFile` — the grammar.
* `Accepted`, `AcceptedFile` — the lines and files in which it spells something.
* `LineFault`, `Stops` — what is wrong with a line, and what a file is refused for.

## Main results

* `readLine_eq_ok_iff`, `readLine_eq_error_iff` — one line.
* `readLines_eq_ok_iff`, `readLines_eq_error_iff` — the lines of a file.
* `Generator.load_text_spec` — what a load of a text file does.
-/

namespace ChainScript.Text

/-- Separators cut a text into exactly the pieces without separators that make it. -/
theorem splitAt_eq_iff {sep : Char} {s : String} (hs : s.toList = [sep]) {text : String}
    {ls : List String} :
    splitAt sep text = ls ↔ ls ≠ [] ∧ (∀ l ∈ ls, sep ∉ l.toList) ∧ s.intercalate ls = text := by
  constructor
  · rintro rfl
    refine ⟨fun hnil => piecesBy_ne_nil _ _ (List.map_eq_nil_iff.1 hnil), fun l hl hsep => ?_,
      intercalate_splitAt hs text⟩
    obtain ⟨piece, hpiece, rfl⟩ := List.mem_map.1 hl
    rw [String.toList_ofList] at hsep
    simpa using (of_mem_piecesBy hpiece hsep).2
  · rintro ⟨hne, hls, rfl⟩
    exact splitAt_intercalate hs hne hls

end ChainScript.Text

namespace ChainScript.Chain

open Text

namespace TextFormat

/-! ### The grammar -/

/-- The text is the body and then carriage returns and newlines, in any order; the body ends in
none of them. -/
structure Trims (text body : String) : Prop where
  ending : ∃ ending, text = body ++ ending ∧ ∀ c ∈ ending.toList, c = '\r' ∨ c = '\n'
  last : ∀ c, body.toList.getLast? = some c → c ≠ '\r' ∧ c ≠ '\n'

/-- The body is the fields with tabs between them. -/
structure Fields (body : String) (fs : List String) : Prop where
  ne_nil : fs ≠ []
  no_tab : ∀ f ∈ fs, '\t' ∉ f.toList
  joined : "\t".intercalate fs = body

/-- What the bytes of a line spell: nothing where the line is empty, else the record of four
fields, created at `now`. -/
inductive SpellsLine (now : Instant) : List UInt8 → Option Record → Prop
  | blank {text : String} : Trims text "" → SpellsLine now (bytes text) none
  | record {text body a b word flag : String} {terminal : Bool} : Trims text body →
      Fields body [a, b, word, flag] → flag = (if terminal then "1" else "0") →
      SpellsLine now (bytes text) (some (⟨⟨a⟩, ⟨b⟩⟩, ⟨⟨word⟩, terminal, now⟩))

/-- The line is text and, as far as it counts, empty or four fields with a flag as the last. -/
def Accepted (line : List UInt8) : Prop :=
  ∃ text body, bytes text = line ∧ Trims text body ∧
    (body = "" ∨ ∃ a b word flag, Fields body [a, b, word, flag] ∧ (flag = "0" ∨ flag = "1"))

/-- What is wrong with the line of the given number. -/
inductive LineFault (number : Nat) : List UInt8 → ChainError → Prop
  | noText {line : List UInt8} : (∀ text, bytes text ≠ line) →
      LineFault number line (.io .invalidText)
  | fieldCount {text body : String} {fs : List String} : Trims text body → body ≠ "" →
      Fields body fs → fs.length ≠ 4 →
      LineFault number (bytes text) (.corrupt (.fieldCount number fs.length))
  | flag {text body a b word flag : String} : Trims text body →
      Fields body [a, b, word, flag] → flag ≠ "0" → flag ≠ "1" →
      LineFault number (bytes text) (.corrupt (.lineFlag number flag))

/-- The device comes to the end of the input, and every line is accepted. -/
def AcceptedFile (input : Input) : Prop :=
  input.failure = none ∧ ∀ line ∈ input.rawLines, Accepted line

/-- The input ends as such, and its lines spell the records in order. -/
def SpellsFile (now : Instant) (input : Input) (rs : List Record) : Prop :=
  input.failure = none ∧
  ∃ os, List.Forall₂ (SpellsLine now) input.rawLines os ∧ rs = os.reduceOption

/-- What the input is refused for: the first line that is not accepted, lines counted from one,
or else the failure of the device. -/
inductive Stops (input : Input) : ChainError → Prop
  | line {before after : List (List UInt8)} {line : List UInt8} {e : ChainError} :
      input.rawLines = before ++ line :: after → (∀ l ∈ before, Accepted l) →
      LineFault (before.length + 1) line e → Stops input e
  | device {failure : ReadFailure} : (∀ l ∈ input.rawLines, Accepted l) →
      input.failure = some failure → Stops input (.io (.device failure.reason))

/-! ### One line -/

variable {now : Instant} {number : Nat} {text body flag : String} {fs : List String}
  {line : List UInt8}

theorem trims_iff : Trims text body ↔ trimEnds text = body := by
  rw [← String.toList_inj, trimEnds, String.toList_ofList]
  constructor
  · rintro ⟨⟨ending, rfl, hending⟩, hlast⟩
    rw [String.toList_append, List.reverse_append,
      List.dropWhile_append_of_pos (by simpa using hending)]
    cases hrev : body.toList.reverse with
    | nil => exact (List.reverse_eq_nil_iff.1 hrev).symm
    | cons c cs =>
        have hc := hlast c (by rw [← List.head?_reverse, hrev, List.head?_cons])
        rw [List.dropWhile_cons_of_neg (by simpa using hc), ← hrev, List.reverse_reverse]
  · intro h
    have hsplit := List.takeWhile_append_dropWhile (p := fun c => c == '\r' || c == '\n')
      (l := text.toList.reverse)
    rw [List.reverse_eq_iff] at h
    rw [h, ← List.reverse_eq_iff, List.reverse_append, List.reverse_reverse] at hsplit
    refine ⟨⟨String.ofList (text.toList.reverse.takeWhile fun c => c == '\r' || c == '\n').reverse,
      ?_, fun c hc => ?_⟩, fun c hc => ?_⟩
    · rw [← String.toList_inj, String.toList_append, String.toList_ofList, hsplit]
    · rw [String.toList_ofList, List.mem_reverse] at hc
      simpa using List.mem_takeWhile_imp hc
    · rw [← List.head?_reverse, ← h] at hc
      have hnot := List.head?_dropWhile_not (fun c => c == '\r' || c == '\n') text.toList.reverse
      rw [hc] at hnot
      simpa using hnot

theorem fields_iff : Fields body fs ↔ splitAt '\t' body = fs := by
  have htab : "\t".toList = ['\t'] := rfl
  rw [splitAt_eq_iff htab]
  exact ⟨fun h => ⟨h.ne_nil, h.no_tab, h.joined⟩, fun ⟨h, h', h''⟩ => ⟨h, h', h''⟩⟩

theorem accepted_iff (now : Instant) : Accepted line ↔ ∃ o, SpellsLine now line o := by
  constructor
  · rintro ⟨text, body, rfl, htrims, rfl | ⟨a, b, word, flag, hfields, rfl | rfl⟩⟩
    · exact ⟨none, .blank htrims⟩
    · exact ⟨some (_, ⟨_, false, _⟩), .record htrims hfields rfl⟩
    · exact ⟨some (_, ⟨_, true, _⟩), .record htrims hfields rfl⟩
  · rintro ⟨o, htrims | ⟨htrims, hfields, rfl⟩⟩
    · exact ⟨_, _, rfl, htrims, .inl rfl⟩
    · exact ⟨_, _, rfl, htrims, .inr ⟨_, _, _, _, hfields, by split <;> simp⟩⟩

/-- Several fields are not made of nothing. -/
theorem Fields.ne_empty (h : Fields body fs) (hlen : fs.length ≠ 1) : body ≠ "" := by
  rintro rfl
  rw [← fields_iff.1 h] at hlen
  exact hlen rfl

/-- The record of a line, or what is wrong with it. -/
def readLine (now : Instant) (number : Nat) (line : List UInt8) :
    Except ChainError (Option Record) :=
  match decode? line with
  | none => .error (.io .invalidText)
  | some text => (parseLine now number text).mapError .corrupt

theorem readLines_cons (now : Instant) (number : Nat) (line : List UInt8)
    (rest : List (List UInt8)) (found : List Record) :
    readLines now number (line :: rest) found = (do
      let o ← readLine now number line
      readLines now (number + 1) rest (o.toList ++ found)) := by
  rw [readLines, readLine]
  cases decode? line with
  | none => rfl
  | some text =>
      dsimp only
      cases parseLine now number text with
      | error cause => rfl
      | ok o => cases o <;> rfl

/-- A line of four fields is parsed by its flag. -/
theorem parseLine_of_four {a b word : String} (h : Trims text body)
    (hfields : Fields body [a, b, word, flag]) :
    parseLine now number text =
      match flag? flag with
      | some terminal => .ok (some (⟨⟨a⟩, ⟨b⟩⟩, ⟨⟨word⟩, terminal, now⟩))
      | none => .error (.lineFlag number flag) := by
  have hempty : body.isEmpty = false := by simpa using hfields.ne_empty (by simp)
  simp only [parseLine, trims_iff.1 h, hempty, fields_iff.1 hfields]
  rfl

theorem parseLine_of_length_ne (h : Trims text body) (hbody : body ≠ "") (hfields : Fields body fs)
    (hlen : fs.length ≠ 4) : parseLine now number text = .error (.fieldCount number fs.length) := by
  have hempty : body.isEmpty = false := by simpa using hbody
  simp only [parseLine, trims_iff.1 h, hempty, fields_iff.1 hfields]
  rw [if_neg Bool.false_ne_true]
  split
  · exact absurd rfl hlen
  · rfl

theorem readLine_of_spells {o : Option Record} (h : SpellsLine now line o) :
    readLine now number line = .ok o := by
  cases h with
  | blank htrims =>
      rw [readLine, decode?_eq_some_iff.2 rfl]
      simp only [parseLine, trims_iff.1 htrims]
      rfl
  | @record _ _ _ _ _ _ terminal htrims hfields hflag =>
      rw [readLine, decode?_eq_some_iff.2 rfl]
      dsimp only
      rw [parseLine_of_four htrims hfields, hflag]
      cases terminal <;> rfl

theorem readLine_of_fault {e : ChainError} (h : LineFault number line e) :
    readLine now number line = .error e := by
  cases h with
  | noText hnone =>
      have hdecode : decode? line = none := by
        rw [Option.eq_none_iff_forall_ne_some]
        exact fun text htext => hnone text (decode?_eq_some_iff.1 htext)
      rw [readLine, hdecode]
  | fieldCount htrims hbody hfields hlen =>
      rw [readLine, decode?_eq_some_iff.2 rfl]
      dsimp only
      rw [parseLine_of_length_ne htrims hbody hfields hlen]
      rfl
  | flag htrims hfields hzero hone =>
      rw [readLine, decode?_eq_some_iff.2 rfl]
      dsimp only
      rw [parseLine_of_four htrims hfields, flag?_eq, if_neg hzero, if_neg hone]
      rfl

/-- Every line is accepted or has a fault. -/
theorem accepted_or_fault (number : Nat) (line : List UInt8) :
    Accepted line ∨ ∃ e, LineFault number line e := by
  by_cases htext : ∃ text, bytes text = line
  · obtain ⟨text, rfl⟩ := htext
    have htrims : Trims text (trimEnds text) := trims_iff.2 rfl
    have hfields : Fields (trimEnds text) (splitAt '\t' (trimEnds text)) := fields_iff.2 rfl
    generalize trimEnds text = body, splitAt '\t' (trimEnds text) = fs at htrims hfields
    by_cases hbody : body = ""
    · exact .inl ⟨_, _, rfl, htrims, .inl hbody⟩
    · by_cases hlen : fs.length = 4
      · match fs, hlen with
        | [a, b, word, flag], _ =>
            by_cases hflag : flag = "0" ∨ flag = "1"
            · exact .inl ⟨_, _, rfl, htrims, .inr ⟨a, b, word, flag, hfields, hflag⟩⟩
            · rw [not_or] at hflag
              exact .inr ⟨_, .flag htrims hfields hflag.1 hflag.2⟩
      · exact .inr ⟨_, .fieldCount htrims hbody hfields hlen⟩
  · exact .inr ⟨_, .noText fun text h => htext ⟨text, h⟩⟩

/-- A line is read as what it spells. -/
theorem readLine_eq_ok_iff {o : Option Record} :
    readLine now number line = .ok o ↔ SpellsLine now line o := by
  refine ⟨fun h => ?_, readLine_of_spells⟩
  obtain hline | ⟨e, he⟩ := accepted_or_fault number line
  · obtain ⟨o', ho'⟩ := (accepted_iff now).1 hline
    rw [readLine_of_spells ho'] at h
    exact Except.ok.inj h ▸ ho'
  · rw [readLine_of_fault he] at h
    cases h

/-- A line is refused for what is wrong with it. -/
theorem readLine_eq_error_iff {e : ChainError} :
    readLine now number line = .error e ↔ LineFault number line e := by
  refine ⟨fun h => ?_, readLine_of_fault⟩
  obtain hline | ⟨e', he'⟩ := accepted_or_fault number line
  · obtain ⟨o, ho⟩ := (accepted_iff now).1 hline
    rw [readLine_of_spells ho] at h
    cases h
  · rw [readLine_of_fault he'] at h
    exact Except.error.inj h ▸ he'

/-! ### The lines of a file -/

variable {ls : List (List UInt8)} {found rs : List Record}

/-- Lines are read where all of them are spelled, as what they spell. -/
theorem readLines_eq_ok_iff :
    readLines now number ls found = .ok rs ↔
      ∃ os, List.Forall₂ (SpellsLine now) ls os ∧ rs = found.reverse ++ os.reduceOption := by
  induction ls generalizing number found with
  | nil => simp [readLines, eq_comm]
  | cons line ls ih =>
      rw [readLines_cons]
      cases hline : readLine now number line with
      | error e =>
          refine iff_of_false (fun h => by cases h) ?_
          rintro ⟨os, hos, -⟩
          cases hos with
          | cons ho _ =>
              rw [readLine_of_spells ho] at hline
              cases hline
      | ok o =>
          have ho := readLine_eq_ok_iff.1 hline
          refine ih.trans ⟨?_, ?_⟩
          · rintro ⟨os, hos, rfl⟩
            exact ⟨o :: os, .cons ho hos, by cases o <;> simp [List.reduceOption_cons_of_some]⟩
          · rintro ⟨os, hos, rfl⟩
            cases hos with
            | @cons _ o' _ os ho' hos =>
                rw [readLine_of_spells ho'] at hline
                obtain rfl := Except.ok.inj hline
                exact ⟨os, hos, by cases o' <;> simp [List.reduceOption_cons_of_some]⟩

/-- Lines are refused for the first that is not spelled. -/
theorem readLines_eq_error_iff {e : ChainError} :
    readLines now number ls found = .error e ↔
      ∃ before line after, ls = before ++ line :: after ∧ (∀ l ∈ before, Accepted l) ∧
        LineFault (number + before.length) line e := by
  induction ls generalizing number found with
  | nil => simp [readLines]
  | cons line ls ih =>
      rw [readLines_cons]
      cases hline : readLine now number line with
      | error e' =>
          constructor
          · intro h
            obtain rfl := Except.error.inj h
            exact ⟨[], line, ls, rfl, List.forall_mem_nil _, readLine_eq_error_iff.1 hline⟩
          · rintro ⟨_ | ⟨l, before⟩, line', after, hls, hbefore, hfault⟩
            · obtain ⟨rfl, -⟩ := List.cons.inj hls
              exact congrArg _ (Except.error.inj (hline.symm.trans (readLine_of_fault hfault)))
            · obtain ⟨rfl, -⟩ := List.cons.inj hls
              obtain ⟨o, ho⟩ := (accepted_iff now).1 (hbefore line List.mem_cons_self)
              rw [readLine_of_spells ho] at hline
              cases hline
      | ok o =>
          refine ih.trans ⟨?_, ?_⟩
          · rintro ⟨before, line', after, rfl, hbefore, hfault⟩
            have hfirst : Accepted line := (accepted_iff now).2 ⟨o, readLine_eq_ok_iff.1 hline⟩
            refine ⟨line :: before, line', after, rfl,
              List.forall_mem_cons.2 ⟨hfirst, hbefore⟩, ?_⟩
            rwa [List.length_cons, Nat.add_comm before.length, ← Nat.add_assoc]
          · rintro ⟨_ | ⟨l, before⟩, line', after, hls, hbefore, hfault⟩
            · obtain ⟨rfl, -⟩ := List.cons.inj hls
              cases hline.symm.trans (readLine_of_fault hfault)
            · obtain ⟨rfl, rfl⟩ := List.cons.inj hls
              rw [List.length_cons, Nat.add_comm before.length, ← Nat.add_assoc] at hfault
              exact ⟨before, line', after, rfl, (List.forall_mem_cons.1 hbefore).2, hfault⟩

/-- Lines that are accepted spell something, each by itself. -/
theorem exists_spells_iff (now : Instant) :
    (∃ os, List.Forall₂ (SpellsLine now) ls os) ↔ ∀ l ∈ ls, Accepted l := by
  simp only [accepted_iff now]
  constructor
  · rintro ⟨os, hos⟩
    induction hos with
    | nil => exact List.forall_mem_nil _
    | cons ho _ ih => exact List.forall_mem_cons.2 ⟨⟨_, ho⟩, ih⟩
  · intro h
    induction ls with
    | nil => exact ⟨[], .nil⟩
    | cons l ls ih =>
        obtain ⟨⟨o, ho⟩, hls⟩ := List.forall_mem_cons.1 h
        obtain ⟨os, hos⟩ := ih hls
        exact ⟨o :: os, .cons ho hos⟩

/-! ### Files -/

variable {input : Input}

/-- A file is read where the grammar spells it, as the records that it spells. -/
theorem read_eq_ok_iff : read now input = .ok rs ↔ SpellsFile now input rs := by
  rw [read, SpellsFile]
  cases hlines : readLines now 1 input.rawLines [] with
  | error e =>
      refine iff_of_false (fun h => by cases h) ?_
      rintro ⟨-, h⟩
      rw [readLines_eq_ok_iff.2 h] at hlines
      cases hlines
  | ok rs' =>
      have hspells := readLines_eq_ok_iff.1 hlines
      cases input.failure with
      | some failure => exact iff_of_false (fun h => by cases h) fun h => by cases h.1
      | none =>
          constructor
          · intro h
            obtain rfl := Except.ok.inj h
            exact ⟨rfl, hspells⟩
          · rintro ⟨-, h⟩
            rw [readLines_eq_ok_iff.2 h] at hlines
            exact congrArg _ (Except.ok.inj hlines).symm

/-- A file is refused for the first line that is not accepted, or else for the device. -/
theorem read_eq_error_iff {e : ChainError} : read now input = .error e ↔ Stops input e := by
  have hstop : readLines now 1 input.rawLines [] = .error e ↔ ∃ before line after,
      input.rawLines = before ++ line :: after ∧ (∀ l ∈ before, Accepted l) ∧
        LineFault (before.length + 1) line e := by
    simp only [readLines_eq_error_iff, Nat.add_comm 1]
  rw [read]
  cases hlines : readLines now 1 input.rawLines [] with
  | error e' =>
      rw [hlines] at hstop
      refine hstop.trans ⟨?_, ?_⟩
      · rintro ⟨before, line, after, hsplit, hbefore, hfault⟩
        exact .line hsplit hbefore hfault
      · rintro (⟨hsplit, hbefore, hfault⟩ | ⟨hall, -⟩)
        · exact ⟨_, _, _, hsplit, hbefore, hfault⟩
        · obtain ⟨os, hos⟩ := (exists_spells_iff now).2 hall
          cases hlines.symm.trans (readLines_eq_ok_iff.2 ⟨os, hos, rfl⟩)
  | ok rs =>
      rw [hlines] at hstop
      obtain ⟨os, hos, -⟩ := readLines_eq_ok_iff.1 hlines
      have hall := (exists_spells_iff now).1 ⟨os, hos⟩
      constructor
      · intro h
        cases hfailure : input.failure with
        | none =>
            rw [hfailure] at h
            cases h
        | some failure =>
            rw [hfailure] at h
            obtain rfl := Except.error.inj h
            exact .device hall hfailure
      · rintro (⟨hsplit, hbefore, hfault⟩ | ⟨-, hfailure⟩)
        · cases hstop.2 ⟨_, _, _, hsplit, hbefore, hfault⟩
        · rw [hfailure]
          rfl

/-- The grammar spells a file where the device comes to the end and every line is accepted. -/
theorem exists_spellsFile_iff (now : Instant) :
    (∃ rs, SpellsFile now input rs) ↔ AcceptedFile input := by
  rw [AcceptedFile, ← exists_spells_iff now]
  constructor
  · rintro ⟨rs, hend, os, hos, -⟩
    exact ⟨hend, os, hos⟩
  · rintro ⟨hend, os, hos⟩
    exact ⟨_, hend, os, hos, rfl⟩

/-- What is wrong with the text of a line is reported with the number of the line. -/
theorem LineFault.message_eq {e : ChainError} (h : LineFault number line e) :
    e = .io .invalidText ∧ (¬ ∃ text, bytes text = line) ∨
      ∃ cause detail, e = .corrupt cause ∧
        cause.message = "line " ++ toString number ++ ": " ++ detail := by
  have hsplit {s t u : String} (h : s = t ++ u) (a b : String) :
      a ++ s ++ b = a ++ t ++ (u ++ b) := by
    rw [h, String.append_assoc, String.append_assoc, String.append_assoc]
  cases h with
  | noText hnone => exact .inl ⟨rfl, fun htext => htext.elim hnone⟩
  | fieldCount _ _ _ _ =>
      have hdetail : ": expected 4 fields, found " = ": " ++ "expected 4 fields, found " := by
        decide
      exact .inr ⟨_, _, rfl, hsplit hdetail _ _⟩
  | flag _ _ _ _ =>
      have hdetail : ": bad terminal flag " = ": " ++ "bad terminal flag " := by decide
      exact .inr ⟨_, _, rfl, hsplit hdetail _ _⟩

end TextFormat

theorem Graph.load_text_of_spells {now : Instant} {input : Input} {rs : List Record}
    (h : TextFormat.SpellsFile now input rs) :
    Graph.load .text now input = .ok (Graph.ofRecords rs) := by
  rw [Graph.load, readRecords, TextFormat.read_eq_ok_iff.2 h]
  rfl

namespace Generator

variable {env : Env} {g : Generator} {input : Input} {rs : List Record}

theorem load_text_of_spells (h : TextFormat.SpellsFile env.now input rs) :
    g.load env .text input =
      ({ g with graph := Graph.ofRecords rs }.sweep env).map fun r : Nat × Generator =>
        (.ok r.2.graph.count, r.2) := by
  rw [load, Graph.load_text_of_spells h, Option.map_eq_bind]
  rfl

theorem exists_load_text_of_spells (h : TextFormat.SpellsFile env.now input rs)
    (hroom : rs.length ≤ g.config.maxSize ∨ env.source.Selects ∧ rs.length < 2 ^ 64) :
    ∃ n g', g.load env .text input = some (.ok n, g') := by
  obtain ⟨r, hsweep⟩ := exists_sweep_ofRecords hroom
  rw [load_text_of_spells h, hsweep]
  exact ⟨_, _, rfl⟩

theorem load_text_of_stops {e : ChainError} (h : TextFormat.Stops input e) :
    g.load env .text input = some (.error e, g) := by
  rw [load, Graph.load, readRecords, TextFormat.read_eq_error_iff.2 h]
  rfl

/-- **A text file loads where each of its lines is accepted, and a load that fails changes
nothing.**  The lines of a file are what ends in newlines and, unless the device fails, a last
piece that does not and is not empty.  What is loaded, before the sweep, is the list of the spelled
records, created at the time of the load and grouped by prefixes; the load returns where the
sweep has nothing to draw, and else where selections do.  Any other file is refused for its first
line that is not accepted, in words that give the number of the line, or for a device that
fails. -/
theorem load_text_spec (env : Env) (g : Generator) (input : Input) :
    (∃ closed rest, (∀ line ∈ closed, 10 ∉ line) ∧ 10 ∉ rest ∧
      input.bytes = closed.flatMap (· ++ [10]) ++ rest ∧
      input.rawLines = closed ++ if rest = [] ∨ input.failure ≠ none then [] else [rest]) ∧
    (∀ r g', g.load env .text input = some (r, g') →
      ((∃ n, r = .ok n) ↔ TextFormat.AcceptedFile input)) ∧
    ((∃ rs, TextFormat.SpellsFile env.now input rs) ↔ TextFormat.AcceptedFile input) ∧
    (∀ rs, TextFormat.SpellsFile env.now input rs →
      Graph.load .text env.now input = .ok (Graph.ofRecords rs) ∧
      (Graph.ofRecords rs).records = grouped rs ∧
      g.load env .text input =
        ({ g with graph := Graph.ofRecords rs }.sweep env).map (fun r : Nat × Generator =>
          (.ok r.2.graph.count, r.2)) ∧
      (rs.length ≤ g.config.maxSize ∨ env.source.Selects ∧ rs.length < 2 ^ 64 →
        ∃ n g', g.load env .text input = some (.ok n, g'))) ∧
    (¬ TextFormat.AcceptedFile input → ∃ e, g.load env .text input = some (.error e, g)) ∧
    (∀ e g', g.load env .text input = some (.error e, g') ↔
      TextFormat.Stops input e ∧ g' = g) ∧
    ∀ number line e, TextFormat.LineFault number line e →
      e = .io .invalidText ∧ (¬ ∃ text, bytes text = line) ∨
        ∃ cause detail, e = .corrupt cause ∧
          cause.message = "line " ++ toString number ++ ": " ++ detail := by
  have hiff : (∃ rs, TextFormat.SpellsFile env.now input rs) ↔ TextFormat.AcceptedFile input :=
    TextFormat.exists_spellsFile_iff env.now
  refine ⟨input.exists_rawLines, ?_, hiff, ?_, ?_, ?_, fun _ _ _ h => h.message_eq⟩
  · intro r g' hload
    rw [← hiff]
    obtain ⟨rs, n, hread, -, rfl⟩ | ⟨e, hread, rfl, -⟩ := of_load hload
    · exact iff_of_true ⟨_, rfl⟩ ⟨rs, TextFormat.read_eq_ok_iff.1 hread⟩
    · refine iff_of_false (by rintro ⟨n, hn⟩; cases hn) ?_
      rintro ⟨rs, hrs⟩
      cases hread.symm.trans (TextFormat.read_eq_ok_iff.2 hrs)
  · intro rs hrs
    exact ⟨Graph.load_text_of_spells hrs, Graph.records_ofRecords rs, load_text_of_spells hrs,
      exists_load_text_of_spells hrs⟩
  · intro hnot
    cases hread : TextFormat.read env.now input with
    | ok rs => exact absurd (hiff.1 ⟨rs, TextFormat.read_eq_ok_iff.1 hread⟩) hnot
    | error e => exact ⟨e, load_text_of_stops (TextFormat.read_eq_error_iff.1 hread)⟩
  · intro e g'
    constructor
    · intro hload
      obtain ⟨rs, n, -, -, he⟩ | ⟨e', hread, he, rfl⟩ := of_load hload
      · cases he
      · obtain rfl := Except.error.inj he
        exact ⟨TextFormat.read_eq_error_iff.1 hread, rfl⟩
    · rintro ⟨hstops, rfl⟩
      exact load_text_of_stops hstops

/-- Two lines with a blank one between them hold records of one prefix in two spellings; a line
of one field is refused by its number. -/
theorem load_text_spec_three_lines :
    (∃ n g rs, (new {} 0).load ⟨Source.counter, 5⟩ .text
        ⟨bytes "a\tb\tc\t1\r\n\nA\tB\td\t0", none⟩ = some (.ok n, g) ∧
      TextFormat.SpellsFile 5 ⟨bytes "a\tb\tc\t1\r\n\nA\tB\td\t0", none⟩ rs ∧
      (Graph.ofRecords rs).records =
        [(⟨⟨"a"⟩, ⟨"b"⟩⟩, ⟨⟨"c"⟩, true, 5⟩), (⟨⟨"a"⟩, ⟨"b"⟩⟩, ⟨⟨"d"⟩, false, 5⟩)]) ∧
    (new {} 0).load ⟨Source.counter, 5⟩ .text ⟨bytes "\r\nx\na\tb\tc\t1", none⟩ =
      some (.error (.corrupt (.fieldCount 2 1)), new {} 0) := by
  constructor
  · have hlines : Input.rawLines ⟨bytes "a\tb\tc\t1\r\n\nA\tB\td\t0", none⟩ =
        [bytes "a\tb\tc\t1\r", bytes "", bytes "A\tB\td\t0"] := by
      decide
    have hspells : TextFormat.SpellsFile 5 ⟨bytes "a\tb\tc\t1\r\n\nA\tB\td\t0", none⟩
        [(⟨⟨"a"⟩, ⟨"b"⟩⟩, ⟨⟨"c"⟩, true, 5⟩), (⟨⟨"A"⟩, ⟨"B"⟩⟩, ⟨⟨"d"⟩, false, 5⟩)] := by
      have hfirst : TextFormat.Trims "a\tb\tc\t1\r" "a\tb\tc\t1" :=
        TextFormat.trims_iff.2 (by decide)
      have hlast : TextFormat.Trims "A\tB\td\t0" "A\tB\td\t0" :=
        TextFormat.trims_iff.2 (by decide)
      refine ⟨rfl, [some _, none, some _], ?_, rfl⟩
      rw [hlines]
      exact .cons (.record hfirst (TextFormat.fields_iff.2 (by decide)) rfl)
        (.cons (.blank (TextFormat.trims_iff.2 (by decide)))
        (.cons (.record hlast (TextFormat.fields_iff.2 (by decide)) rfl) .nil))
    obtain ⟨-, -, -, hloads, -⟩ := load_text_spec ⟨Source.counter, 5⟩ (new {} 0) ⟨bytes _, none⟩
    obtain ⟨-, hrecords, -, hreturns⟩ := hloads _ hspells
    obtain ⟨n, g, hload⟩ := hreturns (.inl (by decide))
    have hcase : (Prefix.mk ⟨"A"⟩ ⟨"B"⟩ == ⟨⟨"a"⟩, ⟨"b"⟩⟩) = true := by
      rw [Prefix.beq_iff_folded, Prefix.folded, Prefix.folded, Prod.mk.injEq,
        ← String.toList_inj, ← String.toList_inj]
      simp only [toList_fold]
      decide
    exact ⟨n, g, _, hload, hspells, hrecords.trans (by simp [grouped, List.eraseDups_cons, hcase])⟩
  · have hlines : Input.rawLines ⟨bytes "\r\nx\na\tb\tc\t1", none⟩ =
        [bytes "\r"] ++ bytes "x" :: [bytes "a\tb\tc\t1"] := by
      decide
    have hblank : ∀ l ∈ [bytes "\r"], TextFormat.Accepted l :=
      List.forall_mem_singleton.2 ⟨"\r", "", rfl, TextFormat.trims_iff.2 (by decide), .inl rfl⟩
    have hfault : TextFormat.LineFault 2 (bytes "x") (.corrupt (.fieldCount 2 1)) :=
      @TextFormat.LineFault.fieldCount 2 "x" "x" ["x"] (TextFormat.trims_iff.2 (by decide))
        (by decide) (TextFormat.fields_iff.2 (by decide)) (by decide)
    obtain ⟨-, -, -, -, -, hfails, -⟩ :=
      load_text_spec ⟨Source.counter, 5⟩ (new {} 0) ⟨bytes "\r\nx\na\tb\tc\t1", none⟩
    exact (hfails _ _).2 ⟨.line hlines hblank hfault, rfl⟩

end Generator

end ChainScript.Chain
