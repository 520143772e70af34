import ChainScript.Proofs.Format.Plain

/-!
# Streams and texts

A stream is cut into lines byte by byte, before anything is known of its characters, and drops
carriage returns where it finds them; a text is cut at its newlines and drops carriage returns from
every line.  The cuts are the same, because the byte of a newline stands for nothing else, and
carriage returns make no difference to the words of a line.  So what is learned from a stream is
what is learned from a text: from that of the lines that can be read, up to the first that is no
text.

## Main definitions

* `Input.outcome` — whether a stream is read to its end.

## Main results

* `newlinePieces_bytes` — the cuts of texts and of their bytes.
* `Generator.learnRaw_eq`, `Generator.addText_eq` — both sorts of learning, line by line.
* `Generator.reader_spec` — a stream is learned like the text of its lines.
-/

namespace ChainScript.Text

/-! ### Texts as lines -/

/-- The lines of a text are its pieces between newlines without carriage returns. -/
theorem lines_eq (text : String) : lines text = (splitAt '\n' text).map withoutReturn := by
  rw [lines, splitAt, List.map_map]
  refine List.map_congr_left fun cs _ => ?_
  rw [Function.comp_apply, Function.comp_apply, withoutReturn, String.toList_ofList]

theorem eq_empty_of_bytes_eq_nil {s : String} (h : bytes s = []) : s = "" := by
  have hdecode : decode? (bytes s) = decode? (bytes "") := congrArg decode? h
  rw [decode?_eq_some_iff.2 rfl, decode?_eq_some_iff.2 rfl] at hdecode
  exact Option.some.inj hdecode

end ChainScript.Text

namespace ChainScript.Chain

open Text

/-! ### Bytes as lines -/

/-- Bytes are lines that end in newlines and a rest without one. -/
theorem exists_newlinePieces (bs : List UInt8) :
    ∃ closed rest, newlinePieces bs = closed ++ [rest] ∧
      bs = closed.flatMap (· ++ [10]) ++ rest := by
  induction bs with
  | nil => exact ⟨[], [], rfl, rfl⟩
  | cons b bs ih =>
      obtain ⟨closed, rest, hpieces, rfl⟩ := ih
      by_cases hb : b = 10
      · have hstep : newlinePieces (b :: (closed.flatMap (· ++ [10]) ++ rest)) =
            [] :: newlinePieces (closed.flatMap (· ++ [10]) ++ rest) := if_pos hb
        exact ⟨[] :: closed, rest, by rw [hstep, hpieces]; rfl, by rw [hb]; rfl⟩
      · have hstep : newlinePieces (b :: (closed.flatMap (· ++ [10]) ++ rest)) =
            (newlinePieces (closed.flatMap (· ++ [10]) ++ rest)).modifyHead (b :: ·) := if_neg hb
        cases closed with
        | nil => exact ⟨[], b :: rest, by rw [hstep, hpieces]; rfl, rfl⟩
        | cons line closed =>
            exact ⟨(b :: line) :: closed, rest, by rw [hstep, hpieces]; rfl, rfl⟩

/-- The lines that can be read in full: those that end in newlines and, where the stream ends as
such, the rest if it is not empty. -/
theorem Input.exists_rawLines (input : Input) :
    ∃ closed rest, (∀ line ∈ closed, 10 ∉ line) ∧ 10 ∉ rest ∧
      input.bytes = closed.flatMap (· ++ [10]) ++ rest ∧
      input.rawLines = closed ++ if rest = [] ∨ input.failure ≠ none then [] else [rest] := by
  obtain ⟨closed, rest, hpieces, hbytes⟩ := exists_newlinePieces input.bytes
  have hnewline : ∀ line ∈ closed ++ [rest], 10 ∉ line := fun line hline =>
    newline_not_mem_of_mem_newlinePieces (hpieces ▸ hline)
  refine ⟨closed, rest, fun line hline => hnewline line (List.mem_append_left _ hline),
    hnewline rest (by simp), hbytes, ?_⟩
  have hopen : input.failure.isSome = true ∨ rest = [] ↔ rest = [] ∨ input.failure ≠ none := by
    rw [or_comm, Option.isSome_iff_ne_none]
  simp only [rawLines, hpieces, List.getLast?_concat, List.dropLast_concat, Option.some.injEq,
    Bool.or_eq_true, decide_eq_true_eq, hopen]
  split <;> simp

/-- The byte of a newline belongs to no other character. -/
theorem newline_not_mem_utf8EncodeChar {c : Char} (hc : c ≠ '\n') :
    10 ∉ String.utf8EncodeChar c := by
  have hiff := mem_bytes_newline (s := String.ofList [c])
  rw [bytes_eq, String.toList_ofList, List.flatMap_singleton, List.mem_singleton] at hiff
  exact fun h => hc (hiff.1 h).symm

/-- Bytes without a newline go in front of the first piece. -/
theorem newlinePieces_append {bs : List UInt8} (h : 10 ∉ bs) (rest : List UInt8) :
    newlinePieces (bs ++ rest) = (newlinePieces rest).modifyHead (bs ++ ·) := by
  induction bs with
  | nil => exact (congrFun List.modifyHead_id _).symm
  | cons b bs ih =>
      obtain ⟨hb, hbs⟩ := not_or.1 (mt List.mem_cons.2 h)
      have hstep : newlinePieces (b :: (bs ++ rest)) =
          (newlinePieces (bs ++ rest)).modifyHead (b :: ·) := if_neg (Ne.symm hb)
      rw [List.cons_append, hstep, ih hbs, List.modifyHead_modifyHead]
      rfl

/-- The bytes of a text are cut where the text is. -/
theorem newlinePieces_bytes (text : String) :
    newlinePieces (bytes text) = (splitAt '\n' text).map bytes := by
  have hcut : ∀ cs : List Char, newlinePieces (cs.flatMap String.utf8EncodeChar) =
      (piecesBy (· == '\n') cs).map (List.flatMap String.utf8EncodeChar) := by
    intro cs
    induction cs with
    | nil => rfl
    | cons c cs ih =>
        rw [List.flatMap_cons, piecesBy_cons]
        by_cases hc : c = '\n'
        · have hstep : newlinePieces (10 :: cs.flatMap String.utf8EncodeChar) =
              [] :: newlinePieces (cs.flatMap String.utf8EncodeChar) := rfl
          have henc : String.utf8EncodeChar c = [10] := by rw [hc]; decide
          rw [henc, List.singleton_append, hstep, ih, if_pos (by simp [hc])]
          rfl
        · rw [newlinePieces_append (newline_not_mem_utf8EncodeChar hc), ih,
            if_neg (by simpa using hc)]
          cases piecesBy (· == '\n') cs with
          | nil => rfl
          | cons piece pieces => rfl
  rw [bytes_eq, hcut, splitAt, List.map_map]
  refine List.map_congr_left fun cs _ => ?_
  rw [Function.comp_apply, bytes_eq, String.toList_ofList]

/-! ### Lines that can be read -/

/-- The lines that can be read are those before the first that is no text. -/
theorem map_bytes_readable (ls : List (List UInt8)) :
    (readable ls).map bytes = ls.takeWhile fun line => (decode? line).isSome := by
  induction ls with
  | nil => rfl
  | cons line ls ih =>
      rw [readable]
      cases hdecode : decode? line with
      | none => rw [List.takeWhile_cons_of_neg (by simp [hdecode]), List.map_nil]
      | some text =>
          rw [List.takeWhile_cons_of_pos (by simp [hdecode]), List.map_cons, ih,
            decode?_eq_some_iff.1 hdecode]

theorem readable_map_bytes (ls : List String) : readable (ls.map bytes) = ls := by
  induction ls with
  | nil => rfl
  | cons line ls ih =>
      have hdecode : decode? (bytes line) = some line := decode?_eq_some_iff.2 rfl
      rw [List.map_cons, readable, hdecode]
      exact congrArg (line :: ·) ih

theorem newline_not_mem_of_mem_readable {input : Input} {line : String}
    (h : line ∈ readable input.rawLines) : '\n' ∉ line.toList := by
  have hmem : bytes line ∈ (readable input.rawLines).map bytes := List.mem_map_of_mem h
  rw [map_bytes_readable] at hmem
  rw [← mem_bytes_newline]
  exact newline_not_mem_of_mem_rawLines ((List.takeWhile_sublist _).mem hmem)

/-- Whether a stream is read to its end: not where a line is no text, nor where the device
fails. -/
def Input.outcome (input : Input) : Except ChainError Unit :=
  if ∃ line ∈ input.rawLines, decode? line = none then .error (.io .invalidText)
  else
    match input.failure with
    | some failure => .error (.io (.device failure.reason))
    | none => .ok ()

theorem Input.outcome_eq_ok_iff {input : Input} :
    input.outcome = .ok () ↔
      (∀ line ∈ input.rawLines, decode? line ≠ none) ∧ input.failure = none := by
  rw [outcome]
  split
  · next h =>
    obtain ⟨line, hline, hnone⟩ := h
    exact iff_of_false nofun fun hall => hall.1 line hline hnone
  · next h =>
    have hall : ∀ line ∈ input.rawLines, decode? line ≠ none := by simpa using h
    cases input.failure with
    | none => exact iff_of_true rfl ⟨hall, rfl⟩
    | some failure => exact iff_of_false nofun fun hfail => nomatch hfail.2

namespace Generator

variable (env : Env) (g : Generator)

/-! ### Line by line -/

/-- A text is learned line by line, whatever carriage returns the lines end in. -/
theorem addText_eq (text : String) :
    g.addText env text = (splitAt '\n' text).foldlM (learnLine env) g := by
  rw [addText, lines_eq, List.foldlM_map]
  simp only [learnLine_withoutReturn]

/-- Raw lines are learned line by line, up to the first that is no text. -/
theorem learnRaw_eq (endsOpen : Bool) (ls : List (List UInt8)) :
    g.learnRaw env endsOpen ls = ((readable ls).foldlM (learnLine env) g).map fun g' =>
      (if ∃ line ∈ ls, decode? line = none then .error (.io .invalidText) else .ok (), g') := by
  induction ls generalizing g with
  | nil => simp [learnRaw, readable]
  | cons line ls ih =>
      rw [learnRaw_cons, readable]
      cases hdecode : decode? line with
      | none => simp [hdecode]
      | some text =>
          dsimp only
          rw [List.foldlM_cons]
          cases g.learnLine env text with
          | none => rfl
          | some g₁ => simpa [hdecode] using ih g₁

/-- Lines are learned like the text that they make with newlines between them. -/
theorem addText_intercalate {ls : List String} (h : ∀ l ∈ ls, '\n' ∉ l.toList) :
    g.addText env ("\n".intercalate ls) = ls.foldlM (learnLine env) g := by
  rw [addText_eq]
  cases ls with
  | nil => rfl
  | cons l ls => rw [splitAt_intercalate rfl (List.cons_ne_nil l ls) h]

/-- A stream is learned like the text of the lines that can be read. -/
theorem addReader_eq (input : Input) :
    g.addReader env input =
      (g.addText env ("\n".intercalate (readable input.rawLines))).map (input.outcome, ·) := by
  rw [addText_intercalate env g fun _ => newline_not_mem_of_mem_readable, addReader, learnRaw_eq]
  cases (readable input.rawLines).foldlM (learnLine env) g with
  | none => rfl
  | some g' =>
      rw [Option.map_some, Option.map_some, Input.outcome]
      split
      · rfl
      · cases input.failure <;> rfl

/-- The lines of the bytes of a text are its pieces between newlines, an empty last one left
out. -/
theorem exists_rawLines_bytes (text : String) :
    ∃ ls : List String, Input.rawLines ⟨bytes text, none⟩ = ls.map bytes ∧
      (splitAt '\n' text = ls ∨ splitAt '\n' text = ls ++ [""]) := by
  have hpieces := newlinePieces_bytes text
  obtain hnil | ⟨ls, last, hsplit⟩ := (splitAt '\n' text).eq_nil_or_concat
  · exact absurd (List.map_eq_nil_iff.1 hnil) (piecesBy_ne_nil _ _)
  · rw [List.concat_eq_append] at hsplit
    rw [hsplit, List.map_append, List.map_singleton] at hpieces
    by_cases hlast : bytes last = []
    · refine ⟨ls, ?_, .inr (by rw [hsplit, eq_empty_of_bytes_eq_nil hlast])⟩
      simp [Input.rawLines, hpieces, hlast]
    · exact ⟨ls ++ [last], by simp [Input.rawLines, hpieces, hlast], .inl hsplit⟩

/-- A text is learned from the stream of its bytes. -/
theorem addReader_bytes (text : String) :
    g.addReader env ⟨bytes text, none⟩ = (g.addText env text).map (.ok (), ·) := by
  obtain ⟨ls, hraw, hsplit⟩ := exists_rawLines_bytes text
  have houtcome : Input.outcome ⟨bytes text, none⟩ = .ok () := by
    rw [Input.outcome_eq_ok_iff, hraw, List.forall_mem_map]
    refine ⟨fun line _ => ?_, rfl⟩
    rw [decode?_eq_some_iff.2 rfl]
    exact Option.some_ne_none line
  have hlearned : ls.foldlM (learnLine env) g = g.addText env text := by
    rw [addText_eq]
    obtain hsplit | hsplit := hsplit
    · rw [hsplit]
    · rw [hsplit, List.foldlM_append]
      -- A line without words teaches nothing.
      cases ls.foldlM (learnLine env) g <;> rfl
  have hreadable : readable (Input.rawLines ⟨bytes text, none⟩) = ls := by
    rw [hraw, readable_map_bytes]
  have hnewline : ∀ line ∈ ls, '\n' ∉ line.toList := by
    rw [← hreadable]
    exact fun _ => newline_not_mem_of_mem_readable
  rw [addReader_eq, houtcome, hreadable, addText_intercalate env g hnewline, hlearned]

/-- **A stream is learned like a text, also where it fails.**  The lines of a stream are what ends
in newlines and, unless the device fails, a last piece that does not and is not empty.  Whatever
the bytes and whatever was learned before, a stream leaves the generator that the text of the
lines before the first that is no text leaves, words in the same order with the same evictions;
it fails just where some line is no text or the device fails.  So the bytes of a text are learned
like the text, however its lines end. -/
theorem reader_spec (input : Input) :
    (∃ closed rest, (∀ line ∈ closed, 10 ∉ line) ∧ 10 ∉ rest ∧
      input.bytes = closed.flatMap (· ++ [10]) ++ rest ∧
      input.rawLines = closed ++ if rest = [] ∨ input.failure ≠ none then [] else [rest]) ∧
    (readable input.rawLines).map bytes =
      input.rawLines.takeWhile (fun line => (decode? line).isSome) ∧
    (∃ outcome, g.addReader env input =
        (g.addText env ("\n".intercalate (readable input.rawLines))).map (outcome, ·) ∧
      ((∃ e, outcome = .error e) ↔
        (∃ line ∈ input.rawLines, decode? line = none) ∨ input.failure ≠ none)) ∧
    ∀ text, g.addReader env ⟨bytes text, none⟩ = (g.addText env text).map (.ok (), ·) := by
  refine ⟨input.exists_rawLines, map_bytes_readable _,
    ⟨input.outcome, addReader_eq env g input, ?_⟩, addReader_bytes env g⟩
  have hfails : (∃ e, input.outcome = .error e) ↔ ¬ input.outcome = .ok () := by
    cases input.outcome <;> simp
  rw [hfails, Input.outcome_eq_ok_iff, not_and_or]
  simp

end Generator

end ChainScript.Chain
