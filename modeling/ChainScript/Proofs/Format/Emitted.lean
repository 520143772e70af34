import ChainScript.Chain.Emission
import ChainScript.Proofs.Binary.Alike
import ChainScript.Proofs.Format.Plain
import ChainScript.Proofs.Generator.Learned

/-!
# What reaches a device

However a graph is cut into writes, and however a device cuts these again, the device takes the
first bytes of the file for which it has room.  The writes succeed where it has room for the whole
file; elsewhere the device's failure comes out of whichever write met it.

## Main definitions

* `Device.Holds`, `Device.receive` — the device has room for bytes, and what it takes of them.
* `Emits` — the bytes that a computation writes, and its result on a device with room for them.

## Main results

* `Emits.bind`, `emits_writeAll` — sequences of computations, and bytes that are written in full.
* `Graph.emits_emit` — a graph is written as it is rendered.
* `Generator.limited_store_spec` — a device with limited room.
-/

namespace ChainScript

namespace Chain

open Text

/-! ### Room -/

namespace Device

/-- The device has room for so many bytes. -/
def Holds (d : Device) (n : Nat) : Prop := ∀ k ∈ d.room, n ≤ k

instance (d : Device) (n : Nat) : Decidable (d.Holds n) :=
  inferInstanceAs (Decidable (∀ k ∈ d.room, n ≤ k))

/-- The device after it has taken those of the bytes for which it has room. -/
def receive (d : Device) (bs : List UInt8) : Device := d.take (bs.take (d.room.getD bs.length))

variable {d : Device} {as bs : List UInt8}

theorem holds_zero (d : Device) : d.Holds 0 := fun _ _ => Nat.zero_le _

theorem receive_nil (d : Device) : d.receive [] = d := by
  obtain ⟨taken, room, reason, portion, hpos⟩ := d
  cases room <;> simp [receive, take]

theorem receive_of_holds (h : d.Holds bs.length) : d.receive bs = d.take bs := by
  obtain ⟨taken, room, reason, portion, hpos⟩ := d
  cases room with
  | none => simp [receive]
  | some k => rw [receive, Option.getD_some, List.take_of_length_le (h k rfl)]

theorem reason_receive (d : Device) (bs : List UInt8) : (d.receive bs).reason = d.reason := rfl

theorem receive_append (d : Device) (as bs : List UInt8) :
    d.receive (as ++ bs) = (d.receive as).receive bs := by
  obtain ⟨taken, room, reason, portion, hpos⟩ := d
  cases room with
  | none => simp [receive, take]
  | some k =>
      have hroom : k - min k as.length = k - as.length := by omega
      simp only [receive, take, Option.getD_some, Option.map_some, List.take_append,
        List.length_take, List.length_append, List.append_assoc, hroom]
      congr 2
      omega

theorem holds_append_iff : d.Holds (as ++ bs).length ↔
    d.Holds as.length ∧ (d.receive as).Holds bs.length := by
  obtain ⟨taken, room, reason, portion, hpos⟩ := d
  cases room with
  | none => simp [Holds, receive, take]
  | some k =>
      simp only [Holds, receive, take, Option.getD_some, Option.map_some, Option.mem_def,
        Option.some.injEq, forall_eq', List.length_append, List.length_take]
      omega

/-- A device without room takes nothing. -/
theorem receive_of_full (h : d.room = some 0) (bs : List UInt8) : d.receive bs = d := by
  obtain ⟨taken, room, reason, portion, hpos⟩ := d
  obtain rfl : room = some 0 := h
  simp [receive, take]

/-- Where not all bytes have room, those behind them have none. -/
theorem receive_append_of_not_holds (h : ¬ d.Holds as.length) :
    d.receive (as ++ bs) = d.receive as := by
  obtain ⟨taken, room, reason, portion, hpos⟩ := d
  cases room with
  | none => simp [Holds] at h
  | some k =>
      have hless : k < as.length := by simpa [Holds] using h
      rw [receive, receive, Option.getD_some, Option.getD_some,
        List.take_append_of_le_length hless.le]

section OfSink

variable {sink : Sink} {portion : Nat → Nat} {hpos : ∀ n, 0 < portion n}

theorem taken_receive_ofSink :
    ((ofSink sink portion hpos).receive bs).taken = sink.takes bs := by
  cases sink <;> simp [receive, take, ofSink, Sink.takes]

theorem holds_ofSink_iff :
    (ofSink sink portion hpos).Holds bs.length ↔ sink.failure? bs = none := by
  cases sink <;> simp [Holds, ofSink, Sink.failure?]

theorem reason_ofSink {reason : String} (h : sink.failure? bs = some reason) :
    (ofSink sink portion hpos).reason = reason := by
  cases sink with
  | unlimited => cases h
  | limited capacity reason' =>
      rw [Sink.failure?] at h
      split at h
      · exact Option.some.inj h
      · cases h

end OfSink

end Device

/-! ### What a computation writes -/

/-- The computation writes the bytes, as far as the device has room for them.  Where it has, the
computation ends with the result; elsewhere it ends with the failure of the device. -/
def Emits {α : Type} (m : Emission α) (bs : List UInt8) (r : Except ChainError α) : Prop :=
  ∀ d : Device, m.run d =
    (if d.Holds bs.length then r else .error (.io (.device d.reason)), d.receive bs)

section Emits

variable {α β : Type} {m : Emission α} {k : α → Emission β} {as bs : List UInt8}

theorem emits_pure (a : α) : Emits (pure a) [] (.ok a) := by
  intro d
  rw [d.receive_nil, List.length_nil, if_pos d.holds_zero]
  rfl

theorem emits_throw (e : ChainError) : Emits (throw e : Emission α) [] (.error e) := by
  intro d
  rw [d.receive_nil, List.length_nil, if_pos d.holds_zero]
  rfl

theorem run_bind (m : Emission α) (k : α → Emission β) (d : Device) : (m >>= k).run d =
    match m.run d with
    | (.ok a, d') => (k a).run d'
    | (.error e, d') => (.error e, d') := by
  change ExceptT.bindCont k (m.run d).1 (m.run d).2 = _
  match m.run d with
  | (.ok a, d') => rfl
  | (.error e, d') => rfl

theorem Emits.bind {a : α} {r : Except ChainError β} (hm : Emits m as (.ok a))
    (hk : Emits (k a) bs r) : Emits (m >>= k) (as ++ bs) r := by
  intro d
  rw [run_bind, hm d]
  by_cases h : d.Holds as.length
  · rw [if_pos h]
    refine (hk (d.receive as)).trans ?_
    rw [d.receive_append, Device.reason_receive]
    simp only [Device.holds_append_iff, h, true_and]
  · rw [if_neg h, if_neg fun hall => h (Device.holds_append_iff.1 hall).1,
      Device.receive_append_of_not_holds h]

/-- A computation that fails is not gone on with. -/
theorem Emits.bind_error {e : ChainError} (hm : Emits m as (.error e)) :
    Emits (m >>= k) as (.error e) := by
  intro d
  rw [run_bind, hm d]
  by_cases h : d.Holds as.length
  · simp only [if_pos h]
  · simp only [if_neg h]

theorem Emits.congr {r : Except ChainError α} (hm : Emits m as r) (h : as = bs) :
    Emits m bs r := h ▸ hm

/-- What a computation answers that may be stopped by a fault. -/
def resultOf (fault : Option IoFault) (a : α) : Except ChainError α :=
  match fault with
  | none => .ok a
  | some fault => .error (.io fault)

theorem Emits.answer {m : Emission Unit} {fault : Option IoFault}
    (hm : Emits m bs (resultOf fault ())) (a : α) :
    Emits (m >>= fun _ => pure a) bs (resultOf fault a) := by
  cases fault with
  | none => exact (hm.bind (emits_pure a)).congr (List.append_nil bs)
  | some fault => exact hm.bind_error

theorem emits_forM {f : α → Emission PUnit} {write : α → List UInt8} {xs : List α}
    (hf : ∀ a ∈ xs, Emits (f a) (write a) (.ok ())) :
    Emits (xs.forM f) (xs.flatMap write) (.ok ()) := by
  induction xs with
  | nil => exact emits_pure ()
  | cons a xs ih =>
      obtain ⟨ha, hxs⟩ := List.forall_mem_cons.1 hf
      exact ha.bind (ih hxs)

end Emits

/-! ### Bytes in full -/

section WriteAll

variable {d : Device} (b : UInt8) (bs : List UInt8)

theorem run_write_of_full (h : d.room = some 0) :
    (Device.write (b :: bs)).run d = (.error (.io (.device d.reason)), d) :=
  if_pos ⟨List.cons_ne_nil _ _, h⟩

/-- A write to a device with room takes one byte at least, and no more than it has room for. -/
theorem exists_run_write (h : d.room ≠ some 0) :
    ∃ n, (Device.write (b :: bs)).run d = (.ok (n + 1), d.take ((b :: bs).take (n + 1))) ∧
      d.Holds ((b :: bs).take (n + 1)).length := by
  have hpos : 0 < d.accepted (b :: bs) := by
    have hportion := d.portion_pos d.taken.length
    cases hroom : d.room with
    | none =>
        simp only [Device.accepted, hroom, Option.getD_none, List.length_cons]
        omega
    | some k =>
        have hk : k ≠ 0 := fun hzero => h (hzero ▸ hroom)
        simp only [Device.accepted, hroom, Option.getD_some, List.length_cons]
        omega
  obtain ⟨n, hn⟩ := Nat.exists_eq_add_one.2 hpos
  have hwrite : (Device.write (b :: bs)).run d =
      (.ok (d.accepted (b :: bs)), d.take ((b :: bs).take (d.accepted (b :: bs)))) :=
    if_neg fun hfull => h hfull.2
  refine ⟨n, hn ▸ hwrite, fun k hk => ?_⟩
  have hk : d.room = some k := hk
  rw [← hn, Device.accepted, hk, Option.getD_some, List.length_take]
  omega

/-- **Bytes are written in full.**  Whatever the device takes of each write, it takes all of the
bytes or as many as it has room for. -/
theorem emits_writeAll (bs : List UInt8) : Emits (writeAll bs) bs (.ok ()) := by
  induction bs using writeAll.induct with
  | case1 =>
      rw [writeAll]
      exact emits_pure ()
  | case2 b bs ih =>
      intro d
      by_cases hfull : d.room = some 0
      · have hnot : ¬ d.Holds (b :: bs).length := fun h => absurd (h 0 hfull) (by simp)
        rw [writeAll, run_bind, run_write_of_full b bs hfull, if_neg hnot, d.receive_of_full hfull]
      · obtain ⟨n, hwrite, hholds⟩ := exists_run_write b bs hfull
        have hsplit : (b :: bs).take (n + 1) ++ bs.drop n = b :: bs := by
          rw [← List.drop_succ_cons (a := b), List.take_append_drop]
        have hrest : d.Holds ((b :: bs).take (n + 1) ++ bs.drop n).length ↔
            (d.receive ((b :: bs).take (n + 1))).Holds (bs.drop n).length :=
          Device.holds_append_iff.trans (and_iff_right hholds)
        rw [hsplit] at hrest
        rw [writeAll, run_bind, hwrite]
        refine (ih n (d.take ((b :: bs).take (n + 1)))).trans ?_
        rw [← Device.receive_of_holds hholds, ← Device.receive_append, hsplit,
          Device.reason_receive]
        simp only [hrest]

end WriteAll

theorem emits_writePieces (pieces : List String) :
    Emits (writePieces pieces) (bytes (String.join pieces)) (.ok ()) := by
  have hbytes : bytes (String.join pieces) = pieces.flatMap bytes := by
    induction pieces with
    | nil => rfl
    | cons s pieces ih => rw [String.join_cons, bytes_append, ih, List.flatMap_cons]
  rw [hbytes]
  exact emits_forM fun s _ => emits_writeAll (bytes s)

/-! ### The formats -/

theorem TextFormat.emits_emit (rs : List Record) : Emits (emit rs) (write rs) (.ok ()) := by
  refine emits_forM fun r _ => (emits_writePieces _).congr ?_
  rw [Function.comp_apply, writeRecord]
  simp [String.append_assoc]

theorem DotFormat.emits_emitEdge (g : Graph) (e : Edge) (stroke : Stroke) :
    Emits (emitEdge g e stroke) (bytes (edgeLine g e stroke)) (.ok ()) := by
  have hline : edgeLine g e stroke = String.join ["  \"", escape (nodeLabel e.source), "\" -> \"",
      escape (nodeLabel ((g.key? (e.source.shift e.word)).getD (e.source.shift e.word))),
      "\" [label=\"", escape e.word.text, "\", weight=", toString stroke.weight] ++
      (String.join (if stroke.bold then [", style=bold"] else []) ++ String.join ["];\n"]) := by
    rw [edgeLine, ← String.toList_inj]
    cases stroke.bold <;> simp [quoted]
  rw [hline, bytes_append, bytes_append]
  exact (emits_writePieces _).bind ((emits_writePieces _).bind (emits_writePieces _))

theorem DotFormat.emits_emit (g : Graph) : Emits (emit g) (write g) (.ok ()) := by
  have hwrite : write g = bytes "digraph markov \x7b\n" ++ (bytes "  node [shape=box];\n" ++
      (((edges g.records).entries.flatMap fun e => bytes (edgeLine g e.1 e.2)) ++
        bytes "\x7d\n")) := by
    simp [write, drawing, List.flatMap_map]
  rw [hwrite]
  exact (emits_writePieces _).bind ((emits_writePieces _).bind
    ((emits_forM fun e _ => emits_emitEdge g e.1 e.2).bind (emits_writePieces _)))

namespace BinaryFormat

theorem emits_emitWord {w : Word} (h : fits w = true) :
    Emits (emitWord w) (encodeWord w) (.ok ()) := by
  have hlength : (bytes w.text).length ≤ maxWordSize := of_decide_eq_true h
  rw [emitWord, if_pos hlength]
  exact (emits_writeAll _).bind (emits_writeAll _)

theorem emits_emitWord_of_not_fits {w : Word} (h : fits w = false) :
    Emits (emitWord w) [] (.error (.io (.wordTooLong (bytes w.text).length))) := by
  rw [emitWord, if_neg (of_decide_eq_false h)]
  exact emits_throw _

/-- Words are written up to the first that does not fit. -/
theorem emits_words (ws : List Word) : Emits (ws.forM emitWord)
    ((ws.takeWhile fits).flatMap encodeWord)
    (resultOf ((ws.dropWhile fits).head?.map fun w => .wordTooLong (bytes w.text).length) ()) := by
  induction ws with
  | nil => exact emits_pure ()
  | cons w ws ih =>
      cases hw : fits w with
      | true =>
          rw [List.takeWhile_cons_of_pos hw, List.dropWhile_cons_of_pos hw, List.flatMap_cons]
          exact (emits_emitWord hw).bind ih
      | false =>
          rw [List.takeWhile_cons_of_neg (by simp [hw]), List.dropWhile_cons_of_neg (by simp [hw])]
          exact (emits_emitWord_of_not_fits hw).bind_error

theorem emits_emitRecord {r : Record} (h : (wordsOf r).all fits = true) :
    Emits (emitRecord r) (encodeRecord r) (.ok ()) := by
  have hwords := emits_words (wordsOf r)
  rw [List.takeWhile_eq_self_iff.2 (List.all_eq_true.1 h),
    List.dropWhile_eq_nil_iff.2 (List.all_eq_true.1 h)] at hwords
  exact hwords.bind ((emits_writeAll _).bind (emits_writeAll _))

/-- Of a record with a word that does not fit, the words before that one are written. -/
theorem exists_emits_emitRecord {r : Record} (h : (wordsOf r).all fits = false) :
    ∃ fault, (writeUnfit r).2 = some fault ∧
      Emits (emitRecord r) (writeUnfit r).1 (.error (.io fault)) := by
  have hwords := emits_words (wordsOf r)
  rw [writeUnfit, drop_length_takeWhile]
  cases hrest : (wordsOf r).dropWhile fits with
  | nil =>
      rw [List.dropWhile_eq_nil_iff, ← List.all_eq_true, h] at hrest
      cases hrest
  | cons w ws =>
      rw [hrest] at hwords
      exact ⟨_, rfl, hwords.bind_error⟩

theorem emits_records (rs : List Record) : Emits (rs.forM emitRecord)
    ((fitting rs).flatMap encodeRecord ++ (writeRest (rs.drop (fitting rs).length)).1)
    (resultOf (writeRest (rs.drop (fitting rs).length)).2 ()) := by
  induction rs with
  | nil => exact emits_pure ()
  | cons r rs ih =>
      cases hr : (wordsOf r).all fits with
      | true =>
          have hfitting : fitting (r :: rs) = r :: fitting rs := List.takeWhile_cons_of_pos hr
          rw [hfitting, List.flatMap_cons, List.append_assoc, List.length_cons, List.drop_succ_cons]
          exact (emits_emitRecord hr).bind ih
      | false =>
          have hfitting : fitting (r :: rs) = [] := List.takeWhile_cons_of_neg (by simp [hr])
          obtain ⟨fault, hfault, hemits⟩ := exists_emits_emitRecord hr
          rw [hfitting, List.length_nil, List.drop_zero, writeRest, hfault]
          exact hemits.bind_error

theorem emits_emit (count : Nat) (rs : List Record) :
    Emits (emit count rs) (write count rs).1 (resultOf (write count rs).2 ()) := by
  rw [write_eq, header, List.append_assoc, List.append_assoc, List.append_assoc]
  exact (emits_writeAll _).bind ((emits_writeAll _).bind ((emits_writeAll _).bind
    (emits_records rs)))

end BinaryFormat

/-! ### Graphs -/

/-- **A graph is written as it is rendered.** -/
theorem Graph.emits_emit (g : Graph) (format : Format) : Emits (g.emit format)
    (g.render format).bytes (resultOf (g.render format).fault g.count) := by
  cases format with
  | text =>
      have htext : Emits (TextFormat.emit g.records) _ (resultOf none ()) :=
        TextFormat.emits_emit g.records
      exact htext.answer g.count
  | binary => exact (BinaryFormat.emits_emit g.count g.records).answer g.count
  | dot =>
      have hdot : Emits (DotFormat.emit g) _ (resultOf none ()) := DotFormat.emits_emit g
      exact hdot.answer g.count

/-- Written to a device, a graph leaves there what the sink takes of the file, and ends as storing
it ends. -/
theorem Graph.run_emit_ofSink (g : Graph) (format : Format) (sink : Sink) (portion : Nat → Nat)
    (hpos : ∀ n, 0 < portion n) :
    ((g.emit format).run (.ofSink sink portion hpos)).1 = (g.store format sink).outcome ∧
      ((g.emit format).run (.ofSink sink portion hpos)).2.taken = (g.store format sink).taken := by
  rw [g.emits_emit format]
  refine ⟨?_, Device.taken_receive_ofSink⟩
  rw [Graph.store]
  cases hfailure : sink.failure? (g.render format).bytes with
  | none =>
      simp only [if_pos (Device.holds_ofSink_iff.2 hfailure)]
      cases (g.render format).fault <;> rfl
  | some reason =>
      have hnot : ¬ (Device.ofSink sink portion hpos).Holds (g.render format).bytes.length :=
        fun h => by simp [Device.holds_ofSink_iff.1 h] at hfailure
      simp only [if_neg hnot, Device.reason_ofSink hfailure]

/-- A graph is rendered whole, but for words in a binary file that are too long. -/
theorem Graph.fault_render {g : Graph} {format : Format} (hfits : format = .binary →
    ∀ r ∈ g.records, ∀ w ∈ BinaryFormat.wordsOf r, (bytes w.text).length ≤ 65535) :
    (g.render format).fault = none := by
  cases format with
  | text | dot => rfl
  | binary =>
      refine (BinaryFormat.write_fault_iff g.count).2 fun r hr => ?_
      rw [List.all_eq_true]
      exact fun w hw => decide_eq_true (hfits rfl r hr w hw)

theorem Graph.store_limited {g : Graph} {format : Format}
    (hfault : (g.render format).fault = none) (limit : Nat) (reason : String) :
    g.store format (.limited limit reason) = ⟨(g.render format).bytes.take limit,
      if (g.render format).bytes.length ≤ limit then .ok g.count
      else .error (.io (.device reason))⟩ := by
  simp only [Graph.store, Sink.takes, Sink.failure?, hfault]
  by_cases hfits : (g.render format).bytes.length ≤ limit
  · rw [if_neg (Nat.not_lt.2 hfits), if_pos hfits]
  · rw [if_pos (Nat.lt_of_not_le hfits), if_neg hfits]

namespace Generator

/-- **A device with limited room is never taken for one that has the whole file.**  Whatever a
generator has been through, in each format and for each limit, storing to a device that takes so
many bytes in all answers the number of records just where the complete file is no longer than the
limit.  Elsewhere the failure of the device comes out.  Either way the device has taken the first
bytes of the complete file, up to the limit, whatever portions it takes of each write.  The
complete file is what a device without limit takes.  Words that are too long for a binary file are
left aside. -/
theorem limited_store_spec {g : Generator} (h : g.Reachable) (format : Format)
    (hfits : format = .binary → ∀ r ∈ g.graph.records, ∀ w ∈ BinaryFormat.wordsOf r,
      (bytes w.text).length ≤ 65535) :
    ∃ output : List UInt8, g.graph.render format = ⟨output, none⟩ ∧
      ∀ portion hpos,
        (∃ device, (g.graph.emit format).run (.ofSink .unlimited portion hpos) =
          (.ok g.graph.records.length, device) ∧ device.taken = output) ∧
        ∀ limit reason, ∃ outcome device,
          (g.graph.emit format).run (.ofSink (.limited limit reason) portion hpos) =
            (outcome, device) ∧
          (outcome = .ok g.graph.records.length ↔ output.length ≤ limit) ∧
          (limit < output.length → outcome = .error (.io (.device reason))) ∧
          device.taken = output.take (min limit output.length) ∧
          g.graph.store format (.limited limit reason) = ⟨device.taken, outcome⟩ := by
  have hfault := Graph.fault_render hfits
  have hcount : g.graph.count = g.graph.records.length :=
    h.sound.built.consistent.count_eq.trans g.graph.length_records.symm
  refine ⟨(g.graph.render format).bytes, by rw [← hfault], fun portion hpos => ⟨?_, ?_⟩⟩
  · obtain ⟨houtcome, htaken⟩ := g.graph.run_emit_ofSink format .unlimited portion hpos
    have hstore : g.graph.store format .unlimited =
        ⟨(g.graph.render format).bytes, .ok g.graph.records.length⟩ := by
      simp only [Graph.store, Sink.takes, Sink.failure?, hfault, hcount]
    rw [hstore] at houtcome htaken
    exact ⟨_, Prod.ext houtcome rfl, htaken⟩
  · intro limit reason
    have hstore := g.graph.run_emit_ofSink format (.limited limit reason) portion hpos
    rw [Graph.store_limited hfault, hcount] at hstore
    cases hrun : (g.graph.emit format).run (.ofSink (.limited limit reason) portion hpos) with
    | mk outcome device =>
    rw [hrun] at hstore
    have houtcome : outcome = if (g.graph.render format).bytes.length ≤ limit then
        .ok g.graph.records.length else .error (.io (.device reason)) := hstore.1
    have htaken : device.taken = (g.graph.render format).bytes.take limit := hstore.2
    refine ⟨outcome, device, rfl, ?_, ?_, ?_, ?_⟩
    · rw [houtcome]
      by_cases hlength : (g.graph.render format).bytes.length ≤ limit <;> simp [hlength]
    · exact fun hless => houtcome.trans (if_neg (Nat.not_le.2 hless))
    · exact htaken.trans List.take_eq_take_min
    · rw [Graph.store_limited hfault, hcount, htaken, houtcome]

/-- Learned from one word, in binary form: a device that takes two bytes at most of each write, and
has no room for the last bytes of the time. -/
theorem limited_store_spec_short : ∃ g,
    runAll [(⟨Source.counter, 0⟩, .text "a")] (new {} 0) = some g ∧
      (∀ r ∈ g.graph.records, ∀ w ∈ BinaryFormat.wordsOf r, (bytes w.text).length ≤ 65535) ∧
      ∃ device, (g.graph.emit .binary).run
          (.ofSink (.limited 25 "disk full") (fun _ => 2) fun _ => Nat.two_pos) =
        (.error (.io (.device "disk full")), device) ∧
      device.taken = [0x4d, 0x4b, 0x56, 0x31, 1, 0, 1, 0, 0, 0, 0, 0, 0, 0, 0, 0, 0, 0, 1, 0, 0x61,
        1, 0, 0, 0] := by
  have hrun : runAll [(⟨Source.counter, 0⟩, .text "a")] (new {} 0) =
      some { new {} 0 with graph := Graph.ofRecords (textRecords 0 "a") } :=
    runAll_text_of_fits (by decide)
  have htext : textRecords 0 "a" = [(.start, ⟨⟨"a"⟩, true, 0⟩)] := by rfl
  have hrecords : (Graph.ofRecords (textRecords 0 "a")).records =
      [(.start, ⟨⟨"a"⟩, true, 0⟩)] := by
    rw [Graph.records_ofRecords, htext]
    simp [grouped, List.eraseDups_cons]
  have hfits : ∀ r ∈ (Graph.ofRecords (textRecords 0 "a")).records,
      ∀ w ∈ BinaryFormat.wordsOf r, (bytes w.text).length ≤ 65535 := by
    rw [hrecords]
    decide
  have hrender : (Graph.ofRecords (textRecords 0 "a")).render .binary = ⟨[0x4d, 0x4b, 0x56, 0x31, 1,
      0, 1, 0, 0, 0, 0, 0, 0, 0, 0, 0, 0, 0, 1, 0, 0x61, 1, 0, 0, 0, 0, 0, 0, 0, 0], none⟩ := by
    rw [Graph.render, hrecords, Graph.count_ofRecords, htext]
    rfl
  obtain ⟨output, houtput, hstores⟩ := limited_store_spec ⟨_, _, _, hrun⟩ .binary fun _ => hfits
  obtain ⟨rfl, -⟩ := Rendered.mk.inj (hrender.symm.trans houtput)
  obtain ⟨outcome, device, hemit, -, hfailed, htaken, -⟩ :=
    (hstores (fun _ => 2) fun _ => Nat.two_pos).2 25 "disk full"
  rw [hfailed (by decide)] at hemit
  exact ⟨_, hrun, hfits, device, hemit, htaken⟩

end Generator

end Chain

end ChainScript
