import ChainScript.Chain.Format.Binary
import Mathlib.Algebra.Ring.Nat
import Mathlib.Data.List.Basic

/-!
# What the binary reader accepts

A grammar says which bytes spell a word, a record and a file.  The reader finds exactly what
the grammar spells, whatever the device does after the last byte; that matters only for how a
truncated file is reported.

## Main definitions

* `SpellsWord`, `SpellsRecord`, `SpellsRecords`, `SpellsFile` — the grammar.
* `Reads` — a reader finds exactly what a relation spells.
* `Settled` — how a reader's errors depend on the device.
-/

namespace ChainScript

namespace Text

variable {bs : List UInt8} {s : String}

/-- Bytes are decoded to the one text that has them. -/
theorem decode?_eq_some_iff : decode? bs = some s ↔ bytes s = bs := by
  constructor
  · intro h
    rw [decode?, String.fromUTF8?] at h
    split at h
    · obtain rfl := Option.some.inj h
      rfl
    · cases h
  · intro h
    subst h
    exact dif_pos s.isValidUTF8

theorem decode_eq_ok_iff : decode bs = .ok s ↔ decode? bs = some s := by
  rw [decode]
  cases decode? bs with
  | none => simp
  | some t => simp

end Text

namespace Chain

namespace BinaryFormat

open Text

/-! ### Numbers -/

theorem length_littleEndian (width n : Nat) : (littleEndian width n).length = width := by
  induction width generalizing n with
  | zero => rfl
  | succ width ih => simp [littleEndian, ih]

/-- A number that fits its width is read back. -/
theorem ofLittleEndian_littleEndian {width n : Nat} (h : n < 256 ^ width) :
    ofLittleEndian (littleEndian width n) = n := by
  induction width generalizing n with
  | zero =>
      simp only [Nat.pow_zero] at h
      simp only [littleEndian, ofLittleEndian]
      omega
  | succ width ih =>
      rw [Nat.pow_succ] at h
      rw [littleEndian, ofLittleEndian, ih (by omega), UInt8.toNat_ofNat']
      omega

/-- Two bytes of length, the lower first, and then a word of that length. -/
def SpellsWord (bs : List UInt8) (w : Word) : Prop :=
  ∃ size text, bs = size ++ text ∧ size.length = 2 ∧ text.length = ofLittleEndian size ∧
    decode? text = some w.text

/-- The flag byte of a record. -/
def SpellsFlag (bs : List UInt8) (terminal : Bool) : Prop :=
  bs = [0] ∧ terminal = false ∨ bs = [1] ∧ terminal = true

/-- Eight bytes, the lowest first, in two's complement. -/
def SpellsTime (bs : List UInt8) (time : Instant) : Prop :=
  bs.length = 8 ∧ time = (UInt64.ofNat (ofLittleEndian bs)).toInt64

/-- Three words, a flag and a time. -/
def SpellsRecord (bs : List UInt8) (r : Record) : Prop :=
  ∃ older newer word flag time, bs = older ++ newer ++ word ++ flag ++ time ∧
    SpellsWord older r.1.older ∧ SpellsWord newer r.1.newer ∧ SpellsWord word r.2.word ∧
    SpellsFlag flag r.2.terminal ∧ SpellsTime time r.2.createdAt

/-- Records one after another. -/
inductive SpellsRecords : List UInt8 → List Record → Prop
  | nil : SpellsRecords [] []
  | cons {bs bs' : List UInt8} {r : Record} {rs : List Record} :
      SpellsRecord bs r → SpellsRecords bs' rs → SpellsRecords (bs ++ bs') (r :: rs)

/-- The magic bytes, the version, the number of records in eight bytes, the records, and then
any bytes at all. -/
def SpellsFile (bs : List UInt8) (rs : List Record) : Prop :=
  ∃ count body rest, bs = [0x4d, 0x4b, 0x56, 0x31] ++ [1, 0] ++ count ++ body ++ rest ∧
    count.length = 8 ∧ ofLittleEndian count = rs.length ∧ SpellsRecords body rs

/-- The reader finds exactly the values that a beginning of the bytes spells. -/
def Reads {α : Type} (m : Reader α) (L : List UInt8 → α → Prop) : Prop :=
  ∀ bs a rest, m bs = .ok (a, rest) ↔ ∃ front, bs = front ++ rest ∧ L front a

section Reads

variable {α β : Type} {m : Reader α} {k : α → Reader β} {L L' : List UInt8 → α → Prop}
  {K : α → List UInt8 → β → Prop}

theorem Reads.congr (h : Reads m L) (hL : ∀ front a, L front a ↔ L' front a) : Reads m L' := by
  intro bs a rest
  rw [h bs a rest]
  simp only [hL]

theorem reads_pure (a : α) : Reads (pure a) fun front b => front = [] ∧ b = a := by
  intro bs b rest
  change Except.ok (a, bs) = .ok (b, rest) ↔ _
  simp only [Except.ok.injEq, Prod.mk.injEq]
  constructor
  · rintro ⟨rfl, rfl⟩
    exact ⟨[], rfl, rfl, rfl⟩
  · rintro ⟨front, rfl, rfl, rfl⟩
    exact ⟨rfl, rfl⟩

theorem reads_throw (e : ChainError) : Reads (throw e : Reader α) fun _ _ => False := by
  intro bs b rest
  change (.error e : Except ChainError (α × List UInt8)) = .ok (b, rest) ↔ _
  simp

theorem bind_eq_ok {bs rest : List UInt8} {b : β} :
    (m >>= k) bs = .ok (b, rest) ↔ ∃ a mid, m bs = .ok (a, mid) ∧ k a mid = .ok (b, rest) := by
  change (m bs >>= fun r => k r.1 r.2) = _ ↔ _
  cases hm : m bs with
  | error e =>
      change (.error e : Except ChainError (β × List UInt8)) = .ok (b, rest) ↔ _
      simp
  | ok r =>
      change k r.1 r.2 = .ok (b, rest) ↔ _
      constructor
      · intro h
        exact ⟨r.1, r.2, rfl, h⟩
      · rintro ⟨a, mid, h, hk⟩
        obtain rfl := Except.ok.inj h
        exact hk

/-- One reader after another finds what is spelled one after the other. -/
theorem Reads.bind (hm : Reads m L) (hk : ∀ a, Reads (k a) (K a)) :
    Reads (m >>= k) fun front b => ∃ x y a, front = x ++ y ∧ L x a ∧ K a y b := by
  intro bs b rest
  rw [bind_eq_ok]
  constructor
  · rintro ⟨a, mid, ha, hb⟩
    obtain ⟨x, rfl, hx⟩ := (hm _ _ _).1 ha
    obtain ⟨y, rfl, hy⟩ := (hk a _ _ _).1 hb
    exact ⟨x ++ y, (List.append_assoc ..).symm, x, y, a, rfl, hx, hy⟩
  · rintro ⟨front, rfl, x, y, a, rfl, hx, hy⟩
    refine ⟨a, y ++ rest, (hm _ _ _).2 ⟨x, List.append_assoc .., hx⟩, ?_⟩
    exact (hk a _ _ _).2 ⟨y, rfl, hy⟩

end Reads

variable {failure : Option ReadFailure}

theorem reads_take (n : Nat) :
    Reads (take failure n) fun front chunk => front = chunk ∧ front.length = n := by
  intro bs chunk rest
  simp only [take]
  constructor
  · intro h
    split at h
    · next hlen =>
      obtain ⟨rfl, rfl⟩ := Prod.mk.inj (Except.ok.inj h)
      exact ⟨bs.take n, (List.take_append_drop n bs).symm, rfl, hlen⟩
    · cases h
  · rintro ⟨front, rfl, rfl, rfl⟩
    simp

theorem reads_takeNumber (width : Nat) :
    Reads (takeNumber failure width) fun front n =>
      front.length = width ∧ n = ofLittleEndian front := by
  refine ((reads_take width).bind fun chunk => reads_pure _).congr ?_
  intro front n
  constructor
  · rintro ⟨x, y, chunk, rfl, ⟨rfl, hlen⟩, rfl, rfl⟩
    rw [List.append_nil]
    exact ⟨hlen, rfl⟩
  · rintro ⟨hlen, rfl⟩
    exact ⟨front, [], front, (List.append_nil _).symm, ⟨rfl, hlen⟩, rfl, rfl⟩

/-- The word that bytes spell, without consuming any. -/
def decodeText (chunk : List UInt8) : Reader Word :=
  match decode chunk with
  | .ok text => return ⟨text⟩
  | .error fault => throw (.corrupt (.badText fault))

theorem takeWord_eq (failure : Option ReadFailure) :
    takeWord failure = (do decodeText (← take failure (← takeNumber failure 2))) := rfl

theorem reads_decodeText (chunk : List UInt8) :
    Reads (decodeText chunk) fun front w => front = [] ∧ decode? chunk = some w.text := by
  rw [decodeText]
  cases h : decode chunk with
  | ok text =>
      refine (reads_pure _).congr ?_
      intro front w
      rw [decode_eq_ok_iff.1 h]
      constructor
      · rintro ⟨rfl, rfl⟩
        exact ⟨rfl, rfl⟩
      · rintro ⟨rfl, hw⟩
        obtain rfl := Option.some.inj hw
        exact ⟨rfl, rfl⟩
  | error fault =>
      refine (reads_throw _).congr ?_
      intro front w
      have hnone : decode? chunk ≠ some w.text := by
        intro hw
        rw [decode_eq_ok_iff.2 hw] at h
        cases h
      simp [hnone]

theorem reads_takeWord : Reads (takeWord failure) SpellsWord := by
  rw [takeWord_eq]
  refine ((reads_takeNumber 2).bind fun n => (reads_take n).bind reads_decodeText).congr ?_
  intro front w
  constructor
  · rintro ⟨size, y, n, rfl, ⟨hsize, rfl⟩, text, z, chunk, rfl, ⟨rfl, hlen⟩, rfl, hw⟩
    exact ⟨size, text, by rw [List.append_nil], hsize, hlen, hw⟩
  · rintro ⟨size, text, rfl, hsize, hlen, hw⟩
    exact ⟨size, text, _, rfl, ⟨hsize, rfl⟩, text, [], text, (List.append_nil _).symm,
      ⟨rfl, hlen⟩, rfl, hw⟩

/-- The flag that a number stands for. -/
def decodeFlag (number : Nat) : Nat → Reader Bool
  | 0 => pure false
  | 1 => pure true
  | flag => throw (.corrupt (.recordFlag number flag))

/-- Consumes the flag byte of a record. -/
def takeFlag (failure : Option ReadFailure) (number : Nat) : Reader Bool := do
  decodeFlag number (← takeNumber failure 1)

theorem decodeRecord_eq (failure : Option ReadFailure) (number : Nat) :
    decodeRecord failure number = (do
      let older ← takeWord failure
      let newer ← takeWord failure
      let word ← takeWord failure
      let terminal ← takeFlag failure number
      let time ← takeNumber failure 8
      return (⟨older, newer⟩, ⟨word, terminal, (UInt64.ofNat time).toInt64⟩)) := by
  simp only [decodeRecord, takeFlag, bind_assoc]
  refine bind_congr fun older => bind_congr fun newer => bind_congr fun word =>
    bind_congr fun flag => ?_
  rcases flag with _ | _ | flag <;> rfl

theorem reads_takeFlag (number : Nat) : Reads (takeFlag failure number) SpellsFlag := by
  have hflag : ∀ flag, Reads (decodeFlag number flag) fun front terminal => front = [] ∧
      (flag = 0 ∧ terminal = false ∨ flag = 1 ∧ terminal = true) := by
    intro flag
    rcases flag with _ | _ | flag
    · exact (reads_pure false).congr fun front t => by simp
    · exact (reads_pure true).congr fun front t => by simp
    · exact (reads_throw _).congr fun front t => by simp
  refine ((reads_takeNumber 1).bind hflag).congr ?_
  intro front t
  constructor
  · rintro ⟨x, y, n, rfl, ⟨hlen, rfl⟩, rfl, hflag⟩
    obtain ⟨b, rfl⟩ := List.length_eq_one_iff.1 hlen
    simpa [SpellsFlag, ofLittleEndian, ← UInt8.toNat_inj] using hflag
  · intro h
    obtain ⟨rfl, rfl⟩ | ⟨rfl, rfl⟩ := h
    · exact ⟨[0], [], 0, rfl, ⟨rfl, rfl⟩, rfl, .inl ⟨rfl, rfl⟩⟩
    · exact ⟨[1], [], 1, rfl, ⟨rfl, rfl⟩, rfl, .inr ⟨rfl, rfl⟩⟩

theorem reads_decodeRecord (number : Nat) :
    Reads (decodeRecord failure number) SpellsRecord := by
  rw [decodeRecord_eq]
  refine (reads_takeWord.bind fun older => reads_takeWord.bind fun newer =>
    reads_takeWord.bind fun word => (reads_takeFlag number).bind fun terminal =>
    (reads_takeNumber 8).bind fun time => reads_pure _).congr ?_
  intro front r
  constructor
  · rintro ⟨older, _, a, rfl, ha, newer, _, b, rfl, hb, word, _, c, rfl, hc, flag, _, t, rfl, ht,
      time, _, n, rfl, ⟨hlen, rfl⟩, rfl, rfl⟩
    exact ⟨older, newer, word, flag, time, by simp, ha, hb, hc, ht, hlen, rfl⟩
  · obtain ⟨⟨a, b⟩, c, t, n⟩ := r
    rintro ⟨older, newer, word, flag, time, rfl, ha, hb, hc, ht, hlen, rfl⟩
    exact ⟨older, _, a, by simp, ha, newer, _, b, rfl, hb, word, _, c, rfl, hc, flag, _, t, rfl,
      ht, time, _, _, rfl, ⟨hlen, rfl⟩, rfl, rfl⟩

theorem reads_decodeRecords (count number : Nat) (found : List Record) :
    Reads (decodeRecords failure count number found) fun front rs =>
      ∃ more, rs = found.reverse ++ more ∧ more.length = count ∧ SpellsRecords front more := by
  induction count generalizing number found with
  | zero =>
      refine (reads_pure _).congr ?_
      intro front rs
      constructor
      · rintro ⟨rfl, rfl⟩
        exact ⟨[], (List.append_nil _).symm, rfl, .nil⟩
      · rintro ⟨more, rfl, hlen, hspell⟩
        obtain rfl := List.length_eq_zero_iff.1 hlen
        cases hspell
        exact ⟨rfl, List.append_nil _⟩
  | succ count ih =>
      refine ((reads_decodeRecord number).bind fun r => ih (number + 1) (r :: found)).congr ?_
      intro front rs
      constructor
      · rintro ⟨x, y, r, rfl, hr, more, rfl, rfl, hmore⟩
        exact ⟨r :: more, by simp, rfl, .cons hr hmore⟩
      · rintro ⟨more, rfl, hlen, hspell⟩
        cases hspell with
        | nil => cases hlen
        | cons hr hrest =>
            exact ⟨_, _, _, rfl, hr, _, by simp, by simpa using hlen, hrest⟩

/-- Fails unless the condition holds. -/
def require (condition : Prop) [Decidable condition] (e : ChainError) : Reader Unit :=
  if condition then pure () else throw e

theorem readFile_eq (failure : Option ReadFailure) :
    readFile failure = (do
      let found ← take failure 4
      require (found = magic) (.corrupt (.magic found))
      let v ← takeNumber failure 2
      require (v = version) (.corrupt (.version v))
      let count ← takeNumber failure 8
      decodeRecords failure count 0 []) := by
  apply bind_congr
  intro found
  by_cases hfound : found = magic
  · simp only [require, if_pos hfound, pure_bind]
    apply bind_congr
    intro v
    by_cases hv : v = version
    · simp only [if_pos hv, pure_bind]
    · simp only [if_neg hv]
  · simp only [require, if_neg hfound]
    rfl

theorem reads_require (condition : Prop) [Decidable condition] (e : ChainError) :
    Reads (require condition e) fun front _ => front = [] ∧ condition := by
  rw [require]
  split
  · next h => exact (reads_pure ()).congr fun front a => by simp [h]
  · next h => exact (reads_throw e).congr fun front a => by simp [h]

/-- The two bytes of the version. -/
theorem ofLittleEndian_eq_version {bs : List UInt8} (h : bs.length = 2) :
    ofLittleEndian bs = version ↔ bs = [1, 0] := by
  obtain ⟨lo, hi, rfl⟩ := List.length_eq_two.1 h
  have hlo := lo.toNat_lt
  simp only [ofLittleEndian, version, List.cons.injEq, and_true, ← UInt8.toNat_inj]
  change _ ↔ lo.toNat = 1 ∧ hi.toNat = 0
  omega

theorem reads_readFile : Reads (readFile failure) fun front rs =>
    ∃ count body, front = [0x4d, 0x4b, 0x56, 0x31] ++ [1, 0] ++ count ++ body ∧
      count.length = 8 ∧ ofLittleEndian count = rs.length ∧ SpellsRecords body rs := by
  rw [readFile_eq]
  refine ((reads_take 4).bind fun found => (reads_require _ _).bind fun _ =>
    (reads_takeNumber 2).bind fun v => (reads_require _ _).bind fun _ =>
    (reads_takeNumber 8).bind fun count => reads_decodeRecords count 0 []).congr ?_
  intro front rs
  constructor
  · rintro ⟨_, _, _, rfl, ⟨rfl, -⟩, _, _, _, rfl, ⟨rfl, rfl⟩, v, _, _, rfl, ⟨hv, rfl⟩, _, _, _,
      rfl, ⟨rfl, hversion⟩, count, body, _, rfl, ⟨hcount, rfl⟩, rs, rfl, hlen, hbody⟩
    rw [(ofLittleEndian_eq_version hv).1 hversion]
    exact ⟨count, body, by simp [magic], hcount, by simpa using hlen.symm, by simpa using hbody⟩
  · rintro ⟨count, body, rfl, hcount, hlen, hbody⟩
    exact ⟨magic, _, magic, by simp [magic], ⟨rfl, rfl⟩, [], _, (), rfl, ⟨rfl, rfl⟩, [1, 0], _, _,
      rfl, ⟨rfl, rfl⟩, [], _, (), rfl, ⟨rfl, rfl⟩, count, body, _, rfl, ⟨hcount, rfl⟩, rs, rfl,
      hlen.symm, hbody⟩

/-- **The reader finds records exactly where the grammar spells them.** -/
theorem read_eq_ok_iff {input : Input} {rs : List Record} :
    read input = .ok rs ↔ SpellsFile input.bytes rs := by
  have hrun : read input = .ok rs ↔
      ∃ rest, readFile input.failure input.bytes = .ok (rs, rest) := by
    change Except.map Prod.fst (readFile input.failure input.bytes) = _ ↔ _
    cases readFile input.failure input.bytes with
    | error e => simp [Except.map]
    | ok r => simp [Except.map, Prod.ext_iff, eq_comm]
  rw [hrun]
  constructor
  · intro h
    obtain ⟨rest, h⟩ := h
    obtain ⟨_, hbytes, count, body, rfl, hcount, hlen, hbody⟩ := (reads_readFile _ _ _).1 h
    exact ⟨count, body, rest, hbytes, hcount, hlen, hbody⟩
  · intro h
    obtain ⟨count, body, rest, hbytes, hcount, hlen, hbody⟩ := h
    exact ⟨rest, (reads_readFile _ _ _).2 ⟨_, hbytes, count, body, rfl, hcount, hlen, hbody⟩⟩

end BinaryFormat

/-! ### Errors -/

/-- What a corruption is reported as.  The device has a say only where bytes are missing. -/
def Corruption.reported (failure : Option ReadFailure) : Corruption → ChainError
  | .truncated => BinaryFormat.shortfall failure
  | cause => .corrupt cause

namespace BinaryFormat

/-- The device decides nothing about the result but what a truncation is reported as. -/
def Settled {α : Type} (m : Option ReadFailure → Reader α) : Prop :=
  ∀ bs, (∃ r, ∀ failure, m failure bs = .ok r) ∨
    ∃ cause : Corruption, ∀ failure, m failure bs = .error (cause.reported failure)

section Settled

variable {α β : Type} {m : Option ReadFailure → Reader α} {k : Option ReadFailure → α → Reader β}

theorem Settled.bind (hm : Settled m) (hk : ∀ a, Settled fun failure => k failure a) :
    Settled fun failure => m failure >>= k failure := by
  intro bs
  have hbind : ∀ failure, (m failure >>= k failure) bs =
      m failure bs >>= fun r => k failure r.1 r.2 := fun _ => rfl
  simp only [hbind]
  obtain ⟨r, hr⟩ | ⟨cause, hcause⟩ := hm bs
  · simp only [hr]
    exact hk r.1 r.2
  · simp only [hcause]
    exact .inr ⟨cause, fun _ => rfl⟩

end Settled

/-- Where bytes are missing the input is reported as truncated. -/
theorem take_of_short {failure : Option ReadFailure} {bs : List UInt8} {n : Nat}
    (h : (bs.take n).length ≠ n) :
    take failure n bs = .error (Corruption.truncated.reported failure) :=
  if_neg h

example : read ⟨[], some "read failed"⟩ = .error (.io (.device "read failed")) := rfl

example : read ⟨[], some ⟨.unexpectedEnd, "read failed"⟩⟩ = .error (.corrupt .truncated) := rfl

end BinaryFormat

end Chain

end ChainScript
