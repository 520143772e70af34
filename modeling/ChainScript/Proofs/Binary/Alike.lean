import ChainScript.Proofs.Binary.RoundTrip
import ChainScript.Proofs.Format.Alike

/-!
# Binary files that differ in spelling

Alike graphs are written to binary files of one length whose bytes differ inside words only.
Reading such a file, or a beginning of it, takes the same steps: both are found truncated at the
same place, or the same number of records is read and they are the same up to spelling.

## Main definitions

* `Consumes` — a reader takes given bytes, and finds every shorter beginning truncated.
* `Unfinished` — bytes that end within a record.
-/

namespace ChainScript.Chain

open Text

namespace BinaryFormat

/-! ### Writing -/

section Writing

variable {w w' : Word} {r r' : Record} {rs rs' : List Record}

theorem lower_bytes_congr (h : w.lower = w'.lower) :
    (bytes w.text).map lowerByte = (bytes w'.text).map lowerByte := by
  rw [← bytes_fold, ← bytes_fold, Word.mk.inj h]

theorem length_bytes_congr (h : w.lower = w'.lower) :
    (bytes w.text).length = (bytes w'.text).length := by
  simpa using congrArg List.length (lower_bytes_congr h)

theorem fits_congr (h : w.lower = w'.lower) : fits w = fits w' := by
  rw [fits, fits, length_bytes_congr h]

theorem lower_encodeWord_congr (h : w.lower = w'.lower) :
    (encodeWord w).map lowerByte = (encodeWord w').map lowerByte := by
  simp only [encodeWord, List.map_append, lower_bytes_congr h, length_bytes_congr h]

theorem map_lower_wordsOf_congr (h : lowerRecord r = lowerRecord r') :
    (wordsOf r).map Word.lower = (wordsOf r').map Word.lower := by
  obtain ⟨holder, hnewer, hword⟩ := words_congr h
  simp only [wordsOf, List.map_cons, List.map_nil, holder, hnewer, hword]

theorem lower_flatMap_encodeWord_congr {ws ws' : List Word}
    (h : ws.map Word.lower = ws'.map Word.lower) :
    (ws.flatMap encodeWord).map lowerByte = (ws'.flatMap encodeWord).map lowerByte := by
  rw [List.map_flatMap, List.map_flatMap]
  exact flatMap_congr_view h fun _ _ hw => lower_encodeWord_congr hw

theorem all_fits_congr (h : lowerRecord r = lowerRecord r') :
    (wordsOf r).all fits = (wordsOf r').all fits := by
  obtain ⟨holder, hnewer, hword⟩ := words_congr h
  simp only [wordsOf, List.all_cons, List.all_nil, fits_congr holder, fits_congr hnewer,
    fits_congr hword]

theorem lower_encodeRecord_congr (h : lowerRecord r = lowerRecord r') :
    (encodeRecord r).map lowerByte = (encodeRecord r').map lowerByte := by
  have hs := Suffix.mk.inj (Prod.mk.inj h).2
  rw [encodeRecord, encodeRecord, List.map_append, List.map_append,
    lower_flatMap_encodeWord_congr (map_lower_wordsOf_congr h), hs.2.1, hs.2.2]

/-- The records before the first that does not fit. -/
def fitting (rs : List Record) : List Record := rs.takeWhile fun r => (wordsOf r).all fits

theorem map_lower_fitting_congr (h : rs.map lowerRecord = rs'.map lowerRecord) :
    (fitting rs).map lowerRecord = (fitting rs').map lowerRecord :=
  map_takeWhile_congr h fun _ _ hr => all_fits_congr hr

/-- What is written of the words of a record that does not fit, and the fault. -/
def writeUnfit (r : Record) : List UInt8 × Option IoFault :=
  let before := (wordsOf r).takeWhile fits
  (before.flatMap encodeWord,
    ((wordsOf r).drop before.length).head?.map fun w => .wordTooLong (bytes w.text).length)

/-- What is written after the records that fit, and the fault. -/
def writeRest : List Record → List UInt8 × Option IoFault
  | [] => ([], none)
  | r :: _ => writeUnfit r

theorem write_eq (count : Nat) (rs : List Record) :
    write count rs =
      (header count ++ (fitting rs).flatMap encodeRecord ++
          (writeRest (rs.drop (fitting rs).length)).1,
        (writeRest (rs.drop (fitting rs).length)).2) := by
  rw [write, fitting]
  split
  · next hrest => simp only [hrest, writeRest, List.append_nil]
  · next hrest => simp only [hrest, writeRest, writeUnfit]

theorem writeUnfit_congr (h : lowerRecord r = lowerRecord r') :
    (writeUnfit r).1.map lowerByte = (writeUnfit r').1.map lowerByte ∧
      (writeUnfit r).2 = (writeUnfit r').2 := by
  have hwords := map_lower_wordsOf_congr h
  have hbefore := map_takeWhile_congr hwords (p := fits) (q := fits) fun _ _ hw => fits_congr hw
  have hlength : ((wordsOf r).takeWhile fits).length = ((wordsOf r').takeWhile fits).length := by
    simpa using congrArg List.length hbefore
  have hhead : ((wordsOf r).drop ((wordsOf r).takeWhile fits).length).head?.map Word.lower =
      ((wordsOf r').drop ((wordsOf r').takeWhile fits).length).head?.map Word.lower := by
    rw [← List.head?_map, ← List.head?_map, List.map_drop, List.map_drop, hwords, hlength]
  exact ⟨lower_flatMap_encodeWord_congr hbefore,
    option_map_congr hhead fun _ _ hw => by rw [length_bytes_congr hw]⟩

/-- The files of alike records have one length and differ in words, and one word is too long
for both or for neither. -/
theorem lower_write (h : rs.map lowerRecord = rs'.map lowerRecord) (count : Nat) :
    (write count rs).1.map lowerByte = (write count rs').1.map lowerByte ∧
      (write count rs).2 = (write count rs').2 := by
  have hfitting := map_lower_fitting_congr h
  have hlength : (fitting rs).length = (fitting rs').length := by
    simpa using congrArg List.length hfitting
  have hencoded : ((fitting rs).flatMap encodeRecord).map lowerByte =
      ((fitting rs').flatMap encodeRecord).map lowerByte := by
    rw [List.map_flatMap, List.map_flatMap]
    exact flatMap_congr_view hfitting fun _ _ hr => lower_encodeRecord_congr hr
  have hrest : (rs.drop (fitting rs).length).map lowerRecord =
      (rs'.drop (fitting rs').length).map lowerRecord := by
    rw [List.map_drop, List.map_drop, h, hlength]
  have hunfit : ∀ {xs ys : List Record}, xs.map lowerRecord = ys.map lowerRecord →
      (writeRest xs).1.map lowerByte = (writeRest ys).1.map lowerByte ∧
        (writeRest xs).2 = (writeRest ys).2 := by
    intro xs ys hxs
    match xs, ys, hxs with
    | [], [], _ => exact ⟨rfl, rfl⟩
    | r :: _, r' :: _, hxs => exact writeUnfit_congr (List.cons.inj hxs).1
  rw [write_eq, write_eq]
  refine ⟨?_, (hunfit hrest).2⟩
  simp only [List.map_append, hencoded, (hunfit hrest).1]

end Writing

/-! ### Files that are cut short -/

/-- The reader consumes these bytes and no more, finds the value in them, and finds every shorter
beginning of them truncated. -/
structure Consumes {α : Type} (failure : Option ReadFailure) (m : Reader α) (front : List UInt8)
    (a : α) : Prop where
  whole : ∀ rest, m (front ++ rest) = .ok (a, rest)
  cut : ∀ k < front.length, m (front.take k) = .error (Corruption.truncated.reported failure)

section Consumes

variable {α β : Type} {failure : Option ReadFailure} {m : Reader α} {k : α → Reader β}
  {front front' : List UInt8} {a : α} {b : β}

/-- What the reader does with a beginning of longer bytes. -/
theorem Consumes.apply_take (h : Consumes failure m front a) (rest : List UInt8) (n : Nat) :
    m ((front ++ rest).take n) =
      if n < front.length then .error (Corruption.truncated.reported failure)
      else .ok (a, rest.take (n - front.length)) := by
  split
  · next hn => rw [List.take_append_of_le_length (by omega), h.cut n hn]
  · next hn => rw [List.take_append, List.take_of_length_le (by omega), h.whole]

theorem consumes_pure (a : α) : Consumes failure (pure a) [] a :=
  ⟨fun _ => rfl, fun _ hk => absurd hk (Nat.not_lt_zero _)⟩

theorem bind_of_ok {bs rest : List UInt8} (h : m bs = .ok (a, rest)) :
    (m >>= k) bs = k a rest := by
  change m bs >>= (fun r => k r.1 r.2) = _
  rw [h]
  rfl

theorem bind_of_error {bs : List UInt8} {e : ChainError} (h : m bs = .error e) :
    (m >>= k) bs = .error e := by
  change m bs >>= (fun r => k r.1 r.2) = _
  rw [h]
  rfl

theorem Consumes.bind (hm : Consumes failure m front a) (hk : Consumes failure (k a) front' b) :
    Consumes failure (m >>= k) (front ++ front') b := by
  constructor
  · intro rest
    rw [List.append_assoc, bind_of_ok (hm.whole _), hk.whole]
  · intro n hn
    rw [List.length_append] at hn
    have hfront := hm.apply_take front' n
    split at hfront
    · exact bind_of_error hfront
    · rw [bind_of_ok hfront]
      exact hk.cut _ (by omega)

theorem consumes_take (front : List UInt8) :
    Consumes failure (take failure front.length) front front := by
  constructor
  · intro rest
    simp [take]
  · intro k hk
    have hshort : ((front.take k).take front.length).length ≠ front.length := by
      rw [List.take_take, List.length_take]
      omega
    exact take_of_short hshort

theorem consumes_require {condition : Prop} [Decidable condition] (h : condition)
    (e : ChainError) : Consumes failure (require condition e) [] () := by
  rw [require, if_pos h]
  exact consumes_pure ()

/-- What follows may consume nothing. -/
theorem Consumes.bind_nil (hm : Consumes failure m front a) (hk : Consumes failure (k a) [] b) :
    Consumes failure (m >>= k) front b := by
  have h := hm.bind hk
  rwa [List.append_nil] at h

theorem consumes_takeNumber {width : Nat} (h : front.length = width) :
    Consumes failure (takeNumber failure width) front (ofLittleEndian front) := by
  subst h
  exact (consumes_take front).bind_nil (consumes_pure _)

theorem consumes_littleEndian {width n : Nat} (h : n < 256 ^ width) :
    Consumes failure (takeNumber failure width) (littleEndian width n) n := by
  have hnumber : Consumes failure (takeNumber failure width) _ _ :=
    consumes_takeNumber (length_littleEndian width n)
  rwa [ofLittleEndian_littleEndian h] at hnumber

theorem consumes_takeWord {w : Word} (h : fits w = true) :
    Consumes failure (takeWord failure) (encodeWord w) w := by
  have hsize : (bytes w.text).length < 256 ^ 2 := by
    have : (bytes w.text).length ≤ maxWordSize := by simpa [fits] using h
    simp only [maxWordSize] at this
    omega
  have htext : decodeText (bytes w.text) = pure w := by
    rw [decodeText, decode_eq_ok_iff.2 (decode?_eq_some_iff.2 rfl)]
  rw [takeWord_eq]
  refine (consumes_littleEndian hsize).bind ((consumes_take _).bind_nil ?_)
  rw [htext]
  exact consumes_pure w

theorem consumes_takeFlag (number : Nat) (terminal : Bool) :
    Consumes failure (takeFlag failure number) [if terminal then 1 else 0] terminal := by
  have hbyte (b : UInt8) : Consumes failure (takeNumber failure 1) [b] (ofLittleEndian [b]) :=
    consumes_takeNumber rfl
  cases terminal with
  | false => exact (hbyte 0).bind_nil (consumes_pure false)
  | true => exact (hbyte 1).bind_nil (consumes_pure true)

theorem consumes_decodeRecord {r : Record} (h : (wordsOf r).all fits = true) (number : Nat) :
    Consumes failure (decodeRecord failure number) (encodeRecord r) r := by
  simp only [wordsOf, List.all_cons, List.all_nil, Bool.and_true, Bool.and_eq_true] at h
  have hbytes : encodeRecord r = encodeWord r.1.older ++ (encodeWord r.1.newer ++
      (encodeWord r.2.word ++ ([if r.2.terminal then 1 else 0] ++
        littleEndian 8 r.2.createdAt.toUInt64.toNat))) := by
    simp [encodeRecord, wordsOf]
  have htime : (UInt64.ofNat r.2.createdAt.toUInt64.toNat).toInt64 = r.2.createdAt := by
    rw [UInt64.ofNat_toNat]
    exact Int64.toInt64_toUInt64 _
  rw [decodeRecord_eq, hbytes]
  refine (consumes_takeWord h.1).bind ((consumes_takeWord h.2.1).bind
    ((consumes_takeWord h.2.2).bind ((consumes_takeFlag number _).bind
    ((consumes_littleEndian r.2.createdAt.toUInt64.toNat_lt).bind_nil ?_))))
  rw [htime]
  exact consumes_pure r

end Consumes

/-- The bytes end within a record. -/
def Unfinished (tail : List UInt8) : Prop :=
  ∃ r, (wordsOf r).all fits = true ∧ tail <+: encodeRecord r ∧
    tail.length < (encodeRecord r).length

theorem decodeRecord_of_unfinished {tail : List UInt8} (h : Unfinished tail)
    (failure : Option ReadFailure) (number k : Nat) :
    decodeRecord failure number (tail.take k) =
      .error (Corruption.truncated.reported failure) := by
  obtain ⟨r, hfits, hprefix, hlt⟩ := h
  rw [List.prefix_iff_eq_take.1 hprefix, List.take_take]
  exact (consumes_decodeRecord hfits number).cut _ (by omega)

/-- What is left of a file after the records that fit ends within a record. -/
theorem unfinished_writeRest (rs : List Record) : Unfinished (writeRest rs).1 := by
  have hblank : fits .blank = true := by decide
  -- With blanks for the words that do not fit, the record could be written in full.
  let short (w : Word) : Word := if fits w then w else .blank
  have hshort : ∀ w, fits (short w) = true := by
    intro w
    by_cases hw : fits w = true
    · simp [short, hw]
    · simp [short, hw, hblank]
  have hrecord : ∀ r : Record, ∃ r', wordsOf r' = (wordsOf r).map short :=
    fun r => ⟨(⟨short r.1.older, short r.1.newer⟩, ⟨short r.2.word, false, 0⟩), rfl⟩
  have hfits : ∀ {r r' : Record}, wordsOf r' = (wordsOf r).map short →
      (wordsOf r').all fits = true := by
    intro r r' h
    rw [h, List.all_map]
    exact List.all_eq_true.2 fun w _ => hshort w
  have hlong : ∀ {bs : List UInt8} {r : Record}, bs <+: (wordsOf r).flatMap encodeWord →
      bs <+: encodeRecord r ∧ bs.length < (encodeRecord r).length := by
    intro bs r h
    refine ⟨h.trans (List.prefix_append ..), lt_of_le_of_lt h.length_le ?_⟩
    rw [encodeRecord, List.length_append, List.length_cons]
    omega
  cases rs with
  | nil =>
      obtain ⟨r', hr'⟩ := hrecord (.start, ⟨.blank, false, 0⟩)
      exact ⟨r', hfits hr', hlong (List.nil_prefix ..)⟩
  | cons r rs =>
      obtain ⟨r', hr'⟩ := hrecord r
      refine ⟨r', hfits hr', hlong ?_⟩
      have hbefore : ((wordsOf r).takeWhile fits).map short = (wordsOf r).takeWhile fits := by
        refine (List.map_congr_left fun w hw => ?_).trans (List.map_id _)
        exact if_pos (List.mem_takeWhile_imp hw)
      rw [hr', ← List.takeWhile_append_dropWhile (p := fits) (l := wordsOf r), List.map_append,
        hbefore, List.flatMap_append]
      exact List.prefix_append ..

theorem allFit_fitting (rs : List Record) : AllFit (fitting rs) :=
  fun _ hr => List.mem_takeWhile_imp (p := fun r => (wordsOf r).all fits) hr

/-- Beginnings of one length of alike records are read in the same steps. -/
theorem decodeRecords_alike {failure : Option ReadFailure} {rs rs' : List Record}
    (h : SameRecords rs rs') (hfit : AllFit rs) (hfit' : AllFit rs') {tail tail' : List UInt8}
    (ht : Unfinished tail) (ht' : Unfinished tail') (count number k : Nat)
    {found found' : List Record} (hfound : SameRecords found found') :
    SameOutcome (fun a b => SameRecords a.1 b.1)
      (decodeRecords failure count number found ((rs.flatMap encodeRecord ++ tail).take k))
      (decodeRecords failure count number found' ((rs'.flatMap encodeRecord ++ tail').take k)) := by
  have hstep : ∀ count number found bs, decodeRecords failure (count + 1) number found bs =
      decodeRecord failure number bs >>= fun r =>
        decodeRecords failure count (number + 1) (r.1 :: found) r.2 := fun _ _ _ _ => rfl
  induction count generalizing rs rs' number k found found' with
  | zero =>
      refine .ok ?_
      rw [SameRecords, List.map_reverse, List.map_reverse, hfound]
  | succ count ih =>
      rw [hstep, hstep]
      match rs, rs', h with
      | [], [], _ =>
          simp only [List.flatMap_nil, List.nil_append, decodeRecord_of_unfinished ht,
            decodeRecord_of_unfinished ht']
          exact .error rfl
      | r :: rs, r' :: rs', h =>
          obtain ⟨hr, hrest⟩ := List.cons.inj h
          obtain ⟨hfits, hfitRest⟩ := List.forall_mem_cons.1 hfit
          obtain ⟨hfits', hfitRest'⟩ := List.forall_mem_cons.1 hfit'
          have hlength : (encodeRecord r).length = (encodeRecord r').length := by
            simpa using congrArg List.length (lower_encodeRecord_congr hr)
          -- Alike records have one length, so the beginning ends inside both or inside neither.
          simp only [List.flatMap_cons, List.append_assoc,
            (consumes_decodeRecord hfits number).apply_take,
            (consumes_decodeRecord hfits' number).apply_take, hlength]
          split
          · exact .error rfl
          · refine ih hrest hfitRest hfitRest' (number + 1) _ ?_
            rw [SameRecords, List.map_cons, List.map_cons, hr, hfound]

/-- Consumes what stands before the records, and returns their number. -/
def readHeader (failure : Option ReadFailure) : Reader Nat := do
  let found ← take failure 4
  require (found = magic) (.corrupt (.magic found))
  let v ← takeNumber failure 2
  require (v = version) (.corrupt (.version v))
  takeNumber failure 8

theorem readFile_eq_bind (failure : Option ReadFailure) :
    readFile failure = readHeader failure >>= fun count => decodeRecords failure count 0 [] := by
  rw [readFile_eq, readHeader]
  simp only [bind_assoc]

theorem consumes_readHeader (failure : Option ReadFailure) (count : Nat) :
    Consumes failure (readHeader failure) (header count)
      (ofLittleEndian (littleEndian 8 count)) := by
  have hversion : version < 256 ^ 2 := by decide
  have hbytes : header count =
      magic ++ ([] ++ (littleEndian 2 version ++ ([] ++ littleEndian 8 count))) := by
    simp [header]
  rw [hbytes]
  exact (consumes_take magic).bind ((consumes_require rfl _).bind
    ((consumes_littleEndian hversion).bind ((consumes_require rfl _).bind
    (consumes_takeNumber (length_littleEndian ..)))))

/-- Beginnings of one length of the files of alike records are read alike. -/
theorem read_alike {rs rs' : List Record} (h : SameRecords rs rs') (count k : Nat)
    (failure : Option ReadFailure) :
    SameOutcome SameRecords (read ⟨(write count rs).1.take k, failure⟩)
      (read ⟨(write count rs').1.take k, failure⟩) := by
  have hread : ∀ input : Input, read input =
      readFile input.failure input.bytes >>= fun r => .ok r.1 := by
    intro input
    change Except.map Prod.fst (readFile input.failure input.bytes) = _
    cases readFile input.failure input.bytes with
    | error e => rfl
    | ok r => rfl
  have hfile : ∀ bs, readFile failure bs =
      readHeader failure bs >>= fun r => decodeRecords failure r.1 0 [] r.2 := by
    intro bs
    rw [readFile_eq_bind]
    rfl
  rw [hread, hread]
  refine SameOutcome.bind ?_ fun _ _ hrs => .ok hrs
  simp only [write_eq, List.append_assoc, hfile, (consumes_readHeader failure count).apply_take]
  generalize ofLittleEndian (littleEndian 8 count) = n
  split
  · exact .error rfl
  · exact decodeRecords_alike (map_lower_fitting_congr h) (allFit_fitting rs) (allFit_fitting rs')
      (unfinished_writeRest _) (unfinished_writeRest _) n 0 _ rfl

end BinaryFormat

end ChainScript.Chain
