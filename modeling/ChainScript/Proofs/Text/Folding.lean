import ChainScript.Chain.Stream
import ChainScript.Proofs.Binary.Reading
import ChainScript.Text.Line

/-!
# Folding commutes with reading text

Lowering the ASCII letters of a text lowers its bytes one by one, and moves no character to or
from the ones that lines, words and sentences are told by.  So a folded text has the folded lines
and words of the text, and bytes that differ in the case of ASCII letters only are decoded and cut
alike.

## Main definitions

* `lowerByte` — a byte, lowered if it is an ASCII capital.
* `Input.Alike` — streams that differ in the case of ASCII letters only.
-/

namespace ChainScript.Text

/-! ### Characters -/

theorem isUpper_iff {c : Char} : c.isUpper = true ↔ 65 ≤ c.toNat ∧ c.toNat ≤ 90 := by
  change decide ('A'.val ≤ c.val ∧ c.val ≤ 'Z'.val) = true ↔ _
  simp [UInt32.le_iff_toNat_le]

theorem isAlpha_iff {c : Char} :
    c.isAlpha = true ↔ 65 ≤ c.toNat ∧ c.toNat ≤ 90 ∨ 97 ≤ c.toNat ∧ c.toNat ≤ 122 := by
  change (c.isUpper || (decide ('a'.val ≤ c.val) && decide (c.val ≤ 'z'.val))) = true ↔ _
  simp [isUpper_iff, UInt32.le_iff_toNat_le]

/-- A character that is no capital stays. -/
theorem toLower_of_not_isUpper {c : Char} (hc : ¬ c.isUpper = true) : c.toLower = c := by
  refine dif_neg fun h => hc (isUpper_iff.2 ?_)
  simpa [UInt32.le_iff_toNat_le] using h

/-- A capital is moved by 32 places. -/
theorem toNat_toLower {c : Char} (hc : c.isUpper = true) :
    65 ≤ c.toNat ∧ c.toNat ≤ 90 ∧ c.toLower.toNat = c.toNat + 32 := by
  obtain ⟨hlo, hhi⟩ := isUpper_iff.1 hc
  have hlower : c.toLower = ⟨c.val + 32, _⟩ :=
    dif_pos (by simpa [UInt32.le_iff_toNat_le] using And.intro hlo hhi)
  have hval : c.val.toNat = c.toNat := rfl
  refine ⟨hlo, hhi, ?_⟩
  rw [hlower, ← Char.toNat_val, UInt32.toNat_add, hval]
  exact Nat.mod_eq_of_lt (by simp; omega)

/-- Lowering makes no character that is no letter, and moves none. -/
theorem toLower_eq_iff {c d : Char} (hd : d.isAlpha = false) : c.toLower = d ↔ c = d := by
  have hnot : ¬ d.isAlpha = true := by simp [hd]
  rw [isAlpha_iff] at hnot
  by_cases hc : c.isUpper = true
  · obtain ⟨hlo, hhi, hlower⟩ := toNat_toLower hc
    refine iff_of_false ?_ ?_
    · rintro rfl
      omega
    · rintro rfl
      omega
  · rw [toLower_of_not_isUpper hc]

theorem toLower_beq {c d : Char} (hd : d.isAlpha = false) : (c.toLower == d) = (c == d) := by
  rw [Bool.eq_iff_iff, beq_iff_eq, beq_iff_eq, toLower_eq_iff hd]

theorem isBlank_toLower (c : Char) : isBlank c.toLower = isBlank c := by
  by_cases hc : c.isUpper = true
  · obtain ⟨hlo, hhi, hlower⟩ := toNat_toLower hc
    have hnot : ∀ d : Char, 65 ≤ d.toNat → d.toNat ≤ 122 → isBlank d = false := by
      intro d h₁ h₂
      simp only [isBlank, Bool.or_eq_false_iff, Bool.and_eq_false_iff, decide_eq_false_iff_not,
        UInt32.le_iff_toNat_le, beq_eq_false_iff_ne, ne_eq, ← UInt32.toNat_inj, Char.toNat_val]
      simp
      omega
    rw [hnot c hlo (by omega), hnot c.toLower (by omega) (by omega)]
  · rw [toLower_of_not_isUpper hc]

/-! ### Bytes -/

/-- The byte, lowered if it is an ASCII capital. -/
def lowerByte (b : UInt8) : UInt8 := if 65 ≤ b ∧ b ≤ 90 then b + 32 else b

theorem bytes_eq (s : String) : bytes s = s.toList.flatMap String.utf8EncodeChar := by
  rw [bytes, String.toUTF8_eq_toByteArray, ← String.utf8Encode_toList, List.utf8Encode]
  simp

theorem toNat_lowerByte (b : UInt8) :
    (lowerByte b).toNat = if 65 ≤ b.toNat ∧ b.toNat ≤ 90 then b.toNat + 32 else b.toNat := by
  simp only [lowerByte, UInt8.le_iff_toNat_le, UInt8.reduceToNat]
  split
  · have hstep : (32 : UInt8).toNat = 32 := rfl
    rw [UInt8.toNat_add, hstep, Nat.mod_eq_of_lt (by omega)]
  · rfl

theorem lowerByte_lt_iff {b : UInt8} : (lowerByte b).toNat < 0x80 ↔ b.toNat < 0x80 := by
  rw [toNat_lowerByte]
  split <;> omega

theorem lowerByte_of_ge {b : UInt8} (h : 0x80 ≤ b.toNat) : lowerByte b = b := by
  rw [← UInt8.toNat_inj, toNat_lowerByte, if_neg (by omega)]

/-- A character is one byte, or bytes past ASCII. -/
theorem utf8EncodeChar_cases (c : Char) :
    c.toNat < 0x80 ∧ String.utf8EncodeChar c = [UInt8.ofNat c.toNat] ∨
      0x80 ≤ c.toNat ∧ ∀ b ∈ String.utf8EncodeChar c, 0x80 ≤ b.toNat := by
  have hval : c.val.toNat = c.toNat := rfl
  by_cases h : c.toNat < 0x80
  · refine .inl ⟨h, ?_⟩
    simp only [String.utf8EncodeChar, hval]
    rw [if_pos (by omega)]
  · refine .inr ⟨by omega, ?_⟩
    have hmod : ∀ n m base : Nat, 0 < m → m + base ≤ 256 → 128 ≤ base →
        0x80 ≤ (UInt8.ofNat (n % m + base)).toNat := by
      intro n m base hm hsum hbase
      have := Nat.mod_lt n hm
      rw [UInt8.toNat_ofNat', Nat.mod_eq_of_lt (by omega)]
      omega
    simp only [String.utf8EncodeChar, hval]
    rw [if_neg (by omega)]
    split
    · simp only [List.forall_mem_cons]
      exact ⟨hmod _ _ _ (by decide) (by decide) (by decide),
        hmod _ _ _ (by decide) (by decide) (by decide), nofun⟩
    · split
      · simp only [List.forall_mem_cons]
        exact ⟨hmod _ _ _ (by decide) (by decide) (by decide),
          hmod _ _ _ (by decide) (by decide) (by decide),
          hmod _ _ _ (by decide) (by decide) (by decide), nofun⟩
      · simp only [List.forall_mem_cons]
        exact ⟨hmod _ _ _ (by decide) (by decide) (by decide),
          hmod _ _ _ (by decide) (by decide) (by decide),
          hmod _ _ _ (by decide) (by decide) (by decide),
          hmod _ _ _ (by decide) (by decide) (by decide), nofun⟩

theorem map_lowerByte_of_ge {bs : List UInt8} (h : ∀ b ∈ bs, 0x80 ≤ b.toNat) :
    bs.map lowerByte = bs :=
  (List.map_congr_left fun b hb => lowerByte_of_ge (h b hb)).trans (List.map_id bs)

theorem utf8EncodeChar_toLower (c : Char) :
    String.utf8EncodeChar c.toLower = (String.utf8EncodeChar c).map lowerByte := by
  obtain ⟨hc, h⟩ | ⟨hc, h⟩ := utf8EncodeChar_cases c
  · have hn : (UInt8.ofNat c.toNat).toNat = c.toNat := by
      rw [UInt8.toNat_ofNat', Nat.mod_eq_of_lt (by omega)]
    have hlower : lowerByte (UInt8.ofNat c.toNat) = UInt8.ofNat c.toLower.toNat := by
      rw [← UInt8.ofNat_toNat (x := lowerByte _), toNat_lowerByte, hn]
      by_cases hu : c.isUpper = true
      · obtain ⟨hlo, hhi, hmoved⟩ := toNat_toLower hu
        rw [if_pos ⟨hlo, hhi⟩, hmoved]
      · rw [if_neg (mt isUpper_iff.2 hu), toLower_of_not_isUpper hu]
    obtain ⟨-, h'⟩ | ⟨hge, -⟩ := utf8EncodeChar_cases c.toLower
    · rw [h, h', List.map_singleton, hlower]
    · by_cases hu : c.isUpper = true
      · have := toNat_toLower hu
        omega
      · rw [toLower_of_not_isUpper hu] at hge
        omega
  · have hu : ¬c.isUpper = true := by
      intro hu
      have := (toNat_toLower hu).2.1
      omega
    rw [toLower_of_not_isUpper hu, map_lowerByte_of_ge h]

/-- Folding lowers the bytes one by one. -/
theorem bytes_fold (s : String) : bytes (fold s) = (bytes s).map lowerByte := by
  rw [bytes_eq, bytes_eq, toList_fold, List.map_flatMap, List.flatMap_map]
  exact List.flatMap_congr fun c _ => utf8EncodeChar_toLower c

/-- Bytes that lower to the bytes of a character are those of a character. -/
theorem exists_utf8EncodeChar {bs : List UInt8} {c : Char}
    (h : bs.map lowerByte = String.utf8EncodeChar c) : ∃ d, bs = String.utf8EncodeChar d := by
  obtain ⟨hc, hone⟩ | ⟨-, hge⟩ := utf8EncodeChar_cases c
  · -- One ASCII byte is lowered from one ASCII byte, which is a character.
    rw [hone, List.map_eq_singleton_iff] at h
    obtain ⟨b, rfl, hb⟩ := h
    have hlt : b.toNat < 0x80 := by
      rw [← lowerByte_lt_iff, hb, UInt8.toNat_ofNat', Nat.mod_eq_of_lt (by omega)]
      exact hc
    have hd : (Char.ofNat b.toNat).toNat = b.toNat := by
      rw [Char.ofNat, dif_pos (Or.inl (by omega))]
      rfl
    obtain ⟨-, h'⟩ | ⟨hge, -⟩ := utf8EncodeChar_cases (Char.ofNat b.toNat)
    · exact ⟨_, by rw [h', hd, UInt8.ofNat_toNat]⟩
    · omega
  · have hself : bs.map lowerByte = bs := by
      refine map_lowerByte_of_ge fun b hb => ?_
      have hlow := hge (lowerByte b) (h ▸ List.mem_map_of_mem hb)
      have hiff : (lowerByte b).toNat < 0x80 ↔ b.toNat < 0x80 := lowerByte_lt_iff
      omega
    exact ⟨c, hself.symm.trans h⟩

theorem exists_flatMap_utf8EncodeChar {bs : List UInt8} {cs : List Char}
    (h : bs.map lowerByte = cs.flatMap String.utf8EncodeChar) :
    ∃ ds : List Char, bs = ds.flatMap String.utf8EncodeChar := by
  induction cs generalizing bs with
  | nil => exact ⟨[], List.map_eq_nil_iff.1 h⟩
  | cons c cs ih =>
      rw [List.flatMap_cons, List.map_eq_append_iff] at h
      obtain ⟨front, rest, rfl, hfront, hrest⟩ := h
      obtain ⟨d, rfl⟩ := exists_utf8EncodeChar hfront
      obtain ⟨ds, rfl⟩ := ih hrest
      exact ⟨d :: ds, rfl⟩

/-- Lowering bytes makes no text of what is none. -/
theorem decode?_map_lowerByte (bs : List UInt8) :
    decode? (bs.map lowerByte) = (decode? bs).map fold := by
  cases hbs : decode? bs with
  | some s =>
      rw [Option.map_some, decode?_eq_some_iff, bytes_fold, decode?_eq_some_iff.1 hbs]
  | none =>
      rw [Option.map_none, Option.eq_none_iff_forall_ne_some]
      intro t ht
      rw [decode?_eq_some_iff, bytes_eq] at ht
      obtain ⟨ds, rfl⟩ := exists_flatMap_utf8EncodeChar ht.symm
      rw [← String.toList_ofList (l := ds), ← bytes_eq, decode?_eq_some_iff.2 rfl] at hbs
      cases hbs

/-! ### Pieces -/

/-- Cutting commutes with a map that keeps the separators. -/
theorem piecesBy_map {p : Char → Bool} {f : Char → Char} (hf : ∀ c, p (f c) = p c)
    (cs : List Char) : piecesBy p (cs.map f) = (piecesBy p cs).map (List.map f) := by
  induction cs with
  | nil => rfl
  | cons c cs ih =>
      rw [List.map_cons, piecesBy_cons, piecesBy_cons, hf, ih]
      split
      · rfl
      · cases piecesBy p cs with
        | nil => rfl
        | cons q qs => rfl

theorem ofList_map_toLower (cs : List Char) : String.ofList (cs.map Char.toLower) =
    fold (String.ofList cs) := by
  rw [← String.toList_inj, toList_fold, String.toList_ofList, String.toList_ofList]

theorem dropReturn_map (cs : List Char) :
    dropReturn (cs.map Char.toLower) = (dropReturn cs).map Char.toLower := by
  have hlast : (cs.map Char.toLower).getLast? = some '\r' ↔ cs.getLast? = some '\r' := by
    rw [List.getLast?_map, Option.map_eq_some_iff]
    simp only [toLower_eq_iff (d := '\r') (by decide)]
    simp
  simp only [dropReturn, hlast]
  split
  · rw [List.map_dropLast]
  · rfl

theorem lines_fold (s : String) : lines (fold s) = (lines s).map fold := by
  have hsep : ∀ c : Char, (c.toLower == '\n') = (c == '\n') := fun c => toLower_beq (by decide)
  rw [lines, lines, toList_fold, piecesBy_map hsep, List.map_map, List.map_map]
  refine List.map_congr_left fun cs _ => ?_
  rw [Function.comp_apply, Function.comp_apply, Function.comp_apply, Function.comp_apply,
    dropReturn_map, ofList_map_toLower]

theorem words_fold (s : String) : words (fold s) = (words s).map fold := by
  rw [words, words, toList_fold, piecesBy_map isBlank_toLower, List.filter_map, List.map_map,
    List.map_map]
  have hempty : ((fun cs : List Char => !cs.isEmpty) ∘ List.map Char.toLower) =
      fun cs : List Char => !cs.isEmpty := by
    funext cs
    rw [Function.comp_apply, List.isEmpty_map]
  rw [hempty]
  exact List.map_congr_left fun cs _ => ofList_map_toLower cs

theorem splitAt_fold {sep : Char} (hsep : sep.isAlpha = false) (s : String) :
    splitAt sep (fold s) = (splitAt sep s).map fold := by
  rw [splitAt, splitAt, toList_fold, piecesBy_map fun c => toLower_beq hsep, List.map_map,
    List.map_map]
  exact List.map_congr_left fun cs _ => ofList_map_toLower cs

theorem dropWhile_map_toLower {p : Char → Bool} (hp : ∀ c : Char, p c.toLower = p c)
    (cs : List Char) :
    (cs.map Char.toLower).dropWhile p = (cs.dropWhile p).map Char.toLower := by
  rw [List.dropWhile_map]
  congr 2
  funext c
  exact hp c

theorem endsSentence_fold (s : String) : endsSentence (fold s) = endsSentence s := by
  rw [endsSentence, endsSentence, toList_fold, ← List.map_reverse,
    dropWhile_map_toLower isBlank_toLower, List.head?_map]
  cases (s.toList.reverse.dropWhile isBlank).head? with
  | none => rfl
  | some c => exact toLower_beq (by decide)

end ChainScript.Text

namespace ChainScript.Chain

open Text

theorem newlinePieces_map (bs : List UInt8) :
    newlinePieces (bs.map lowerByte) = (newlinePieces bs).map (List.map lowerByte) := by
  have hten : ∀ b, lowerByte b = 10 ↔ b = 10 := by
    intro b
    rw [← UInt8.toNat_inj, ← UInt8.toNat_inj, toNat_lowerByte]
    have hstep : (10 : UInt8).toNat = 10 := rfl
    split <;> omega
  simp only [newlinePieces]
  induction bs with
  | nil => rfl
  | cons b bs ih =>
      rw [List.map_cons, List.foldr_cons, List.foldr_cons, ih]
      simp only [hten]
      split
      · rfl
      · generalize List.foldr _ _ bs = ps
        cases ps with
        | nil => rfl
        | cons q qs => rfl

/-- The streams differ in the case of ASCII letters only. -/
structure Input.Alike (input input' : Input) : Prop where
  bytes : input.bytes.map lowerByte = input'.bytes.map lowerByte
  failure : input.failure = input'.failure

theorem Input.Alike.rawLines {input input' : Input} (h : input.Alike input') :
    input.rawLines.map (List.map lowerByte) = input'.rawLines.map (List.map lowerByte) := by
  have hpieces : (newlinePieces input.bytes).map (List.map lowerByte) =
      (newlinePieces input'.bytes).map (List.map lowerByte) := by
    rw [← newlinePieces_map, h.bytes, newlinePieces_map]
  have hlast : (newlinePieces input.bytes).getLast? = some [] ↔
      (newlinePieces input'.bytes).getLast? = some [] := by
    have hempty : ∀ ps : List (List UInt8), ps.getLast? = some [] ↔
        (ps.map (List.map lowerByte)).getLast? = some [] := by
      intro ps
      rw [List.getLast?_map]
      cases ps.getLast? with
      | none => simp
      | some p => simp
    rw [hempty, hpieces, ← hempty]
  simp only [Input.rawLines, h.failure, hlast]
  split
  · rw [List.map_dropLast, List.map_dropLast, hpieces]
  · exact hpieces

end ChainScript.Chain
