import Mathlib.Tactic.Common
import FrenchNim.Proofs.Text.Places

namespace FrenchNim

/-!
# Encoding and decoding

The bytes of a text without stray bytes are decoded to the same text, and no byte
is lost by decoding. So bytes are shown as the characters of the UTF-8 sequences
in them, and all other bytes are replaced.
-/

namespace Utf8

section Sequences

variable {lead second third fourth : UInt8} (rest : Bytes)

/-- The bytes of a two-byte sequence are decoded as one. -/
theorem first_two
    (isLead : 0xC2 ≤ lead.toNat ∧ lead.toNat ≤ 0xDF)
    (isSecond : isTail second = true) :
    first lead (second :: rest) = (.char (two lead second), 1) := by
  have noAscii : ¬lead < 0x80 := by
    rw [UInt8.lt_iff_toNat_lt]
    simp only [UInt8.reduceToNat]
    omega
  have isTwo : (between 0xC2 0xDF lead && isTail second) = true := by
    rw [isSecond, Bool.and_true, between_iff]
    exact isLead
  unfold first
  match rest with
  | [] => simp only [if_neg noAscii, if_pos isTwo]
  | [_] => simp only [if_neg noAscii, if_pos isTwo]
  | _ :: _ :: _ => simp only [if_neg noAscii, if_pos isTwo]

/-- The bytes of a three-byte sequence are decoded as one. -/
theorem first_three
    (isLead : 0xE0 ≤ lead.toNat ∧ lead.toNat ≤ 0xEF)
    (isSecond : isTail second = true)
    (isThird : isTail third = true)
    (long : lead.toNat = 0xE0 → 0xA0 ≤ second.toNat)
    (noSurrogate : lead.toNat = 0xED → second.toNat ≤ 0x9F) :
    first lead (second :: third :: rest) = (.char (three lead second third), 2) := by
  have bounds := (isTail_iff _).mp isSecond
  have noAscii : ¬lead < 0x80 := by
    rw [UInt8.lt_iff_toNat_lt]
    simp only [UInt8.reduceToNat]
    omega
  have noTwo : ¬(between 0xC2 0xDF lead && isTail second) = true := by
    rw [Bool.and_eq_true, between_iff]
    simp only [UInt8.reduceToNat]
    omega
  have isThree : (isSecondOfThree lead second && isTail third) = true := by
    rw [isThird, Bool.and_true]
    unfold isSecondOfThree
    split
    · next isLow =>
        rw [isLow] at long
        exact (between_iff _ _ _).mpr ⟨long rfl, bounds.2⟩
    split
    · next isHigh =>
        rw [isHigh] at noSurrogate
        exact (between_iff _ _ _).mpr ⟨bounds.1, noSurrogate rfl⟩
    · next notLow _ =>
        rw [isSecond, Bool.and_true, between_iff]
        have other : lead.toNat ≠ 0xE0 := fun same => notLow (UInt8.toNat.inj same)
        simp only [UInt8.reduceToNat]
        omega
  unfold first
  match rest with
  | [] => simp only [if_neg noAscii, if_neg noTwo, if_pos isThree]
  | _ :: _ => simp only [if_neg noAscii, if_neg noTwo, if_pos isThree]

/-- The bytes of a four-byte sequence are decoded as one. -/
theorem first_four
    (isLead : 0xF0 ≤ lead.toNat ∧ lead.toNat ≤ 0xF4)
    (isSecond : isTail second = true)
    (isThird : isTail third = true)
    (isFourth : isTail fourth = true)
    (long : lead.toNat = 0xF0 → 0x90 ≤ second.toNat)
    (inRange : lead.toNat = 0xF4 → second.toNat ≤ 0x8F) :
    first lead (second :: third :: fourth :: rest) =
      (.char (four lead second third fourth), 3) := by
  have bounds := (isTail_iff _).mp isSecond
  have noAscii : ¬lead < 0x80 := by
    rw [UInt8.lt_iff_toNat_lt]
    simp only [UInt8.reduceToNat]
    omega
  have noTwo : ¬(between 0xC2 0xDF lead && isTail second) = true := by
    rw [Bool.and_eq_true, between_iff]
    simp only [UInt8.reduceToNat]
    omega
  have noThree : ¬(isSecondOfThree lead second && isTail third) = true := by
    have notLow : lead ≠ 0xE0 := by
      rintro rfl
      exact absurd isLead.1 (by decide)
    have notHigh : lead ≠ 0xED := by
      rintro rfl
      exact absurd isLead.1 (by decide)
    rw [isSecondOfThree, if_neg notLow, if_neg notHigh, Bool.and_eq_true, Bool.and_eq_true,
      between_iff]
    simp only [UInt8.reduceToNat]
    omega
  have isFour : (isSecondOfFour lead second && isTail third && isTail fourth) = true := by
    rw [isThird, isFourth, Bool.and_true, Bool.and_true]
    unfold isSecondOfFour
    split
    · next isLow =>
        rw [isLow] at long
        exact (between_iff _ _ _).mpr ⟨long rfl, bounds.2⟩
    split
    · next isHigh =>
        rw [isHigh] at inRange
        exact (between_iff _ _ _).mpr ⟨bounds.1, inRange rfl⟩
    · next notLow notHigh =>
        rw [isSecond, Bool.and_true, between_iff]
        have aboveLow : lead.toNat ≠ 0xF0 := fun same => notLow (UInt8.toNat.inj same)
        have belowHigh : lead.toNat ≠ 0xF4 := fun same => notHigh (UInt8.toNat.inj same)
        simp only [UInt8.reduceToNat]
        omega
  unfold first
  simp only [if_neg noAscii, if_neg noTwo, if_neg noThree, if_pos isFour]

end Sequences

end Utf8

namespace Source

/-- An encoded character is decoded as itself, whatever follows. -/
theorem ofBytes_encode (c : Char) (rest : Bytes) :
    ofBytes (String.utf8EncodeChar c ++ rest) = .char c :: ofBytes rest := by
  have valid : c.val.toNat.isValidChar := c.valid
  have isChar : ∀ {code : Nat}, code = c.val.toNat → Char.ofNat code = c := by
    rintro code rfl
    exact Char.ofNat_toNat c
  -- An encoding has one to four bytes, and each length is decoded by a branch of its own.
  unfold String.utf8EncodeChar
  generalize c.val.toNat = code at valid isChar
  unfold Nat.isValidChar at valid
  simp only
  split
  · next short =>
      have lead := UInt8.toNat_ofNat_of_lt' (show code < 256 by omega)
      generalize UInt8.ofNat code = first at lead ⊢
      have ascii : first < 0x80 := by
        rw [UInt8.lt_iff_toNat_lt, lead]
        exact Nat.lt_succ_of_le short
      rw [List.singleton_append, ofBytes_cons]
      unfold Utf8.first
      rw [if_pos ascii, isChar lead, List.drop_zero]
  split
  · next above below =>
      have lead := UInt8.toNat_ofNat_of_lt' (show code / 64 % 32 + 192 < 256 by omega)
      have second := UInt8.toNat_ofNat_of_lt' (show code % 64 + 128 < 256 by omega)
      generalize UInt8.ofNat (code / 64 % 32 + 192) = firstByte at lead ⊢
      generalize UInt8.ofNat (code % 64 + 128) = secondByte at second ⊢
      have same : Utf8.two firstByte secondByte = c := by
        refine isChar ?_
        rw [Utf8.tailBits, lead, second]
        omega
      rw [List.cons_append, List.singleton_append, ofBytes_cons,
        Utf8.first_two rest (by omega) ((Utf8.isTail_iff _).mpr (by omega)), same]
      rfl
  split
  · next above below =>
      have lead := UInt8.toNat_ofNat_of_lt' (show code / 4096 % 16 + 224 < 256 by omega)
      have second := UInt8.toNat_ofNat_of_lt' (show code / 64 % 64 + 128 < 256 by omega)
      have third := UInt8.toNat_ofNat_of_lt' (show code % 64 + 128 < 256 by omega)
      generalize UInt8.ofNat (code / 4096 % 16 + 224) = firstByte at lead ⊢
      generalize UInt8.ofNat (code / 64 % 64 + 128) = secondByte at second ⊢
      generalize UInt8.ofNat (code % 64 + 128) = thirdByte at third ⊢
      have same : Utf8.three firstByte secondByte thirdByte = c := by
        refine isChar ?_
        rw [Utf8.tailBits, Utf8.tailBits, lead, second, third]
        omega
      rw [List.cons_append, List.cons_append, List.singleton_append, ofBytes_cons,
        Utf8.first_three rest (by omega) ((Utf8.isTail_iff _).mpr (by omega))
          ((Utf8.isTail_iff _).mpr (by omega)) (by omega) (by omega), same]
      rfl
  · next above =>
      have lead := UInt8.toNat_ofNat_of_lt' (show code / 262144 % 8 + 240 < 256 by omega)
      have second := UInt8.toNat_ofNat_of_lt' (show code / 4096 % 64 + 128 < 256 by omega)
      have third := UInt8.toNat_ofNat_of_lt' (show code / 64 % 64 + 128 < 256 by omega)
      have fourth := UInt8.toNat_ofNat_of_lt' (show code % 64 + 128 < 256 by omega)
      generalize UInt8.ofNat (code / 262144 % 8 + 240) = firstByte at lead ⊢
      generalize UInt8.ofNat (code / 4096 % 64 + 128) = secondByte at second ⊢
      generalize UInt8.ofNat (code / 64 % 64 + 128) = thirdByte at third ⊢
      generalize UInt8.ofNat (code % 64 + 128) = fourthByte at fourth ⊢
      have same : Utf8.four firstByte secondByte thirdByte fourthByte = c := by
        refine isChar ?_
        rw [Utf8.tailBits, Utf8.tailBits, Utf8.tailBits, lead, second, third, fourth]
        omega
      rw [List.cons_append, List.cons_append, List.cons_append, List.singleton_append,
        ofBytes_cons, Utf8.first_four rest (by omega) ((Utf8.isTail_iff _).mpr (by omega))
          ((Utf8.isTail_iff _).mpr (by omega)) ((Utf8.isTail_iff _).mpr (by omega)) (by omega)
          (by omega), same]
      rfl

/-- The bytes of a text are decoded to its characters. -/
theorem ofBytes_toBytes_ofString (text : String) :
    ofBytes (toBytes (ofString text)) = ofString text := by
  unfold toBytes ofString
  induction text.toList with
  | nil => exact ofBytes_nil
  | cons c rest inductionHypothesis =>
      rw [List.map_cons, List.flatMap_cons, Rune.bytes, ofBytes_encode, inductionHypothesis]

/-- A loop over a byte array reads the bytes from its index on. -/
theorem toList_loop
    (bytes : ByteArray)
    (index : Nat)
    (read : Bytes) :
    ByteArray.toList.loop bytes index read = read.reverse ++ bytes.data.toList.drop index := by
  fun_induction ByteArray.toList.loop bytes index read with
  | case1 index read inside inductionHypothesis =>
      have within : index < bytes.data.toList.length := inside
      rw [inductionHypothesis, List.drop_eq_getElem_cons within, List.reverse_cons,
        List.append_assoc, List.singleton_append]
      simp [ByteArray.get!, getElem!_pos, inside]
  | case2 index read outside =>
      have passed : bytes.data.toList.length ≤ index := Nat.le_of_not_lt outside
      rw [List.drop_eq_nil_of_le passed, List.append_nil]

/-- The bytes of a text are its UTF-8 encoding. -/
theorem toBytes_ofString (text : String) :
    toBytes (ofString text) = text.toUTF8.toList := by
  have encoded : text.toUTF8.data.toList = text.toList.flatMap String.utf8EncodeChar := by
    rw [String.toUTF8, ← String.utf8Encode_toList, List.utf8Encode, List.toList_data_toByteArray]
  rw [ByteArray.toList, toList_loop, List.reverse_nil, List.nil_append, List.drop_zero, encoded,
    toBytes, ofString, List.flatMap_map]
  rfl

/--
The text that bytes are shown as, from left to right: a UTF-8 sequence is its character, and a byte
at which no sequence starts is replaced.
-/
inductive ShownAs : Bytes → List Char → Prop where
  | nil : ShownAs [] []
  | char {rest : Bytes} {text : List Char} (c : Char) (later : ShownAs rest text) :
      ShownAs (String.utf8EncodeChar c ++ rest) (c :: text)
  | stray {byte : UInt8} {rest : Bytes} {text : List Char}
      (outside : ∀ c behind, byte :: rest ≠ String.utf8EncodeChar c ++ behind)
      (later : ShownAs rest text) :
      ShownAs (byte :: rest) (Rune.replacement :: text)

/-- Bytes are shown as the text of the runes they are decoded to. -/
theorem shownAs_ofBytes : ∀ bytes : Bytes, ShownAs bytes ((ofBytes bytes).map Rune.toChar)
  | [] => by
      rw [ofBytes_nil]
      exact .nil
  | lead :: rest => by
      have later := shownAs_ofBytes (rest.drop (Utf8.first lead rest).2)
      have decoded := ofBytes_cons lead rest
      have taken := Utf8.bytes_first lead rest
      have shape := Utf8.first_first lead rest
      generalize Utf8.first lead rest = found at later decoded taken shape
      obtain ⟨rune, size⟩ := found
      rw [decoded, List.map_cons]
      cases rune with
      | char c =>
          have whole : lead :: rest = String.utf8EncodeChar c ++ rest.drop size := by
            rw [show String.utf8EncodeChar c = lead :: rest.take size from taken, List.cons_append,
              List.take_append_drop]
          rw [whole]
          exact .char c later
      | stray byte =>
          cases shape
          refine .stray (fun c behind whole => ?_) later
          rw [whole, ofBytes_encode] at decoded
          cases decoded
  termination_by bytes => bytes.length
  decreasing_by
    simp only [List.length_drop, List.length_cons]
    omega

end Source

end FrenchNim
