import Mathlib.Data.List.DropRight
import FrenchNim.Text.Position
import FrenchNim.Proofs.Text.Decoding

namespace FrenchNim

/-!
# Places in a byte string

A place is told by its offset alone: its line is the number of line breaks
before it, and its column is the number of runes behind the last of them. The
position that is counted rune by rune is the place of the bytes that were
passed, since runes are as wide as the bytes they were decoded from and the
bytes before a rune are decoded to the runes before it.
-/

/-- The bytes behind the last line break. -/
def lastLine (bytes : Bytes) : Bytes :=
  bytes.rtakeWhile (· ≠ lineBreakByte)

/-- The place of the byte with the given offset. -/
def Position.ofOffset (input : Bytes) (offset : Nat) : Position :=
  let passed := input.take offset
  ⟨offset, 1 + passed.count lineBreakByte, (Source.ofBytes (lastLine passed)).length⟩

namespace Utf8

/-! ## The width of a decoded rune -/

/-- What the first rune of a byte string can be, and how many bytes it takes behind the lead. -/
inductive First (lead : UInt8) : Bytes → Rune × Nat → Prop where
  | ascii {rest : Bytes} (isAscii : lead < 0x80) :
      First lead rest (.char (Char.ofNat lead.toNat), 0)
  | two {second : UInt8} {rest : Bytes} (isLead : between 0xC2 0xDF lead = true) :
      First lead (second :: rest) (.char (two lead second), 1)
  | three {second third : UInt8} {rest : Bytes} (isSecond : isSecondOfThree lead second = true) :
      First lead (second :: third :: rest) (.char (three lead second third), 2)
  | four {second third fourth : UInt8} {rest : Bytes}
      (isSecond : isSecondOfFour lead second = true) :
      First lead (second :: third :: fourth :: rest) (.char (four lead second third fourth), 3)
  | stray {rest : Bytes} : First lead rest (.stray lead, 0)

theorem first_first
    (lead : UInt8)
    (rest : Bytes) :
    First lead rest (first lead rest) := by
  unfold first
  split
  · next isAscii => exact .ascii isAscii
  split
  · split
    · next isTwo => exact .two (Bool.and_eq_true_iff.mp isTwo).1
    split
    · next isThree => exact .three (Bool.and_eq_true_iff.mp isThree).1
    split
    · next isFour => exact .four (Bool.and_eq_true_iff.mp (Bool.and_eq_true_iff.mp isFour).1).1
    · exact .stray
  · split
    · next isTwo => exact .two (Bool.and_eq_true_iff.mp isTwo).1
    split
    · next isThree => exact .three (Bool.and_eq_true_iff.mp isThree).1
    · exact .stray
  · split
    · next isTwo => exact .two (Bool.and_eq_true_iff.mp isTwo).1
    · exact .stray
  · exact .stray

/-- No more bytes are taken than there are. -/
theorem First.taken_le_length
    {lead : UInt8}
    {rest : Bytes}
    {found : Rune × Nat}
    (shape : First lead rest found) :
    found.2 ≤ rest.length := by
  cases shape <;> simp

/-- A decoded rune is as wide as the bytes that were taken for it. -/
theorem width_first (lead : UInt8) (rest : Bytes) :
    (first lead rest).1.width = (first lead rest).2 + 1 := by
  have within := (first_first lead rest).taken_le_length
  rw [← Rune.length_bytes, bytes_first, List.length_cons, List.length_take_of_le within]

/-- The first rune does not depend on bytes that are not taken for it. -/
theorem first_take
    (lead : UInt8)
    (rest : Bytes)
    {size : Nat}
    (enough : (first lead rest).2 ≤ size) :
    first lead (rest.take size) = first lead rest := by
  by_cases ascii : lead < 0x80
  · simp only [first, if_pos ascii]
  simp only [first, if_neg ascii] at enough ⊢
  match rest, size with
  | [], _ => rw [List.take_nil]
  | [second], 0 => grind
  | [second], size + 1 => simp
  | [second, third], 0 => grind
  | [second, third], 1 => grind
  | [second, third], size + 2 => simp
  | second :: third :: fourth :: more, 0 => grind
  | second :: third :: fourth :: more, 1 => grind
  | second :: third :: fourth :: more, 2 => grind
  | second :: third :: fourth :: more, size + 3 => simp

end Utf8

namespace Source

theorem byteSize_nil : byteSize [] = 0 :=
  rfl

/-- Sizes add up. -/
theorem byteSize_cons
    (rune : Rune)
    (text : Source) :
    byteSize (rune :: text) = rune.width + byteSize text := by
  have shift : ∀ (text : Source) (size : Nat),
      text.foldl (fun size rune => size + rune.width) size = size + byteSize text := by
    intro text
    induction text with
    | nil =>
        exact fun size => rfl
    | cons rune text inductionHypothesis =>
        intro size
        unfold byteSize
        rw [List.foldl_cons, List.foldl_cons, inductionHypothesis, inductionHypothesis]
        omega
  unfold byteSize
  rw [List.foldl_cons, shift, Nat.zero_add]
  rfl

theorem byteSize_append (left right : Source) :
    byteSize (left ++ right) = byteSize left + byteSize right := by
  induction left with
  | nil =>
      simp [byteSize_nil]
  | cons rune rest inductionHypothesis =>
      rw [List.cons_append, byteSize_cons, byteSize_cons, inductionHypothesis, Nat.add_assoc]

/-- Decoding keeps the size. -/
theorem byteSize_ofBytes :
    ∀ bytes : Bytes, byteSize (ofBytes bytes) = bytes.length
  | [] => by
      rw [ofBytes_nil]
      rfl
  | lead :: rest => by
      have within := (Utf8.first_first lead rest).taken_le_length
      rw [ofBytes_cons, byteSize_cons, byteSize_ofBytes (rest.drop (Utf8.first lead rest).2),
        Utf8.width_first lead rest, List.length_drop, List.length_cons]
      omega
  termination_by bytes => bytes.length
  decreasing_by
    simp only [List.length_drop, List.length_cons]
    omega

/-- The bytes before a rune are decoded to the runes before it. -/
theorem ofBytes_take :
    ∀ {before behind : Source} {bytes : Bytes}, ofBytes bytes = before ++ behind →
      ofBytes (bytes.take before.byteSize) = before
  | [], behind, bytes, decoded => by
      rw [byteSize_nil, List.take_zero, ofBytes_nil]
  | rune :: before, behind, [], decoded => by
      rw [ofBytes_nil] at decoded
      cases decoded
  | rune :: before, behind, lead :: rest, decoded => by
      rw [ofBytes_cons, List.cons_append] at decoded
      obtain ⟨isFirst, later⟩ := List.cons.inj decoded
      have inner := ofBytes_take later
      have width := Utf8.width_first lead rest
      rw [isFirst] at width
      have size : byteSize (rune :: before) = (Utf8.first lead rest).2 + byteSize before + 1 := by
        rw [byteSize_cons]
        omega
      rw [size, List.take_succ_cons, ofBytes_cons, Utf8.first_take lead rest (by omega), isFirst,
        List.drop_take, Nat.add_sub_cancel_left, inner]

/-- The bytes behind runes are decoded to the runes behind them. -/
theorem ofBytes_drop :
    ∀ {before behind : Source} {bytes : Bytes}, ofBytes bytes = before ++ behind →
      ofBytes (bytes.drop before.byteSize) = behind
  | [], behind, bytes, decoded => by
      rw [byteSize_nil, List.drop_zero, decoded, List.nil_append]
  | rune :: before, behind, [], decoded => by
      rw [ofBytes_nil] at decoded
      cases decoded
  | rune :: before, behind, lead :: rest, decoded => by
      rw [ofBytes_cons, List.cons_append] at decoded
      obtain ⟨isFirst, later⟩ := List.cons.inj decoded
      have inner := ofBytes_drop later
      have width := Utf8.width_first lead rest
      rw [isFirst] at width
      have size : byteSize (rune :: before) = (Utf8.first lead rest).2 + byteSize before + 1 := by
        rw [byteSize_cons]
        omega
      rw [size, List.drop_succ_cons, ← List.drop_drop, inner]

/-- An ASCII character of the decoded text is a byte of its own, and the rest is decoded apart. -/
theorem exists_bytes_of_ascii
    {byte : UInt8}
    (isAscii : byte < 0x80)
    {bytes : Bytes}
    {before behind : Source}
    (decoded : ofBytes bytes = before ++ .char (Char.ofNat byte.toNat) :: behind) :
    ∃ front rest, bytes = front ++ byte :: rest ∧ ofBytes front = before ∧
      ofBytes rest = behind := by
  have dropped := ofBytes_drop decoded
  have isByte : bytes.drop before.byteSize = byte :: toBytes behind := by
    have whole := toBytes_ofBytes (bytes.drop before.byteSize)
    rw [dropped] at whole
    rw [← whole, toBytes, List.flatMap_cons, Rune.bytes, Utf8.encode_ascii isAscii]
    rfl
  refine ⟨bytes.take before.byteSize, toBytes behind, ?_, ofBytes_take decoded, ?_⟩
  · rw [← isByte, List.take_append_drop]
  · have apart := ofBytes_append_ascii isAscii [] (toBytes behind)
    rw [List.nil_append, ← isByte, dropped, ofBytes_nil, List.nil_append] at apart
    exact (List.cons.inj apart).2.symm

end Source

/-! ## The position behind a byte string -/

/-- The last line stands behind every line break. -/
theorem lastLine_lineBreak
    (front behind : Bytes) :
    lastLine (front ++ lineBreakByte :: behind) = lastLine behind := by
  unfold lastLine List.rtakeWhile
  rw [List.reverse_append, List.reverse_cons, List.append_assoc, List.takeWhile_append]
  split
  · next noBreak =>
      have sole := (List.takeWhile_prefix _).eq_of_length noBreak
      rw [sole, List.singleton_append, List.takeWhile_cons_of_neg (by simp), List.append_nil]
  · rfl

/-- Bytes without a line break are their own last line. -/
theorem lastLine_eq_self
    {bytes : Bytes}
    (noBreak : lineBreakByte ∉ bytes) :
    lastLine bytes = bytes := by
  refine List.rtakeWhile_eq_self_iff.mpr fun byte member => decide_eq_true ?_
  rintro rfl
  exact noBreak member

/-- Bytes without a line break are decoded to runes without one. -/
theorem Source.lineBreak_notMem_ofBytes
    {bytes : Bytes}
    (noBreak : lineBreakByte ∉ bytes) :
    lineBreak ∉ ofBytes bytes := by
  intro member
  obtain ⟨front, behind, split⟩ := List.append_of_mem member
  obtain ⟨before, after, rfl, -⟩ := exists_bytes_of_lineBreak split
  exact noBreak (by simp)

namespace Position

/-- Behind a line break a new line starts. -/
theorem next_lineBreak
    (position : Position) :
    position.next lineBreak = ⟨position.offset + 1, position.line + 1, 0⟩ :=
  rfl

/-- A text without line breaks is passed within one line. -/
theorem after_line
    (position : Position)
    {text : Source}
    (noBreak : lineBreak ∉ text) :
    position.after text =
      ⟨position.offset + text.byteSize, position.line, position.column + text.length⟩ := by
  induction text generalizing position with
  | nil =>
      simp [Source.byteSize_nil]
  | cons rune text inductionHypothesis =>
      rw [List.mem_cons, not_or] at noBreak
      have plain : rune.toChar ≠ '\n' := fun isBreak =>
        noBreak.1 (toChar_eq_lineBreak.mp isBreak).symm
      rw [after_cons, inductionHypothesis _ noBreak.2, next, if_neg plain, Source.byteSize_cons,
        List.length_cons]
      simp only [mk.injEq, true_and]
      omega

/-- From the start of a line, the position behind a byte string is told by its bytes. -/
theorem after_ofBytes
    (bytes : Bytes)
    (position : Position)
    (atStart : position.column = 0) :
    position.after (.ofBytes bytes) =
      ⟨position.offset + bytes.length, position.line + bytes.count lineBreakByte,
        (Source.ofBytes (lastLine bytes)).length⟩ := by
  by_cases hasBreak : lineBreakByte ∈ bytes
  · -- The first line is passed, and the next one starts at column zero again.
    obtain ⟨line, behind, whole, noBreak⟩ := List.eq_append_cons_of_mem hasBreak
    have shorter : behind.length < bytes.length := by
      rw [whole, List.length_append, List.length_cons]
      omega
    have firstLine := after_line position (Source.lineBreak_notMem_ofBytes noBreak)
    have others := after_ofBytes behind ((position.after (.ofBytes line)).next lineBreak) rfl
    rw [whole, Source.ofBytes_lineBreak, after_append, after_cons, others, firstLine,
      lastLine_lineBreak, Source.byteSize_ofBytes, List.count_append, List.count_cons_self,
      List.count_eq_zero.mpr noBreak, List.length_append, List.length_cons]
    simp only [next_lineBreak, Position.mk.injEq, and_true]
    omega
  · rw [after_line position (Source.lineBreak_notMem_ofBytes hasBreak), Source.byteSize_ofBytes,
      lastLine_eq_self hasBreak, List.count_eq_zero.mpr hasBreak, atStart]
    simp
  termination_by bytes.length

/-- The position behind the first runes of a text is the place of their size. -/
theorem after_eq_ofOffset
    {input : Bytes}
    {before behind : Source}
    (split : Source.ofBytes input = before ++ behind) :
    start.after before = ofOffset input before.byteSize := by
  have counted := after_ofBytes (input.take before.byteSize) start rfl
  have size := Source.byteSize_ofBytes (input.take before.byteSize)
  rw [Source.ofBytes_take split] at counted size
  rw [counted, ← size]
  simp [ofOffset, start]

end Position

end FrenchNim
