import FrenchNim.Text.Rune

namespace FrenchNim

/-!
# Decoding bytes

The byte of an ASCII character, such as a line break, belongs to no longer
sequence, so the bytes on its two sides are decoded independently of each other.
A decoded rune has the bytes that it was decoded from, so no byte is lost.
-/

/-- The byte of a line break. -/
def lineBreakByte : UInt8 := 0x0A

/-- The rune of a line break. -/
def lineBreak : Rune := .char '\n'

/-- Only the rune of a line break is read as one. -/
theorem toChar_eq_lineBreak
    {rune : Rune} :
    rune.toChar = '\n' ↔ rune = lineBreak := by
  cases rune with
  | char value =>
      exact ⟨congrArg Rune.char, Rune.char.inj⟩
  | stray byte =>
      exact iff_of_false (show Rune.replacement ≠ '\n' by decide) nofun

namespace Utf8

theorem decodeOnto_cons (decoded : Source) (lead : UInt8) (rest : Bytes) :
    decodeOnto decoded (lead :: rest) =
      decodeOnto ((first lead rest).1 :: decoded) (rest.drop (first lead rest).2) := by
  rw [decodeOnto]

/-- Decoding appends to what is already decoded. -/
theorem decodeOnto_eq :
    ∀ (bytes : Bytes) (decoded : Source),
      decodeOnto decoded bytes = decoded.reverse ++ decodeOnto [] bytes
  | [], decoded => by
      simp [decodeOnto]
  | lead :: rest, decoded => by
      rw [decodeOnto_cons decoded, decodeOnto_cons [],
        decodeOnto_eq (rest.drop (first lead rest).2) ((first lead rest).1 :: decoded),
        decodeOnto_eq (rest.drop (first lead rest).2) [(first lead rest).1]]
      simp
  termination_by bytes => bytes.length
  decreasing_by
    all_goals
      simp only [List.length_drop, List.length_cons]
      omega

theorem between_iff (low high byte : UInt8) :
    between low high byte = true ↔ low.toNat ≤ byte.toNat ∧ byte.toNat ≤ high.toNat := by
  simp [between, UInt8.le_iff_toNat_le]

/-- The byte of an ASCII character is below the bytes that longer sequences are made of. -/
theorem not_between_of_ascii
    {low high byte : UInt8}
    (isAscii : byte < 0x80)
    (above : 0x80 ≤ low) :
    between low high byte = false := by
  rw [Bool.eq_false_iff, ne_eq, between_iff]
  rw [UInt8.lt_iff_toNat_lt] at isAscii
  rw [UInt8.le_iff_toNat_le] at above
  omega

theorem not_isTail_of_ascii {byte : UInt8} (isAscii : byte < 0x80) : isTail byte = false :=
  not_between_of_ascii isAscii (by decide)

theorem not_isSecondOfThree_of_ascii (lead : UInt8) {byte : UInt8} (isAscii : byte < 0x80) :
    isSecondOfThree lead byte = false := by
  unfold isSecondOfThree
  rw [not_isTail_of_ascii isAscii, Bool.and_false]
  split
  · exact not_between_of_ascii isAscii (by decide)
  split
  · exact not_between_of_ascii isAscii (by decide)
  · rfl

theorem not_isSecondOfFour_of_ascii (lead : UInt8) {byte : UInt8} (isAscii : byte < 0x80) :
    isSecondOfFour lead byte = false := by
  unfold isSecondOfFour
  rw [not_isTail_of_ascii isAscii, Bool.and_false]
  split
  · exact not_between_of_ascii isAscii (by decide)
  split
  · exact not_between_of_ascii isAscii (by decide)
  · rfl

/-- The first rune does not reach over an ASCII character. -/
theorem first_before_ascii
    (lead : UInt8)
    (front behind : Bytes)
    {byte : UInt8}
    (isAscii : byte < 0x80) :
    first lead (front ++ byte :: behind) = first lead front ∧
      (first lead front).2 ≤ front.length := by
  have noTail := not_isTail_of_ascii isAscii
  have noThird := not_isSecondOfThree_of_ascii lead isAscii
  have noFourth := not_isSecondOfFour_of_ascii lead isAscii
  unfold first
  by_cases ascii : lead < 0x80
  · simp [ascii]
  rw [if_neg ascii, if_neg ascii]
  match front, behind with
  | [], [] => simp [noTail]
  | [], [_] => simp [noTail, noThird]
  | [], _ :: _ :: _ => simp [noTail, noThird, noFourth]
  | [second], [] =>
      simp [noTail]
      split <;> simp
  | [second], _ :: _ =>
      simp [noTail]
      split <;> simp
  | [second, third], _ =>
      simp [noTail]
      split
      · simp
      split <;> simp
  | second :: third :: fourth :: more, _ =>
      simp only [List.cons_append, true_and]
      split
      · simp
      split
      · simp
      split <;> simp

/-! ## The bytes of a decoded rune -/

/-- Tail bytes are told by their number. -/
theorem isTail_iff (byte : UInt8) :
    isTail byte = true ↔ 0x80 ≤ byte.toNat ∧ byte.toNat ≤ 0xBF :=
  between_iff _ _ _

theorem val_ofNat
    {code : Nat}
    (valid : code.isValidChar) :
    (Char.ofNat code).val.toNat = code := by
  unfold Char.ofNat
  rw [dif_pos valid]
  rfl

section Sequences

variable {lead second third fourth : UInt8}

/--
The bounds of the first two bytes of a three-byte sequence. Its code is one of a character, and no
shorter sequence has it.
-/
theorem bounds_three (isSecond : isSecondOfThree lead second = true) (third : UInt8) :
    ((0xE0 ≤ lead.toNat ∧ lead.toNat ≤ 0xEF) ∧ 0x80 ≤ second.toNat ∧ second.toNat ≤ 0xBF) ∧
      0x7FF < lead.toNat % 0x10 * 0x1000 + tailBits second * 0x40 + tailBits third ∧
        (lead.toNat % 0x10 * 0x1000 + tailBits second * 0x40 + tailBits third).isValidChar := by
  unfold isSecondOfThree at isSecond
  unfold Nat.isValidChar tailBits
  split at isSecond
  · next isLead =>
      have bounds := (between_iff _ _ _).mp isSecond
      simp only [isLead, UInt8.reduceToNat] at bounds ⊢
      omega
  split at isSecond
  · next isLead =>
      have bounds := (between_iff _ _ _).mp isSecond
      simp only [isLead, UInt8.reduceToNat] at bounds ⊢
      omega
  · next notSurrogate =>
      rw [Bool.and_eq_true, between_iff, isTail_iff] at isSecond
      have other : lead.toNat ≠ 0xED := fun same => notSurrogate (UInt8.toNat.inj same)
      simp only [UInt8.reduceToNat] at isSecond
      omega

/--
The bounds of the first two bytes of a four-byte sequence. Its code is one of a character, and no
shorter sequence has it.
-/
theorem bounds_four (isSecond : isSecondOfFour lead second = true) (third fourth : UInt8) :
    ((0xF0 ≤ lead.toNat ∧ lead.toNat ≤ 0xF4) ∧ 0x80 ≤ second.toNat ∧ second.toNat ≤ 0xBF) ∧
      0xFFFF < lead.toNat % 0x08 * 0x40000 + tailBits second * 0x1000 +
          tailBits third * 0x40 + tailBits fourth ∧
        (lead.toNat % 0x08 * 0x40000 + tailBits second * 0x1000 +
          tailBits third * 0x40 + tailBits fourth).isValidChar := by
  unfold isSecondOfFour at isSecond
  unfold Nat.isValidChar tailBits
  split at isSecond
  · next isLead =>
      have bounds := (between_iff _ _ _).mp isSecond
      simp only [isLead, UInt8.reduceToNat] at bounds ⊢
      omega
  split at isSecond
  · next isLead =>
      have bounds := (between_iff _ _ _).mp isSecond
      simp only [isLead, UInt8.reduceToNat] at bounds ⊢
      omega
  · rw [Bool.and_eq_true, between_iff, isTail_iff] at isSecond
    simp only [UInt8.reduceToNat] at isSecond
    omega

/-- A byte is told by its number. -/
theorem byte_ofNat (byte : UInt8) {number : Nat} (isNumber : number = byte.toNat) :
    UInt8.ofNat number = byte := by
  rw [isNumber, UInt8.ofNat_toNat]

/-- The bytes of the character of a two-byte sequence. -/
theorem encode_two
    (isLead : between 0xC2 0xDF lead = true)
    (isSecond : isTail second = true) :
    String.utf8EncodeChar (two lead second) = [lead, second] := by
  have leadBounds := (between_iff _ _ _).mp isLead
  have secondBounds := (isTail_iff _).mp isSecond
  simp only [UInt8.reduceToNat] at leadBounds
  have code : (two lead second).val.toNat = _ := val_ofNat (.inl (by unfold tailBits; omega))
  unfold String.utf8EncodeChar
  rw [code]
  unfold tailBits
  simp only
  rw [if_neg (by omega), if_pos (by omega), byte_ofNat lead (by omega),
    byte_ofNat second (by omega)]

/-- The bytes of the character of a three-byte sequence. -/
theorem encode_three
    (isSecond : isSecondOfThree lead second = true)
    (isThird : isTail third = true) :
    String.utf8EncodeChar (three lead second third) = [lead, second, third] := by
  obtain ⟨bounds, codes⟩ := bounds_three isSecond third
  have thirdBounds := (isTail_iff _).mp isThird
  have code : (three lead second third).val.toNat = _ := val_ofNat codes.2
  unfold String.utf8EncodeChar
  rw [code]
  unfold tailBits at codes ⊢
  simp only
  rw [if_neg (by omega), if_neg (by omega), if_pos (by omega),
    byte_ofNat lead (by omega), byte_ofNat second (by omega), byte_ofNat third (by omega)]

/-- The bytes of the character of a four-byte sequence. -/
theorem encode_four
    (isSecond : isSecondOfFour lead second = true)
    (isThird : isTail third = true)
    (isFourth : isTail fourth = true) :
    String.utf8EncodeChar (four lead second third fourth) = [lead, second, third, fourth] := by
  obtain ⟨bounds, codes⟩ := bounds_four isSecond third fourth
  have thirdBounds := (isTail_iff _).mp isThird
  have fourthBounds := (isTail_iff _).mp isFourth
  have code : (four lead second third fourth).val.toNat = _ := val_ofNat codes.2
  unfold String.utf8EncodeChar
  rw [code]
  unfold tailBits at codes ⊢
  simp only
  rw [if_neg (by omega), if_neg (by omega), if_neg (by omega),
    byte_ofNat lead (by omega), byte_ofNat second (by omega), byte_ofNat third (by omega),
    byte_ofNat fourth (by omega)]

/-- The bytes of the character of a single byte. -/
theorem encode_ascii (isAscii : lead < 0x80) :
    String.utf8EncodeChar (Char.ofNat lead.toNat) = [lead] := by
  rw [UInt8.lt_iff_toNat_lt] at isAscii
  simp only [UInt8.reduceToNat] at isAscii
  have code : (Char.ofNat lead.toNat).val.toNat = _ := val_ofNat (.inl (by omega))
  unfold String.utf8EncodeChar
  rw [code]
  simp only
  rw [if_pos (by omega), byte_ofNat lead rfl]

/-- The bytes of the first rune are the bytes that it takes. -/
theorem bytes_first (lead : UInt8) (rest : Bytes) :
    (first lead rest).1.bytes = lead :: rest.take (first lead rest).2 := by
  unfold first
  split
  · next isAscii => exact encode_ascii isAscii
  split
  · simp only [Bool.and_eq_true]
    split
    · next isTwo => exact encode_two isTwo.1 isTwo.2
    split
    · next isThree => exact encode_three isThree.1 isThree.2
    split
    · next isFour => exact encode_four isFour.1.1 isFour.1.2 isFour.2
    · rfl
  · simp only [Bool.and_eq_true]
    split
    · next isTwo => exact encode_two isTwo.1 isTwo.2
    split
    · next isThree => exact encode_three isThree.1 isThree.2
    · rfl
  · simp only [Bool.and_eq_true]
    split
    · next isTwo => exact encode_two isTwo.1 isTwo.2
    · rfl
  · rfl

end Sequences

/-- Only the byte of a line break is decoded to a line break. -/
theorem lead_of_first_eq_lineBreak
    {lead : UInt8}
    {rest : Bytes}
    (isBreak : (first lead rest).1 = lineBreak) :
    lead = lineBreakByte := by
  have taken := bytes_first lead rest
  rw [isBreak] at taken
  exact (List.cons.inj taken).1.symm

end Utf8

namespace Source

@[simp] theorem ofBytes_nil : ofBytes [] = [] := by
  unfold ofBytes
  rw [Utf8.decodeOnto]
  rfl

/-- The first rune of a byte string and the rest of it. -/
theorem ofBytes_cons (lead : UInt8) (rest : Bytes) :
    ofBytes (lead :: rest) =
      (Utf8.first lead rest).1 :: ofBytes (rest.drop (Utf8.first lead rest).2) := by
  unfold ofBytes
  rw [Utf8.decodeOnto_cons, Utf8.decodeOnto_eq]
  rfl

/-- Nothing is lost by decoding. -/
theorem toBytes_ofBytes : ∀ bytes : Bytes, toBytes (ofBytes bytes) = bytes
  | [] => by
      rw [ofBytes_nil]
      rfl
  | lead :: rest => by
      have later := toBytes_ofBytes (rest.drop (Utf8.first lead rest).2)
      rw [toBytes] at later ⊢
      rw [ofBytes_cons, List.flatMap_cons, later, Utf8.bytes_first, List.cons_append,
        List.take_append_drop]
  termination_by bytes => bytes.length
  decreasing_by
    simp only [List.length_drop, List.length_cons]
    omega

/-- Bytes before and behind an ASCII character are decoded apart. -/
theorem ofBytes_append_ascii
    {byte : UInt8}
    (isAscii : byte < 0x80) :
    ∀ (front behind : Bytes),
      ofBytes (front ++ byte :: behind) =
        ofBytes front ++ .char (Char.ofNat byte.toNat) :: ofBytes behind
  | [], behind => by
      rw [List.nil_append, ofBytes_cons, ofBytes_nil]
      unfold Utf8.first
      rw [if_pos isAscii]
      rfl
  | lead :: rest, behind => by
      obtain ⟨same, within⟩ := Utf8.first_before_ascii lead rest behind isAscii
      rw [List.cons_append, ofBytes_cons, same, List.drop_append_of_le_length within,
        ofBytes_append_ascii isAscii (rest.drop (Utf8.first lead rest).2) behind,
        ofBytes_cons lead rest]
      rfl
  termination_by front => front.length
  decreasing_by
    simp only [List.length_drop, List.length_cons]
    omega

/-- ASCII characters are decoded one by one, whatever stands around them. -/
theorem ofBytes_append_asciis
    {text : List Char}
    (ascii : ∀ c ∈ text, c.toNat < 0x80)
    (present : text ≠ [])
    (front behind : Bytes) :
    ofBytes (front ++ (text.map (UInt8.ofNat ·.toNat) ++ behind)) =
      ofBytes front ++ (text.map .char ++ ofBytes behind) := by
  induction text generalizing front with
  | nil => exact (present rfl).elim
  | cons c rest inductionHypothesis =>
      obtain ⟨here, later⟩ := List.forall_mem_cons.mp ascii
      have code : (UInt8.ofNat c.toNat).toNat = c.toNat :=
        UInt8.toNat_ofNat_of_lt' (Nat.lt_trans here (by decide))
      have isAscii : UInt8.ofNat c.toNat < 0x80 := by
        rw [UInt8.lt_iff_toNat_lt, code]
        exact here
      rw [List.map_cons, List.cons_append, ofBytes_append_ascii isAscii, code, Char.ofNat_toNat]
      by_cases last : rest = []
      · subst last
        rfl
      · have others := inductionHypothesis later last []
        rw [List.nil_append, ofBytes_nil] at others
        rw [others]
        rfl

/-- Characters among the first 128 are decoded one by one. -/
theorem ofBytes_ascii
    {text : List Char}
    (ascii : ∀ c ∈ text, c.toNat < 0x80) :
    ofBytes (text.map (UInt8.ofNat ·.toNat)) = text.map .char := by
  by_cases empty : text = []
  · subst empty
    exact ofBytes_nil
  · have decoded := ofBytes_append_asciis ascii empty [] []
    rwa [List.append_nil, List.nil_append, ofBytes_nil, List.nil_append, List.append_nil] at decoded

/-- Bytes before and behind a line break are decoded apart. -/
theorem ofBytes_lineBreak (front behind : Bytes) :
    ofBytes (front ++ lineBreakByte :: behind) = ofBytes front ++ lineBreak :: ofBytes behind :=
  ofBytes_append_ascii (by decide) front behind

/-- A line break of the decoded text is a line break of the bytes. -/
theorem exists_bytes_of_lineBreak :
    ∀ {front : Source} {bytes : Bytes} {behind : Source},
      ofBytes bytes = front ++ lineBreak :: behind →
      ∃ before after, bytes = before ++ lineBreakByte :: after ∧ ofBytes before = front
  | front, [], behind, decoded => by
      simp at decoded
  | [], lead :: rest, behind, decoded => by
      rw [ofBytes_cons] at decoded
      cases Utf8.lead_of_first_eq_lineBreak (List.cons.inj decoded).1
      exact ⟨[], rest, rfl, ofBytes_nil⟩
  | rune :: front, lead :: rest, behind, decoded => by
      rw [ofBytes_cons] at decoded
      obtain ⟨isFirst, later⟩ := List.cons.inj decoded
      obtain ⟨before, after, split, decodedFront⟩ := exists_bytes_of_lineBreak later
      have whole : lead :: rest =
          (lead :: rest.take (Utf8.first lead rest).2 ++ before) ++ lineBreakByte :: after := by
        rw [List.append_assoc, ← split, List.cons_append, List.take_append_drop]
      refine ⟨_, after, whole, ?_⟩
      rw [split, ofBytes_lineBreak, decodedFront] at later
      have sameBehind := List.append_cancel_left later
      have decodedWhole := ofBytes_cons lead rest
      rw [whole, ofBytes_lineBreak, split, ofBytes_lineBreak, decodedFront, isFirst,
        ← List.cons_append] at decodedWhole
      exact List.append_cancel_right decodedWhole

end Source

end FrenchNim
