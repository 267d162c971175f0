namespace FrenchNim

/-!
# Source text

A source file is a byte string that is usually, but not always, valid UTF-8.
This module splits bytes into runes: a rune is either a character or one byte
that belongs to no well-formed sequence. Nothing is lost by the split, since
every rune remembers its own bytes.
-/

/-- A byte string. -/
abbrev Bytes := List UInt8

/-- One unit of decoded text: a character, or a byte outside every UTF-8 sequence. -/
inductive Rune where
  | char (value : Char)
  | stray (byte : UInt8)
  deriving Repr, DecidableEq

/-- Decoded source text. -/
abbrev Source := List Rune

namespace Rune

/-- The character that stands for a stray byte wherever text is shown. -/
def replacement : Char := '\uFFFD'

/-- The character a rune is read as. -/
def toChar : Rune → Char
  | char value => value
  | stray _ => replacement

/-- The bytes a rune was decoded from. -/
def bytes : Rune → Bytes
  | char value => String.utf8EncodeChar value
  | stray byte => [byte]

/-- The number of bytes of a rune. -/
def width : Rune → Nat
  | char value => value.utf8Size
  | stray _ => 1

/-- The width counts the bytes. -/
theorem length_bytes (rune : Rune) : rune.bytes.length = rune.width := by
  cases rune with
  | char value =>
      simp [bytes, width]
  | stray byte =>
      rfl

end Rune

namespace Utf8

/-- The byte lies between the two bounds. -/
def between (low high byte : UInt8) : Bool :=
  low ≤ byte && byte ≤ high

/-- A byte that may follow the second byte of a sequence. -/
def isTail (byte : UInt8) : Bool :=
  between 0x80 0xBF byte

/-- A second byte that makes a three-byte sequence with the given lead. -/
def isSecondOfThree (lead second : UInt8) : Bool :=
  if lead = 0xE0 then between 0xA0 0xBF second
  else if lead = 0xED then between 0x80 0x9F second
  else between 0xE1 0xEF lead && isTail second

/-- A second byte that makes a four-byte sequence with the given lead. -/
def isSecondOfFour (lead second : UInt8) : Bool :=
  if lead = 0xF0 then between 0x90 0xBF second
  else if lead = 0xF4 then between 0x80 0x8F second
  else between 0xF1 0xF3 lead && isTail second

/-- The six value bits of a tail byte. -/
def tailBits (byte : UInt8) : Nat :=
  byte.toNat % 0x40

/-- The character of a two-byte sequence. -/
def two (lead second : UInt8) : Char :=
  Char.ofNat (lead.toNat % 0x20 * 0x40 + tailBits second)

/-- The character of a three-byte sequence. -/
def three (lead second third : UInt8) : Char :=
  Char.ofNat (lead.toNat % 0x10 * 0x1000 + tailBits second * 0x40 + tailBits third)

/-- The character of a four-byte sequence. -/
def four (lead second third fourth : UInt8) : Char :=
  Char.ofNat
    (lead.toNat % 0x08 * 0x40000 + tailBits second * 0x1000 +
      tailBits third * 0x40 + tailBits fourth)

/-- The first rune of a non-empty byte string, and how many bytes after the lead it takes. -/
def first (lead : UInt8) (rest : Bytes) : Rune × Nat :=
  if lead < 0x80 then
    (.char (Char.ofNat lead.toNat), 0)
  else
    match rest with
    | second :: third :: fourth :: _ =>
        if between 0xC2 0xDF lead && isTail second then
          (.char (two lead second), 1)
        else if isSecondOfThree lead second && isTail third then
          (.char (three lead second third), 2)
        else if isSecondOfFour lead second && isTail third && isTail fourth then
          (.char (four lead second third fourth), 3)
        else
          (.stray lead, 0)
    | [second, third] =>
        if between 0xC2 0xDF lead && isTail second then
          (.char (two lead second), 1)
        else if isSecondOfThree lead second && isTail third then
          (.char (three lead second third), 2)
        else
          (.stray lead, 0)
    | [second] =>
        if between 0xC2 0xDF lead && isTail second then
          (.char (two lead second), 1)
        else
          (.stray lead, 0)
    | [] =>
        (.stray lead, 0)

/-- Decode the bytes behind runes that are already decoded, newest first. -/
def decodeOnto (decoded : Source) : Bytes → Source
  | [] => decoded.reverse
  | lead :: rest =>
      let (rune, taken) := first lead rest
      decodeOnto (rune :: decoded) (rest.drop taken)
  termination_by bytes => bytes.length
  decreasing_by
    simp only [List.length_drop, List.length_cons]
    omega

end Utf8

namespace Source

/-- Split a byte string into runes. -/
def ofBytes (bytes : Bytes) : Source :=
  Utf8.decodeOnto [] bytes

/-- The runes of a text without stray bytes. -/
def ofString (text : String) : Source :=
  text.toList.map .char

/-- The bytes of a text. -/
def toBytes (source : Source) : Bytes :=
  source.flatMap Rune.bytes

/-- The text as it is shown, with one replacement character per stray byte. -/
def shown (source : Source) : String :=
  String.ofList (source.map Rune.toChar)

/-- The number of bytes of a text. -/
def byteSize (source : Source) : Nat :=
  source.foldl (fun size rune => size + rune.width) 0

end Source

end FrenchNim
