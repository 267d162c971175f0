import Mathlib
import FrenchNim.Proofs.Text.Encoding
import FrenchNim.Proofs.Token.Pieces
import FrenchNim.Proofs.Token.Spelling

namespace FrenchNim

/-!
# Quoted bytes

Bytes are quoted one by one, while a literal is read rune by rune. Only ASCII
characters are escaped, and by ASCII characters, so decoding the quoted bytes
makes the quoted runes: no escape stands inside a longer sequence, and none ends
a sequence that is cut off. The literal is then read up to its last quote.
-/

namespace Quoted

/-! ## Decoding quoted bytes -/

/-- Only ASCII characters are escaped. -/
theorem escape_of_high {c : Char} (high : ¬c.toNat < 0x80) : escape c = [c] := by
  unfold escape
  split
  case h_6 => rfl
  all_goals exact (high (by decide)).elim

/-- The escaped form of an ASCII character is ASCII. -/
theorem escape_ascii {c : Char} (isAscii : c.toNat < 0x80) :
    ∀ part ∈ escape c, part.toNat < 0x80 := by
  unfold escape
  split
  case h_6 => exact List.forall_mem_singleton.mpr isAscii
  all_goals exact List.forall_mem_cons.mpr ⟨by decide, List.forall_mem_singleton.mpr (by decide)⟩

theorem escapeByte_of_high {byte : UInt8} (high : ¬byte < 0x80) : escapeByte byte = [byte] := by
  have code : (Char.ofNat byte.toNat).toNat = byte.toNat :=
    Utf8.val_ofNat (.inl (Nat.lt_trans byte.toNat_lt (by decide)))
  have highCode : ¬(Char.ofNat byte.toNat).toNat < 0x80 := by
    rwa [code]
  rw [escapeByte, escape_of_high highCode, List.map_singleton, code, UInt8.ofNat_toNat]

/-- The escaped form of an ASCII byte is decoded to the escaped form of its character. -/
theorem ofBytes_escapeByte
    {byte : UInt8}
    (isAscii : byte < 0x80)
    (front behind : Bytes) :
    Source.ofBytes (front ++ (escapeByte byte ++ behind)) =
      Source.ofBytes front ++
        (escapeRune (.char (Char.ofNat byte.toNat)) ++ Source.ofBytes behind) := by
  have code : (Char.ofNat byte.toNat).toNat = byte.toNat :=
    Utf8.val_ofNat (.inl (Nat.lt_trans byte.toNat_lt (by decide)))
  have small : (Char.ofNat byte.toNat).toNat < 0x80 := by
    rw [code]
    exact UInt8.lt_iff_toNat_lt.mp isAscii
  have present : escape (Char.ofNat byte.toNat) ≠ [] := by
    unfold escape
    split <;> exact List.cons_ne_nil _ _
  exact Source.ofBytes_append_asciis (escape_ascii small) present front behind

/-- Bytes that are not ASCII are decoded to runes that are not escaped. -/
theorem flatMap_escapeRune_of_high
    {bytes : Bytes}
    (high : ∀ byte ∈ bytes, ¬byte < 0x80) :
    (Source.ofBytes bytes).flatMap escapeRune = Source.ofBytes bytes := by
  have plain : ∀ rune ∈ Source.ofBytes bytes, escapeRune rune = [rune] := by
    intro rune member
    cases rune with
    | stray byte => rfl
    | char c =>
        rw [escapeRune, escape_of_high, List.map_singleton]
        intro isAscii
        have code := UInt8.toNat_ofNat_of_lt' (Nat.lt_trans isAscii (by decide : 128 < UInt8.size))
        have low : UInt8.ofNat c.toNat < 0x80 := by
          rw [UInt8.lt_iff_toNat_lt, code]
          exact isAscii
        have encoded := Utf8.encode_ascii low
        rw [code, Char.ofNat_toNat] at encoded
        have isByte : UInt8.ofNat c.toNat ∈ Source.toBytes (Source.ofBytes bytes) := by
          refine List.mem_flatMap.mpr ⟨.char c, member, ?_⟩
          rw [Rune.bytes, encoded]
          exact List.mem_singleton_self _
        rw [Source.toBytes_ofBytes] at isByte
        exact high _ isByte low
  exact (List.flatMap_congr plain).trans (List.flatMap_singleton' _)

/-- Escaped bytes with a quote behind them are decoded to the escaped runes and the quote. -/
theorem ofBytes_escaped :
    ∀ (bytes high : Bytes), (∀ byte ∈ high, ¬byte < 0x80) →
      Source.ofBytes (high ++ (bytes.flatMap escapeByte ++ [0x22])) =
        (Source.ofBytes (high ++ bytes)).flatMap escapeRune ++ [Rune.char '"']
  | [], high, isHigh => by
      rw [List.flatMap_nil, List.nil_append, List.append_nil, flatMap_escapeRune_of_high isHigh,
        Source.ofBytes_append_ascii (by decide), Source.ofBytes_nil]
      rfl
  | byte :: bytes, high, isHigh => by
      rw [List.flatMap_cons, List.append_assoc]
      by_cases isAscii : byte < 0x80
      · have later := ofBytes_escaped bytes [] nofun
        rw [List.nil_append, List.nil_append] at later
        rw [ofBytes_escapeByte isAscii, later, Source.ofBytes_append_ascii isAscii,
          List.flatMap_append, List.flatMap_cons, flatMap_escapeRune_of_high isHigh,
          List.append_assoc, List.append_assoc]
      · have later := ofBytes_escaped bytes (high ++ [byte])
          (List.forall_mem_append.mpr ⟨isHigh, List.forall_mem_singleton.mpr isAscii⟩)
        rw [List.append_assoc, List.append_assoc] at later
        rw [escapeByte_of_high isAscii]
        exact later

/-- Quoting bytes and decoding them is decoding the bytes and quoting the runes. -/
theorem ofBytes_quoted (bytes : Bytes) :
    Source.ofBytes (ofBytes bytes) = ofSource (Source.ofBytes bytes) := by
  have isAscii : (0x22 : UInt8) < 0x80 := by
    decide
  have inner := ofBytes_escaped bytes [] nofun
  have outer := Source.ofBytes_append_ascii isAscii [] (bytes.flatMap escapeByte ++ [0x22])
  rw [List.nil_append, List.nil_append] at inner
  rw [List.nil_append, Source.ofBytes_nil, List.nil_append, inner] at outer
  exact outer

/-- The quoted bytes of a text without stray bytes are the bytes of its literal. -/
theorem ofBytes_literal (text : String) :
    ofBytes (Source.ofString text).toBytes = (Source.ofString (literal text)).toBytes := by
  have decoded := ofBytes_quoted (Source.ofString text).toBytes
  have runes : ofSource (Source.ofString text) = Source.ofString (literal text) := by
    rw [ofSource, Source.ofString, flatMap_escapeRune_ofList, Source.ofString, literal,
      String.toList_ofList, encode]
    simp
  rw [Source.ofBytes_toBytes_ofString, runes] at decoded
  rw [← decoded, Source.toBytes_ofBytes]

/-! ## Reading a literal -/

/-- A quoted text is one piece, a string that denotes what the text is shown as. -/
theorem pieces_ofSource (text : Source) :
    Lexer.pieces (ofSource text) = [.token .string text.shown (ofSource text)] := by
  obtain ⟨whole, isCut⟩ := cutString_escapeRune [] text [] [.char '"']
  have covered := Piece.text_cutString '"' [] [.char '"']
    (text.flatMap escapeRune ++ Rune.char '"' :: [])
  rw [isCut] at covered
  have same : whole = ofSource text := by
    rw [List.append_nil] at covered
    exact covered
  have cut : Piece.cut (.char '"') (text.flatMap escapeRune ++ [Rune.char '"']) =
      (.token .string text.shown (ofSource text), []) := by
    rw [← same]
    exact isCut
  rw [ofSource, List.cons_append, Lexer.pieces_cons, cut, Lexer.pieces_nil]
  rfl

/-- The places of the last byte of a literal and of the end of the input behind it. -/
theorem after_ofSource (bytes : Bytes) :
    Position.start.after (ofSource (Source.ofBytes bytes)).dropLast =
        .ofOffset (ofBytes bytes) ((ofBytes bytes).length - 1) ∧
      Position.start.after (ofSource (Source.ofBytes bytes)) =
        .ofOffset (ofBytes bytes) (ofBytes bytes).length := by
  have decoded := ofBytes_quoted bytes
  have whole : Source.ofBytes (ofBytes bytes) = ofSource (Source.ofBytes bytes) ++ [] := by
    rw [decoded, List.append_nil]
  have split : Source.ofBytes (ofBytes bytes) =
      (ofSource (Source.ofBytes bytes)).dropLast ++ [Rune.char '"'] := by
    rw [decoded, ofSource, List.dropLast_concat]
  have size := Source.byteSize_ofBytes (ofBytes bytes)
  have frontSize : Source.byteSize (ofSource (Source.ofBytes bytes)).dropLast =
      (ofBytes bytes).length - 1 := by
    rw [← size, split, Source.byteSize_append]
    rfl
  rw [Position.after_eq_ofOffset split, Position.after_eq_ofOffset whole, frontSize, ← decoded, size]
  exact ⟨rfl, rfl⟩

end Quoted

/--
Quoted bytes are read as one string that spans them all, and as nothing else. It denotes the bytes,
with a replacement character for each byte outside of a UTF-8 sequence.
-/
theorem lex_quoted (bytes : Bytes) :
    ∃ literal : String,
      lex (.ofBytes (Quoted.ofBytes bytes)) = .ok
        [⟨.string, literal, ⟨.start,
            .ofOffset (Quoted.ofBytes bytes) ((Quoted.ofBytes bytes).length - 1)⟩⟩,
          .endOfInput (.ofOffset (Quoted.ofBytes bytes) (Quoted.ofBytes bytes).length)] ∧
      Source.ShownAs bytes literal.toList ∧
      ∀ text : String, bytes = (Source.ofString text).toBytes →
        literal = text ∧
          Quoted.ofBytes bytes = (Source.ofString (Quoted.literal text)).toBytes := by
  have pieces := Quoted.pieces_ofSource (Source.ofBytes bytes)
  obtain ⟨last, behind⟩ := Quoted.after_ofSource bytes
  refine ⟨(Source.ofBytes bytes).shown, ?_, ?_, ?_⟩
  · rw [Quoted.ofBytes_quoted, Lexer.lex_eq_ok_iff, pieces, Lexer.tokensAt, Lexer.tokensAt, last,
      behind]
    exact ⟨by simp [Piece.isTerminated], by simp [tokenLimit], rfl⟩
  · rw [Source.shown, String.toList_ofList]
    exact Source.shownAs_ofBytes bytes
  · rintro text rfl
    refine ⟨?_, Quoted.ofBytes_literal text⟩
    rw [Source.ofBytes_toBytes_ofString, Source.shown, Source.ofString, List.map_map,
      show Rune.toChar ∘ Rune.char = id from rfl, List.map_id, String.ofList_toList]

/-- A sequence that is cut off by a quote, a stray byte, a letter of two bytes, and a backslash. -/
def brokenSequence : Bytes :=
  [0xE2, 0x82, 0x22, 0xAC, 0xC3, 0xA9, 0x5C]

/-- The escapes of the quote and of the backslash at the end do not move the end of the literal. -/
theorem lex_quoted_brokenSequence :
    lex (.ofBytes (Quoted.ofBytes brokenSequence)) = .ok
      [⟨.string, "\uFFFD\uFFFD\"\uFFFDé\\", ⟨.start, ⟨10, 1, 9⟩⟩⟩, .endOfInput ⟨11, 1, 10⟩] ∧
    Source.ShownAs brokenSequence "\uFFFD\uFFFD\"\uFFFDé\\".toList := by
  have evaluated : lex (.ofBytes (Quoted.ofBytes brokenSequence)) = .ok
      [⟨.string, "\uFFFD\uFFFD\"\uFFFDé\\", ⟨.start, ⟨10, 1, 9⟩⟩⟩, .endOfInput ⟨11, 1, 10⟩] := by
    cbv
  obtain ⟨literal, lexed, shown, -⟩ := lex_quoted brokenSequence
  rw [evaluated, Except.ok.injEq, List.cons.injEq, Token.mk.injEq] at lexed
  obtain ⟨⟨-, sameLiteral, -⟩, -⟩ := lexed
  exact ⟨evaluated, sameLiteral ▸ shown⟩

end FrenchNim
