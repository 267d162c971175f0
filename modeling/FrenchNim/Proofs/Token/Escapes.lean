import FrenchNim.Proofs.Text.Places
import FrenchNim.Proofs.Token.Gaps

namespace FrenchNim

/-!
# Escaped quotes

A quote of a string is escaped if a backslash stands in front of it that is not
escaped itself. So the backslashes in front of it are counted, in the bytes as
well as in the runes that they are decoded to. A string ends at the first of its
quotes that is not escaped.
-/

/-! ## Escaped characters -/

/-- The byte of a backslash. -/
def backslashByte : UInt8 := 0x5C

/--
What follows the bytes of a string is escaped: the backslashes at their end escape one another,
and one is left.
-/
def EndsInEscape (bytes : Bytes) : Prop :=
  Odd (bytes.rtakeWhile (· = backslashByte)).length

namespace Source

/-- The backslashes at the end of a text. -/
def backslashes (text : Source) : Source :=
  text.rtakeWhile (·.toChar = '\\')

/-- A further character in front matters only if all others are backslashes. -/
theorem backslashes_cons (first : Rune) (text : Source) :
    backslashes (first :: text) =
      if text.all (·.toChar = '\\') then backslashes [first] ++ text else backslashes text := by
  induction text using List.reverseRecOn with
  | nil => simp
  | append_singleton text last inductionHypothesis =>
      unfold backslashes at *
      rw [← List.cons_append, List.rtakeWhile_concat, List.rtakeWhile_concat, inductionHypothesis]
      by_cases isBackslash : last.toChar = '\\'
      · simp only [isBackslash, decide_true, if_true, List.all_append, List.all_cons, List.all_nil,
          Bool.and_true]
        split
        · rw [List.append_assoc]
        · rfl
      · simp [isBackslash]

/-- A text of backslashes ends in all of them. -/
theorem backslashes_of_all {text : Source} (all : text.all (·.toChar = '\\') = true) :
    backslashes text = text :=
  List.rtakeWhile_eq_self_iff.mpr (List.all_eq_true.mp all)

/-- The text of a string ends in a backslash that escapes what follows. -/
def EndsInEscape (text : Source) : Prop :=
  Odd text.backslashes.length

/-- An empty text escapes nothing. -/
theorem not_endsInEscape_nil : ¬EndsInEscape [] := by
  simp [EndsInEscape, backslashes]

/-- A single backslash escapes what follows. -/
theorem endsInEscape_singleton {rune : Rune} (isBackslash : rune.toChar = '\\') :
    EndsInEscape [rune] := by
  rw [EndsInEscape, backslashes_of_all (by simp [isBackslash])]
  exact odd_one

section

variable {first : Rune} {text : Source}

/-- A rune that is no backslash escapes nothing. -/
theorem endsInEscape_cons (plain : first.toChar ≠ '\\') :
    EndsInEscape (first :: text) ↔ EndsInEscape text := by
  have none : backslashes [first] = [] := by
    simp [backslashes, plain]
  rw [EndsInEscape, EndsInEscape, backslashes_cons, none]
  split
  · next all => rw [backslashes_of_all all, List.nil_append]
  · rfl

/-- A backslash and what it escapes do not count. -/
theorem endsInEscape_cons_cons (escapes : first.toChar = '\\') (escaped : Rune) :
    EndsInEscape (first :: escaped :: text) ↔ EndsInEscape text := by
  by_cases isBackslash : escaped.toChar = '\\'
  · have one : backslashes [first] = [first] := backslashes_of_all (by simp [escapes])
    have other : backslashes [escaped] = [escaped] := backslashes_of_all (by simp [isBackslash])
    rw [EndsInEscape, EndsInEscape, backslashes_cons, backslashes_cons escaped, one, other,
      List.all_cons, decide_eq_true isBackslash, Bool.true_and]
    split
    · next all =>
        rw [backslashes_of_all all]
        simp [parity_simps]
    · rfl
  · rw [EndsInEscape, backslashes_cons, List.all_cons, decide_eq_false isBackslash, Bool.false_and,
      if_neg Bool.false_ne_true]
    exact endsInEscape_cons isBackslash

end

/-- Decoding keeps the backslashes at the end. -/
theorem endsInEscape_ofBytes (bytes : Bytes) :
    EndsInEscape (ofBytes bytes) ↔ FrenchNim.EndsInEscape bytes := by
  have isAscii : backslashByte < 0x80 := by
    decide
  have sameLength : (ofBytes bytes).backslashes.length =
      (bytes.rtakeWhile (· = backslashByte)).length := by
    induction bytes using List.reverseRecOn with
    | nil => simp [backslashes]
    | append_singleton bytes last inductionHypothesis =>
        by_cases isBackslash : last = backslashByte
        · subst isBackslash
          rw [ofBytes_append_ascii isAscii, ofBytes_nil, backslashes,
            List.rtakeWhile_concat_pos _ _ _ (by decide),
            List.rtakeWhile_concat_pos _ _ _ (by decide), List.length_append, List.length_append]
          exact congrArg (· + 1) inductionHypothesis
        · -- No backslash comes out of a last byte that is none.
          rw [List.rtakeWhile_concat_neg _ _ _ (by simpa using isBackslash), List.length_nil,
            List.length_eq_zero_iff]
          rcases List.eq_nil_or_concat (ofBytes (bytes ++ [last])) with empty | ⟨front, rune, split⟩
          · rw [empty]
            rfl
          · rw [List.concat_eq_append] at split
            rw [split]
            refine List.rtakeWhile_concat_neg _ _ _ ?_
            simp only [decide_eq_true_eq]
            intro escapes
            cases Rune.eq_char escapes (by decide)
            obtain ⟨before, rest, whole, -, atEnd⟩ := exists_bytes_of_ascii isAscii split
            have nothing := toBytes_ofBytes rest
            rw [atEnd] at nothing
            cases nothing
            exact isBackslash (List.append_singleton_inj.mp whole).2
  rw [EndsInEscape, FrenchNim.EndsInEscape, sameLength]

end Source

/-! ## Strings whose quotes are all escaped -/

/-- Every quote of the text is escaped. -/
def Source.QuotesEscaped (quote : Char) (text : Source) : Prop :=
  ∀ before closing behind, text = before ++ closing :: behind → closing.toChar = quote →
    Source.EndsInEscape before

/-- The byte of a quote of either kind. -/
def IsQuoteByte (byte : UInt8) : Prop :=
  byte = 0x22 ∨ byte = 0x27

/-- A quote is a single byte. -/
theorem IsQuoteByte.isAscii {byte : UInt8} (isQuote : IsQuoteByte byte) : byte < 0x80 := by
  rcases isQuote with rfl | rfl <;> decide

/-- Every quote of the bytes is escaped. -/
def QuotesEscaped (quote : UInt8) (bytes : Bytes) : Prop :=
  ∀ before behind, bytes = before ++ quote :: behind → EndsInEscape before

namespace Source

section

variable {quote : Char} {first : Rune} {text : Source}

/-- An empty text holds no quote. -/
theorem quotesEscaped_nil (quote : Char) : QuotesEscaped quote [] :=
  fun before _ _ split _ => by simp at split

/-- A quote at the beginning is not escaped. -/
theorem not_quotesEscaped_cons (isQuote : first.toChar = quote) :
    ¬QuotesEscaped quote (first :: text) :=
  fun escaped => not_endsInEscape_nil (escaped [] first text rfl isQuote)

/-- A rune that is no quote and no backslash has no part in it. -/
theorem quotesEscaped_cons (noQuote : first.toChar ≠ quote) (plain : first.toChar ≠ '\\') :
    QuotesEscaped quote (first :: text) ↔ QuotesEscaped quote text := by
  constructor
  · intro escaped before closing behind split isQuote
    exact (endsInEscape_cons plain).mp
      (escaped (first :: before) closing behind (by rw [split]; rfl) isQuote)
  · intro escaped before closing behind split isQuote
    cases before with
    | nil =>
        cases split
        exact (noQuote isQuote).elim
    | cons rune before =>
        obtain ⟨rfl, later⟩ := List.cons.inj split
        exact (endsInEscape_cons plain).mpr (escaped before closing behind later isQuote)

/-- A backslash escapes the rune behind it, be it a quote or not. -/
theorem quotesEscaped_cons_cons
    (noQuote : first.toChar ≠ quote)
    (escapes : first.toChar = '\\')
    (escaped : Rune) :
    QuotesEscaped quote (first :: escaped :: text) ↔ QuotesEscaped quote text := by
  constructor
  · intro allEscaped before closing behind split isQuote
    exact (endsInEscape_cons_cons escapes escaped).mp
      (allEscaped (first :: escaped :: before) closing behind (by rw [split]; rfl) isQuote)
  · intro allEscaped before closing behind split isQuote
    match before with
    | [] =>
        cases split
        exact (noQuote isQuote).elim
    | [rune] =>
        cases split
        exact endsInEscape_singleton escapes
    | rune :: other :: before =>
        obtain ⟨rfl, tail⟩ := List.cons.inj split
        obtain ⟨rfl, later⟩ := List.cons.inj tail
        exact (endsInEscape_cons_cons escapes escaped).mpr
          (allEscaped before closing behind later isQuote)

end

/-- Quotes are ASCII characters, so they and the backslashes are found in the bytes. -/
theorem quotesEscaped_ofBytes
    {quote : UInt8}
    (isQuote : IsQuoteByte quote)
    (bytes : Bytes) :
    (ofBytes bytes).QuotesEscaped (Char.ofNat quote.toNat) ↔
      FrenchNim.QuotesEscaped quote bytes := by
  constructor
  · intro escaped before behind split
    rw [split, ofBytes_append_ascii isQuote.isAscii] at escaped
    exact (endsInEscape_ofBytes before).mp (escaped _ _ _ rfl rfl)
  · intro escaped before closing behind split closes
    have valid : Char.ofNat quote.toNat ≠ Rune.replacement := by
      rcases isQuote with rfl | rfl <;> decide
    cases Rune.eq_char closes valid
    obtain ⟨front, rest, whole, rfl, -⟩ := exists_bytes_of_ascii isQuote.isAscii split
    exact (endsInEscape_ofBytes front).mpr (escaped front rest whole)

end Source

namespace Piece

/-- A string does not end if all quotes behind its first one are escaped. -/
theorem isTerminated_cutString
    (quote : Char)
    (value : List Char)
    (covered rest : Source) :
    (cutString quote value covered rest).1.isTerminated = false ↔ rest.QuotesEscaped quote := by
  fun_induction cutString quote value covered rest with
  | case1 => exact iff_of_true rfl (Source.quotesEscaped_nil quote)
  | case2 value covered rune rest isQuote =>
      exact iff_of_false (by simp [isTerminated]) (Source.not_quotesEscaped_cons isQuote)
  | case3 value covered rune noQuote escapes =>
      refine iff_of_true rfl fun before closing behind split isQuote => ?_
      cases before with
      | nil =>
          cases split
          exact (noQuote isQuote).elim
      | cons => simp at split
  | case4 value covered rune noQuote escapes escaped rest inductionHypothesis =>
      rw [inductionHypothesis, Source.quotesEscaped_cons_cons noQuote escapes]
  | case5 value covered rune rest noQuote plain inductionHypothesis =>
      rw [inductionHypothesis, Source.quotesEscaped_cons noQuote plain]

end Piece

end FrenchNim
