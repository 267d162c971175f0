import Mathlib
import FrenchNim.Grammar.Program
import FrenchNim.Nim.Emit

namespace FrenchNim.Nim

/-!
# Reading string literals back

A string literal of Nim ends at the first quote that no backslash stands before,
and no line break may stand in it. A backslash gives the next character another
meaning. The code of a string has backslashes before its quotes, but those of the
string itself are written as they are. So it is read back as the same string only
if the string has one line and each of its backslashes stands in front of an
apostrophe, whose own backslash then is the one that is escaped.
-/

/-- A character that may not stand in a literal. -/
def isLineEnd (c : Char) : Bool :=
  c = '\n' || c = '\r'

/--
Read a literal behind its opening quote: its value, and the text behind it.

`meaning` tells what a character stands for behind a backslash.
-/
def readQuoted (meaning : Char → Char) : List Char → Option (List Char × List Char)
  | [] => none
  | c :: rest =>
      if c = '"' then
        some ([], rest)
      else if isLineEnd c then
        none
      else if c = '\\' then
        match rest with
        | [] => none
        | escaped :: rest =>
            if isLineEnd escaped then
              none
            else
              (readQuoted meaning rest).map (.map (meaning escaped :: ·) id)
      else
        (readQuoted meaning rest).map (.map (c :: ·) id)

/-- Read the literal at the head of a text: its value, and the text behind it. -/
def readLiteral (meaning : Char → Char) : List Char → Option (List Char × List Char)
  | [] => none
  | c :: rest => if c = '"' then readQuoted meaning rest else none

/-- A string of one line in which every backslash stands in front of an apostrophe. -/
structure Denotable (value : List Char) : Prop where
  oneLine : ∀ c ∈ value, isLineEnd c = false
  escapes : ∀ behind, '\\' :: behind <:+ value → ['\''] <+: behind

/-- The characters of a string as they stand between the quotes of its literal. -/
def escaped (value : List Char) : List Char :=
  value.flatMap fun c =>
    if c = '"' then ['\\', '"'] else if c = '\'' then ['\\', '\''] else [c]

/-- A literal is the escaped text of its string between quotes. -/
theorem toList_stringLiteral (value : String) :
    (stringLiteral value).toList = '"' :: escaped value.toList ++ ['"'] :=
  String.toList_ofList

section Escaped

variable {c : Char} {value : List Char}

@[simp] theorem escaped_nil : escaped [] = [] :=
  rfl

/-- A quote is escaped. -/
theorem escaped_quote : escaped ('"' :: value) = '\\' :: '"' :: escaped value :=
  rfl

/-- An apostrophe is escaped. -/
theorem escaped_apostrophe : escaped ('\'' :: value) = '\\' :: '\'' :: escaped value :=
  rfl

/-- Nothing else is escaped, a backslash neither. -/
theorem escaped_other
    (noQuote : c ≠ '"')
    (noApostrophe : c ≠ '\'') :
    escaped (c :: value) = c :: escaped value := by
  simp [escaped, noQuote, noApostrophe]

end Escaped

namespace Denotable

variable {c : Char} {value : List Char}

/-- The empty string can be denoted. -/
theorem nil : Denotable [] where
  oneLine := by simp
  escapes behind inside := by simp at inside

/-- A character that is no backslash only must not end the line. -/
theorem cons_iff
    (noEscape : c ≠ '\\') :
    Denotable (c :: value) ↔ isLineEnd c = false ∧ Denotable value := by
  constructor
  · intro denotable
    refine ⟨denotable.oneLine c List.mem_cons_self, ?_, ?_⟩
    · exact fun other member => denotable.oneLine other (List.mem_cons_of_mem _ member)
    · exact fun behind inside =>
        denotable.escapes behind (inside.trans (List.suffix_cons c value))
  · rintro ⟨inLine, denotable⟩
    refine ⟨List.forall_mem_cons.mpr ⟨inLine, denotable.oneLine⟩, fun behind inside => ?_⟩
    rcases List.suffix_cons_iff.mp inside with whole | later
    · cases whole
      exact (noEscape rfl).elim
    · exact denotable.escapes behind later

/-- A backslash must stand in front of an apostrophe. -/
theorem backslash_iff :
    Denotable ('\\' :: value) ↔ ∃ more, value = '\'' :: more ∧ Denotable more := by
  constructor
  · intro denotable
    obtain ⟨more, rfl⟩ := denotable.escapes value List.suffix_rfl
    refine ⟨more, rfl, fun other member => ?_, fun behind inside => ?_⟩
    · exact denotable.oneLine other (List.mem_cons_of_mem _ (List.mem_cons_of_mem _ member))
    · exact denotable.escapes behind
        (inside.trans ((List.suffix_cons '\'' more).trans (List.suffix_cons _ _)))
  · rintro ⟨more, rfl, denotable⟩
    have apostrophe : Denotable ('\'' :: more) := (cons_iff (by decide)).mpr ⟨rfl, denotable⟩
    refine ⟨List.forall_mem_cons.mpr ⟨rfl, apostrophe.oneLine⟩, fun behind inside => ?_⟩
    rcases List.suffix_cons_iff.mp inside with whole | later
    · cases whole
      exact ⟨more, rfl⟩
    · exact apostrophe.escapes behind later

end Denotable

section Reading

variable {meaning : Char → Char} {c : Char} {text : List Char}

/-- A quote ends the string. -/
theorem readQuoted_quote : readQuoted meaning ('"' :: text) = some ([], text) := by
  rw [readQuoted.eq_def]
  rfl

/-- Behind a backslash stands a character with a meaning, which cannot be a line end. -/
theorem readQuoted_escape :
    readQuoted meaning ('\\' :: c :: text) =
      if isLineEnd c then none else (readQuoted meaning text).map (.map (meaning c :: ·) id) := by
  rw [readQuoted.eq_def]
  rfl

/-- Any other character stands for itself, unless it ends the line. -/
theorem readQuoted_other
    (noQuote : c ≠ '"')
    (noEscape : c ≠ '\\') :
    readQuoted meaning (c :: text) =
      if isLineEnd c then none else (readQuoted meaning text).map (.map (c :: ·) id) := by
  rw [readQuoted.eq_def]
  simp only [if_neg noQuote, if_neg noEscape]

/-- Reading takes at least the closing quote. -/
theorem readQuoted_shorter
    {value left : List Char}
    (found : readQuoted meaning text = some (value, left)) :
    left.length < text.length := by
  fun_induction readQuoted meaning text generalizing value with
  | case1 => cases found
  | case2 rest =>
      cases found
      exact Nat.lt_succ_self _
  | case3 => cases found
  | case4 => cases found
  | case5 => cases found
  | case6 noQuote inLine escaped rest escapedInLine inductionHypothesis =>
      obtain ⟨⟨inner, left'⟩, read, same⟩ := Option.map_eq_some_iff.mp found
      cases same
      have shorter := inductionHypothesis read
      simp only [List.length_cons]
      omega
  | case7 c rest noQuote inLine noEscape inductionHypothesis =>
      obtain ⟨⟨inner, left'⟩, read, same⟩ := Option.map_eq_some_iff.mp found
      cases same
      exact Nat.lt_succ_of_lt (inductionHypothesis read)

/-- One character of a literal in front of the others, unless it ends the line. -/
theorem eq_cons_of_readQuoted
    {first : Char}
    {value left : List Char}
    (found : (if isLineEnd c then none
      else (readQuoted meaning text).map (.map (first :: ·) id)) = some (value, left)) :
    isLineEnd c = false ∧ ∃ inner, readQuoted meaning text = some (inner, left) ∧
      value = first :: inner := by
  split at found
  · cases found
  · next inLine =>
      obtain ⟨⟨inner, left'⟩, read, same⟩ := Option.map_eq_some_iff.mp found
      cases same
      exact ⟨Bool.eq_false_iff.mpr inLine, inner, read, rfl⟩

/--
Exactly the literal of a string is read, so what is read is not longer than the
string. It is as long only if no backslash of the string has taken a character.
-/
theorem length_of_readQuoted_escaped
    {rest : List Char} :
    ∀ (value : List Char) {read : List Char},
      readQuoted meaning (escaped value ++ '"' :: rest) = some (read, rest) →
      read.length ≤ value.length ∧ (read.length = value.length → Denotable value)
  | [], read, found => by
      rw [escaped_nil, List.nil_append, readQuoted_quote] at found
      cases found
      exact ⟨Nat.le_refl _, fun _ => .nil⟩
  | c :: more, read, found => by
      by_cases isEscape : c = '\\'
      · subst isEscape
        rw [escaped_other (by decide) (by decide), List.cons_append] at found
        rw [Denotable.backslash_iff]
        cases more with
        | nil =>
            -- The closing quote is escaped, so the literal goes on behind its end.
            rw [escaped_nil, List.nil_append, readQuoted_escape] at found
            obtain ⟨-, inner, read', -⟩ := eq_cons_of_readQuoted found
            exact (Nat.lt_irrefl _ (readQuoted_shorter read')).elim
        | cons d behind =>
            by_cases isQuote : d = '"'
            · -- The backslash of the quote is escaped, so the quote ends the literal early.
              subst isQuote
              rw [escaped_quote, List.cons_append, List.cons_append, readQuoted_escape,
                readQuoted_quote] at found
              have tooLong := congrArg (fun pair => pair.2.length) (Option.some.inj found)
              simp at tooLong
              omega
            by_cases isApostrophe : d = '\''
            · subst isApostrophe
              rw [escaped_apostrophe, List.cons_append, List.cons_append, readQuoted_escape]
                at found
              obtain ⟨-, inner, inside, rfl⟩ := eq_cons_of_readQuoted found
              rw [readQuoted_other (by decide) (by decide)] at inside
              obtain ⟨-, inner, behindBoth, rfl⟩ := eq_cons_of_readQuoted inside
              obtain ⟨shorter, denotable⟩ := length_of_readQuoted_escaped behind behindBoth
              refine ⟨by simpa using shorter, fun same => ⟨behind, rfl, denotable ?_⟩⟩
              simpa using same
            · -- Two characters of the string make one of what is read.
              rw [escaped_other isQuote isApostrophe, List.cons_append, readQuoted_escape] at found
              obtain ⟨-, inner, inside, rfl⟩ := eq_cons_of_readQuoted found
              have shorter := (length_of_readQuoted_escaped behind inside).1
              simp only [List.length_cons]
              omega
      rw [Denotable.cons_iff isEscape]
      suffices rest' : ∃ first inner, read = first :: inner ∧ isLineEnd c = false ∧
          readQuoted meaning (escaped more ++ '"' :: rest) = some (inner, rest) by
        obtain ⟨first, inner, rfl, inLine, found⟩ := rest'
        obtain ⟨shorter, denotable⟩ := length_of_readQuoted_escaped more found
        exact ⟨Nat.succ_le_succ shorter, fun same => ⟨inLine, denotable (Nat.succ.inj same)⟩⟩
      by_cases isQuote : c = '"'
      · subst isQuote
        rw [escaped_quote, List.cons_append, List.cons_append, readQuoted_escape] at found
        obtain ⟨inLine, inner, inside, rfl⟩ := eq_cons_of_readQuoted found
        exact ⟨_, inner, rfl, inLine, inside⟩
      by_cases isApostrophe : c = '\''
      · subst isApostrophe
        rw [escaped_apostrophe, List.cons_append, List.cons_append, readQuoted_escape] at found
        obtain ⟨inLine, inner, inside, rfl⟩ := eq_cons_of_readQuoted found
        exact ⟨_, inner, rfl, inLine, inside⟩
      · rw [escaped_other isQuote isApostrophe, List.cons_append,
          readQuoted_other isQuote isEscape] at found
        obtain ⟨inLine, inner, inside, rfl⟩ := eq_cons_of_readQuoted found
        exact ⟨_, inner, rfl, inLine, inside⟩

/-- A denotable string is read back from its literal, whatever follows. -/
theorem readQuoted_escaped
    (quote : meaning '"' = '"')
    (apostrophe : meaning '\'' = '\'')
    (backslash : meaning '\\' = '\\')
    (rest : List Char) :
    ∀ {value : List Char}, Denotable value →
      readQuoted meaning (escaped value ++ '"' :: rest) = some (value, rest)
  | [], _ => readQuoted_quote
  | c :: more, denotable => by
      by_cases isEscape : c = '\\'
      · subst isEscape
        obtain ⟨behind, rfl, denotableBehind⟩ := Denotable.backslash_iff.mp denotable
        rw [escaped_other (by decide) (by decide), escaped_apostrophe]
        simp only [List.cons_append]
        rw [readQuoted_escape, readQuoted_other (by decide) (by decide),
          readQuoted_escaped quote apostrophe backslash rest denotableBehind, backslash]
        rfl
      obtain ⟨inLine, denotable⟩ := (Denotable.cons_iff isEscape).mp denotable
      have inner := readQuoted_escaped quote apostrophe backslash rest denotable
      by_cases isQuote : c = '"'
      · subst isQuote
        rw [escaped_quote, List.cons_append, List.cons_append, readQuoted_escape, inner, quote]
        rfl
      by_cases isApostrophe : c = '\''
      · subst isApostrophe
        rw [escaped_apostrophe, List.cons_append, List.cons_append, readQuoted_escape, inner,
          apostrophe]
        rfl
      · rw [escaped_other isQuote isApostrophe, List.cons_append,
          readQuoted_other isQuote isEscape, inner, inLine]
        rfl

end Reading

/--
The code of a string is one complete literal that stands for the string, exactly
if the string has one line and its backslashes stand in front of apostrophes.
-/
theorem readLiteral_string_iff
    (meaning : Char → Char)
    (quote : meaning '"' = '"')
    (apostrophe : meaning '\'' = '\'')
    (backslash : meaning '\\' = '\\')
    (place : Place)
    (value : String)
    (span : Span)
    (rest : List Char) :
    ∃ code, emitExpression place (.string value span) = .ok code ∧
      (readLiteral meaning (code.toList ++ rest) = some (value.toList, rest) ↔
        Denotable value.toList) := by
  refine ⟨stringLiteral value, by rw [emitExpression]; rfl, ?_⟩
  have literal : readLiteral meaning ((stringLiteral value).toList ++ rest) =
      readQuoted meaning (escaped value.toList ++ '"' :: rest) := by
    rw [toList_stringLiteral, List.cons_append, List.cons_append, List.append_assoc]
    rfl
  rw [literal]
  constructor
  · intro found
    exact (length_of_readQuoted_escaped value.toList found).2 rfl
  · exact readQuoted_escaped quote apostrophe backslash rest

/-- Quotes of both kinds are escaped, and an accidental escape may be the right one. -/
theorem readLiteral_string_iff_quotes :
    Denotable "l'\\'\"".toList ∧
      ∃ code, emitExpression .top (.string "l'\\'\"" .zero) = .ok code ∧
        readLiteral Piece.unescape (code.toList ++ [')']) = some ("l'\\'\"".toList, [')']) := by
  have denotable : Denotable "l'\\'\"".toList :=
    (Denotable.cons_iff (by decide)).mpr ⟨rfl, (Denotable.cons_iff (by decide)).mpr ⟨rfl,
      Denotable.backslash_iff.mpr ⟨['"'], rfl, (Denotable.cons_iff (by decide)).mpr ⟨rfl, .nil⟩⟩⟩⟩
  obtain ⟨code, emitted, reads⟩ := readLiteral_string_iff Piece.unescape rfl rfl rfl
    .top "l'\\'\"" .zero [')']
  exact ⟨denotable, code, emitted, reads.mpr denotable⟩

/-- The source `"\\"`, a string that is one backslash. -/
def backslashString : Bytes := [0x22, 0x5C, 0x5C, 0x22]

/-- The backslash escapes the closing quote, so the code is no complete literal. -/
theorem readLiteral_backslashString :
    ∃ span, parseProgram (.ofBytes backslashString) =
        .ok ⟨[.statement (.evaluated (.string "\\" span))]⟩ ∧
      ∃ code, emitExpression .top (.string "\\" span) = .ok code ∧
        ∀ meaning, readLiteral meaning code.toList = none := by
  refine ⟨⟨⟨0, 1, 0⟩, ⟨3, 1, 3⟩⟩, by cbv, "\"\\\"", by cbv, fun meaning => rfl⟩

end FrenchNim.Nim
