import FrenchNim.Proofs.Invariance
import FrenchNim.Proofs.Ranges
import FrenchNim.Proofs.Token.Written

namespace FrenchNim

/-!
# Embedded code, written and scanned again

Embedded code reaches to the parenthesis that matches the one in front of it, or
to the end of the input. Its text has the same tokens as the source has between
the two parentheses, if and only if all strings among them mean themselves
between double quotes. Line breaks at both ends are not looked at.
-/

/-- How many parentheses the tokens open. -/
def opened (tokens : List Token) : Nat :=
  tokens.countP (·.kind = .parenOpen)

/-- How many parentheses the tokens close. -/
def closed (tokens : List Token) : Nat :=
  tokens.countP (·.kind = .parenClose)

/-- The tokens from the start of embedded code to the end of the source. -/
structure Embedding where
  start : Token
  word : Token
  opening : Token
  inner : List Token
  behind : List Token

namespace Embedding

/-- The tokens in the order of the source. -/
def tokens (embedding : Embedding) : List Token :=
  embedding.start :: embedding.word :: embedding.opening ::
    (embedding.inner ++ embedding.behind)

/-- The code ends at the parenthesis that matches the one in front of it. -/
def IsClosed (embedding : Embedding) (span : Span) : Prop :=
  ∃ closing rest, embedding.behind = closing :: rest ∧ closing.kind = .parenClose ∧
    closed embedding.inner = opened embedding.inner ∧ span.last = closing.span.last

/-- The code ends with the input. -/
def IsCutOff (embedding : Embedding) (span : Span) : Prop :=
  embedding.behind = [] ∧
    span.last = (embedding.inner.getLastD embedding.opening).span.last

/-- The embedded code at a place of a source with the given tokens. -/
structure Stands (embedding : Embedding) (all : List Token) (span : Span) : Prop where
  part : embedding.tokens <:+ all
  atSign : embedding.start.kind = .atSign
  nim : embedding.word.kind = .nimKeyword
  parenOpen : embedding.opening.kind = .parenOpen
  first : span.first = embedding.start.span.first
  /-- No token inside matches the opening parenthesis. -/
  inside : ∀ front, front <+: embedding.inner → closed front ≤ opened front
  last : embedding.IsClosed span ∨ embedding.IsCutOff span

/-- A text has the tokens that stand inside, but for line breaks at both ends. -/
def IsReadFrom (embedding : Embedding) (code : String) : Prop :=
  ∃ again, lex (.ofString code) = .ok again ∧
    (RawCode.trimNewlines (Grammar.properTokens again)).map Token.face =
      (RawCode.trimNewlines embedding.inner).map Token.face

end Embedding

/-! ## What is captured -/

namespace RawCode

/-- Opening parentheses are counted token by token. -/
theorem opened_cons (token : Token) (tokens : List Token) :
    opened (token :: tokens) = opened [token] + opened tokens := by
  rw [opened, ← List.singleton_append, List.countP_append]
  rfl

/-- Closing parentheses are counted token by token. -/
theorem closed_cons (token : Token) (tokens : List Token) :
    closed (token :: tokens) = closed [token] + closed tokens := by
  rw [closed, ← List.singleton_append, List.countP_append]
  rfl

/-- What is captured when so many parentheses are open, as a part of the tokens. -/
structure Collects (nesting : Nat) (wanted : Bool) (code : String) (last : Token)
    (captured : Captured) (inner behind : List Token) : Prop where
  code : captured.code = code ++ writtenAll wanted inner
  inside : ∀ front, front <+: inner → closed front ≤ nesting + opened front
  ends :
    (∃ rest, behind = captured.last :: rest ∧ captured.last.kind = .parenClose ∧
      closed inner = nesting + opened inner) ∨
    behind = [] ∧ captured.last = inner.getLastD last

/-- A token in front of what is captured changes the number of open parentheses. -/
theorem Collects.cons
    {nesting later : Nat}
    {wanted : Bool}
    {code : String}
    {last token : Token}
    {captured : Captured}
    {inner behind : List Token}
    (collects : Collects later (wantsGap token) (code ++ gap wanted token ++ written token) token
      captured inner behind)
    (count : later + closed [token] = nesting + opened [token]) :
    Collects nesting wanted code last captured (token :: inner) behind where
  code := by
    rw [collects.code, writtenAll]
    simp only [String.append_assoc]
  inside := by
    intro front isFront
    cases front with
    | nil =>
        exact Nat.zero_le _
    | cons first front =>
        obtain ⟨rfl, isPart⟩ := List.cons_prefix_cons.mp isFront
        have below := collects.inside front isPart
        rw [opened_cons, closed_cons]
        omega
  ends := by
    refine collects.ends.imp ?_ ?_
    · rintro ⟨rest, found, isClosing, balanced⟩
      refine ⟨rest, found, isClosing, ?_⟩
      rw [opened_cons, closed_cons]
      omega
    · rintro ⟨atEnd, isLast⟩
      exact ⟨atEnd, by rw [isLast, List.getLastD_cons]⟩

/--
Tokens are collected up to a parenthesis that was not opened among them, or they
are all collected.
-/
theorem exists_collects
    (nesting : Nat)
    (wanted : Bool)
    (code : String)
    (last : Token)
    (tokens : List Token) :
    ∃ inner behind, tokens = inner ++ behind ∧
      Collects nesting wanted code last (collect nesting wanted code last tokens) inner behind := by
  fun_induction collect nesting wanted code last tokens with
  | case1 nesting wanted code last =>
      exact ⟨[], [], rfl, ⟨by simp [writtenAll], by simp [closed], .inr ⟨rfl, rfl⟩⟩⟩
  | case2 nesting wanted code last token rest written isOpening inductionHypothesis =>
      obtain ⟨inner, behind, rfl, collects⟩ := inductionHypothesis
      have noGap : wantsGap token = false := by
        simp [wantsGap, isOpening]
      rw [← noGap] at collects ⊢
      exact ⟨token :: inner, behind, rfl, collects.cons (by simp [opened, closed, isOpening])⟩
  | case3 wanted code last token rest isClosing =>
      refine ⟨[], token :: rest, rfl, ⟨by simp [writtenAll], by simp [closed], ?_⟩⟩
      exact .inl ⟨rest, rfl, isClosing, rfl⟩
  | case4 wanted code last token rest written isClosing nesting inductionHypothesis =>
      obtain ⟨inner, behind, rfl, collects⟩ := inductionHypothesis
      have gap : wantsGap token = true := by
        simp [wantsGap, isClosing]
      rw [← gap] at collects ⊢
      exact ⟨token :: inner, behind, rfl, collects.cons (by simp [opened, closed, isClosing])⟩
  | case5 nesting wanted code last token rest written noOpening noClosing inductionHypothesis =>
      obtain ⟨inner, behind, rfl, collects⟩ := inductionHypothesis
      exact ⟨token :: inner, behind, rfl, collects.cons (by
        simp [opened, closed, eq_false noOpening, eq_false noClosing])⟩

end RawCode

/-- What is captured behind an opening parenthesis are the tokens inside, written and trimmed. -/
theorem Grammar.Embeds.exists_stands
    {all : List Token}
    {code : String}
    {span : Span}
    (embeds : Grammar.Embeds all code span) :
    ∃ embedding : Embedding, embedding.Stands all span ∧
      code = trimText (RawCode.writtenAll false embedding.inner) := by
  obtain ⟨start, word, opening, captured, part, atSign, nim, parenOpen, rfl, rfl⟩ := embeds
  obtain ⟨inner, behind, rfl, collects⟩ := RawCode.exists_collects 0 false "" opening captured
  refine ⟨⟨start, word, opening, inner, behind⟩,
    ⟨part, atSign, nim, parenOpen, rfl, ?_, ?_⟩, ?_⟩
  · simpa using collects.inside
  · refine collects.ends.imp ?_ ?_
    · rintro ⟨rest, found, isClosing, balanced⟩
      exact ⟨_, rest, found, isClosing, by simpa using balanced, rfl⟩
    · rintro ⟨atEnd, isLast⟩
      exact ⟨atEnd, congrArg (·.span.last) isLast⟩
  · exact congrArg trimText (by simpa using collects.code)

/-! ## What is read again -/

/-- Tokens without their positions have the same faces. -/
theorem Token.map_face_erase (tokens : List Token) :
    (tokens.map erase).map face = tokens.map face := by
  rw [List.map_map]
  rfl

/-- The tokens of a text, without their positions and the end of the input. -/
theorem Lexer.properTokens_of_lex
    {text : String}
    {placed : List Token}
    (lexed : lex (.ofString text) = .ok placed) :
    lexemes text.toList = some ((Grammar.properTokens placed).map Token.erase) := by
  obtain ⟨tokens, spelled, same⟩ := lexemes_of_lex lexed
  rw [← Grammar.properTokens_erase, same,
    Grammar.properTokens_append (bareTokens_ne_endOfInput spelled), spelled]
  exact congrArg some (List.append_nil tokens).symm

/-- The tokens of a source are lexemes, and not too many. -/
theorem Lexer.lexemes_of_properTokens
    {source : Source}
    {tokens : List Token}
    (lexed : lex source = .ok tokens) :
    (∀ token ∈ Grammar.properTokens tokens, Lexeme token.kind token.literal) ∧
      (Grammar.properTokens tokens).length ≤ tokenLimit := by
  obtain ⟨-, within, rfl⟩ := lex_eq_ok_iff.mp lexed
  have known := @tokensAt_lexemes .start _ (pieces_holdLexemes source)
  have proper : Grammar.properTokens (tokensAt .start (pieces source) ++
      [Token.endOfInput (Position.start.after source)]) = tokensAt .start (pieces source) := by
    rw [Grammar.properTokens_append fun token member => (known token member).kind_ne_endOfInput]
    exact List.append_nil _
  rw [proper]
  exact ⟨known, within⟩

namespace RawCode

/-- Trimming line breaks does not look at positions. -/
theorem trimNewlines_erase (tokens : List Token) :
    trimNewlines (tokens.map Token.erase) = (trimNewlines tokens).map Token.erase := by
  unfold trimNewlines Grammar.skipNewlines List.rdropWhile
  rw [List.dropWhile_map, ← List.map_reverse, List.dropWhile_map, ← List.map_reverse]
  rfl

/-- Tokens that do not begin with a line break are left as they are. -/
theorem skipNewlines_eq_self
    {tokens : List Token}
    (first : ∀ token ∈ tokens.head?, token.kind ≠ .newline) :
    Grammar.skipNewlines tokens = tokens := by
  cases tokens with
  | nil => rfl
  | cons token rest => exact List.dropWhile_cons_of_neg (by simp [first token rfl])

/-- There is nothing to trim without line breaks at the ends. -/
theorem trimNewlines_eq_self
    {tokens : List Token}
    (first : ∀ token ∈ tokens.head?, token.kind ≠ .newline)
    (last : ∀ token ∈ tokens.getLast?, token.kind ≠ .newline) :
    trimNewlines tokens = tokens := by
  rw [trimNewlines, skipNewlines_eq_self first, List.rdropWhile_eq_self_iff]
  intro present
  simpa using last _ (List.getLast?_eq_getLast_of_ne_nil present)

/-- Line breaks at the ends do not matter to the strings. -/
theorem plainStrings_trimNewlines
    {tokens : List Token} :
    PlainStrings (trimNewlines tokens) ↔ PlainStrings tokens := by
  obtain ⟨front, back, split, isFront, isBack, -, -⟩ := exists_trimNewlines tokens
  constructor
  · intro plain token member isString
    rw [split] at member
    rcases List.mem_append.mp member with inFront | member
    · cases isString.symm.trans (isFront token inFront)
    rcases List.mem_append.mp member with inner | inBack
    · exact plain token inner isString
    · cases isString.symm.trans (isBack token inBack)
  · intro plain token member
    refine plain token ?_
    rw [split]
    simp [member]

/-- Nothing is trimmed in front of what is found in a text without a leading line break. -/
theorem prefix_of_trimNewlines
    {tokens found : List Token}
    (lexemes : ∀ token ∈ tokens, Lexeme token.kind token.literal)
    (first : ∀ token ∈ tokens.head?, token.kind ≠ .newline)
    (isFound : Lexer.lexemes (writtenAll false tokens).toList = some found)
    (same : trimNewlines found = tokens.map Token.erase) :
    tokens.map Token.erase <+: found := by
  have noBreak : ∀ token ∈ found.head?, token.kind ≠ .newline ∨ tokens = [] := by
    intro token isHead
    cases tokens with
    | nil =>
        exact .inr rfl
    | cons written rest =>
        obtain ⟨more, rfl⟩ := List.head?_eq_some_iff.mp isHead
        rw [kind_of_lexemes_writtenAll lexemes isFound]
        exact .inl (first written rfl)
  by_cases none : tokens = []
  · rw [none]
    exact List.nil_prefix
  · rw [← same, trimNewlines, skipNewlines_eq_self fun token isHead =>
      (noBreak token isHead).resolve_right none]
    exact List.rdropWhile_prefix _ found

/-- The text of tokens is read as the same tokens if and only if their strings are plain. -/
theorem isReadFrom_iff
    {embedding : Embedding}
    (lexemes : ∀ token ∈ embedding.inner, Lexeme token.kind token.literal)
    (within : embedding.inner.length ≤ tokenLimit) :
    embedding.IsReadFrom (trimText (writtenAll false embedding.inner)) ↔
      PlainStrings embedding.inner := by
  obtain ⟨front, back, split, -, -, first, last⟩ := exists_trimNewlines embedding.inner
  have part : (trimNewlines embedding.inner).Sublist embedding.inner := by
    conv_rhs => rw [split]
    exact (List.sublist_append_left _ back).trans (List.sublist_append_right front _)
  have known : ∀ token ∈ trimNewlines embedding.inner, Lexeme token.kind token.literal :=
    fun token member => lexemes token (part.subset member)
  rw [trimText_writtenAll lexemes, ← plainStrings_trimNewlines]
  constructor
  · rintro ⟨again, lexed, faces⟩
    have found := Lexer.properTokens_of_lex lexed
    have erased := Token.map_erase_of_map_face faces
    rw [← trimNewlines_erase] at erased
    exact plainStrings_of_lexemes_writtenAll known false found
      (prefix_of_trimNewlines known first found erased)
  · intro plain
    have found := lexemes_writtenAll known plain false
    obtain ⟨again, lexed, -⟩ := Lexer.lex_of_lexemes found
      (by rw [List.length_map]; exact part.length_le.trans within)
    have same := Lexer.properTokens_of_lex lexed
    rw [found] at same
    refine ⟨again, lexed, ?_⟩
    rw [← Token.map_face_erase, ← trimNewlines_erase, ← Option.some.inj same, trimNewlines_erase,
      Token.map_face_erase, trimNewlines_eq_self first last]

end RawCode

/--
Embedded code in a parsed program ends at the parenthesis that matches the one in
front of it, unless the input ends before. Its text is read as the tokens in
between, up to line breaks at both ends, if and only if no string among them holds
a double quote or a backslash.
-/
theorem rawCode_isReadFrom_iff
    {source : Source}
    {program : Program}
    (parsed : parseProgram source = .ok program) :
    ∃ tokens, lex source = .ok tokens ∧
      ∀ code span,
        .expression (.rawCode code span) ∈ (Element.program program).walk (fun _ => true) →
          ∃ embedding : Embedding, embedding.Stands (Grammar.properTokens tokens) span ∧
            (embedding.IsReadFrom code ↔ RawCode.PlainStrings embedding.inner) := by
  cases lexed : lex source with
  | error error =>
      rw [parseProgram_of_lex_error lexed] at parsed
      cases parsed
  | ok tokens =>
      rw [parseProgram_of_lex_ok lexed] at parsed
      cases found : parseTokens tokens with
      | error error =>
          rw [found] at parsed
          cases parsed
      | ok other =>
          rw [found] at parsed
          cases parsed
          refine ⟨tokens, rfl, fun code span member => ?_⟩
          have inOrder := (Lexer.inOrder_of_lex lexed).sublist
            (List.takeWhile_sublist _ : (Grammar.properTokens tokens).Sublist tokens)
          have sound := Grammar.programWithin_sound inOrder found _ member
          obtain ⟨embedding, stands, rfl⟩ := Grammar.Embeds.exists_stands sound.embedded
          obtain ⟨lexemes, within⟩ := Lexer.lexemes_of_properTokens lexed
          have isPart : embedding.inner.Sublist (Grammar.properTokens tokens) := by
            refine .trans ?_ stands.part.sublist
            exact (List.sublist_append_left _ _).trans
              (List.sublist_append_right [embedding.start, embedding.word, embedding.opening] _)
          exact ⟨embedding, stands, RawCode.isReadFrom_iff
            (fun token inside => lexemes token (isPart.subset inside))
            (isPart.length_le.trans within)⟩

/-- Embedded code with a nested call, a comma and a string between apostrophes. -/
def embeddedCall : Source := .ofString "@nim(\necho('a', b))"

/-- The tree of the embedded call, where the string has double quotes. -/
def embeddedCallTree : Program :=
  ⟨[.statement (.evaluated (.rawCode "echo (\"a\",b)" ⟨⟨0, 1, 0⟩, ⟨18, 2, 12⟩⟩))]⟩

/-- The embedded call ends at its second closing parenthesis, and is read again. -/
theorem rawCode_isReadFrom_iff_embeddedCall :
    parseProgram embeddedCall = .ok embeddedCallTree ∧
      ∃ tokens, lex embeddedCall = .ok tokens ∧
        ∀ code span,
          .expression (.rawCode code span) ∈
              (Element.program embeddedCallTree).walk (fun _ => true) →
            ∃ embedding : Embedding, embedding.Stands (Grammar.properTokens tokens) span ∧
              (embedding.IsReadFrom code ↔ RawCode.PlainStrings embedding.inner) := by
  have parsed : parseProgram embeddedCall = .ok embeddedCallTree := by
    cbv
  exact ⟨parsed, rawCode_isReadFrom_iff parsed⟩

/-- Embedded code with an escaped double quote in a string. -/
def embeddedQuote : Source := .ofString "@nim(\"a\\\"b\")"

/-- The escaped double quote is written without its backslash, so the code ends in an open string. -/
theorem rawCode_isReadFrom_embeddedQuote :
    ∃ code span,
      parseProgram embeddedQuote = .ok ⟨[.statement (.evaluated (.rawCode code span))]⟩ ∧
        ∀ tokens, lex (.ofString code) ≠ .ok tokens := by
  refine ⟨"\"a\"b\"", ⟨⟨0, 1, 0⟩, ⟨11, 1, 11⟩⟩, by cbv, ?_⟩
  have isError : lex (.ofString "\"a\"b\"") = .error (.unterminatedString ⟨4, 1, 4⟩ 1) := by
    cbv
  intro tokens isOk
  rw [isError] at isOk
  cases isOk

end FrenchNim
