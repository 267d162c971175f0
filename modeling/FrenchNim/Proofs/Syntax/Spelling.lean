import Mathlib.Data.List.Forall2
import FrenchNim.Grammar.RawCode
import FrenchNim.Number.Reading
import FrenchNim.Proofs.Syntax.Vocabulary
import FrenchNim.Proofs.Token.Spelling

namespace FrenchNim

/-!
# The canonical text of a tree spells its tokens

If the words of a tree are lexemes, the scanner finds in its canonical text
exactly the tokens of the tree. The proof follows the text: wherever two tokens
stand side by side, the second one keeps apart from the first.
-/

/--
Embedded code is read back as it is written: its tokens are followed by the
closing parenthesis, and they are captured as the same code.
-/
structure RawCode.ReadsBack (code : String) : Prop where
  spelled : ∀ rest, Lexer.lexemes (code.toList ++ ')' :: rest) =
    (Lexer.lexemes rest).map (RawCode.tokens code ++ Token.parenClose :: ·)
  captured : ∀ rest, RawCode.capture Token.parenOpen
    (RawCode.tokens code ++ Token.parenClose :: rest) = ⟨code, Token.parenClose, rest⟩

/-- The words of the vocabulary are lexemes of their kind. -/
structure Vocabulary.IsLexical (vocabulary : Vocabulary) : Prop where
  name : ∀ {word}, vocabulary.name word → IsWord word.toList ∧ Keyword.kind? word = none
  number : ∀ {literal value}, vocabulary.number literal value →
    IsNumeral literal.toList ∧ value = Number.ofLiteral literal
  operator : ∀ {word}, vocabulary.operator word → word ∈ binaryOperators
  code : ∀ {text}, vocabulary.code text → RawCode.ReadsBack text

instance (text : List Char) : Decidable (IsWord text) :=
  match text with
  | [] => inferInstanceAs (Decidable False)
  | first :: rest =>
      decidable_of_iff (isLetter first = true ∧ rest.all Piece.continuesWord = true)
        (and_congr_right' List.all_eq_true)

/-! ## Fixed parts of the text -/

/-- The text starts with a character that belongs to no word and no number. -/
def startsApart (text : String) : Bool :=
  match text.toList with
  | [] => false
  | c :: _ => specialCharacters.contains c && c ≠ '.'

/-- Whatever stands before such a text, the text keeps apart from it. -/
theorem parts_fixed {text : String} (starts : startsApart text = true) : Parts text := by
  intro rest
  unfold startsApart at starts
  cases chars : text.toList with
  | nil =>
      rw [chars] at starts
      cases starts
  | cons c more =>
      rw [chars, Bool.and_eq_true, List.contains_iff_mem, decide_eq_true_eq] at starts
      exact apart_cons (continuesWord_special c starts.1) starts.2 (more ++ rest)

/-- Indentation spells no token. -/
theorem ends_indentation (count : Nat) :
    Ends (String.ofList (List.replicate count ' ')) [] := by
  induction count with
  | zero =>
      exact ends_nil
  | succ count inductionHypothesis =>
      have together := ends_blank.append inductionHypothesis
      intro rest
      have spelled := together rest
      simpa [List.replicate_succ] using spelled

/-- A line break of the canonical text is one line break token, however deep the next line is. -/
theorem ends_lineBreak (depth : Nat) : Ends (Render.lineBreak depth) [.newline] :=
  (ends_operator (c := '\n') fun _ => rfl).append (ends_indentation _)

/-- A line break keeps apart from what stands before it. -/
theorem parts_lineBreak (depth : Nat) : Parts (Render.lineBreak depth) := by
  have parts : Parts "\n" := parts_fixed (by decide)
  exact parts.append _

/-- A keyword at the end of a part. -/
theorem spells_keyword
    (word : String)
    (isWord : IsWord word.toList)
    {kind : TokenKind}
    (isKind : Keyword.kindOf word = kind) :
    Spells word [.bare kind word] := by
  have spelled := spells_word isWord
  rw [isKind] at spelled
  exact spelled

/-- A keyword followed by a blank. -/
theorem ends_keyword
    {text : String}
    {kind : TokenKind}
    (word : String)
    (isText : text = word ++ " ")
    (isWord : IsWord word.toList)
    (isKind : Keyword.kindOf word = kind) :
    Ends text [.bare kind word] := by
  rw [isText]
  exact (spells_keyword word isWord isKind).append_ends (parts_fixed (by decide)) ends_blank

/-- A keyword between blanks. -/
theorem ends_keywordBetween
    {text : String}
    {kind : TokenKind}
    (word : String)
    (isText : text = " " ++ (word ++ " "))
    (isWord : IsWord word.toList)
    (isKind : Keyword.kindOf word = kind) :
    Ends text [.bare kind word] := by
  rw [isText]
  exact ends_blank.append (ends_keyword word rfl isWord isKind)

/-- The parenthesis before parameters, arguments and conditions. -/
theorem ends_parenOpen : Ends "(" [.parenOpen] :=
  ends_operator (c := '(') fun _ => rfl

/-- The parenthesis behind arguments. -/
theorem ends_parenClose : Ends ")" [.parenClose] :=
  ends_operator (c := ')') fun _ => rfl

/-- The bracket before the items of a list and before an index. -/
theorem ends_bracketOpen : Ends "[" [.bracketOpen] :=
  ends_operator (c := '[') fun _ => rfl

/-- The bracket behind the items of a list and behind an index. -/
theorem ends_bracketClose : Ends "]" [.bracketClose] :=
  ends_operator (c := ']') fun _ => rfl

/-- A token of one character and a blank. -/
theorem ends_operatorBlank
    {text : String}
    {c : Char}
    {kind : TokenKind}
    (isText : text = String.ofList [c] ++ " ")
    (isOperator : ∀ next, operator? c next = some (kind, false)) :
    Ends text [.bare kind (String.ofList [c])] := by
  rw [isText]
  exact (ends_operator isOperator).append ends_blank

/-- Items are told apart by a comma and a blank. -/
theorem ends_comma : Ends ", " [.comma] :=
  ends_operatorBlank (c := ',') rfl fun _ => rfl

/-- The clauses of a `for` loop are told apart by a semicolon and a blank. -/
theorem ends_semicolon : Ends "; " [.semicolon] :=
  ends_operatorBlank (c := ';') rfl fun _ => rfl

/-- The head of a conditional or of a loop ends with a parenthesis and a blank. -/
theorem ends_headClose : Ends ") " [.parenClose] :=
  ends_operatorBlank (c := ')') rfl fun _ => rfl

/-- An operator between blanks. -/
theorem ends_spaced
    (c : Char)
    (more : List Char)
    (kind : TokenKind)
    (isCut : ∀ rest : List Char, Piece.cut (.char c) ((more ++ ' ' :: rest).map .char) =
      (.spelled kind ((c :: more).map .char), (' ' :: rest).map .char)) :
    Ends (" " ++ String.ofList (c :: more) ++ " ") [.bare kind (String.ofList (c :: more))] := by
  have trailing : Ends (String.ofList (c :: more) ++ " ")
      [.bare kind (String.ofList (c :: more))] := by
    intro rest
    have spelled := Lexer.lexemes_spelled (isCut rest)
    rw [shown_chars, show Lexer.lexemes (' ' :: rest) = _ from ends_blank rest,
      Option.map_map] at spelled
    rw [String.toList_append, String.toList_ofList, List.append_assoc]
    exact spelled
  have whole := ends_blank.append trailing
  rw [← String.append_assoc] at whole
  exact whole

/-- An assigned or declared value stands behind a spaced equal sign. -/
theorem ends_equal : Ends " = " [.equal] :=
  ends_spaced '=' [] .equal fun _ => rfl

/-- The operator of a binary expression between blanks. -/
theorem ends_binaryOperator
    {operator : String}
    (listed : operator ∈ binaryOperators) :
    Ends (" " ++ operator ++ " ") [.bare (operatorKind operator) operator] := by
  simp only [binaryOperators, List.mem_cons, List.not_mem_nil, or_false] at listed
  rcases listed with rfl | rfl | rfl | rfl | rfl | rfl | rfl | rfl
  · exact ends_spaced '+' [] .plus fun _ => rfl
  · exact ends_spaced '-' [] .minus fun _ => rfl
  · exact ends_spaced '=' ['='] .equalEqual fun _ => rfl
  · exact ends_spaced '!' ['='] .notEqual fun _ => rfl
  · exact ends_spaced '<' [] .less fun _ => rfl
  · exact ends_spaced '<' ['='] .lessEqual fun _ => rfl
  · exact ends_spaced '>' [] .greater fun _ => rfl
  · exact ends_spaced '>' ['='] .greaterEqual fun _ => rfl

/-- A spaced operator keeps apart from its left operand. -/
theorem parts_spaced (operator : String) : Parts (" " ++ operator ++ " ") := by
  have parts : Parts " " := parts_fixed (by decide)
  exact (parts.append operator).append " "

/-- The head of a condition or a loop. -/
theorem ends_head
    {text : String}
    {kind : TokenKind}
    (word : String)
    (isText : text = word ++ " " ++ "(")
    (isWord : IsWord word.toList)
    (isKind : Keyword.kindOf word = kind) :
    Ends text [.bare kind word, .parenOpen] := by
  rw [isText]
  exact (ends_keyword word rfl isWord isKind).append ends_parenOpen

/-- The word before a returned value. -/
theorem ends_return : Ends "retourne " [.bare .returnKeyword "retourne"] :=
  ends_keyword "retourne" rfl (by decide) rfl

/-- The word before the class of a construction. -/
theorem ends_new : Ends "nouveau " [.bare .newKeyword "nouveau"] :=
  ends_keyword "nouveau" rfl (by decide) rfl

/-- The word before a declared variable. -/
theorem ends_variable : Ends "variable " [.bare .variableKeyword "variable"] :=
  ends_keyword "variable" rfl (by decide) rfl

/-- The head of a conditional begins with its word and a parenthesis. -/
theorem ends_if : Ends "si (" [.bare .ifKeyword "si", .parenOpen] :=
  ends_head "si" rfl (by decide) rfl

/-- The head of a `while` loop begins with its word and a parenthesis. -/
theorem ends_while : Ends "tantque (" [.bare .whileKeyword "tantque", .parenOpen] :=
  ends_head "tantque" rfl (by decide) rfl

/-- The head of a `for` loop begins with its word and a parenthesis. -/
theorem ends_for : Ends "pour (" [.bare .forKeyword "pour", .parenOpen] :=
  ends_head "pour" rfl (by decide) rfl

/-- The word between the two blocks of a conditional. -/
theorem ends_else : Ends " sinon " [.bare .elseKeyword "sinon"] :=
  ends_keywordBetween "sinon" rfl (by decide) rfl

/-- The word before the name of an imported module. -/
theorem ends_import : Ends "importer " [.bare .importKeyword "importer"] :=
  ends_keyword "importer" rfl (by decide) rfl

/-- The word before the second name of an imported module. -/
theorem ends_as : Ends " comme " [.bare .asKeyword "comme"] :=
  ends_keywordBetween "comme" rfl (by decide) rfl

/-- The word before the path of an import. -/
theorem ends_from : Ends " de " [.bare .fromKeyword "de"] :=
  ends_keywordBetween "de" rfl (by decide) rfl

/-- The word before the name of a class. -/
theorem ends_class : Ends "classe " [.bare .classKeyword "classe"] :=
  ends_keyword "classe" rfl (by decide) rfl

/-- The word before the name of a function. -/
theorem ends_functionWord : Ends "fonction " [.bare .functionKeyword "fonction"] :=
  ends_keyword "fonction" rfl (by decide) rfl

/-- The word before the name of a type. -/
theorem ends_type : Ends "type " [.bare .typeKeyword "type"] :=
  ends_keyword "type" rfl (by decide) rfl

/-- The word before the name of a constant. -/
theorem ends_constant : Ends "constant " [.bare .constantKeyword "constant"] :=
  ends_keyword "constant" rfl (by decide) rfl

/-- Embedded code begins with a sign, a word and a parenthesis, three tokens in all. -/
theorem ends_nim :
    Ends "@nim(" [.bare .atSign "@", .bare .nimKeyword "nim", .parenOpen] := by
  have sign : Ends "@" [.bare .atSign "@"] := ends_operator (c := '@') fun _ => rfl
  have whole := (sign.append_spells (spells_keyword "nim" (by decide) rfl)).append_ends
    (parts_fixed (by decide)) ends_parenOpen
  exact whole

/-- The word of a closure, directly before its parameters. -/
theorem spells_function : Spells "fonction" [.bare .functionKeyword "fonction"] :=
  spells_keyword "fonction" (by decide) rfl

/-- The word of a constructor, directly before its parameters. -/
theorem spells_constructor :
    Spells "constructeur" [.bare .constructorKeyword "constructeur"] :=
  spells_keyword "constructeur" (by decide) rfl

/-- The word that opens a block or a class. -/
theorem spells_opening : Spells "ouvrir" [.opening] :=
  spells_keyword "ouvrir" (by decide) rfl

/-- The word that closes a block or a class. -/
theorem spells_closing : Spells "refermer" [.closing] :=
  spells_keyword "refermer" (by decide) rfl

/-- A keyword behind a blank. -/
theorem spells_keywordBehind
    {text : String}
    {kind : TokenKind}
    (word : String)
    (isText : text = " " ++ word)
    (isWord : IsWord word.toList)
    (isKind : Keyword.kindOf word = kind) :
    Spells text [.bare kind word] := by
  rw [isText]
  exact ends_blank.append_spells (spells_keyword word isWord isKind)

/-- The word that opens the members of a class, behind the name of the class. -/
theorem spells_bodyOpening : Spells " ouvrir" [.opening] :=
  spells_keywordBehind "ouvrir" rfl (by decide) rfl

/-- The word between the name of a type and what the type is. -/
theorem spells_typeEqual : Spells " egal" [.bare .equal "egal"] :=
  spells_keywordBehind "egal" rfl (by decide) rfl

/-- The word of an external type. -/
theorem spells_external : Spells " external" [.bare .externalKeyword "external"] :=
  spells_keywordBehind "external" rfl (by decide) rfl

/-- The line breaks between two declarations. -/
theorem separator_spells (left right : Declaration) :
    Ends (Program.separator left right) (Program.separatorTokens left right) ∧
      Parts (Program.separator left right) := by
  have ends : Ends "\n" [.newline] := ends_operator (c := '\n') fun _ => rfl
  have parts : Parts "\n" := parts_fixed (by decide)
  have twice : "\n\n" = "\n" ++ "\n" := by simp
  unfold Program.separator Program.separatorTokens
  split
  · exact ⟨ends, parts⟩
  · rw [twice]
    exact ⟨ends.append ends, parts.append "\n"⟩

/-- Texts between commas spell their tokens between commas. -/
theorem spells_intercalate
    {texts : List String}
    {tokens : List (List Token)}
    (spelled : List.Forall₂ Spells texts tokens) :
    Spells (String.intercalate ", " texts) ([Token.comma].intercalate tokens) := by
  induction spelled with
  | nil =>
      exact ends_nil.spells
  | cons first rest inductionHypothesis =>
      cases rest with
      | nil =>
          rw [String.intercalate_singleton, List.intercalate_singleton]
          exact first
      | cons second rest =>
          rw [String.intercalate_cons_cons, List.intercalate_cons_cons]
          exact (first.append_ends
            (parts_fixed (by decide)) ends_comma).append_spells inductionHypothesis

section Names

variable {vocabulary : Vocabulary} (lexical : vocabulary.IsLexical)

include lexical

/-- A name of the vocabulary spells one identifier. -/
theorem spells_name {word : String} (known : vocabulary.name word) :
    Spells word [.bare .identifier word] := by
  obtain ⟨isWord, noKeyword⟩ := lexical.name known
  have spelled := spells_word isWord
  rw [Keyword.kindOf, noKeyword] at spelled
  exact spelled

/-- A parameter list spells its names between two parentheses. -/
theorem ends_parameters
    {names : List Identifier}
    (known : vocabulary.Names names) :
    Ends (Render.parameters names) (parameterTokens names) := by
  have each : List.Forall₂ Spells (names.map (·.name)) (names.map ([Token.named ·])) := by
    rw [List.forall₂_map_left_iff, List.forall₂_map_right_iff, List.forall₂_same]
    intro parameter member
    exact spells_name lexical (known parameter member)
  have inner := spells_intercalate each
  exact (ends_parenOpen.append_spells inner).append_ends (parts_fixed (by decide)) ends_parenClose

/-- A name of a tree spells the token it is read from. -/
theorem spells_nameToken {name : Identifier} (known : vocabulary.name name.name) :
    Spells (Render.name name) [Expression.nameToken name] := by
  unfold Render.name Expression.nameToken
  by_cases isSelf : name.name = selfName
  · rw [if_pos isSelf, if_pos isSelf]
    exact spells_keyword "ceci" (by decide) rfl
  · rw [if_neg isSelf, if_neg isSelf]
    exact spells_name lexical known

/-- A name behind a dot or an arrow keeps apart from its target. -/
theorem member_spells
    {name : String}
    (known : vocabulary.name name)
    (arrow : Bool) :
    Parts ((if arrow then "->" else ".") ++ name) ∧
      Spells ((if arrow then "->" else ".") ++ name) [.link arrow, .bare .identifier name] := by
  have spelled := spells_name lexical known
  obtain ⟨isWord, -⟩ := lexical.name known
  cases arrow with
  | true =>
      have parts : Parts "->" := parts_fixed (by decide)
      have ends : Ends "->" [.bare .arrow "->"] := by
        intro rest
        have isCut : Piece.cut (.char '-') (('>' :: rest).map .char) =
            (.spelled .arrow [.char '-', .char '>'], rest.map .char) :=
          rfl
        exact Lexer.lexemes_spelled isCut
      exact ⟨parts.append _, ends.append_spells spelled⟩
  | false =>
      have ends : Ends "." [.bare .dot "."] := ends_operator (c := '.') fun _ => rfl
      refine ⟨?_, ends.append_spells spelled⟩
      intro rest
      rw [String.toList_append]
      cases chars : name.toList with
      | nil =>
          rw [chars] at isWord
          exact isWord.elim
      | cons first more =>
          rw [chars] at isWord
          exact ⟨by decide, fun _ => isDigit_of_isLetter isWord.1⟩

end Names

/-- An operand spells its tokens, with parentheses around a nested binary expression. -/
theorem operand_spells
    (value : Expression)
    {text : String}
    {tokens : List Token}
    (spelled : Spells text tokens) :
    Spells (Render.operand value text) (value.operandTokens tokens) := by
  cases value with
  | binary operator left right =>
      exact ((ends_parenOpen.append_spells spelled).append_ends (parts_fixed (by decide))
        ends_parenClose).spells
  | _ =>
      exact spelled

/-- A parameter list keeps apart from the name before it. -/
theorem parts_parameters (names : List Identifier) : Parts (Render.parameters names) := by
  have parts : Parts "(" := parts_fixed (by decide)
  exact (parts.append _).append _

/-- Embedded code and its parenthesis spell their tokens. -/
theorem ends_rawCode
    {code : String}
    (readsBack : RawCode.ReadsBack code) :
    Ends (code ++ ")") (RawCode.tokens code ++ [Token.parenClose]) := by
  intro rest
  have spelled := readsBack.spelled rest
  rw [String.toList_append, List.append_assoc]
  refine spelled.trans ?_
  simp only [List.append_assoc, List.cons_append, List.nil_append]

/-- The lines of a block keep apart from the word that opens it. -/
theorem parts_renderAll (depth : Nat) (first : Statement) (rest : List Statement) :
    Parts (Statement.renderAll depth (first :: rest)) := by
  rw [Statement.renderAll]
  exact ((parts_lineBreak depth).append _).append _

/-- All lines of a block, with the one its closing word is on, keep apart from what opens it. -/
theorem parts_blockLines (depth outer : Nat) (nodes : List Statement) :
    Parts (Statement.renderAll depth nodes ++ Render.lineBreak outer) := by
  cases nodes with
  | nil =>
      rw [Statement.renderAll, String.empty_append]
      exact parts_lineBreak outer
  | cons first rest =>
      exact (parts_renderAll depth first rest).append _

section Trees

variable {vocabulary : Vocabulary}

mutual

/-- The canonical text of an expression spells its tokens, at any depth. -/
theorem Expression.spells
    (lexical : vocabulary.IsLexical)
    (depth : Nat) :
    ∀ {value : Expression}, value.Over vocabulary → Spells (value.render depth) value.tokens
  | .bool value _, _ => by
      cases value with
      | true => exact spells_keyword "vrai" (by decide) rfl
      | false => exact spells_keyword "faux" (by decide) rfl
  | .number literal value _, known => spells_numeral (lexical.number known).1
  | .string value _, _ => (ends_quoted value).spells
  | .array values _, allOver => by
      have inner := spells_intercalate (Expression.spellsAll lexical depth allOver)
      have whole := (ends_bracketOpen.append_spells inner).append_ends (parts_fixed (by decide))
        ends_bracketClose
      rw [Expression.render, Expression.tokens]
      exact whole.spells
  | .identifier name, known => spells_nameToken lexical known
  | .invocation callee arguments _, ⟨calleeOver, argumentsOver⟩ => by
      have called := (Expression.spells lexical depth calleeOver).append_ends
        (parts_fixed (by decide)) ends_parenOpen
      have inner := spells_intercalate (Expression.spellsAll lexical depth argumentsOver)
      have whole := (called.append_spells inner).append_ends
        (parts_fixed (by decide)) ends_parenClose
      rw [Expression.render, Expression.tokens]
      simpa only [List.append_assoc, List.cons_append, List.nil_append] using whole.spells
  | .member target name arrow, ⟨targetOver, known⟩ => by
      obtain ⟨parts, spelled⟩ := member_spells lexical known arrow
      have whole := (Expression.spells lexical depth targetOver).append parts spelled
      rw [Expression.render, Expression.tokens, String.append_assoc]
      exact whole
  | .index target position _, ⟨targetOver, positionOver⟩ => by
      have opened := (Expression.spells lexical depth targetOver).append_ends
        (parts_fixed (by decide)) ends_bracketOpen
      have inner := Expression.spells lexical depth positionOver
      have whole := (opened.append_spells inner).append_ends (parts_fixed (by decide))
        ends_bracketClose
      rw [Expression.render, Expression.tokens]
      simpa only [List.append_assoc, List.cons_append, List.nil_append] using whole.spells
  | .binary operator left right, ⟨listed, leftOver, rightOver⟩ => by
      have first := operand_spells left (Expression.spells lexical depth leftOver)
      have second := operand_spells right (Expression.spells lexical depth rightOver)
      have whole := (first.append_ends (parts_spaced operator)
        (ends_binaryOperator (lexical.operator listed))).append_spells second
      rw [Expression.render, Expression.tokens]
      simpa only [String.append_assoc, List.append_assoc, List.cons_append, List.nil_append]
        using whole
  | .closure parameters body _, ⟨known, bodyOver⟩ => by
      have head := (spells_function.append_ends (parts_parameters parameters)
        (ends_parameters lexical known)).append ends_blank
      have whole := head.append_spells (Block.spells lexical depth bodyOver)
      rw [Expression.render, Expression.tokens]
      simpa only [List.append_assoc, List.cons_append, List.nil_append] using whole
  | .construction callee arguments _, ⟨calleeOver, argumentsOver⟩ => by
      have called := (ends_new.append_spells
        (Expression.spells lexical depth calleeOver.over)).append_ends
          (parts_fixed (by decide)) ends_parenOpen
      have inner := spells_intercalate (Expression.spellsAll lexical depth argumentsOver)
      have whole := (called.append_spells inner).append_ends
        (parts_fixed (by decide)) ends_parenClose
      rw [Expression.render, Expression.tokens]
      simpa only [List.append_assoc, List.cons_append, List.nil_append] using whole.spells
  | .rawCode code _, known => by
      have whole := ends_nim.append (ends_rawCode (lexical.code known))
      rw [Expression.render, Expression.tokens]
      simpa only [String.append_assoc, List.append_assoc, List.cons_append, List.nil_append]
        using whole.spells

/-- Each of several expressions spells its tokens. -/
theorem Expression.spellsAll
    (lexical : vocabulary.IsLexical)
    (depth : Nat) :
    ∀ {values : List Expression}, Expression.AllOver vocabulary values →
      List.Forall₂ Spells (Expression.renderAll depth values) (Expression.allTokens values)
  | [], _ => .nil
  | _ :: _, ⟨firstOver, restOver⟩ =>
      .cons (Expression.spells lexical depth firstOver)
        (Expression.spellsAll lexical depth restOver)

/-- A block spells its statements, one per line, between its two words. -/
theorem Block.spells
    (lexical : vocabulary.IsLexical)
    (depth : Nat) :
    ∀ {block : Block}, block.Over vocabulary → Spells (block.render depth) block.tokens
  | .of statements _, allOver => by
      have inner := (Statement.spellsAll lexical (depth + 1) allOver).append_ends
        (parts_lineBreak depth) (ends_lineBreak depth)
      have whole := (spells_opening.append_ends (parts_blockLines (depth + 1) depth statements)
        inner).append_spells spells_closing
      rw [Block.render, Block.tokens]
      simpa only [String.append_assoc, List.append_assoc, List.cons_append, List.nil_append]
        using whole

/-- The canonical text of a statement spells its tokens, at any depth. -/
theorem Statement.spells
    (lexical : vocabulary.IsLexical)
    (depth : Nat) :
    ∀ {node : Statement}, node.Over vocabulary → Spells (node.render depth) node.tokens
  | .returned value _, valueOver => by
      rw [Statement.render, Statement.tokens]
      exact ends_return.append_spells (Expression.spells lexical depth valueOver)
  | .declared name value _, ⟨known, valueOver⟩ => by
      have head := (ends_variable.append_spells (spells_name lexical known)).append_ends
        (parts_fixed (by decide)) ends_equal
      rw [Statement.render, Statement.tokens]
      exact head.append_spells (Expression.spells lexical depth valueOver)
  | .assigned target value, ⟨targetOver, valueOver⟩ => by
      have head := (Expression.spells lexical depth targetOver).append_ends
        (parts_fixed (by decide)) ends_equal
      have whole := head.append_spells (Expression.spells lexical depth valueOver)
      rw [Statement.render, Statement.tokens]
      simpa only [List.append_assoc, List.cons_append, List.nil_append] using whole
  | .evaluated value, valueOver => by
      rw [Statement.render, Statement.tokens]
      exact Expression.spells lexical depth valueOver
  | .conditional test consequent alternative _, ⟨testOver, consequentOver, alternativeOver⟩ => by
      have tested := (ends_if.append_spells (Expression.spells lexical depth testOver)).append_ends
        (parts_fixed (by decide)) ends_headClose
      have short := tested.append_spells (Block.spells lexical depth consequentOver)
      rcases alternativeOver with rfl | alternativeOver
      · rw [Statement.render, Statement.tokens]
        simpa only [List.append_assoc, List.cons_append, List.nil_append, List.append_nil]
          using short
      · have whole := (short.append_ends (parts_fixed (by decide)) ends_else).append_spells
          (Block.spells lexical depth alternativeOver)
        cases alternative with
        | missing =>
            exact alternativeOver.elim
        | of statements span =>
            rw [Statement.render, Statement.tokens_alternative]
            · simpa only [List.append_assoc, List.cons_append, List.nil_append] using whole
            · exact nofun
  | .whileLoop test body _, ⟨testOver, bodyOver⟩ => by
      have tested := (ends_while.append_spells
        (Expression.spells lexical depth testOver)).append_ends (parts_fixed (by decide))
          ends_headClose
      have whole := tested.append_spells (Block.spells lexical depth bodyOver)
      rw [Statement.render, Statement.tokens]
      simpa only [List.append_assoc, List.cons_append, List.nil_append] using whole
  | .forLoop initial test increment body _, ⟨initialOver, testOver, incrementOver, bodyOver⟩ => by
      have initialSpells : Spells (initial.render depth) initial.tokens := by
        rcases initialOver with rfl | ⟨-, initialOver⟩
        · exact ends_nil.spells
        · exact Statement.spells lexical depth initialOver
      have testSpells : Spells (test.render depth) test.tokens := by
        rcases testOver with rfl | testOver
        · exact ends_nil.spells
        · exact Expression.spells lexical depth testOver
      have incrementSpells : Spells (increment.render depth) increment.tokens := by
        rcases incrementOver with rfl | ⟨-, incrementOver⟩
        · exact ends_nil.spells
        · exact Statement.spells lexical depth incrementOver
      have first := (ends_for.append_spells initialSpells).append_ends
        (parts_fixed (by decide)) ends_semicolon
      have second := (first.append_spells testSpells).append_ends
        (parts_fixed (by decide)) ends_semicolon
      have third := (second.append_spells incrementSpells).append_ends (parts_fixed (by decide))
        ends_headClose
      have whole := third.append_spells (Block.spells lexical depth bodyOver)
      rw [Statement.render, Statement.tokens]
      simpa only [List.append_assoc, List.cons_append, List.nil_append] using whole

/-- The statements of a block spell their tokens, each behind a line break. -/
theorem Statement.spellsAll
    (lexical : vocabulary.IsLexical)
    (depth : Nat) :
    ∀ {nodes : List Statement}, Statement.AllOver vocabulary nodes →
      Spells (Statement.renderAll depth nodes) (Statement.allTokens nodes)
  | [], _ => ends_nil.spells
  | first :: rest, ⟨firstOver, restOver⟩ => by
      have onLine := (ends_lineBreak depth).append_spells (Statement.spells lexical depth firstOver)
      rw [Statement.renderAll, Statement.allTokens]
      cases rest with
      | nil =>
          rw [Statement.renderAll, Statement.allTokens, String.append_empty, List.append_nil]
          exact onLine
      | cons second others =>
          exact onLine.append (parts_renderAll depth second others)
            (Statement.spellsAll lexical depth restOver)

end

section Declarations

variable (lexical : vocabulary.IsLexical)

include lexical

/-- A constructor spells its word, its parameters and its block. -/
theorem Constructor.spells
    {node : Constructor}
    (depth : Nat)
    (isOver : node.Over vocabulary) :
    Spells (node.render depth) node.tokens := by
  obtain ⟨known, bodyOver⟩ := isOver
  have head := (spells_constructor.append_ends (parts_parameters node.parameters)
    (ends_parameters lexical known)).append ends_blank
  have whole := head.append_spells (Block.spells lexical depth bodyOver)
  unfold Constructor.render Constructor.tokens
  simpa only [List.append_assoc, List.cons_append, List.nil_append] using whole

/-- A method spells its name, its parameters and its block. -/
theorem Method.spells
    {node : Method}
    (depth : Nat)
    (isOver : node.Over vocabulary) :
    Spells (node.render depth) node.tokens := by
  obtain ⟨named, known, bodyOver⟩ := isOver
  have head := ((spells_name lexical named).append_ends (parts_parameters node.parameters)
    (ends_parameters lexical known)).append ends_blank
  have whole := head.append_spells (Block.spells lexical depth bodyOver)
  unfold Method.render Method.tokens
  simpa only [List.append_assoc, List.cons_append, List.nil_append] using whole

omit lexical in
/-- Texts on lines of their own spell their tokens behind line breaks. -/
theorem ends_lines
    {texts : List String}
    {tokens : List (List Token)}
    (spelled : List.Forall₂ Spells texts tokens) :
    Ends (String.join (texts.map (Render.lineBreak 1 ++ ·)) ++ Render.lineBreak 0)
        (tokens.flatMap (Token.newline :: ·) ++ [Token.newline]) ∧
      Parts (String.join (texts.map (Render.lineBreak 1 ++ ·)) ++ Render.lineBreak 0) := by
  induction spelled with
  | nil =>
      exact ⟨ends_lineBreak 0, parts_lineBreak 0⟩
  | cons first rest inductionHypothesis =>
      obtain ⟨restEnds, restParts⟩ := inductionHypothesis
      have onLine := (ends_lineBreak 1).append_spells first
      rw [List.map_cons, String.join_cons, List.flatMap_cons, String.append_assoc,
        List.append_assoc]
      exact ⟨onLine.append_ends restParts restEnds, ((parts_lineBreak 1).append _).append _⟩

/-- The members of a class spell their tokens, the constructor before the methods. -/
theorem Declaration.membersSpell
    {constructor? : Option Constructor}
    {methods : List Method}
    (constructorOver : ∀ node ∈ constructor?, node.Over vocabulary)
    (methodsOver : ∀ node ∈ methods, node.Over vocabulary) :
    List.Forall₂ Spells (Declaration.renderMembers constructor? methods)
      (constructor?.toList.map Constructor.tokens ++ methods.map Method.tokens) := by
  have methodsSpell : List.Forall₂ Spells (methods.map (·.render 1))
      (methods.map Method.tokens) := by
    rw [List.forall₂_map_left_iff, List.forall₂_map_right_iff, List.forall₂_same]
    intro node member
    exact Method.spells lexical 1 (methodsOver node member)
  cases constructor? with
  | none =>
      exact methodsSpell
  | some node =>
      exact .cons (Constructor.spells lexical 1 (constructorOver node rfl)) methodsSpell

/-- The canonical text of a declaration spells its tokens. -/
theorem Declaration.spells
    {node : Declaration}
    (isOver : node.Over vocabulary) :
    Spells node.render node.tokens := by
  cases node with
  | imported module alias? path span =>
      obtain ⟨known, aliasKnown⟩ := isOver
      have head := ends_import.append_spells (spells_name lexical known)
      have path := ends_from.append_spells (ends_quoted path).spells
      have partsFrom : Parts " de " := parts_fixed (by decide)
      cases alias? with
      | none =>
          have whole := head.append (partsFrom.append _) path
          simpa only [Declaration.render, Declaration.tokens, String.append_assoc,
            String.append_empty, String.empty_append, List.append_assoc, List.cons_append,
            List.nil_append, Option.toList_none, List.flatMap_nil] using whole
      | some newName =>
          have renamed := ends_as.append_spells (spells_name lexical (aliasKnown newName rfl))
          have partsAs : Parts " comme " := parts_fixed (by decide)
          have whole := (head.append (partsAs.append _) renamed).append (partsFrom.append _) path
          simpa only [Declaration.render, Declaration.tokens, String.append_assoc,
            List.append_assoc, List.cons_append, List.nil_append, Option.toList_some,
            List.flatMap_cons, List.flatMap_nil] using whole
  | classType name constructor? methods span =>
      obtain ⟨known, constructorOver, methodsOver⟩ := isOver
      have head := (ends_class.append_spells (spells_name lexical known)).append
        (parts_fixed (by decide)) spells_bodyOpening
      have members := ends_lines (Declaration.membersSpell lexical constructorOver methodsOver)
      have whole := (head.append_ends members.2 members.1).append_spells spells_closing
      simpa only [Declaration.render, Declaration.tokens, Declaration.memberTokens,
        String.append_assoc, List.append_assoc, List.cons_append, List.nil_append] using whole
  | function name parameters body first =>
      obtain ⟨named, known, bodyOver⟩ := isOver
      have head := (((ends_functionWord.append_spells (spells_name lexical named)).append_ends
        (parts_parameters parameters) (ends_parameters lexical known)).append ends_blank)
      have whole := head.append_spells (Block.spells lexical 0 bodyOver)
      simpa only [Declaration.render, Declaration.tokens, String.append_assoc,
        List.append_assoc, List.cons_append, List.nil_append] using whole
  | typeName name external span =>
      have head := (ends_type.append_spells (spells_name lexical isOver)).append
        (parts_fixed (by decide)) spells_typeEqual
      cases external with
      | false =>
          simpa [Declaration.render, Declaration.tokens, String.append_assoc] using head
      | true =>
          have whole := head.append (parts_fixed (by decide)) spells_external
          simpa only [Declaration.render, Declaration.tokens, String.append_assoc,
            List.append_assoc, List.cons_append, List.nil_append, if_true] using whole
  | constant name value first =>
      obtain ⟨known, valueOver⟩ := isOver
      have head := (ends_constant.append_spells (spells_name lexical known)).append_ends
        (parts_fixed (by decide)) ends_equal
      have whole := head.append_spells (Expression.spells lexical 0 valueOver)
      simpa only [Declaration.render, Declaration.tokens, String.append_assoc,
        List.append_assoc, List.cons_append, List.nil_append] using whole
  | statement body =>
      exact Statement.spells lexical 0 isOver.2

/-- The declarations of a program spell their tokens, with the line breaks between them. -/
theorem Program.spellsAfter
    {rest : List Declaration} :
    ∀ {previous : Declaration}, previous.Over vocabulary →
      (∀ node ∈ rest, node.Over vocabulary) →
      Spells (previous.render ++ Program.renderAfter previous rest)
        (previous.tokens ++ Program.tokensAfter previous rest) := by
  induction rest with
  | nil =>
      intro previous previousOver _
      rw [Program.renderAfter, Program.tokensAfter, String.append_empty, List.append_nil]
      exact Declaration.spells lexical previousOver
  | cons next rest inductionHypothesis =>
      intro previous previousOver restOver
      have first := Declaration.spells lexical previousOver
      have others := inductionHypothesis (restOver next List.mem_cons_self)
        fun node member => restOver node (List.mem_cons_of_mem _ member)
      obtain ⟨between, parts⟩ := separator_spells previous next
      have whole := (first.append_ends parts between).append_spells others
      simpa only [Program.renderAfter, Program.tokensAfter, String.append_assoc,
        List.append_assoc] using whole

/-- The scanner finds the tokens of a program in its canonical text. -/
theorem Program.lexemes_render
    {program : Program}
    (isOver : program.Over vocabulary) :
    Lexer.lexemes program.render.toList = some program.tokens := by
  have spelled : Spells program.render program.tokens := by
    unfold Program.render Program.tokens
    unfold Program.Over at isOver
    cases declarations : program.declarations with
    | nil =>
        exact ends_nil.spells
    | cons first rest =>
        rw [declarations] at isOver
        exact Program.spellsAfter lexical (isOver first List.mem_cons_self)
          fun node member => isOver node (List.mem_cons_of_mem _ member)
  have atEnd := spelled [] trivial
  rw [List.append_nil, Lexer.lexemes_nil, Option.map_some, List.append_nil] at atEnd
  exact atEnd

end Declarations

end Trees

end FrenchNim
