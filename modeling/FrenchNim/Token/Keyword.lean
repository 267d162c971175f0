import FrenchNim.Token.Kind

namespace FrenchNim

/-!
# Reserved words

The table of words that are never identifiers. Its order is the order in which
completions are offered and in which suggestions are searched.
-/

/-- A reserved word and the kind of its tokens. -/
structure Keyword where
  word : String
  kind : TokenKind
  deriving Repr, DecidableEq

namespace Keyword

/-- The word of the boolean constant true. -/
def trueWord : String := "vrai"

/-- All reserved words. -/
def table : List Keyword :=
  [⟨"classe", .classKeyword⟩,
   ⟨"constructeur", .constructorKeyword⟩,
   ⟨"variable", .variableKeyword⟩,
   ⟨"nouveau", .newKeyword⟩,
   ⟨"retourne", .returnKeyword⟩,
   ⟨"retourner", .returnKeyword⟩,
   ⟨"ceci", .selfKeyword⟩,
   ⟨"cette", .selfKeyword⟩,
   ⟨"ouvrir", .openKeyword⟩,
   ⟨"refermer", .closeKeyword⟩,
   ⟨"egal", .equal⟩,
   ⟨"égal", .equal⟩,
   ⟨"importer", .importKeyword⟩,
   ⟨"de", .fromKeyword⟩,
   ⟨"comme", .asKeyword⟩,
   ⟨"pour", .forKeyword⟩,
   ⟨"tantque", .whileKeyword⟩,
   ⟨"fonction", .functionKeyword⟩,
   ⟨"type", .typeKeyword⟩,
   ⟨"external", .externalKeyword⟩,
   ⟨"constant", .constantKeyword⟩,
   ⟨"nim", .nimKeyword⟩,
   ⟨"si", .ifKeyword⟩,
   ⟨"sinon", .elseKeyword⟩,
   ⟨trueWord, .boolean⟩,
   ⟨"faux", .boolean⟩]

/-- The kind of a reserved word. -/
def kind? (word : String) : Option TokenKind :=
  (table.find? (·.word = word)).map (·.kind)

/-- The kind of a token spelled as a word. -/
def kindOf (word : String) : TokenKind :=
  (kind? word).getD .identifier

end Keyword

end FrenchNim
