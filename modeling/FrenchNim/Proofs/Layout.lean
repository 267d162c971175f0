import FrenchNim.Proofs.Formatting
import FrenchNim.Proofs.Nim.Headers
import FrenchNim.Proofs.Syntax.Walking

namespace FrenchNim

/-!
# The layout of emitted modules

The lines of a statement are indented by its depth and every header of a block has
a deeper line behind it, as long as closures stand at the ends of statements and
blocks hold a statement. This module follows headers through the declarations of a
program and says of a parsed program exactly when its module is laid out well.
-/

namespace Nim

open Chunk (spelled written)

section Declarations

variable {vocabulary : Vocabulary}

theorem headed_procedure
    (fits : FitsLines vocabulary)
    (name parameters : String)
    {body : Block}
    (bodyOver : body.Over vocabulary)
    {rest : List Chunk}
    (shallow : Shallow Place.top.depth rest) :
    Headed (procedureRow name parameters body ++ rest) ↔
      (!body.isEmpty && body.fillsBlocks) = true ∧ Headed rest := by
  rw [procedureRow, List.cons_append, Headed]
  exact headed_block fits bodyOver shallow
    (headed_blockRow fits Place.top.nested bodyOver shallow.nested)

/-- The procedure of a constructor has a line of its own behind its header. -/
theorem headed_constructor
    (fits : FitsLines vocabulary)
    (className : String)
    {constructor? : Option Constructor}
    (nodesOver : ∀ node ∈ constructor?, node.Over vocabulary)
    {rest : List Chunk}
    (shallow : Shallow Place.top.depth rest) :
    Headed (constructorRow className constructor? ++ rest) ↔
      constructor?.all (·.body.fillsBlocks) = true ∧ Headed rest := by
  have deep : ∀ more,
      2 * (0 + 1) ≤ leading (spelled (.code constructorPlace.indentation :: more)) := by
    intro more
    rw [Chunk.spelled_code, leading_indentation]
    exact Nat.le_add_right _ _
  simp only [constructorRow, List.cons_append]
  rw [Headed, Headed, Headed, Headed, Headed, and_iff_right (deep _)]
  cases constructor? with
  | none => exact (and_iff_right rfl).symm
  | some node => exact headed_blockRow fits constructorPlace (nodesOver node rfl).2 shallow.nested

theorem headed_methods
    (fits : FitsLines vocabulary)
    (className : String)
    {methods : List Method}
    (nodesOver : ∀ node ∈ methods, node.Over vocabulary)
    (rest : List Chunk) :
    Headed (methodsRow className methods ++ rest) ↔
      (methods.all fun method => !method.body.isEmpty && method.body.fillsBlocks) = true ∧
        Headed rest := by
  induction methods with
  | nil =>
      exact (and_iff_right rfl).symm
  | cons method others inductionHypothesis =>
      obtain ⟨firstOver, othersOver⟩ := List.forall_mem_cons.mp nodesOver
      rw [methodsRow, List.append_assoc, List.cons_append,
        headed_procedure fits _ _ firstOver.2.2 shallow_lineBreak, Headed,
        inductionHypothesis othersOver]
      simp only [List.all_cons, Bool.and_eq_true, and_assoc]

/-- All headers of a declaration have a line behind them if its blocks are filled. -/
theorem headed_declaration
    (fits : FitsLines vocabulary)
    {declaration : Declaration}
    (isOver : declaration.Over vocabulary)
    {rest : List Chunk}
    (shallow : Shallow Place.top.depth rest) :
    Headed (declarationRow declaration ++ rest) ↔
      declaration.fillsBlocks = true ∧ Headed rest := by
  cases declaration with
  | imported | typeName =>
      exact (and_iff_right rfl).symm
  | classType name constructor? methods span =>
      obtain ⟨-, constructorOver, methodsOver⟩ := isOver
      simp only [declarationRow, List.cons_append, List.append_assoc]
      rw [Headed, headed_constructor fits _ constructorOver shallow_lineBreak, Headed,
        headed_methods fits _ methodsOver, Declaration.fillsBlocks, Bool.and_eq_true, and_assoc]
  | function name parameters body first =>
      exact headed_procedure fits _ _ isOver.2.2 shallow
  | constant name value first =>
      exact headed_expression fits Place.top isOver.2 shallow
  | statement body =>
      exact headed_statement fits Place.top isOver.2 shallow

/-- A row with visible code is not blank. -/
theorem trimText_written_ne
    {row : List Chunk}
    (text : String)
    (visible : ∃ c ∈ text.toList, isWhiteSpace c = false)
    (member : .code text ∈ row) :
    trimText (written row) ≠ "" := by
  intro blank
  obtain ⟨c, inText, notWhite⟩ := visible
  have spelledOut : c ∈ (written row).toList := by
    rw [Chunk.written, String.toList_ofList]
    exact List.mem_flatMap.mpr ⟨_, member, inText⟩
  rw [white_of_trimText_eq blank c spelledOut] at notWhite
  cases notWhite

/-- Only a literal, a name or embedded code may be blank, and none of these has a block. -/
theorem expression_fillsBlocks_of_blank
    {value : Expression}
    (blank : trimText (written (statementRow Place.top (.evaluated value))) = "") :
    value.fillsBlocks = true := by
  cases value with
  | array values span =>
      cases values with
      | nil => rfl
      | cons first rest =>
          exact absurd blank (trimText_written_ne "@[" ⟨'@', by simp, by decide⟩
            (by simp [statementRow, expressionRow]))
  | invocation | binary | construction =>
      exact absurd blank (trimText_written_ne "(" ⟨'(', by simp, by decide⟩
        (by simp [statementRow, expressionRow]))
  | member target name arrow =>
      exact absurd blank (trimText_written_ne ("." ++ name.name) ⟨'.', by simp, by decide⟩
        (by simp [statementRow, expressionRow]))
  | index target position last =>
      exact absurd blank (trimText_written_ne "[" ⟨'[', by simp, by decide⟩
        (by simp [statementRow, expressionRow]))
  | closure parameters body first =>
      exact absurd blank (trimText_written_ne (closureHeader parameters)
        ⟨'p', by simp [closureHeader], by decide⟩ (by simp [statementRow, expressionRow]))
  | _ => rfl

theorem statement_fillsBlocks_of_blank
    {node : Statement}
    (blank : trimText (written (statementRow Place.top node)) = "") :
    node.fillsBlocks = true := by
  cases node with
  | returned value first =>
      exact absurd blank (trimText_written_ne "return " ⟨'r', by simp, by decide⟩
        (by simp [statementRow]))
  | declared name value first =>
      exact absurd blank (trimText_written_ne (variableHead .top name)
        ⟨'v', by simp [variableHead], by decide⟩ (by simp [statementRow]))
  | assigned target value =>
      exact absurd blank (trimText_written_ne " = " ⟨'=', by simp, by decide⟩
        (by simp [statementRow]))
  | evaluated value =>
      exact expression_fillsBlocks_of_blank blank
  | conditional test consequent alternative first =>
      exact absurd blank (trimText_written_ne "if " ⟨'i', by simp, by decide⟩
        (by simp [statementRow]))
  | whileLoop | forLoop =>
      exact absurd blank (trimText_written_ne "while " ⟨'w', by simp, by decide⟩
        (by simp [statementRow]))
  | unknown | missing =>
      rfl

/-- A blank declaration has no blocks. -/
theorem declaration_fillsBlocks_of_blank
    {declaration : Declaration}
    (blank : trimText (written (declarationRow declaration)) = "") :
    declaration.fillsBlocks = true := by
  cases declaration with
  | imported | typeName =>
      rfl
  | classType name constructor? methods span =>
      exact absurd blank (trimText_written_ne (classHead name.name constructor?)
        ⟨'t', by simp [classHead], by decide⟩ (by simp [declarationRow]))
  | function name parameters body first =>
      exact absurd blank (trimText_written_ne _ ⟨'p', by simp, by decide⟩
        List.mem_cons_self)
  | constant name value first =>
      exact absurd blank (trimText_written_ne _ ⟨'c', by simp, by decide⟩ List.mem_cons_self)
  | statement body =>
      exact statement_fillsBlocks_of_blank blank

/-- All headers of the declarations have a line behind them if their blocks are filled. -/
theorem headed_declarations
    (fits : FitsLines vocabulary)
    {declarations : List Declaration}
    (allOver : ∀ declaration ∈ declarations, declaration.Over vocabulary) :
    Headed (declarationsRow declarations) ↔
      declarations.all Declaration.fillsBlocks = true := by
  induction declarations with
  | nil =>
      exact iff_of_true trivial rfl
  | cons first rest inductionHypothesis =>
      obtain ⟨firstOver, restOver⟩ := List.forall_mem_cons.mp allOver
      rw [declarationsRow, List.all_cons, Bool.and_eq_true, ← inductionHypothesis restOver]
      split
      · next blank => exact (and_iff_right (declaration_fillsBlocks_of_blank blank)).symm
      · rw [headed_declaration fits firstOver shallow_lineBreak, Headed]

end Declarations

/-- The words of a parsed program stand in a line. -/
theorem scanned_fitsLines : FitsLines Vocabulary.scanned where
  name known := known.1
  operator known := known
  code known := known.imp id (·.imp fun c visible isSpace =>
    absurd (show isWhiteSpace c = false from visible) (by rw [isSpace]; decide))

end Nim

/--
A parsed program whose strings and embedded codes have no line breaks is laid out
as it should be, with these two exceptions. A statement has a line that is not
indented by its depth if a closure does not stand at its end. And a header has no
deeper line behind it if its block is empty.
-/
theorem parseProgram_layout
    (library : String)
    {code : Bytes}
    {program : Program}
    (parsed : parseProgram (.ofBytes code) = .ok program)
    (oneLine : program.Everywhere Expression.IsOneLine) :
    (∀ node, .statement node ∈ program.walk (fun _ => true) → ∀ place : Nim.Place,
      ∃ text, Nim.emitStatement place node = .ok text ∧
        (Nim.Indented (2 * place.depth) text ↔ place.depth = 0 ∨ node.closesLast = true)) ∧
    generate library program = .ok (Nim.Chunk.written (Nim.programRow library program)) ∧
      (Nim.Headed (Nim.programRow library program) ↔ program.fillsBlocks = true) := by
  have isOver := parseProgram_over parsed
  refine ⟨fun node visited place => ?_, generate_eq_written library isOver, ?_⟩
  · obtain ⟨nodeOver, nodeOneLine⟩ := Program.statement_of_walk isOver oneLine visited
    exact Nim.emitStatement_indented_iff Nim.scanned_fitsLines place nodeOver nodeOneLine
  · exact Nim.headed_declarations Nim.scanned_fitsLines isOver

/-- The source `a=fonction()ouvrir b()refermer`. -/
def assignedClosure : Bytes :=
  [0x61, 0x3D, 0x66, 0x6F, 0x6E, 0x63, 0x74, 0x69, 0x6F, 0x6E, 0x28, 0x29, 0x6F, 0x75, 0x76,
   0x72, 0x69, 0x72, 0x20, 0x62, 0x28, 0x29, 0x72, 0x65, 0x66, 0x65, 0x72, 0x6D, 0x65, 0x72]

/-- The assignment of a closure with one statement. -/
def closureAssignment : Statement :=
  .assigned (.identifier ⟨"a", ⟨0, 1, 0⟩⟩)
    (.closure [] (.of [.evaluated (.invocation (.identifier ⟨"b", ⟨19, 1, 19⟩⟩) [] ⟨21, 1, 21⟩)]
      ⟨⟨12, 1, 12⟩, ⟨29, 1, 29⟩⟩) ⟨2, 1, 2⟩)

/-- A closure at the end of its statement has lines of its own. -/
theorem parseProgram_layout_assignedClosure :
    ∃ program, parseProgram (.ofBytes assignedClosure) = .ok program ∧
      program.Everywhere Expression.IsOneLine ∧
      Nim.Headed (Nim.programRow standardLibrary program) ∧
      .statement closureAssignment ∈ program.walk (fun _ => true) ∧
      ∃ text, Nim.emitStatement ⟨1, false⟩ closureAssignment = .ok text ∧
        Nim.Indented 2 text := by
  have parsed : parseProgram (.ofBytes assignedClosure) =
      .ok ⟨[.statement closureAssignment]⟩ := by
    cbv
  have oneLine : Program.Everywhere Expression.IsOneLine ⟨[.statement closureAssignment]⟩ :=
    List.forall_mem_singleton.mpr ⟨trivial, trivial, ⟨trivial, trivial, trivial⟩, trivial⟩
  have visited : .statement closureAssignment ∈
      Program.walk (fun _ => true) ⟨[.statement closureAssignment]⟩ :=
    .tail _ (.head _)
  obtain ⟨margins, -, headers⟩ := parseProgram_layout standardLibrary parsed oneLine
  obtain ⟨text, emitted, indented⟩ := margins closureAssignment visited ⟨1, false⟩
  exact ⟨_, parsed, oneLine, headers.mpr rfl, visited, text, emitted, indented.mpr (.inr rfl)⟩

/-- The source `a(fonction()ouvrir refermer)`. -/
def passedClosure : Bytes :=
  [0x61, 0x28, 0x66, 0x6F, 0x6E, 0x63, 0x74, 0x69, 0x6F, 0x6E, 0x28, 0x29, 0x6F, 0x75, 0x76,
   0x72, 0x69, 0x72, 0x20, 0x72, 0x65, 0x66, 0x65, 0x72, 0x6D, 0x65, 0x72, 0x29]

/-- A call that is given a closure without statements. -/
def closureCall : Statement :=
  .evaluated (.invocation (.identifier ⟨"a", ⟨0, 1, 0⟩⟩)
    [.closure [] (.of [] ⟨⟨12, 1, 12⟩, ⟨26, 1, 26⟩⟩) ⟨2, 1, 2⟩] ⟨27, 1, 27⟩)

/--
The parenthesis behind a closure stands at the start of a line, where the first
line of the closure should be, and it is not indented as the call is.
-/
theorem parseProgram_layout_passedClosure :
    ∃ program, parseProgram (.ofBytes passedClosure) = .ok program ∧
      program.Everywhere Expression.IsOneLine ∧
      generate standardLibrary program =
        .ok "import std\n\na(proc(): auto \x7b.closure, gcsafe.\x7d =\n)\n\n" ∧
      ¬ Nim.Headed (Nim.programRow standardLibrary program) ∧
      .statement closureCall ∈ program.walk (fun _ => true) ∧
      ∃ text, Nim.emitStatement ⟨1, false⟩ closureCall = .ok text ∧ ¬ Nim.Indented 2 text := by
  have parsed : parseProgram (.ofBytes passedClosure) = .ok ⟨[.statement closureCall]⟩ := by
    cbv
  have oneLine : Program.Everywhere Expression.IsOneLine ⟨[.statement closureCall]⟩ :=
    List.forall_mem_singleton.mpr ⟨trivial, trivial, ⟨trivial, trivial⟩, trivial⟩
  have visited : .statement closureCall ∈
      Program.walk (fun _ => true) ⟨[.statement closureCall]⟩ :=
    .tail _ (.head _)
  have emitted : Nim.emitStatement ⟨1, false⟩ closureCall =
      .ok "  a(proc(): auto \x7b.closure, gcsafe.\x7d =\n)\n" := by
    cbv
  have headers := Nim.headed_declarations Nim.scanned_fitsLines (parseProgram_over parsed)
  exact ⟨_, parsed, oneLine, by cbv, fun headed => absurd (headers.mp headed) (by decide),
    visited, _, emitted, by decide⟩

end FrenchNim
