import FrenchNim.Proofs.Session.Agreement

namespace FrenchNim

/-!
# What a session leaves out of its code

A module opens with the import of the standard library and an empty line, and a
session leaves this opening out of what it shows. The other imports of a program
stand between the two, so they keep the opening from being found, and a program
that imports anything is shown with the import of the standard library.
-/

namespace Nim

/-- The text of the lines that import what a program imports. -/
def importLines (program : Program) : String :=
  String.join ((program.declarations.filterMap emitImport?).map (· ++ "\n"))

/-- A module is the first import, the other imports, an empty line and the code. -/
theorem exists_code_of_generate
    {library nim : String}
    {program : Program}
    (generated : generate library program = .ok nim) :
    ∃ code, nim = "import " ++ library ++ "\n" ++ importLines program ++ "\n" ++ code := by
  unfold generate at generated
  cases emitted : emitDeclarations program.declarations with
  | error node =>
      rw [emitted] at generated
      cases generated
  | ok code =>
      rw [emitted] at generated
      cases generated
      exact ⟨code, rfl⟩

/-- A program without import paths has no import lines. -/
theorem importLines_of_none
    {program : Program}
    (none : program.importPaths = []) :
    importLines program = "" := by
  have noLine : program.declarations.filterMap emitImport? = [] := by
    refine List.filterMap_eq_nil_iff.mpr fun declaration member => ?_
    have noPath := List.filterMap_eq_nil_iff.mp none declaration member
    cases declaration with
    | imported => cases noPath
    | _ => rfl
  rw [importLines, noLine]
  rfl

/-- The line of an import begins with the word for it. -/
theorem exists_rest_of_emitImport?
    {declaration : Declaration}
    {line : String}
    (isLine : line ∈ emitImport? declaration) :
    ∃ rest, line = "import " ++ rest := by
  cases declaration with
  | imported module alias? path span =>
      cases alias? with
      | none =>
          cases isLine
          exact ⟨_, rfl⟩
      | some newName =>
          cases isLine
          exact ⟨_, by rw [String.append_assoc, String.append_assoc]⟩
  | _ => cases isLine

/-- The lines of other imports begin with another import. -/
theorem exists_rest_of_importLines
    {program : Program}
    (imports : program.importPaths ≠ []) :
    ∃ rest, importLines program = "import " ++ rest := by
  cases isLines : program.declarations.filterMap emitImport? with
  | nil =>
      refine (imports (List.filterMap_eq_nil_iff.mpr fun declaration member => ?_)).elim
      have noLine := List.filterMap_eq_nil_iff.mp isLines declaration member
      cases declaration with
      | imported module alias? => cases alias? <;> cases noLine
      | _ => rfl
  | cons line later =>
      have isFirst : line ∈ program.declarations.filterMap emitImport? := by
        rw [isLines]
        exact List.mem_cons_self
      obtain ⟨declaration, -, isLine⟩ := List.mem_filterMap.mp isFirst
      obtain ⟨rest, rfl⟩ := exists_rest_of_emitImport? isLine
      refine ⟨rest ++ "\n" ++ String.join (later.map (· ++ "\n")), ?_⟩
      rw [importLines, isLines, List.map_cons, String.join_cons]
      simp only [String.append_assoc]

end Nim

namespace Session

/-- What begins with two imports does not begin with the opening. -/
theorem ne_opening_append (rest behind : String) :
    "import " ++ standardLibrary ++ "\nimport " ++ rest ≠ opening ++ behind := by
  intro same
  have chars := congrArg String.toList same
  simp [opening, standardLibrary] at chars

/--
A complete program is shown without the opening of its module exactly if it imports
nothing. Otherwise all of its module is shown, the import of the standard library
included.
-/
theorem accept_drops_opening_iff
    {normalizer : Normalizer}
    {session next : Session}
    {line : String}
    {reply : Reply}
    (answered : session.accept normalizer line = (reply, next))
    (complete : reply.complete = true)
    (silent : reply.failure? = none)
    (visible : trimText reply.code ≠ "") :
    ∃ program nim,
      Pipeline.parse normalizer (.ofString reply.code) = .ok program ∧
      Pipeline.transpile normalizer standardLibrary (.ofString reply.code) = .ok nim ∧
      (opening ++ reply.generated = nim ↔ program.importPaths = []) ∧
      (program.importPaths ≠ [] → reply.generated = nim ∧
        ∃ rest, nim = "import " ++ standardLibrary ++ "\nimport " ++ rest) := by
  rcases accept_cases normalizer session line with
    ⟨blank, same⟩ | ⟨nim, transpiled, same⟩ | same | ⟨failure, -, same⟩
  · cases answered.symm.trans same
    exact (visible blank).elim
  · cases answered.symm.trans same
    obtain ⟨program, parsed, generated⟩ := Pipeline.transpile_eq_ok_iff.mp transpiled
    obtain ⟨code, isModule⟩ := Nim.exists_code_of_generate generated
    refine ⟨program, nim, parsed, transpiled, ?_⟩
    by_cases imports : program.importPaths = []
    · rw [Nim.importLines_of_none imports, String.append_empty] at isModule
      have behind : nim = opening ++ code := by
        rw [isModule, opening]
        simp only [String.append_assoc]
        rfl
      subst behind
      exact ⟨iff_of_true (by rw [dropLeading_append]) imports, fun more => (more imports).elim⟩
    · obtain ⟨rest, isLines⟩ := Nim.exists_rest_of_importLines imports
      -- The imports stand between the first line of the opening and the empty one.
      have starts : nim = "import " ++ standardLibrary ++ "\nimport " ++
          (rest ++ "\n" ++ code) := by
        rw [isModule, isLines]
        simp only [String.append_assoc]
        rfl
      have kept : dropLeading opening nim = nim := by
        refine dropLeading_eq_self fun behind => ?_
        rw [starts]
        exact ne_opening_append _ behind
      refine ⟨iff_of_false ?_ imports, fun _ => ⟨kept, _, starts⟩⟩
      rw [starts]
      exact fun same => ne_opening_append _ _ same.symm
  · cases answered.symm.trans same
    cases complete
  · cases answered.symm.trans same
    cases silent

/-- A line that imports a file. -/
def importLine : String :=
  "importer a de \"b.fr\""

/-- The program of the line. -/
def importProgram : Program :=
  ⟨[.imported ⟨"a", ⟨9, 1, 9⟩⟩ none "b.fr" ⟨⟨0, 1, 0⟩, ⟨19, 1, 19⟩⟩]⟩

theorem transpile_importLine :
    Pipeline.transpile none standardLibrary (.ofString (start.codeWith importLine)) =
      .ok "import std\nimport b\n\n" := by
  have parsed : Pipeline.parse none (.ofString (start.codeWith importLine)) =
      .ok importProgram := by
    cbv
  have generated : generate standardLibrary importProgram = .ok "import std\nimport b\n\n" := by
    rfl
  exact Pipeline.transpile_eq_ok_iff.mpr ⟨importProgram, parsed, generated⟩

theorem accept_importLine :
    start.accept (.ofFlag true) importLine =
      (⟨"import std\nimport b\n\n", true, start.codeWith importLine, none⟩, ⟨2, ""⟩) := by
  have visible : trimText (start.codeWith importLine) ≠ "" := by
    decide
  have kept : dropLeading opening "import std\nimport b\n\n" = "import std\nimport b\n\n" := by
    decide
  rw [accept_plain true (by decide)]
  simp only [accept, if_neg visible, transpile_importLine, kept]
  rfl

/-- The import is shown behind the import of the standard library. -/
theorem accept_drops_opening_iff_importLine :
    ∃ reply next,
      start.accept (.ofFlag true) importLine = (reply, next) ∧
      reply.complete = true ∧ reply.failure? = none ∧ trimText reply.code ≠ "" ∧
      ∃ program nim,
        Pipeline.parse (.ofFlag true) (.ofString reply.code) = .ok program ∧
        Pipeline.transpile (.ofFlag true) standardLibrary (.ofString reply.code) = .ok nim ∧
        (opening ++ reply.generated = nim ↔ program.importPaths = []) ∧
        (program.importPaths ≠ [] → reply.generated = nim ∧
          ∃ rest, nim = "import " ++ standardLibrary ++ "\nimport " ++ rest) := by
  have visible : trimText (start.codeWith importLine) ≠ "" := by
    decide
  exact ⟨_, _, accept_importLine, rfl, rfl, visible,
    accept_drops_opening_iff accept_importLine rfl rfl visible⟩

/-- The module of the import is not the opening and then what is shown. -/
theorem generated_importLine_ne :
    ∃ reply next nim,
      start.accept (.ofFlag true) importLine = (reply, next) ∧
      reply.complete = true ∧ reply.failure? = none ∧ trimText reply.code ≠ "" ∧
      Pipeline.transpile (.ofFlag true) standardLibrary (.ofString reply.code) = .ok nim ∧
      opening ++ reply.generated ≠ nim := by
  have plain := Normalizer.apply_plain true
    (show isPlain (start.codeWith importLine) = true by decide)
  refine ⟨_, _, "import std\nimport b\n\n", accept_importLine, rfl, rfl, by decide, ?_, by decide⟩
  rw [Pipeline.transpile_eq_none, plain]
  exact transpile_importLine

end Session

end FrenchNim
