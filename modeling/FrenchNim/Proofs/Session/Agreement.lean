import Mathlib
import FrenchNim.Proofs.Files.Paths
import FrenchNim.Proofs.Text.Segments
import FrenchNim.Proofs.Transpilation
import FrenchNim.Session.Basic

namespace FrenchNim

/-!
# Sessions and whole sources

The lines of a session make a source. A session splits them into groups where
its programs are complete, and puts empty lines in front of each group. The Nim
code of the source is that of the groups, one after the other.
-/

/-- A text that trimming leaves nothing of is white space. -/
theorem isWhiteSpace_of_trimText
    {text : String}
    (blank : trimText text = "") :
    ∀ c ∈ text.toList, isWhiteSpace c = true := by
  have trimmed : trimSpace text.toList = [] := by
    simpa [trimText] using blank
  rw [trimSpace, List.reverse_eq_nil_iff, List.dropWhile_eq_nil_iff] at trimmed
  refine List.dropWhile_eq_nil_iff.mp ?_
  by_cases empty : text.toList.dropWhile isWhiteSpace = []
  · exact empty
  · have visible := List.head_dropWhile_not isWhiteSpace empty
    have white := trimmed _ (List.mem_reverse.mpr (List.head_mem empty))
    cases white.symm.trans visible

/--
The answer reports no failure. If it is the answer to a complete program, the
program imports nothing and ends outside of comments and embedded code.
-/
structure Reply.Fits (normalizer : Normalizer) (reply : Reply) : Prop where
  silent : reply.failure? = none
  noImport : reply.complete = true → ∀ program,
    Pipeline.parse normalizer (.ofString reply.code) = .ok program →
      ∀ declaration ∈ program.declarations, declaration.isImport = false
  comment : reply.complete = true →
    Lexer.endsInComment (normalizer.apply (.ofString reply.code)) = false
  code : reply.complete = true →
    Lexer.endsInCode (normalizer.apply (.ofString reply.code)) = false

namespace Session

/-- Answer lines, one after the other. -/
def acceptAll (normalizer : Normalizer) (session : Session) : List String → List Reply × Session
  | [] => ([], session)
  | line :: rest =>
      let answered := session.accept normalizer line
      let later := answered.2.acceptAll normalizer rest
      (answered.1 :: later.1, later.2)

/-- What a session can answer to a line, and how it goes on. -/
theorem accept_cases (normalizer : Normalizer) (session : Session) (line : String) :
    (trimText (session.codeWith line) = "" ∧ session.accept normalizer line =
      (⟨"", true, session.codeWith line, none⟩, ⟨session.lineNumber + 1, ""⟩)) ∨
    (∃ generated, Pipeline.transpile normalizer standardLibrary
        (.ofString (session.codeWith line)) = .ok generated ∧
      session.accept normalizer line =
        (⟨dropLeading opening generated, true, session.codeWith line, none⟩,
          ⟨session.lineNumber + 1, ""⟩)) ∨
    session.accept normalizer line =
      (⟨"", false, session.codeWith line, none⟩,
        ⟨session.lineNumber + 1, session.codeWith line⟩) ∨
    ∃ failure, (Pipeline.transpile normalizer standardLibrary
        (.ofString (session.codeWith line)) = .error failure ∧ failure.isIncomplete = false) ∧
      session.accept normalizer line =
        (⟨"", true, session.codeWith line, some failure⟩, ⟨session.lineNumber + 1, ""⟩) := by
  by_cases blank : trimText (session.codeWith line) = ""
  · exact .inl ⟨blank, by simp [accept, blank]⟩
  cases outcome : Pipeline.transpile normalizer standardLibrary
      (.ofString (session.codeWith line)) with
  | ok generated =>
      exact .inr (.inl ⟨generated, rfl, by simp [accept, blank, outcome]⟩)
  | error failure =>
      cases incomplete : failure.isIncomplete with
      | true => exact .inr (.inr (.inl (by simp [accept, blank, outcome, incomplete])))
      | false =>
          exact .inr (.inr (.inr ⟨failure, ⟨rfl, incomplete⟩,
            by simp [accept, blank, outcome, incomplete]⟩))

theorem codeWith_ne_empty (session : Session) (line : String) : session.codeWith line ≠ "" := by
  intro empty
  simpa [codeWith] using congrArg String.toList empty

/-- A line behind an open program. -/
theorem codeWith_codeWith (session : Session) (number : Nat) (line next : String) :
    (⟨number, session.codeWith line⟩ : Session).codeWith next =
      session.codeWith line ++ next ++ "\n" := by
  have continued : (⟨number, session.codeWith line⟩ : Session).isContinuation = true :=
    decide_eq_true (codeWith_ne_empty session line)
  rw [codeWith, continued, if_pos rfl]

/-- The lines of the open program, behind empty lines. -/
structure Holds (session : Session) (group : List String) : Prop where
  code : ∃ count, ∀ line, session.codeWith line =
    String.ofList (List.replicate count '\n') ++ joinLines (group ++ [line])
  closed : session.pending = "" → group = []

/-- A session without an open program holds no lines. -/
theorem holds_nil (number : Nat) : Holds ⟨number, ""⟩ [] := by
  refine ⟨⟨number - 1, fun line => ?_⟩, fun _ => rfl⟩
  simp [codeWith, isContinuation, padding, String.append_assoc]

/-- A line that leaves the program open is held. -/
theorem Holds.kept
    {session : Session}
    {group : List String}
    (holds : session.Holds group)
    (number : Nat)
    (line : String) :
    Holds ⟨number, session.codeWith line⟩ (group ++ [line]) := by
  obtain ⟨count, code⟩ := holds.code
  refine ⟨⟨count, fun next => ?_⟩, fun empty => (codeWith_ne_empty session line empty).elim⟩
  rw [codeWith_codeWith, code, joinLines_concat _ next, String.append_assoc,
    String.append_assoc, String.append_assoc]

/-- After a complete program no line is held. -/
theorem holds_of_complete
    {normalizer : Normalizer}
    {session : Session}
    {line : String}
    (complete : (session.accept normalizer line).1.complete = true) :
    (session.accept normalizer line).2.Holds [] := by
  rcases accept_cases normalizer session line with
    ⟨-, same⟩ | ⟨generated, -, same⟩ | same | ⟨failure, -, same⟩
  · rw [same]
    exact holds_nil _
  · rw [same]
    exact holds_nil _
  · rw [same] at complete
    cases complete
  · rw [same]
    exact holds_nil _

/-- A line that does not complete a program is held, and has no code of its own. -/
theorem Holds.of_incomplete
    {normalizer : Normalizer}
    {session : Session}
    {group : List String}
    (holds : session.Holds group)
    {line : String}
    (incomplete : (session.accept normalizer line).1.complete = false) :
    (session.accept normalizer line).2.Holds (group ++ [line]) ∧
      (session.accept normalizer line).1.generated = "" := by
  rcases accept_cases normalizer session line with
    ⟨-, same⟩ | ⟨generated, -, same⟩ | same | ⟨failure, -, same⟩
  · rw [same] at incomplete
    cases incomplete
  · rw [same] at incomplete
    cases incomplete
  · rw [same]
    exact ⟨holds.kept _ line, rfl⟩
  · rw [same] at incomplete
    cases incomplete

section Run

variable {enabled : Bool} {session : Session} {group : List String}

/-- The code of a line is that of the lines held and the line itself, behind empty lines. -/
theorem Holds.apply_codeWith
    (holds : session.Holds group)
    {line : String}
    (byLine : (Normalizer.ofFlag enabled).ActsByLine (group ++ [line])) :
    ∃ count, (Normalizer.ofFlag enabled).apply (.ofString (session.codeWith line)) =
      List.replicate count lineBreak ++
        (Normalizer.ofFlag enabled).apply (.ofString (joinLines (group ++ [line]))) := by
  obtain ⟨count, code⟩ := holds.code
  refine ⟨count, ?_⟩
  rw [code]
  exact byLine.lineBreaks count

/-- A line that completes a program has the code of its group, which can be followed by others. -/
theorem emits_of_complete
    (holds : session.Holds group)
    {line : String}
    (byLine : (Normalizer.ofFlag enabled).ActsByLine (group ++ [line]))
    (fits : (session.accept (.ofFlag enabled) line).1.Fits (.ofFlag enabled))
    (complete : (session.accept (.ofFlag enabled) line).1.complete = true)
    {text : Source}
    (isText : (Normalizer.ofFlag enabled).apply (.ofString (joinLines (group ++ [line]))) = text) :
    text.Emits (session.accept (.ofFlag enabled) line).1.generated ∧ text.Closed := by
  have endsLine : text.getLast? = some lineBreak := by
    rw [← isText, joinLines_concat, byLine.concat, List.getLast?_concat]
  obtain ⟨count, padded⟩ := holds.apply_codeWith byLine
  rw [isText] at padded
  rcases accept_cases (.ofFlag enabled) session line with
    ⟨blank, same⟩ | ⟨generated, transpiled, same⟩ | same | ⟨failure, -, failed⟩
  -- A blank program is not transpiled here, but it is a part of the whole source.
  · have white := Normalizer.apply_of_isWhiteSpace enabled (isWhiteSpace_of_trimText blank)
    rw [padded] at white
    have whiteText := (List.forall_mem_append.mp white).2
    rw [same]
    exact ⟨Source.emits_of_isWhiteSpace whiteText, Source.closed_of_isWhiteSpace endsLine whiteText⟩
  · obtain ⟨-, noImport, comment, embedded⟩ := fits
    rw [same] at noImport comment embedded ⊢
    obtain ⟨code, rfl, emits⟩ := Pipeline.emits_of_transpile transpiled (noImport rfl)
    have present : text ≠ [] := by
      intro empty
      rw [empty] at endsLine
      cases endsLine
    have closed : Source.Closed (List.replicate count lineBreak ++ text) := by
      rw [← padded]
      refine ⟨?_, comment rfl, embedded rfl⟩
      rw [padded, List.getLast?_append, endsLine]
      rfl
    rw [padded] at emits
    rw [show opening = Nim.opening standardLibrary from rfl, dropLeading_append]
    exact Source.of_lineBreaks present count emits closed
  · rw [same] at complete
    cases complete
  · have silent := fits.silent
    rw [failed] at silent
    cases silent

/-- The code that a session makes of lines is their Nim code. -/
theorem emits_joinLines (lines : List String) :
    ∀ {session : Session} {group : List String},
      session.Holds group →
      (Normalizer.ofFlag enabled).ActsByLine (group ++ lines) →
      (∀ reply ∈ (session.acceptAll (.ofFlag enabled) lines).1, reply.Fits (.ofFlag enabled)) →
      (session.acceptAll (.ofFlag enabled) lines).2.pending = "" →
      Source.Emits ((Normalizer.ofFlag enabled).apply (.ofString (joinLines (group ++ lines))))
        (String.join ((session.acceptAll (.ofFlag enabled) lines).1.map (·.generated))) := by
  -- The lines that are held stand in front of those that are left; a complete program closes them.
  induction lines with
  | nil =>
      intro session group holds _ _ settled
      rw [holds.closed settled, List.append_nil, joinLines_nil, Normalizer.apply_empty]
      exact Source.emits_of_isWhiteSpace (by simp)
  | cons line rest inductionHypothesis =>
      intro session group holds byLine fits settled
      rw [acceptAll] at fits settled ⊢
      obtain ⟨fitsFirst, fitsRest⟩ := List.forall_mem_cons.mp fits
      rw [List.map_cons, String.join_cons]
      cases complete : (session.accept (.ofFlag enabled) line).1.complete with
      | true =>
          obtain ⟨emits, closed⟩ := emits_of_complete holds
            (byLine.restrict ⟨[], rest, by simp⟩) fitsFirst complete rfl
          have later := inductionHypothesis (holds_of_complete complete)
            (byLine.restrict ⟨group ++ [line], [], by simp⟩) fitsRest settled
          rw [byLine.append]
          exact emits.append closed later
      | false =>
          obtain ⟨kept, noCode⟩ := holds.of_incomplete complete
          have regrouped : group ++ line :: rest = group ++ [line] ++ rest := by
            simp
          rw [noCode, String.empty_append, regrouped]
          exact inductionHypothesis kept (regrouped ▸ byLine) fitsRest settled

end Run

/--
A session and the transpilation of all its lines agree.

If no line is answered by a failure, no program stays open and every complete
program can be followed by another one, then the Nim code of the source that the
lines make is the code that the answers show, one after the other.
-/
theorem transpile_joinLines
    (enabled : Bool)
    (lines : List String)
    (fits : ∀ reply ∈ (start.acceptAll (.ofFlag enabled) lines).1, reply.Fits (.ofFlag enabled))
    (settled : (start.acceptAll (.ofFlag enabled) lines).2.isContinuation = false)
    (byLine : (Normalizer.ofFlag enabled).ActsByLine lines)
    (within : ∀ position, lex ((Normalizer.ofFlag enabled).apply (.ofString (joinLines lines))) ≠
      .error (.tokenLimit position)) :
    Pipeline.transpile (.ofFlag enabled) standardLibrary (.ofString (joinLines lines)) =
      .ok (opening ++
        String.join ((start.acceptAll (.ofFlag enabled) lines).1.map (·.generated))) := by
  have closed : (start.acceptAll (.ofFlag enabled) lines).2.pending = "" := by
    simpa [isContinuation] using settled
  have emits := emits_joinLines lines (holds_nil 1) byLine fits closed
  exact Pipeline.transpile_of_emits emits within standardLibrary

/-! ## Sessions of plain lines -/

/-- The normalizer does not matter to plain code. -/
theorem accept_plain
    (enabled : Bool)
    {session : Session}
    {line : String}
    (plain : isPlain (session.codeWith line) = true) :
    session.accept (.ofFlag enabled) line = session.accept none line := by
  have same : Pipeline.transpile (.ofFlag enabled) standardLibrary
      (.ofString (session.codeWith line)) =
        Pipeline.transpile none standardLibrary (.ofString (session.codeWith line)) := by
    rw [Pipeline.transpile_eq_none, Normalizer.apply_plain enabled plain]
  simp only [accept, same]

/-- A condition over two lines, and an expression. -/
def branchLines : List String :=
  ["si (x) ouvrir", "refermer", "y"]

theorem acceptAll_branchLines :
    start.acceptAll (.ofFlag true) branchLines =
      ([⟨"", false, "si (x) ouvrir\n", none⟩,
        ⟨"if x:\n\n", true, "si (x) ouvrir\nrefermer\n", none⟩,
        ⟨"y\n\n", true, "\n\ny\n", none⟩], ⟨4, ""⟩) := by
  have opened : start.accept none "si (x) ouvrir" =
      (⟨"", false, "si (x) ouvrir\n", none⟩, ⟨2, "si (x) ouvrir\n"⟩) := by
    cbv
  have closed : (⟨2, "si (x) ouvrir\n"⟩ : Session).accept none "refermer" =
      (⟨"if x:\n\n", true, "si (x) ouvrir\nrefermer\n", none⟩, ⟨3, ""⟩) := by
    cbv
  have next : (⟨3, ""⟩ : Session).accept none "y" =
      (⟨"y\n\n", true, "\n\ny\n", none⟩, ⟨4, ""⟩) := by
    cbv
  rw [branchLines, acceptAll, accept_plain true (by decide), opened]
  dsimp only
  rw [acceptAll, accept_plain true (by decide), closed]
  dsimp only
  rw [acceptAll, accept_plain true (by decide), next]
  rfl

/-- Nothing is asked of the code of a program that is not complete. -/
theorem fits_open
    {normalizer : Normalizer}
    {reply : Reply}
    (silent : reply.failure? = none)
    (incomplete : reply.complete = false) :
    reply.Fits normalizer := by
  refine ⟨silent, fun complete => ?_, fun complete => ?_, fun complete => ?_⟩
  all_goals cases complete.symm.trans incomplete

/-- Whether plain code of a complete program fits can be computed without a normalizer. -/
theorem fits_plain
    (enabled : Bool)
    {reply : Reply}
    (silent : reply.failure? = none)
    (plain : isPlain reply.code = true)
    (noImport : ((Pipeline.parse none (.ofString reply.code)).toOption.all fun program =>
      program.declarations.all fun declaration => !declaration.isImport) = true)
    (comment : Lexer.endsInComment (.ofString reply.code) = false)
    (code : Lexer.endsInCode (.ofString reply.code) = false) :
    reply.Fits (.ofFlag enabled) := by
  have same := Normalizer.apply_plain enabled plain
  refine ⟨silent, fun _ program parsed declaration member => ?_, fun _ => ?_, fun _ => ?_⟩
  · rw [Pipeline.parse_eq_none, same] at parsed
    rw [parsed] at noImport
    simpa using List.all_eq_true.mp noImport declaration member
  · rw [same]
    exact comment
  · rw [same]
    exact code

/-- The condition and the expression behind it, as a session and as a source. -/
theorem transpile_joinLines_branchLines :
    (start.acceptAll (.ofFlag true) branchLines).1.map (·.generated) =
        ["", "if x:\n\n", "y\n\n"] ∧
      Pipeline.transpile (.ofFlag true) standardLibrary
          (.ofString "si (x) ouvrir\nrefermer\ny\n") =
        .ok "import std\n\nif x:\n\ny\n\n" := by
  have isText : joinLines branchLines = "si (x) ouvrir\nrefermer\ny\n" := by
    decide
  have plain : ∀ line ∈ branchLines, isPlain line = true := by
    decide
  have agrees := transpile_joinLines true branchLines ?_ ?_
    (Normalizer.actsByLine_plain plain true) ?_
  · rw [isText, acceptAll_branchLines] at agrees
    rw [acceptAll_branchLines]
    exact ⟨rfl, agrees⟩
  · rw [acceptAll_branchLines]
    exact List.forall_mem_cons.mpr ⟨fits_open rfl rfl, List.forall_mem_cons.mpr
      ⟨fits_plain true rfl (by decide) (by cbv) (by cbv) (by cbv),
        List.forall_mem_singleton.mpr (fits_plain true rfl (by decide) (by cbv) (by cbv) (by cbv))⟩⟩
  · rw [acceptAll_branchLines]
    rfl
  · refine Lexer.lex_ne_tokenLimit ?_
    rw [isText, Normalizer.apply_plain true (by decide)]
    decide

end Session

end FrenchNim
