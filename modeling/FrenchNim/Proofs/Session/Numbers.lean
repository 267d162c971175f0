import FrenchNim.Proofs.Failure.Places
import FrenchNim.Proofs.Grammar.Parentheses
import FrenchNim.Proofs.Session.Agreement
import FrenchNim.Proofs.Text.Lines

namespace FrenchNim

/-!
# The numbers of the lines of a session

A session puts empty lines in front of a program, and the program keeps growing
until it is complete. So the code of an answer has one line for every line that
was given, and its positions name the lines of the session. Only the end of the
code stands on a line that no one has given yet.
-/

/-- Texts in a row have their characters in a row. -/
theorem Source.ofString_append (front behind : String) :
    ofString (front ++ behind) = ofString front ++ ofString behind := by
  simp [ofString]

/-- The lines of joined lines are the lines, and nothing stands behind the last line break. -/
theorem lines_joinLines
    {lines : List String}
    (unbroken : ∀ line ∈ lines, '\n' ∉ line.toList) :
    (Source.ofString (joinLines lines)).lines = lines.map Source.ofString ++ [[]] := by
  induction lines with
  | nil =>
      exact Source.lines_nil
  | cons line rest inductionHypothesis =>
      obtain ⟨first, later⟩ := List.forall_mem_cons.mp unbroken
      have noBreak : lineBreak ∉ Source.ofString line := by
        rw [Source.ofString, List.mem_map]
        rintro ⟨c, member, isBreak⟩
        cases isBreak
        exact first member
      have behind : Source.ofString (line ++ "\n" ++ joinLines rest) =
          Source.ofString line ++ lineBreak :: Source.ofString (joinLines rest) := by
        rw [Source.ofString_append, Source.ofString_append, List.append_assoc]
        rfl
      rw [joinLines_cons, behind, Source.lines_append_lineBreak, Source.lines_of_noBreak noBreak,
        inductionHypothesis later]
      rfl

/--
The position stands on the line of the given number, with `head` before it and
`tail` behind it.
-/
structure Position.IsOnLine (position : Position) (text : Source) (number : Nat)
    (head tail : Source) : Prop where
  line : position.line = number
  column : position.column = head.length
  shown : text.lines[number - 1]? = some (head ++ tail)

/-- A place in a text is on the line that the line breaks before it tell. -/
theorem Position.IsPlaceOf.isOnLine
    {position : Position}
    {text before behind : Source}
    (place : position.IsPlaceOf text before behind) :
    position.IsOnLine text (before.count lineBreak + 1) before.openLine behind.firstLine := by
  obtain ⟨split, rfl, -⟩ := place
  refine ⟨?_, column_start_after before, ?_⟩
  · rw [line_start_after]
    push_cast
    omega
  · rw [split, Nat.add_sub_cancel]
    exact Source.lines_at before behind

/-- The normalizer keeps line breaks: there are as many lines, and empty lines stay empty. -/
def Normalizer.KeepsLines (normalizer : Normalizer) (code : Source) : Prop :=
  List.Forall₂ (fun line prepared => line = [] → prepared = []) code.lines
    (normalizer.apply code).lines

namespace Normalizer.KeepsLines

variable {normalizer : Normalizer} {code : Source}

/-- An empty line stays empty. -/
theorem lines_of_empty
    (keeps : normalizer.KeepsLines code)
    {index : Nat}
    (empty : code.lines[index]? = some []) :
    (normalizer.apply code).lines[index]? = some [] := by
  obtain ⟨within, isLine⟩ := List.getElem?_eq_some_iff.mp empty
  have kept := keeps.get within (keeps.length_eq ▸ within)
  rw [List.get_eq_getElem, List.get_eq_getElem, isLine] at kept
  exact List.getElem?_eq_some_iff.mpr ⟨_, kept rfl⟩

/-- There are as many line breaks as before. -/
theorem count_lineBreak
    (keeps : normalizer.KeepsLines code) :
    (normalizer.apply code).count lineBreak = code.count lineBreak := by
  have same := keeps.length_eq
  rw [Source.length_lines, Source.length_lines] at same
  omega

/-- Empty lines in front stay line breaks. -/
theorem exists_append
    (keeps : normalizer.KeepsLines code)
    {count : Nat}
    {others : List Source}
    (isCode : code.lines = List.replicate count [] ++ others)
    (more : others ≠ []) :
    ∃ rest, normalizer.apply code = List.replicate count lineBreak ++ rest := by
  have long : count < (normalizer.apply code).lines.length := by
    have positive := List.length_pos_iff.mpr more
    rw [← keeps.length_eq, isCode, List.length_append, List.length_replicate]
    omega
  have isFront : (normalizer.apply code).lines.take count = List.replicate count [] := by
    refine List.eq_replicate_iff.mpr ⟨by rw [List.length_take]; omega, fun line member => ?_⟩
    obtain ⟨index, within, rfl⟩ := List.mem_take_iff_getElem.mp member
    have isEmpty : code.lines[index]? = some [] := by
      rw [isCode, List.getElem?_append_left (by rw [List.length_replicate]; omega),
        List.getElem?_replicate, if_pos (by omega)]
    obtain ⟨_, same⟩ := List.getElem?_eq_some_iff.mp (keeps.lines_of_empty isEmpty)
    exact same
  obtain ⟨rest, split, -⟩ := Source.exists_append_of_lines
    (by rw [← isFront, List.take_append_drop]) (List.drop_eq_nil_iff.not.mpr (by omega))
  exact ⟨rest, split⟩

end Normalizer.KeepsLines

/-- Plain code has the same lines for every normalizer. -/
theorem Normalizer.keepsLines_plain
    (enabled : Bool)
    {code : String}
    (plain : isPlain code = true) :
    (Normalizer.ofFlag enabled).KeepsLines (.ofString code) := by
  rw [KeepsLines, apply_plain enabled plain]
  exact List.forall₂_same.mpr fun _ _ => id

namespace Session

/-- How many lines were given before the program that is open, or that comes next. -/
def settledLines (replies : List Reply) : Nat :=
  (replies.rdropWhile fun reply => !reply.complete).length

/-- A complete reply settles all lines so far, and no other reply settles any. -/
theorem settledLines_concat (replies : List Reply) (reply : Reply) :
    settledLines (replies ++ [reply]) =
      if reply.complete = true then replies.length + 1 else settledLines replies := by
  rw [settledLines, List.rdropWhile_concat]
  cases reply.complete <;> simp [settledLines]

/-! ## What a session holds -/

/-- The lines given so far, and how many of them came before the open program. -/
structure Numbered (session : Session) (given : List String) (settled : Nat) : Prop where
  number : session.lineNumber = given.length + 1
  within : settled ≤ given.length
  code : ∀ line, session.codeWith line =
    String.ofList (List.replicate settled '\n') ++ joinLines (given.drop settled ++ [line])

/-- A session without an open program has settled all lines. -/
theorem numbered_settled (given : List String) :
    Numbered ⟨given.length + 1, ""⟩ given given.length := by
  refine ⟨rfl, Nat.le_refl _, fun line => ?_⟩
  simp [codeWith, isContinuation, padding, String.append_assoc]

section Step

variable {normalizer : Normalizer} {session next : Session} {reply : Reply} {given : List String}
  {line : String} {settled : Nat}

/-- A line is answered about the code that it completes or continues, which stays open or not. -/
theorem Numbered.accept
    (numbered : session.Numbered given settled)
    (answered : session.accept normalizer line = (reply, next)) :
    next.Numbered (given ++ [line])
      (if reply.complete = true then given.length + 1 else settled) ∧
    reply.code = session.codeWith line ∧
    (next.pending = "" ↔ reply.complete = true) := by
  obtain ⟨number, within, code⟩ := numbered
  have closed := numbered_settled (given ++ [line])
  rw [List.length_append, List.length_singleton, ← number] at closed
  rcases accept_cases normalizer session line with
    ⟨-, same⟩ | ⟨generated, -, same⟩ | same | ⟨failure, -, same⟩
  · cases answered.symm.trans same
    rw [if_pos rfl, ← number]
    exact ⟨closed, rfl, by simp⟩
  · cases answered.symm.trans same
    rw [if_pos rfl, ← number]
    exact ⟨closed, rfl, by simp⟩
  · cases answered.symm.trans same
    refine ⟨⟨?_, ?_, fun next => ?_⟩, rfl, by simp [codeWith_ne_empty]⟩
    · simp [number]
    · simpa using Nat.le_succ_of_le within
    · rw [codeWith_codeWith, code, if_neg Bool.false_ne_true, List.drop_append_of_le_length within,
        joinLines_concat _ next, String.append_assoc, String.append_assoc, String.append_assoc]
  · cases answered.symm.trans same
    rw [if_pos rfl, ← number]
    exact ⟨closed, rfl, by simp⟩

/-- A failure that is answered is the failure to transpile code that is not just incomplete. -/
theorem transpile_of_accept
    {failure : Failure}
    (answered : session.accept normalizer line = (reply, next))
    (failed : reply.failure? = some failure) :
    Pipeline.transpile normalizer standardLibrary (.ofString reply.code) = .error failure ∧
      failure.isIncomplete = false := by
  rcases accept_cases normalizer session line with
    ⟨-, same⟩ | ⟨generated, -, same⟩ | same | ⟨other, outcome, same⟩
  · cases answered.symm.trans same
    cases failed
  · cases answered.symm.trans same
    cases failed
  · cases answered.symm.trans same
    cases failed
  · cases answered.symm.trans same
    cases failed
    exact outcome

/-- The last line is accepted behind the lines before it. -/
theorem acceptAll_concat (normalizer : Normalizer) (session : Session) (earlier : List String)
    (line : String) :
    session.acceptAll normalizer (earlier ++ [line]) =
      ((session.acceptAll normalizer earlier).1 ++
          [((session.acceptAll normalizer earlier).2.accept normalizer line).1],
        ((session.acceptAll normalizer earlier).2.accept normalizer line).2) := by
  induction earlier generalizing session with
  | nil =>
      rw [List.nil_append, acceptAll, acceptAll, acceptAll, List.nil_append]
  | cons first rest inductionHypothesis =>
      rw [List.cons_append, acceptAll, inductionHypothesis, acceptAll, List.cons_append]

/-- Each line has one reply. -/
theorem length_acceptAll (normalizer : Normalizer) (session : Session) (lines : List String) :
    (session.acceptAll normalizer lines).1.length = lines.length := by
  induction lines generalizing session with
  | nil =>
      rfl
  | cons line rest inductionHypothesis =>
      rw [acceptAll, List.length_cons, inductionHypothesis, List.length_cons]

/-- A session knows the number of its next line and of the first line of its open program. -/
theorem numbered_acceptAll (normalizer : Normalizer) (given : List String) :
    (start.acceptAll normalizer given).2.Numbered given
      (settledLines (start.acceptAll normalizer given).1) := by
  induction given using List.reverseRecOn with
  | nil =>
      exact numbered_settled []
  | append_singleton given line inductionHypothesis =>
      rcases answered : (start.acceptAll normalizer given).2.accept normalizer line with
        ⟨reply, next⟩
      rw [acceptAll_concat, answered, settledLines_concat, length_acceptAll]
      exact (inductionHypothesis.accept answered).1

/-- The code of a line, line by line. -/
theorem Numbered.lines_codeWith
    (numbered : session.Numbered given settled)
    {line : String}
    (unbroken : ∀ text ∈ given ++ [line], '\n' ∉ text.toList) :
    (Source.ofString (session.codeWith line)).lines =
      List.replicate settled [] ++ ((given ++ [line]).drop settled).map Source.ofString ++
        [[]] := by
  have padding : Source.ofString (String.ofList (List.replicate settled '\n')) =
      List.replicate settled lineBreak := by
    rw [Source.ofString, String.toList_ofList, List.map_replicate]
    rfl
  have kept : (given ++ [line]).drop settled = given.drop settled ++ [line] :=
    List.drop_append_of_le_length numbered.within
  have later : ∀ text ∈ given.drop settled ++ [line], '\n' ∉ text.toList := by
    rw [← kept]
    exact fun text member => unbroken text (List.mem_of_mem_drop member)
  rw [numbered.code, Source.ofString_append, padding, Source.lines_replicate_append,
    lines_joinLines later, kept, List.append_assoc]

end Step

/-! ## Where the failure of an answer stands -/

section Places

variable {normalizer : Normalizer} {code : Source} {fault : ParseFault} {settled last : Nat}
  {others : List Source}

/--
A fault of code stands on one of its lines. If it stands behind the last line
break, it stands at the end. A token that does not fit stands on no line that is
empty because the line belongs to an earlier program.
-/
theorem exists_line_of_parseProgram
    (failed : parseProgram (normalizer.apply code) = .error fault)
    (keeps : normalizer.KeepsLines code)
    (isCode : code.lines = List.replicate settled [] ++ others ++ [[]])
    (length : code.count lineBreak = last) :
    ∃ number head tail,
      fault.position.IsOnLine (normalizer.apply code) number head tail ∧
      (∀ rune ∈ tail.head?, isBlank rune.toChar = false) ∧
      (number ≤ last ∨
        number = last + 1 ∧ fault.position = .after .start (normalizer.apply code)) ∧
      ((∃ error, fault = .grammatical error) → settled < number) := by
  -- A lexical error may stand in a settled line, a grammatical one stands at a token behind them.
  have isPlace : ∃ before behind, fault.position.IsPlaceOf (normalizer.apply code) before behind ∧
      ((∃ error, fault = .grammatical error) → settled ≤ before.count lineBreak) := by
    cases fault with
    | lexical error =>
        obtain ⟨before, behind, place⟩ := exists_place_of_parseProgram failed
        exact ⟨before, behind, place, by simp⟩
    | grammatical error =>
        obtain ⟨rest, split⟩ := keeps.exists_append
          (isCode.trans (List.append_assoc _ _ _)) (by simp)
        rw [split] at failed ⊢
        obtain ⟨before, behind, place⟩ := exists_place_of_lineBreaks settled failed
        exact ⟨_, behind, place, fun _ => by simp⟩
  obtain ⟨before, behind, place, isBehind⟩ := isPlace
  have isLine := place.isOnLine
  have split := place.split
  have counted := keeps.count_lineBreak
  rw [split, length, List.count_append] at counted
  refine ⟨_, _, _, isLine, ?_, ?_, fun grammatical => Nat.lt_succ_of_le (isBehind grammatical)⟩
  · exact fun rune isFirst => place.visible rune (Source.head?_firstLine isFirst)
  · by_cases inside : before.count lineBreak < last
    · exact .inl inside
    · have isEnd : code.lines[before.count lineBreak]? = some [] := by
        have whole := Source.length_lines code
        rw [isCode, List.length_append, List.length_singleton] at whole
        rw [isCode, List.getElem?_append_right (by omega)]
        have index : before.count lineBreak -
            (List.replicate settled [] ++ others).length = 0 := by
          omega
        rw [index]
        rfl
      -- The last line of the code is empty, and the normalizer leaves it so.
      have empty := isLine.shown
      rw [Nat.add_sub_cancel, keeps.lines_of_empty isEnd, Option.some.injEq] at empty
      have none : behind = [] :=
        Source.eq_nil_of_firstLine (List.append_eq_nil_iff.mp empty.symm).2
          (List.count_eq_zero.mp (by omega))
      refine .inr ⟨by omega, ?_⟩
      rw [place.place, split, none, List.append_nil]

end Places

/--
The lines of the code of an answer are the lines of the session.

A line that is the n-th of a session is answered about code with n line breaks.
The code has empty lines up to the first line of the open program and from there
on the lines that were given, and the program stays open unless it is complete.
So a failure stands on the line of the code that has the number of its line in the
session. There is one exception: expressions that are nested too deeply at the end
of the code, behind an open comment, fail on the line that comes next.
-/
theorem accept_numbers
    {normalizer : Normalizer}
    {earlier : List String}
    {line : String}
    {replies : List Reply}
    {session next : Session}
    {reply : Reply}
    (given : start.acceptAll normalizer earlier = (replies, session))
    (answered : session.accept normalizer line = (reply, next))
    (unbroken : ∀ text ∈ earlier ++ [line], '\n' ∉ text.toList) :
    session.lineNumber = earlier.length + 1 ∧
    reply.code.toList.count '\n' = earlier.length + 1 ∧
    settledLines replies ≤ earlier.length ∧
    (Source.ofString reply.code).lines =
      List.replicate (settledLines replies) [] ++
        ((earlier ++ [line]).drop (settledLines replies)).map Source.ofString ++ [[]] ∧
    (next.pending = "" ↔ reply.complete = true) ∧
    ∀ failure, reply.failure? = some failure →
      ∃ fault,
        parseProgram (normalizer.apply (.ofString reply.code)) = .error fault ∧
        failure = .ofParseFault (normalizer.apply (.ofString reply.code)) fault ∧
        (normalizer.KeepsLines (.ofString reply.code) →
          ∃ number head tail,
            fault.position.IsOnLine (normalizer.apply (.ofString reply.code)) number head tail ∧
            (∀ rune ∈ tail.head?, isBlank rune.toChar = false) ∧
            number ≤ earlier.length + 2 ∧
            (number = earlier.length + 2 ↔
              fault = .grammatical
                (.tooDeep (.after .start (normalizer.apply (.ofString reply.code))))) ∧
            ((∃ error, fault = .grammatical error) → settledLines replies < number)) := by
  have numbered : session.Numbered earlier (settledLines replies) := by
    have run := numbered_acceptAll normalizer earlier
    rwa [given] at run
  obtain ⟨-, isCode, closed⟩ := numbered.accept answered
  have lines := numbered.lines_codeWith unbroken
  rw [← isCode] at lines
  have count : (Source.ofString reply.code).count lineBreak = earlier.length + 1 := by
    have whole := Source.length_lines (.ofString reply.code)
    have within := numbered.within
    rw [lines] at whole
    simp only [List.length_append, List.length_replicate, List.length_map, List.length_drop,
      List.length_singleton] at whole
    omega
  refine ⟨numbered.number, ?_, numbered.within, lines, closed, fun failure isFailure => ?_⟩
  · rw [← count, Source.ofString]
    exact (List.count_map_of_injective _ _ (fun _ _ => Rune.char.inj) _).symm
  · obtain ⟨untranspiled, complete⟩ := transpile_of_accept answered isFailure
    obtain ⟨fault, unparsed, rfl⟩ := Pipeline.exists_fault_of_parse
      (Pipeline.parse_of_transpile untranspiled)
    refine ⟨fault, unparsed, rfl, fun keeps => ?_⟩
    obtain ⟨number, head, tail, onLine, visible, within, isOpen⟩ :=
      exists_line_of_parseProgram unparsed keeps lines count
    refine ⟨number, head, tail, onLine, visible, by omega, ⟨fun isNext => ?_, fun tooDeep => ?_⟩,
      isOpen⟩
    · have atEnd := (within.resolve_left (by omega)).2
      -- What ends too early is no failure of a session, so only the nesting is left.
      refine (isIncomplete_or_tooDeep_of_end unparsed atEnd).resolve_left ?_
      rw [complete]
      exact Bool.false_ne_true
    · have isLine := onLine.line
      rw [tooDeep, ParseFault.position, GrammarError.position, Position.line_start_after,
        keeps.count_lineBreak, count] at isLine
      omega

/-- A complete program, and the start of a condition. -/
def openLines : List String :=
  ["x", "si (y) ouvrir"]

/-- What a parenthesis in the third line is answered by. -/
def strayClosing : SyntaxError :=
  { message := ""
    got := ")"
    gotKind := .parenClose
    position := ⟨15, 3, 0⟩
    hint := "" }

/-- The first line is complete, and the second one is kept. -/
theorem acceptAll_openLines :
    start.acceptAll (.ofFlag true) openLines =
      ([⟨"x\n\n", true, "x\n", none⟩, ⟨"", false, "\nsi (y) ouvrir\n", none⟩],
        ⟨3, "\nsi (y) ouvrir\n"⟩) := by
  have first : start.accept none "x" = (⟨"x\n\n", true, "x\n", none⟩, ⟨2, ""⟩) := by
    cbv
  have second : (⟨2, ""⟩ : Session).accept none "si (y) ouvrir" =
      (⟨"", false, "\nsi (y) ouvrir\n", none⟩, ⟨3, "\nsi (y) ouvrir\n"⟩) := by
    cbv
  rw [openLines, acceptAll, accept_plain true (by decide), first]
  dsimp only
  rw [acceptAll, accept_plain true (by decide), second]
  rfl

/-- The third line fails where its parenthesis stands. -/
theorem accept_strayClosing :
    (⟨3, "\nsi (y) ouvrir\n"⟩ : Session).accept (.ofFlag true) ")" =
      (⟨"", true, "\nsi (y) ouvrir\n)\n",
        some (.parsing (.ofString "\nsi (y) ouvrir\n)\n") [.unfit strayClosing])⟩, ⟨4, ""⟩) := by
  rw [accept_plain true (by decide)]
  cbv

/-- The parenthesis that does not fit into the block stands on the third line. -/
theorem accept_numbers_openLines :
    ∃ replies session reply next,
      start.acceptAll (.ofFlag true) openLines = (replies, session) ∧
      session.accept (.ofFlag true) ")" = (reply, next) ∧
      (∀ text ∈ openLines ++ [")"], '\n' ∉ text.toList) ∧
      session.lineNumber = 3 ∧
      settledLines replies = 1 ∧
      reply.failure? = some
        (.parsing (.ofString "\nsi (y) ouvrir\n)\n") [.unfit strayClosing]) ∧
      reply.code.toList.count '\n' = 3 ∧
      (next.pending = "" ↔ reply.complete = true) ∧
      ∃ head tail, strayClosing.position.IsOnLine
        ((Normalizer.ofFlag true).apply (.ofString reply.code)) 3 head tail := by
  have unbroken : ∀ text ∈ openLines ++ [")"], '\n' ∉ text.toList := by
    decide
  obtain ⟨number, count, -, -, closed, stands⟩ :=
    accept_numbers acceptAll_openLines accept_strayClosing unbroken
  obtain ⟨fault, -, isFault, places⟩ := stands _ rfl
  rw [Failure.ofParseFault_eq] at isFault
  have isMistake := (List.cons.inj (Failure.parsing.inj isFault).2).1
  have points : fault.mistake.span? =
      some ⟨strayClosing.position, strayClosing.position⟩ := by
    rw [← isMistake]
    rfl
  have isPosition : strayClosing.position = fault.position :=
    congrArg Span.first (ParseFault.eq_of_span?_mistake points)
  obtain ⟨place, head, tail, onLine, -⟩ := places (Normalizer.keepsLines_plain true (by decide))
  rw [← isPosition] at onLine
  have isThird : (3 : Int) = place := onLine.line
  have same : place = 3 := by
    omega
  exact ⟨_, _, _, _, acceptAll_openLines, accept_strayClosing, unbroken, number, rfl, rfl, count,
    closed, head, tail, same ▸ onLine⟩

/-- A line of parentheses that open one expression too many, and a comment that stays open. -/
def deepLine : String :=
  String.ofList (List.replicate Grammar.depthLimit '(' ++ ['/', '*'])

/-- The mistake of the line stands behind its line break, which is a part of the comment. -/
theorem parseProgram_deepLine :
    parseProgram (.ofString (deepLine ++ "\n")) =
      .error (.grammatical (.tooDeep ⟨1027, 2, 0⟩)) := by
  have isCode : Source.ofString (deepLine ++ "\n") =
      List.replicate Grammar.depthLimit (.char '(') ++ [.char '/', .char '*', lineBreak] := by
    simp [Source.ofString, deepLine, lineBreak]
  have isComment : Lexer.pieces [.char '/', .char '*', lineBreak] =
      [.trivia [.char '/', .char '*', lineBreak]] := by
    cbv
  have isEnd : Position.start.after (List.replicate Grammar.depthLimit (.char '(') ++
      [.char '/', .char '*', lineBreak]) = ⟨1027, 2, 0⟩ := by
    decide +kernel
  rw [isCode, parseProgram_openings isComment, isEnd]

/-- A session of one line is answered by a failure on the second line. -/
theorem accept_misnumbers_deepLine :
    ∃ reply next mistake span,
      '\n' ∉ deepLine.toList ∧
      start.lineNumber = 1 ∧
      start.accept (.ofFlag true) deepLine = (reply, next) ∧
      reply.code.toList.count '\n' = 1 ∧
      (Normalizer.ofFlag true).KeepsLines (.ofString reply.code) ∧
      reply.failure? = some (.parsing (.ofString reply.code) [mistake]) ∧
      mistake.span? = some span ∧
      span.first.line = 2 := by
  have unbroken : '\n' ∉ deepLine.toList := by
    simp [deepLine, List.mem_replicate]
  have isCode : start.codeWith deepLine = deepLine ++ "\n" := by
    simp [codeWith, isContinuation, padding, start]
  have plain : isPlain (deepLine ++ "\n") = true := by
    simp only [isPlain, deepLine, String.toList_append, String.toList_ofList, List.all_append,
      List.all_replicate]
    decide
  have opens : '(' ∈ (deepLine ++ "\n").toList := by
    rw [String.toList_append, deepLine, String.toList_ofList, List.append_assoc]
    exact List.mem_append_left _ (List.mem_replicate.mpr ⟨by decide, rfl⟩)
  have visible : trimText (deepLine ++ "\n") ≠ "" := by
    intro blank
    exact absurd (isWhiteSpace_of_trimText blank '(' opens) (by decide)
  have failed : Pipeline.transpile (.ofFlag true) standardLibrary (.ofString (deepLine ++ "\n")) =
      .error (.ofParseFault (.ofString (deepLine ++ "\n"))
        (.grammatical (.tooDeep ⟨1027, 2, 0⟩))) := by
    have applied := Normalizer.apply_plain true plain
    rw [Pipeline.transpile_of_fault (applied.symm ▸ parseProgram_deepLine), applied]
  have answered : start.accept (.ofFlag true) deepLine =
      (⟨"", true, deepLine ++ "\n", some (.parsing (.ofString (deepLine ++ "\n"))
        [.tooDeep ⟨1027, 2, 0⟩])⟩, ⟨2, ""⟩) := by
    simp only [accept, isCode, if_neg visible, failed]
    rfl
  have count : (deepLine ++ "\n").toList.count '\n' = 1 := by
    rw [String.toList_append, List.count_append, List.count_eq_zero.mpr unbroken]
    rfl
  exact ⟨_, _, _, _, unbroken, rfl, answered, count, Normalizer.keepsLines_plain true plain, rfl,
    rfl, rfl⟩

end Session

end FrenchNim
