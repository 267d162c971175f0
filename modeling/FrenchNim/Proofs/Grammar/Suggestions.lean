import Mathlib
import FrenchNim.Proofs.Grammar.Continuation
import FrenchNim.Proofs.Grammar.Course
import FrenchNim.Proofs.Syntax.Tokens
import FrenchNim.Proofs.Text.EditScripts

namespace FrenchNim

/-!
# Suggested keywords

A misspelled word is near to a keyword if few edits turn it into the keyword and
they do not replace all of it. Of the near keywords of the expected kind the
first of the nearest is suggested, and one is suggested if there is any. A hint
is given only where a name stands in place of a keyword.
-/

namespace Suggestion

/-- The keyword has the expected kind, and the word is turned into it by few edits. -/
structure IsNear (expected : TokenKind) (word : String) (keyword : Keyword) (cost : Nat) :
    Prop where
  kind : keyword.kind = expected
  cheapest : EditDistance.IsCheapest word.toList keyword.word.toList cost
  within : cost ≤ 2
  /-- The keyword is not replaced as a whole. -/
  partly : cost < keyword.word.length

/-- The first of the keywords that are nearest to the word. -/
def IsFirstNearest (expected : TokenKind) (word : String) (all : List Keyword)
    (name : String) (cost : Nat) : Prop :=
  ∃ before keyword after, all = before ++ keyword :: after ∧
    keyword.word = name ∧ IsNear expected word keyword cost ∧
    (∀ other ∈ before, ∀ more, IsNear expected word other more → cost < more) ∧
    ∀ other ∈ after, ∀ more, IsNear expected word other more → cost ≤ more

/-- What is the best of the keywords that were looked at. -/
def IsBest (expected : TokenKind) (word : String) (seen : List Keyword) :
    Option (String × Nat) → Prop
  | none => ∀ keyword ∈ seen, ∀ cost, ¬ IsNear expected word keyword cost
  | some (name, cost) => IsFirstNearest expected word seen name cost

section

variable {expected : TokenKind} {word : String} {seen : List Keyword}
  {best : Option (String × Nat)}

/-- The cost of a near keyword is its distance. -/
theorem IsNear.cost_eq
    {keyword : Keyword}
    {cost : Nat}
    (near : IsNear expected word keyword cost) :
    cost = EditDistance.distance word.toList keyword.word.toList :=
  EditDistance.isCheapest_iff.mp near.cheapest

/-- A keyword that is not nearer than the best one changes nothing. -/
theorem IsBest.concat_of_far
    (isBest : IsBest expected word seen best)
    {keyword : Keyword}
    (far : ∀ cost, IsNear expected word keyword cost → ∃ found ∈ best, found.2 ≤ cost) :
    IsBest expected word (seen ++ [keyword]) best := by
  cases best with
  | none =>
      refine List.forall_mem_append.mpr ⟨isBest, List.forall_mem_singleton.mpr fun cost near => ?_⟩
      obtain ⟨found, impossible, -⟩ := far cost near
      cases impossible
  | some found =>
      obtain ⟨before, nearest, after, rfl, isName, near, first, others⟩ := isBest
      refine ⟨before, nearest, after ++ [keyword], by simp, isName, near, first, ?_⟩
      refine List.forall_mem_append.mpr ⟨others, List.forall_mem_singleton.mpr fun cost near => ?_⟩
      obtain ⟨_, isFound, less⟩ := far cost near
      cases isFound
      exact less

/-- A keyword that is nearer than the best one is the best. -/
theorem IsBest.concat_of_near
    (isBest : IsBest expected word seen best)
    {keyword : Keyword}
    {cost : Nat}
    (near : IsNear expected word keyword cost)
    (nearer : ∀ found ∈ best, cost < found.2) :
    IsBest expected word (seen ++ [keyword]) (some (keyword.word, cost)) := by
  refine ⟨seen, keyword, [], rfl, rfl, near, fun other member more isNear => ?_, by simp⟩
  cases best with
  | none => exact (isBest other member more isNear).elim
  | some found =>
      obtain ⟨before, nearest, after, rfl, -, nearestNear, first, others⟩ := isBest
      refine Nat.lt_of_lt_of_le (nearer _ rfl) ?_
      rcases List.mem_append.mp member with isBefore | behind
      · exact Nat.le_of_lt (first other isBefore more isNear)
      rcases List.mem_cons.mp behind with rfl | isAfter
      · rw [nearestNear.cost_eq, isNear.cost_eq]
      · exact others other isAfter more isNear

/-- A keyword is preferred to the best one if it is near and nearer. -/
theorem improve_eq
    (isBest : IsBest expected word seen best)
    {keyword : Keyword}
    {distance : Nat}
    (cheapest : EditDistance.IsCheapest word.toList keyword.word.toList distance) :
    improve word.toList best keyword =
      if distance ≤ 2 ∧ (∀ found ∈ best, distance < found.2) ∧ distance < keyword.word.length then
        some (keyword.word, distance)
      else
        best := by
  unfold improve maximumDistance
  rw [← EditDistance.isCheapest_iff.mp cheapest]
  cases best with
  | none => simp [Nat.lt_succ_iff]
  | some found =>
      have within : found.2 ≤ 2 := by
        obtain ⟨_, _, _, -, -, near, -⟩ := isBest
        exact near.within
      have same : distance ≤ 2 ∧ distance < found.2 ↔ distance < found.2 := by
        omega
      simp [← and_assoc, same]

/-- Looking at one more keyword of the expected kind keeps the best one. -/
theorem IsBest.improve
    (isBest : IsBest expected word seen best)
    {keyword : Keyword}
    (isKind : keyword.kind = expected) :
    IsBest expected word (seen ++ [keyword]) (improve word.toList best keyword) := by
  have cheapest := EditDistance.distance_isCheapest word.toList keyword.word.toList
  rw [improve_eq isBest cheapest]
  split
  · next nearer =>
      exact isBest.concat_of_near ⟨isKind, cheapest, nearer.1, nearer.2.2⟩ nearer.2.1
  · next notNearer =>
      refine isBest.concat_of_far fun cost near => ?_
      obtain rfl : cost = _ := near.cost_eq
      by_contra! nearer
      exact notNearer ⟨near.within, fun found isFound => nearer found isFound, near.partly⟩

/-- Looking at keywords one behind the other keeps the best one. -/
theorem IsBest.foldl
    (isBest : IsBest expected word seen best)
    (more : List Keyword) :
    IsBest expected word (seen ++ more)
      ((more.filter (·.kind = expected)).foldl (Suggestion.improve word.toList) best) := by
  induction more generalizing seen best with
  | nil => simpa using isBest
  | cons keyword more inductionHypothesis =>
      rw [List.append_cons]
      by_cases isKind : keyword.kind = expected
      · rw [List.filter_cons_of_pos (by simpa using isKind), List.foldl_cons]
        exact inductionHypothesis (isBest.improve isKind)
      · rw [List.filter_cons_of_neg (by simpa using isKind)]
        exact inductionHypothesis (isBest.concat_of_far fun _ near => (isKind near.kind).elim)

end

/-- The closest keyword is the best one of the table. -/
theorem exists_isBest (expected : TokenKind) (word : String) :
    ∃ best, IsBest expected word Keyword.table best ∧
      closestKeyword? expected word = best.map (·.1) := by
  have nothing : IsBest expected word [] none := by
    simp [IsBest]
  exact ⟨_, nothing.foldl Keyword.table, rfl⟩

theorem closestKeyword?_isSome (expected : TokenKind) (word : String) :
    (closestKeyword? expected word).isSome ↔
      ∃ keyword ∈ Keyword.table, ∃ cost, IsNear expected word keyword cost := by
  obtain ⟨best, isBest, closest⟩ := exists_isBest expected word
  rw [closest, Option.isSome_map]
  cases best with
  | none =>
      refine iff_of_false Bool.false_ne_true fun ⟨keyword, member, cost, near⟩ => ?_
      exact isBest keyword member cost near
  | some found =>
      obtain ⟨before, keyword, after, whole, -, near, -⟩ := isBest
      exact iff_of_true rfl ⟨keyword, by simp [whole], found.2, near⟩

theorem isFirstNearest_of_closestKeyword?
    {expected : TokenKind}
    {word name : String}
    (closest : closestKeyword? expected word = some name) :
    ∃ cost, IsFirstNearest expected word Keyword.table name cost := by
  obtain ⟨best, isBest, same⟩ := exists_isBest expected word
  rw [same] at closest
  obtain ⟨found, rfl, rfl⟩ := Option.map_eq_some_iff.mp closest
  exact ⟨found.2, isBest⟩

/-- A hint names the closest keyword, and is given only for a name. -/
theorem of_hint_ne
    {expected : TokenKind}
    {got : Token}
    (present : hint expected got ≠ "") :
    got.kind = .identifier ∧ ∃ name, closestKeyword? expected got.literal = some name ∧
      hint expected got = "did you mean `" ++ name ++ "`?" := by
  unfold hint at present ⊢
  split at present
  · next isName =>
      refine ⟨isName, ?_⟩
      rw [if_pos isName]
      split at present
      · next name closest => exact ⟨name, closest, rfl⟩
      · exact (present rfl).elim
  · exact (present rfl).elim

end Suggestion

/-! ## Where hints are given -/

/-- The errors that the rules of the grammar report. -/
inductive GrammarError.IsReport : GrammarError → Prop where
  | expected (expectation : Expectation) (got : Token) : IsReport (.expected expectation got)
  | unexpected (got : Token) : IsReport (.unexpected got)
  | tooDeep (position : Position) : IsReport (.tooDeep position)

/-- A hint of a report names the closest keyword of the expected kind, in place of a name. -/
theorem GrammarError.IsReport.hint
    {error : SyntaxError}
    (report : IsReport (.unfit error))
    (present : error.hint ≠ "") :
    error.gotKind = .identifier ∧ ∃ (expectation : Expectation) (name : String),
      error.message = expectation.message ∧
        Suggestion.closestKeyword? expectation.kind error.got = some name ∧
          error.hint = "did you mean `" ++ name ++ "`?" := by
  generalize whole : GrammarError.unfit error = reported at report
  cases report with
  | expected expectation got =>
      cases whole
      obtain ⟨isName, name, closest, isHint⟩ := Suggestion.of_hint_ne present
      exact ⟨isName, expectation, name, rfl, closest, isHint⟩
  | unexpected got =>
      cases whole
      exact (present rfl).elim
  | tooDeep position => cases whole

namespace Grammar

variable {final : Token} {room : Nat} {tokens : List Token} {error : GrammarError}

theorem Course.run_isReport
    {course : Course α}
    (reports : ∀ {β : Type} (inner : Rule β) (later : List Token),
      course.Calls final room inner later tokens → ∀ {failure},
        inner.read final room later = .error failure → failure.IsReport)
    (failed : course.run final room tokens = .error error) :
    error.IsReport := by
  induction course generalizing tokens with
  | done value => cases failed
  | fail expectation? =>
      cases expectation? with
      | none =>
          cases failed
          exact .unexpected _
      | some expectation =>
          cases failed
          exact .expected expectation _
  | branch test yes no yesHypothesis noHypothesis =>
      unfold run at failed
      by_cases passed : test (nextKind tokens) = true
      · rw [if_pos passed] at failed
        exact yesHypothesis (fun inner later calls =>
          reports inner later (.yes passed calls)) failed
      · rw [if_neg passed] at failed
        exact noHypothesis (fun inner later calls =>
          reports inner later (.no (eq_false_of_ne_true passed) calls)) failed
  | take next inductionHypothesis =>
      cases tokens with
      | nil =>
          cases failed
          exact .unexpected _
      | cons token behind =>
          exact inductionHypothesis token (fun inner later calls =>
            reports inner later (.take calls)) failed
  | skipBreaks next inductionHypothesis =>
      exact inductionHypothesis (fun inner later calls =>
        reports inner later (.skipBreaks calls)) failed
  | capture opening next inductionHypothesis =>
      exact inductionHypothesis _ _ (fun inner later calls =>
        reports inner later (.capture calls)) failed
  | call rule next inductionHypothesis =>
      unfold run at failed
      rcases first : rule.read final room tokens with failure | ⟨result, left⟩
      · rw [first] at failed
        cases failed
        exact reports rule tokens .here first
      · rw [first] at failed
        exact inductionHypothesis result (fun inner later calls =>
          reports inner later (.behind first calls)) failed

/-- Rules fail with reports only. -/
theorem Rule.read_isReport
    (isEnd : final.kind = .endOfInput)
    (rule : Rule α)
    (tokens : List Token) :
    ∀ {room : Nat} {error : GrammarError},
      rule.read final room tokens = .error error → error.IsReport := by
  refine callInduction (motive := fun rule tokens => ∀ {room : Nat} {error : GrammarError},
    rule.read final room tokens = .error error → error.IsReport) ?_ rule tokens
  intro _ rule tokens inductionHypothesis room error failed
  rw [read_eq_run isEnd] at failed
  split at failed
  · exact Course.run_isReport (fun inner later calls =>
      inductionHypothesis final _ inner later calls) failed
  · cases failed
    exact .tooDeep _

theorem declarations_isReport
    (isEnd : final.kind = .endOfInput)
    (known : List Declaration)
    (failed : declarations final room known tokens = .error error) :
    error.IsReport := by
  induction known, tokens using declarations_induction final room with
  | finished known =>
      rw [declarations_nil] at failed
      cases failed
  | step known token behind inductionHypothesis =>
      rw [declarations_cons] at failed
      rcases reading : Rule.declaration.read final room (token :: behind) with
        failure | ⟨next, rest⟩
      · rw [reading] at failed
        cases failed
        exact Rule.read_isReport isEnd _ _ reading
      · rw [reading] at failed
        exact inductionHypothesis next rest reading failed

/-- A token list is no program because of a report. -/
theorem programWithin_isReport
    (failed : programWithin room tokens = .error error) :
    error.IsReport := by
  unfold programWithin at failed
  cases all : declarations (finalToken tokens) room [] (skipNewlines (properTokens tokens)) with
  | error failure =>
      rw [all] at failed
      cases failed
      exact declarations_isReport (finalToken_kind tokens) [] all
  | ok found =>
      rw [all] at failed
      cases failed

/-- A token list is no expression because of a report. -/
theorem soleExpression_isReport
    (failed : soleExpression room tokens = .error error) :
    error.IsReport := by
  unfold soleExpression at failed
  cases found : expression (finalToken tokens) room (properTokens tokens) with
  | error failure =>
      have readFailed : Rule.expression.read (finalToken tokens) room (properTokens tokens) =
          .error failure := by
        rw [Rule.read, found]
        rfl
      rw [found] at failed
      cases failed
      exact Rule.read_isReport (finalToken_kind tokens) _ _ readFailed
  | ok progress =>
      rw [found] at failed
      simp only [bind, Except.bind] at failed
      split at failed
      · cases failed
      · cases failed
        exact .unexpected _

end Grammar

/--
A keyword is suggested for a word if and only if one of the expected kind is near to the word, and
it is then the first of the nearest ones in the order of the table. The parser gives a hint only
where a name stands in place of a keyword, and the hint is the keyword suggested for that name.
-/
theorem suggested_isFirstNearest :
    (∀ expected word,
      (Suggestion.closestKeyword? expected word).isSome ↔
        ∃ keyword ∈ Keyword.table, ∃ cost, Suggestion.IsNear expected word keyword cost) ∧
    (∀ expected word name,
      Suggestion.closestKeyword? expected word = some name →
        ∃ cost, Suggestion.IsFirstNearest expected word Keyword.table name cost) ∧
    ∀ (tokens : List Token) (error : SyntaxError),
      parseTokens tokens = .error (.unfit error) ∨
          Grammar.soleExpression Grammar.depthLimit tokens = .error (.unfit error) →
        error.hint ≠ "" →
          error.gotKind = .identifier ∧ ∃ (expectation : Expectation) (name : String),
            error.message = expectation.message ∧
              Suggestion.closestKeyword? expectation.kind error.got = some name ∧
                error.hint = "did you mean `" ++ name ++ "`?" := by
  refine ⟨Suggestion.closestKeyword?_isSome,
    fun _ _ _ closest => Suggestion.isFirstNearest_of_closestKeyword? closest,
    fun tokens error failed present => ?_⟩
  rcases failed with isNoProgram | isNoExpression
  · exact (Grammar.programWithin_isReport isNoProgram).hint present
  · exact (Grammar.soleExpression_isReport isNoExpression).hint present

/-- A conditional with a misspelled keyword in front of its body. -/
def misspelledOpening : List Token :=
  [.bare .ifKeyword "si", .bare .parenOpen "(", .bare .identifier "x", .bare .parenClose ")",
    .bare .identifier "ouvrr"]

/-- The opening keyword is suggested, since one edit turns the word into it. -/
theorem suggested_isFirstNearest_misspelledOpening :
    ∃ error, parseTokens misspelledOpening = .error (.unfit error) ∧
      error.hint = "did you mean `ouvrir`?" ∧ error.gotKind = .identifier ∧
        ∃ cost, Suggestion.IsFirstNearest .openKeyword "ouvrr" Keyword.table "ouvrir" cost := by
  have refused : parseTokens misspelledOpening =
      .error (.unfit ⟨"Expected 'ouvrir'", "ouvrr", .identifier, .zero,
        "did you mean `ouvrir`?"⟩) := by
    cbv
  have closest : Suggestion.closestKeyword? .openKeyword "ouvrr" = some "ouvrir" := by
    cbv
  obtain ⟨-, isFirst, isHint⟩ := suggested_isFirstNearest
  obtain ⟨isName, -⟩ := isHint _ _ (.inl refused) (by decide)
  exact ⟨_, refused, rfl, isName, isFirst _ _ _ closest⟩

end FrenchNim
