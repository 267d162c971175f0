import FrenchNim.Proofs.Finality
import FrenchNim.Proofs.Grammar.Places

namespace FrenchNim

/-!
# The ranges of a program nest

The declarations of a program stand one behind the other, and the range of the
program runs from the first to the last of them. Together with what the rules of
the grammar keep, this makes the ranges of all elements of a parsed program nest.
-/

namespace Declaration

theorem element_span (declaration : Declaration) :
    declaration.element.span = declaration.span := by
  cases declaration <;> rfl

/-- One declaration stands before another. -/
def Before (left right : Declaration) : Prop :=
  left.element.span.last.offset < right.element.span.first.offset

end Declaration

namespace Element

variable {embeds : String → Span → Prop} {low high : Int} {declarations : List Declaration}

/-- Declarations in source order that are settled between two offsets. -/
structure Ordered
    (embeds : String → Span → Prop)
    (low : Int)
    (declarations : List Declaration)
    (high : Int) : Prop where
  settled : ∀ declaration ∈ declarations, declaration.element.Settled embeds low high
  before : declarations.Pairwise Declaration.Before

/-- A further declaration is put behind the ones before it. -/
theorem Ordered.concat
    {mid : Int}
    {next : Declaration}
    (ordered : Ordered embeds low declarations mid)
    (settled : next.element.Settled embeds mid high)
    (room : low ≤ mid) :
    Ordered embeds low (declarations ++ [next]) high where
  settled := by
    intro declaration member
    rcases List.mem_append.mp member with known | isNext
    · exact (ordered.settled declaration known).mono (Int.le_refl _)
        (Int.le_of_lt settled.stands.room)
    · cases List.mem_singleton.mp isNext
      exact settled.mono room (Int.le_refl _)
  before := List.pairwise_append.mpr ⟨ordered.before, List.pairwise_singleton _ _,
    fun declaration known last isLast => by
      cases List.mem_singleton.mp isLast
      exact Int.lt_of_lt_of_le (ordered.settled declaration known).stands.below
        settled.stands.above⟩

/-- The children of a program are its declarations, in the same order. -/
theorem children_program_sublist (program : Program) :
    (Element.program program).children.Sublist (program.declarations.map (·.element)) := by
  rw [← List.filterMap_eq_map, children]
  induction program.declarations with
  | nil =>
      exact .slnil
  | cons first rest inductionHypothesis =>
      rw [List.filterMap_cons, List.filterMap_cons]
      cases first with
      | statement body =>
          cases body with
          | missing => exact inductionHypothesis.cons _
          | _ => exact inductionHypothesis.cons_cons _
      | _ => exact inductionHypothesis.cons_cons _

/-- The first declaration starts before all others. -/
theorem Ordered.first_le
    {first : Declaration}
    {rest : List Declaration}
    (ordered : Ordered embeds low (first :: rest) high) :
    ∀ declaration ∈ first :: rest,
      first.span.first.offset ≤ declaration.element.span.first.offset := by
  rw [← first.element_span]
  refine List.forall_mem_cons.mpr ⟨Int.le_refl _, fun declaration member => ?_⟩
  have forward := (ordered.settled first List.mem_cons_self).stands.ordered
  have before := (List.pairwise_cons.mp ordered.before).1 declaration member
  exact Int.le_of_lt (Int.lt_of_le_of_lt forward before)

/-- The last declaration ends behind all others. -/
theorem Ordered.le_last
    {front : List Declaration}
    {last : Declaration}
    (ordered : Ordered embeds low (front ++ [last]) high) :
    ∀ declaration ∈ front ++ [last],
      declaration.element.span.last.offset ≤ last.span.last.offset := by
  rw [← last.element_span]
  intro declaration member
  rcases List.mem_append.mp member with inFront | isLast
  · have forward := (ordered.settled last (by simp)).stands.ordered
    have before := (List.pairwise_append.mp ordered.before).2.2 declaration inFront last
      List.mem_cons_self
    exact Int.le_of_lt (Int.lt_of_lt_of_le before forward)
  · cases List.mem_singleton.mp isLast
    exact Int.le_refl _

/-- The declarations of a program stand within its range. -/
theorem Ordered.within
    {program : Program}
    (ordered : Ordered embeds low program.declarations high) :
    ∀ declaration ∈ program.declarations,
      program.span.first.offset ≤ declaration.element.span.first.offset ∧
        declaration.element.span.last.offset ≤ program.span.last.offset := by
  obtain ⟨declarations⟩ := program
  cases declarations with
  | nil =>
      exact fun declaration member => (List.not_mem_nil member).elim
  | cons first rest =>
      refine fun declaration member => ⟨ordered.first_le declaration member, ?_⟩
      have isLast : (rest.getLast?.getD first) = (first :: rest).getLast (by simp) :=
        Option.some.inj (List.getLast?_cons.symm.trans (List.getLast?_eq_some_getLast _))
      have split := List.dropLast_concat_getLast (List.cons_ne_nil first rest)
      rw [← isLast] at split
      simp only at ordered member
      rw [← split] at ordered member
      exact ordered.le_last declaration member

/-- A program whose declarations are settled is sound, and so is everything below it. -/
theorem Ordered.sound
    {program : Program}
    (ordered : Ordered embeds low program.declarations high) :
    ∀ inner ∈ (Element.program program).walk (fun _ => true), inner.Sound embeds := by
  have isDeclaration : ∀ child ∈ (Element.program program).children,
      ∃ declaration ∈ program.declarations, declaration.element = child := by
    intro child isChild
    exact List.mem_map.mp ((children_program_sublist program).subset isChild)
  intro inner member
  rcases mem_walk member with rfl | ⟨child, isChild, member⟩
  · refine ⟨⟨?_, fun child isChild => ?_, ?_⟩, trivial⟩
    · obtain ⟨declarations⟩ := program
      cases declarations with
      | nil => exact Int.le_refl _
      | cons first rest =>
          have forward := (ordered.settled first List.mem_cons_self).stands.ordered
          have within := ordered.within first List.mem_cons_self
          exact Int.le_trans within.1 (Int.le_trans forward within.2)
    · obtain ⟨declaration, known, rfl⟩ := isDeclaration child isChild
      exact ordered.within declaration known
    · refine ((List.pairwise_map.mpr ?_).sublist (children_program_sublist program))
      exact ordered.before.imp fun before => .inl before
  · obtain ⟨declaration, known, rfl⟩ := isDeclaration child isChild
    exact (ordered.settled declaration known).sound inner member

end Element

namespace Grammar

variable {all : List Token} {low : Int}

/-- The declarations of a program stand in the order of their tokens. -/
theorem declarations_ordered
    (inOrder : InOrder all)
    (final : Token)
    (room : Nat)
    (known : List Declaration)
    (tokens : List Token) :
    ∀ mid, low ≤ mid → Element.Ordered (Embeds all) low known.reverse mid →
      Ahead all mid tokens → ∀ result, declarations final room known tokens = .ok result →
        ∃ high, Element.Ordered (Embeds all) low result high := by
  induction known, tokens using declarations_induction final room with
  | finished known =>
      intro mid _ given _ result found
      rw [declarations_nil] at found
      cases found
      exact ⟨mid, given⟩
  | step known token behind inductionHypothesis =>
      intro mid wide given ahead result found
      have places : KeepsPlaces all final .declaration room (token :: behind) :=
        keepsPlaces inOrder .declaration room (token :: behind)
      have placed := places mid mid (Int.le_refl _) ahead
      rw [declarations_cons] at found
      cases reading : Rule.declaration.read final room (token :: behind) with
      | error error =>
          rw [reading] at found
          cases found
      | ok parsed =>
          obtain ⟨next, rest⟩ := parsed
          rw [reading] at found placed
          obtain ⟨high, settled, later⟩ := placed
          refine inductionHypothesis next rest reading high
            (Int.le_trans wide (Int.le_of_lt settled.stands.room)) ?_
            (later.suffix (skipNewlines_suffix rest)) result found
          rw [List.reverse_cons]
          exact given.concat settled wide

/-- Everything in a parsed program is sound, if its tokens stand one behind the other. -/
theorem programWithin_sound
    {room : Nat}
    {tokens : List Token}
    {program : Program}
    (inOrder : InOrder (properTokens tokens))
    (found : programWithin room tokens = .ok program) :
    ∀ element ∈ (Element.program program).walk (fun _ => true),
      element.Sound (Embeds (properTokens tokens)) := by
  unfold programWithin at found
  cases reading :
      declarations (finalToken tokens) room [] (skipNewlines (properTokens tokens)) with
  | error error =>
      rw [reading] at found
      cases found
  | ok result =>
      rw [reading] at found
      cases found
      obtain ⟨low, ahead⟩ := exists_ahead inOrder
      obtain ⟨high, ordered⟩ := declarations_ordered inOrder (finalToken tokens) room [] _ low
        (Int.le_refl _) ⟨by simp, .nil⟩ (ahead.suffix (skipNewlines_suffix _)) result reading
      exact ordered.sound

end Grammar

/--
In a parsed program the range of every element runs forward and holds the ranges
of its children, which do not meet each other.
-/
theorem ranges_nest
    {source : Source}
    {program : Program}
    (parsed : parseProgram source = .ok program) :
    ∀ element ∈ (Element.program program).walk (fun _ => true), element.Nests := by
  cases lexed : lex source with
  | error error =>
      rw [parseProgram_of_lex_error lexed] at parsed
      cases parsed
  | ok tokens =>
      rw [parseProgram_of_lex_ok lexed] at parsed
      cases found : parseTokens tokens with
      | error error =>
          rw [found] at parsed
          cases parsed
      | ok other =>
          rw [found] at parsed
          cases parsed
          have inOrder := (Lexer.inOrder_of_lex lexed).sublist
            (List.takeWhile_sublist _ : (Grammar.properTokens tokens).Sublist tokens)
          exact fun element member =>
            (Grammar.programWithin_sound inOrder found element member).nests

/-- A sum whose first term is the self-reference, spelled with five letters, in parentheses. -/
def selfSum : Source := .ofString "(cette).a + b"

/-- The tree of the sum, where the self-reference has the four letters of its name. -/
def selfSumTree : Program :=
  ⟨[.statement (.evaluated (.binary "+"
    (.member (.identifier ⟨selfName, ⟨1, 1, 1⟩⟩) ⟨"a", ⟨8, 1, 8⟩⟩ false)
    (.identifier ⟨"b", ⟨12, 1, 12⟩⟩)))]⟩

/-- The ranges of the sum nest, although the self-reference is written with more letters. -/
theorem ranges_nest_selfSum :
    parseProgram selfSum = .ok selfSumTree ∧
      ∀ element ∈ (Element.program selfSumTree).walk (fun _ => true), element.Nests := by
  have parsed : parseProgram selfSum = .ok selfSumTree := by
    cbv
  exact ⟨parsed, ranges_nest parsed⟩

end FrenchNim
