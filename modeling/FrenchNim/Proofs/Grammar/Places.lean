import FrenchNim.Proofs.Grammar.Seam
import FrenchNim.Proofs.Syntax.Nesting
import FrenchNim.Proofs.Token.Extents

namespace FrenchNim

/-!
# Where the grammar puts its nodes

The tokens of a source stand one behind the other, and a rule takes its tokens
from the front. So what a rule makes stands before all tokens that it leaves, and
an unfinished tree that a rule goes on with stands before all tokens it is given.
Embedded code is captured from the tokens where it stands.
-/

/-- The element of a program that a declaration is visited as. -/
def Declaration.element : Declaration → Element
  | statement body => .statement body
  | node => .declaration node

/-- The members of a class as elements. -/
def memberElements (constructor? : Option Constructor) (methods : List Method) : List Element :=
  (constructor?.map .constructor).toList ++ methods.map .method

namespace Element.Spread

variable {embeds : String → Span → Prop} {low mid high : Int}
  {constructor? : Option Constructor} {methods : List Method}

/-- A later constructor takes the place of an earlier one, wherever the methods stand. -/
theorem constructor
    {node : Constructor}
    (spread : Spread embeds low (memberElements constructor? methods.reverse) mid)
    (settled : (Element.constructor node).Settled embeds mid high) :
    Spread embeds low (memberElements (some node) methods.reverse) high := by
  have methodsOnly : Spread embeds low (methods.reverse.map .method) mid :=
    spread.sublist (List.sublist_append_right _ _)
  exact (methodsOnly.append (.single settled)).perm List.perm_append_comm

/-- A further method stands behind all members before it. -/
theorem method
    {node : Method}
    (spread : Spread embeds low (memberElements constructor? methods.reverse) mid)
    (settled : (Element.method node).Settled embeds mid high) :
    Spread embeds low (memberElements constructor? (node :: methods).reverse) high := by
  have whole := spread.append (.single settled)
  rwa [memberElements, List.append_assoc, ← List.map_singleton, ← List.map_append,
    ← List.reverse_cons] at whole

end Element.Spread

namespace Grammar

/-- Embedded code that was captured among the given tokens. -/
def Embeds (all : List Token) (code : String) (span : Span) : Prop :=
  ∃ start word opening inner,
    start :: word :: opening :: inner <:+ all ∧
    start.kind = .atSign ∧ word.kind = .nimKeyword ∧ opening.kind = .parenOpen ∧
    code = (RawCode.capture opening inner).code ∧
    span = ⟨start.span.first, (RawCode.capture opening inner).last.span.last⟩

/-- The last tokens of a list, none of which starts before an offset. -/
structure Ahead (all : List Token) (low : Int) (tokens : List Token) : Prop where
  part : tokens <:+ all
  above : ∀ token ∈ tokens, low ≤ token.span.first.offset

section Ahead

variable {all tokens rest : List Token} {token : Token} {low : Int}

/-- The last of the tokens are ahead of the same offset. -/
theorem Ahead.suffix
    (ahead : Ahead all low tokens)
    (part : rest <:+ tokens) :
    Ahead all low rest where
  part := part.trans ahead.part
  above := fun token member => ahead.above token (part.subset member)

/-- The first of the tokens stands before all others. -/
theorem Ahead.stands
    (inOrder : InOrder all)
    (ahead : Ahead all low (token :: rest)) :
    token.span.Stands low (token.span.last.offset + 1) where
  above := ahead.above token (by simp)
  ordered := (inOrder.reach token (ahead.part.subset (by simp))).forward
  below := Int.lt_succ _

/-- The tokens behind a token are ahead of it. -/
theorem ahead_of_suffix
    (inOrder : InOrder all)
    (part : token :: rest <:+ all) :
    Ahead all (token.span.last.offset + 1) rest where
  part := (List.suffix_cons token rest).trans part
  above := (List.pairwise_cons.mp (inOrder.sublist part.sublist).apart).1

/-- The other tokens are ahead of the place behind the first one. -/
theorem Ahead.behind
    (inOrder : InOrder all)
    (ahead : Ahead all low (token :: rest)) :
    Ahead all (token.span.last.offset + 1) rest :=
  ahead_of_suffix inOrder ahead.part

/-- The first token leaves room between the offset and the place behind it. -/
theorem Ahead.room
    (inOrder : InOrder all)
    (ahead : Ahead all low (token :: rest)) :
    low ≤ token.span.last.offset + 1 :=
  Int.le_of_lt (ahead.stands inOrder).room

/-- All tokens of a list are ahead of some offset. -/
theorem exists_ahead (inOrder : InOrder all) : ∃ low, Ahead all low all := by
  cases all with
  | nil =>
      exact ⟨0, List.suffix_rfl, fun token member => (List.not_mem_nil member).elim⟩
  | cons first rest =>
      refine ⟨first.span.first.offset, List.suffix_rfl,
        List.forall_mem_cons.mpr ⟨Int.le_refl _, fun token member => ?_⟩⟩
      have forward := (inOrder.reach first List.mem_cons_self).forward
      have before := (List.pairwise_cons.mp inOrder.apart).1 token member
      exact Int.le_of_lt (Int.lt_of_le_of_lt forward before)

end Ahead

namespace Rule

variable (all : List Token)

/--
What a rule has to know about what stands before its tokens: an unfinished tree
or the token that the tree starts with lies between two offsets, and the tokens
are ahead of the second one.
-/
def StandsBehind (low mid : Int) (tokens : List Token) : Rule α → Prop
  | name expectation => low ≤ mid ∧ expectation.kind = .identifier
  | className left | moreTerms left | moreComparisons left | moreLinks left =>
      (Element.expression left).Settled (Embeds all) low mid
  | moreItems known =>
      Element.Spread (Embeds all) low (Element.presentExpressions known.reverse) mid
  | statements known =>
      Element.Spread (Embeds all) low (Element.presentStatements known.reverse) mid
  | members constructor? methods =>
      Element.Spread (Embeds all) low (memberElements constructor? methods.reverse) mid
  | rawCode start =>
      start.span.Stands low mid ∧ start.kind = .atSign ∧ start :: tokens <:+ all
  | blockRest start _ | variableRest start | ifRest start | whileRest start | forRest start
  | importRest start | classRest start | typeRest start | constantRest start
  | functionRest start => start.span.Stands low mid
  | _ => low ≤ mid

/-- What holds of the result of a rule, which lies between two offsets. -/
def StandsBetween (low : Int) : Rule α → α → Int → Prop
  | expect expectation => fun token high =>
      token.kind = expectation.kind ∧ token.Reaches ∧ token.span.Stands low high
  | name _ => fun identifier high => identifier.span.Stands low high
  | moreParameters _ | parameters => fun _ high => low ≤ high
  | className _ | rawCode _ | expression | moreTerms _ | comparison | moreComparisons _ | chain
  | moreLinks _ | primary | condition => fun value high =>
      (Element.expression value).Settled (Embeds all) low high
  | items _ => fun found high => ∃ stop,
      Element.Spread (Embeds all) low (Element.presentExpressions found.1) stop ∧
        found.2.span.Stands stop high
  | moreItems _ => fun values high =>
      Element.Spread (Embeds all) low (Element.presentExpressions values) high
  | procedure => fun found high => (Element.block found.2).Settled (Embeds all) low high
  | block | loopBlock | blockRest _ _ => fun body high =>
      (Element.block body).Settled (Embeds all) low high
  | statements _ => fun nodes high =>
      Element.Spread (Embeds all) low (Element.presentStatements nodes) high
  | statement | ifRest _ | whileRest _ | forRest _ | simple | variableRest _ => fun node high =>
      (Element.statement node).Settled (Embeds all) low high
  | clause _ => fun node high =>
      Element.Spread (Embeds all) low (Element.presentStatements [node]) high
  | optionalTest => fun test high =>
      Element.Spread (Embeds all) low (Element.presentExpressions [test]) high
  | importedFrom => fun token high => token.span.Stands low high
  | members _ _ => fun found high =>
      Element.Spread (Embeds all) low (memberElements found.1 found.2) high
  | importRest _ | classRest _ | typeRest _ | constantRest _ | functionRest _
  | declaration => fun node high => node.element.Settled (Embeds all) low high

end Rule

/-- A result ends before an offset, and the tokens behind it are ahead of this offset. -/
def Within (all : List Token) (made : α → Int → Prop) : Parsed α → Prop
  | .ok (value, rest) => ∃ high, made value high ∧ Ahead all high rest
  | .error _ => True

namespace Within

variable {all : List Token} {made : α → Int → Prop} {lastMade : β → Int → Prop}

/-- Places are passed on along a sequence of rules. -/
theorem andThen
    {first : Parsed α}
    {next : α → List Token → Parsed β}
    (within : Within all made first)
    (continued : ∀ value rest, first = .ok (value, rest) → ∀ high, made value high →
      Ahead all high rest → Within all lastMade (next value rest)) :
    Within all lastMade (first.andThen next) := by
  rcases first with error | ⟨value, rest⟩
  · exact trivial
  · obtain ⟨high, known, ahead⟩ := within
    exact continued value rest rfl high known ahead

/-- A result may be replaced by one that is made from it. -/
theorem made_from
    {parsed : Parsed α}
    {change : α → β}
    (within : Within all made parsed)
    (changed : ∀ value high, made value high → lastMade (change value) high) :
    Within all lastMade (parsed.andThen fun value rest => .ok (change value, rest)) :=
  within.andThen fun value _ _ high known ahead => ⟨high, changed value high known, ahead⟩

/-- What is known of a result may be weakened. -/
theorem weaken
    {parsed : Parsed α}
    {weaker : α → Int → Prop}
    (within : Within all made parsed)
    (weakened : ∀ value high, made value high → weaker value high) :
    Within all weaker parsed := by
  rcases parsed with error | ⟨value, rest⟩
  · exact trivial
  · obtain ⟨high, known, ahead⟩ := within
    exact ⟨high, weakened value high known, ahead⟩

end Within

/-- A rule puts what it makes behind what it was given. -/
def KeepsPlaces
    (all : List Token)
    (final : Token)
    (rule : Rule α)
    (room : Nat)
    (tokens : List Token) : Prop :=
  ∀ low mid, rule.StandsBehind all low mid tokens → Ahead all mid tokens →
    Within all (rule.StandsBetween all low) (rule.read final room tokens)

section KeepsPlaces

variable {all : List Token} {final : Token} {room : Nat} {tokens : List Token}

/-- A token that is read stands between the offset and the tokens behind it. -/
theorem keepsPlaces_expect
    (inOrder : InOrder all)
    (expectation : Expectation) :
    KeepsPlaces all final (.expect expectation) room tokens := by
  intro low mid given ahead
  cases tokens with
  | nil =>
      exact trivial
  | cons token behind =>
      rw [Rule.read_expect_cons]
      split
      · next fits =>
          exact ⟨_, ⟨fits, inOrder.reach token (ahead.part.subset (by simp)),
            (ahead.stands inOrder).mono given (Int.le_refl _)⟩, ahead.behind inOrder⟩
      · exact trivial

/-- A name reaches as far as its token. -/
theorem stands_identifierOf
    {token : Token}
    {low high : Int}
    (isName : token.kind = .identifier)
    (reaches : token.Reaches)
    (stands : token.span.Stands low high) :
    (identifierOf token).span.Stands low high where
  above := stands.above
  ordered := by
    show token.span.first.offset ≤ (identifierOf token).last.offset
    rw [reaches.named isName]
    exact stands.ordered
  below := by
    show (identifierOf token).last.offset < high
    rw [reaches.named isName]
    exact stands.below

/-- A name stands where its token stands. -/
theorem keepsPlaces_name
    (inOrder : InOrder all)
    (expectation : Expectation) :
    KeepsPlaces all final (.name expectation) room tokens := by
  rintro low mid ⟨room, isName⟩ ahead
  rw [Rule.read_name]
  refine (keepsPlaces_expect inOrder expectation low mid room ahead).made_from ?_
  rintro token high ⟨fits, reaches, stands⟩
  exact stands_identifierOf (fits.trans isName) reaches stands

/-- Everything below a rule puts what it makes behind what it was given. -/
abbrev PlacesBelow
    (all : List Token)
    (final : Token)
    (rule : Rule α)
    (tokens : List Token) : Prop :=
  rule.Below (fun inner room later => KeepsPlaces all final inner room later) tokens

/-- Parameters are not elements of their own, so they only take room. -/
theorem keepsPlaces_moreParameters
    (inOrder : InOrder all)
    (known : List Identifier)
    (below : PlacesBelow all final (.moreParameters known) tokens) :
    KeepsPlaces all final (.moreParameters known) room tokens := by
  intro low mid given ahead
  rw [Rule.read_moreParameters]
  refine (keepsPlaces_name inOrder .parameterName low mid ⟨given, rfl⟩ ahead).andThen ?_
  intro parameter rest found high stands ahead
  have wide := Int.le_of_lt stands.room
  cases rest with
  | nil =>
      exact ⟨high, wide, ahead⟩
  | cons comma behind =>
      have fewer := Rule.read_shorter rfl found
      simp only
      split
      · exact below.shorter (.moreParameters (parameter :: known)) room behind
          (Nat.lt_of_succ_lt fewer) low _ (Int.le_trans wide (ahead.room inOrder))
          (ahead.behind inOrder)
      · exact ⟨high, wide, ahead⟩

/-- A parameter list only takes room. -/
theorem keepsPlaces_parameters
    (inOrder : InOrder all)
    (below : PlacesBelow all final .parameters tokens) :
    KeepsPlaces all final .parameters room tokens := by
  intro low mid given ahead
  rw [Rule.read_parameters]
  refine (keepsPlaces_expect inOrder .parenOpen low mid given ahead).andThen ?_
  intro _ inner found start opening ahead
  have opened := Int.le_of_lt opening.2.2.room
  split
  · refine (keepsPlaces_expect inOrder .parenClose low start opened ahead).made_from ?_
    intro _ _ closing
    exact Int.le_of_lt closing.2.2.room
  · refine (below.shorter (.moreParameters []) room inner (Rule.read_shorter rfl found)
      low start opened ahead).andThen ?_
    intro names behind _ stop wide ahead
    refine (keepsPlaces_expect inOrder .parenClose low stop wide ahead).made_from ?_
    intro _ _ closing
    exact Int.le_of_lt closing.2.2.room

/-- A link of the name of a class stands behind the links before it. -/
theorem keepsPlaces_className
    (inOrder : InOrder all)
    (callee : Expression)
    (below : PlacesBelow all final (.className callee) tokens) :
    KeepsPlaces all final (.className callee) room tokens := by
  intro low mid given ahead
  cases tokens with
  | nil =>
      rw [Rule.read_className_nil]
      exact ⟨mid, given, ahead⟩
  | cons dot behind =>
      rw [Rule.read_className_cons]
      split
      · refine (keepsPlaces_name inOrder .propertyName mid _ ⟨ahead.room inOrder, rfl⟩
          (ahead.behind inOrder)).andThen ?_
        intro property rest found high stands ahead
        have fewer := Rule.read_shorter rfl found
        exact below.shorter (.className (.member callee property false)) room rest
          (Nat.lt_succ_of_lt fewer) low high (given.member stands false) ahead
      · exact ⟨mid, given, ahead⟩

/-- Embedded code ends with its last token, and the tokens behind it are ahead of that token. -/
theorem ahead_collect
    (inOrder : InOrder all)
    (nesting : Nat)
    (wanted : Bool)
    (code : String)
    (last : Token)
    (tokens : List Token) :
    Ahead all (last.span.last.offset + 1) tokens →
      Ahead all ((RawCode.collect nesting wanted code last tokens).last.span.last.offset + 1)
        (RawCode.collect nesting wanted code last tokens).rest ∧
      last.span.last.offset ≤
        (RawCode.collect nesting wanted code last tokens).last.span.last.offset := by
  have next : ∀ {last token : Token} {rest : List Token},
      Ahead all (last.span.last.offset + 1) (token :: rest) →
        last.span.last.offset ≤ token.span.last.offset := by
    intro last token rest ahead
    have room := ahead.room inOrder
    omega
  fun_induction RawCode.collect nesting wanted code last tokens with
  | case1 =>
      exact fun ahead => ⟨ahead, Int.le_refl _⟩
  | case2 _ _ _ _ _ _ _ _ inductionHypothesis =>
      intro ahead
      exact (inductionHypothesis (ahead.behind inOrder)).imp_right (Int.le_trans (next ahead))
  | case3 =>
      exact fun ahead => ⟨ahead.behind inOrder, next ahead⟩
  | case4 _ _ _ _ _ _ _ _ inductionHypothesis =>
      intro ahead
      exact (inductionHypothesis (ahead.behind inOrder)).imp_right (Int.le_trans (next ahead))
  | case5 _ _ _ _ _ _ _ _ _ inductionHypothesis =>
      intro ahead
      exact (inductionHypothesis (ahead.behind inOrder)).imp_right (Int.le_trans (next ahead))

/-- Embedded code stands from its first sign to its parenthesis. -/
theorem keepsPlaces_rawCode
    (inOrder : InOrder all)
    (start : Token) :
    KeepsPlaces all final (.rawCode start) room tokens := by
  rintro low mid ⟨starts, isAt, part⟩ ahead
  rw [Rule.read_rawCode]
  refine (keepsPlaces_expect inOrder .nimWord mid mid (Int.le_refl _) ahead).andThen ?_
  intro word behind found wordEnd known aheadWord
  refine (keepsPlaces_expect inOrder .parenOpen mid wordEnd (Int.le_of_lt known.2.2.room)
    aheadWord).andThen ?_
  intro opening inner foundOpening _ opened _
  obtain ⟨rfl, isOpen⟩ := eq_cons_of_expect foundOpening
  obtain ⟨rfl, isWord⟩ := eq_cons_of_expect found
  have inside := ahead_of_suffix inOrder aheadWord.part
  obtain ⟨outside, later⟩ := ahead_collect inOrder 0 false "" opening inner inside
  have forward : start.span.first.offset ≤
      (RawCode.capture opening inner).last.span.last.offset := by
    have startEnds := Int.lt_of_le_of_lt starts.ordered starts.below
    have openingEnds := Int.le_trans opened.2.2.above opened.2.2.ordered
    show _ ≤ (RawCode.collect 0 false "" opening inner).last.span.last.offset
    omega
  refine ⟨_, .of_children ⟨starts.above, forward, Int.lt_succ _⟩
    (.nil (Int.le_trans forward (Int.le_of_lt (Int.lt_succ _)))) ?_, outside⟩
  exact ⟨start, word, opening, inner, part, isAt, isWord, isOpen, rfl, rfl⟩

/-- A sum stands where its operands stand. -/
theorem keepsPlaces_expression
    (below : PlacesBelow all final .expression tokens) :
    KeepsPlaces all final .expression room tokens := by
  intro low mid given ahead
  cases room with
  | zero =>
      rw [Rule.read_expression_zero]
      exact trivial
  | succ room =>
      rw [Rule.read_expression_succ]
      refine (below.same .comparison room (by decide) low mid given ahead).andThen ?_
      intro left behind found high settled ahead
      exact below.shorter (.moreTerms left) room behind (Rule.read_shorter rfl found)
        low high settled ahead

/-- A further term stands behind the operator. -/
theorem keepsPlaces_moreTerms
    (inOrder : InOrder all)
    (left : Expression)
    (below : PlacesBelow all final (.moreTerms left) tokens) :
    KeepsPlaces all final (.moreTerms left) room tokens := by
  intro low mid given ahead
  cases tokens with
  | nil =>
      rw [Rule.read_moreTerms_nil]
      exact ⟨mid, given, ahead⟩
  | cons operator operands =>
      rw [Rule.read_moreTerms_cons]
      split
      · refine (below.behind .comparison room mid _ (ahead.room inOrder)
          (ahead.behind inOrder)).andThen ?_
        intro right behind found high settled ahead
        have fewer := Rule.read_shorter rfl found
        exact below.shorter (.moreTerms (.binary operator.literal left right)) room behind
          (Nat.lt_succ_of_lt fewer) low high
          (.of_ends given.stands (given.pair settled) settled.stands rfl rfl trivial) ahead
      · exact ⟨mid, given, ahead⟩

/-- A row of comparisons stands where its operands stand. -/
theorem keepsPlaces_comparison
    (below : PlacesBelow all final .comparison tokens) :
    KeepsPlaces all final .comparison room tokens := by
  intro low mid given ahead
  rw [Rule.read_comparison]
  refine (below.same .chain room (by decide) low mid given ahead).andThen ?_
  intro left behind found high settled ahead
  exact below.shorter (.moreComparisons left) room behind (Rule.read_shorter rfl found)
    low high settled ahead

/-- A further comparison stands behind the operator. -/
theorem keepsPlaces_moreComparisons
    (inOrder : InOrder all)
    (left : Expression)
    (below : PlacesBelow all final (.moreComparisons left) tokens) :
    KeepsPlaces all final (.moreComparisons left) room tokens := by
  intro low mid given ahead
  cases tokens with
  | nil =>
      rw [Rule.read_moreComparisons_nil]
      exact ⟨mid, given, ahead⟩
  | cons operator operands =>
      rw [Rule.read_moreComparisons_cons]
      split
      · refine (below.behind .chain room mid _ (ahead.room inOrder)
          (ahead.behind inOrder)).andThen ?_
        intro right behind found high settled ahead
        have fewer := Rule.read_shorter rfl found
        exact below.shorter (.moreComparisons (.binary operator.literal left right)) room
          behind (Nat.lt_succ_of_lt fewer) low high
          (.of_ends given.stands (given.pair settled) settled.stands rfl rfl trivial) ahead
      · exact ⟨mid, given, ahead⟩

/-- A chain starts where its head starts. -/
theorem keepsPlaces_chain
    (below : PlacesBelow all final .chain tokens) :
    KeepsPlaces all final .chain room tokens := by
  intro low mid given ahead
  rw [Rule.read_chain]
  refine (below.same .primary room (by decide) low mid given ahead).andThen ?_
  intro head behind found high settled ahead
  exact below.shorter (.moreLinks head) room behind (Rule.read_shorter rfl found)
    low high settled ahead

/-- A link stands behind its target and ends with the sign or the name it ends with. -/
theorem keepsPlaces_moreLinks
    (inOrder : InOrder all)
    (target : Expression)
    (below : PlacesBelow all final (.moreLinks target) tokens) :
    KeepsPlaces all final (.moreLinks target) room tokens := by
  intro low mid given ahead
  cases tokens with
  | nil =>
      rw [Rule.read_moreLinks_nil]
      exact ⟨mid, given, ahead⟩
  | cons link inner =>
      rw [Rule.read_moreLinks_cons]
      have opened := ahead.room inOrder
      have inside := ahead.behind inOrder
      split
      · refine (keepsPlaces_name inOrder .propertyName mid _ ⟨opened, rfl⟩ inside).andThen ?_
        intro property behind found high stands later
        have fewer := Rule.read_shorter rfl found
        exact below.shorter (.moreLinks _) room behind (Nat.lt_succ_of_lt fewer) low high
          (given.member stands _) later
      · split
        · refine (below.behind (.items .parenClose) room mid _ opened inside).andThen ?_
          rintro arguments behind found high ⟨stop, spread, closes⟩ later
          have fewer := Rule.read_shorter rfl found
          exact below.shorter (.moreLinks _) room behind (Nat.lt_succ_of_lt fewer) low high
            (given.invocation spread closes) later
        · split
          · refine (below.behind .expression room mid _ opened inside).andThen ?_
            intro position behind found stop settled later
            refine (keepsPlaces_expect inOrder .bracketClose stop stop (Int.le_refl _)
              later).andThen ?_
            intro closing after closed high closes later
            have fewer := Rule.read_shorter rfl found
            have fewest := Rule.read_shorter rfl closed
            exact below.shorter (.moreLinks _) room after
              (Nat.lt_succ_of_lt (Nat.lt_trans fewest fewer)) low high
              (given.index settled closes.2.2) later
          · exact ⟨mid, given, ahead⟩

/-- Items stand one behind the other, before their closing sign. -/
theorem keepsPlaces_items
    (inOrder : InOrder all)
    (closing : Expectation)
    (below : PlacesBelow all final (.items closing) tokens) :
    KeepsPlaces all final (.items closing) room tokens := by
  intro low mid given ahead
  rw [Rule.read_items]
  split
  · refine (keepsPlaces_expect inOrder closing mid mid (Int.le_refl _) ahead).made_from ?_
    intro _ _ closes
    exact ⟨mid, .nil given, closes.2.2⟩
  · refine (below.same (.moreItems []) room (by simp [Rule.level]) low mid (.nil given)
      ahead).andThen ?_
    intro values behind _ stop spread ahead
    refine (keepsPlaces_expect inOrder closing stop stop (Int.le_refl _) ahead).made_from ?_
    intro _ _ closes
    exact ⟨stop, spread, closes.2.2⟩

/-- A further item stands behind the comma. -/
theorem keepsPlaces_moreItems
    (inOrder : InOrder all)
    (known : List Expression)
    (below : PlacesBelow all final (.moreItems known) tokens) :
    KeepsPlaces all final (.moreItems known) room tokens := by
  intro low mid given ahead
  rw [Rule.read_moreItems]
  refine (below.same .expression room (by simp [Rule.level]) mid mid (Int.le_refl _)
    ahead).andThen ?_
  intro value behind found high settled ahead
  have spread : Element.Spread (Embeds all) low
      (Element.presentExpressions (value :: known).reverse) high := by
    rw [List.reverse_cons, Element.presentExpressions_append]
    exact given.append settled.spread
  cases behind with
  | nil =>
      exact ⟨high, spread, ahead⟩
  | cons comma after =>
      have fewer := Rule.read_shorter rfl found
      simp only
      split
      · exact below.shorter (.moreItems (value :: known)) room after
          (Nat.lt_of_succ_lt fewer) low _
          (spread.mono (Int.le_refl _) (ahead.room inOrder)) (ahead.behind inOrder)
      · exact ⟨high, spread, ahead⟩

/-- A token that is an expression by itself stands where the expression stands. -/
theorem settled_leaf
    {token : Token}
    {leaf : Expression}
    {low high : Int}
    (reaches : token.Reaches)
    (stands : token.span.Stands low high)
    (isLeaf : leaf? token = some leaf) :
    (Element.expression leaf).Settled (Embeds all) low high := by
  unfold leaf? at isLeaf
  split at isLeaf
  · next isSelf =>
      cases isLeaf
      have short := reaches.self isSelf
      have wide := offset_last_selfName token.span.first
      refine .alone ⟨stands.above, ?_, Int.lt_of_le_of_lt short stands.below⟩ rfl trivial
      show token.span.first.offset ≤ (Identifier.mk selfName token.span.first).last.offset
      omega
  · cases isLeaf
    exact .alone stands rfl trivial
  · next isName =>
      cases isLeaf
      exact .alone (stands_identifierOf isName reaches stands) rfl trivial
  · cases isLeaf
    exact .alone stands rfl trivial
  · cases isLeaf
    exact .alone stands rfl trivial
  · cases isLeaf

/-- A primary expression starts with its first token. -/
theorem keepsPlaces_primary
    (inOrder : InOrder all)
    (below : PlacesBelow all final .primary tokens) :
    KeepsPlaces all final .primary room tokens := by
  intro low mid given ahead
  cases tokens with
  | nil =>
      rw [Rule.read_primary_nil]
      exact trivial
  | cons token behind =>
      have stands := (ahead.stands inOrder).mono given (Int.le_refl _)
      have later := ahead.behind inOrder
      have room' := Int.le_of_lt stands.room
      have reaches := inOrder.reach token (ahead.part.subset (by simp))
      cases isLeaf : leaf? token with
      | some leaf =>
          rw [Rule.read_primary_leaf final room isLeaf]
          exact ⟨_, settled_leaf reaches stands isLeaf, later⟩
      | none =>
          rw [Rule.read_primary_cons final room isLeaf]
          repeat' split
          · refine (keepsPlaces_name inOrder .className _ _ ⟨Int.le_refl _, rfl⟩
              later).andThen ?_
            intro class' after found nameEnd named ahead
            have first := Rule.read_shorter rfl found
            refine (below.shorter (.className (.identifier class')) room after
              (Nat.lt_succ_of_lt first) _ nameEnd (.alone named rfl trivial) ahead).andThen ?_
            intro callee inner found calleeEnd known ahead
            have second := Rule.read_notLonger _ found
            refine (keepsPlaces_expect inOrder .parenOpen calleeEnd calleeEnd (Int.le_refl _)
              ahead).andThen ?_
            intro _ inside found openEnd opened ahead
            have third := Rule.read_shorter rfl found
            refine (below.shorter (.items .parenClose) room inside
              (by simp only [List.length_cons]; omega) calleeEnd openEnd
              (Int.le_of_lt opened.2.2.room) ahead).made_from ?_
            rintro _ _ ⟨stop, arguments, closes⟩
            refine .delimited stands ?_ closes rfl rfl trivial
            rw [Element.children, Element.presentExpressions_cons]
            exact known.spread.append arguments
          · refine (below.behind .procedure room _ _ (Int.le_refl _) later).made_from ?_
            intro _ _ body
            exact .headed stands body.ending.spreadBlock body rfl rfl trivial
          · next isRaw =>
              exact below.behind (.rawCode token) room low _ ⟨stands, isRaw, ahead.part⟩ later
          · refine (below.behind (.items .bracketClose) room _ _ (Int.le_refl _)
              later).made_from ?_
            rintro _ _ ⟨stop, values, closes⟩
            exact .delimited stands values closes rfl rfl trivial
          · refine (below.behind .expression room low _ room' later).andThen ?_
            intro inner after _ stop known ahead
            refine (keepsPlaces_expect inOrder .parenClose stop stop (Int.le_refl _)
              ahead).made_from ?_
            intro _ _ closes
            exact known.mono (Int.le_refl _) (Int.le_of_lt closes.2.2.room)
          · exact trivial

/-- The block of a procedure stands behind its parameters. -/
theorem keepsPlaces_procedure
    (below : PlacesBelow all final .procedure tokens) :
    KeepsPlaces all final .procedure room tokens := by
  intro low mid given ahead
  rw [Rule.read_procedure]
  refine (below.same .parameters room (by decide) low mid given ahead).andThen ?_
  intro names behind found high wide ahead
  exact (below.shorter .block room behind (Rule.read_shorter rfl found) low high wide
    ahead).made_from fun _ _ body => body

/-- A block starts with the word that opens it. -/
theorem keepsPlaces_block
    (inOrder : InOrder all)
    (below : PlacesBelow all final .block tokens) :
    KeepsPlaces all final .block room tokens := by
  intro low mid given ahead
  rw [Rule.read_block]
  refine (keepsPlaces_expect inOrder .openWord low mid given ahead).andThen ?_
  intro opening inner found high opens ahead
  exact below.shorter (.blockRest opening .closeWord) room inner
    (Rule.read_shorter rfl found) low high opens.2.2 ahead

/-- The body of a loop starts with its brace or its word. -/
theorem keepsPlaces_loopBlock
    (inOrder : InOrder all)
    (below : PlacesBelow all final .loopBlock tokens) :
    KeepsPlaces all final .loopBlock room tokens := by
  intro low mid given ahead
  cases tokens with
  | nil =>
      rw [Rule.read_loopBlock_nil]
      exact trivial
  | cons opening inner =>
      have stands := (ahead.stands inOrder).mono given (Int.le_refl _)
      have inside := ahead.behind inOrder
      rw [Rule.read_loopBlock_cons]
      repeat' split
      · exact below.behind (.blockRest opening .braceClose) room low _ stands inside
      · exact below.behind (.blockRest opening .closeWord) room low _ stands inside
      · exact trivial

/-- The statements of a block stand between its two ends. -/
theorem keepsPlaces_blockRest
    (inOrder : InOrder all)
    (opening : Token)
    (closing : Expectation)
    (below : PlacesBelow all final (.blockRest opening closing) tokens) :
    KeepsPlaces all final (.blockRest opening closing) room tokens := by
  intro low mid given ahead
  rw [Rule.read_blockRest]
  refine (below.tighter (.statements []) room (skipNewlines tokens) (by simp [Rule.level])
    (length_skipNewlines_le tokens) mid mid (.nil (Int.le_refl _))
    (ahead.suffix (skipNewlines_suffix tokens))).andThen ?_
  intro body behind _ stop spread ahead
  refine (keepsPlaces_expect inOrder closing stop stop (Int.le_refl _) ahead).made_from ?_
  intro _ _ closes
  exact .delimited given spread closes.2.2 rfl rfl trivial

/-- Statements stand one behind the other. -/
theorem keepsPlaces_statements
    (known : List Statement)
    (below : PlacesBelow all final (.statements known) tokens) :
    KeepsPlaces all final (.statements known) room tokens := by
  intro low mid given ahead
  cases tokens with
  | nil =>
      rw [Rule.read_statements_nil]
      exact ⟨mid, given, ahead⟩
  | cons token behind =>
      rw [Rule.read_statements_cons]
      split
      · exact ⟨mid, given, ahead⟩
      · refine (below.same .statement room (by simp [Rule.level]) mid mid (Int.le_refl _)
          ahead).andThen ?_
        intro next after found high settled ahead
        have fewer := Rule.read_shorter rfl found
        have skipped := length_skipNewlines_le after
        refine below.shorter (.statements (next :: known)) room (skipNewlines after)
          (Nat.lt_of_le_of_lt skipped fewer) low high ?_
          (ahead.suffix (skipNewlines_suffix after))
        rw [Rule.StandsBehind, List.reverse_cons, Element.presentStatements_append]
        exact given.append settled.spreadStatement

/-- A statement starts with its keyword or with its expression. -/
theorem keepsPlaces_statement
    (inOrder : InOrder all)
    (below : PlacesBelow all final .statement tokens) :
    KeepsPlaces all final .statement room tokens := by
  intro low mid given ahead
  cases tokens with
  | nil =>
      rw [Rule.read_statement_nil]
      exact below.same .simple room (by decide) low mid given ahead
  | cons token behind =>
      have stands := (ahead.stands inOrder).mono given (Int.le_refl _)
      have later := ahead.behind inOrder
      rw [Rule.read_statement_cons]
      repeat' split
      · refine (below.behind .expression room _ _ (Int.le_refl _) later).made_from ?_
        intro _ _ value
        exact .headed stands value.ending.spread value rfl rfl trivial
      · exact below.behind (.variableRest token) room low _ stands later
      · exact below.behind (.forRest token) room low _ stands later
      · exact below.behind (.whileRest token) room low _ stands later
      · exact below.behind (.ifRest token) room low _ stands later
      · exact below.same .simple room (by decide) low mid given ahead

/-- An assigned value stands behind its target. -/
theorem keepsPlaces_simple
    (inOrder : InOrder all)
    (below : PlacesBelow all final .simple tokens) :
    KeepsPlaces all final .simple room tokens := by
  intro low mid given ahead
  rw [Rule.read_simple]
  refine (below.same .expression room (by decide) low mid given ahead).andThen ?_
  intro target behind found high settled ahead
  have evaluated : (Element.statement (.evaluated target)).Settled (Embeds all) low high :=
    .of_children settled.stands settled.starting.ending.spread trivial
  cases behind with
  | nil =>
      exact ⟨high, evaluated, ahead⟩
  | cons equal after =>
      have fewer := Rule.read_shorter rfl found
      simp only
      split
      · refine (below.shorter .expression room after (Nat.lt_of_succ_lt fewer) high _
          (ahead.room inOrder) (ahead.behind inOrder)).made_from ?_
        intro _ _ value
        exact .of_ends settled.stands (settled.pair value) value.stands rfl rfl trivial
      · exact ⟨high, evaluated, ahead⟩

/-- The value of a variable stands behind its name. -/
theorem keepsPlaces_variableRest
    (inOrder : InOrder all)
    (start : Token)
    (below : PlacesBelow all final (.variableRest start) tokens) :
    KeepsPlaces all final (.variableRest start) room tokens := by
  intro low mid given ahead
  rw [Rule.read_variableRest]
  refine (keepsPlaces_name inOrder .variableName mid mid ⟨Int.le_refl _, rfl⟩ ahead).andThen ?_
  intro identifier behind found nameEnd named ahead
  have first := Rule.read_shorter rfl found
  refine (keepsPlaces_expect inOrder .equalWord mid nameEnd (Int.le_of_lt named.room)
    ahead).andThen ?_
  intro _ after found equalEnd equal ahead
  have second := Rule.read_shorter rfl found
  refine (below.shorter .expression room after (Nat.lt_trans second first) mid equalEnd
    (Int.le_of_lt equal.2.2.room) ahead).made_from ?_
  intro _ _ value
  exact .headed given value.ending.spread value rfl rfl trivial

/-- A condition stands between its parentheses. -/
theorem keepsPlaces_condition
    (inOrder : InOrder all)
    (below : PlacesBelow all final .condition tokens) :
    KeepsPlaces all final .condition room tokens := by
  intro low mid given ahead
  rw [Rule.read_condition]
  refine (keepsPlaces_expect inOrder .parenOpen low mid given ahead).andThen ?_
  intro _ inner found start opens ahead
  refine (below.shorter .expression room inner (Rule.read_shorter rfl found) low start
    (Int.le_of_lt opens.2.2.room) ahead).andThen ?_
  intro test behind _ stop known ahead
  refine (keepsPlaces_expect inOrder .parenClose stop stop (Int.le_refl _) ahead).made_from ?_
  intro _ _ closes
  exact known.mono (Int.le_refl _) (Int.le_of_lt closes.2.2.room)

/-- The two blocks of a conditional stand behind its condition, in this order. -/
theorem keepsPlaces_ifRest
    (inOrder : InOrder all)
    (start : Token)
    (below : PlacesBelow all final (.ifRest start) tokens) :
    KeepsPlaces all final (.ifRest start) room tokens := by
  intro low mid given ahead
  rw [Rule.read_ifRest]
  refine (below.same .condition room (by simp [Rule.level]) mid mid (Int.le_refl _)
    ahead).andThen ?_
  intro test behind found testEnd known ahead
  have first := Rule.read_shorter rfl found
  refine (below.shorter .block room behind first testEnd testEnd (Int.le_refl _)
    ahead).andThen ?_
  intro consequent after found high body ahead
  have second := Rule.read_shorter rfl found
  have alone : (Element.statement
      (.conditional test consequent .missing start.span.first)).Settled (Embeds all) low high :=
    .headed given (known.spread.append body.ending.spreadBlock)
      (body.mono known.spread.room (Int.le_refl _)) rfl rfl trivial
  cases after with
  | nil =>
      exact ⟨high, alone, ahead⟩
  | cons word inner =>
      simp only
      split
      · refine (below.shorter .block room inner
          (by simp only [List.length_cons] at second; omega) high _ (ahead.room inOrder)
          (ahead.behind inOrder)).made_from ?_
        intro alternative _ branch
        have children := (known.spread.append body.spreadBlock).append
          branch.ending.spreadBlock
        rw [List.append_assoc, ← Element.presentBlocks_cons] at children
        have room := (known.spread.append body.spreadBlock).room
        cases alternative with
        | missing => exact alone.mono (Int.le_refl _) branch.spreadBlock.room
        | of statements span =>
            exact .headed given children (branch.mono room (Int.le_refl _)) rfl rfl trivial
      · exact ⟨high, alone, ahead⟩

/-- The body of a `while` loop stands behind its condition. -/
theorem keepsPlaces_whileRest
    (start : Token)
    (below : PlacesBelow all final (.whileRest start) tokens) :
    KeepsPlaces all final (.whileRest start) room tokens := by
  intro low mid given ahead
  rw [Rule.read_whileRest]
  refine (below.same .condition room (by simp [Rule.level]) mid mid (Int.le_refl _)
    ahead).andThen ?_
  intro test behind found testEnd known ahead
  refine (below.shorter .loopBlock room behind (Rule.read_shorter rfl found) testEnd testEnd
    (Int.le_refl _) ahead).made_from ?_
  intro _ _ body
  exact .headed given (known.spread.append body.ending.spreadBlock)
    (body.mono known.spread.room (Int.le_refl _)) rfl rfl trivial

/-- A clause of a `for` loop that is there stands where it is read. -/
theorem keepsPlaces_clause
    (inOrder : InOrder all)
    (closing : TokenKind)
    (below : PlacesBelow all final (.clause closing) tokens) :
    KeepsPlaces all final (.clause closing) room tokens := by
  intro low mid given ahead
  cases tokens with
  | nil =>
      rw [Rule.read_clause_nil]
      exact (below.same .simple room (by simp [Rule.level]) low mid given ahead).weaken
        fun _ _ settled => settled.spreadStatement
  | cons token behind =>
      rw [Rule.read_clause_cons]
      repeat' split
      · exact ⟨mid, .nil given, ahead⟩
      · exact (below.behind (.variableRest token) room low _
          ((ahead.stands inOrder).mono given (Int.le_refl _)) (ahead.behind inOrder)).weaken
          fun _ _ settled => settled.spreadStatement
      · exact (below.same .simple room (by simp [Rule.level]) low mid given ahead).weaken
          fun _ _ settled => settled.spreadStatement

/-- The test of a `for` loop that is there stands where it is read. -/
theorem keepsPlaces_optionalTest
    (below : PlacesBelow all final .optionalTest tokens) :
    KeepsPlaces all final .optionalTest room tokens := by
  intro low mid given ahead
  rw [Rule.read_optionalTest]
  split
  · exact ⟨mid, .nil given, ahead⟩
  · exact (below.same .expression room (by decide) low mid given ahead).weaken
      fun _ _ settled => settled.spread

/-- The clauses of a `for` loop stand in their order, and its body behind them. -/
theorem keepsPlaces_forRest
    (inOrder : InOrder all)
    (start : Token)
    (below : PlacesBelow all final (.forRest start) tokens) :
    KeepsPlaces all final (.forRest start) room tokens := by
  intro low mid given ahead
  rw [Rule.read_forRest]
  refine (keepsPlaces_expect inOrder .parenOpen mid mid (Int.le_refl _) ahead).andThen ?_
  intro _ inner found headStart opens ahead
  have opened := Rule.read_shorter rfl found
  refine (below.shorter (.clause .semicolon) room inner opened mid headStart
    (Int.le_of_lt opens.2.2.room) ahead).andThen ?_
  intro initial behindInitial found initialEnd initialSpread ahead
  have first := Rule.read_notLonger _ found
  refine (keepsPlaces_expect inOrder .semicolon initialEnd initialEnd (Int.le_refl _)
    ahead).andThen ?_
  intro _ beforeTest found testStart separated ahead
  have second := Rule.read_shorter rfl found
  refine (below.shorter .optionalTest room beforeTest (by omega) initialEnd testStart
    (Int.le_of_lt separated.2.2.room) ahead).andThen ?_
  intro test behindTest found testEnd testSpread ahead
  have third := Rule.read_notLonger _ found
  refine (keepsPlaces_expect inOrder .semicolon testEnd testEnd (Int.le_refl _) ahead).andThen ?_
  intro _ beforeIncrement found incrementStart separated ahead
  have fourth := Rule.read_shorter rfl found
  refine (below.shorter (.clause .parenClose) room beforeIncrement (by omega) testEnd
    incrementStart (Int.le_of_lt separated.2.2.room) ahead).andThen ?_
  intro increment behindIncrement found incrementEnd incrementSpread ahead
  have fifth := Rule.read_notLonger _ found
  refine (keepsPlaces_expect inOrder .parenClose incrementEnd incrementEnd (Int.le_refl _)
    ahead).andThen ?_
  intro _ beforeBody found bodyStart closes ahead
  have sixth := Rule.read_shorter rfl found
  refine (below.shorter .loopBlock room beforeBody (by omega) incrementEnd bodyStart
    (Int.le_of_lt closes.2.2.room) ahead).made_from ?_
  intro _ _ body
  have clauses := (initialSpread.append testSpread).append incrementSpread
  exact .headed given (clauses.append body.ending.spreadBlock)
    (body.mono clauses.room (Int.le_refl _)) rfl rfl trivial

/-- The path of an import stands behind its word. -/
theorem keepsPlaces_importedFrom
    (inOrder : InOrder all) :
    KeepsPlaces all final .importedFrom room tokens := by
  intro low mid given ahead
  rw [Rule.read_importedFrom]
  refine (keepsPlaces_expect inOrder .fromWord low mid given ahead).andThen ?_
  intro _ behind _ wordEnd word ahead
  exact (keepsPlaces_expect inOrder .importedPath low wordEnd (Int.le_of_lt word.2.2.room)
    ahead).weaken fun _ _ path => path.2.2

/-- An import ends with its path and holds no other element. -/
theorem keepsPlaces_importRest
    (inOrder : InOrder all)
    (start : Token) :
    KeepsPlaces all final (.importRest start) room tokens := by
  intro low mid given ahead
  rw [Rule.read_importRest]
  refine (keepsPlaces_name inOrder .moduleName mid mid ⟨Int.le_refl _, rfl⟩ ahead).andThen ?_
  intro module' behind _ nameEnd named ahead
  have first := Int.le_of_lt named.room
  split
  · refine (keepsPlaces_name inOrder .aliasName mid nameEnd ⟨first, rfl⟩
      (ahead.suffix (List.drop_suffix 1 behind))).andThen ?_
    intro newName after _ aliasEnd renamed ahead
    refine (keepsPlaces_importedFrom inOrder mid aliasEnd (Int.le_of_lt renamed.room)
      ahead).made_from ?_
    intro _ _ path
    exact .delimited given (.nil (Int.le_refl _)) path rfl rfl trivial
  · refine (keepsPlaces_importedFrom inOrder mid nameEnd first ahead).made_from ?_
    intro _ _ path
    exact .delimited given (.nil (Int.le_refl _)) path rfl rfl trivial

/-- A constructor settles with its keyword and its body. -/
theorem settled_constructor
    {names : List Identifier}
    {body : Block}
    {start : Span}
    {low mid high : Int}
    (starts : start.Stands low mid)
    (settled : (Element.block body).Settled (Embeds all) mid high) :
    (Element.constructor ⟨names, body, start.first⟩).Settled (Embeds all) low high :=
  .headed starts settled.ending.spreadBlock settled rfl rfl trivial

/-- A method settles with its name and its body. -/
theorem settled_method
    {identifier : Identifier}
    {names : List Identifier}
    {body : Block}
    {low mid high : Int}
    (named : identifier.span.Stands low mid)
    (settled : (Element.block body).Settled (Embeds all) mid high) :
    (Element.method ⟨identifier, names, body⟩).Settled (Embeds all) low high :=
  .headed named settled.ending.spreadBlock settled rfl rfl trivial

/-- A further member of a class stands behind the members before it. -/
theorem keepsPlaces_members
    (inOrder : InOrder all)
    (constructor? : Option Constructor)
    (methods : List Method)
    (below : PlacesBelow all final (.members constructor? methods) tokens) :
    KeepsPlaces all final (.members constructor? methods) room tokens := by
  intro low mid given ahead
  cases tokens with
  | nil =>
      rw [Rule.read_members_nil]
      exact ⟨mid, given, ahead⟩
  | cons token behind =>
      have stands := ahead.stands inOrder
      have later := ahead.behind inOrder
      rw [Rule.read_members_cons]
      split
      · exact ⟨mid, given, ahead⟩
      · split
        · refine (below.behind .procedure room _ _ (Int.le_refl _) later).andThen ?_
          intro parts after found high body ahead
          have fewer := Rule.read_shorter rfl found
          exact below.shorter (.members _ methods) room after (Nat.lt_succ_of_lt fewer) low
            high (given.constructor (settled_constructor stands body)) ahead
        · split
          · next isMethod =>
              refine (below.behind .procedure room _ _ (Int.le_refl _) later).andThen ?_
              intro parts after found high body ahead'
              have fewer := Rule.read_shorter rfl found
              have reaches := inOrder.reach token (ahead.part.subset (by simp))
              have named := stands_identifierOf isMethod reaches stands
              exact below.shorter (.members constructor? (_ :: methods)) room after
                (Nat.lt_succ_of_lt fewer) low high
                (given.method (settled_method named body)) ahead'
          · exact below.behind (.members constructor? methods) room low _
              (given.mono (Int.le_refl _) (ahead.room inOrder)) later

/-- The members of a class stand between its two words. -/
theorem keepsPlaces_classRest
    (inOrder : InOrder all)
    (start : Token)
    (below : PlacesBelow all final (.classRest start) tokens) :
    KeepsPlaces all final (.classRest start) room tokens := by
  intro low mid given ahead
  rw [Rule.read_classRest]
  refine (keepsPlaces_name inOrder .className mid mid ⟨Int.le_refl _, rfl⟩ ahead).andThen ?_
  intro class' behind found nameEnd named ahead
  have first := Rule.read_shorter rfl found
  refine (keepsPlaces_expect inOrder .openWord mid nameEnd (Int.le_of_lt named.room)
    ahead).andThen ?_
  intro _ inner found openEnd opens ahead
  have second := Rule.read_shorter rfl found
  refine (below.shorter (.members none []) room inner (Nat.lt_trans second first) mid openEnd
    (.nil (Int.le_of_lt opens.2.2.room)) ahead).andThen ?_
  intro _ after _ stop members ahead
  refine (keepsPlaces_expect inOrder .closeWord stop stop (Int.le_refl _) ahead).made_from ?_
  intro _ _ closes
  exact .delimited given members closes.2.2 rfl rfl trivial

/-- A type ends with its last word. -/
theorem keepsPlaces_typeRest
    (inOrder : InOrder all)
    (start : Token) :
    KeepsPlaces all final (.typeRest start) room tokens := by
  intro low mid given ahead
  rw [Rule.read_typeRest]
  refine (keepsPlaces_name inOrder .typeName mid mid ⟨Int.le_refl _, rfl⟩ ahead).andThen ?_
  intro type' behind _ nameEnd named ahead
  refine (keepsPlaces_expect inOrder .equalWord mid nameEnd (Int.le_of_lt named.room)
    ahead).andThen ?_
  intro equal after _ high ends ahead
  have short : (Declaration.typeName type' false ⟨start.span.first, equal.span.last⟩).element.Settled
      (Embeds all) low high :=
    .delimited given (.nil (Int.le_refl _)) ends.2.2 rfl rfl trivial
  cases after with
  | nil =>
      exact ⟨high, short, ahead⟩
  | cons word rest =>
      simp only [externalWord]
      split
      · have wide := Int.le_of_lt ends.2.2.room
        exact ⟨_, .delimited given (.nil (Int.le_refl _))
          ((ahead.stands inOrder).mono wide (Int.le_refl _)) rfl rfl trivial, ahead.behind inOrder⟩
      · exact ⟨high, short, ahead⟩

/-- The value of a constant stands behind its name. -/
theorem keepsPlaces_constantRest
    (inOrder : InOrder all)
    (start : Token)
    (below : PlacesBelow all final (.constantRest start) tokens) :
    KeepsPlaces all final (.constantRest start) room tokens := by
  intro low mid given ahead
  rw [Rule.read_constantRest]
  refine (keepsPlaces_name inOrder .constantName mid mid ⟨Int.le_refl _, rfl⟩ ahead).andThen ?_
  intro identifier behind found nameEnd named ahead
  have first := Rule.read_shorter rfl found
  refine (keepsPlaces_expect inOrder .equalWord mid nameEnd (Int.le_of_lt named.room)
    ahead).andThen ?_
  intro _ after found equalEnd equal ahead
  have second := Rule.read_shorter rfl found
  refine (below.shorter .expression room after (Nat.lt_trans second first) mid equalEnd
    (Int.le_of_lt equal.2.2.room) ahead).made_from ?_
  intro _ _ value
  exact .headed given value.ending.spread value rfl rfl trivial

/-- The block of a function stands behind its name. -/
theorem keepsPlaces_functionRest
    (inOrder : InOrder all)
    (start : Token)
    (below : PlacesBelow all final (.functionRest start) tokens) :
    KeepsPlaces all final (.functionRest start) room tokens := by
  intro low mid given ahead
  rw [Rule.read_functionRest]
  refine (keepsPlaces_name inOrder .functionName mid mid ⟨Int.le_refl _, rfl⟩ ahead).andThen ?_
  intro identifier behind found nameEnd named ahead
  refine (below.shorter .procedure room behind (Rule.read_shorter rfl found) mid nameEnd
    (Int.le_of_lt named.room) ahead).made_from ?_
  intro _ _ body
  exact .headed given body.ending.spreadBlock body rfl rfl trivial

/-- A declaration starts with its keyword or with its statement. -/
theorem keepsPlaces_declaration
    (inOrder : InOrder all)
    (below : PlacesBelow all final .declaration tokens) :
    KeepsPlaces all final .declaration room tokens := by
  intro low mid given ahead
  cases tokens with
  | nil =>
      rw [Rule.read_declaration_nil]
      exact (below.same .simple room (by decide) low mid given ahead).made_from
        fun _ _ settled => settled
  | cons token behind =>
      have stands := (ahead.stands inOrder).mono given (Int.le_refl _)
      have later := ahead.behind inOrder
      rw [Rule.read_declaration_cons]
      repeat' split
      · exact below.behind (.importRest token) room low _ stands later
      · exact below.behind (.classRest token) room low _ stands later
      · exact below.behind (.typeRest token) room low _ stands later
      · exact below.behind (.constantRest token) room low _ stands later
      · exact below.behind (.functionRest token) room low _ stands later
      · exact (below.same .simple room (by decide) low mid given ahead).made_from
          fun _ _ settled => settled
      · exact (below.same .statement room (by decide) low mid given ahead).made_from
          fun _ _ settled => settled

/-- Every rule puts what it makes behind what it was given. -/
theorem keepsPlaces
    (inOrder : InOrder all)
    (rule : Rule α)
    (room : Nat)
    (tokens : List Token) :
    KeepsPlaces all final rule room tokens := by
  refine Rule.induction (motive := fun inner room later =>
    KeepsPlaces all final inner room later) ?_ rule room tokens
  intro _ rule room tokens below
  cases rule with
  | expect expectation => exact keepsPlaces_expect inOrder expectation
  | name expectation => exact keepsPlaces_name inOrder expectation
  | moreParameters known => exact keepsPlaces_moreParameters inOrder known below
  | parameters => exact keepsPlaces_parameters inOrder below
  | className callee => exact keepsPlaces_className inOrder callee below
  | rawCode start => exact keepsPlaces_rawCode inOrder start
  | expression => exact keepsPlaces_expression below
  | moreTerms left => exact keepsPlaces_moreTerms inOrder left below
  | comparison => exact keepsPlaces_comparison below
  | moreComparisons left => exact keepsPlaces_moreComparisons inOrder left below
  | chain => exact keepsPlaces_chain below
  | moreLinks target => exact keepsPlaces_moreLinks inOrder target below
  | items closing => exact keepsPlaces_items inOrder closing below
  | moreItems known => exact keepsPlaces_moreItems inOrder known below
  | primary => exact keepsPlaces_primary inOrder below
  | procedure => exact keepsPlaces_procedure below
  | block => exact keepsPlaces_block inOrder below
  | loopBlock => exact keepsPlaces_loopBlock inOrder below
  | blockRest opening closing => exact keepsPlaces_blockRest inOrder opening closing below
  | statements known => exact keepsPlaces_statements known below
  | statement => exact keepsPlaces_statement inOrder below
  | simple => exact keepsPlaces_simple inOrder below
  | variableRest start => exact keepsPlaces_variableRest inOrder start below
  | condition => exact keepsPlaces_condition inOrder below
  | ifRest start => exact keepsPlaces_ifRest inOrder start below
  | whileRest start => exact keepsPlaces_whileRest start below
  | clause closing => exact keepsPlaces_clause inOrder closing below
  | optionalTest => exact keepsPlaces_optionalTest below
  | forRest start => exact keepsPlaces_forRest inOrder start below
  | importedFrom => exact keepsPlaces_importedFrom inOrder
  | importRest start => exact keepsPlaces_importRest inOrder start
  | members constructor? methods => exact keepsPlaces_members inOrder constructor? methods below
  | classRest start => exact keepsPlaces_classRest inOrder start below
  | typeRest start => exact keepsPlaces_typeRest inOrder start
  | constantRest start => exact keepsPlaces_constantRest inOrder start below
  | functionRest start => exact keepsPlaces_functionRest inOrder start below
  | declaration => exact keepsPlaces_declaration inOrder below

end KeepsPlaces

end Grammar

end FrenchNim
