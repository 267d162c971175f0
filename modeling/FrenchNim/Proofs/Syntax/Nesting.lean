import FrenchNim.Syntax.Element

namespace FrenchNim

/-!
# Nested ranges

The range of an element holds the ranges of its children, and these do not meet.
What is proved here is how the range of each kind of node follows from the ranges
of its parts. The bounds of a part are two offsets: nothing of it stands before
the first one, and nothing at or behind the second one.
-/

/-- A range that runs forward, from the first offset on and before the second one. -/
structure Span.Stands (low : Int) (span : Span) (high : Int) : Prop where
  above : low ≤ span.first.offset
  ordered : span.first.offset ≤ span.last.offset
  below : span.last.offset < high

/-- A range stands between all places that lie further apart. -/
theorem Span.Stands.mono
    {low high wideLow wideHigh : Int}
    {span : Span}
    (stands : span.Stands low high)
    (lower : wideLow ≤ low)
    (higher : high ≤ wideHigh) :
    span.Stands wideLow wideHigh where
  above := Int.le_trans lower stands.above
  ordered := stands.ordered
  below := Int.lt_of_lt_of_le stands.below higher

/-- A range needs room. -/
theorem Span.Stands.room
    {low high : Int}
    {span : Span}
    (stands : span.Stands low high) :
    low < high :=
  Int.lt_of_le_of_lt (Int.le_trans stands.above stands.ordered) stands.below

namespace Element

/-- The ranges of two elements do not meet. -/
def Apart (left right : Element) : Prop :=
  left.span.last.offset < right.span.first.offset ∨
    right.span.last.offset < left.span.first.offset

/-- The range of an element runs forward, and holds the ranges of its children one by one. -/
structure Nests (element : Element) : Prop where
  ordered : element.span.first.offset ≤ element.span.last.offset
  within : ∀ child ∈ element.children,
    element.span.first.offset ≤ child.span.first.offset ∧
      child.span.last.offset ≤ element.span.last.offset
  apart : element.children.Pairwise Apart

/-- Embedded code has a property. Nothing is asked of other elements. -/
def Embedded (embeds : String → Span → Prop) : Element → Prop
  | expression (.rawCode code span) => embeds code span
  | _ => True

/-- An element that nests, and whose text was embedded if it is embedded code. -/
structure Sound (embeds : String → Span → Prop) (element : Element) : Prop where
  nests : element.Nests
  embedded : element.Embedded embeds

/-- An element between two offsets that is sound, and so is everything below it. -/
structure Settled
    (embeds : String → Span → Prop)
    (low : Int)
    (element : Element)
    (high : Int) : Prop where
  stands : element.span.Stands low high
  sound : ∀ inner ∈ element.walk (fun _ => true), inner.Sound embeds

/-- Elements between two offsets that are settled and whose ranges do not meet. -/
structure Spread
    (embeds : String → Span → Prop)
    (low : Int)
    (elements : List Element)
    (high : Int) : Prop where
  room : low ≤ high
  settled : ∀ element ∈ elements, element.Settled embeds low high
  apart : elements.Pairwise Apart

variable {embeds : String → Span → Prop} {low mid high : Int}

/-! ## Walking -/

/-- What the walk of several expressions visits is visited below one that is there. -/
theorem exists_of_mem_walkAll
    {values : List Expression}
    {inner : Element}
    (member : inner ∈ Expression.walkAll (fun _ => true) values) :
    ∃ child ∈ presentExpressions values, inner ∈ child.walk fun _ => true := by
  induction values with
  | nil =>
      cases member
  | cons first rest inductionHypothesis =>
      rw [Expression.walkAll] at member
      rcases List.mem_append.mp member with inFirst | inRest
      · cases first with
        | missing => cases inFirst
        | _ => exact ⟨_, List.mem_cons_self, inFirst⟩
      · obtain ⟨child, isChild, below⟩ := inductionHypothesis inRest
        refine ⟨child, ?_, below⟩
        exact ((List.sublist_cons_self first rest).filterMap _).subset isChild

/-- What the walk of several statements visits is visited below one that is there. -/
theorem exists_of_mem_walkStatements
    {nodes : List Statement}
    {inner : Element}
    (member : inner ∈ Statement.walkAll (fun _ => true) nodes) :
    ∃ child ∈ presentStatements nodes, inner ∈ child.walk fun _ => true := by
  induction nodes with
  | nil =>
      cases member
  | cons first rest inductionHypothesis =>
      rw [Statement.walkAll] at member
      rcases List.mem_append.mp member with inFirst | inRest
      · cases first with
        | missing => cases inFirst
        | _ => exact ⟨_, List.mem_cons_self, inFirst⟩
      · obtain ⟨child, isChild, below⟩ := inductionHypothesis inRest
        refine ⟨child, ?_, below⟩
        exact ((List.sublist_cons_self first rest).filterMap _).subset isChild

theorem exists_of_mem_walkExpression
    {value : Expression}
    {inner : Element}
    (member : inner ∈ value.walk fun _ => true) :
    ∃ child ∈ presentExpressions [value], inner ∈ child.walk fun _ => true :=
  exists_of_mem_walkAll (by simpa [Expression.walkAll] using member)

theorem exists_of_mem_walkStatement
    {node : Statement}
    {inner : Element}
    (member : inner ∈ node.walk fun _ => true) :
    ∃ child ∈ presentStatements [node], inner ∈ child.walk fun _ => true :=
  exists_of_mem_walkStatements (by simpa [Statement.walkAll] using member)

theorem exists_of_mem_walkBlock
    {block : Block}
    {inner : Element}
    (member : inner ∈ block.walk fun _ => true) :
    ∃ child ∈ presentBlocks [block], inner ∈ child.walk fun _ => true := by
  cases block with
  | missing => cases member
  | of statements span => exact ⟨_, List.mem_cons_self, member⟩

/-- The expressions that are there in two lists in a row. -/
theorem presentExpressions_append (left right : List Expression) :
    presentExpressions (left ++ right) = presentExpressions left ++ presentExpressions right :=
  List.filterMap_append

/-- The first of several expressions is looked at apart from the others. -/
theorem presentExpressions_cons (first : Expression) (rest : List Expression) :
    presentExpressions (first :: rest) =
      presentExpressions [first] ++ presentExpressions rest :=
  presentExpressions_append [first] rest

/-- The statements that are there in two lists in a row. -/
theorem presentStatements_append (left right : List Statement) :
    presentStatements (left ++ right) = presentStatements left ++ presentStatements right :=
  List.filterMap_append

/-- The first of several blocks is looked at apart from the others. -/
theorem presentBlocks_cons (first : Block) (rest : List Block) :
    presentBlocks (first :: rest) = presentBlocks [first] ++ presentBlocks rest :=
  List.filterMap_append (l := [first])

/-- What a walk visits below one of two lists of elements stands below both in a row. -/
theorem exists_of_mem_append
    {inner : Element}
    {first second left right : List Element}
    (inLeft : inner ∈ first → ∃ child ∈ left, inner ∈ child.walk fun _ => true)
    (inRight : inner ∈ second → ∃ child ∈ right, inner ∈ child.walk fun _ => true)
    (member : inner ∈ first ++ second) :
    ∃ child ∈ left ++ right, inner ∈ child.walk fun _ => true := by
  rcases List.mem_append.mp member with inFirst | inSecond
  · obtain ⟨child, isChild, below⟩ := inLeft inFirst
    exact ⟨child, List.mem_append_left _ isChild, below⟩
  · obtain ⟨child, isChild, below⟩ := inRight inSecond
    exact ⟨child, List.mem_append_right _ isChild, below⟩

/-- The walk of an expression visits it and what is below its children. -/
theorem mem_walk_expression
    {value : Expression}
    {inner : Element}
    (member : inner ∈ value.walk fun _ => true) :
    inner = .expression value ∨
      ∃ child ∈ (expression value).children, inner ∈ child.walk fun _ => true := by
  cases value with
  | missing => cases member
  | array values span => exact (List.mem_cons.mp member).imp_right exists_of_mem_walkAll
  | invocation callee arguments last =>
      refine (List.mem_cons.mp member).imp_right fun below => ?_
      rw [children, presentExpressions_cons]
      exact exists_of_mem_append exists_of_mem_walkExpression exists_of_mem_walkAll below
  | member target name arrow =>
      exact (List.mem_cons.mp member).imp_right exists_of_mem_walkExpression
  | index target position last =>
      refine (List.mem_cons.mp member).imp_right fun below => ?_
      rw [children, presentExpressions_cons]
      exact exists_of_mem_append exists_of_mem_walkExpression exists_of_mem_walkExpression below
  | binary operator left right =>
      refine (List.mem_cons.mp member).imp_right fun below => ?_
      rw [children, presentExpressions_cons]
      exact exists_of_mem_append exists_of_mem_walkExpression exists_of_mem_walkExpression below
  | closure parameters body first =>
      exact (List.mem_cons.mp member).imp_right exists_of_mem_walkBlock
  | construction callee arguments span =>
      refine (List.mem_cons.mp member).imp_right fun below => ?_
      rw [children, presentExpressions_cons]
      exact exists_of_mem_append exists_of_mem_walkExpression exists_of_mem_walkAll below
  | bool | number | string | identifier | rawCode | unknown =>
      exact .inl (List.mem_singleton.mp member)

/-- The walk of a statement visits it and what is below its children. -/
theorem mem_walk_statement
    {node : Statement}
    {inner : Element}
    (member : inner ∈ node.walk fun _ => true) :
    inner = .statement node ∨
      ∃ child ∈ (statement node).children, inner ∈ child.walk fun _ => true := by
  cases node with
  | missing => cases member
  | returned value first =>
      exact (List.mem_cons.mp member).imp_right exists_of_mem_walkExpression
  | declared name value first =>
      exact (List.mem_cons.mp member).imp_right exists_of_mem_walkExpression
  | assigned target value =>
      refine (List.mem_cons.mp member).imp_right fun below => ?_
      rw [children, presentExpressions_cons]
      exact exists_of_mem_append exists_of_mem_walkExpression exists_of_mem_walkExpression below
  | evaluated value =>
      exact (List.mem_cons.mp member).imp_right exists_of_mem_walkExpression
  | conditional test consequent alternative first =>
      refine (List.mem_cons.mp member).imp_right fun below => ?_
      rw [children, presentBlocks_cons, ← List.append_assoc]
      exact exists_of_mem_append
        (exists_of_mem_append exists_of_mem_walkExpression exists_of_mem_walkBlock)
        exists_of_mem_walkBlock below
  | whileLoop test body first =>
      refine (List.mem_cons.mp member).imp_right fun below => ?_
      exact exists_of_mem_append exists_of_mem_walkExpression exists_of_mem_walkBlock below
  | forLoop initial test increment body first =>
      refine (List.mem_cons.mp member).imp_right fun below => ?_
      exact exists_of_mem_append
        (exists_of_mem_append
          (exists_of_mem_append exists_of_mem_walkStatement exists_of_mem_walkExpression)
          exists_of_mem_walkStatement)
        exists_of_mem_walkBlock below
  | unknown => exact .inl (List.mem_singleton.mp member)

/-- What a walk visits is the element itself or stands below one of its children. -/
theorem mem_walk
    {element inner : Element}
    (member : inner ∈ element.walk fun _ => true) :
    inner = element ∨ ∃ child ∈ element.children, inner ∈ child.walk fun _ => true := by
  cases element with
  | program node =>
      refine (List.mem_cons.mp member).imp_right fun below => ?_
      obtain ⟨declaration, isDeclaration, below⟩ := List.mem_flatMap.mp below
      cases declaration with
      | statement body =>
          cases body with
          | missing => cases below
          | _ => exact ⟨_, List.mem_filterMap.mpr ⟨_, isDeclaration, rfl⟩, below⟩
      | _ => exact ⟨_, List.mem_filterMap.mpr ⟨_, isDeclaration, rfl⟩, below⟩
  | declaration node =>
      cases node with
      | classType name constructor? methods span =>
          refine (List.mem_cons.mp member).imp_right fun below => ?_
          rcases List.mem_append.mp below with inConstructor | inMethods
          · cases constructor? with
            | none => cases inConstructor
            | some node => exact ⟨.constructor node, List.mem_cons_self, inConstructor⟩
          · obtain ⟨method, isMethod, below⟩ := List.mem_flatMap.mp inMethods
            exact ⟨.method method,
              List.mem_append_right _ (List.mem_map_of_mem isMethod), below⟩
      | function name parameters body first =>
          exact (List.mem_cons.mp member).imp_right exists_of_mem_walkBlock
      | constant name value first =>
          exact (List.mem_cons.mp member).imp_right exists_of_mem_walkExpression
      | statement body => exact .inr (exists_of_mem_walkStatement member)
      | imported | typeName => exact .inl (List.mem_singleton.mp member)
  | constructor node =>
      exact (List.mem_cons.mp member).imp_right exists_of_mem_walkBlock
  | method node =>
      exact (List.mem_cons.mp member).imp_right exists_of_mem_walkBlock
  | block node =>
      cases node with
      | missing => cases member
      | of statements span =>
          exact (List.mem_cons.mp member).imp_right exists_of_mem_walkStatements
  | statement node => exact mem_walk_statement member
  | expression node => exact mem_walk_expression member

/-! ## Elements in a row -/

/-- An element is settled between all places that lie further apart. -/
theorem Settled.mono
    {element : Element}
    {wideLow wideHigh : Int}
    (settled : element.Settled embeds low high)
    (lower : wideLow ≤ low)
    (higher : high ≤ wideHigh) :
    element.Settled embeds wideLow wideHigh where
  stands := settled.stands.mono lower higher
  sound := settled.sound

/-- A settled element starts where it starts. -/
theorem Settled.starting
    {element : Element}
    (settled : element.Settled embeds low high) :
    element.Settled embeds element.span.first.offset high where
  stands := ⟨Int.le_refl _, settled.stands.ordered, settled.stands.below⟩
  sound := settled.sound

/-- A settled element ends where it ends. -/
theorem Settled.ending
    {element : Element}
    (settled : element.Settled embeds low high) :
    element.Settled embeds low (element.span.last.offset + 1) where
  stands := ⟨settled.stands.above, settled.stands.ordered, Int.lt_succ _⟩
  sound := settled.sound

/-- No elements are spread wherever there is room. -/
theorem Spread.nil (room : low ≤ high) : Spread embeds low [] high :=
  ⟨room, fun _ member => (List.not_mem_nil member).elim, .nil⟩

/-- A settled element is spread alone. -/
theorem Spread.single
    {element : Element}
    (settled : element.Settled embeds low high) :
    Spread embeds low [element] high where
  room := Int.le_of_lt settled.stands.room
  settled := fun _ member => List.mem_singleton.mp member ▸ settled
  apart := List.pairwise_singleton _ _

/-- Elements are spread between all places that lie further apart. -/
theorem Spread.mono
    {elements : List Element}
    {wideLow wideHigh : Int}
    (spread : Spread embeds low elements high)
    (lower : wideLow ≤ low)
    (higher : high ≤ wideHigh) :
    Spread embeds wideLow elements wideHigh where
  room := Int.le_trans lower (Int.le_trans spread.room higher)
  settled := fun element member => (spread.settled element member).mono lower higher
  apart := spread.apart

/-- Rows of elements may be put behind each other. -/
theorem Spread.append
    {left right : List Element}
    (first : Spread embeds low left mid)
    (second : Spread embeds mid right high) :
    Spread embeds low (left ++ right) high where
  room := Int.le_trans first.room second.room
  settled := fun element member => (List.mem_append.mp member).elim
    (fun inLeft => (first.settled element inLeft).mono (Int.le_refl _) second.room)
    (fun inRight => (second.settled element inRight).mono first.room (Int.le_refl _))
  apart := List.pairwise_append.mpr ⟨first.apart, second.apart, fun before inLeft behind inRight =>
    .inl (Int.lt_of_lt_of_le (first.settled before inLeft).stands.below
      (second.settled behind inRight).stands.above)⟩

/-- Some of the elements are spread if all of them are. -/
theorem Spread.sublist
    {elements part : List Element}
    (spread : Spread embeds low elements high)
    (isPart : part.Sublist elements) :
    Spread embeds low part high where
  room := spread.room
  settled := fun element member => spread.settled element (isPart.subset member)
  apart := spread.apart.sublist isPart

/-- Of two elements that are apart, either may be named first. -/
theorem Apart.symm
    {left right : Element}
    (apart : left.Apart right) :
    right.Apart left :=
  Or.symm apart

/-- Rows of elements may be told in another order. -/
theorem Spread.perm
    {elements others : List Element}
    (spread : Spread embeds low elements high)
    (same : elements.Perm others) :
    Spread embeds low others high where
  room := spread.room
  settled := fun element member => spread.settled element (same.mem_iff.mpr member)
  apart := (same.pairwise_iff Apart.symm).mp spread.apart

/-- A settled expression is a row, also if it is told as a list of one expression. -/
theorem Settled.spread
    {value : Expression}
    (settled : (expression value).Settled embeds low high) :
    Spread embeds low (presentExpressions [value]) high := by
  cases value with
  | missing => exact .nil (Spread.single settled).room
  | _ => exact .single settled

/-- A settled statement is spread alone. -/
theorem Settled.spreadStatement
    {node : Statement}
    (settled : (statement node).Settled embeds low high) :
    Spread embeds low (presentStatements [node]) high := by
  cases node with
  | missing => exact .nil (Spread.single settled).room
  | _ => exact .single settled

/-- A settled block is spread alone. -/
theorem Settled.spreadBlock
    {body : Block}
    (settled : (block body).Settled embeds low high) :
    Spread embeds low (presentBlocks [body]) high := by
  cases body with
  | missing => exact .nil (Spread.single settled).room
  | _ => exact .single settled

/-- Two expressions, the second one behind the first, are a row from end to end. -/
theorem Settled.pair
    {left right : Expression}
    (first : (expression left).Settled embeds low mid)
    (second : (expression right).Settled embeds mid high) :
    Spread embeds (expression left).span.first.offset (presentExpressions [left, right])
      ((expression right).span.last.offset + 1) := by
  rw [presentExpressions_cons]
  exact first.starting.spread.append second.ending.spread

/-- An element settles between two offsets if its children are a row within its range. -/
theorem Settled.of_children
    {element : Element}
    (stands : element.span.Stands low high)
    (children : Spread embeds element.span.first.offset element.children
      (element.span.last.offset + 1))
    (embedded : element.Embedded embeds) :
    element.Settled embeds low high := by
  refine ⟨stands, fun inner member => ?_⟩
  rcases mem_walk member with rfl | ⟨child, isChild, member⟩
  · refine ⟨⟨stands.ordered, fun child isChild => ?_, children.apart⟩, embedded⟩
    obtain ⟨behind, -, before⟩ := (children.settled child isChild).stands
    exact ⟨behind, Int.le_of_lt_add_one before⟩
  · exact (children.settled child isChild).sound inner member

/-- An element without children settles where it stands. -/
theorem Settled.alone
    {element : Element}
    (stands : element.span.Stands low high)
    (leaf : element.children = [])
    (embedded : element.Embedded embeds) :
    element.Settled embeds low high := by
  refine .of_children stands ?_ embedded
  rw [leaf]
  exact .nil (Int.le_trans stands.ordered (Int.le_of_lt (Int.lt_succ _)))

/--
An element settles if its range runs from the start of one part to the end of a
part behind it, and its children are a row within this range.
-/
theorem Settled.of_ends
    {element : Element}
    {opening closing : Span}
    (opens : opening.Stands low mid)
    (children : Spread embeds opening.first.offset element.children (closing.last.offset + 1))
    (closes : closing.Stands mid high)
    (isFirst : element.span.first = opening.first)
    (isLast : element.span.last = closing.last)
    (embedded : element.Embedded embeds) :
    element.Settled embeds low high := by
  obtain ⟨above, forward, before⟩ := opens
  obtain ⟨behind, onward, below⟩ := closes
  rw [← isFirst] at above forward children
  rw [← isLast] at onward below children
  exact .of_children ⟨above, by omega, below⟩ children embedded

/-- An element settles if its children stand between a token in front and one behind. -/
theorem Settled.delimited
    {element : Element}
    {opening closing : Span}
    {start stop : Int}
    (opens : opening.Stands low start)
    (children : Spread embeds start element.children stop)
    (closes : closing.Stands stop high)
    (isFirst : element.span.first = opening.first)
    (isLast : element.span.last = closing.last)
    (embedded : element.Embedded embeds) :
    element.Settled embeds low high := by
  have start := Int.lt_of_le_of_lt opens.ordered opens.below
  have stop := Int.le_trans closes.above closes.ordered
  exact .of_ends opens (children.mono (by omega) (by omega))
    (closes.mono children.room (Int.le_refl _)) isFirst isLast embedded

/-- An element settles if a token stands in front of its children and the last one ends it. -/
theorem Settled.headed
    {element final : Element}
    {opening : Span}
    {start : Int}
    (opens : opening.Stands low start)
    (children : Spread embeds start element.children (final.span.last.offset + 1))
    (ends : final.Settled embeds start high)
    (isFirst : element.span.first = opening.first)
    (isLast : element.span.last = final.span.last)
    (embedded : element.Embedded embeds) :
    element.Settled embeds low high := by
  have start := Int.lt_of_le_of_lt opens.ordered opens.below
  exact .of_ends opens (children.mono (by omega) (Int.le_refl _)) ends.stands isFirst isLast
    embedded

/-- A member stands where its target and the name of the property stand. -/
theorem Settled.member
    {target : Expression}
    {property : Identifier}
    (settled : (expression target).Settled embeds low mid)
    (stands : property.span.Stands mid high)
    (arrow : Bool) :
    (expression (.member target property arrow)).Settled embeds low high := by
  have ends := Int.le_trans stands.above stands.ordered
  exact .of_ends settled.stands (settled.starting.spread.mono (Int.le_refl _)
    (Int.le_trans ends (Int.le_of_lt (Int.lt_succ _)))) stands rfl rfl trivial

/-- A call ends with its closing parenthesis. -/
theorem Settled.invocation
    {callee : Expression}
    {arguments : List Expression}
    {closing : Span}
    {stop : Int}
    (settled : (expression callee).Settled embeds low mid)
    (spread : Spread embeds mid (presentExpressions arguments) stop)
    (closes : closing.Stands stop high) :
    (expression (.invocation callee arguments closing.last)).Settled embeds low high := by
  have ends := Int.le_trans closes.above closes.ordered
  refine .of_ends settled.stands ?_ (closes.mono spread.room (Int.le_refl _)) rfl rfl trivial
  rw [children, presentExpressions_cons]
  exact (settled.starting.spread.append spread).mono (Int.le_refl _) (by omega)

/-- An index expression ends with its closing bracket. -/
theorem Settled.index
    {target position : Expression}
    {closing : Span}
    {stop : Int}
    (settled : (expression target).Settled embeds low mid)
    (inside : (expression position).Settled embeds mid stop)
    (closes : closing.Stands stop high) :
    (expression (.index target position closing.last)).Settled embeds low high := by
  have ends := Int.le_trans closes.above closes.ordered
  have below := inside.stands.below
  exact .of_ends settled.stands ((settled.pair inside).mono (Int.le_refl _) (by omega))
    (closes.mono inside.spread.room (Int.le_refl _)) rfl rfl trivial

end Element

end FrenchNim
