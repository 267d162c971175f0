import FrenchNim.Proofs.Grammar.Standing
import FrenchNim.Proofs.Syntax.Tokens

namespace FrenchNim.Grammar

/-!
# What a class keeps of its body

The body of a class is read item by item: a constructor, a method, or a token
that is neither and is passed over. A constructor and a method end with their own
body, so what follows them does not change them. A class keeps all methods in
their order and the last of its constructors.
-/

/-- The tokens of parameters and a body, and what they are. -/
structure WrittenProcedure where
  tokens : List Token
  parameters : List Identifier
  body : Block

/-- The tokens are read as the parameters and the body, whatever stands behind them there. -/
def WrittenProcedure.IsRead (final : Token) (room : Nat) (written : WrittenProcedure) : Prop :=
  ∃ behind, Rule.procedure.read final room (written.tokens ++ behind) =
    .ok ((written.parameters, written.body), behind)

/-- An item of the body of a class. -/
inductive ClassItem where
  | constructor (keyword : Token) (written : WrittenProcedure)
  | method (name : Token) (written : WrittenProcedure)
  | other (token : Token)

namespace ClassItem

/-- The tokens of an item. -/
def tokens : ClassItem → List Token
  | constructor keyword written => keyword :: written.tokens
  | method name written => name :: written.tokens
  | other token => [token]

/-- A token that starts no member of a class and does not end its body. -/
def isIdle (kind : TokenKind) : Bool :=
  !(kind == .identifier || kind == .constructorKeyword || kind == .closeKeyword ||
    kind == .endOfInput)

/-- The item is a member of a class as it is written, or an idle token. -/
def WellFormed (final : Token) (room : Nat) : ClassItem → Prop
  | constructor keyword written =>
      keyword.kind = .constructorKeyword ∧ written.IsRead final room
  | method name written => name.kind = .identifier ∧ written.IsRead final room
  | other token => isIdle token.kind

/-- The constructor that an item is. -/
def constructor? : ClassItem → Option Constructor
  | constructor keyword written => some ⟨written.parameters, written.body, keyword.span.first⟩
  | _ => none

/-- The method that an item is. -/
def method? : ClassItem → Option Method
  | method name written => some ⟨identifierOf name, written.parameters, written.body⟩
  | _ => none

/-- The names of the parameters of the constructor that an item is. -/
def parameterNames? : ClassItem → Option (List String)
  | constructor _ written => some (written.parameters.map (·.name))
  | _ => none

end ClassItem

/-- The last constructor in the body of a class. -/
def lastConstructor (items : List ClassItem) : Option Constructor :=
  (items.filterMap ClassItem.constructor?).getLast?

variable {final : Token} {room : Nat}

/-- What follows parameters and a body does not matter to them. -/
theorem WrittenProcedure.IsRead.read
    (isEnd : final.kind = .endOfInput)
    {written : WrittenProcedure}
    (isRead : written.IsRead final room)
    (behind : List Token) :
    Rule.procedure.read final room (written.tokens ++ behind) =
      .ok ((written.parameters, written.body), behind) := by
  obtain ⟨after, found⟩ := isRead
  exact Rule.read_standing isEnd isEnd trivial found

/-- One more item in front adds its constructor where there is no later one. -/
theorem lastConstructor_cons (item : ClassItem) (items : List ClassItem) :
    lastConstructor (item :: items) = (lastConstructor items).or item.constructor? := by
  unfold lastConstructor
  cases found : item.constructor? with
  | none => simp [found]
  | some constructor =>
      rw [List.filterMap_cons, found, List.getLast?_cons]
      cases (items.filterMap ClassItem.constructor?).getLast? <;> rfl

/-- The members behind known ones: later constructors replace the known one, methods are added. -/
theorem read_members
    (isEnd : final.kind = .endOfInput)
    {items : List ClassItem}
    (wellFormed : ∀ item ∈ items, item.WellFormed final room)
    {closing : Token}
    (closes : closing.kind = .closeKeyword)
    (behind : List Token)
    (known : Option Constructor)
    (methods : List Method) :
    (Rule.members known methods).read final room
        (items.flatMap ClassItem.tokens ++ closing :: behind) =
      .ok (((lastConstructor items).or known,
        methods.reverse ++ items.filterMap ClassItem.method?), closing :: behind) := by
  induction items generalizing known methods with
  | nil =>
      rw [List.flatMap_nil, List.nil_append, Rule.read_members_cons, if_pos closes]
      simp [lastConstructor]
  | cons item items inductionHypothesis =>
      obtain ⟨first, others⟩ := List.forall_mem_cons.mp wellFormed
      have rest := inductionHypothesis others
      rw [List.flatMap_cons, List.append_assoc, lastConstructor_cons]
      cases item with
      | constructor keyword written =>
          obtain ⟨isKeyword, isRead⟩ := first
          rw [ClassItem.tokens, List.cons_append, Rule.read_members_cons,
            if_neg (by simp [isKeyword]), if_pos isKeyword, isRead.read isEnd, Parsed.andThen_ok,
            rest]
          simp [ClassItem.constructor?, ClassItem.method?, List.filterMap_cons]
      | method name written =>
          obtain ⟨isName, isRead⟩ := first
          rw [ClassItem.tokens, List.cons_append, Rule.read_members_cons,
            if_neg (by simp [isName]), if_neg (by simp [isName]), if_pos isName,
            isRead.read isEnd, Parsed.andThen_ok, rest]
          simp [ClassItem.constructor?, ClassItem.method?]
      | other token =>
          have idle : ClassItem.isIdle token.kind = true := first
          simp only [ClassItem.isIdle, Bool.not_eq_true', Bool.or_eq_false_iff,
            beq_eq_false_iff_ne, ne_eq] at idle
          obtain ⟨⟨⟨noName, noConstructor⟩, noClose⟩, -⟩ := idle
          rw [ClassItem.tokens, List.cons_append, List.nil_append, Rule.read_members_cons,
            if_neg noClose, if_neg noConstructor, if_neg noName, rest]
          simp [ClassItem.constructor?, ClassItem.method?, List.filterMap_cons]

/-- The fields of a class with a last constructor are the parameters of that. -/
theorem fields?_lastConstructor (items : List ClassItem) :
    Declaration.fields? (lastConstructor items) =
      (items.filterMap ClassItem.parameterNames?).getLast? := by
  have names : ClassItem.parameterNames? =
      fun item => item.constructor?.map fun constructor => constructor.parameters.map (·.name) := by
    funext item
    cases item <;> rfl
  rw [names, ← List.map_filterMap, List.getLast?_map, lastConstructor]
  cases (items.filterMap ClassItem.constructor?).getLast? <;> rfl

/--
A class with any well-formed items in its body is read. It has the methods in their order and the
last constructor, whose parameters are its fields.
-/
theorem class_keeps_members
    (isEnd : final.kind = .endOfInput)
    {word name opening closing : Token}
    (isClass : word.kind = .classKeyword)
    (isName : name.kind = .identifier)
    (opens : opening.kind = .openKeyword)
    (closes : closing.kind = .closeKeyword)
    {items : List ClassItem}
    (wellFormed : ∀ item ∈ items, item.WellFormed final room)
    (behind : List Token) :
    Rule.declaration.read final room
        (word :: name :: opening :: items.flatMap ClassItem.tokens ++ closing :: behind) =
      .ok (.classType (identifierOf name) (lastConstructor items)
        (items.filterMap ClassItem.method?) ⟨word.span.first, closing.span.last⟩, behind) ∧
    Declaration.fields? (lastConstructor items) =
      (items.filterMap ClassItem.parameterNames?).getLast? := by
  refine ⟨?_, fields?_lastConstructor items⟩
  have asName : name.kind = Expectation.className.kind := isName
  have asOpening : opening.kind = Expectation.openWord.kind := opens
  have asClosing : closing.kind = Expectation.closeWord.kind := closes
  rw [List.cons_append, List.cons_append, List.cons_append, Rule.read_declaration_cons,
    if_neg (by simp [isClass]), if_pos isClass, Rule.read_classRest, Rule.read_name,
    Rule.read_expect_cons, if_pos asName, Parsed.andThen_ok, Parsed.andThen_ok,
    Rule.read_expect_cons, if_pos asOpening, Parsed.andThen_ok,
    read_members isEnd wellFormed closes, Parsed.andThen_ok, Rule.read_expect_cons,
    if_pos asClosing, Option.or_none]
  rfl

/-- A parameter and an empty body. -/
def emptyProcedure (parameter : String) : WrittenProcedure where
  tokens := [.bare .parenOpen "(", .bare .identifier parameter, .bare .parenClose ")",
    .bare .openKeyword "ouvrir", .bare .closeKeyword "refermer"]
  parameters := [⟨parameter, .zero⟩]
  body := .of [] .zero

/-- A body with two constructors, a method, and tokens that look like the start of something. -/
def crowdedBody : List ClassItem :=
  [.other (.bare .functionKeyword "fonction"), .other (.bare .braceOpen "\x7b"),
    .constructor (.bare .constructorKeyword "constructeur") (emptyProcedure "a"),
    .other (.bare .newline "\n"), .other (.bare .string "s"),
    .method (.bare .identifier "m") (emptyProcedure "x"), .other (.bare .parenOpen "("),
    .constructor (.bare .constructorKeyword "constructeur") (emptyProcedure "b")]

/-- The class keeps the method and the second constructor. -/
theorem class_keeps_members_crowded :
    (∀ item ∈ crowdedBody, item.WellFormed (.endOfInput .zero) 0) ∧
    Rule.declaration.read (.endOfInput .zero) 0
        (.bare .classKeyword "classe" :: .bare .identifier "C" :: .bare .openKeyword "ouvrir" ::
          crowdedBody.flatMap ClassItem.tokens ++ [.bare .closeKeyword "refermer"]) =
      .ok (.classType ⟨"C", .zero⟩ (some ⟨[⟨"b", .zero⟩], .of [] .zero, .zero⟩)
        [⟨⟨"m", .zero⟩, [⟨"x", .zero⟩], .of [] .zero⟩] .zero, []) ∧
    Declaration.fields? (lastConstructor crowdedBody) = some ["b"] := by
  have isRead : ∀ parameter, (emptyProcedure parameter).IsRead (.endOfInput .zero) 0 :=
    fun parameter => ⟨[], by cbv⟩
  have wellFormed : ∀ item ∈ crowdedBody, item.WellFormed (.endOfInput .zero) 0 := by
    simp [crowdedBody, ClassItem.WellFormed, ClassItem.isIdle, isRead]
  exact ⟨wellFormed, class_keeps_members rfl rfl rfl rfl rfl wellFormed []⟩

end FrenchNim.Grammar
