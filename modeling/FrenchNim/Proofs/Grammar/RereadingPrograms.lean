import FrenchNim.Proofs.Grammar.Continuation
import FrenchNim.Proofs.Grammar.Rereading

namespace FrenchNim.Grammar

/-!
# Reading the tokens of a program

What the grammar reads in the tokens of declarations. At the top level a text
that begins with `fonction` must be a function declaration, so a statement that
begins with a closure is the third thing that is not read back.
-/

/-- The parts of the declaration fit, and it is no statement that begins with a closure. -/
def DeclarationFits (room : Nat) (node : Declaration) : Prop :=
  node.nesting ≤ room ∧ node.Everywhere (·.constructsSelf = false) ∧
    node.leadsWithClosure = false

theorem foldr_max_le_iff
    {counts : List Nat}
    {bound : Nat} :
    counts.foldr max 0 ≤ bound ↔ ∀ count ∈ counts, count ≤ bound := by
  induction counts with
  | nil =>
      simp
  | cons first rest inductionHypothesis =>
      rw [List.foldr_cons, List.forall_mem_cons]
      exact Nat.max_le.trans (and_congr_right fun _ => inductionHypothesis)

/-- A text that begins with `fonction` goes on with a parenthesis. -/
theorem tokens_of_leadsWithClosure :
    ∀ {value : Expression}, value.leadsWithClosure = true →
      ∃ more, value.tokens = .bare .functionKeyword "fonction" :: .parenOpen :: more
  | .closure names body first, _ => ⟨_, rfl⟩
  | .invocation callee _ _, leads => by
      obtain ⟨more, starts⟩ := tokens_of_leadsWithClosure
        (show callee.leadsWithClosure = true from leads)
      exact ⟨_, by rw [Expression.tokens, starts]; rfl⟩
  | .member target _ _, leads => by
      obtain ⟨more, starts⟩ := tokens_of_leadsWithClosure
        (show target.leadsWithClosure = true from leads)
      exact ⟨_, by rw [Expression.tokens, starts]; rfl⟩
  | .index target _ _, leads => by
      obtain ⟨more, starts⟩ := tokens_of_leadsWithClosure
        (show target.leadsWithClosure = true from leads)
      exact ⟨_, by rw [Expression.tokens, starts]; rfl⟩
  | .binary _ left _, leads => by
      rw [Expression.leadsWithClosure, Bool.and_eq_true, Bool.not_eq_true'] at leads
      obtain ⟨more, starts⟩ := tokens_of_leadsWithClosure leads.2
      rw [Expression.tokens, Expression.operandTokens, leads.1, starts]
      exact ⟨_, rfl⟩

section Members

variable {vocabulary : Vocabulary} (final : Token) (lexical : vocabulary.IsLexical)

include lexical

theorem methods_reread
    {nodes : List Method}
    (allOver : ∀ node ∈ nodes, node.Over vocabulary)
    (room : Nat)
    (constructor? : Option Constructor)
    (rest : List Token) :
    ∀ known : List Method,
      Reads (∀ node ∈ nodes, BlockFits room node.body)
        ((Rule.members constructor? known).read final room
          ((nodes.map Method.tokens).flatMap (Token.newline :: ·) ++ .newline :: .closing :: rest))
        (.ok ((constructor?, known.reverse ++ nodes.map Method.regroup), .closing :: rest)) := by
  induction nodes with
  | nil =>
      intro known
      refine .of_eq ?_
      rw [List.map_nil, List.flatMap_nil, List.nil_append, Rule.read_members_cons,
        if_neg (by rintro ⟨⟩), if_neg (by rintro ⟨⟩), if_neg (by rintro ⟨⟩), Rule.read_members_cons,
        if_pos (Token.bare_kind _ _), List.map_nil, List.append_nil]
  | cons first others inductionHypothesis =>
      intro known
      have firstOver := allOver first List.mem_cons_self
      have body : BlockRereads final first.body := block_rereads lexical firstOver.2.2
      have procedure := rereads_procedure body first.parameters room
        ((others.map Method.tokens).flatMap (Token.newline :: ·) ++ .newline :: .closing :: rest)
      have goesOn := inductionHypothesis
        (fun node member => allOver node (List.mem_cons_of_mem _ member)) (first.regroup :: known)
      rw [List.map_cons, List.flatMap_cons, List.append_assoc, List.cons_append,
        Rule.read_members_cons, if_neg (by rintro ⟨⟩), if_neg (by rintro ⟨⟩), if_neg (by rintro ⟨⟩),
        Method.tokens, List.append_assoc, List.cons_append, Rule.read_members_cons,
        if_neg (by rintro ⟨⟩), if_neg (by rintro ⟨⟩), if_pos (Token.bare_kind _ _)]
      refine (procedure.weaken fun fit => fit first List.mem_cons_self).andThen_ok ?_
      rw [List.reverse_cons, List.append_assoc] at goesOn
      exact goesOn.weaken fun fit node member => fit node (List.mem_cons_of_mem _ member)

theorem members_reread
    {constructor? : Option Constructor}
    {methods : List Method}
    (constructorOver : ∀ node ∈ constructor?, node.Over vocabulary)
    (methodsOver : ∀ node ∈ methods, node.Over vocabulary)
    (room : Nat)
    (rest : List Token) :
    Reads ((∀ node ∈ constructor?, BlockFits room node.body) ∧
        ∀ node ∈ methods, BlockFits room node.body)
      ((Rule.members none []).read final room
        (Declaration.memberTokens constructor? methods ++ .newline :: .closing :: rest))
      (.ok ((constructor?.map Constructor.regroup, methods.map Method.regroup),
        .closing :: rest)) := by
  cases constructor? with
  | none =>
      have all := methods_reread final lexical methodsOver room none rest []
      exact all.weaken fun fit => fit.2
  | some node =>
      have nodeOver := constructorOver node rfl
      have body : BlockRereads final node.body := block_rereads lexical nodeOver.2
      have procedure := rereads_procedure body node.parameters room
        ((methods.map Method.tokens).flatMap (Token.newline :: ·) ++ .newline :: .closing :: rest)
      have all := methods_reread final lexical methodsOver room (some node.regroup) rest []
      unfold Declaration.memberTokens
      rw [Option.toList_some, List.map_singleton, List.singleton_append, List.flatMap_cons,
        List.append_assoc, List.cons_append, Rule.read_members_cons, if_neg (by rintro ⟨⟩),
        if_neg (by rintro ⟨⟩), if_neg (by rintro ⟨⟩), Constructor.tokens, List.append_assoc,
        List.cons_append, Rule.read_members_cons, if_neg (by rintro ⟨⟩),
        if_pos (Token.bare_kind _ _)]
      refine (procedure.weaken fun fit => fit.1 node rfl).andThen_ok ?_
      exact all.weaken fun fit => fit.2

end Members

section Declarations

variable {vocabulary : Vocabulary} (final : Token)

/-- A statement at the top level, unless it begins with a closure. -/
theorem read_declaration_statement
    {node : Statement}
    (isOver : node.Over vocabulary)
    (noReturn : node.isReturn = false)
    (noClosure : (Declaration.statement node).leadsWithClosure = false)
    (room : Nat)
    (rest : List Token) :
    Rule.declaration.read final room (node.tokens ++ rest) =
      (Rule.statement.read final room (node.tokens ++ rest)).andThen fun body behind =>
        .ok (.statement body, behind) := by
  obtain ⟨first, more, starts, listed, others⟩ := statement_tokens_start isOver
  have noDeclaration : ∀ kind ∈ statementKinds, kind ≠ .importKeyword ∧ kind ≠ .classKeyword ∧
      kind ≠ .typeKeyword ∧ kind ≠ .constantKeyword := by
    decide
  obtain ⟨noImport, noClass, noType, noConstant⟩ := noDeclaration _ listed
  obtain ⟨noReturn, noFunction⟩ := others noReturn noClosure
  rw [starts, List.cons_append, Rule.read_declaration_cons, if_neg noImport, if_neg noClass,
    if_neg noType, if_neg noConstant, if_neg noFunction, if_neg noReturn]

/-- A statement that begins with a closure is taken for a function without a name. -/
theorem read_declaration_closure
    {node : Statement}
    (leads : (Declaration.statement node).leadsWithClosure = true)
    (room : Nat)
    (rest : List Token) :
    ∃ error, Rule.declaration.read final room (node.tokens ++ rest) = .error error := by
  have starts : ∃ more,
      node.tokens = .bare .functionKeyword "fonction" :: .parenOpen :: more := by
    cases node with
    | evaluated value =>
        obtain ⟨more, starts⟩ := tokens_of_leadsWithClosure leads
        exact ⟨more, by rw [Statement.tokens, starts]⟩
    | assigned target value =>
        obtain ⟨more, starts⟩ := tokens_of_leadsWithClosure leads
        exact ⟨_, by rw [Statement.tokens, starts]; rfl⟩
    | _ =>
        cases leads
  obtain ⟨more, starts⟩ := starts
  refine ⟨.expected .functionName .parenOpen, ?_⟩
  rw [starts, List.cons_append, List.cons_append, Rule.read_declaration_cons, if_neg (by rintro ⟨⟩),
    if_neg (by rintro ⟨⟩), if_neg (by rintro ⟨⟩), if_neg (by rintro ⟨⟩),
    if_pos (Token.bare_kind _ _), Rule.read_functionRest, Rule.read_name, Rule.read_expect_cons,
    if_neg (by rintro ⟨⟩)]
  rfl

/-- The grammar reads the tokens of a declaration as its text says. -/
theorem declaration_rereads
    (lexical : vocabulary.IsLexical)
    {node : Declaration}
    (isOver : node.Over vocabulary)
    (room : Nat)
    {rest : List Token}
    (before : Before [.newline] rest) :
    Reads (DeclarationFits room node) (Rule.declaration.read final room (node.tokens ++ rest))
      (.ok (node.regroup, rest)) := by
  cases node with
  | imported module alias? path span =>
      refine .of_eq ?_
      cases alias? with
      | none =>
          simp only [Declaration.tokens, Option.toList_none, List.flatMap_nil, List.cons_append,
            List.nil_append]
          rw [Rule.read_declaration_cons, if_pos (Token.bare_kind _ _), Rule.read_importRest,
            read_expectedName final room rfl, Parsed.andThen_ok, if_neg (by rintro ⟨⟩),
            Rule.read_importedFrom, read_expected final room rfl, Parsed.andThen_ok,
            read_expected final room rfl]
          rfl
      | some newName =>
          simp only [Declaration.tokens, Option.toList_some, List.flatMap_cons, List.flatMap_nil,
            List.cons_append, List.nil_append]
          rw [Rule.read_declaration_cons, if_pos (Token.bare_kind _ _), Rule.read_importRest,
            read_expectedName final room rfl, Parsed.andThen_ok, current_cons,
            if_pos (Token.bare_kind _ _), List.drop_one, List.tail_cons,
            read_expectedName final room rfl, Parsed.andThen_ok,
            Rule.read_importedFrom, read_expected final room rfl, Parsed.andThen_ok,
            read_expected final room rfl]
          rfl
  | classType name constructor? methods span =>
      obtain ⟨_, constructorOver, methodsOver⟩ := isOver
      have members := members_reread final lexical constructorOver methodsOver room rest
      simp only [Declaration.tokens, List.append_assoc, List.cons_append, List.nil_append]
      rw [Rule.read_declaration_cons, if_neg (by rintro ⟨⟩), if_pos (Token.bare_kind _ _),
        Rule.read_classRest, read_expectedName final room rfl, Parsed.andThen_ok,
        read_expected final room rfl, Parsed.andThen_ok]
      refine (members.weaken fun fits => ?_).andThen_ok ?_
      · obtain ⟨nesting, ⟨constructorNamed, methodsNamed⟩, -⟩ := fits
        obtain ⟨constructorNesting, methodsNesting⟩ := Nat.max_le.mp nesting
        refine ⟨fun node member => ⟨?_, constructorNamed node member⟩,
          fun node member => ⟨?_, methodsNamed node member⟩⟩
        · rw [Option.mem_def.mp member] at constructorNesting
          exact constructorNesting
        · exact foldr_max_le_iff.mp methodsNesting _ (List.mem_map_of_mem member)
      · rw [read_expected final room rfl]
        exact .of_eq rfl
  | function name parameters body first =>
      have rereads : BlockRereads final body := block_rereads lexical isOver.2.2
      have procedure := rereads_procedure rereads parameters room rest
      simp only [Declaration.tokens, List.append_assoc, List.cons_append]
      rw [Rule.read_declaration_cons, if_neg (by rintro ⟨⟩), if_neg (by rintro ⟨⟩),
        if_neg (by rintro ⟨⟩), if_neg (by rintro ⟨⟩), if_pos (Token.bare_kind _ _),
        Rule.read_functionRest, read_expectedName final room rfl, Parsed.andThen_ok]
      exact (procedure.weaken fun fits => ⟨fits.1, fits.2.1⟩).andThen_ok (.of_eq rfl)
  | typeName name external span =>
      refine .of_eq ?_
      simp only [Declaration.tokens, List.cons_append]
      rw [Rule.read_declaration_cons, if_neg (by rintro ⟨⟩), if_neg (by rintro ⟨⟩),
        if_pos (Token.bare_kind _ _), Rule.read_typeRest, read_expectedName final room rfl,
        Parsed.andThen_ok, read_expected final room rfl, Parsed.andThen_ok]
      cases external with
      | true =>
          rfl
      | false =>
          cases rest with
          | nil =>
              rfl
          | cons token rest =>
              -- A type that is not external ends where the next line begins.
              have isNewline := List.mem_singleton.mp (before token rfl)
              have noExternal : token.kind ≠ .externalKeyword := by
                rw [isNewline]
                rintro ⟨⟩
              rw [if_neg Bool.false_ne_true, List.nil_append, externalWord, if_neg noExternal]
              rfl
  | constant name value first =>
      have rereads : ExpressionRereads final value := expression_rereads lexical isOver.2
      have inner := rereads.value (before.of_subset (by decide)) room
      simp only [Declaration.tokens, List.cons_append]
      rw [Rule.read_declaration_cons, if_neg (by rintro ⟨⟩), if_neg (by rintro ⟨⟩),
        if_neg (by rintro ⟨⟩), if_pos (Token.bare_kind _ _), Rule.read_constantRest,
        read_expectedName final room rfl, Parsed.andThen_ok, read_expected final room rfl,
        Parsed.andThen_ok]
      exact (inner.weaken fun fits => ⟨fits.1, fits.2.1⟩).andThen_ok (.of_eq rfl)
  | statement body =>
      obtain ⟨noReturn, bodyOver⟩ := isOver
      cases leads : (Declaration.statement body).leadsWithClosure with
      | true =>
          -- At the top level the word of a closure begins a function.
          obtain ⟨error, failed⟩ := read_declaration_closure final leads room rest
          exact .fails (fun fits => Bool.false_ne_true (fits.2.2.symm.trans leads)) failed
      | false =>
          have rereads : StatementRereads final body := statement_rereads lexical bodyOver
          have inner := rereads room rest (before.of_subset (by decide))
          rw [Declaration.tokens, read_declaration_statement final bodyOver noReturn leads]
          exact (inner.weaken fun fits => ⟨fits.1, fits.2.1⟩).andThen_ok (.of_eq rfl)

/-- A declaration starts with a token that is no line break. -/
theorem declaration_tokens_start
    {node : Declaration}
    (isOver : node.Over vocabulary) :
    ∃ first more, node.tokens = first :: more ∧ first.kind ≠ .newline := by
  cases node with
  | statement body =>
      obtain ⟨first, more, starts, listed, -⟩ := statement_tokens_start isOver.2
      have noNewline : ∀ kind ∈ statementKinds, kind ≠ .newline := by
        decide
      exact ⟨first, more, starts, noNewline _ listed⟩
  | _ =>
      exact ⟨_, _, rfl, by rintro ⟨⟩⟩

theorem skipNewlines_separator (left right : Declaration) (rest : List Token) :
    skipNewlines (Program.separatorTokens left right ++ rest) = skipNewlines rest := by
  unfold Program.separatorTokens
  split
  · rfl
  · rfl

/-- Behind the line breaks after a declaration the next one starts. -/
theorem skipNewlines_tokensAfter
    (node : Declaration)
    {next : Declaration}
    (nextOver : next.Over vocabulary)
    (others : List Declaration) :
    skipNewlines (Program.tokensAfter node (next :: others)) =
      next.tokens ++ Program.tokensAfter next others := by
  obtain ⟨second, after, goesOn, noNewline⟩ := declaration_tokens_start nextOver
  rw [Program.tokensAfter, List.append_assoc, skipNewlines_separator, goesOn, List.cons_append,
    skipNewlines_other noNewline]

/-- Behind a declaration there is a line break or nothing. -/
theorem before_tokensAfter (previous : Declaration) (others : List Declaration) :
    Before [.newline] (Program.tokensAfter previous others) := by
  cases others with
  | nil =>
      exact before_nil _
  | cons next others =>
      rw [Program.tokensAfter, Program.separatorTokens]
      split
      · exact before_cons (List.mem_singleton.mpr rfl) _
      · exact before_cons (List.mem_singleton.mpr rfl) _

/-- A program goes on behind a declaration that is read as expected. -/
theorem Reads.declarations_cons
    {fits : Prop}
    {room : Nat}
    {known : List Declaration}
    {first : Token}
    {more rest : List Token}
    {next : Declaration}
    {whole : Except GrammarError (List Declaration)}
    (reads : Reads fits (Rule.declaration.read final room (first :: more)) (.ok (next, rest)))
    (goesOn : Reads fits (declarations final room (next :: known) (skipNewlines rest)) whole) :
    Reads fits (declarations final room known (first :: more)) whole := by
  rw [Grammar.declarations_cons]
  rcases reads with same | ⟨unfit, error, failed⟩
  · rw [same]
    exact goesOn
  · rw [failed]
    exact .fails unfit rfl

/-- Declarations are read as their texts say, behind declarations that are already read. -/
theorem declarations_reread
    (lexical : vocabulary.IsLexical)
    (room : Nat)
    {others : List Declaration} :
    ∀ {node : Declaration} (known : List Declaration), node.Over vocabulary →
      (∀ other ∈ others, other.Over vocabulary) →
      Reads (∀ each ∈ node :: others, DeclarationFits room each)
        (declarations final room known (node.tokens ++ Program.tokensAfter node others))
        (.ok (known.reverse ++ (node :: others).map Declaration.regroup)) := by
  induction others with
  | nil =>
      intro node known isOver _
      obtain ⟨first, more, starts, -⟩ := declaration_tokens_start isOver
      have reads := declaration_rereads final lexical isOver room (before_tokensAfter node [])
      rw [starts, List.cons_append] at reads ⊢
      refine .declarations_cons final (reads.weaken fun fit => fit node List.mem_cons_self) ?_
      refine .of_eq ?_
      rw [Program.tokensAfter, show skipNewlines [] = [] from rfl, declarations_nil,
        List.reverse_cons]
      rfl
  | cons next others inductionHypothesis =>
      intro node known isOver othersOver
      have nextOver := othersOver next List.mem_cons_self
      obtain ⟨first, more, starts, -⟩ := declaration_tokens_start isOver
      have reads := declaration_rereads final lexical isOver room
        (before_tokensAfter node (next :: others))
      have remaining := inductionHypothesis (node.regroup :: known) nextOver
        fun other member => othersOver other (List.mem_cons_of_mem _ member)
      rw [starts, List.cons_append] at reads ⊢
      refine .declarations_cons final (reads.weaken fun fit => fit node List.mem_cons_self) ?_
      rw [skipNewlines_tokensAfter node nextOver]
      rw [List.reverse_cons, List.append_assoc] at remaining
      exact remaining.weaken fun fit each member => fit each (List.mem_cons_of_mem _ member)

end Declarations

/-- All declarations of the program fit. -/
def ProgramFits (room : Nat) (program : Program) : Prop :=
  ∀ node ∈ program.declarations, DeclarationFits room node

/-- The grammar reads the tokens of a program as its text says. -/
theorem programWithin_rereads
    {vocabulary : Vocabulary}
    (lexical : vocabulary.IsLexical)
    {program : Program}
    (isOver : program.Over vocabulary)
    (proper : ∀ token ∈ program.tokens, token.kind ≠ .endOfInput)
    (room : Nat) :
    Reads (ProgramFits room program)
      (programWithin room (program.tokens ++ [Token.endOfInput .zero])) (.ok program.regroup) := by
  obtain ⟨nodes⟩ := program
  have final : ∃ final, finalToken (Program.tokens ⟨nodes⟩ ++ [Token.endOfInput .zero]) = final :=
    ⟨_, rfl⟩
  obtain ⟨final, isFinal⟩ := final
  have before : properTokens (Program.tokens ⟨nodes⟩ ++ [Token.endOfInput .zero]) =
      Program.tokens ⟨nodes⟩ := by
    rw [properTokens_append proper]
    exact List.append_nil _
  unfold programWithin
  rw [isFinal, before]
  cases nodes with
  | nil =>
      refine .of_eq ?_
      rw [Program.tokens, show skipNewlines [] = [] from rfl, declarations_nil]
      rfl
  | cons node others =>
      have nodeOver := isOver node List.mem_cons_self
      obtain ⟨first, more, starts, noNewline⟩ := declaration_tokens_start nodeOver
      have reads := declarations_reread final lexical room [] nodeOver
        fun other member => isOver other (List.mem_cons_of_mem _ member)
      have skipped : skipNewlines (node.tokens ++ Program.tokensAfter node others) =
          node.tokens ++ Program.tokensAfter node others := by
        rw [starts, List.cons_append, skipNewlines_other noNewline]
      rw [Program.tokens, skipped]
      rcases reads with same | ⟨unfit, error, failed⟩
      · refine .of_eq ?_
        rw [same]
        rfl
      · rw [failed]
        exact .fails unfit rfl

end FrenchNim.Grammar
