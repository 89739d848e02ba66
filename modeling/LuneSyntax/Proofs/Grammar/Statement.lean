import LuneSyntax.Grammar.Statement
import LuneSyntax.Proofs.Grammar.Expression

/-!
# What the readers of statements accept and refuse

A declaration has a fixed head and then an expression. The rejections list every point at which
a statement can fail, with the cause that is given there. As for expressions, the tokens passed
and the one behind them decide.
-/

set_option autoImplicit false

namespace LuneSyntax.Grammar

/-- The next token, if there is one, is of another kind. -/
def Lacks (kind : Token.Kind) (next : Option Token) : Prop :=
  ∀ token ∈ next, token.kind ≠ kind

/-- The kinds with which the part of a declaration behind its word goes on up to the value. -/
inductive Heads : List Token.Kind → Prop where
  | heads {type : PrimitiveType} {named : Token.Kind} :
      type.NamedBy named → Heads [.identifier, .colon, named, .equal]

/-- Where and why a declaration fails behind the word that begins it. -/
inductive DeclarationRejected : List Token → SyntaxFault → Option Token → Prop where
  | name {next : Option Token} :
      Lacks .identifier next → DeclarationRejected [] (.missingToken "variable name") next
  | colon {written : List Token} {next : Option Token} :
      written.map Token.kind = [.identifier] → Lacks .colon next →
      DeclarationRejected written (.missingToken "':' after variable name") next
  | pointer {written : List Token} {token : Token} :
      written.map Token.kind = [.identifier, .colon] → token.kind = .ptrWord →
      DeclarationRejected written (.unimplemented "pointer types") (some token)
  | type {written : List Token} {next : Option Token} :
      written.map Token.kind = [.identifier, .colon] → Lacks .ptrWord next →
      Lacks .intWord next → Lacks .strWord next →
      DeclarationRejected written .invalidType next
  | equal {written : List Token} {type : PrimitiveType} {named : Token.Kind}
      {next : Option Token} :
      written.map Token.kind = [.identifier, .colon, named] → type.NamedBy named →
      Lacks .equal next →
      DeclarationRejected written (.missingToken "'=' and an initial value") next
  | value {head written : List Token} {next : Option Token} :
      Heads (head.map Token.kind) → Pending 1 written → NoOperand 1 next →
      DeclarationRejected (head ++ written) .invalidExpression next

/-- Where and why a statement fails. -/
inductive Rejected : List Token → SyntaxFault → Option Token → Prop where
  | reserved {token : Token} {feature : String} :
      reservedFeature? token.kind = some feature →
      Rejected [] (.unimplemented feature) (some token)
  | unknown {next : Option Token} :
      (∀ token ∈ next, token.kind ≠ .varWord ∧ reservedFeature? token.kind = none) →
      Rejected [] .invalidStatement next
  | declaration {word : Token} {written : List Token} {cause : SyntaxFault}
      {next : Option Token} :
      word.kind = .varWord → DeclarationRejected written cause next →
      Rejected (word :: written) cause next

theorem Heads.exists_tokens {head : List Token} (heads : Heads (head.map Token.kind)) :
    ∃ (name colon named equal : Token) (type : PrimitiveType),
      head = [name, colon, named, equal] ∧ name.kind = .identifier ∧ colon.kind = .colon ∧
        type.NamedBy named.kind ∧ equal.kind = .equal := by
  generalize same : head.map Token.kind = kinds at heads
  cases heads with
  | @heads type kind isType =>
      simp only [List.map_eq_cons_iff, List.map_eq_nil_iff] at same
      obtain ⟨name, _, rfl, isName, colon, _, rfl, isColon, named, _, rfl, rfl, equal, _, rfl,
        isEqual, rfl⟩ := same
      exact ⟨name, colon, named, equal, type, rfl, isName, isColon, isType, isEqual⟩

/-! ## Single tokens -/

theorem run_expect_of_kind {kind : Token.Kind} {token : Token} (expected : String)
    (rest : List Token) (same : token.kind = kind) :
    (expect kind expected).run (token :: rest) = .ok (token, rest) := by
  simp [Reader.run, expect, same]

theorem run_expect_of_lacks {kind : Token.Kind} (expected : String) {tokens : List Token}
    (lacks : Lacks kind tokens.head?) :
    (expect kind expected).run tokens = .error ⟨.missingToken expected, tokens⟩ := by
  cases tokens with
  | nil => rfl
  | cons token rest => simp [Reader.run, expect, lacks token rfl]

theorem run_typeName_of_named {type : PrimitiveType} {token : Token} (rest : List Token)
    (named : type.NamedBy token.kind) : typeName.run (token :: rest) = .ok (type, rest) := by
  have found := PrimitiveType.ofKind?_eq_some_iff.mpr named
  have other : token.kind ≠ .ptrWord := by
    intro pointer
    rw [pointer] at named
    cases named
  simp [Reader.run, typeName, other, found]

theorem run_typeName_of_pointer {token : Token} (rest : List Token)
    (pointer : token.kind = .ptrWord) :
    typeName.run (token :: rest) = .error ⟨.unimplemented "pointer types", token :: rest⟩ := by
  simp [Reader.run, typeName, pointer]

theorem run_typeName_of_lacks {tokens : List Token} (pointer : Lacks .ptrWord tokens.head?)
    (integer : Lacks .intWord tokens.head?) (string : Lacks .strWord tokens.head?) :
    typeName.run tokens = .error ⟨.invalidType, tokens⟩ := by
  cases tokens with
  | nil => rfl
  | cons token rest =>
      have missing : PrimitiveType.ofKind? token.kind = none := by
        cases found : PrimitiveType.ofKind? token.kind with
        | none => rfl
        | some type =>
            have named := PrimitiveType.ofKind?_eq_some_iff.mp found
            have notInteger := integer token rfl
            have notString := string token rfl
            generalize token.kind = kind at named notInteger notString
            cases named with
            | integer => exact absurd rfl notInteger
            | string => exact absurd rfl notString
      simp [Reader.run, typeName, pointer token rfl, missing]

/-! ## Declarations -/

private theorem outcome_bind {First Second : Type} {tokens following : List Token}
    {first : Except Fault (Phrase First tokens)}
    {second : Phrase First tokens → Except Fault (Phrase Second following)}
    {plain : First × List Token → Except Fault (Second × List Token)}
    (agree : ∀ phrase, Phrase.outcome (second phrase) = plain (phrase.value, phrase.rest)) :
    Phrase.outcome (first >>= second) = Phrase.outcome first >>= plain := by
  cases first with
  | error fault => rfl
  | ok phrase => exact agree phrase

/-- The readers of a declaration one behind the other, without their phrases. -/
theorem run_declaration (tokens : List Token) :
    declaration.run tokens = (do
      let name ← (expect .identifier "variable name").run tokens
      let colon ← (expect .colon "':' after variable name").run name.2
      let type ← typeName.run colon.2
      let equal ← (expect .equal "'=' and an initial value").run type.2
      let initializer ← expression.run equal.2
      return (.declaration name.1.content type.1 initializer.1, initializer.2)) := by
  rw [run_eq_outcome]
  unfold declaration
  refine outcome_bind fun name => ?_
  refine outcome_bind fun colon => ?_
  refine outcome_bind fun type => ?_
  refine outcome_bind fun equal => ?_
  exact outcome_bind fun initializer => rfl

private theorem ok_bind {First Second Error : Type} (value : First)
    (second : First → Except Error Second) : (Except.ok value >>= second) = second value := rfl

private theorem error_bind {First Second Error : Type} (error : Error)
    (second : First → Except Error Second) :
    ((Except.error error : Except Error First) >>= second) = .error error := rfl

theorem declaration_accepts {stmt : Stmt} {word : Token} {written : List Token}
    (rest : List Token) (yields : stmt.Yields (word :: written)) (normal : stmt.Normal)
    (stops : Stops 1 rest.head?) : declaration.run (written ++ rest) = .ok (stmt, rest) := by
  cases yields with
  | declaration isWord isName named isColon isType isEqual value =>
      cases normal with
      | declaration _ initializer =>
          have read := exact_equality.accepts value initializer initializer.level_pos stops
          simp only [run_declaration, List.cons_append, run_expect_of_kind _ _ isName,
            run_expect_of_kind _ _ isColon, run_typeName_of_named _ isType,
            run_expect_of_kind _ _ isEqual, ok_bind, expression, read, named.content_eq]
          rfl

theorem declaration_refuses {written rest : List Token} {cause : SyntaxFault}
    (rejected : DeclarationRejected written cause rest.head?) :
    declaration.run (written ++ rest) = .error ⟨cause, rest⟩ := by
  rw [run_declaration]
  generalize following : rest.head? = next at rejected
  cases rejected with
  | name lacks =>
      rw [← following] at lacks
      rw [List.nil_append, run_expect_of_lacks _ lacks, error_bind]
  | colon kinds lacks =>
      simp only [List.map_eq_cons_iff, List.map_eq_nil_iff] at kinds
      obtain ⟨name, _, rfl, isName, rfl⟩ := kinds
      rw [← following] at lacks
      rw [List.singleton_append, run_expect_of_kind _ _ isName, ok_bind,
        run_expect_of_lacks _ lacks, error_bind]
  | pointer kinds isPointer =>
      simp only [List.map_eq_cons_iff, List.map_eq_nil_iff] at kinds
      obtain ⟨name, _, rfl, isName, colon, _, rfl, isColon, rfl⟩ := kinds
      obtain ⟨after, rfl⟩ := List.head?_eq_some_iff.mp following
      simp only [List.cons_append, List.nil_append, run_expect_of_kind _ _ isName,
        run_expect_of_kind _ _ isColon, run_typeName_of_pointer _ isPointer, ok_bind, error_bind]
  | type kinds noPointer noInteger noString =>
      simp only [List.map_eq_cons_iff, List.map_eq_nil_iff] at kinds
      obtain ⟨name, _, rfl, isName, colon, _, rfl, isColon, rfl⟩ := kinds
      rw [← following] at noPointer noInteger noString
      simp only [List.cons_append, List.nil_append, run_expect_of_kind _ _ isName,
        run_expect_of_kind _ _ isColon, run_typeName_of_lacks noPointer noInteger noString,
        ok_bind, error_bind]
  | @equal _ type kind _ kinds isType lacks =>
      simp only [List.map_eq_cons_iff, List.map_eq_nil_iff] at kinds
      obtain ⟨name, _, rfl, isName, colon, _, rfl, isColon, named, _, rfl, rfl, rfl⟩ := kinds
      rw [← following] at lacks
      simp only [List.cons_append, List.nil_append, run_expect_of_kind _ _ isName,
        run_expect_of_kind _ _ isColon, run_typeName_of_named _ isType,
        run_expect_of_lacks _ lacks, ok_bind, error_bind]
  | @value head pending _ heads waiting missing =>
      obtain ⟨name, colon, named, equal, type, rfl, isName, isColon, isType, isEqual⟩ :=
        heads.exists_tokens
      rw [← following] at missing
      have failed := exact_equality.refuses waiting missing
      simp only [List.cons_append, List.nil_append, run_expect_of_kind _ _ isName,
        run_expect_of_kind _ _ isColon, run_typeName_of_named _ isType,
        run_expect_of_kind _ _ isEqual, ok_bind, error_bind, expression, failed]

theorem lacks_or_heads (kind : Token.Kind) (tokens : List Token) :
    Lacks kind tokens.head? ∨ ∃ token rest, tokens = token :: rest ∧ token.kind = kind := by
  cases tokens with
  | nil => exact .inl (by simp [Lacks])
  | cons token rest =>
      by_cases same : token.kind = kind
      · exact .inr ⟨token, rest, rfl, same⟩
      · refine .inl ?_
        intro next member
        cases member
        exact same

theorem lacks_or_named (tokens : List Token) :
    (Lacks .intWord tokens.head? ∧ Lacks .strWord tokens.head?) ∨
      ∃ (token : Token) (rest : List Token) (type : PrimitiveType),
        tokens = token :: rest ∧ type.NamedBy token.kind := by
  rcases lacks_or_heads .intWord tokens with noInteger | ⟨token, rest, rfl, isInteger⟩
  · rcases lacks_or_heads .strWord tokens with noString | ⟨token, rest, rfl, isString⟩
    · exact .inl ⟨noInteger, noString⟩
    · exact .inr ⟨token, rest, .string, rfl, isString ▸ .string⟩
  · exact .inr ⟨token, rest, .integer, rfl, isInteger ▸ .integer⟩

/-- Any tokens begin with the rest of a declaration, or up to a point where it is rejected. -/
theorem declaration_cases (tokens : List Token) :
    (∃ (stmt : Stmt) (written rest : List Token), tokens = written ++ rest ∧
      (∀ word : Token, word.kind = .varWord → stmt.Yields (word :: written)) ∧ stmt.Normal ∧
      Stops 1 rest.head?) ∨
    ∃ written cause rest, tokens = written ++ rest ∧
      DeclarationRejected written cause rest.head? := by
  rcases lacks_or_heads .identifier tokens with lacks | ⟨name, afterName, rfl, isName⟩
  · exact .inr ⟨[], _, tokens, rfl, .name lacks⟩
  rcases lacks_or_heads .colon afterName with lacks | ⟨colon, afterColon, rfl, isColon⟩
  · exact .inr ⟨[name], _, afterName, rfl, .colon (by simp [isName]) lacks⟩
  have kinds : [name, colon].map Token.kind = [.identifier, .colon] := by simp [isName, isColon]
  rcases lacks_or_heads .ptrWord afterColon with noPointer | ⟨pointer, after, rfl, isPointer⟩
  case inr => exact .inr ⟨[name, colon], _, pointer :: after, rfl, .pointer kinds isPointer⟩
  rcases lacks_or_named afterColon with ⟨noInteger, noString⟩ | ⟨named, afterType, type, rfl, isType⟩
  · exact .inr ⟨[name, colon], _, afterColon, rfl, .type kinds noPointer noInteger noString⟩
  rcases lacks_or_heads .equal afterType with lacks | ⟨equal, afterEqual, rfl, isEqual⟩
  · exact .inr ⟨[name, colon, named], _, afterType, rfl,
      .equal (by simp [isName, isColon]) isType lacks⟩
  cases value : expression.run afterEqual with
  | error fault =>
      obtain ⟨written, rfl, _, pending, missing⟩ := exact_equality.refused value
      have heads : Heads ([name, colon, named, equal].map Token.kind) := by
        simp only [List.map_cons, List.map_nil, isName, isColon, isEqual]
        exact .heads isType
      exact .inr ⟨[name, colon, named, equal] ++ written, _, fault.rest, rfl,
        .value heads pending missing⟩
  | ok read =>
      obtain ⟨initializer, rest⟩ := read
      obtain ⟨written, rfl, yields, normal, _, stops⟩ := exact_equality.accepted value
      exact .inl ⟨_, name :: colon :: named :: equal :: written, rest, rfl,
        fun word isWord =>
          .declaration isWord isName name.hasContent_content isColon isType isEqual yields,
        .declaration isType.integer_or_string normal, stops⟩

/-! ## Statements -/

theorem run_statement_of_var {word : Token} (rest : List Token) (isWord : word.kind = .varWord) :
    statement.run (word :: rest) = declaration.run rest := by
  simp only [Reader.run, statement, isWord, if_true]
  cases declaration rest <;> rfl

theorem statement_accepts {stmt : Stmt} {written : List Token} (rest : List Token)
    (yields : stmt.Yields written) (normal : stmt.Normal) (stops : Stops 1 rest.head?) :
    statement.run (written ++ rest) = .ok (stmt, rest) := by
  have whole := yields
  cases yields with
  | declaration isWord =>
      rw [List.cons_append, run_statement_of_var _ isWord]
      exact declaration_accepts rest whole normal stops

theorem statement_refuses {written rest : List Token} {cause : SyntaxFault}
    (rejected : Rejected written cause rest.head?) :
    statement.run (written ++ rest) = .error ⟨cause, rest⟩ := by
  generalize following : rest.head? = next at rejected
  cases rejected with
  | @reserved token feature reserved =>
      obtain ⟨after, rfl⟩ := List.head?_eq_some_iff.mp following
      have notVar : token.kind ≠ .varWord := by
        intro isVar
        rw [isVar] at reserved
        cases reserved
      simp [Reader.run, statement, notVar, reserved]
  | unknown other =>
      rw [← following] at other
      cases rest with
      | nil => rfl
      | cons token after =>
          obtain ⟨notVar, notReserved⟩ := other token rfl
          simp [Reader.run, statement, notVar, notReserved]
  | declaration isWord rejected =>
      rw [← following] at rejected
      rw [List.cons_append, run_statement_of_var _ isWord]
      exact declaration_refuses rejected

/-- Any tokens begin with a statement, or up to a point where it is rejected. -/
theorem statement_cases (tokens : List Token) :
    (∃ (stmt : Stmt) (written rest : List Token), tokens = written ++ rest ∧
      stmt.Yields written ∧ stmt.Normal ∧ Stops 1 rest.head?) ∨
    ∃ written cause rest, tokens = written ++ rest ∧ Rejected written cause rest.head? := by
  cases tokens with
  | nil => exact .inr ⟨[], _, [], rfl, .unknown (by simp)⟩
  | cons token rest =>
      by_cases isVar : token.kind = .varWord
      · rcases declaration_cases rest with
          ⟨stmt, written, rest, rfl, yields, normal, stops⟩ | ⟨written, cause, rest, rfl, rejected⟩
        · exact .inl ⟨stmt, token :: written, rest, rfl, yields token isVar, normal, stops⟩
        · exact .inr ⟨token :: written, cause, rest, rfl, .declaration isVar rejected⟩
      · cases reserved : reservedFeature? token.kind with
        | some feature => exact .inr ⟨[], _, token :: rest, rfl, .reserved reserved⟩
        | none =>
            refine .inr ⟨[], _, token :: rest, rfl, .unknown ?_⟩
            intro next member
            cases member
            exact ⟨isVar, reserved⟩

theorem statement_accepted {tokens rest : List Token} {stmt : Stmt}
    (result : statement.run tokens = .ok (stmt, rest)) :
    ∃ written, tokens = written ++ rest ∧ stmt.Yields written ∧ stmt.Normal ∧
      Stops 1 rest.head? := by
  rcases statement_cases tokens with
    ⟨other, written, after, rfl, yields, normal, stops⟩ | ⟨written, cause, after, rfl, rejected⟩
  · rw [statement_accepts after yields normal stops] at result
    cases result
    exact ⟨written, rfl, yields, normal, stops⟩
  · rw [statement_refuses rejected] at result
    cases result

theorem statement_refused {tokens : List Token} {fault : Fault}
    (result : statement.run tokens = .error fault) :
    ∃ written, tokens = written ++ fault.rest ∧ Rejected written fault.cause fault.rest.head? := by
  rcases statement_cases tokens with
    ⟨other, written, after, rfl, yields, normal, stops⟩ | ⟨written, cause, after, rfl, rejected⟩
  · rw [statement_accepts after yields normal stops] at result
    cases result
  · rw [statement_refuses rejected] at result
    cases result
    exact ⟨written, rfl, rejected⟩

end LuneSyntax.Grammar
