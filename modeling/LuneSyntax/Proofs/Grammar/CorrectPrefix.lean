import LuneSyntax.Proofs.Grammar.Program

/-!
# The correct prefix property

A parse fails at the first token that cannot go on: the tokens before it can be completed to a
program, and neither the failure nor a success depends on anything behind the tokens looked at.
-/

set_option autoImplicit false

namespace LuneSyntax.Grammar

/-- Where and why a program fails: behind complete statements, in or before the next one. -/
inductive ProgramRejected : List Token → SyntaxFault → Option Token → Prop where
  | statement {written : List Token} {cause : SyntaxFault} {next : Option Token} :
      Rejected written cause next →
      (∃ token ∈ written.head?.or next, token.kind ≠ .newline ∧ token.kind ≠ .endOfInput) →
      ProgramRejected written cause next
  | newline {token : Token} {written : List Token} {cause : SyntaxFault} {next : Option Token} :
      token.kind = .newline → ProgramRejected written cause next →
      ProgramRejected (token :: written) cause next
  | behind {stmt : Stmt} {first written : List Token} {cause : SyntaxFault}
      {next : Option Token} :
      stmt.Yields first → stmt.Normal → Stops 1 (written.head?.or next) →
      ProgramRejected written cause next → ProgramRejected (first ++ written) cause next

theorem program_refused {tokens : List Token} {fault : Fault}
    (result : program tokens = .error fault) :
    ∃ written, tokens = written ++ fault.rest ∧
      ProgramRejected written fault.cause fault.rest.head? := by
  fun_induction program tokens generalizing fault with
  | case1 => cases result
  | case2 token following isNewline ih =>
      obtain ⟨written, split, rejected⟩ := ih result
      exact ⟨token :: written, by rw [split]; rfl, .newline isNewline rejected⟩
  | case3 => cases result
  | case4 token following notNewline notEnd found failed =>
      cases result
      obtain ⟨written, split, rejected⟩ := statement_refused (run_of_error failed)
      refine ⟨written, split, .statement rejected ⟨token, ?_, notNewline, notEnd⟩⟩
      rw [← List.head?_append, ← split]
      rfl
  | case5 token following _ _ phrase read found failed ih =>
      cases result
      obtain ⟨written, split, rejected⟩ := ih failed
      obtain ⟨first, whole, yields, normal, stops⟩ := statement_accepted (run_of_ok read)
      rw [split, List.head?_append] at stops
      exact ⟨first ++ written, by rw [whole, split, List.append_assoc],
        .behind yields normal stops rejected⟩
  | case6 => cases result

theorem program_refuses {written rest : List Token} {cause : SyntaxFault}
    (rejected : ProgramRejected written cause rest.head?) :
    program (written ++ rest) = .error ⟨cause, rest⟩ := by
  generalize following : rest.head? = next at rejected
  induction rejected with
  | statement rejected begun =>
      rw [← following, ← List.head?_append] at begun
      rw [← following] at rejected
      exact program_of_rejected rejected begun
  | newline isNewline _ ih =>
      rw [List.cons_append, program_of_newline _ isNewline]
      exact ih following
  | @behind stmt first written _ _ yields normal stops _ ih =>
      rw [← following, ← List.head?_append] at stops
      rw [List.append_assoc, program_of_statement (statement_accepts _ yields normal stops),
        ih following]
      rfl

/-! ## Completions -/

/-- An operand that is required can be supplied by any integer literal. -/
theorem Pending.exists_yields {level : Nat} {written : List Token} (pending : Pending level written)
    (bound : level ≤ 6) {literal : Token} (isInteger : literal.kind = .integer) :
    ∃ expr : Expr, expr.Yields (written ++ [literal]) ∧ expr.Normal ∧ level ≤ expr.level := by
  induction pending with
  | start =>
      exact ⟨.integer literal.number, .integer isInteger literal.hasNumber_number, .integer, bound⟩
  | unary atMost leads _ ih =>
      obtain ⟨operand, yields, normal, level⟩ := ih (by decide)
      exact ⟨.unary _ operand, .unary yields, .unary leads normal level, atMost⟩
  | @binary _ operator left before _ atLeast positive leftNormal leftLevel leftYields _ ih =>
      have joining := operator.kind.joiningLevel_le
      obtain ⟨right, yields, normal, level⟩ := ih (by omega)
      refine ⟨.binary left operator right, ?_,
        .binary positive leftNormal normal leftLevel level, atLeast⟩
      rw [List.append_assoc, List.cons_append]
      exact .binary leftYields yields

/-- A token as it may be put in for completion. Its span and its line do not matter. -/
def filler (kind : Token.Kind) (payload : Option Payload) : Token :=
  ⟨kind, payload, 0, 0, 1⟩

/-- The end of a declaration behind its type. -/
def fillerValue : List Token :=
  [filler .equal none, filler .integer (some (.number 0))]

/-- The end of a declaration behind its name and colon. -/
def fillerType : List Token :=
  filler .intWord none :: fillerValue

theorem DeclarationRejected.exists_yields {written : List Token} {cause : SyntaxFault}
    {next : Option Token} (rejected : DeclarationRejected written cause next) {word : Token}
    (isWord : word.kind = .varWord) :
    ∃ (completion : List Token) (stmt : Stmt),
      stmt.Yields (word :: (written ++ completion)) ∧ stmt.Normal := by
  have literal : (Expr.integer 0).Yields [filler .integer (some (.number 0))] :=
    .integer rfl (.carried rfl)
  cases rejected with
  | name =>
      exact ⟨filler .identifier (some (.text "x")) :: filler .colon none :: fillerType, _,
        .declaration isWord rfl (.carried rfl) rfl .integer rfl literal,
        .declaration (.inl rfl) .integer⟩
  | colon kinds =>
      simp only [List.map_eq_cons_iff, List.map_eq_nil_iff] at kinds
      obtain ⟨name, _, rfl, isName, rfl⟩ := kinds
      exact ⟨filler .colon none :: fillerType, _,
        .declaration isWord isName name.hasContent_content rfl .integer rfl literal,
        .declaration (.inl rfl) .integer⟩
  | pointer kinds | type kinds =>
      simp only [List.map_eq_cons_iff, List.map_eq_nil_iff] at kinds
      obtain ⟨name, _, rfl, isName, colon, _, rfl, isColon, rfl⟩ := kinds
      exact ⟨fillerType, _,
        .declaration isWord isName name.hasContent_content isColon .integer rfl literal,
        .declaration (.inl rfl) .integer⟩
  | equal kinds isType =>
      simp only [List.map_eq_cons_iff, List.map_eq_nil_iff] at kinds
      obtain ⟨name, _, rfl, isName, colon, _, rfl, isColon, named, _, rfl, rfl, rfl⟩ := kinds
      exact ⟨fillerValue, _,
        .declaration isWord isName name.hasContent_content isColon isType rfl literal,
        .declaration isType.integer_or_string .integer⟩
  | @value head written _ heads pending =>
      obtain ⟨name, colon, named, equal, type, rfl, isName, isColon, isType, isEqual⟩ :=
        heads.exists_tokens
      have isInteger : (filler .integer (some (.number 0))).kind = .integer := rfl
      obtain ⟨value, yields, normal, _⟩ := pending.exists_yields (by decide) isInteger
      exact ⟨[filler .integer (some (.number 0))], _,
        .declaration isWord isName name.hasContent_content isColon isType isEqual yields,
        .declaration isType.integer_or_string normal⟩

theorem Rejected.exists_yields {written : List Token} {cause : SyntaxFault} {next : Option Token}
    (rejected : Rejected written cause next) :
    ∃ (completion : List Token) (stmt : Stmt),
      stmt.Yields (written ++ completion) ∧ stmt.Normal := by
  cases rejected with
  | declaration isWord rejected => exact rejected.exists_yields isWord
  | reserved | unknown =>
      exact ⟨filler .varWord none :: filler .identifier (some (.text "x")) ::
          filler .colon none :: fillerType, _,
        .declaration rfl rfl (.carried rfl) rfl .integer rfl (.integer rfl (.carried rfl)),
        .declaration (.inl rfl) .integer⟩

/-- The tokens before the one at fault are the beginning of a program. -/
theorem ProgramRejected.exists_yields {written : List Token} {cause : SyntaxFault}
    {next : Option Token} (rejected : ProgramRejected written cause next) :
    ∃ (completion : List Token) (statements : List Stmt),
      Yields statements (written ++ completion) ∧ ∀ stmt ∈ statements, stmt.Normal := by
  induction rejected with
  | statement rejected =>
      obtain ⟨completion, stmt, yields, normal⟩ := rejected.exists_yields
      refine ⟨completion, [stmt], ?_, by simpa using normal⟩
      have whole := Yields.statement yields .nil
      rwa [List.append_nil] at whole
  | newline isNewline _ ih =>
      obtain ⟨completion, statements, yields, normal⟩ := ih
      exact ⟨completion, statements, .newline isNewline yields, normal⟩
  | @behind stmt first written _ _ firstYields firstNormal _ _ ih =>
      obtain ⟨completion, statements, yields, normal⟩ := ih
      refine ⟨completion, stmt :: statements, ?_, ?_⟩
      · rw [List.append_assoc]
        exact .statement firstYields yields
      · intro other member
        rcases List.mem_cons.mp member with rfl | inRest
        · exact firstNormal
        · exact normal other inRest

end LuneSyntax.Grammar

namespace LuneSyntax.TokenStream

open Grammar

/-- A failed parse reports the token behind the tokens that were passed, under its index. -/
theorem exists_rejected_of_parse {stream : TokenStream} {diagnostic : Diagnostic}
    (failed : stream.parse = .error diagnostic) :
    ∃ (written : List Token) (token : Token) (rest : List Token) (cause : SyntaxFault),
      stream.toList = written ++ token :: rest ∧ ProgramRejected written cause (some token) ∧
        diagnostic = .syntactic cause written.length token := by
  unfold parse at failed
  cases result : program stream.toList with
  | ok read => simp [result] at failed
  | error fault =>
      simp only [result, Except.error.injEq] at failed
      obtain ⟨written, split, rejected⟩ := program_refused result
      obtain ⟨completion, statements, yields, normal⟩ := rejected.exists_yields
      have unended : ∀ token ∈ written, token.kind ≠ .endOfInput :=
        fun token member => yields.kind_ne_endOfInput normal (List.mem_append_left _ member)
      obtain ⟨token, rest, following⟩ := exists_cons_of_split split unended
      rw [following] at split rejected
      refine ⟨written, token, rest, fault.cause, split, rejected, ?_⟩
      rw [← failed]
      simp [Fault.diagnostic, size, split, following]

theorem exists_token_of_parse {stream : TokenStream} {diagnostic : Diagnostic}
    (failed : stream.parse = .error diagnostic) :
    ∃ (cause : SyntaxFault) (index : Nat) (token : Token),
      stream.toList[index]? = some token ∧ diagnostic = .syntactic cause index token := by
  obtain ⟨written, token, rest, cause, split, _, same⟩ := exists_rejected_of_parse failed
  refine ⟨cause, written.length, token, ?_, same⟩
  rw [split]
  simp

/-- A fault is reported against the number of tokens that have been passed. -/
theorem parse_of_refused {stream : TokenStream} {written rest : List Token} {cause : SyntaxFault}
    {token : Token} (split : stream.toList = written ++ token :: rest)
    (refused : program stream.toList = .error ⟨cause, token :: rest⟩) :
    stream.parse = .error (.syntactic cause written.length token) := by
  unfold parse
  rw [refused]
  simp [Fault.diagnostic, size, split]

theorem parse_of_rejected {stream : TokenStream} {written : List Token} {token : Token}
    {rest : List Token} {cause : SyntaxFault} (split : stream.toList = written ++ token :: rest)
    (rejected : ProgramRejected written cause (some token)) :
    stream.parse = .error (.syntactic cause written.length token) := by
  have refusal : program (written ++ token :: rest) = .error ⟨cause, token :: rest⟩ :=
    program_refuses rejected
  rw [← split] at refusal
  exact parse_of_refused split refusal

/-- Lists that agree beyond some tokens and one more both go on behind them with that one. -/
theorem exists_split_of_take_eq {tokens other written rest : List Token} {token : Token}
    {bound : Nat} (split : tokens = written ++ token :: rest)
    (agree : other.take bound = tokens.take bound) (beyond : written.length < bound) :
    ∃ following, other = written ++ token :: following := by
  obtain ⟨more, rfl⟩ : ∃ more, bound = written.length + (more + 1) :=
    ⟨bound - written.length - 1, by omega⟩
  have front : other.take (written.length + (more + 1)) = written ++ token :: rest.take more := by
    rw [agree, split, List.take_length_add_append, List.take_succ_cons]
  refine ⟨rest.take more ++ other.drop (written.length + (more + 1)), ?_⟩
  calc other
      = other.take (written.length + (more + 1)) ++ other.drop (written.length + (more + 1)) :=
        (List.take_append_drop _ _).symm
    _ = written ++ token :: (rest.take more ++ other.drop (written.length + (more + 1))) := by
        rw [front, List.append_assoc, List.cons_append]

/-- An end of the input lies behind all tokens that come before the first one. -/
theorem length_le_of_getElem? {tokens written rest : List Token} {index : Nat} {last : Token}
    (split : tokens = written ++ rest)
    (unended : ∀ token ∈ written, token.kind ≠ .endOfInput)
    (found : tokens[index]? = some last) (ends : last.kind = .endOfInput) :
    written.length ≤ index := by
  rcases Nat.lt_or_ge index written.length with inside | outside
  · rw [split, List.getElem?_append_left inside] at found
    exact absurd ends (unended last (List.mem_of_getElem? found))
  · exact outside

/-- What a failure at a token says about the tokens of a stream. -/
structure FailsAt (stream : TokenStream) (fault : SyntaxFault) (position : Nat)
    (token : Token) : Prop where
  /-- The end of the input is never passed. -/
  bounded : ∀ (index : Nat) (last : Token), stream.toList[index]? = some last →
    last.kind = .endOfInput → position ≤ index
  /-- The token that is reported is the one at the position that is reported. -/
  located : stream.toList[position]? = some token
  /-- The tokens before it can be completed to a program. -/
  viable : ∃ completion : List Token, ∀ (final : Token) (closed : final.kind = .endOfInput),
    ∃ statements,
      (TokenStream.mk (stream.toList.take position ++ completion) final closed).parse =
        .ok statements
  /-- Every stream with the same tokens up to and including it fails alike. -/
  decided : ∀ other : TokenStream,
    other.toList.take (position + 1) = stream.toList.take (position + 1) →
      other.parse = .error (.syntactic fault position token)

/-- A parse fails at the first token with which no program goes on, and it decides without the
tokens behind. A success likewise depends on nothing behind the end of the input. -/
theorem parse_prefix_correct (stream : TokenStream) :
    (∀ diagnostic, stream.parse = .error diagnostic →
      ∃ (fault : SyntaxFault) (position : Nat) (token : Token),
        diagnostic = .syntactic fault position token ∧ FailsAt stream fault position token) ∧
    ∀ statements, stream.parse = .ok statements →
      ∀ (index : Nat) (last : Token), stream.toList[index]? = some last →
        last.kind = .endOfInput → ∀ other : TokenStream,
          other.toList.take (index + 1) = stream.toList.take (index + 1) →
            other.parse = .ok statements := by
  constructor
  · intro diagnostic failed
    obtain ⟨written, token, rest, cause, split, rejected, rfl⟩ := exists_rejected_of_parse failed
    obtain ⟨completion, statements, yields, normal⟩ := rejected.exists_yields
    refine ⟨cause, written.length, token, rfl, ?_, ?_, ?_, ?_⟩
    · intro index last found ends
      exact length_le_of_getElem? split
        (fun _ member => yields.kind_ne_endOfInput normal (List.mem_append_left _ member))
        found ends
    · rw [split]
      simp
    · refine ⟨completion, fun final closed => ⟨statements, ?_⟩⟩
      refine parse_of_split rfl closed ?_ normal
      rwa [split, List.take_left]
    · intro other agree
      obtain ⟨following, same⟩ := exists_split_of_take_eq split agree (Nat.lt_succ_self _)
      exact parse_of_rejected same rejected
  · intro statements parsed index last found ends other agree
    obtain ⟨written, first, rest, split, firstEnds, yields, normal⟩ :=
      exists_split_of_parse parsed
    have reached := length_le_of_getElem? split
      (fun _ member => yields.kind_ne_endOfInput normal member) found ends
    obtain ⟨following, same⟩ := exists_split_of_take_eq split agree (Nat.lt_succ_of_le reached)
    exact parse_of_split same firstEnds yields normal

/-- A literal where the name of a variable should stand. -/
theorem parse_prefix_correct_missing_name :
    let literal : Token := ⟨.integer, some (.number 1), 4, 5, 1⟩
    let stream : TokenStream :=
      ⟨[⟨.varWord, none, 0, 3, 1⟩, literal], ⟨.endOfInput, none, 5, 5, 1⟩, rfl⟩
    stream.parse = .error (.syntactic (.missingToken "variable name") 1 literal) ∧
      FailsAt stream (.missingToken "variable name") 1 literal := by
  intro literal stream
  have failed : stream.parse = .error (.syntactic (.missingToken "variable name") 1 literal) := by
    cbv
  refine ⟨failed, ?_⟩
  obtain ⟨fault, position, token, same, fails⟩ := (parse_prefix_correct stream).1 _ failed
  obtain ⟨rfl, located, rfl⟩ := Diagnostic.syntactic.inj same
  rwa [Int.ofNat_inj.mp located]

end LuneSyntax.TokenStream
