import LuneSyntax.Grammar.Program
import LuneSyntax.Proofs.Grammar.Statement

/-!
# Parsing and writing programs

Parsing a stream and writing its statements are inverse to each other: the tokens before the end
of the input are a yield of the statements, and every yield of normal statements parses to them.
-/

set_option autoImplicit false

namespace LuneSyntax.Grammar

/-! ## What follows a statement -/

/-- No statement and no line break can be mistaken for the rest of an expression. -/
theorem Yields.stops {statements : List Stmt} {written : List Token}
    (yields : Yields statements written) {rest : List Token} (stops : Stops 1 rest.head?) :
    Stops 1 (written ++ rest).head? := by
  cases yields with
  | nil => exact stops
  | newline isNewline =>
      intro token member
      cases member
      rw [isNewline]
      decide
  | statement first =>
      obtain ⟨word, after, rfl, isWord⟩ := first.exists_word
      intro token member
      cases member
      rw [isWord]
      decide

/-! ## Programs -/

theorem program_of_newline {token : Token} (rest : List Token) (isNewline : token.kind = .newline) :
    program (token :: rest) = program rest := by
  rw [program, if_pos isNewline]

theorem program_of_end {token : Token} (rest : List Token) (isEnd : token.kind = .endOfInput) :
    program (token :: rest) = .ok ([], token :: rest) := by
  rw [program, if_neg (by rw [isEnd]; decide), if_pos isEnd]

theorem program_of_statement {tokens rest : List Token} {stmt : Stmt}
    (result : statement.run tokens = .ok (stmt, rest)) :
    program tokens = (program rest).map fun read => (stmt :: read.1, read.2) := by
  obtain ⟨written, split, yields, _, _⟩ := statement_accepted result
  obtain ⟨word, after, rfl, isWord⟩ := yields.exists_word
  obtain ⟨following, rfl⟩ : ∃ following, tokens = word :: following := ⟨after ++ rest, split⟩
  rw [program, if_neg (by rw [isWord]; decide), if_neg (by rw [isWord]; decide)]
  rw [run_eq_outcome] at result
  split
  · rename_i failed
    rw [failed] at result
    cases result
  · rename_i phrase read
    rw [read] at result
    cases result
    cases program phrase.rest <;> rfl

theorem program_of_rejected {written rest : List Token} {cause : SyntaxFault}
    (rejected : Rejected written cause rest.head?)
    (begun : ∃ token ∈ (written ++ rest).head?,
      token.kind ≠ .newline ∧ token.kind ≠ .endOfInput) :
    program (written ++ rest) = .error ⟨cause, rest⟩ := by
  have result := statement_refuses rejected
  obtain ⟨token, member, notNewline, notEnd⟩ := begun
  obtain ⟨following, split⟩ := List.head?_eq_some_iff.mp member
  rw [split] at result ⊢
  rw [program, if_neg notNewline, if_neg notEnd]
  rw [run_eq_outcome] at result
  split
  · rename_i fault failed
    rw [failed] at result
    cases result
    rfl
  · rename_i phrase read
    rw [read] at result
    cases result

/-- Written statements are passed, whatever comes behind them, unless it goes on with the last
expression. -/
theorem program_append {statements : List Stmt} {written rest : List Token}
    (yields : Yields statements written) (normal : ∀ stmt ∈ statements, stmt.Normal)
    (stops : Stops 1 rest.head?) :
    program (written ++ rest) =
      (program rest).map fun read => (statements ++ read.1, read.2) := by
  induction yields with
  | nil => cases same : program rest <;> simp [same, Except.map]
  | newline isNewline _ ih => rw [List.cons_append, program_of_newline _ isNewline, ih normal]
  | @statement stmt others first written firstYields yields ih =>
      have firstNormal := normal stmt List.mem_cons_self
      have othersNormal : ∀ other ∈ others, other.Normal :=
        fun other member => normal other (List.mem_cons_of_mem _ member)
      have read := statement_accepts (written ++ rest) firstYields firstNormal (yields.stops stops)
      rw [List.append_assoc, program_of_statement read, ih othersNormal]
      cases program rest <;> rfl

/-- A program that can be read is written with its statements, up to the end of the input. -/
theorem program_accepted {tokens rest : List Token} {statements : List Stmt}
    (result : program tokens = .ok (statements, rest)) :
    ∃ written, tokens = written ++ rest ∧ Yields statements written ∧
      (∀ stmt ∈ statements, stmt.Normal) ∧ ∀ token ∈ rest.head?, token.kind = .endOfInput := by
  fun_induction program tokens generalizing statements with
  | case1 =>
      cases result
      exact ⟨[], rfl, .nil, by simp, by simp⟩
  | case2 token following isNewline ih =>
      obtain ⟨written, rfl, yields, normal, ends⟩ := ih result
      exact ⟨token :: written, rfl, .newline isNewline yields, normal, ends⟩
  | case3 token following _ isEnd =>
      cases result
      refine ⟨[], rfl, .nil, by simp, ?_⟩
      intro next member
      cases member
      exact isEnd
  | case4 => cases result
  | case5 => cases result
  | case6 token following _ _ phrase read others remaining found ih =>
      cases result
      obtain ⟨written, split, yields, normal, ends⟩ := ih found
      obtain ⟨first, whole, firstYields, firstNormal, _⟩ := statement_accepted (run_of_ok read)
      refine ⟨first ++ written, ?_, .statement firstYields yields, ?_, ends⟩
      · rw [whole, split, List.append_assoc]
      · intro stmt member
        rcases List.mem_cons.mp member with rfl | inOthers
        · exact firstNormal
        · exact normal stmt inOthers

end LuneSyntax.Grammar

/-! ## Token streams -/

namespace LuneSyntax.TokenStream

theorem parse_eq_ok_iff {stream : TokenStream} {statements : List Stmt} :
    stream.parse = .ok statements ↔
      ∃ rest, Grammar.program stream.toList = .ok (statements, rest) := by
  unfold parse
  cases Grammar.program stream.toList with
  | error fault => simp
  | ok read =>
      obtain ⟨found, rest⟩ := read
      simp

/-- Tokens without the end of the input are never the whole stream. -/
theorem exists_cons_of_split {stream : TokenStream} {written rest : List Token}
    (split : stream.toList = written ++ rest)
    (unended : ∀ token ∈ written, token.kind ≠ .endOfInput) :
    ∃ token after, rest = token :: after := by
  cases rest with
  | cons token after => exact ⟨token, after, rfl⟩
  | nil =>
      have member : stream.final ∈ written := by
        rw [List.append_nil] at split
        rw [← split, toList]
        exact List.mem_append_right _ (List.mem_singleton_self _)
      exact absurd stream.final_kind (unended _ member)

/-- Only what comes before the first end of the input is parsed. -/
theorem exists_split_of_parse {stream : TokenStream} {statements : List Stmt}
    (parsed : stream.parse = .ok statements) :
    ∃ (written : List Token) (last : Token) (rest : List Token),
      stream.toList = written ++ last :: rest ∧ last.kind = .endOfInput ∧
        Grammar.Yields statements written ∧ ∀ stmt ∈ statements, stmt.Normal := by
  obtain ⟨rest, result⟩ := parse_eq_ok_iff.mp parsed
  obtain ⟨written, split, yields, normal, ends⟩ := Grammar.program_accepted result
  obtain ⟨last, after, rfl⟩ := exists_cons_of_split split
    fun token member => yields.kind_ne_endOfInput normal member
  exact ⟨written, last, after, split, ends last rfl, yields, normal⟩

theorem parse_of_split {stream : TokenStream} {written rest : List Token} {last : Token}
    {statements : List Stmt} (split : stream.toList = written ++ last :: rest)
    (ends : last.kind = .endOfInput) (yields : Grammar.Yields statements written)
    (normal : ∀ stmt ∈ statements, stmt.Normal) : stream.parse = .ok statements := by
  have stops : Grammar.Stops 1 (last :: rest).head? := by
    intro token member
    cases member
    rw [ends]
    decide
  refine parse_eq_ok_iff.mpr ⟨last :: rest, ?_⟩
  rw [split, Grammar.program_append yields normal stops, Grammar.program_of_end rest ends]
  simp [Except.map]

/-- The tokens before the first end of the input are a yield of the statements. -/
def Spells (stream : TokenStream) (statements : List Stmt) : Prop :=
  ∃ (written : List Token) (last : Token) (rest : List Token),
    stream.toList = written ++ last :: rest ∧ last.kind = .endOfInput ∧
      (∀ token ∈ written, token.kind ≠ .endOfInput) ∧ Grammar.Yields statements written

/-- The statements that are parsed are normal declarations, and the tokens before the end of
the input are a yield of them: none is dropped, repeated or moved. -/
theorem yields_of_parse {stream : TokenStream} {statements : List Stmt}
    (parsed : stream.parse = .ok statements) :
    (∀ stmt ∈ statements, stmt.Normal) ∧ stream.Spells statements := by
  obtain ⟨written, last, rest, split, ends, yields, normal⟩ := exists_split_of_parse parsed
  exact ⟨normal, written, last, rest, split, ends,
    fun token member => yields.kind_ne_endOfInput normal member, yields⟩

theorem yields_of_parse_product :
    let minus : Token := ⟨.minus, none, 10, 11, 1⟩
    let star : Token := ⟨.star, none, 12, 13, 1⟩
    let stream : TokenStream :=
      ⟨[⟨.varWord, none, 0, 3, 1⟩, ⟨.identifier, some (.text "n"), 4, 5, 1⟩,
        ⟨.colon, none, 5, 6, 1⟩, ⟨.intWord, none, 6, 9, 1⟩, ⟨.equal, none, 9, 10, 1⟩, minus,
        ⟨.integer, some (.number 1), 11, 12, 1⟩, star, ⟨.integer, some (.number 2), 13, 14, 1⟩,
        ⟨.newline, none, 14, 15, 1⟩], ⟨.endOfInput, none, 15, 15, 2⟩, rfl⟩
    let statements : List Stmt :=
      [.declaration "n" .integer (.binary (.unary minus (.integer 1)) star (.integer 2))]
    stream.parse = .ok statements ∧ (∀ stmt ∈ statements, stmt.Normal) ∧
      stream.Spells statements :=
  ⟨by cbv, yields_of_parse (by cbv)⟩

/-- Every list of normal declarations can be written, and however it is written, with whatever
spans, lines and line breaks, it parses to itself. -/
theorem parse_of_yields {statements : List Stmt} (normal : ∀ stmt ∈ statements, stmt.Normal) :
    (∃ written, Grammar.Yields statements written) ∧
      ∀ (written : List Token) (final : Token) (closed : final.kind = .endOfInput),
        Grammar.Yields statements written →
          (TokenStream.mk written final closed).parse = .ok statements :=
  ⟨Grammar.exists_yields normal, fun _ _ closed yields => parse_of_split rfl closed yields normal⟩

theorem parse_of_yields_product :
    let statements : List Stmt :=
      [.declaration "n" .integer
        (.binary (.unary ⟨.minus, none, 10, 11, 1⟩ (.integer 1)) ⟨.star, none, 12, 13, 1⟩
          (.integer 2))]
    (∀ stmt ∈ statements, stmt.Normal) ∧
      (∃ written, Grammar.Yields statements written) ∧
      ∀ (written : List Token) (final : Token) (closed : final.kind = .endOfInput),
        Grammar.Yields statements written →
          (TokenStream.mk written final closed).parse = .ok statements := by
  intro statements
  have normal : ∀ stmt ∈ statements, stmt.Normal := by
    intro stmt member
    rw [List.mem_singleton.mp member]
    exact .declaration (.inl rfl) (.binary (by decide) (.unary .minus .integer (by decide))
      .integer (by decide) (by decide))
  exact ⟨normal, parse_of_yields normal⟩

end LuneSyntax.TokenStream
