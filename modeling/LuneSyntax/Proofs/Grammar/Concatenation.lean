import LuneSyntax.Proofs.Grammar.CorrectPrefix

/-!
# Concatenated programs

Tokens of a program in front of other tokens change nothing for these: their statements follow
those of the program, and a fault among them is the same one, further behind. Only a binary
operator at their beginning could still belong to the last expression in front.
-/

set_option autoImplicit false

namespace LuneSyntax

theorem Token.Kind.joiningLevel_eq_zero {kind : Kind} (apart : kind.binaryLevel? = none) :
    kind.joiningLevel = 0 := by
  revert apart
  cases kind <;> decide

namespace TokenStream

/-- A program in front of the only end of the input is read as a whole. -/
theorem yields_body_of_parse {stream : TokenStream} {statements : List Stmt}
    (unended : ∀ token ∈ stream.body, token.kind ≠ .endOfInput)
    (parsed : stream.parse = .ok statements) :
    Grammar.Yields statements stream.body ∧ ∀ stmt ∈ statements, stmt.Normal := by
  obtain ⟨written, last, rest, split, ends, yields, normal⟩ := exists_split_of_parse parsed
  have whole : written ++ last :: rest = stream.body ++ [stream.final] := split.symm
  rcases List.append_eq_append_iff.mp whole with ⟨between, body, behind⟩ | ⟨between, rfl, behind⟩
  · cases between with
    | nil =>
        rw [body, List.append_nil]
        exact ⟨yields, normal⟩
    | cons first between =>
        obtain ⟨rfl, _⟩ := List.cons.inj behind
        exact absurd ends (unended last (by simp [body]))
  · cases between with
    | nil => exact ⟨by simpa using yields, normal⟩
    | cons first between => simp at behind

/-- What begins a stream cannot go on with an expression in front, unless it is a binary
operator. -/
theorem stops_of_apart {stream : TokenStream}
    (apart : ∀ token ∈ stream.body.head?, token.kind.binaryLevel? = none) :
    Grammar.Stops 1 stream.toList.head? := by
  intro token member
  rw [toList, List.head?_append] at member
  rcases Option.or_eq_some_iff.mp member with first | ⟨_, last⟩
  · rw [Token.Kind.joiningLevel_eq_zero (apart token first)]
    exact Nat.zero_lt_one
  · obtain rfl : stream.final = token := Option.some.inj last
    rw [stream.final_kind]
    decide

/-- A program in front of further tokens does not change what is parsed behind it, as long as
these do not begin with a binary operator. Statements are added to those of the program, and a
fault is the same one at the same token, whose index counts the tokens in front. -/
theorem parse_append {front back : List Token} {last final : Token} {statements : List Stmt}
    (lastEnds : last.kind = .endOfInput) (finalEnds : final.kind = .endOfInput)
    (parsed : (TokenStream.mk front last lastEnds).parse = .ok statements)
    (unended : ∀ token ∈ front, token.kind ≠ .endOfInput)
    (apart : ∀ token ∈ back.head?, token.kind.binaryLevel? = none) :
    (∀ others, (TokenStream.mk back final finalEnds).parse = .ok others →
      (TokenStream.mk (front ++ back) final finalEnds).parse = .ok (statements ++ others)) ∧
    ∀ diagnostic, (TokenStream.mk back final finalEnds).parse = .error diagnostic →
      ∃ (fault : SyntaxFault) (position : Nat) (token : Token),
        diagnostic = .syntactic fault position token ∧
        (TokenStream.mk (front ++ back) final finalEnds).parse =
          .error (.syntactic fault (position + front.length : Nat) token) := by
  obtain ⟨yields, normal⟩ := yields_body_of_parse unended parsed
  have tokens : (TokenStream.mk (front ++ back) final finalEnds).toList =
      front ++ (TokenStream.mk back final finalEnds).toList := List.append_assoc _ _ _
  have stops : Grammar.Stops 1 (TokenStream.mk back final finalEnds).toList.head? :=
    stops_of_apart apart
  have read := Grammar.program_append yields normal stops
  rw [← tokens] at read
  constructor
  · intro others accepted
    obtain ⟨rest, backRead⟩ := parse_eq_ok_iff.mp accepted
    rw [backRead] at read
    exact parse_eq_ok_iff.mpr ⟨rest, read⟩
  · intro diagnostic failed
    obtain ⟨written, token, rest, cause, split, rejected, rfl⟩ := exists_rejected_of_parse failed
    rw [split, Grammar.program_refuses rejected] at read
    refine ⟨cause, written.length, token, rfl, ?_⟩
    rw [Nat.add_comm, ← List.length_append]
    apply parse_of_refused _ read
    rw [tokens, split, List.append_assoc]

/-- A declaration in front of a line break and another declaration, and in front of one that
ends behind its name. -/
theorem parse_append_missing_colon :
    let minus : Token := ⟨.minus, none, 10, 11, 1⟩
    let named (name : String) : List Token :=
      [⟨.varWord, none, 0, 3, 1⟩, ⟨.identifier, some (.text name), 4, 5, 1⟩]
    let valued : List Token :=
      [⟨.colon, none, 5, 6, 1⟩, ⟨.intWord, none, 6, 9, 1⟩, ⟨.equal, none, 9, 10, 1⟩, minus,
        ⟨.integer, some (.number 1), 11, 12, 1⟩]
    let final : Token := ⟨.endOfInput, none, 12, 12, 1⟩
    let statement (name : String) : Stmt :=
      .declaration name .integer (.unary minus (.integer 1))
    let front := named "a" ++ valued
    let back := ⟨.newline, none, 0, 1, 1⟩ :: named "b" ++ valued
    let broken := named "b"
    (TokenStream.mk front final rfl).parse = .ok [statement "a"] ∧
    (∀ token ∈ front, token.kind ≠ .endOfInput) ∧
    ((∀ token ∈ back.head?, token.kind.binaryLevel? = none) ∧
      (TokenStream.mk back final rfl).parse = .ok [statement "b"] ∧
      (TokenStream.mk (front ++ back) final rfl).parse = .ok [statement "a", statement "b"]) ∧
    (∀ token ∈ broken.head?, token.kind.binaryLevel? = none) ∧
      (TokenStream.mk broken final rfl).parse =
        .error (.syntactic (.missingToken "':' after variable name") 2 final) ∧
      ∃ (fault : SyntaxFault) (position : Nat) (token : Token),
        Diagnostic.syntactic (.missingToken "':' after variable name") 2 final =
          .syntactic fault position token ∧
        (TokenStream.mk (front ++ broken) final rfl).parse =
          .error (.syntactic fault (position + front.length : Nat) token) := by
  intro minus named valued final statement front back broken
  have parsed : (TokenStream.mk front final rfl).parse = .ok [statement "a"] := by cbv
  have unended : ∀ token ∈ front, token.kind ≠ .endOfInput := by decide
  have backApart : ∀ token ∈ back.head?, token.kind.binaryLevel? = none := by decide
  have brokenApart : ∀ token ∈ broken.head?, token.kind.binaryLevel? = none := by decide
  have accepted : (TokenStream.mk back final rfl).parse = .ok [statement "b"] := by cbv
  have failed : (TokenStream.mk broken final rfl).parse =
      .error (.syntactic (.missingToken "':' after variable name") 2 final) := by cbv
  exact ⟨parsed, unended,
    ⟨backApart, accepted, (parse_append rfl rfl parsed unended backApart).1 _ accepted⟩,
    brokenApart, failed, (parse_append rfl rfl parsed unended brokenApart).2 _ failed⟩

end TokenStream

end LuneSyntax
