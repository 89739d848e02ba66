import LuneSyntax.Proofs.Analysis.LineNumbers
import LuneSyntax.Proofs.Analysis.Proper

/-!
# Writing what a source holds

Only numbers of limited length are written, so that a fault may be raised without its diagnostic
and a tree may not be printed. This does not happen to what comes from a source, unless the source
is too long for its size to be written: places, lines and indices do not exceed the size, and the
numbers of tokens are small.
-/

set_option autoImplicit false

namespace LuneSyntax

open Numeral

theorem Numeral.isWritable_of_le_largestInteger {number : Int} (natural : 0 ≤ number)
    (small : number ≤ largestInteger) : IsWritable number := by
  have few : 10 ≤ digitLimit := by decide
  have fits : largestInteger < Nat.pow 10 10 := by decide
  apply isWritable_of_lt_pow few
  omega

/-! ## Tokens -/

theorem Token.Spellable.isWritable_textNumbers {token : Token} (spellable : token.Spellable) :
    ∀ number ∈ token.textNumbers, IsWritable number := by
  unfold Token.textNumbers
  cases spellable with
  | name _ payload _ _ =>
      rw [payload]
      exact List.forall_mem_nil _
  | integer _ payload natural small =>
      rw [payload]
      exact List.forall_mem_singleton.mpr (isWritable_of_le_largestInteger natural small)
  | string _ payload =>
      rw [payload]
      exact List.forall_mem_nil _
  | plain _ payload =>
      rw [payload]
      exact List.forall_mem_nil _

theorem Token.HasNumber.isWritable {token : Token} {value : Int} (has : token.HasNumber value)
    (short : ∀ number ∈ token.textNumbers, IsWritable number) : IsWritable value := by
  cases has with
  | carried payload =>
      rw [Token.textNumbers, payload] at short
      exact short value (List.mem_singleton_self value)
  | missing _ => exact isWritable_of_le_largestInteger (Int.le_refl 0) (Int.natCast_nonneg _)

theorem Lexeme.length_tokensFrom_le (place : Place) (lexemes : List Lexeme) :
    (tokensFrom place lexemes).length ≤ (textOf lexemes).length := by
  induction lexemes generalizing place with
  | nil => exact Nat.le_refl 0
  | cons lexeme lexemes ih =>
      have single : (lexeme.token? place).toList.length ≤ 1 := by
        cases lexeme.token? place <;> simp
      have nonempty : 1 ≤ lexeme.text.length := Nat.le_add_left 1 lexeme.more.length
      have others := ih (place.after lexeme.text)
      rw [textOf, List.flatMap_cons, ← textOf, tokensFrom, List.length_append, List.length_append]
      omega

/-! ## Trees -/

section Trees

variable {written : List Token}

theorem Expr.Yields.isWritable_numbers {expr : Expr} (yields : expr.Yields written)
    (short : ∀ token ∈ written, ∀ number ∈ token.textNumbers, IsWritable number) :
    ∀ number ∈ expr.numbers Token.textNumbers, IsWritable number := by
  induction yields with
  | integer _ has =>
      exact List.forall_mem_singleton.mpr (has.isWritable (List.forall_mem_singleton.mp short))
  | string => exact List.forall_mem_nil _
  | unary _ ih =>
      obtain ⟨operator, behind⟩ := List.forall_mem_cons.mp short
      exact List.forall_mem_append.mpr ⟨operator, ih behind⟩
  | binary _ _ leftIH rightIH =>
      obtain ⟨before, operator, after⟩ :=
        (List.forall_mem_append.mp short).imp_right List.forall_mem_cons.mp
      refine List.forall_mem_append.mpr ⟨?_, rightIH after⟩
      exact List.forall_mem_append.mpr ⟨leftIH before, operator⟩

theorem Stmt.Yields.isWritable_numbers {stmt : Stmt} (yields : stmt.Yields written)
    (short : ∀ token ∈ written, ∀ number ∈ token.textNumbers, IsWritable number) :
    ∀ number ∈ stmt.numbers Token.textNumbers, IsWritable number := by
  cases yields with
  | declaration _ _ _ _ _ _ value =>
      simp only [List.forall_mem_cons] at short
      obtain ⟨_, _, _, _, _, inValue⟩ := short
      exact value.isWritable_numbers inValue

theorem Grammar.Yields.isWritable_numbers {statements : List Stmt}
    (yields : Yields statements written)
    (short : ∀ token ∈ written, ∀ number ∈ token.textNumbers, IsWritable number) :
    ∀ stmt ∈ statements, ∀ number ∈ stmt.numbers Token.textNumbers, IsWritable number := by
  induction yields with
  | nil => exact List.forall_mem_nil _
  | newline _ _ ih => exact ih (List.forall_mem_cons.mp short).2
  | statement first _ ih =>
      obtain ⟨before, behind⟩ := List.forall_mem_append.mp short
      exact List.forall_mem_cons.mpr ⟨first.isWritable_numbers before, ih behind⟩

end Trees

/-! ## Scans -/

section Sources

variable {policy : UnknownPolicy} {source : List Char}

theorem OnLine.isWritable {offset line : Int} (onLine : OnLine source offset line)
    (short : source.length + 1 < leastOverlong) : IsWritable offset ∧ IsWritable line := by
  obtain ⟨position, rfl, within, rfl⟩ := onLine
  have breaks : (source.take position).count '\n' ≤ source.length :=
    ((List.take_sublist position source).count_le '\n').trans List.count_le_length
  rw [isWritable_natCast_iff, isWritable_natCast_iff, lineAt]
  omega

theorem length_body_le_of_scan {stream : TokenStream} (scanned : scan policy source = .ok stream) :
    stream.body.length ≤ source.length := by
  obtain ⟨sound, rfl⟩ := scan_eq_ok_iff.mp scanned
  have covered := Lexeme.length_tokensFrom_le .start (lex policy source).lexemes
  rwa [textOf_lex_of_sound sound] at covered

theorem isWritable_textNumbers_of_scan {stream : TokenStream} {token : Token}
    (scanned : scan policy source = .ok stream) (member : token ∈ stream.toList) :
    ∀ number ∈ token.textNumbers, IsWritable number := by
  rcases spellable_or_bare_of_scan scanned member with spellable | bare
  · exact spellable.isWritable_textNumbers
  · rw [Token.textNumbers, bare]
    exact List.forall_mem_nil _

theorem isWritable_displayNumbers_of_scan {stream : TokenStream} {token : Token}
    (short : source.length + 1 < leastOverlong) (scanned : scan policy source = .ok stream)
    (member : token ∈ stream.toList) : ∀ number ∈ token.displayNumbers, IsWritable number := by
  have line := ((onLine_of_scan scanned member).isWritable short).2
  exact List.forall_mem_append.mpr
    ⟨isWritable_textNumbers_of_scan scanned member, List.forall_mem_singleton.mpr line⟩

theorem display?_of_scan {stream : TokenStream} {token : Token}
    (short : source.length + 1 < leastOverlong) (scanned : scan policy source = .ok stream)
    (member : token ∈ stream.toList) : token.display? = some token.display :=
  if_pos (isWritable_displayNumbers_of_scan short scanned member)

/-! ## Results -/

/-- A source of any length can be printed when it can be parsed. -/
theorem write_of_parseSource {statements : List Stmt}
    (parsed : parseSource policy source = .ok statements) :
    SExpression.write (statements.map .statement) =
      (SExpression.printProgram statements).mapError .unprintable := by
  obtain ⟨stream, scanned, accepted⟩ := parseSource_eq_ok_iff_parse.mp parsed
  obtain ⟨written, last, rest, split, _, yields, _⟩ := TokenStream.exists_split_of_parse accepted
  apply if_pos
  intro number member
  obtain ⟨node, listed, inNode⟩ := List.mem_flatMap.mp member
  obtain ⟨stmt, inProgram, rfl⟩ := List.mem_map.mp listed
  refine yields.isWritable_numbers ?_ stmt inProgram number inNode
  intro token inWritten
  apply isWritable_textNumbers_of_scan scanned
  rw [split]
  exact List.mem_append_left _ inWritten

theorem isWritable_of_parse {stream : TokenStream} {diagnostic : Diagnostic}
    (short : source.length + 1 < leastOverlong) (scanned : scan policy source = .ok stream)
    (rejected : stream.parse = .error diagnostic) : diagnostic.IsWritable := by
  obtain ⟨fault, index, token, found, rfl⟩ := TokenStream.exists_token_of_parse rejected
  have member := List.mem_of_getElem? found
  have within := (List.getElem?_eq_some_iff.mp found).1
  have few := length_body_le_of_scan scanned
  rw [TokenStream.toList, List.length_append, List.length_singleton] at within
  have position : IsWritable index := isWritable_natCast_iff.mpr (by omega)
  exact List.forall_mem_cons.mpr
    ⟨position, isWritable_displayNumbers_of_scan short scanned member⟩

/-- A source raises the diagnostics that its parse reports. -/
theorem raised_of_parseSource {diagnostic : Diagnostic}
    (short : source.length + 1 < leastOverlong)
    (failed : parseSource policy source = .error (.diagnosed diagnostic)) :
    diagnostic.raised = .diagnostic diagnostic := by
  apply Diagnostic.raised_of_isWritable
  rcases scan_or_parse_of_parseSource failed with
    ⟨⟨cause, place⟩, scanFailed, same⟩ | ⟨stream, reported, scanned, rejected, same⟩
  · cases cause with
    | fault fault =>
        cases same
        obtain ⟨offset, line⟩ := (failsAt_of_scan scanFailed).line.isWritable short
        exact List.forall_mem_cons.mpr ⟨line, List.forall_mem_singleton.mpr offset⟩
    | tooManyDigits count => cases same
  · cases same
    exact isWritable_of_parse short scanned rejected

end Sources

end LuneSyntax
