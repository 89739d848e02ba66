import LuneSyntax.Proofs.Analysis.LayoutFreedom
import LuneSyntax.Proofs.Analysis.Located
import LuneSyntax.Proofs.Analysis.Proper
import LuneSyntax.Proofs.Grammar.CorrectPrefix

/-!
# Tokens that are parsed again

An analysis may hand out its tokens without the line breaks, although it has parsed them with
them. The statements do not depend on that: no statement goes on behind a line break, and none
begins with a token that could go on with the one in front.
-/

set_option autoImplicit false

namespace LuneSyntax

/-- All line breaks lie between statements, so that they can be left out together. -/
theorem Grammar.Yields.filter_newlines {statements : List Stmt} {written : List Token}
    (yields : Yields statements written) (normal : ∀ stmt ∈ statements, stmt.Normal) :
    Yields statements (written.filter fun token => token.kind ≠ .newline) := by
  induction yields with
  | nil => exact .nil
  | newline isNewline _ ih =>
      rw [List.filter_cons_of_neg (by simp [isNewline])]
      exact ih normal
  | @statement stmt statements first written firstYields _ ih =>
      obtain ⟨firstNormal, othersNormal⟩ := List.forall_mem_cons.mp normal
      have kept : first.filter (fun token => token.kind ≠ .newline) = first := by
        refine List.filter_eq_self.mpr fun token member => decide_eq_true fun isNewline => ?_
        have inside := firstYields.not_separates firstNormal member
        rw [isNewline] at inside
        cases inside
      rw [List.filter_append, kept]
      exact .statement firstYields (ih othersNormal)

theorem Token.Spellable.kind_ne_endOfInput {token : Token} (spellable : token.Spellable) :
    token.kind ≠ .endOfInput := by
  intro ends
  cases spellable with
  | plain plain _ => simp [ends] at plain
  | name isName _ _ _ => simp [ends] at isName
  | integer isInteger _ _ _ => simp [ends] at isInteger
  | string isString _ => simp [ends] at isString

namespace TokenStream

theorem toList_withoutNewlines (stream : TokenStream) :
    stream.withoutNewlines.toList = stream.toList.filter fun token => token.kind ≠ .newline := by
  have kept : [stream.final].filter (fun token => token.kind ≠ .newline) = [stream.final] :=
    List.filter_cons_of_pos (by simp [stream.final_kind])
  unfold toList
  rw [List.filter_append, kept]
  rfl

/-- A stream is a program without its line breaks if it is one with them. -/
theorem parse_withoutNewlines {stream : TokenStream} {statements : List Stmt}
    (parsed : stream.parse = .ok statements) : stream.withoutNewlines.parse = .ok statements := by
  obtain ⟨written, last, rest, split, ends, yields, normal⟩ := exists_split_of_parse parsed
  have filtered : stream.withoutNewlines.toList =
      written.filter (fun token => token.kind ≠ .newline) ++
        last :: rest.filter fun token => token.kind ≠ .newline := by
    rw [toList_withoutNewlines, split, List.filter_append,
      List.filter_cons_of_pos (by simp [ends])]
  exact parse_of_split filtered ends (yields.filter_newlines normal) normal

end TokenStream

namespace Analysis

/-- An analysis hands out the tokens of a scan, with or without the line breaks, and these are
parsed to the statements that it hands out. -/
structure HandsOut (analysis : Analysis) (keepNewlines : Bool) (stream : TokenStream)
    (statements : List Stmt) : Prop where
  tokens_eq : analysis.tokens.toList =
    if keepNewlines then stream.toList
    else stream.toList.filter fun token => token.kind ≠ .newline
  only_end : ∀ token ∈ analysis.tokens.body, token.kind ≠ .endOfInput
  statements_eq : analysis.statements = statements
  parsed_again : analysis.tokens.parse = .ok statements

/-- The failures of a source: that of its scan, or a fault of its syntax at one of the tokens of
the scan, under the index that it has among all of them. -/
inductive FailsWith (policy : UnknownPolicy) (source : List Char) : Failure → Prop where
  | lexical {failure : ScanFailure} :
      scan policy source = .error failure → FailsWith policy source failure.failure
  | syntactic {stream : TokenStream} {fault : SyntaxFault} {index : Nat} {token : Token} :
      scan policy source = .ok stream → stream.toList[index]? = some token →
      stream.parse = .error (.syntactic fault index token) →
      FailsWith policy source (.diagnosed (.syntactic fault index token))

variable {policy : UnknownPolicy} {source : List Char}

theorem handsOut_of_scan {stream : TokenStream} {statements : List Stmt}
    (scanned : scan policy source = .ok stream) (parsed : stream.parse = .ok statements)
    (name : String) (keepNewlines : Bool) :
    ∃ analysis, (ofSource ⟨policy, keepNewlines⟩ name source).outcome = .ok analysis ∧
      analysis.name = name ∧ analysis.HandsOut keepNewlines stream statements := by
  have outcome : (lex policy source).outcome = .ok stream := scanned
  have unended : ∀ token ∈ stream.body, token.kind ≠ .endOfInput :=
    fun token member => ((spellable_of_scan scanned).1 token member).kind_ne_endOfInput
  simp only [ofSource, outcome, parsed]
  refine ⟨_, rfl, rfl, ?_⟩
  cases keepNewlines with
  | true => exact ⟨rfl, unended, rfl, parsed⟩
  | false =>
      refine ⟨stream.toList_withoutNewlines, ?_, rfl, TokenStream.parse_withoutNewlines parsed⟩
      exact fun token member => unended token (List.mem_of_mem_filter member)

theorem failsWith_of_parseSource {failure : Failure}
    (failed : parseSource policy source = .error failure) : FailsWith policy source failure := by
  rcases scan_or_parse_of_parseSource failed with
    ⟨cause, scanFailed, rfl⟩ | ⟨stream, diagnostic, scanned, rejected, rfl⟩
  · exact .lexical scanFailed
  · obtain ⟨fault, index, token, found, rfl⟩ := TokenStream.exists_token_of_parse rejected
    exact .syntactic scanned found rejected

/-- Whether line breaks are kept decides only whether they are among the tokens that an analysis
hands out. Both times these are parsed to its statements, and both times it fails alike. -/
theorem ofSource_parsed_again (policy : UnknownPolicy) (name : String) (source : List Char) :
    (∃ stream statements, scan policy source = .ok stream ∧
      parseSource policy source = .ok statements ∧
      ∀ keepNewlines, ∃ analysis,
        (ofSource ⟨policy, keepNewlines⟩ name source).outcome = .ok analysis ∧
        analysis.name = name ∧ analysis.HandsOut keepNewlines stream statements) ∨
    ∃ failure, parseSource policy source = .error failure ∧ FailsWith policy source failure ∧
      ∀ keepNewlines, (ofSource ⟨policy, keepNewlines⟩ name source).outcome = .error failure := by
  cases result : parseSource policy source with
  | ok statements =>
      obtain ⟨stream, scanned, spelled⟩ := parseSource_eq_ok_iff.mp result
      have parsed := TokenStream.parse_eq_ok_iff_spelled.mpr spelled
      exact .inl ⟨stream, statements, scanned, rfl, handsOut_of_scan scanned parsed name⟩
  | error failure =>
      refine .inr ⟨failure, rfl, failsWith_of_parseSource result, fun keepNewlines => ?_⟩
      exact ofSource_eq_error_iff.mpr result

end Analysis

end LuneSyntax
