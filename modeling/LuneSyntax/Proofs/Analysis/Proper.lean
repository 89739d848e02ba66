import LuneSyntax.Analysis.Basic
import LuneSyntax.Proofs.Lexeme.Spelling
import LuneSyntax.Proofs.Tree.SExpression

/-!
# What a source can hold

The tokens of a scan are tokens that can be spelled, so every kind of token has the payload that
belongs to it. Statements that are parsed from such tokens are proper: their operators show
themselves and their names are words.
-/

set_option autoImplicit false

namespace LuneSyntax

/-! ## Tokens -/

theorem Token.Kind.plain_of_listed {kind : Kind}
    (listed : kind ∈ words.map (·.2) ++ pairs.map (·.2) ++ singles.map (·.2)) :
    kind ∉ [.identifier, .integer, .string, .endOfInput] := by
  revert listed
  cases kind <;> decide

namespace Lexeme

theorem Word.IsWord.alone {text rest : List Char} (word : IsWord text rest) : IsWord text [] := by
  obtain ⟨first, more, rfl, start, maximal⟩ := word
  exact ⟨first, more, rfl, start, maximal.1, nofun⟩

theorem spellable_of_read {lexeme : Lexeme} {rest : List Char} {token : Token}
    (found : read lexeme.first (lexeme.more ++ rest) = .ok lexeme)
    (content : lexeme.content = .token token.kind token.payload) : token.Spellable := by
  rcases read_matches found with ⟨shape, fits⟩ | ⟨dropped, _⟩
  case inr =>
    rw [dropped] at content
    cases content
  rw [List.drop_left, content] at fits
  generalize isText : lexeme.text = text at fits
  generalize isKind : token.kind = kind at fits
  generalize isPayload : token.payload = payload at fits
  cases fits with
  | pair listed =>
      apply Token.Spellable.plain _ isPayload
      rw [isKind]
      apply Token.Kind.plain_of_listed
      exact List.mem_append_left _ (List.mem_append_right _ (List.mem_map_of_mem listed))
  | single listed _ =>
      apply Token.Spellable.plain _ isPayload
      rw [isKind]
      apply Token.Kind.plain_of_listed
      exact List.mem_append_right _ (List.mem_map_of_mem listed)
  | string _ => exact .string isKind isPayload
  | integer written =>
      rw [← isText] at written
      have fits := fits_of_read written found
      exact .integer isKind isPayload (Int.natCast_nonneg _) (Int.ofNat_le.mpr fits.small)
  | word word means =>
      cases means with
      | reserved listed =>
          apply Token.Spellable.plain _ isPayload
          rw [isKind]
          apply Token.Kind.plain_of_listed
          exact List.mem_append_left _ (List.mem_append_left _ (List.mem_map_of_mem listed))
      | name free =>
          apply Token.Spellable.name isKind isPayload
          · rw [String.toList_ofList]
            exact word.alone
          · rwa [String.toList_ofList]
  | lineFeed => exact .plain (by rw [isKind]; decide) isPayload

theorem Cut.spellable {policy : UnknownPolicy} {rest : List Char} {front : List Lexeme}
    (cut : Cut policy rest front) {place : Place} {token : Token}
    (member : token ∈ tokensFrom place front) : token.Spellable := by
  obtain ⟨before, lexeme, after, rfl, placed⟩ := exists_split_of_mem_tokensFrom member
  obtain ⟨_, behind⟩ := cut.split
  cases behind with
  | cons read _ =>
      exact spellable_of_read (read_of_readUnder read).1 (content_of_token? placed).1

end Lexeme

variable {policy : UnknownPolicy} {source : List Char} {stream : TokenStream}

/-- All tokens of a scan but the last one could be spelled, and that one has no payload. -/
theorem spellable_of_scan (scanned : scan policy source = .ok stream) :
    (∀ token ∈ stream.body, token.Spellable) ∧ stream.final.payload = none := by
  constructor
  · intro token member
    obtain ⟨front, _, cut, body⟩ := Lexeme.exists_cut_of_scan scanned
    rw [body] at member
    exact cut.spellable member
  · obtain ⟨_, rfl⟩ := scan_eq_ok_iff.mp scanned
    rfl

theorem spellable_or_bare_of_scan (scanned : scan policy source = .ok stream) {token : Token}
    (member : token ∈ stream.toList) : token.Spellable ∨ token.payload = none := by
  obtain ⟨spellable, bare⟩ := spellable_of_scan scanned
  rcases List.mem_append.mp member with inBody | last
  · exact .inl (spellable token inBody)
  · rw [List.mem_singleton.mp last]
    exact .inr bare

theorem TokenStream.mem_body {token : Token} (member : token ∈ stream.toList)
    (unended : token.kind ≠ .endOfInput) : token ∈ stream.body := by
  rcases List.mem_append.mp member with inBody | last
  · exact inBody
  · rw [List.mem_singleton.mp last] at unended
    exact absurd stream.final_kind unended

/-! ## Statements -/

theorem Token.Spellable.payload_eq_none {token : Token} (spellable : token.Spellable)
    (operates : token.kind.Leads ∨ 0 < token.kind.joiningLevel) : token.payload = none := by
  cases spellable with
  | plain _ payload => exact payload
  | name isName _ _ _ =>
      rw [isName] at operates
      rcases operates with leads | joins
      · cases leads
      · cases joins
  | integer isInteger _ _ _ =>
      rw [isInteger] at operates
      rcases operates with leads | joins
      · cases leads
      · cases joins
  | string isString _ =>
      rw [isString] at operates
      rcases operates with leads | joins
      · cases leads
      · cases joins

theorem Token.Spellable.isWord_content {token : Token} (spellable : token.Spellable)
    (isName : token.kind = .identifier) : Lexeme.Word.IsWord token.content.toList [] := by
  cases spellable with
  | name _ payload word _ =>
      rw [content, payload]
      exact word
  | integer isInteger => simp [isInteger] at isName
  | string isString => simp [isString] at isName
  | plain plain _ => simp [isName] at plain

theorem Expr.Yields.proper {expr : Expr} {written : List Token} (yields : expr.Yields written)
    (normal : expr.Normal) (spellable : ∀ token ∈ written, token.Spellable) : expr.Proper := by
  induction yields with
  | integer => exact .integer
  | string => exact .string
  | unary _ ih =>
      obtain ⟨operator, behind⟩ := List.forall_mem_cons.mp spellable
      cases normal with
      | unary leads operandNormal _ =>
          exact .unary leads (operator.payload_eq_none (.inl leads)) (ih operandNormal behind)
  | binary _ _ leftIH rightIH =>
      obtain ⟨before, operator, after⟩ :=
        (List.forall_mem_append.mp spellable).imp_right List.forall_mem_cons.mp
      cases normal with
      | binary joins leftNormal rightNormal _ _ =>
          exact .binary joins (operator.payload_eq_none (.inr joins))
            (leftIH leftNormal before) (rightIH rightNormal after)

theorem Stmt.Yields.proper {stmt : Stmt} {written : List Token} (yields : stmt.Yields written)
    (normal : stmt.Normal) (spellable : ∀ token ∈ written, token.Spellable) : stmt.Proper := by
  cases yields with
  | declaration _ isName named _ _ _ value =>
      cases normal with
      | declaration _ initializer =>
          simp only [List.forall_mem_cons] at spellable
          obtain ⟨_, name, _, _, _, inValue⟩ := spellable
          rw [← named.content_eq]
          exact .declaration (name.isWord_content isName) (value.proper initializer inValue)

theorem Grammar.Yields.proper {statements : List Stmt} {written : List Token}
    (yields : Yields statements written) (normal : ∀ stmt ∈ statements, stmt.Normal)
    (spellable : ∀ token ∈ written, token.Spellable) : ∀ stmt ∈ statements, stmt.Proper := by
  induction yields with
  | nil => exact List.forall_mem_nil _
  | newline _ _ ih => exact ih normal (List.forall_mem_cons.mp spellable).2
  | statement first _ ih =>
      obtain ⟨firstNormal, othersNormal⟩ := List.forall_mem_cons.mp normal
      obtain ⟨before, behind⟩ := List.forall_mem_append.mp spellable
      exact List.forall_mem_cons.mpr ⟨first.proper firstNormal before, ih othersNormal behind⟩

theorem proper_of_parse {statements : List Stmt} (scanned : scan policy source = .ok stream)
    (parsed : stream.parse = .ok statements) : ∀ stmt ∈ statements, stmt.Proper := by
  obtain ⟨written, last, rest, split, _, yields, normal⟩ :=
    TokenStream.exists_split_of_parse parsed
  apply yields.proper normal
  intro token member
  apply (spellable_of_scan scanned).1
  apply TokenStream.mem_body _ (yields.kind_ne_endOfInput normal member)
  rw [split]
  exact List.mem_append_left _ member

end LuneSyntax
