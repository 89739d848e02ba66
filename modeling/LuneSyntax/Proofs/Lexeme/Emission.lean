import LuneSyntax.Proofs.Lexeme.InsertedLayout
import LuneSyntax.Proofs.Lexeme.Limit

/-!
# Emission

A lexeme that begins at a boundary of a source and becomes a token contributes exactly one token to
the scan, and the next boundary lies behind it. The token is there even if the scan fails later on.
-/

set_option autoImplicit false

namespace LuneSyntax

/-- The line of a position: one more than the number of line feeds in front of it. -/
def lineAt (source : List Char) (position : Nat) : Nat :=
  1 + (source.take position).count '\n'

/-- The text from one boundary up to another one becomes a single token, which covers it. -/
structure Emits (policy : UnknownPolicy) (source : List Char) (start stop : Nat)
    (kind : Token.Kind) (payload : Payload) : Prop where
  opens : Boundary policy source start
  closes : Boundary policy source stop
  tokens : (lex policy source).tokens.filter
      (fun token => (start : Int) ≤ token.start ∧ token.stop ≤ (stop : Int)) =
    [⟨kind, some payload, start, stop, lineAt source start⟩]

namespace Lexeme

variable {policy : UnknownPolicy} {rest : List Char} {front : List Lexeme} {lexeme : Lexeme}

theorem Cut.append_lexeme (cut : Cut policy (lexeme.text ++ rest) front)
    (read : readUnder policy lexeme.first (lexeme.more ++ rest) = .ok lexeme) :
    Cut policy rest (front ++ [lexeme]) := by
  apply Cut.append _ (.cons read .nil)
  rwa [textOf_cons, textOf_nil, List.append_nil]

/-- The tokens that lie in the text of a lexeme are none but its own. -/
theorem Cut.filter_tokens_inside (cut : Cut policy (lexeme.text ++ rest) front)
    (read : readUnder policy lexeme.first (lexeme.more ++ rest) = .ok lexeme) :
    (lex policy (textOf front ++ (lexeme.text ++ rest))).tokens.filter
        (fun token => ((textOf front).length : Int) ≤ token.start ∧
          token.stop ≤ (((textOf front).length + lexeme.text.length : Nat) : Int)) =
      (lexeme.token? (Place.start.after (textOf front))).toList := by
  have upTo := (cut.append_lexeme read).filter_tokens
  simp only [textOf_append, textOf_cons, textOf_nil, List.append_nil, List.append_assoc,
    List.length_append, tokensFrom_append, tokensFrom] at upTo
  have before : ∀ token ∈ tokensFrom .start front,
      ¬ ((textOf front).length : Int) ≤ token.start := by
    intro token member
    obtain ⟨_, nonempty, above⟩ := span_of_mem_tokensFrom member
    rw [start_after] at above
    exact not_le.mpr (lt_of_lt_of_le nonempty above)
  have own : ∀ token ∈ (lexeme.token? (Place.start.after (textOf front))).toList,
      ((textOf front).length : Int) ≤ token.start := by
    intro token member
    rw [(content_of_token? (Option.mem_toList.mp member)).2, start_after]
  -- The upper bound keeps what ends up to the lexeme, the lower one drops what stands in front.
  simp only [Bool.decide_and, ← List.filter_filter]
  rw [upTo, List.filter_append, List.filter_eq_nil_iff.mpr (by simpa using before),
    List.filter_eq_self.mpr (by simpa using own), List.nil_append]

/-- A source that is one lexeme is scanned to its token and the end of the input. -/
theorem scan_alone (lexeme : Lexeme) {kind : Token.Kind} {payload : Payload}
    (read : readUnder policy lexeme.first lexeme.more = .ok lexeme)
    (content : lexeme.content = .token kind (some payload)) :
    ∃ stream, scan policy lexeme.text = .ok stream ∧
      stream.toList = [⟨kind, some payload, 0, lexeme.text.length, 1⟩,
        ⟨.endOfInput, none, lexeme.text.length, lexeme.text.length,
          1 + lexeme.text.count '\n'⟩] := by
  have cut : Cut policy [] [lexeme] := .cons (by rwa [textOf_nil, List.append_nil,
    List.append_nil]) .nil
  have alone := cut.lex_alone
  rw [textOf_cons, textOf_nil, List.append_nil] at alone
  refine ⟨_, scan_eq_ok_iff.mpr ⟨by rw [alone], rfl⟩, ?_⟩
  rw [alone]
  simp [TokenStream.toList, Lexing.stream, Lexing.tokens, Lexing.stop, tokensFrom, token?, content,
    Place.start, Place.after]

end Lexeme

namespace Boundary

variable {policy : UnknownPolicy} {source : List Char} {start : Nat}

theorem exists_cut (boundary : Boundary policy source start) {behind : List Char}
    (here : source.drop start = behind) :
    ∃ front, source = Lexeme.textOf front ++ behind ∧ Lexeme.Cut policy behind front ∧
      (Lexeme.textOf front).length = start := by
  obtain ⟨front, rest, rfl, cut, rfl⟩ := boundary_iff.mp boundary
  rw [List.drop_left] at here
  subst here
  exact ⟨front, rfl, cut, rfl⟩

theorem place (boundary : Boundary policy source start) :
    Place.start.after (source.take start) = ⟨start, lineAt source start⟩ := by
  obtain ⟨front, behind, rfl, _, rfl⟩ := boundary_iff.mp boundary
  rw [lineAt, List.take_left, Lexeme.start_after]

/-- A lexeme that is read at a boundary and becomes a token with a payload is emitted. -/
theorem emits (boundary : Boundary policy source start) (lexeme : Lexeme) {rest : List Char}
    {kind : Token.Kind} {payload : Payload} (here : source.drop start = lexeme.text ++ rest)
    (read : Lexeme.readUnder policy lexeme.first (lexeme.more ++ rest) = .ok lexeme)
    (content : lexeme.content = .token kind (some payload)) :
    Emits policy source start (start + lexeme.text.length) kind payload := by
  obtain ⟨front, rfl, cut, rfl⟩ := boundary.exists_cut here
  refine ⟨boundary, boundary_iff.mpr ⟨_, rest, ?_, cut.append_lexeme read, ?_⟩, ?_⟩
  · simp
  · simp
  · rw [cut.filter_tokens_inside read, Lexeme.token?, content, Lexeme.start_after, lineAt,
      List.take_left]
    rfl

end Boundary

end LuneSyntax
