import LuneSyntax.Proofs.Lexeme.Exchange

/-!
# Boundaries

A source can be cut in front of any lexeme. The lexemes on one side of the cut are read without
those on the other side, so a lexing is put together of the lexemes in front and of the lexing of
the rest. The tokens of the rest are moved by the text in front of them.
-/

set_option autoImplicit false

namespace LuneSyntax

/-! ## Tokens of lexemes that stand behind a text -/

namespace Place

theorem after_comm (place : Place) (left right : List Char) :
    (place.after left).after right = (place.after right).after left := by
  simp [after, Nat.add_right_comm]

end Place

namespace Lexeme

theorem token?_after (lexeme : Lexeme) (place : Place) (text : List Char) :
    lexeme.token? (place.after text) =
      (lexeme.token? place).map (·.shift text.length (text.count '\n')) := by
  unfold token?
  cases lexeme.content with
  | token kind payload => simp [Place.after, Token.shift, Int.add_right_comm]
  | layout => rfl
  | dropped => rfl

theorem tokensFrom_after (place : Place) (text : List Char) (lexemes : List Lexeme) :
    tokensFrom (place.after text) lexemes =
      (tokensFrom place lexemes).map (·.shift text.length (text.count '\n')) := by
  induction lexemes generalizing place with
  | nil => rfl
  | cons lexeme lexemes ih =>
      rw [tokensFrom, tokensFrom, token?_after, Place.after_comm, ih, List.map_append]
      cases lexeme.token? place <;> rfl

@[simp]
theorem tokensFrom_append (place : Place) (front back : List Lexeme) :
    tokensFrom place (front ++ back) =
      tokensFrom place front ++ tokensFrom (place.after (textOf front)) back := by
  induction front generalizing place with
  | nil => rfl
  | cons lexeme front ih =>
      rw [List.cons_append, tokensFrom, tokensFrom, ih, textOf_cons, Place.after_append,
        List.append_assoc]

/-- A token lies in the text of the lexemes and is not empty. -/
theorem span_of_mem_tokensFrom {place : Place} {lexemes : List Lexeme} {token : Token}
    (member : token ∈ tokensFrom place lexemes) :
    (place.offset : Int) ≤ token.start ∧ token.start < token.stop ∧
      token.stop ≤ (place.after (textOf lexemes)).offset := by
  induction lexemes generalizing place with
  | nil => cases member
  | cons lexeme lexemes ih =>
      rw [textOf_cons, Place.after_append]
      rcases List.mem_append.mp member with here | behind
      · have placed : lexeme.token? place = some token := Option.mem_toList.mp here
        unfold token? at placed
        split at placed
        · cases placed
          simp only [Place.after, text, List.length_cons, Nat.cast_add]
          omega
        · cases placed
        · cases placed
      · obtain ⟨below, nonempty, above⟩ := ih behind
        refine ⟨?_, nonempty, above⟩
        simp only [Place.after, Nat.cast_add] at below
        omega

/-! ## Lexemes in front of a rest -/

/-- The lexemes are read one behind the other in front of the rest. -/
inductive Cut (policy : UnknownPolicy) (rest : List Char) : List Lexeme → Prop where
  | nil : Cut policy rest []
  | cons {lexeme : Lexeme} {lexemes : List Lexeme} :
      readUnder policy lexeme.first (lexeme.more ++ (textOf lexemes ++ rest)) = .ok lexeme →
      Cut policy rest lexemes → Cut policy rest (lexeme :: lexemes)

section Cutting

variable {policy : UnknownPolicy} {rest other : List Char} {front back : List Lexeme}

theorem Cut.append (frontCut : Cut policy (textOf back ++ rest) front)
    (backCut : Cut policy rest back) : Cut policy rest (front ++ back) := by
  induction frontCut with
  | nil => exact backCut
  | cons read _ ih =>
      rw [List.cons_append]
      refine .cons ?_ ih
      rwa [textOf_append, List.append_assoc]

theorem Cut.split (cut : Cut policy rest (front ++ back)) :
    Cut policy (textOf back ++ rest) front ∧ Cut policy rest back := by
  induction front with
  | nil => exact ⟨.nil, cut⟩
  | cons lexeme front ih =>
      rw [List.cons_append] at cut
      cases cut with
      | cons read following =>
          obtain ⟨frontCut, backCut⟩ := ih following
          rw [textOf_append, List.append_assoc] at read
          exact ⟨.cons read frontCut, backCut⟩

theorem Allows.head {lexeme : Lexeme} {lexemes : List Lexeme}
    (allows : Allows (lexeme :: lexemes) rest other) :
    Allows [lexeme] (textOf lexemes ++ rest) (textOf lexemes ++ other) := by
  cases lexemes with
  | nil => exact allows
  | cons next lexemes =>
      refine ⟨fun character member => .inl member, (fun nothing => nomatch nothing), ?_⟩
      intro behind suffix joins
      obtain ⟨before, whole⟩ := suffix
      rw [textOf_cons, textOf_nil, List.append_nil] at whole
      rw [← List.append_assoc] at joins ⊢
      refine allows.joint _ ⟨before, ?_⟩ joins
      rw [textOf_cons lexeme, ← whole, List.append_assoc, List.cons_append]

theorem Allows.tail {lexeme next : Lexeme} {lexemes : List Lexeme}
    (allows : Allows (lexeme :: next :: lexemes) rest other) :
    Allows (next :: lexemes) rest other where
  next := by
    intro character member
    have last : (textOf (lexeme :: next :: lexemes)).getLast? =
        (textOf (next :: lexemes)).getLast? := by
      rw [textOf_cons, List.getLast?_append_of_ne_nil]
      exact List.cons_ne_nil _ _
    rw [← last]
    exact allows.next character member
  comment := fun nothing last member => allows.comment nothing last (by simpa using member)
  joint := fun behind suffix => allows.joint behind (suffix.trans (List.suffix_append _ _))

/-- Lexemes stay the same in front of every rest that their text allows instead. -/
theorem Cut.exchange (cut : Cut policy rest front) (allows : Allows front rest other) :
    Cut policy other front := by
  induction cut with
  | nil => exact .nil
  | @cons lexeme lexemes read _ ih =>
      refine .cons (readUnder_exchange read allows.head) ?_
      cases lexemes with
      | nil => exact .nil
      | cons next lexemes => exact ih allows.tail

/-- What is cut off behind lexemes leaves them as they are. -/
theorem Cut.truncate (cut : Cut policy rest front) : Cut policy [] front := by
  refine cut.exchange ⟨by simp [MayFollow], fun _ _ _ _ => rfl, ?_⟩
  intro behind _ joins
  rw [List.append_nil] at joins
  exact joins.append rest

end Cutting

end Lexeme

/-! ## Lexings of a text behind lexemes -/

theorem TokenStream.toList_injective {stream other : TokenStream}
    (same : stream.toList = other.toList) : stream = other := by
  have built := congrArg ofList? same
  rw [ofList?_toList, ofList?_toList] at built
  exact Option.some.inj built

namespace Lexing

/-- The lexing with further lexemes in front. -/
def behind (lexing : Lexing) (front : List Lexeme) : Lexing :=
  ⟨front ++ lexing.lexemes, lexing.flaw⟩

@[simp]
theorem flaw_behind (lexing : Lexing) (front : List Lexeme) :
    (lexing.behind front).flaw = lexing.flaw := rfl

theorem tokens_behind (lexing : Lexing) (front : List Lexeme) :
    (lexing.behind front).tokens = Lexeme.tokensFrom .start front ++
      lexing.tokens.map (·.shift (Lexeme.textOf front).length
        ((Lexeme.textOf front).count '\n')) := by
  rw [tokens, behind, Lexeme.tokensFrom_append, Lexeme.tokensFrom_after, tokens]

theorem stop_behind (lexing : Lexing) (front : List Lexeme) :
    (lexing.behind front).stop = lexing.stop.after (Lexeme.textOf front) := by
  rw [stop, behind, Lexeme.textOf_append, Place.after_append, Place.after_comm, stop]

theorem toList_stream_behind (lexing : Lexing) (front : List Lexeme) :
    (lexing.behind front).stream.toList = Lexeme.tokensFrom .start front ++
      lexing.stream.toList.map (·.shift (Lexeme.textOf front).length
        ((Lexeme.textOf front).count '\n')) := by
  simp only [TokenStream.toList, stream, tokens_behind, stop_behind, List.map_append,
    List.append_assoc, List.map_cons, List.map_nil]
  simp [Token.shift, Place.after]

end Lexing

namespace Lexeme

variable {policy : UnknownPolicy} {rest : List Char} {front : List Lexeme}

theorem lex_of_readUnder {lexeme : Lexeme}
    (read : readUnder policy lexeme.first (lexeme.more ++ rest) = .ok lexeme) :
    lex policy (lexeme.text ++ rest) = (lex policy rest).behind [lexeme] := by
  rw [text, List.cons_append, lex, read]
  dsimp only
  rw [List.drop_left]
  rfl

theorem Cut.lex_eq (cut : Cut policy rest front) :
    lex policy (textOf front ++ rest) = (lex policy rest).behind front := by
  induction cut with
  | nil => rfl
  | cons read _ ih =>
      rw [textOf_cons, List.append_assoc, lex_of_readUnder read, ih]
      rfl

theorem Cut.lex_alone (cut : Cut policy [] front) : lex policy (textOf front) = ⟨front, none⟩ := by
  have whole := cut.lex_eq
  rw [List.append_nil, lex] at whole
  rw [whole, Lexing.behind, List.append_nil]

/-- The stream of a rest with the tokens of the lexemes in front. -/
theorem Cut.scan_ok (cut : Cut policy rest front) {back : TokenStream}
    (scanned : scan policy rest = .ok back) :
    ∃ stream, scan policy (textOf front ++ rest) = .ok stream ∧
      stream.toList = tokensFrom .start front ++
        back.toList.map (·.shift (textOf front).length ((textOf front).count '\n')) := by
  obtain ⟨sound, rfl⟩ := LuneSyntax.scan_eq_ok_iff.mp scanned
  refine ⟨((lex policy rest).behind front).stream, ?_, Lexing.toList_stream_behind _ _⟩
  rw [LuneSyntax.scan_eq_ok_iff, cut.lex_eq]
  exact ⟨sound, rfl⟩

theorem Cut.scan_eq_ok_iff (cut : Cut policy rest front) {stream : TokenStream} :
    scan policy (textOf front ++ rest) = .ok stream ↔
      ∃ back, scan policy rest = .ok back ∧
        stream.toList = tokensFrom .start front ++
          back.toList.map (·.shift (textOf front).length ((textOf front).count '\n')) := by
  constructor
  · intro scanned
    rw [LuneSyntax.scan_eq_ok_iff, cut.lex_eq, Lexing.flaw_behind] at scanned
    obtain ⟨sound, rfl⟩ := scanned
    exact ⟨_, LuneSyntax.scan_eq_ok_iff.mpr ⟨sound, rfl⟩, Lexing.toList_stream_behind _ _⟩
  · rintro ⟨back, scanned, same⟩
    obtain ⟨other, found, listed⟩ := cut.scan_ok scanned
    rw [found, TokenStream.toList_injective (same.trans listed.symm)]

end Lexeme

theorem scan_eq_error_iff {policy : UnknownPolicy} {source : List Char} {failure : ScanFailure} :
    scan policy source = .error failure ↔
      ∃ flaw, (lex policy source).flaw = some flaw ∧
        failure = ⟨flaw.cause, (lex policy source).stop⟩ := by
  unfold scan Lexing.outcome
  cases (lex policy source).flaw with
  | none => simp
  | some flaw => simp [eq_comm]

/-- The same failure, moved by a number of characters and a number of lines. -/
def ScanFailure.shift (failure : ScanFailure) (characters lines : Nat) : ScanFailure :=
  ⟨failure.cause, failure.place.offset + characters, failure.place.line + lines⟩

theorem Lexeme.Cut.scan_eq_error_iff {policy : UnknownPolicy} {rest : List Char}
    {front : List Lexeme} (cut : Cut policy rest front) {failure : ScanFailure} :
    scan policy (textOf front ++ rest) = .error failure ↔
      ∃ back, scan policy rest = .error back ∧
        failure = back.shift (textOf front).length ((textOf front).count '\n') := by
  rw [LuneSyntax.scan_eq_error_iff, cut.lex_eq, Lexing.flaw_behind, Lexing.stop_behind]
  constructor
  · rintro ⟨flaw, flawed, rfl⟩
    exact ⟨_, LuneSyntax.scan_eq_error_iff.mpr ⟨flaw, flawed, rfl⟩, rfl⟩
  · rintro ⟨back, failed, rfl⟩
    obtain ⟨flaw, flawed, rfl⟩ := LuneSyntax.scan_eq_error_iff.mp failed
    exact ⟨flaw, flawed, rfl⟩

/-! ## Boundaries -/

/-- A position where the reading of a source begins a lexeme, or at the end of the source if it
could be read: the first lexemes reach up to it. -/
def Boundary (policy : UnknownPolicy) (source : List Char) (position : Nat) : Prop :=
  ∃ front, front <+: (lex policy source).lexemes ∧ (Lexeme.textOf front).length = position

theorem Lexeme.exists_cut_of_prefix {policy : UnknownPolicy} {source : List Char}
    {front : List Lexeme} (first : front <+: (lex policy source).lexemes) :
    ∃ rest, source = textOf front ++ rest ∧ Cut policy rest front := by
  obtain ⟨back, split⟩ := first
  induction front generalizing source with
  | nil => exact ⟨source, rfl, .nil⟩
  | cons lexeme front ih =>
      obtain ⟨following, rfl, read, behind, _⟩ := exists_of_lexemes_eq_cons split.symm
      obtain ⟨rest, rfl, cut⟩ := ih behind.symm
      exact ⟨rest, (List.append_assoc _ _ _).symm, .cons read cut⟩

/-- The lexemes of a source end where nothing can be read, and what is wrong there is its flaw. -/
theorem Lexeme.exists_cut_of_lex (policy : UnknownPolicy) (source : List Char) :
    ∃ rest, source = textOf (lex policy source).lexemes ++ rest ∧
      Cut policy rest (lex policy source).lexemes ∧ (lex policy rest).lexemes = [] ∧
      (lex policy rest).flaw = (lex policy source).flaw := by
  obtain ⟨rest, split, cut⟩ := exists_cut_of_prefix (List.prefix_refl (lex policy source).lexemes)
  have whole : lex policy source = (lex policy rest).behind (lex policy source).lexemes := by
    rw [← cut.lex_eq, ← split]
  exact ⟨rest, split, cut, List.self_eq_append_right.mp (congrArg Lexing.lexemes whole),
    (congrArg Lexing.flaw whole).symm⟩

theorem boundary_iff {policy : UnknownPolicy} {source : List Char} {position : Nat} :
    Boundary policy source position ↔
      ∃ front rest, source = Lexeme.textOf front ++ rest ∧ Lexeme.Cut policy rest front ∧
        (Lexeme.textOf front).length = position := by
  constructor
  · rintro ⟨front, first, reached⟩
    obtain ⟨rest, split, cut⟩ := Lexeme.exists_cut_of_prefix first
    exact ⟨front, rest, split, cut, reached⟩
  · rintro ⟨front, rest, rfl, cut, reached⟩
    refine ⟨front, ?_, reached⟩
    rw [cut.lex_eq]
    exact List.prefix_append _ _

end LuneSyntax
