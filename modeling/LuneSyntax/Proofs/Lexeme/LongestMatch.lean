import LuneSyntax.Proofs.Lexeme.Reading

/-!
# Longest match

A source that is scanned is cut into lexemes without gap or overlap, each of exactly one shape
in front of the next ones, and its tokens are those of the lexemes, at the places where these
stand.
-/

set_option autoImplicit false

namespace LuneSyntax

namespace Lexeme

theorem segment_of_readUnder {policy : UnknownPolicy} {first : Char} {rest : List Char}
    {lexeme : Lexeme} (found : readUnder policy first rest = .ok lexeme) :
    Segment policy lexeme (rest.drop lexeme.more.length) := by
  obtain ⟨read, admitted⟩ := read_of_readUnder found
  rcases read_matches read with ⟨shape, fits⟩ | ⟨rfl, nothing⟩
  · exact .inl ⟨shape, fits, fun other content otherFits => fits.unique otherFits⟩
  · exact .inr ⟨first, rfl, by simpa [admittedBy] using admitted, nothing⟩

@[simp]
theorem textOf_nil : textOf [] = [] := rfl

@[simp]
theorem textOf_cons (lexeme : Lexeme) (lexemes : List Lexeme) :
    textOf (lexeme :: lexemes) = lexeme.text ++ textOf lexemes := rfl

@[simp]
theorem textOf_append (front back : List Lexeme) :
    textOf (front ++ back) = textOf front ++ textOf back :=
  List.flatMap_append

/-! ## Places -/

/-- The token of a lexeme behind others: it starts where they end, on the line that they reach. -/
def tokenBehind? (front : List Lexeme) (lexeme : Lexeme) : Option Token :=
  let before := textOf front
  match lexeme.content with
  | .token kind payload =>
    some ⟨kind, payload, before.length, before.length + lexeme.text.length,
      1 + before.count '\n'⟩
  | .layout => none
  | .dropped => none

/-- The tokens of lexemes, each one placed by the lexemes in front of it. -/
def placed (lexemes : List Lexeme) : List Token :=
  (lexemes.inits.zip lexemes).filterMap fun entry => tokenBehind? entry.1 entry.2

theorem start_after (text : List Char) :
    Place.start.after text = ⟨text.length, 1 + text.count '\n'⟩ := by
  simp [Place.start, Place.after]

theorem token?_start_after (front : List Lexeme) (lexeme : Lexeme) :
    lexeme.token? (Place.start.after (textOf front)) = tokenBehind? front lexeme := by
  rw [start_after]
  unfold token? tokenBehind? Place.after
  cases lexeme.content <;> simp

theorem tokensFrom_start_after (front lexemes : List Lexeme) :
    tokensFrom (Place.start.after (textOf front)) lexemes =
      ((lexemes.inits.map (front ++ ·)).zip lexemes).filterMap
        fun entry => tokenBehind? entry.1 entry.2 := by
  induction lexemes generalizing front with
  | nil => rfl
  | cons lexeme lexemes ih =>
      have reached : (Place.start.after (textOf front)).after lexeme.text =
          Place.start.after (textOf (front ++ [lexeme])) := by
        simp
      have fronts : (lexeme :: lexemes).inits.map (front ++ ·) =
          front :: lexemes.inits.map (front ++ [lexeme] ++ ·) := by
        simp [Function.comp_def]
      rw [tokensFrom, reached, ih, token?_start_after, fronts, List.zip_cons_cons]
      cases result : tokenBehind? front lexeme <;> simp [result]

theorem tokensFrom_start (lexemes : List Lexeme) :
    tokensFrom .start lexemes = placed lexemes := by
  have placement := tokensFrom_start_after [] lexemes
  simpa [placed] using placement

end Lexeme

/-! ## The lexemes of a text -/

theorem exists_of_lexemes_eq_cons {policy : UnknownPolicy} {text : List Char} {lexeme : Lexeme}
    {back : List Lexeme} (cut : (lex policy text).lexemes = lexeme :: back) :
    ∃ rest, text = lexeme.text ++ rest ∧
      Lexeme.readUnder policy lexeme.first (lexeme.more ++ rest) = .ok lexeme ∧
      (lex policy rest).lexemes = back ∧ (lex policy rest).flaw = (lex policy text).flaw := by
  cases text with
  | nil =>
      rw [lex] at cut
      cases cut
  | cons first rest =>
      cases read : Lexeme.readUnder policy first rest with
      | error flaw =>
          rw [lex, read] at cut
          cases cut
      | ok head =>
          rw [lex, read] at cut ⊢
          obtain ⟨rfl, following⟩ := List.cons.inj cut
          have whole := Lexeme.text_append_of_readUnder read
          obtain ⟨first_eq, more_eq⟩ :
              head.first = first ∧ head.more ++ rest.drop head.more.length = rest :=
            List.cons.inj whole
          refine ⟨rest.drop head.more.length, whole.symm, ?_, following, rfl⟩
          rwa [first_eq, more_eq]

/-- Each lexeme is what is read in front of the following ones and of what is left unread. -/
theorem readUnder_of_lex {policy : UnknownPolicy} {text unread : List Char}
    {front back : List Lexeme} {lexeme : Lexeme}
    (split : (lex policy text).lexemes = front ++ lexeme :: back)
    (whole : Lexeme.textOf (lex policy text).lexemes ++ unread = text) :
    Lexeme.readUnder policy lexeme.first (lexeme.more ++ (Lexeme.textOf back ++ unread)) =
      .ok lexeme := by
  induction front generalizing text with
  | nil =>
      obtain ⟨rest, rfl, read, _, _⟩ := exists_of_lexemes_eq_cons split
      rw [split, List.nil_append, Lexeme.textOf_cons, List.append_assoc] at whole
      rwa [List.append_cancel_left whole]
  | cons head front ih =>
      rw [List.cons_append] at split
      obtain ⟨rest, rfl, _, following, _⟩ := exists_of_lexemes_eq_cons split
      refine ih following ?_
      rw [split, Lexeme.textOf_cons, List.append_assoc, ← following] at whole
      exact List.append_cancel_left whole

/-! ## Scans -/

theorem scan_eq_ok_iff {policy : UnknownPolicy} {source : List Char} {stream : TokenStream} :
    scan policy source = .ok stream ↔
      (lex policy source).flaw = none ∧ (lex policy source).stream = stream := by
  unfold scan Lexing.outcome
  cases (lex policy source).flaw with
  | none => simp
  | some flaw => simp

theorem textOf_lex_of_sound {policy : UnknownPolicy} {text : List Char}
    (sound : (lex policy text).flaw = none) :
    Lexeme.textOf (lex policy text).lexemes = text := by
  obtain ⟨unread, whole, complete⟩ := textOf_lex policy text
  rwa [complete sound, List.append_nil] at whole

/-- How a source and the tokens of a scan are divided into lexemes. -/
structure Tiling (policy : UnknownPolicy) (source : List Char) (stream : TokenStream) : Prop where
  /-- The lexemes cover the source without gap or overlap. -/
  covered : Lexeme.textOf (lex policy source).lexemes = source
  /-- Each lexeme is what is read at its place, and it has exactly one shape there. -/
  segmented : ∀ front lexeme back, (lex policy source).lexemes = front ++ lexeme :: back →
    lexeme.text ≠ [] ∧
      Lexeme.readUnder policy lexeme.first (lexeme.more ++ Lexeme.textOf back) = .ok lexeme ∧
      Lexeme.Segment policy lexeme (Lexeme.textOf back)
  /-- The tokens are those of the lexemes in order, and an end of the input behind them. -/
  tokens : stream.toList = Lexeme.placed (lex policy source).lexemes ++
    [⟨.endOfInput, none, source.length, source.length, 1 + source.count '\n'⟩]

/-- A source that can be scanned is cut into lexemes, each the longest one where it begins, and
the tokens of the scan are those that the lexemes contribute. -/
theorem scan_tiles {policy : UnknownPolicy} {source : List Char} {stream : TokenStream}
    (scanned : scan policy source = .ok stream) : Tiling policy source stream := by
  obtain ⟨sound, rfl⟩ := scan_eq_ok_iff.mp scanned
  have tiles := textOf_lex_of_sound sound
  refine ⟨tiles, ?_, ?_⟩
  · intro front lexeme back split
    have read := readUnder_of_lex split (by rw [tiles, List.append_nil])
    rw [List.append_nil] at read
    have segment := Lexeme.segment_of_readUnder read
    rw [List.drop_left] at segment
    exact ⟨List.cons_ne_nil _ _, read, segment⟩
  · unfold TokenStream.toList Lexing.stream Lexing.stop Lexing.tokens
    rw [Lexeme.tokensFrom_start, tiles, Lexeme.start_after]
    simp

/-- A string with an escaped quote, a dropped character and an operator of two characters. -/
theorem scan_tiles_escaped_quote :
    scan .skip ['\x22', '\\', '\x22', '\x22', '@', '+', '='] =
        .ok ⟨[⟨.string, some (.text "\""), 0, 4, 1⟩, ⟨.plusEqual, none, 5, 7, 1⟩],
          ⟨.endOfInput, none, 7, 7, 1⟩, rfl⟩ ∧
      Tiling .skip ['\x22', '\\', '\x22', '\x22', '@', '+', '=']
        ⟨[⟨.string, some (.text "\""), 0, 4, 1⟩, ⟨.plusEqual, none, 5, 7, 1⟩],
          ⟨.endOfInput, none, 7, 7, 1⟩, rfl⟩ :=
  ⟨by cbv, scan_tiles (by cbv)⟩

end LuneSyntax
