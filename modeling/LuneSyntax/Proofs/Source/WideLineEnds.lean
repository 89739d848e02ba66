import LuneSyntax.Proofs.Lexeme.WideLineEnds

/-!
# Scans with wide line ends

A source is scanned alike whether its lines end with line feeds alone or with a carriage return in
front of each. Every place moves by the number of line ends in front of it, and a string that goes
over several lines keeps the returns in its value.
-/

set_option autoImplicit false

namespace LuneSyntax

open LineBreak (widen)

/-! ## Places -/

/-- Where an offset of the source lies when all its line ends are wide. -/
def LineBreak.widenedOffset (source : List Char) (offset : Nat) : Nat :=
  offset + (source.take offset).count '\n'

theorem LineBreak.widenedOffset_append (front back : List Char) :
    widenedOffset (front ++ back) front.length = (widen front).length := by
  rw [widenedOffset, List.take_left, length_widen]

theorem Place.after_widen (text : List Char) :
    start.after (widen text) = ⟨(widen text).length, (start.after text).line⟩ := by
  rw [Lexeme.start_after, Lexeme.start_after, LineBreak.count_widen]

/-- A token of a source, and what becomes of it when all line ends of the source are wide. In the
value of a string, the line feeds that are written as such become wide line ends. -/
structure Token.Widens (source : List Char) (token other : Token) : Prop where
  kind : other.kind = token.kind
  line : other.line = token.line
  payload : token.kind ≠ .string → other.payload = token.payload
  value : token.kind = .string → ∃ pieces,
    Lexeme.StringLiteral.pieces? (source.drop (token.start.toNat + 1)) = some pieces ∧
      token.payload =
        some (.text (String.ofList (Lexeme.StringLiteral.meaning pieces))) ∧
      other.payload = some (.text (String.ofList (Lexeme.StringLiteral.meaning
        (Lexeme.StringLiteral.widenPieces pieces))))
  start : other.start = LineBreak.widenedOffset source token.start.toNat +
    if token.kind = .newline then 1 else 0
  stop : other.stop = LineBreak.widenedOffset source token.stop.toNat

namespace Lexeme

variable {policy : UnknownPolicy} {rest : List Char} {lexeme : Lexeme} {others : List Lexeme}
  {front : List Lexeme}

/-! ## Tokens -/

/-- A token other than that of a line feed goes from where its lexeme begins to where it ends, and
so does what becomes of it. -/
theorem forall₂_widens_token? {other : Lexeme} {kind : Token.Kind}
    {payload otherPayload : Option Payload} (content : lexeme.content = .token kind payload)
    (otherContent : other.content = .token kind otherPayload)
    (covered : other.text = widen lexeme.text) (different : kind ≠ .newline)
    (payloads : kind ≠ .string → otherPayload = payload)
    (values : kind = .string → ∃ pieces,
      StringLiteral.pieces? (lexeme.more ++ rest) = some pieces ∧
        payload = some (.text (String.ofList (StringLiteral.meaning pieces))) ∧
        otherPayload = some (.text (String.ofList
          (StringLiteral.meaning (StringLiteral.widenPieces pieces)))))
    (before : List Char) :
    List.Forall₂ (Token.Widens (before ++ (lexeme.text ++ rest)))
      (lexeme.token? (Place.start.after before)).toList
      (tokensFrom (Place.start.after (widen before)) [other]) := by
  have opening := LineBreak.widenedOffset_append before (lexeme.text ++ rest)
  have closing := LineBreak.widenedOffset_append (before ++ lexeme.text) rest
  rw [List.append_assoc, LineBreak.widen_append, List.length_append, List.length_append,
    ← covered] at closing
  have inside : (before ++ (lexeme.text ++ rest)).drop (before.length + 1) =
      lexeme.more ++ rest := by
    simp [text]
  rw [token?, content, tokensFrom, token?, otherContent, Place.after_widen, start_after]
  refine .cons ⟨rfl, rfl, payloads, fun isString => ?_, ?_, ?_⟩ .nil
  · rw [Int.toNat_natCast, inside]
    exact values isString
  · rw [if_neg different, Int.toNat_natCast, opening]
    rfl
  · simp only [Place.after, Int.toNat_natCast, closing]

theorem Widens.tokens (widens : Widens rest lexeme others) (before : List Char) :
    List.Forall₂ (Token.Widens (before ++ (lexeme.text ++ rest)))
      (lexeme.token? (Place.start.after before)).toList
      (tokensFrom (Place.start.after (widen before)) others) := by
  cases widens with
  | lineFeed =>
      have opening := LineBreak.widenedOffset_append before ('\n' :: rest)
      have closing := LineBreak.widenedOffset_append (before ++ ['\n']) rest
      rw [List.append_assoc, LineBreak.widen_append, List.length_append, List.length_append]
        at closing
      -- The carriage return is a lexeme of its own, and the token begins behind it.
      have behindReturn : (Place.start.after (widen before)).after ['\r'] =
          ⟨(widen before).length + 1, (Place.start.after before).line⟩ := by
        rw [Place.after_widen]
        rfl
      have found : tokensFrom (Place.start.after (widen before))
          [⟨'\r', [], .layout⟩, ⟨'\n', [], .token .newline none⟩] =
            (token? ⟨'\n', [], .token .newline none⟩
              ((Place.start.after (widen before)).after ['\r'])).toList := rfl
      rw [found, behindReturn, start_after]
      refine .cons ⟨rfl, rfl, fun _ => rfl, (fun isString => nomatch isString), ?_, ?_⟩ .nil
      · rw [Int.toNat_natCast]
        exact congrArg (fun offset : Nat => (offset : Int) + 1) opening.symm
      · rw [Int.toNat_natCast]
        exact congrArg (fun offset : Nat => (offset : Int)) closing.symm
  | comment _ => exact .nil
  | joint => exact .nil
  | @string pieces found =>
      have covered := (Widens.string found).textOf_eq
      rw [textOf_cons, textOf_nil, List.append_nil] at covered
      have means := (StringLiteral.pieces?_enclosed found).2
      have meansWide :=
        (StringLiteral.pieces?_enclosed (StringLiteral.pieces?_widenPieces found)).2
      refine forall₂_widens_token? rfl rfl covered (by decide) (fun other => absurd rfl other)
        (fun _ => ⟨pieces, ?_, by rw [means], by rw [meansWide]⟩) before
      simpa [quoted] using found
  | silent unbroken plain =>
      cases content : lexeme.content with
      | token kind payload =>
          obtain ⟨different, notString⟩ := plain kind payload content
          exact forall₂_widens_token? content content
            (LineBreak.widen_of_not_mem unbroken).symm different (fun _ => rfl)
            (fun isString => absurd isString notString) before
      | layout =>
          simp [tokensFrom, token?, content]
      | dropped =>
          simp [tokensFrom, token?, content]

/-! ## Cuts -/

/-- Lexemes of a source are widened one by one, whatever stands in front of them. -/
theorem Cut.exists_widens (cut : Cut policy rest front) (absent : '\r' ∉ textOf front ++ rest) :
    ∃ others, textOf others = widen (textOf front) ∧ Cut policy (widen rest) others ∧
      ∀ before, List.Forall₂ (Token.Widens (before ++ (textOf front ++ rest)))
        (tokensFrom (Place.start.after before) front)
        (tokensFrom (Place.start.after (widen before)) others) := by
  induction cut with
  | nil => exact ⟨[], rfl, .nil, fun _ => .nil⟩
  | @cons lexeme lexemes read _ ih =>
      rw [textOf_cons, List.append_assoc] at absent
      obtain ⟨following, covered, followingCut, followingTokens⟩ :=
        ih fun member => absent (List.mem_append_right _ member)
      obtain ⟨others, widens, othersCut⟩ := exists_widens_of_read absent read
      have othersCovered := widens.textOf_eq
      rw [LineBreak.widen_append, ← covered] at othersCut
      refine ⟨others ++ following, ?_, othersCut.append followingCut, fun before => ?_⟩
      · rw [textOf_append, textOf_cons, LineBreak.widen_append, othersCovered, covered]
      · -- Behind the lexeme, its own text is a part of what stands in front.
        have behind := followingTokens (before ++ lexeme.text)
        rw [LineBreak.widen_append, Place.after_append, Place.after_append, List.append_assoc,
          ← othersCovered] at behind
        rw [tokensFrom_append, tokensFrom, textOf_cons, List.append_assoc]
        exact List.rel_append (widens.tokens before) behind

theorem Cut.scan_alone (cut : Cut policy [] front) :
    scan policy (textOf front) = .ok ⟨tokensFrom .start front,
      ⟨.endOfInput, none, (Place.start.after (textOf front)).offset,
        (Place.start.after (textOf front)).offset, (Place.start.after (textOf front)).line⟩,
      rfl⟩ := by
  rw [scan, cut.lex_alone]
  rfl

end Lexeme

/-! ## Scans -/

variable {policy : UnknownPolicy} {source : List Char}

theorem Token.widens_end (source : List Char) :
    Widens source
      ⟨.endOfInput, none, (Place.start.after source).offset, (Place.start.after source).offset,
        (Place.start.after source).line⟩
      ⟨.endOfInput, none, (widen source).length, (widen source).length,
        (Place.start.after source).line⟩ := by
  have ended := LineBreak.widenedOffset_append source []
  rw [List.append_nil] at ended
  rw [Lexeme.start_after]
  refine ⟨rfl, rfl, fun _ => rfl, (fun isString => nomatch isString), ?_, ?_⟩
  · rw [Int.toNat_natCast, ended]
    rfl
  · rw [Int.toNat_natCast, ended]

theorem scan_widen_of_ok {stream : TokenStream} (absent : '\r' ∉ source)
    (scanned : scan policy source = .ok stream) :
    ∃ other, scan policy (widen source) = .ok other ∧
      List.Forall₂ (Token.Widens source) stream.toList other.toList := by
  obtain ⟨front, rfl, cut, _⟩ := Lexeme.exists_cut_of_scan scanned
  rw [cut.scan_alone] at scanned
  cases scanned
  rw [← List.append_nil (Lexeme.textOf front)] at absent
  obtain ⟨others, covered, othersCut, tokens⟩ := cut.exists_widens absent
  have scannedWide := Lexeme.Cut.scan_alone othersCut
  rw [covered, Place.after_widen] at scannedWide
  have body := tokens []
  rw [List.nil_append, List.append_nil] at body
  exact ⟨_, scannedWide, List.rel_append body (.cons (Token.widens_end _) .nil)⟩

/-- With wide line ends a source is scanned to as many tokens, of the same kinds and on the same
lines, with their places moved by the line ends in front of them. Only a token of a line end itself
leaves out the carriage return. If the scan fails, it fails for the same cause on the same line. -/
theorem scan_widen (policy : UnknownPolicy) {source : List Char} (absent : '\r' ∉ source) :
    (∃ stream other, scan policy source = .ok stream ∧ scan policy (widen source) = .ok other ∧
      List.Forall₂ (Token.Widens source) stream.toList other.toList) ∨
    ∃ failure, scan policy source = .error failure ∧
      scan policy (widen source) = .error ⟨failure.cause,
        LineBreak.widenedOffset source failure.place.offset, failure.place.line⟩ := by
  cases result : scan policy source with
  | ok stream =>
      obtain ⟨other, scanned, tokens⟩ := scan_widen_of_ok absent result
      exact .inl ⟨stream, other, rfl, scanned, tokens⟩
  | error failure =>
      refine .inr ⟨failure, rfl, ?_⟩
      obtain ⟨front, first, rest, flaw, rfl, cut, failed, rfl⟩ := exists_cut_of_scan_error result
      obtain ⟨others, covered, othersCut, _⟩ := cut.exists_widens absent
      have inRest : '\r' ∉ rest := fun member =>
        absent (List.mem_append_right _ (List.mem_cons_of_mem _ member))
      obtain ⟨different, other, otherFailed, same⟩ :=
        Lexeme.readUnder_error_widen inRest failed
      rw [LineBreak.widen_cons different] at othersCut
      have whole := othersCut.scan_error otherFailed
      rw [covered, ← LineBreak.widen_cons different, ← LineBreak.widen_append, same,
        Place.after_widen] at whole
      rw [whole, Lexeme.start_after, LineBreak.widenedOffset_append]

/-- A comment, a line break and a string with a line feed, and a string that is not closed behind a
line break. -/
theorem scan_widen_string :
    let source := ['#', '\n', '\n', '\x22', '\n', '\x22']
    let unclosed := ['\n', '\x22', '\n']
    let stream : TokenStream :=
      ⟨[⟨.newline, none, 2, 3, 2⟩, ⟨.string, some (.text "\n"), 3, 6, 3⟩],
        ⟨.endOfInput, none, 6, 6, 4⟩, rfl⟩
    let wide : TokenStream :=
      ⟨[⟨.newline, none, 4, 5, 2⟩, ⟨.string, some (.text "\r\n"), 5, 9, 3⟩],
        ⟨.endOfInput, none, 9, 9, 4⟩, rfl⟩
    ('\r' ∉ source ∧ scan .skip source = .ok stream ∧ scan .skip (widen source) = .ok wide ∧
      List.Forall₂ (Token.Widens source) stream.toList wide.toList) ∧
    '\r' ∉ unclosed ∧ scan .skip unclosed = .error ⟨.fault .unterminatedString, 1, 2⟩ ∧
      scan .skip (widen unclosed) = .error ⟨.fault .unterminatedString, 2, 2⟩ := by
  intro source unclosed stream wide
  have absent : '\r' ∉ source := by decide
  have absentUnclosed : '\r' ∉ unclosed := by decide
  have scanned : scan .skip source = .ok stream := by cbv
  have scannedWide : scan .skip (widen source) = .ok wide := by cbv
  have failed : scan .skip unclosed = .error ⟨.fault .unterminatedString, 1, 2⟩ := by cbv
  refine ⟨⟨absent, scanned, scannedWide, ?_⟩, absentUnclosed, failed, ?_⟩
  · rcases scan_widen .skip absent with ⟨found, other, isStream, isOther, tokens⟩ | ⟨_, wrong, _⟩
    · rw [scanned] at isStream
      rw [scannedWide] at isOther
      cases isStream
      cases isOther
      exact tokens
    · rw [scanned] at wrong
      cases wrong
  · rcases scan_widen .skip absentUnclosed with ⟨_, _, wrong, _⟩ | ⟨failure, isFailure, failedWide⟩
    · rw [failed] at wrong
      cases wrong
    · rw [failed] at isFailure
      cases isFailure
      exact failedWide

end LuneSyntax
