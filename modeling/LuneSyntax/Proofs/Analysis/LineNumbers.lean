import LuneSyntax.Analysis.Basic
import LuneSyntax.Proofs.Grammar.CorrectPrefix
import LuneSyntax.Proofs.Lexeme.Emission

/-!
# Line numbers

Every line that a scan or a parse reports is one more than the number of line feeds in front of
the place that it goes with: for each token and the end of the input, for a lexeme that cannot be
completed and for a token that the grammar rejects. Other characters that break lines elsewhere do
not count.
-/

set_option autoImplicit false

namespace LuneSyntax

/-- The offset lies in the source or at its end, and the line is the one on which it lies. -/
def OnLine (source : List Char) (offset line : Int) : Prop :=
  ∃ position : Nat, offset = position ∧ position ≤ source.length ∧
    line = (lineAt source position : Nat)

/-- Where the text begins that a diagnostic is about. -/
def Diagnostic.offset? : Diagnostic → Option Int
  | .general _ _ => none
  | .lexical _ _ position => some position
  | .syntactic _ _ token => some token.start

/-- A scan fails at a boundary, where a lexeme with a defect begins, and on the line of it. -/
structure FailsAt (policy : UnknownPolicy) (source : List Char) (failure : ScanFailure) :
    Prop where
  boundary : Boundary policy source failure.place.offset
  defect : ∃ consumed,
    Lexeme.Defect policy (source.drop failure.place.offset) ⟨consumed, failure.cause⟩
  line : OnLine source failure.place.offset failure.place.line

/-! ## Line feeds inside lexemes -/

namespace Lexeme

/-- How far a lexeme moves the count of lines. A line feed stands alone, at the end of a comment,
behind a backslash that joins two lines, or in a string, where it is a piece of its own. -/
inductive EndsLines : Lexeme → Nat → Prop where
  | lineFeed : EndsLines ⟨'\n', [], .token .newline none⟩ 1
  | comment {body : List Char} : '\n' ∉ body → EndsLines ⟨'#', body ++ ['\n'], .layout⟩ 1
  | joint : EndsLines ⟨'\\', ['\n'], .layout⟩ 1
  | wideJoint : EndsLines ⟨'\\', ['\r', '\n'], .layout⟩ 1
  | string {pieces : List StringLiteral.Piece} :
      EndsLines ⟨'\x22', StringLiteral.spelling pieces ++ ['\x22'],
        .token .string (some (.text (String.ofList (StringLiteral.meaning pieces))))⟩
        (pieces.count (.plain '\n'))
  | silent {lexeme : Lexeme} : '\n' ∉ lexeme.text → EndsLines lexeme 0

theorem StringLiteral.count_spelling (pieces : List Piece) :
    (spelling pieces).count '\n' = pieces.count (.plain '\n') := by
  induction pieces with
  | nil => rfl
  | cons piece pieces ih =>
      -- No mark of an escape is a line feed, not even that of the escape for one.
      have alone : piece.spelling.count '\n' = [piece].count (.plain '\n') := by
        cases piece with
        | escaped escape => cases escape <;> decide
        | plain character => simp [Piece.spelling, List.count_singleton]
      rw [spelling, List.flatMap_cons, List.count_append, ← spelling, ih, alone,
        ← List.count_append, List.singleton_append]

theorem EndsLines.of_count {lexeme : Lexeme} {lines : Nat} (ends : EndsLines lexeme lines)
    (counted : lexeme.text.count '\n' = lines) : EndsLines lexeme (lexeme.text.count '\n') := by
  rwa [counted]

theorem EndsLines.of_not_mem {lexeme : Lexeme} (unbroken : '\n' ∉ lexeme.text) :
    EndsLines lexeme (lexeme.text.count '\n') :=
  (EndsLines.silent unbroken).of_count (List.count_eq_zero.mpr unbroken)

theorem lineFeed_not_mem_of_solid {text : List Char}
    (solid : ∀ character ∈ text, beginsLayout character = false) : '\n' ∉ text :=
  fun member => absurd (solid '\n' member) (by decide)

theorem Matches.endsLines {shape : Shape} {rest : List Char} {lexeme : Lexeme}
    (found : Matches shape lexeme.text rest lexeme.content) :
    EndsLines lexeme (lexeme.text.count '\n') := by
  obtain ⟨first, more, content⟩ := lexeme
  rw [text] at found ⊢
  cases found with
  | pair listed =>
      have unbroken : ∀ entry ∈ Token.Kind.pairs, '\n' ∉ [entry.1.1, entry.1.2] := by decide
      exact .of_not_mem (unbroken _ listed)
  | single listed _ =>
      have unbroken : ∀ entry ∈ Token.Kind.singles, '\n' ∉ [entry.1] := by decide
      exact .of_not_mem (unbroken _ listed)
  | string enclosed =>
      obtain ⟨pieces, found, rfl⟩ := StringLiteral.pieces?_of_enclosed enclosed []
      rw [← (StringLiteral.pieces?_enclosed found).2]
      refine EndsLines.string.of_count ?_
      simp [text, StringLiteral.count_spelling]
  | integer written =>
      exact .of_not_mem (lineFeed_not_mem_of_solid fun _ => written.not_beginsLayout)
  | word word _ =>
      exact .of_not_mem (lineFeed_not_mem_of_solid fun _ => word.not_beginsLayout)
  | lineFeed => exact .lineFeed
  | blank _ other => exact .of_not_mem (by simpa [text] using other.symm)
  | comment unbroken =>
      exact (EndsLines.comment unbroken).of_count (by simp [text, List.count_eq_zero.mpr unbroken])
  | lastComment unbroken =>
      refine .of_not_mem ?_
      simp only [text, List.mem_cons, not_or]
      exact ⟨by decide, unbroken⟩
  | joint => exact .joint
  | wideJoint => exact .wideJoint

theorem endsLines_of_readUnder {policy : UnknownPolicy} {first : Char} {rest : List Char}
    {lexeme : Lexeme} (found : readUnder policy first rest = .ok lexeme) :
    EndsLines lexeme (lexeme.text.count '\n') := by
  rcases read_matches (read_of_readUnder found).1 with ⟨shape, fits⟩ | ⟨rfl, nothing⟩
  · exact fits.endsLines
  · refine .of_not_mem ?_
    simpa [text] using nothing.ne_lineFeed.symm

theorem Cut.endsLines {policy : UnknownPolicy} {rest : List Char} {front : List Lexeme}
    (cut : Cut policy rest front) :
    ∀ lexeme ∈ front, EndsLines lexeme (lexeme.text.count '\n') := by
  induction cut with
  | nil => exact List.forall_mem_nil _
  | cons read _ ih => exact List.forall_mem_cons.mpr ⟨endsLines_of_readUnder read, ih⟩

theorem line_of_token? {lexeme : Lexeme} {place : Place} {token : Token}
    (placed : lexeme.token? place = some token) : token.line = place.line := by
  unfold token? at placed
  split at placed
  · cases placed
    rfl
  · cases placed
  · cases placed

end Lexeme

/-! ## Places that are reported -/

theorem onLine_after (front back : List Char) :
    OnLine (front ++ back) (Place.start.after front).offset (Place.start.after front).line := by
  refine ⟨front.length, ?_, ?_, ?_⟩
  · rw [Lexeme.start_after]
  · rw [List.length_append]
    exact Nat.le_add_right _ _
  · rw [Lexeme.start_after, lineAt, List.take_left]

section Sources

variable {policy : UnknownPolicy} {source : List Char}

theorem onLine_of_scan {stream : TokenStream} (scanned : scan policy source = .ok stream)
    {token : Token} (member : token ∈ stream.toList) : OnLine source token.start token.line := by
  obtain ⟨sound, rfl⟩ := scan_eq_ok_iff.mp scanned
  have covered := textOf_lex_of_sound sound
  rcases List.mem_append.mp member with inside | last
  · obtain ⟨before, lexeme, after, split, placed⟩ := Lexeme.exists_split_of_mem_tokensFrom inside
    obtain ⟨_, start⟩ := Lexeme.content_of_token? placed
    rw [split, Lexeme.textOf_append] at covered
    rw [start, Lexeme.line_of_token? placed, ← covered]
    exact onLine_after _ _
  · rw [List.mem_singleton.mp last]
    have stop : (lex policy source).stop = Place.start.after source := by
      rw [Lexing.stop, covered]
    have ended := onLine_after source []
    rw [List.append_nil, ← stop] at ended
    exact ended

theorem failsAt_of_scan {failure : ScanFailure} (failed : scan policy source = .error failure) :
    FailsAt policy source failure := by
  obtain ⟨front, first, rest, flaw, rfl, cut, read, rfl⟩ := exists_cut_of_scan_error failed
  refine ⟨?_, ⟨flaw.consumed, ?_⟩, onLine_after _ _⟩
  · rw [Lexeme.start_after]
    exact boundary_iff.mpr ⟨front, _, rfl, cut, rfl⟩
  · rw [Lexeme.start_after, List.drop_left]
    exact Lexeme.defect_of_readUnder read

/-- What a parse of a source reports is on the line of the lexeme or the token at fault. -/
theorem onLine_of_parseSource {diagnostic : Diagnostic}
    (failed : parseSource policy source = .error (.diagnosed diagnostic)) :
    ∃ offset line, diagnostic.offset? = some offset ∧ diagnostic.line? = some line ∧
      OnLine source offset line := by
  rcases scan_or_parse_of_parseSource failed with
    ⟨⟨cause, place⟩, scanFailed, same⟩ | ⟨stream, reported, scanned, rejected, same⟩
  · cases cause with
    | fault fault =>
        cases same
        exact ⟨_, _, rfl, rfl, (failsAt_of_scan scanFailed).line⟩
    | tooManyDigits count => cases same
  · cases same
    obtain ⟨fault, index, token, found, rfl⟩ := TokenStream.exists_token_of_parse rejected
    exact ⟨_, _, rfl, rfl, onLine_of_scan scanned (List.mem_of_getElem? found)⟩

/-- Lines are right everywhere: for the tokens of a scan and its end, for the lexeme at which a
scan fails and for the token at which a parse fails. The line feeds in front that make a line are
exactly those that stand alone, end a comment, join lines or are pieces of a string. -/
theorem lines_of_scan (policy : UnknownPolicy) (source : List Char) :
    (∀ stream, scan policy source = .ok stream →
      ∀ token ∈ stream.toList, OnLine source token.start token.line) ∧
    (∀ failure, scan policy source = .error failure → FailsAt policy source failure) ∧
    (∀ diagnostic, parseSource policy source = .error (.diagnosed diagnostic) →
      ∃ offset line, diagnostic.offset? = some offset ∧ diagnostic.line? = some line ∧
        OnLine source offset line) ∧
    ∀ lexeme ∈ (lex policy source).lexemes, lexeme.EndsLines (lexeme.text.count '\n') := by
  refine ⟨?_, ?_, ?_, ?_⟩
  · exact fun stream scanned token member => onLine_of_scan scanned member
  · exact fun failure failed => failsAt_of_scan failed
  · exact fun diagnostic failed => onLine_of_parseSource failed
  · obtain ⟨_, _, cut, _⟩ := Lexeme.exists_cut_of_lex policy source
    exact cut.endsLines

end Sources

/-- A line break, a comment, a string with a line feed behind a backslash, two joined lines and a
name. The parse fails at the string, on the third line. Of two line feeds in front of the end, one
is in an open string, which is reported on the line on which it begins. -/
theorem lines_of_scan_broken :
    let source := ['\n', '#', '\n', '\x22', '\\', '\n', '\x22', '\\', '\r', '\n', 'x']
    let unclosed := ['\n', '\x22', '\n']
    let joint : Lexeme := ⟨'\\', ['\r', '\n'], .layout⟩
    let string : Token := ⟨.string, some (.text "\\\n"), 3, 7, 3⟩
    let name : Token := ⟨.identifier, some (.text "x"), 10, 11, 5⟩
    let stream : TokenStream :=
      ⟨[⟨.newline, none, 0, 1, 1⟩, string, name], ⟨.endOfInput, none, 11, 11, 5⟩, rfl⟩
    (scan .skip source = .ok stream ∧ OnLine source name.start name.line) ∧
    (scan .skip unclosed = .error ⟨.fault .unterminatedString, 1, 2⟩ ∧
      FailsAt .skip unclosed ⟨.fault .unterminatedString, 1, 2⟩) ∧
    (parseSource .skip source = .error (.diagnosed (.syntactic .invalidStatement 1 string)) ∧
      ∃ offset line,
        (Diagnostic.syntactic .invalidStatement 1 string).offset? = some offset ∧
        (Diagnostic.syntactic .invalidStatement 1 string).line? = some line ∧
        OnLine source offset line) ∧
    (joint ∈ (lex .skip joint.text).lexemes ∧ joint.EndsLines 1) := by
  intro source unclosed joint string name stream
  have scanned : scan .skip source = .ok stream := by cbv
  have failed : scan .skip unclosed = .error ⟨.fault .unterminatedString, 1, 2⟩ := by cbv
  have rejected : parseSource .skip source =
      .error (.diagnosed (.syntactic .invalidStatement 1 string)) := by cbv
  have alone : (lex .skip joint.text).lexemes = [joint] := by cbv
  have listed : joint ∈ (lex .skip joint.text).lexemes := by
    rw [alone]
    exact List.mem_cons_self
  exact ⟨⟨scanned, (lines_of_scan .skip source).1 stream scanned name (by decide)⟩,
    ⟨failed, (lines_of_scan .skip unclosed).2.1 _ failed⟩,
    ⟨rejected, (lines_of_scan .skip source).2.2.1 _ rejected⟩,
    ⟨listed, (lines_of_scan .skip joint.text).2.2.2 _ listed⟩⟩

end LuneSyntax
