import LuneSyntax.Proofs.Analysis.Located
import LuneSyntax.Proofs.Analysis.Proper
import LuneSyntax.Proofs.Grammar.CorrectPrefix
import LuneSyntax.Proofs.Text.Uncontrolled

/-!
# The lines of diagnostics

A diagnostic is meant to be a header line and, if it has a hint, a line for the hint. Whatever
characters of the source it shows, it keeps to these lines, with one exception: a string that
stands in the place of a type is shown as it is, with the line feeds that it holds.
-/

set_option autoImplicit false

namespace LuneSyntax

/-! ## Lexical faults -/

namespace Lexeme

theorem Number.uncontrolled_marks (radix : Radix) : Uncontrolled (marks radix) := by
  cases radix <;> decide

theorem Number.Written.uncontrolled {radix : Radix} {digits text rest : List Char}
    (written : Written rest radix digits text) : Uncontrolled text := by
  have inDigits : Uncontrolled digits := by
    intro character member
    apply radix.uncontrolled_digits
    cases written with
    | marked _ _ run => exact run.1 character member
    | plain _ run _ => exact run.1 character member
  cases written with
  | marked announced _ _ =>
      rw [Uncontrolled.cons_iff, Uncontrolled.cons_iff]
      exact ⟨by decide, uncontrolled_marks radix _ announced, inDigits⟩
  | plain _ _ _ => exact inDigits

end Lexeme

theorem LexicalFault.message_invalidNumber (text : String) (fault : NumberFault) :
    (invalidNumber text fault).message =
      "invalid integer literal '" ++ text ++ "': " ++ fault.reason text := rfl

theorem LexicalFault.message_invalidCharacter (character : Char) :
    (invalidCharacter character).message =
      "invalid character '" ++ character.toString ++ "' (" ++ codePoint character ++ ")" := rfl

theorem LexicalFault.uncontrolled_codePoint (character : Char) :
    Uncontrolled (codePoint character).toList := by
  have upper : Uncontrolled (Radix.hexadecimal.digits.map Char.toUpper) := by decide +kernel
  rw [codePoint, String.toList_append, Uncontrolled.append_iff]
  refine ⟨by decide, ?_⟩
  rw [String.toList_ofList]
  intro written member
  obtain ⟨digit, inNumeral, rfl⟩ := List.mem_map.mp member
  exact upper _ (List.mem_map_of_mem (Numeral.mem_digits_of_mem_hexadecimal inNumeral))

theorem LexicalFault.uncontrolled_invalidNumber {text : String} {fault : NumberFault}
    (shown : Uncontrolled text.toList) (reason : Uncontrolled (fault.reason text).toList) :
    Uncontrolled (invalidNumber text fault).message.toList := by
  rw [message_invalidNumber]
  simp only [String.toList_append, Uncontrolled.append_iff]
  exact ⟨⟨⟨by decide, shown⟩, by decide⟩, reason⟩

/-- A lexical fault that is found shows no line feed. Other control characters may be shown, as
characters that begin nothing. -/
theorem Lexeme.Defect.lineFeed_not_mem {policy : UnknownPolicy} {text consumed : List Char}
    {fault : LexicalFault} (defect : Defect policy text ⟨consumed, .fault fault⟩) :
    '\n' ∉ fault.message.toList := by
  cases defect with
  | openString _ => decide
  | @missingDigits radix mark rest announced _ =>
      have name : Uncontrolled radix.name.toList := by cases radix <;> decide
      have shown : Uncontrolled (String.ofList ['0', mark]).toList := by
        rw [String.toList_ofList, Uncontrolled.cons_iff]
        refine ⟨by decide, ?_⟩
        simpa [Uncontrolled] using Number.uncontrolled_marks radix mark announced
      apply (LexicalFault.uncontrolled_invalidNumber shown _).lineFeed_not_mem
      simp only [NumberFault.reason, String.toList_append, Uncontrolled.append_iff]
      exact ⟨⟨⟨⟨by decide, name⟩, by decide⟩, shown⟩, by decide⟩
  | outOfRange written _ _ =>
      have shown := written.uncontrolled
      rw [← String.toList_ofList (l := consumed)] at shown
      have reason : Uncontrolled "value does not fit in a 32-bit signed integer".toList := by decide
      apply Uncontrolled.lineFeed_not_mem
      exact LexicalFault.uncontrolled_invalidNumber shown reason
  | @unknown character _ _ nothing =>
      have code := (LexicalFault.uncontrolled_codePoint character).lineFeed_not_mem
      rw [LexicalFault.message_invalidCharacter]
      simp only [String.toList_append, List.mem_append, not_or]
      refine ⟨⟨⟨⟨by decide, ?_⟩, by decide⟩, code⟩, by decide⟩
      simpa using nothing.ne_lineFeed.symm

/-- What a diagnostic may have as its hint: a text that fits on a line and is not empty. -/
def Hints (hint? : Option String) : Prop :=
  ∀ hint ∈ hint?, hint.isEmpty = false ∧ Uncontrolled hint.toList

theorem Lexeme.Defect.hints {policy : UnknownPolicy} {text consumed : List Char}
    {fault : LexicalFault} (defect : Defect policy text ⟨consumed, .fault fault⟩) :
    Hints fault.hint? := by
  cases defect with
  | openString _ =>
      rintro hint ⟨⟩
      decide
  | missingDigits _ _ => nofun
  | outOfRange _ _ _ =>
      rintro hint ⟨⟩
      decide +kernel
  | unknown _ _ => nofun

/-! ## Syntax faults -/

/-- The words of the fault are words of the grammar. -/
inductive SyntaxFault.Worded : SyntaxFault → Prop where
  | missingToken {expected : String} :
      Uncontrolled expected.toList → Worded (.missingToken expected)
  | invalidType : Worded .invalidType
  | unimplemented {feature : String} :
      Uncontrolled feature.toList → Worded (.unimplemented feature)
  | invalidStatement : Worded .invalidStatement
  | invalidExpression : Worded .invalidExpression

namespace Grammar

variable {written : List Token} {cause : SyntaxFault} {next : Option Token}

theorem uncontrolled_reservedFeature {kind : Token.Kind} {feature : String}
    (reserved : reservedFeature? kind = some feature) : Uncontrolled feature.toList := by
  have clear : ∀ feature ∈ reservedFeature? kind, Uncontrolled feature.toList := by
    cases kind <;> decide
  exact clear feature reserved

theorem DeclarationRejected.worded (rejected : DeclarationRejected written cause next) :
    cause.Worded := by
  cases rejected with
  | name => exact .missingToken (by decide)
  | colon => exact .missingToken (by decide)
  | pointer => exact .unimplemented (by decide)
  | type => exact .invalidType
  | equal => exact .missingToken (by decide)
  | value => exact .invalidExpression

theorem Rejected.worded (rejected : Rejected written cause next) : cause.Worded := by
  cases rejected with
  | reserved reserved => exact .unimplemented (uncontrolled_reservedFeature reserved)
  | unknown => exact .invalidStatement
  | declaration _ rejected => exact rejected.worded

theorem ProgramRejected.worded (rejected : ProgramRejected written cause next) :
    cause.Worded := by
  induction rejected with
  | statement rejected => exact rejected.worded
  | newline _ _ ih => exact ih
  | behind _ _ _ _ ih => exact ih

end Grammar

namespace SyntaxFault

variable {fault : SyntaxFault}

theorem Worded.hints (worded : fault.Worded) : Hints fault.hint? := by
  cases worded with
  | missingToken _ => nofun
  | unimplemented _ => nofun
  | invalidType | invalidStatement | invalidExpression =>
      rintro hint ⟨⟩
      decide

/-- Only a fault in the place of a type shows the text of its token. -/
theorem Worded.uncontrolled_message (worded : fault.Worded) (other : fault ≠ .invalidType)
    (token : Token) : Uncontrolled (fault.message token).toList := by
  cases worded with
  | missingToken expected =>
      rw [message, String.toList_append, Uncontrolled.append_iff]
      exact ⟨by decide, expected⟩
  | invalidType => exact absurd rfl other
  | unimplemented feature =>
      rw [message, String.toList_append, Uncontrolled.append_iff]
      exact ⟨feature, by decide⟩
  | invalidStatement | invalidExpression =>
      rw [message]
      decide

theorem lineFeed_mem_invalidType (token : Token) :
    '\n' ∈ (invalidType.message token).toList ↔ '\n' ∈ token.text.toList := by
  rw [message, String.toList_append, String.toList_append, List.mem_append, List.mem_append]
  constructor
  · rintro ((opening | shown) | closing)
    · exact absurd opening (by decide)
    · exact shown
    · exact absurd closing (by decide)
  · exact fun shown => .inl (.inr shown)

end SyntaxFault

namespace Token

variable {token : Token}

theorem lineFeed_not_mem_of_payload (empty : token.payload = none) :
    '\n' ∉ token.text.toList ∧ '\n' ∉ token.content.toList := by
  constructor
  · rw [text, empty]
    exact token.kind.uncontrolled_text.lineFeed_not_mem
  · rw [content, empty]
    decide

theorem lineFeed_not_mem_of_isWord {text : String} (payload : token.payload = some (.text text))
    (word : Lexeme.Word.IsWord text.toList []) : '\n' ∉ token.text.toList := by
  have clear : Uncontrolled Lexeme.Word.continuations := by decide
  rw [Token.text, payload]
  intro member
  exact absurd (clear _ (word.mem_continuations member)) (by decide)

/-- Names, numbers and spellings are shown without line feeds, so only a string can show one. -/
theorem lineFeed_mem_text_iff (known : token.Spellable ∨ token.payload = none) :
    '\n' ∈ token.text.toList ↔ token.kind = .string ∧ '\n' ∈ token.content.toList := by
  rcases known with spellable | empty
  · cases spellable with
    | name isName payload word _ =>
        have absent := lineFeed_not_mem_of_isWord payload word
        simp [absent, isName]
    | @integer value isInteger payload _ _ =>
        have absent := (Numeral.uncontrolled_decimal value).lineFeed_not_mem
        simp [text, payload, Payload.plain, absent, isInteger]
    | string isString payload => simp [text, content, payload, Payload.plain, isString]
    | plain _ empty => simp [lineFeed_not_mem_of_payload empty]
  · simp [lineFeed_not_mem_of_payload empty]

end Token

/-! ## Diagnostics -/

namespace Diagnostic

variable {diagnostic : Diagnostic}

/-- The header line of a diagnostic, and the line of its hint if it has one. -/
def lines (diagnostic : Diagnostic) : List (List Char) :=
  (diagnostic.heading ++ diagnostic.message).toList ::
    match diagnostic.hint? with
    | none => []
    | some hint => if hint.isEmpty then [] else [("hint: " ++ hint).toList]

/-- The diagnostic shows a string that holds a line feed, in the place of a type. -/
def ShowsLineFeed (diagnostic : Diagnostic) : Prop :=
  ∃ position token, diagnostic = .syntactic .invalidType position token ∧
    token.kind = .string ∧ '\n' ∈ token.content.toList

theorem toList_text (diagnostic : Diagnostic) :
    diagnostic.text.toList = ['\n'].intercalate diagnostic.lines := by
  unfold text lines
  cases diagnostic.hint? with
  | none => exact List.intercalate_singleton.symm
  | some hint =>
      dsimp only
      split
      · exact List.intercalate_singleton.symm
      · rw [List.intercalate_cons_cons, List.intercalate_singleton]
        simp [String.toList_append]

/-- How the header begins: with what went wrong, where, and at which token. -/
inductive Headed : Diagnostic → String → Prop where
  | general {message : String} {hint? : Option String} : Headed (.general message hint?) "error: "
  | lexical {fault : LexicalFault} {line position : Int} :
      Headed (.lexical fault line position)
        ("LexerError: error at line " ++ Numeral.decimal line ++ ", position " ++
          Numeral.decimal position ++ ": ")
  | syntactic {fault : SyntaxFault} {position : Int} {token : Token} :
      Headed (.syntactic fault position token)
        ("ParseError: error at position " ++ Numeral.decimal position ++ ", token " ++
          token.display ++ ": ")

theorem headed_heading (diagnostic : Diagnostic) : diagnostic.Headed diagnostic.heading := by
  cases diagnostic with
  | general => exact .general
  | lexical => exact .lexical
  | syntactic => exact .syntactic

theorem Headed.uncontrolled {heading : String} (headed : diagnostic.Headed heading) :
    Uncontrolled heading.toList := by
  cases headed with
  | general => decide
  | @lexical _ line position =>
      simp only [String.toList_append, Uncontrolled.append_iff]
      exact ⟨⟨⟨⟨by decide, Numeral.uncontrolled_decimal line⟩, by decide⟩,
        Numeral.uncontrolled_decimal position⟩, by decide⟩
  | @syntactic _ position token =>
      simp only [String.toList_append, Uncontrolled.append_iff]
      exact ⟨⟨⟨⟨by decide, Numeral.uncontrolled_decimal position⟩, by decide⟩,
        token.uncontrolled_display⟩, by decide⟩

/-- A text that is put together of lines and falls into them again has no line feed in the
first one. -/
theorem lineFeed_not_mem_of_splitOn {line : List Char} {more : List (List Char)}
    (split : (['\n'].intercalate (line :: more)).splitOn '\n' = line :: more) : '\n' ∉ line := by
  intro member
  obtain ⟨before, behind, same, first⟩ := List.eq_append_cons_of_mem member
  obtain ⟨tail, whole⟩ : ∃ tail, ['\n'].intercalate (line :: more) = line ++ tail := by
    cases more with
    | nil => exact ⟨[], by rw [List.intercalate_singleton, List.append_nil]⟩
    | cons next more => exact ⟨_, by rw [List.intercalate_cons_cons, List.append_assoc]⟩
  rw [whole, same, List.append_assoc, List.cons_append,
    List.splitOn_append_cons_self_of_not_mem first] at split
  -- The first piece ends in front of the line feed, so it cannot be the whole line.
  have lengths := congrArg List.length (List.cons.inj split).1
  simp at lengths

/-- With a hint that fits on a line, the text has the lines of the diagnostic exactly if its
message fits on one. -/
theorem splitOn_text_iff (hints : Hints diagnostic.hint?) :
    diagnostic.text.toList.splitOn '\n' = diagnostic.lines ↔
      '\n' ∉ diagnostic.message.toList := by
  have heading := diagnostic.headed_heading.uncontrolled.lineFeed_not_mem
  have header : '\n' ∉ (diagnostic.heading ++ diagnostic.message).toList ↔
      '\n' ∉ diagnostic.message.toList := by
    simp [heading]
  rw [toList_text, ← header]
  constructor
  · exact lineFeed_not_mem_of_splitOn
  · intro absent
    apply List.splitOn_intercalate
    · rw [lines, List.forall_mem_cons]
      refine ⟨absent, ?_⟩
      cases found : diagnostic.hint? with
      | none => exact List.forall_mem_nil _
      | some hint =>
          obtain ⟨filled, shown⟩ := hints hint found
          simp [filled, shown.not_mem]
    · exact List.cons_ne_nil _ _

end Diagnostic

/-! ## Sources -/

section Sources

variable {policy : UnknownPolicy} {source : List Char} {diagnostic : Diagnostic}

theorem lexical_of_scan {fault : LexicalFault} {place : Place}
    (failed : scan policy source = .error ⟨.fault fault, place⟩) :
    '\n' ∉ fault.message.toList ∧ Hints fault.hint? := by
  obtain ⟨_, _, _, ⟨consumed, cause⟩, _, _, readFailed, same⟩ := exists_cut_of_scan_error failed
  have defect := Lexeme.defect_of_readUnder readFailed
  obtain ⟨rfl, _⟩ := ScanFailure.mk.inj same
  exact ⟨defect.lineFeed_not_mem, defect.hints⟩

theorem syntactic_of_parse {stream : TokenStream} (scanned : scan policy source = .ok stream)
    (failed : stream.parse = .error diagnostic) :
    ∃ fault position token, diagnostic = .syntactic fault position token ∧ fault.Worded ∧
      (token.Spellable ∨ token.payload = none) := by
  obtain ⟨written, token, rest, cause, split, rejected, rfl⟩ :=
    TokenStream.exists_rejected_of_parse failed
  have member : token ∈ stream.toList := by
    rw [split]
    exact List.mem_append_right _ List.mem_cons_self
  exact ⟨cause, _, token, rfl, rejected.worded, spellable_or_bare_of_scan scanned member⟩

theorem lineFeed_mem_message_iff {fault : SyntaxFault} (worded : fault.Worded) {position : Int}
    {token : Token} (known : token.Spellable ∨ token.payload = none) :
    '\n' ∈ (Diagnostic.syntactic fault position token).message.toList ↔
      (Diagnostic.syntactic fault position token).ShowsLineFeed := by
  by_cases typed : fault = .invalidType
  · subst typed
    rw [Diagnostic.message, SyntaxFault.lineFeed_mem_invalidType,
      Token.lineFeed_mem_text_iff known]
    constructor
    · exact fun shown => ⟨position, token, rfl, shown⟩
    · rintro ⟨_, _, ⟨⟩, shown⟩
      exact shown
  · constructor
    · intro member
      exact absurd member (worded.uncontrolled_message typed token).lineFeed_not_mem
    · rintro ⟨_, _, ⟨⟩, _⟩
      exact absurd rfl typed

/-- What a parse of a source reports is a lexical fault or a fault of the syntax. Neither its
header nor its hint holds a line feed, and its message holds one exactly if a string with a line
feed stands in the place of a type. So exactly then its text has more lines than it should. -/
theorem lines_of_parseSource (failed : parseSource policy source = .error (.diagnosed diagnostic)) :
    (Failure.diagnosed diagnostic).Located ∧ diagnostic.Headed diagnostic.heading ∧
      '\n' ∉ diagnostic.heading.toList ∧ Hints diagnostic.hint? ∧
      ('\n' ∈ diagnostic.message.toList ↔ diagnostic.ShowsLineFeed) ∧
      (diagnostic.text.toList.splitOn '\n' = diagnostic.lines ↔ ¬ diagnostic.ShowsLineFeed) := by
  have headed := diagnostic.headed_heading
  suffices found : (Failure.diagnosed diagnostic).Located ∧ Hints diagnostic.hint? ∧
      ('\n' ∈ diagnostic.message.toList ↔ diagnostic.ShowsLineFeed) by
    obtain ⟨located, hints, shown⟩ := found
    refine ⟨located, headed, headed.uncontrolled.lineFeed_not_mem, hints, shown, ?_⟩
    rw [Diagnostic.splitOn_text_iff hints, shown]
  rcases scan_or_parse_of_parseSource failed with
    ⟨⟨cause, place⟩, scanFailed, same⟩ | ⟨stream, reported, scanned, parseFailed, same⟩
  · cases cause with
    | tooManyDigits count => cases same
    | fault fault =>
        cases same
        obtain ⟨absent, hints⟩ := lexical_of_scan scanFailed
        refine ⟨.lexical, hints, ?_⟩
        constructor
        · exact fun shown => absurd shown absent
        · rintro ⟨_, _, ⟨⟩, _⟩
  · cases same
    obtain ⟨fault, position, token, rfl, worded, known⟩ := syntactic_of_parse scanned parseFailed
    exact ⟨.syntactic, worded.hints, lineFeed_mem_message_iff worded known⟩

end Sources

/-- A line break in the place of a type is shown by its conventional text, on one line. -/
theorem lines_of_parseSource_newline :
    let source := ['v', 'a', 'r', ' ', 'x', ':', '\n']
    let diagnostic : Diagnostic := .syntactic .invalidType 3 ⟨.newline, none, 6, 7, 1⟩
    parseSource .reject source = .error (.diagnosed diagnostic) ∧
      (Failure.diagnosed diagnostic).Located ∧ diagnostic.Headed diagnostic.heading ∧
        '\n' ∉ diagnostic.heading.toList ∧ Hints diagnostic.hint? ∧
        ('\n' ∈ diagnostic.message.toList ↔ diagnostic.ShowsLineFeed) ∧
        (diagnostic.text.toList.splitOn '\n' = diagnostic.lines ↔ ¬ diagnostic.ShowsLineFeed) := by
  intro source diagnostic
  have failed : parseSource .reject source = .error (.diagnosed diagnostic) := by cbv
  exact ⟨failed, lines_of_parseSource failed⟩

/-- A string of one line feed in the place of a type makes three lines of two. -/
theorem three_lines_of_string :
    let source := ['v', 'a', 'r', ' ', 'x', ':', '\x22', '\n', '\x22']
    let diagnostic : Diagnostic :=
      .syntactic .invalidType 3 ⟨.string, some (.text "\n"), 6, 9, 1⟩
    parseSource .skip source = .error (.diagnosed diagnostic) ∧
      diagnostic.hint? = some "expected 'int' or 'str'" ∧ diagnostic.lines.length = 2 ∧
      (diagnostic.text.toList.splitOn '\n').length = 3 := by
  intro source diagnostic
  refine ⟨by cbv, rfl, rfl, ?_⟩
  decide +kernel

end LuneSyntax
