import LuneSyntax.Grammar.Cursor
import LuneSyntax.Proofs.Grammar.CorrectPrefix

/-!
# Cursor sessions

Phrases and single tokens are read from a cursor in any order, from any position and after any
failure. A reader passes tokens in front of the end of the input only, whether it succeeds or
fails, and that is all that a cursor relies on.
-/

set_option autoImplicit false

namespace LuneSyntax

namespace Grammar

/-! ## Readers that stay in front of the end of the input -/

variable {Value : Type} {tokens written rest : List Token}

/-- The rest stands behind tokens none of which ends the input. -/
def Behind (tokens rest : List Token) : Prop :=
  ∃ written, tokens = written ++ rest ∧ ∀ token ∈ written, token.kind ≠ .endOfInput

/-- The tokens behind a phrase, or from the fault on. -/
def unread : Except Fault (Value × List Token) → List Token
  | .ok (_, rest) => rest
  | .error fault => fault.rest

/-- Whether it succeeds or fails, a reader passes no end of the input. -/
def Careful (reader : List Token → Except Fault (Value × List Token)) : Prop :=
  ∀ tokens, Behind tokens (unread (reader tokens))

theorem kind_ne_endOfInput_of_not_separates {kind : Token.Kind}
    (inside : kind.separates = false) : kind ≠ .endOfInput := by
  intro ends
  rw [ends] at inside
  cases inside

theorem careful_atLevel (level : Precedence) : Careful (atLevel level).run := by
  have exact := exact_atLevel level
  intro tokens
  cases result : (atLevel level).run tokens with
  | ok read =>
      obtain ⟨written, split, yields, normal, _, _⟩ := exact.accepted result
      refine ⟨written, split, ?_⟩
      intro token member
      exact kind_ne_endOfInput_of_not_separates (yields.not_separates normal member)
  | error fault =>
      obtain ⟨written, split, _, pending, _⟩ := exact.refused result
      refine ⟨written, split, ?_⟩
      intro token member
      -- With a literal behind them the tokens are a whole expression.
      have isInteger : (filler .integer (some (.number 0))).kind = .integer := rfl
      obtain ⟨expr, yields, normal, _⟩ :=
        pending.exists_yields (by cases level <;> decide) isInteger
      apply kind_ne_endOfInput_of_not_separates
      exact yields.not_separates normal (List.mem_append_left _ member)

theorem behind_of_yields {stmt : Stmt} {completion : List Token} (before rest : List Token)
    (yields : stmt.Yields (before ++ (written ++ completion))) (normal : stmt.Normal) :
    Behind (written ++ rest) rest := by
  refine ⟨written, rfl, ?_⟩
  intro token member
  apply kind_ne_endOfInput_of_not_separates
  exact yields.not_separates normal (List.mem_append_right _ (List.mem_append_left _ member))

theorem careful_declaration : Careful declaration.run := by
  have word : (filler .varWord none).kind = .varWord := rfl
  intro tokens
  rcases declaration_cases tokens with
    ⟨stmt, written, rest, rfl, yields, normal, stops⟩ | ⟨written, cause, rest, rfl, rejected⟩
  · rw [declaration_accepts rest (yields _ word) normal stops]
    have completed : stmt.Yields ([filler .varWord none] ++ (written ++ [])) := by
      simpa using yields _ word
    exact behind_of_yields _ rest completed normal
  · rw [declaration_refuses rejected]
    obtain ⟨completion, stmt, yields, normal⟩ := rejected.exists_yields word
    exact behind_of_yields [filler .varWord none] rest yields normal

theorem careful_statement : Careful statement.run := by
  intro tokens
  rcases statement_cases tokens with
    ⟨stmt, written, rest, rfl, yields, normal, stops⟩ | ⟨written, cause, rest, rfl, rejected⟩
  · rw [statement_accepts rest yields normal stops]
    have completed : stmt.Yields ([] ++ (written ++ [])) := by simpa using yields
    exact behind_of_yields _ rest completed normal
  · rw [statement_refuses rejected]
    obtain ⟨completion, stmt, yields, normal⟩ := rejected.exists_yields
    exact behind_of_yields [] rest yields normal

theorem careful_program : Careful program := by
  intro tokens
  cases result : program tokens with
  | ok read =>
      obtain ⟨written, split, yields, normal, _⟩ := program_accepted result
      exact ⟨written, split, fun token member => yields.kind_ne_endOfInput normal member⟩
  | error fault =>
      obtain ⟨written, split, rejected⟩ := program_refused result
      obtain ⟨completion, statements, yields, normal⟩ := rejected.exists_yields
      refine ⟨written, split, ?_⟩
      intro token member
      exact yields.kind_ne_endOfInput normal (List.mem_append_left _ member)

end Grammar

namespace TokenCursor

open Grammar

variable {Value : Type} {cursor reached further : TokenCursor} {written rest : List Token}

/-! ## Moves -/

/-- The cursor has passed some of the remaining tokens, none of which ends the input. -/
inductive Passes (cursor : TokenCursor) : TokenCursor → Prop where
  | behind {written rest : List Token} : cursor.remaining = written ++ rest →
      (∀ token ∈ written, token.kind ≠ .endOfInput) →
      Passes cursor (cursor.seek (cursor.position + written.length))

theorem passes_self (cursor : TokenCursor) : Passes cursor cursor := by
  have nothing : cursor.remaining = [] ++ cursor.remaining := rfl
  exact .behind nothing (List.forall_mem_nil _)

theorem remaining_seek (split : cursor.remaining = written ++ rest) :
    (cursor.seek (cursor.position + written.length)).remaining = rest := by
  have behind : cursor.remaining.drop written.length = rest := by
    rw [split, List.drop_left]
  rwa [remaining, List.drop_drop] at behind

theorem advanceTo_of_split (split : cursor.remaining = written ++ rest) :
    cursor.advanceTo rest = cursor.seek (cursor.position + written.length) := by
  rw [advanceTo, split, List.length_append, Nat.add_sub_cancel]

theorem remaining_advanceTo (behind : Behind cursor.remaining rest) :
    (cursor.advanceTo rest).remaining = rest := by
  obtain ⟨written, split, _⟩ := behind
  rw [advanceTo_of_split split, remaining_seek split]

theorem passes_advanceTo (behind : Behind cursor.remaining rest) :
    Passes cursor (cursor.advanceTo rest) := by
  obtain ⟨written, split, unended⟩ := behind
  rw [advanceTo_of_split split]
  exact .behind split unended

theorem exists_remaining_eq (unended : cursor.current.kind ≠ .endOfInput) :
    ∃ rest, cursor.remaining = cursor.current :: rest := by
  cases ahead : cursor.remaining with
  | nil =>
      rw [current, ahead] at unended
      exact absurd cursor.stream.final_kind unended
  | cons token rest => exact ⟨rest, by rw [current, ahead]; rfl⟩

theorem passes_advance (cursor : TokenCursor) : Passes cursor cursor.advance := by
  by_cases ends : cursor.current.kind = .endOfInput
  · rw [advance, atEnd, if_pos (decide_eq_true ends)]
    exact passes_self cursor
  · obtain ⟨rest, ahead⟩ := exists_remaining_eq ends
    rw [advance, atEnd, if_neg (by simpa using ends)]
    have split : cursor.remaining = [cursor.current] ++ rest := ahead
    exact .behind split (List.forall_mem_singleton.mpr ends)

theorem passes_skipNewlines (cursor : TokenCursor) : Passes cursor cursor.skipNewlines := by
  apply Passes.behind List.takeWhile_append_dropWhile.symm
  intro token member
  have newline := List.all_eq_true.mp List.all_takeWhile token member
  rw [of_decide_eq_true newline]
  decide

theorem snd_read (cursor : TokenCursor)
    (reader : List Token → Except Fault (Value × List Token)) :
    (cursor.read reader).2 = cursor.advanceTo (unread (reader cursor.remaining)) := by
  unfold read
  cases reader cursor.remaining with
  | ok found => rfl
  | error fault => rfl

theorem passes_read {reader : List Token → Except Fault (Value × List Token)}
    (careful : Careful reader) (cursor : TokenCursor) : Passes cursor (cursor.read reader).2 := by
  rw [snd_read]
  exact passes_advanceTo (careful cursor.remaining)

/-- What is raised for a fault of the token at the cursor. -/
def Reports (cursor : TokenCursor) (raised : Raised) : Prop :=
  ∃ cause, raised = (Diagnostic.syntactic cause cursor.position cursor.current).raised

theorem reports_read {reader : List Token → Except Fault (Value × List Token)}
    (careful : Careful reader) {raised : Raised}
    (failed : (cursor.read reader).1 = .error raised) :
    (cursor.read reader).2.Reports raised := by
  have behind := careful cursor.remaining
  rw [snd_read]
  unfold read at failed
  cases result : reader cursor.remaining with
  | ok found =>
      rw [result] at failed
      cases failed
  | error fault =>
      rw [result] at failed behind
      have same := (Except.error.inj failed).symm
      refine ⟨fault.cause, ?_⟩
      rw [same, current, remaining_advanceTo behind]
      rfl

/-! ## Uses -/

inductive Use where
  | parse
  | statement
  | declaration
  | expression (level : Precedence)
  | advance
  | pass (kinds : List Token.Kind)
  | expect (kind : Token.Kind) (expected : String)
  | skipNewlines
  | seek (position : Nat)
  deriving DecidableEq, Repr

/-- Whether a use failed, and where the cursor stands. -/
def settle (outcome : Except Raised Value × TokenCursor) : Except Raised Unit × TokenCursor :=
  (outcome.1.map fun _ => (), outcome.2)

/-- The cursor after a use, and what was raised if the use failed. -/
def perform (cursor : TokenCursor) : Use → Except Raised Unit × TokenCursor
  | .parse => settle cursor.parse
  | .statement => settle (cursor.read statement.run)
  | .declaration => settle (cursor.read declaration.run)
  | .expression level => settle (cursor.read (atLevel level).run)
  | .advance => (.ok (), cursor.advance)
  | .pass kinds => (.ok (), ((cursor.pass? kinds).map Prod.snd).getD cursor)
  | .expect kind expected => settle (cursor.expect kind expected)
  | .skipNewlines => (.ok (), cursor.skipNewlines)
  | .seek position => (.ok (), cursor.seek position)

/-- The cursor of a stream after uses one after the other. -/
def after (stream : TokenStream) (uses : List Use) : TokenCursor :=
  uses.foldl (fun cursor use => (cursor.perform use).2) (atStart stream)

theorem after_concat (stream : TokenStream) (uses : List Use) (use : Use) :
    after stream (uses ++ [use]) = ((after stream uses).perform use).2 := by
  rw [after, List.foldl_append]
  rfl

theorem passes_of_pass? {kinds : List Token.Kind} {token : Token}
    (found : cursor.pass? kinds = some (token, reached)) : Passes cursor reached := by
  unfold pass? at found
  split at found
  · cases found
    exact passes_advance cursor
  · cases found

theorem passes_pass (cursor : TokenCursor) (kinds : List Token.Kind) :
    Passes cursor (((cursor.pass? kinds).map Prod.snd).getD cursor) := by
  cases result : cursor.pass? kinds with
  | none => exact passes_self cursor
  | some passed =>
      obtain ⟨token, reached⟩ := passed
      exact passes_of_pass? result

theorem passes_expect (cursor : TokenCursor) (kind : Token.Kind) (expected : String) :
    Passes cursor (cursor.expect kind expected).2 := by
  unfold expect
  split
  · rename_i found
    exact passes_of_pass? found
  · exact passes_self cursor

theorem reports_expect {kind : Token.Kind} {expected : String} {raised : Raised}
    (failed : (cursor.expect kind expected).1 = .error raised) :
    (cursor.expect kind expected).2.Reports raised := by
  unfold expect at failed ⊢
  split
  · rename_i found
    rw [found] at failed
    cases failed
  · rename_i missing
    rw [missing] at failed
    exact ⟨_, (Except.error.inj failed).symm⟩

theorem passes_perform (cursor : TokenCursor) {use : Use}
    (other : ∀ position, use ≠ .seek position) : Passes cursor (cursor.perform use).2 := by
  cases use with
  | parse => exact passes_read careful_program cursor
  | statement => exact passes_read careful_statement cursor
  | declaration => exact passes_read careful_declaration cursor
  | expression level => exact passes_read (careful_atLevel level) cursor
  | advance => exact passes_advance cursor
  | pass kinds => exact passes_pass cursor kinds
  | expect kind expected => exact passes_expect cursor kind expected
  | skipNewlines => exact passes_skipNewlines cursor
  | seek position => exact absurd rfl (other position)

theorem error_of_settle {outcome : Except Raised Value × TokenCursor} {raised : Raised}
    (failed : (settle outcome).1 = .error raised) : outcome.1 = .error raised := by
  unfold settle at failed
  cases result : outcome.1 with
  | ok value =>
      rw [result] at failed
      cases failed
  | error found =>
      rw [result] at failed
      cases failed
      rfl

/-- Whatever is raised is raised for a fault of the token at which the cursor stands then. -/
theorem reports_perform {use : Use} {raised : Raised}
    (failed : (cursor.perform use).1 = .error raised) :
    (cursor.perform use).2.Reports raised := by
  cases use with
  | parse => exact reports_read careful_program (error_of_settle failed)
  | statement => exact reports_read careful_statement (error_of_settle failed)
  | declaration => exact reports_read careful_declaration (error_of_settle failed)
  | expression level => exact reports_read (careful_atLevel level) (error_of_settle failed)
  | expect kind expected => exact reports_expect (error_of_settle failed)
  | pass kinds => cases failed
  | advance => cases failed
  | skipNewlines => cases failed
  | seek position => cases failed

/-! ## Sessions -/

/-- A cursor that has gone on: never back, never past an end of the input that was ahead of it,
and not at all if nothing was ahead of it. -/
structure Onward (cursor reached : TokenCursor) : Prop where
  stream : reached.stream = cursor.stream
  forward : cursor.position ≤ reached.position
  bounded : ∀ (index : Nat) (last : Token), cursor.stream.toList[index]? = some last →
    last.kind = .endOfInput → cursor.position ≤ index → reached.position ≤ index
  still : cursor.stream.size ≤ cursor.position → reached = cursor

theorem Passes.onward (passes : Passes cursor reached) : Onward cursor reached := by
  cases passes with
  | @behind written rest split unended =>
      refine ⟨rfl, Nat.le_add_right _ _, ?_, ?_⟩
      · intro index last found ends ahead
        have further : cursor.remaining[index - cursor.position]? = some last := by
          rw [remaining, List.getElem?_drop, Nat.add_sub_cancel' ahead, found]
        have short := TokenStream.length_le_of_getElem? split unended further ends
        change cursor.position + written.length ≤ index
        omega
      · intro beyond
        have nothing : cursor.remaining = [] := List.drop_eq_nil_of_le beyond
        rw [nothing] at split
        rw [(List.append_eq_nil_iff.mp split.symm).1]
        rfl

theorem Onward.trans (first : Onward cursor reached) (second : Onward reached further) :
    Onward cursor further where
  stream := second.stream.trans first.stream
  forward := Nat.le_trans first.forward second.forward
  bounded := by
    intro index last found ends ahead
    have within := first.bounded index last found ends ahead
    rw [← first.stream] at found
    exact second.bounded index last found ends within
  still := by
    intro beyond
    have same := first.still beyond
    rw [second.still (by rwa [same]), same]

theorem onward_after (stream : TokenStream) (uses : List Use) {more : List Use}
    (unsought : ∀ position, .seek position ∉ more) :
    Onward (after stream uses) (after stream (uses ++ more)) := by
  induction more generalizing uses with
  | nil =>
      rw [List.append_nil]
      exact (passes_self _).onward
  | cons use more ih =>
      have first : Onward (after stream uses) (after stream (uses ++ [use])) := by
        rw [after_concat]
        apply Passes.onward
        apply passes_perform
        intro position same
        exact unsought position (same ▸ List.mem_cons_self)
      rw [List.append_cons]
      apply first.trans
      apply ih
      intro position member
      exact unsought position (List.mem_cons_of_mem _ member)

theorem stream_perform (cursor : TokenCursor) (use : Use) :
    (cursor.perform use).2.stream = cursor.stream := by
  by_cases sought : ∃ position, use = .seek position
  · obtain ⟨position, rfl⟩ := sought
    rfl
  · apply Onward.stream
    apply Passes.onward
    apply passes_perform
    exact not_exists.mp sought

theorem stream_after (stream : TokenStream) (uses : List Use) :
    (after stream uses).stream = stream := by
  have kept : ∀ cursor : TokenCursor,
      (uses.foldl (fun cursor use => (cursor.perform use).2) cursor).stream = cursor.stream := by
    induction uses with
    | nil => exact fun cursor => rfl
    | cons use uses ih => exact fun cursor => (ih _).trans (stream_perform cursor use)
  exact kept (atStart stream)

theorem program_of_ends (ends : ∀ token ∈ rest.head?, token.kind = .endOfInput) :
    program rest = .ok ([], rest) := by
  cases rest with
  | nil => rw [program]
  | cons last behind => exact program_of_end behind (ends last rfl)

/-- What holds of the kind ahead and of the end of the input holds of the current kind. -/
theorem kind_current (holds : Token.Kind → Prop)
    (ahead : ∀ token ∈ cursor.remaining.head?, holds token.kind) (ends : holds .endOfInput) :
    holds cursor.current.kind := by
  unfold current
  cases following : cursor.remaining with
  | nil =>
      rw [List.headD_nil, cursor.stream.final_kind]
      exact ends
  | cons token rest =>
      rw [following] at ahead
      exact ahead token rfl

theorem parse_of_ends (ends : ∀ token ∈ cursor.remaining.head?, token.kind = .endOfInput) :
    cursor.parse = (.ok [], cursor) := by
  have still : cursor.advanceTo cursor.remaining = cursor := by
    rw [advanceTo, Nat.sub_self]
    rfl
  rw [parse, read, program_of_ends ends]
  dsimp only
  rw [still]

/-- Behind a program that could be read the input ends. -/
theorem ends_of_parse {statements : List Stmt} (parsed : cursor.parse.1 = .ok statements) :
    ∀ token ∈ cursor.parse.2.remaining.head?, token.kind = .endOfInput := by
  have behind := careful_program cursor.remaining
  unfold parse at parsed ⊢
  rw [snd_read]
  cases result : program cursor.remaining with
  | error fault =>
      rw [read, result] at parsed
      cases parsed
  | ok found =>
      rw [result] at behind
      rw [remaining_advanceTo behind]
      obtain ⟨written, _, _, _, ends⟩ := program_accepted result
      exact ends

/-- Whatever is done with a cursor, its stream stays the same, and without a seek it only goes on.
What is raised is raised for a fault of the token where the cursor then stands. Behind a program
that could be read the input ends, and reading goes on with no statements and without moving. -/
theorem session_reads_onward (stream : TokenStream) (uses : List Use) :
    (after stream uses).stream = stream ∧
      (∀ more, (∀ position, .seek position ∉ more) →
        Onward (after stream uses) (after stream (uses ++ more))) ∧
      (∀ use raised, ((after stream uses).perform use).1 = .error raised →
        ∃ cause, raised = (Diagnostic.syntactic cause (after stream (uses ++ [use])).position
          (after stream (uses ++ [use])).current).raised) ∧
      ∀ statements, (after stream uses).parse.1 = .ok statements →
        (after stream (uses ++ [.parse])).current.kind = .endOfInput ∧
          (after stream (uses ++ [.parse])).parse = (.ok [], after stream (uses ++ [.parse])) := by
  refine ⟨stream_after stream uses, ?_, ?_, ?_⟩
  · intro more unsought
    exact onward_after stream uses unsought
  · intro use raised failed
    rw [after_concat]
    exact reports_perform failed
  · intro statements parsed
    rw [after_concat]
    have ends := ends_of_parse parsed
    exact ⟨kind_current (· = .endOfInput) ends rfl, parse_of_ends ends⟩

/-- No statement begins with a literal, but the number of this one is too long for a diagnostic
that says so. -/
theorem statement_raises_overlongNumber :
    ((after ⟨[⟨.integer, some (.number Numeral.leastOverlong), 0, 1, 1⟩],
      ⟨.endOfInput, none, 1, 1, 1⟩, rfl⟩ []).perform .statement).1 = .error .overlongNumber := by
  have written : (Numeral.leastOverlong : Int) ∈ (Diagnostic.syntactic .invalidStatement 0
      ⟨.integer, some (.number Numeral.leastOverlong), 0, 1, 1⟩).numbers :=
    .tail _ (.head _)
  rw [← Diagnostic.raised_of_mem_numbers written Numeral.not_isWritable_leastOverlong]
  rfl

end TokenCursor

end LuneSyntax
