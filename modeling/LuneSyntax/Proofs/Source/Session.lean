import LuneSyntax.Proofs.Lexeme.Boundary
import LuneSyntax.Source.Scanner

/-!
# Scanner sessions

A scanner is used in any order: scanned, stepped, moved by hand, given another source or policy.
The tokens it has recorded always lie in order in front of the place where it stands. A full scan
forgets what was there, and is nothing but turns from the start until one fails or none is left.
-/

set_option autoImplicit false

namespace LuneSyntax

/-! ## Tokens in front of a place -/

/-- Tokens that stand one behind the other in front of a place. The lines are those on which
tokens start, so they may be passed before the token ends. -/
structure Recorded (place : Place) (tokens : List Token) : Prop where
  spans : ∀ token ∈ tokens, token.start ≤ token.stop
  disjoint : tokens.Pairwise fun token next => token.stop ≤ next.start
  lines : tokens.Pairwise fun token next => token.line ≤ next.line
  stops : ∀ token ∈ tokens, token.stop ≤ place.offset
  reached : ∀ token ∈ tokens, token.line ≤ place.line

namespace Recorded

variable {place further : Place} {tokens : List Token}

theorem nil (place : Place) : Recorded place [] where
  spans := List.forall_mem_nil _
  disjoint := .nil
  lines := .nil
  stops := List.forall_mem_nil _
  reached := List.forall_mem_nil _

theorem mono (recorded : Recorded place tokens) (offset : place.offset ≤ further.offset)
    (line : place.line ≤ further.line) : Recorded further tokens where
  spans := recorded.spans
  disjoint := recorded.disjoint
  lines := recorded.lines
  stops := by
    intro token member
    have stop := recorded.stops token member
    omega
  reached := by
    intro token member
    have reached := recorded.reached token member
    omega

theorem append (recorded : Recorded place tokens) {token : Token}
    (starts : (place.offset : Int) ≤ token.start) (spans : token.start ≤ token.stop)
    (stops : token.stop ≤ further.offset) (begun : (place.line : Int) ≤ token.line)
    (ended : token.line ≤ further.line) : Recorded further (tokens ++ [token]) := by
  have offset : place.offset ≤ further.offset := by omega
  have line : place.line ≤ further.line := by omega
  have before := recorded.mono offset line
  refine ⟨?_, ?_, ?_, ?_, ?_⟩
  · rw [List.forall_mem_append]
    exact ⟨before.spans, by simpa using spans⟩
  · apply List.pairwise_append.mpr
    refine ⟨recorded.disjoint, List.pairwise_singleton _ _, ?_⟩
    intro earlier member next last
    have stop := recorded.stops earlier member
    rw [List.mem_singleton.mp last]
    omega
  · apply List.pairwise_append.mpr
    refine ⟨recorded.lines, List.pairwise_singleton _ _, ?_⟩
    intro earlier member next last
    have reached := recorded.reached earlier member
    rw [List.mem_singleton.mp last]
    omega
  · rw [List.forall_mem_append]
    exact ⟨before.stops, by simpa using stops⟩
  · rw [List.forall_mem_append]
    exact ⟨before.reached, by simpa using ended⟩

theorem token? (recorded : Recorded place tokens) (lexeme : Lexeme) :
    Recorded (place.after lexeme.text) (tokens ++ (lexeme.token? place).toList) := by
  have offset : place.offset ≤ (place.after lexeme.text).offset := Nat.le_add_right _ _
  have line : place.line ≤ (place.after lexeme.text).line := Nat.le_add_right _ _
  unfold Lexeme.token?
  cases lexeme.content with
  | token kind payload =>
      apply recorded.append
      · exact le_refl _
      · exact Int.ofNat_le.mpr offset
      · exact le_refl _
      · exact le_refl _
      · exact Int.ofNat_le.mpr line
  | layout => simpa using recorded.mono offset line
  | dropped => simpa using recorded.mono offset line

end Recorded

namespace Scanner

variable {scanner reached : Scanner}

/-! ## Turns -/

/-- What a turn of a scanner can be. At the end nothing happens. A lexeme that is read is passed,
and its token recorded. One that cannot be completed is opened and passed as far as it was read. -/
inductive Turned (scanner : Scanner) : Turn × Scanner → Prop where
  | atEnd : scanner.remaining = [] → Turned scanner (.atEnd, scanner)
  | read {lexeme : Lexeme} {rest : List Char} :
      scanner.remaining = lexeme.text ++ rest →
      Lexeme.readUnder scanner.policy lexeme.first (lexeme.more ++ rest) = .ok lexeme →
      Turned scanner (.read (lexeme.token? scanner.place),
        { scanner with
          tokens := scanner.tokens ++ (lexeme.token? scanner.place).toList
          start := scanner.position
          position := scanner.position + lexeme.text.length
          line := scanner.line + lexeme.text.count '\n' })
  | failed {first : Char} {rest : List Char} {flaw : Lexeme.Flaw} :
      scanner.remaining = first :: rest →
      Lexeme.readUnder scanner.policy first rest = .error flaw →
      Turned scanner (.failed ⟨flaw.cause, scanner.place⟩,
        { scanner with
          start := scanner.position
          position := scanner.position + flaw.consumed.length
          line := scanner.line + flaw.consumed.count '\n' })

theorem turned_step (scanner : Scanner) : Turned scanner scanner.step := by
  unfold step
  split
  · rename_i nothing
    exact .atEnd nothing
  · rename_i first rest ahead
    dsimp only
    split
    · rename_i lexeme found
      have whole := Lexeme.text_append_of_readUnder found
      apply Turned.read (ahead.trans whole.symm)
      obtain ⟨rfl, (same : lexeme.more ++ _ = rest)⟩ := List.cons.inj whole
      rwa [same]
    · rename_i flaw found
      exact .failed ahead found

theorem step_of_read {lexeme : Lexeme} {rest : List Char}
    (ahead : scanner.remaining = lexeme.text ++ rest)
    (read : Lexeme.readUnder scanner.policy lexeme.first (lexeme.more ++ rest) = .ok lexeme) :
    scanner.step = (.read (lexeme.token? scanner.place),
      { scanner with
        tokens := scanner.tokens ++ (lexeme.token? scanner.place).toList
        start := scanner.position
        position := scanner.position + lexeme.text.length
        line := scanner.line + lexeme.text.count '\n' }) := by
  unfold step
  rw [ahead, Lexeme.text, List.cons_append]
  dsimp only
  rw [read]
  rfl

/-- What a turn brings about: nothing at the end, a further position and at most one token for a
lexeme, and no token if there is none. -/
inductive Progress (scanner : Scanner) : Turn × Scanner → Prop where
  | atEnd : scanner.atEnd = true → Progress scanner (.atEnd, scanner)
  | read {token? : Option Token} {reached : Scanner} : scanner.atEnd = false →
      scanner.position < reached.position →
      reached.tokens = scanner.tokens ++ token?.toList → Progress scanner (.read token?, reached)
  | failed {failure : ScanFailure} {reached : Scanner} : scanner.atEnd = false →
      reached.tokens = scanner.tokens → Progress scanner (.failed failure, reached)

theorem remaining_of_split {front rest : List Char} (split : scanner.source = front ++ rest)
    (position : scanner.position = (Place.start.after front).offset) :
    scanner.remaining = rest := by
  rw [remaining, split, position, Lexeme.start_after]
  exact List.drop_left

theorem atEnd_iff : scanner.atEnd = true ↔ scanner.remaining = [] := by
  simp [atEnd, remaining]

theorem atEnd_eq_false_of_cons {first : Char} {rest : List Char}
    (ahead : scanner.remaining = first :: rest) : scanner.atEnd = false := by
  rw [Bool.eq_false_iff, ne_eq, atEnd_iff, ahead]
  exact List.cons_ne_nil _ _

theorem progress_step (scanner : Scanner) : Progress scanner scanner.step := by
  have turned := turned_step scanner
  generalize scanner.step = result at turned ⊢
  cases turned with
  | atEnd nothing => exact .atEnd (atEnd_iff.mpr nothing)
  | read ahead _ =>
      apply Progress.read (atEnd_eq_false_of_cons ahead)
      · exact Nat.lt_add_of_pos_right (Nat.succ_pos _)
      · rfl
  | failed ahead _ => exact .failed (atEnd_eq_false_of_cons ahead) rfl

/-! ## Uses -/

inductive Use where
  | scan
  | step
  | peek (distance : Nat)
  | atEnd
  | advance
  | skipComment
  | setSource (source : List Char)
  | setPolicy (policy : UnknownPolicy)
  deriving DecidableEq, Repr

/-- The scanner after a use. Looking ahead and asking for the end leave it as it is. -/
def perform (scanner : Scanner) : Use → Scanner
  | .scan => scanner.scan.2
  | .step => scanner.step.2
  | .peek _ => scanner
  | .atEnd => scanner
  | .advance => scanner.advance
  | .skipComment => scanner.skipComment
  | .setSource source => { scanner with source := source }
  | .setPolicy policy => { scanner with policy := policy }

def renewed (scanner : Scanner) : Scanner :=
  { source := scanner.source, policy := scanner.policy }

/-- The scanner of a source after uses one after the other. -/
def after (source : List Char) (policy : UnknownPolicy) (uses : List Use) : Scanner :=
  uses.foldl perform { source := source, policy := policy }

@[simp]
theorem after_nil (source : List Char) (policy : UnknownPolicy) :
    after source policy [] = { source := source, policy := policy } := rfl

theorem after_concat (source : List Char) (policy : UnknownPolicy) (uses : List Use) (use : Use) :
    after source policy (uses ++ [use]) = (after source policy uses).perform use :=
  List.foldl_concat _ _ _ _

/-! ## Full scans -/

/-- Turns in front of lexemes that are read one behind the other pass one lexeme each. -/
theorem exists_after_turns {policy : UnknownPolicy} {source rest : List Char}
    {front : List Lexeme} (cut : Lexeme.Cut policy rest front)
    (split : source = Lexeme.textOf front ++ rest) :
    ∃ start, after source policy (List.replicate front.length .step) =
      { source := source
        policy := policy
        tokens := Lexeme.tokensFrom .start front
        start := start
        position := (Place.start.after (Lexeme.textOf front)).offset
        line := (Place.start.after (Lexeme.textOf front)).line } := by
  induction front using List.reverseRecOn generalizing rest with
  | nil => exact ⟨0, rfl⟩
  | append_singleton front lexeme ih =>
      obtain ⟨frontCut, lexemeCut⟩ := cut.split
      obtain ⟨start, reached⟩ := ih frontCut (by simpa using split)
      cases lexemeCut with
      | cons read _ =>
          rw [Lexeme.textOf_append, List.append_assoc] at split
          have ahead : (after source policy (List.replicate front.length .step)).remaining =
              lexeme.text ++ rest := by
            rw [reached]
            apply remaining_of_split _ rfl
            rwa [Lexeme.textOf_cons, Lexeme.textOf_nil, List.append_nil] at split
          refine ⟨(Place.start.after (Lexeme.textOf front)).offset, ?_⟩
          rw [List.length_append, List.length_singleton, List.replicate_succ', after_concat,
            perform, step_of_read ahead (by rw [reached]; exact read), reached]
          simp only [Lexeme.tokensFrom_append, Lexeme.textOf_append, Place.after_append,
            Lexeme.tokensFrom, Lexeme.textOf_cons, Lexeme.textOf_nil, List.append_nil]
          rfl

/-- How a full scan ends: with a turn that fails, or where no turn is left, behind an
end-of-input token. -/
inductive Ends (scanner : Scanner) : Except ScanFailure TokenStream × Scanner → Prop where
  | failed {failure : ScanFailure} {reached : Scanner} :
      scanner.step = (.failed failure, reached) → Ends scanner (.error failure, reached)
  | closed (stream : TokenStream) : scanner.atEnd = true →
      stream.toList = scanner.tokens ++
        [⟨.endOfInput, none, scanner.position, scanner.position, scanner.line⟩] →
      Ends scanner (.ok stream,
        { scanner with tokens := stream.toList, start := scanner.position })

/-- A full scan consists of turns from the start of the source on, whatever was done before. -/
theorem exists_turns_of_scan (scanner : Scanner) :
    ∃ turns, Ends (after scanner.source scanner.policy (List.replicate turns .step))
      scanner.scan := by
  obtain ⟨rest, split, cut, nothing, flawed⟩ :=
    Lexeme.exists_cut_of_lex scanner.policy scanner.source
  obtain ⟨start, reached⟩ := exists_after_turns cut split
  refine ⟨(lex scanner.policy scanner.source).lexemes.length, ?_⟩
  have ahead := remaining_of_split ((congrArg Scanner.source reached).trans split)
    (congrArg Scanner.position reached)
  cases rest with
  | nil =>
      rw [lex] at flawed
      rw [scan, ← flawed]
      have closed := Ends.closed (lex scanner.policy scanner.source).stream
        (atEnd_iff.mpr ahead) (by rw [reached]; rfl)
      rw [reached] at closed ⊢
      exact closed
  | cons first rest =>
      rw [lex] at nothing flawed
      cases read : Lexeme.readUnder scanner.policy first rest with
      | ok lexeme =>
          rw [read] at nothing
          cases nothing
      | error flaw =>
          rw [read] at flawed
          rw [scan, ← flawed]
          apply Ends.failed
          rw [step, ahead, reached]
          dsimp only
          rw [read]
          rfl

/-! ## What every use keeps -/

/-- The window is in order, lines count from one, and the recorded tokens lie before the place. -/
structure Sound (scanner : Scanner) : Prop where
  window : scanner.start ≤ scanner.position
  line : 1 ≤ scanner.line
  recorded : Recorded scanner.place scanner.tokens

theorem sound_fresh (source : List Char) (policy : UnknownPolicy) :
    Sound { source := source, policy := policy } where
  window := le_refl _
  line := le_refl _
  recorded := .nil _

theorem Sound.past (sound : scanner.Sound) (text : List Char) : (scanner.past text).Sound where
  window := Nat.le_add_right_of_le sound.window
  line := Nat.le_add_right_of_le sound.line
  recorded := sound.recorded.mono (Nat.le_add_right _ _) (Nat.le_add_right _ _)

theorem Sound.step (sound : scanner.Sound) : scanner.step.2.Sound := by
  have turned := turned_step scanner
  generalize scanner.step = result at turned ⊢
  cases turned with
  | atEnd _ => exact sound
  | @read lexeme _ _ _ =>
      exact ⟨Nat.le_add_right _ _, Nat.le_add_right_of_le sound.line,
        sound.recorded.token? lexeme⟩
  | failed _ _ =>
      exact ⟨Nat.le_add_right _ _, Nat.le_add_right_of_le sound.line,
        sound.recorded.mono (Nat.le_add_right _ _) (Nat.le_add_right _ _)⟩

theorem sound_after_of (source : List Char) (policy : UnknownPolicy) {uses : List Use}
    (kept : ∀ use ∈ uses, ∀ scanner : Scanner, scanner.Sound → (scanner.perform use).Sound) :
    (after source policy uses).Sound := by
  induction uses using List.reverseRecOn with
  | nil => exact sound_fresh source policy
  | append_singleton uses use ih =>
      rw [after_concat]
      apply kept use List.mem_concat_self
      apply ih
      intro earlier member
      exact kept earlier (List.mem_append_left _ member)

theorem Ends.sound {result : Except ScanFailure TokenStream × Scanner}
    (ends : Ends scanner result) (sound : scanner.Sound) : result.2.Sound := by
  cases ends with
  | failed turn =>
      have stepped := sound.step
      rwa [turn] at stepped
  | closed stream _ listed =>
      refine ⟨le_refl _, sound.line, ?_⟩
      rw [listed]
      exact sound.recorded.append (le_refl _) (le_refl _) (le_refl _) (le_refl _) (le_refl _)

theorem sound_scan (scanner : Scanner) : scanner.scan.2.Sound := by
  obtain ⟨turns, ends⟩ := exists_turns_of_scan scanner
  apply ends.sound
  apply sound_after_of
  intro use member
  rw [List.eq_of_mem_replicate member]
  exact fun _ sound => sound.step

theorem Sound.perform (sound : scanner.Sound) (use : Use) : (scanner.perform use).Sound := by
  cases use with
  | scan => exact sound_scan scanner
  | step => exact sound.step
  | peek _ => exact sound
  | atEnd => exact sound
  | advance =>
      exact ⟨Nat.le_add_right_of_le sound.window, sound.line,
        sound.recorded.mono (Nat.le_add_right _ _) (le_refl _)⟩
  | skipComment => exact sound.past _
  | setSource _ => exact ⟨sound.window, sound.line, sound.recorded⟩
  | setPolicy _ => exact ⟨sound.window, sound.line, sound.recorded⟩

/-- A scanner that has gone on without a full scan, by at most so many turns. -/
structure Grown (turns : Nat) (scanner reached : Scanner) : Prop where
  position : scanner.position ≤ reached.position
  line : scanner.line ≤ reached.line
  tokens : ∃ added, reached.tokens = scanner.tokens ++ added ∧ added.length ≤ turns

theorem Grown.of_tokens_eq (position : scanner.position ≤ reached.position)
    (line : scanner.line ≤ reached.line) (same : reached.tokens = scanner.tokens) :
    Grown 0 scanner reached :=
  ⟨position, line, [], by rw [same, List.append_nil], le_refl _⟩

theorem Grown.trans {turns more : Nat} {further : Scanner} (first : Grown turns scanner reached)
    (second : Grown more reached further) : Grown (turns + more) scanner further := by
  obtain ⟨added, listed, few⟩ := first.tokens
  obtain ⟨others, behind, fewer⟩ := second.tokens
  refine ⟨first.position.trans second.position, first.line.trans second.line,
    added ++ others, ?_, ?_⟩
  · rw [behind, listed, List.append_assoc]
  · rw [List.length_append]
    omega

theorem grown_step (scanner : Scanner) : Grown 1 scanner scanner.step.2 := by
  have turned := turned_step scanner
  generalize scanner.step = result at turned ⊢
  cases turned with
  | atEnd _ => exact ⟨le_refl _, le_refl _, [], (List.append_nil _).symm, Nat.zero_le _⟩
  | read _ _ =>
      exact ⟨Nat.le_add_right _ _, Nat.le_add_right _ _, _, rfl, Option.length_toList_le⟩
  | failed _ _ =>
      exact ⟨Nat.le_add_right _ _, Nat.le_add_right _ _, [], (List.append_nil _).symm,
        Nat.zero_le _⟩

theorem grown_perform (scanner : Scanner) {use : Use} (other : use ≠ .scan) :
    Grown ([use].count .step) scanner (scanner.perform use) := by
  cases use with
  | scan => exact absurd rfl other
  | step => exact grown_step scanner
  | peek _ => exact .of_tokens_eq (le_refl _) (le_refl _) rfl
  | atEnd => exact .of_tokens_eq (le_refl _) (le_refl _) rfl
  | advance => exact .of_tokens_eq (Nat.le_add_right _ _) (le_refl _) rfl
  | skipComment => exact .of_tokens_eq (Nat.le_add_right _ _) (Nat.le_add_right _ _) rfl
  | setSource _ => exact .of_tokens_eq (le_refl _) (le_refl _) rfl
  | setPolicy _ => exact .of_tokens_eq (le_refl _) (le_refl _) rfl

theorem grown_after (source : List Char) (policy : UnknownPolicy) (uses : List Use)
    {more : List Use} (unscanned : .scan ∉ more) :
    Grown (more.count .step) (after source policy uses) (after source policy (uses ++ more)) := by
  induction more using List.reverseRecOn with
  | nil =>
      rw [List.append_nil]
      exact .of_tokens_eq (le_refl _) (le_refl _) rfl
  | append_singleton more use ih =>
      rw [List.mem_append, not_or, List.mem_singleton] at unscanned
      rw [← List.append_assoc, after_concat, List.count_append]
      exact (ih unscanned.1).trans (grown_perform _ (Ne.symm unscanned.2))

@[simp]
theorem fst_scan (scanner : Scanner) :
    scanner.scan.1 = LuneSyntax.scan scanner.policy scanner.source := by
  cases flawed : (lex scanner.policy scanner.source).flaw with
  | none => simp only [scan, LuneSyntax.scan, Lexing.outcome, flawed]
  | some flaw => simp only [scan, LuneSyntax.scan, Lexing.outcome, flawed]

/-- After any uses of a scanner its state is in order. Until the next full scan it only goes on,
and records a token only by a turn, which makes progress or fails without a trace in the record.
A full scan consists of turns of a scanner that was never used, until one of them fails or none is
left. It finds what a scan of the present source under the present policy finds, and leaves the
scanner as it leaves one that was never used. -/
theorem session_sound (source : List Char) (policy : UnknownPolicy) (uses : List Use) :
    (after source policy uses).Sound ∧
      (∀ more, .scan ∉ more → Grown (more.count .step) (after source policy uses)
        (after source policy (uses ++ more))) ∧
      Progress (after source policy uses) (after source policy uses).step ∧
      (∃ turns, Ends (after (after source policy uses).source (after source policy uses).policy
        (List.replicate turns .step)) (after source policy uses).scan) ∧
      (after source policy uses).scan.1 =
        LuneSyntax.scan (after source policy uses).policy (after source policy uses).source ∧
      (after source policy uses).scan = (after source policy uses).renewed.scan := by
  refine ⟨?_, ?_, ?_, ?_, ?_, ?_⟩
  · apply sound_after_of
    exact fun use _ scanner sound => sound.perform use
  · intro more unscanned
    exact grown_after source policy uses unscanned
  · exact progress_step _
  · exact exists_turns_of_scan _
  · exact fst_scan _
  · rfl

end Scanner

end LuneSyntax
