import LuneSyntax.Proofs.Analysis.Dropped
import LuneSyntax.Proofs.Lexeme.InsertedLayout

/-!
# Dropped characters as blanks

A dropped character acts like a space in its place. It separates the lexemes around it, and it
moves no token and no failure. What is reported about it is the character and its line.
-/

set_option autoImplicit false

namespace LuneSyntax

namespace Lexeme

variable {policy : UnknownPolicy} {rest text other : List Char} {front : List Lexeme}

/-! ## Texts with spaces in place of characters -/

/-- The other text is the same but for spaces in place of some characters. -/
def Blanks (text other : List Char) : Prop :=
  List.Forall₂ (fun character replaced => replaced = character ∨ replaced = ' ') text other

theorem blanks_refl (text : List Char) : Blanks text text := by
  induction text with
  | nil => exact .nil
  | cons _ _ ih => exact .cons (.inl rfl) ih

theorem Blanks.append_left (blanks : Blanks rest other) (text : List Char) :
    Blanks (text ++ rest) (text ++ other) := by
  induction text with
  | nil => exact blanks
  | cons _ _ ih => exact .cons (.inl rfl) ih

theorem Blanks.same_or_space (blanks : Blanks text other) {next : Char}
    (member : next ∈ other.head?) : next ∈ text.head? ∨ next = ' ' := by
  cases blanks with
  | nil => cases member
  | cons replaced _ =>
      cases member
      exact replaced.imp_left (congrArg some ·.symm)

/-- A line end is not written with spaces, so it stands in the text itself. -/
theorem Blanks.joins (blanks : Blanks text other) (joins : Joins other) : Joins text := by
  obtain ⟨after, rfl | rfl⟩ := joins
  · obtain _ | ⟨replaced, _⟩ := blanks
    obtain rfl := replaced.resolve_right (by decide)
    exact ⟨_, .inl rfl⟩
  · obtain _ | ⟨replaced, _ | ⟨replacedNext, _⟩⟩ := blanks
    obtain rfl := replaced.resolve_right (by decide)
    obtain rfl := replacedNext.resolve_right (by decide)
    exact ⟨_, .inr rfl⟩

theorem Blanks.allows (blanks : Blanks rest other) : Allows front rest other where
  next := by
    intro next member
    rcases blanks.same_or_space member with same | rfl
    · exact .inl same
    · exact .inr (.inl (by decide))
  comment := by
    rintro rfl _ _ _
    cases blanks
    rfl
  joint := fun _ _ joins => joins.exchange
    (fun next => (blanks.same_or_space next).resolve_right (by decide)) blanks.joins

/-! ## Lexemes with spaces in place of dropped ones -/

/-- A space, if the lexeme is dropped, and else the lexeme itself. -/
def blanked (lexeme : Lexeme) : Lexeme :=
  if lexeme.content = .dropped then ⟨' ', [], .layout⟩ else lexeme

theorem eq_of_dropped {first : Char} {lexeme : Lexeme}
    (found : readUnder policy first rest = .ok lexeme) (dropped : lexeme.content = .dropped) :
    lexeme = ⟨first, [], .dropped⟩ ∧ first ≠ '\n' := by
  have readable := (read_of_readUnder found).1
  rcases read_matches readable with ⟨shape, fits⟩ | ⟨same, _⟩
  · exact absurd dropped fits.content_ne_dropped
  · refine ⟨same, ?_⟩
    rintro rfl
    rw [read_layout (by decide)] at readable
    rw [← Except.ok.inj readable] at dropped
    cases dropped

theorem Cut.blanks (cut : Cut policy rest front) :
    Blanks (textOf front ++ rest) (textOf (front.map blanked) ++ rest) := by
  induction cut with
  | nil => exact blanks_refl rest
  | @cons lexeme lexemes read _ ih =>
      rw [List.map_cons, textOf_cons, textOf_cons, List.append_assoc, List.append_assoc]
      by_cases dropped : lexeme.content = .dropped
      · rw [(eq_of_dropped read dropped).1]
        exact .cons (.inr rfl) ih
      · rw [blanked, if_neg dropped]
        exact ih.append_left lexeme.text

theorem Cut.blanked (cut : Cut policy rest front) {other : UnknownPolicy} :
    Cut other rest (front.map blanked) := by
  induction cut with
  | nil => exact .nil
  | @cons lexeme lexemes read following ih =>
      rw [List.map_cons]
      refine .cons ?_ ih
      by_cases dropped : lexeme.content = .dropped
      · rw [Lexeme.blanked, if_pos dropped]
        exact readUnder_space _
      · rw [Lexeme.blanked, if_neg dropped]
        exact readUnder_of_kept (readUnder_exchange read following.blanks.allows) dropped

theorem token?_blanked (lexeme : Lexeme) (place : Place) :
    lexeme.blanked.token? place = lexeme.token? place := by
  unfold Lexeme.blanked
  split
  · rename_i dropped
    rw [token?, token?, dropped]
  · rfl

theorem after_text_blanked {lexeme : Lexeme}
    (found : readUnder policy lexeme.first rest = .ok lexeme) (place : Place) :
    place.after lexeme.blanked.text = place.after lexeme.text := by
  by_cases dropped : lexeme.content = .dropped
  · obtain ⟨same, different⟩ := eq_of_dropped found dropped
    rw [same]
    simp [Place.after, Lexeme.blanked, text, different]
  · rw [Lexeme.blanked, if_neg dropped]

theorem Cut.after_blanked (cut : Cut policy rest front) (place : Place) :
    place.after (textOf (front.map Lexeme.blanked)) = place.after (textOf front) := by
  induction cut generalizing place with
  | nil => rfl
  | cons read _ ih =>
      rw [List.map_cons, textOf_cons, textOf_cons, Place.after_append, Place.after_append, ih,
        after_text_blanked read]

theorem Cut.tokensFrom_blanked (cut : Cut policy rest front) (place : Place) :
    tokensFrom place (front.map Lexeme.blanked) = tokensFrom place front := by
  induction cut generalizing place with
  | nil => rfl
  | cons read _ ih =>
      rw [List.map_cons, tokensFrom, tokensFrom, token?_blanked, after_text_blanked read, ih]

end Lexeme

/-! ## Sources with spaces in place of dropped characters -/

/-- The source with a space at each of the positions. -/
def blankAt (positions : List Nat) (source : List Char) : List Char :=
  positions.foldl (fun text position => text.set position ' ') source

theorem Lexeme.Cut.blankAt_dropped {policy : UnknownPolicy} {rest : List Char}
    {front : List Lexeme} (cut : Cut policy rest front) {before : List Char} {place : Place}
    (reached : before.length = place.offset) :
    blankAt ((droppedFrom place front).map (·.1.offset)) (before ++ (textOf front ++ rest)) =
      before ++ (textOf (front.map Lexeme.blanked) ++ rest) := by
  induction cut generalizing before place with
  | nil => rfl
  | @cons lexeme lexemes read _ ih =>
      have behind : (before ++ lexeme.blanked.text).length =
          (place.after lexeme.text).offset := by
        rw [← after_text_blanked read, List.length_append, reached]
        rfl
      have following := ih behind
      rw [List.append_assoc, List.append_assoc] at following
      rw [List.map_cons, textOf_cons, textOf_cons, droppedFrom, List.append_assoc,
        List.append_assoc, ← following]
      by_cases dropped : lexeme.content = .dropped
      · rw [if_pos dropped, Lexeme.blanked, if_pos dropped, (eq_of_dropped read dropped).1]
        simp [blankAt, text, ← reached]
      · rw [if_neg dropped, Lexeme.blanked, if_neg dropped]

def Event.isSkipped : Event → Bool
  | .skipped _ _ => true
  | _ => false

theorem Lexing.filter_events (lexing : Lexing) :
    lexing.events.filter Event.isSkipped =
      lexing.dropped.map fun entry => .skipped entry.2 entry.1.line := by
  have skipped : ∀ event ∈ lexing.dropped.map fun entry => .skipped entry.2 entry.1.line,
      Event.isSkipped event = true := by
    intro event member
    obtain ⟨entry, _, rfl⟩ := List.mem_map.mp member
    rfl
  unfold events
  cases lexing.flaw with
  | some flaw =>
      rw [List.append_nil]
      exact List.filter_eq_self.mpr skipped
  | none =>
      rw [List.filter_append, List.filter_eq_self.mpr skipped]
      exact List.append_nil _

/-- An outcome depends on the tokens, on where they end and on what is wrong there. -/
theorem Lexing.outcome_congr {lexing other : Lexing} (tokens : other.tokens = lexing.tokens)
    (stop : other.stop = lexing.stop) (flaw : other.flaw = lexing.flaw) :
    other.outcome = lexing.outcome := by
  simp only [outcome, stream, tokens, stop, flaw]

theorem Lexeme.Cut.scan_blanked {rest : List Char} {front : List Lexeme}
    (cut : Cut .skip rest front) (stuck : (lex .skip rest).lexemes = []) :
    scan .reject (textOf (front.map Lexeme.blanked) ++ rest) =
      scan .skip (textOf front ++ rest) := by
  have same : lex .reject rest = lex .skip rest := by
    refine lex_of_kept fun lexeme member => ?_
    rw [stuck] at member
    cases member
  have blankedCut : Cut .reject rest (front.map Lexeme.blanked) := cut.blanked
  rw [scan, scan, cut.lex_eq, blankedCut.lex_eq, same]
  refine Lexing.outcome_congr ?_ ?_ rfl
  · rw [Lexing.tokens, Lexing.tokens, Lexing.behind, Lexing.behind, tokensFrom_append,
      tokensFrom_append, cut.tokensFrom_blanked, cut.after_blanked]
  · rw [Lexing.stop_behind, Lexing.stop_behind, cut.after_blanked]

theorem scan_reject_blankAt (source : List Char) :
    scan .reject (blankAt (lex .skip source).droppedPositions source) = scan .skip source := by
  obtain ⟨rest, whole, cut, stuck, _⟩ := Lexeme.exists_cut_of_lex .skip source
  have blanked : blankAt (lex .skip source).droppedPositions source =
      Lexeme.textOf ((lex .skip source).lexemes.map Lexeme.blanked) ++ rest := by
    have begun : ([] : List Char).length = Place.start.offset := rfl
    have replaced := cut.blankAt_dropped begun
    rw [List.nil_append, ← whole] at replaced
    exact replaced
  rw [blanked, cut.scan_blanked stuck, ← whole]

/-- The event reports the character at the position, on the line that the position is on. -/
def ReportsAt (source : List Char) (position : Nat) (event : Event) : Prop :=
  ∃ character, source[position]? = some character ∧
    event = .skipped character (1 + (source.take position).count '\n')

theorem forall₂_reportsAt (policy : UnknownPolicy) (source : List Char) :
    List.Forall₂ (ReportsAt source) (lex policy source).droppedPositions
      ((lex policy source).events.filter Event.isSkipped) := by
  rw [Lexing.filter_events, Lexing.droppedPositions, List.forall₂_map_left_iff,
    List.forall₂_map_right_iff, List.forall₂_same]
  intro entry member
  obtain ⟨found, placed⟩ := place_of_mem_dropped member
  exact ⟨entry.2, found, congrArg (Event.skipped entry.2 ·.line) placed⟩

/-- With a space in place of every dropped character a source is scanned to the same tokens or to
the same failure, and nothing is rejected. Each dropped character is reported once, in order. -/
theorem scan_blankAt_dropped (source : List Char) :
    DropsAt source (lex .skip source).droppedPositions ∧
      scan .reject (blankAt (lex .skip source).droppedPositions source) = scan .skip source ∧
      List.Forall₂ (ReportsAt source) (lex .skip source).droppedPositions
        ((lex .skip source).events.filter Event.isSkipped) :=
  ⟨dropsAt_droppedPositions source, scan_reject_blankAt source, forall₂_reportsAt .skip source⟩

end LuneSyntax
