import LuneSyntax.Analysis.Event
import LuneSyntax.Proofs.Lexeme.Decomposition
import LuneSyntax.Proofs.Lexeme.Limit
import LuneSyntax.Source.Scanner

/-!
# Dropped characters

Where a scan that skips unknown characters drops one: at the boundaries in front of which nothing
begins. A scan that rejects them goes the same way up to the first of these positions and ends
there, whatever would have come behind it.
-/

set_option autoImplicit false

namespace LuneSyntax

namespace Lexeme

variable {policy other : UnknownPolicy} {place reached : Place} {character first : Char}
  {rest : List Char} {lexeme : Lexeme} {front lexemes : List Lexeme}

/-! ## The record of dropped characters -/

theorem droppedFrom_append (place : Place) (front back : List Lexeme) :
    droppedFrom place (front ++ back) =
      droppedFrom place front ++ droppedFrom (place.after (textOf front)) back := by
  induction front generalizing place with
  | nil => rfl
  | cons lexeme front ih =>
      simp only [List.cons_append, droppedFrom, ih, textOf_cons, Place.after_append]
      split <;> rfl

theorem droppedFrom_eq_nil_iff :
    droppedFrom place lexemes = [] ↔ ∀ lexeme ∈ lexemes, lexeme.content ≠ .dropped := by
  induction lexemes generalizing place with
  | nil => simp [droppedFrom]
  | cons lexeme lexemes ih =>
      rw [droppedFrom, List.forall_mem_cons, ← @ih (place.after lexeme.text)]
      split <;> simp_all

/-- Each record divides the lexemes at the dropped one that it belongs to. -/
theorem exists_of_droppedFrom_eq_append {before later : List (Place × Char)}
    (recorded : droppedFrom place lexemes = before ++ (reached, character) :: later) :
    ∃ front lexeme back, lexemes = front ++ lexeme :: back ∧ droppedFrom place front = before ∧
      lexeme.content = .dropped ∧ lexeme.first = character ∧
      reached = place.after (textOf front) := by
  induction lexemes generalizing place before with
  | nil => simp [droppedFrom] at recorded
  | cons lexeme lexemes ih =>
      rw [droppedFrom] at recorded
      by_cases dropped : lexeme.content = .dropped
      · rw [if_pos dropped] at recorded
        cases before with
        | nil =>
            obtain ⟨rfl, rfl⟩ := Prod.mk.inj (List.cons.inj recorded).1
            exact ⟨[], lexeme, lexemes, rfl, rfl, dropped, rfl, rfl⟩
        | cons entry before =>
            obtain ⟨rfl, behind⟩ := List.cons.inj recorded
            obtain ⟨front, found, back, rfl, rfl, foundDropped, same, place_eq⟩ := ih behind
            refine ⟨lexeme :: front, found, back, rfl, if_pos dropped, foundDropped, same, ?_⟩
            rw [place_eq, textOf_cons, Place.after_append]
      · rw [if_neg dropped] at recorded
        obtain ⟨front, found, back, rfl, rfl, foundDropped, same, place_eq⟩ := ih recorded
        refine ⟨lexeme :: front, found, back, rfl, if_neg dropped, foundDropped, same, ?_⟩
        rw [place_eq, textOf_cons, Place.after_append]

theorem mem_droppedFrom_iff :
    (reached, character) ∈ droppedFrom place lexemes ↔
      ∃ front lexeme back, lexemes = front ++ lexeme :: back ∧ lexeme.content = .dropped ∧
        lexeme.first = character ∧ reached = place.after (textOf front) := by
  constructor
  · intro member
    obtain ⟨before, later, recorded⟩ := List.append_of_mem member
    obtain ⟨front, lexeme, back, split, _, dropped⟩ := exists_of_droppedFrom_eq_append recorded
    exact ⟨front, lexeme, back, split, dropped⟩
  · rintro ⟨front, lexeme, back, rfl, dropped, rfl, rfl⟩
    rw [droppedFrom_append, droppedFrom, if_pos dropped]
    exact List.mem_append_right _ List.mem_cons_self

theorem offset_le_of_mem_droppedFrom {entry : Place × Char}
    (member : entry ∈ droppedFrom place lexemes) : place.offset ≤ entry.1.offset := by
  obtain ⟨front, _, _, _, _, _, reached⟩ := mem_droppedFrom_iff.mp member
  rw [reached]
  exact Nat.le_add_right _ _

theorem pairwise_droppedFrom (place : Place) (lexemes : List Lexeme) :
    (droppedFrom place lexemes).Pairwise fun entry later =>
      entry.1.offset < later.1.offset := by
  induction lexemes generalizing place with
  | nil => exact .nil
  | cons lexeme lexemes ih =>
      rw [droppedFrom]
      split
      · refine .cons (fun later member => ?_) (ih _)
        have behind := offset_le_of_mem_droppedFrom member
        simp only [Place.after, text, List.length_cons] at behind ⊢
        omega
      · exact ih _

/-! ## Reading under the other policy -/

theorem readUnder_of_kept (found : readUnder policy first rest = .ok lexeme)
    (kept : lexeme.content ≠ .dropped) : readUnder other first rest = .ok lexeme := by
  unfold readUnder
  rw [(read_of_readUnder found).1]
  exact if_pos (by simp [admittedBy, kept])

theorem readUnder_reject_of_dropped (found : readUnder policy first rest = .ok lexeme)
    (dropped : lexeme.content = .dropped) :
    readUnder .reject first rest = .error ⟨[], .fault (.invalidCharacter first)⟩ := by
  unfold readUnder
  rw [(read_of_readUnder found).1]
  exact if_neg (by simp [admittedBy, dropped])

theorem readUnder_of_skip_error {flaw : Flaw} (failed : readUnder .skip first rest = .error flaw) :
    readUnder other first rest = .error flaw := by
  unfold readUnder at failed ⊢
  split at failed
  · exact failed
  · cases failed

theorem Cut.underPolicy (cut : Cut policy rest front)
    (kept : ∀ lexeme ∈ front, lexeme.content ≠ .dropped) : Cut other rest front := by
  induction cut with
  | nil => exact .nil
  | cons read _ ih =>
      obtain ⟨first, following⟩ := List.forall_mem_cons.mp kept
      exact .cons (readUnder_of_kept read first) (ih following)

theorem exists_cut_of_split {source : List Char} {back : List Lexeme}
    (split : (lex policy source).lexemes = front ++ lexeme :: back) :
    ∃ rest, source = textOf front ++ lexeme.text ++ rest ∧ Cut policy (lexeme.text ++ rest) front ∧
      readUnder policy lexeme.first (lexeme.more ++ rest) = .ok lexeme := by
  obtain ⟨unread, whole, cut⟩ := exists_cut_of_prefix (List.prefix_refl (lex policy source).lexemes)
  rw [split] at whole cut
  obtain ⟨frontCut, lexemeCut⟩ := cut.split
  rw [textOf_append, textOf_cons] at whole
  rw [textOf_cons, List.append_assoc] at frontCut
  cases lexemeCut with
  | cons read _ =>
      refine ⟨textOf back ++ unread, ?_, frontCut, read⟩
      rw [whole]
      simp only [List.append_assoc]

/-- Lexemes in front of one that a position lies in are those up to the position. -/
theorem eq_of_reaches {back otherFront otherBack : List Lexeme} {found : Lexeme}
    (split : front ++ lexeme :: back = otherFront ++ found :: otherBack)
    (begun : (textOf otherFront).length ≤ (textOf front).length)
    (inside : (textOf front).length < (textOf otherFront).length + found.text.length) :
    front = otherFront ∧ lexeme = found := by
  rcases List.append_eq_append_iff.mp split with ⟨more, rfl, rest⟩ | ⟨more, rfl, rest⟩
  · cases more with
    | nil => exact ⟨(List.append_nil _).symm, (List.cons.inj rest).1⟩
    | cons next more => simp [text] at begun
  · cases more with
    | nil => exact ⟨List.append_nil _, (List.cons.inj rest).1.symm⟩
    | cons next more =>
        obtain ⟨rfl, _⟩ := List.cons.inj rest
        simp only [textOf_append, textOf_cons, List.length_append] at inside
        omega

end Lexeme

/-! ## The positions -/

/-- The positions of the dropped characters, from left to right. -/
def Lexing.droppedPositions (lexing : Lexing) : List Nat :=
  lexing.dropped.map (·.1.offset)

/-- The positions are those of the source at which a scan drops a character, in order: the scan
arrives there and passes, although no lexeme of any shape begins. -/
structure DropsAt (source : List Char) (positions : List Nat) : Prop where
  ordered : positions.Pairwise (· < ·)
  mem_iff : ∀ position, position ∈ positions ↔
    Boundary .skip source position ∧ position < (lex .skip source).stop.offset ∧
      Lexeme.BeginsNothing (source.drop position)

/-- The position lies in a comment or a string literal of the source, closed or not. -/
inductive Covered (source : List Char) (position : Nat) : Prop where
  | lexeme {front back : List Lexeme} {lexeme : Lexeme} :
      (lex .skip source).lexemes = front ++ lexeme :: back →
      lexeme.first = '\x22' ∨ lexeme.first = '#' →
      (Lexeme.textOf front).length ≤ position →
      position < (Lexeme.textOf front).length + lexeme.text.length → Covered source position
  | openString {flaw : Lexeme.Flaw} :
      (lex .skip source).flaw = some flaw → flaw.cause = .fault .unterminatedString →
      (lex .skip source).stop.offset ≤ position → Covered source position

/-- How a scan that rejects unknown characters ends at the first one, and what it has read. -/
structure RejectsAt (source : List Char) (position : Nat) : Prop where
  outcome : ∃ character, source[position]? = some character ∧
    scan .reject source = .error ⟨.fault (.invalidCharacter character),
      ⟨position, 1 + (source.take position).count '\n'⟩⟩
  tokens : ∀ scanner : Scanner, scanner.source = source →
    { scanner with policy := .reject }.scan.2.tokens =
      { scanner with policy := .skip }.scan.2.tokens.filter (·.stop ≤ (position : Int))

section Positions

variable {source : List Char} {position : Nat}

theorem mem_droppedPositions_iff {policy : UnknownPolicy} :
    position ∈ (lex policy source).droppedPositions ↔
      ∃ front lexeme back, (lex policy source).lexemes = front ++ lexeme :: back ∧
        lexeme.content = .dropped ∧ (Lexeme.textOf front).length = position := by
  unfold Lexing.droppedPositions Lexing.dropped
  constructor
  · intro member
    obtain ⟨⟨reached, character⟩, recorded, rfl⟩ := List.mem_map.mp member
    obtain ⟨front, lexeme, back, split, dropped, _, rfl⟩ := Lexeme.mem_droppedFrom_iff.mp recorded
    exact ⟨front, lexeme, back, split, dropped, by rw [Lexeme.start_after]⟩
  · rintro ⟨front, lexeme, back, split, dropped, rfl⟩
    have recorded : (Place.start.after (Lexeme.textOf front), lexeme.first) ∈
        Lexeme.droppedFrom .start (lex policy source).lexemes :=
      Lexeme.mem_droppedFrom_iff.mpr ⟨front, lexeme, back, split, dropped, rfl, rfl⟩
    refine List.mem_map.mpr ⟨_, recorded, ?_⟩
    rw [Lexeme.start_after]

theorem place_of_mem_dropped {policy : UnknownPolicy} {place : Place} {character : Char}
    (recorded : (place, character) ∈ (lex policy source).dropped) :
    source[place.offset]? = some character ∧
      place = ⟨place.offset, 1 + (source.take place.offset).count '\n'⟩ := by
  obtain ⟨front, lexeme, back, split, _, rfl, rfl⟩ := Lexeme.mem_droppedFrom_iff.mp recorded
  obtain ⟨rest, whole, _, _⟩ := Lexeme.exists_cut_of_split split
  rw [List.append_assoc] at whole
  rw [Lexeme.start_after, whole, List.take_left]
  simp [Lexeme.text]

theorem Lexing.stop_offset (lexing : Lexing) :
    lexing.stop.offset = (Lexeme.textOf lexing.lexemes).length := by
  rw [stop, Lexeme.start_after]

theorem dropsAt_droppedPositions (source : List Char) :
    DropsAt source (lex .skip source).droppedPositions where
  ordered := List.pairwise_map.mpr (Lexeme.pairwise_droppedFrom _ _)
  mem_iff := by
    intro position
    rw [mem_droppedPositions_iff, Lexing.stop_offset]
    constructor
    · rintro ⟨front, lexeme, back, split, dropped, rfl⟩
      refine ⟨⟨front, ⟨lexeme :: back, split.symm⟩, rfl⟩, ?_, ?_⟩
      · simp [split, Lexeme.text]
      · obtain ⟨rest, whole, _, read⟩ := Lexeme.exists_cut_of_split split
        rw [whole, List.append_assoc, List.drop_left]
        rcases Lexeme.read_matches (Lexeme.read_of_readUnder read).1 with
          ⟨shape, found⟩ | ⟨_, nothing⟩
        · exact absurd dropped found.content_ne_dropped
        · exact nothing
    · rintro ⟨⟨front, ⟨back, split⟩, rfl⟩, passed, nothing⟩
      cases back with
      | nil => simp [← split] at passed
      | cons lexeme back =>
          obtain ⟨rest, whole, _, read⟩ := Lexeme.exists_cut_of_split split.symm
          rw [whole, List.append_assoc, List.drop_left] at nothing
          refine ⟨front, lexeme, back, split.symm, ?_, rfl⟩
          rcases Lexeme.read_matches (Lexeme.read_of_readUnder read).1 with
            ⟨shape, found⟩ | ⟨same, _⟩
          · rw [List.drop_left] at found
            exact absurd found (nothing shape _ _ _ rfl)
          · rw [same]

theorem not_covered_of_dropped (member : position ∈ (lex .skip source).droppedPositions) :
    ¬ Covered source position := by
  obtain ⟨front, lexeme, back, split, dropped, rfl⟩ := mem_droppedPositions_iff.mp member
  intro covered
  cases covered with
  | lexeme otherSplit opened begun inside =>
      obtain ⟨rfl, rfl⟩ := Lexeme.eq_of_reaches (split.symm.trans otherSplit) begun inside
      obtain ⟨rest, _, _, read⟩ := Lexeme.exists_cut_of_split split
      have readable := (Lexeme.read_of_readUnder read).1
      rcases opened with quote | hash
      · rw [quote, Lexeme.read_string] at readable
        exact (Lexeme.StringLiteral.read_matches readable).content_ne_dropped dropped
      · rw [hash, Lexeme.read_layout (by decide), Lexeme.readLayout_hash] at readable
        rw [← Except.ok.inj readable] at dropped
        cases dropped
  | openString _ _ behind =>
      simp [Lexing.stop_offset, split, Lexeme.text] at behind

/-! ## Scans that reject unknown characters -/

theorem lex_of_kept {policy : UnknownPolicy}
    (kept : ∀ lexeme ∈ (lex .skip source).lexemes, lexeme.content ≠ .dropped) :
    lex policy source = lex .skip source := by
  fun_induction lex .skip source with
  | case1 => rw [lex]
  | case2 first rest flaw failed => rw [lex, Lexeme.readUnder_of_skip_error failed]
  | case3 first rest lexeme found following ih =>
      obtain ⟨here, behind⟩ := List.forall_mem_cons.mp kept
      rw [lex, Lexeme.readUnder_of_kept found here]
      exact congrArg (fun lexing : Lexing => (⟨lexeme :: lexing.lexemes, lexing.flaw⟩ : Lexing))
        (ih behind)

theorem Scanner.tokens_scan_of_flaw {scanner : Scanner} {flaw : Lexeme.Flaw}
    (flawed : (lex scanner.policy scanner.source).flaw = some flaw) :
    scanner.scan.2.tokens = (lex scanner.policy scanner.source).tokens := by
  unfold Scanner.scan
  simp only [flawed]
  rfl

theorem Scanner.tokens_scan_of_sound {scanner : Scanner}
    (sound : (lex scanner.policy scanner.source).flaw = none) :
    scanner.scan.2.tokens = (lex scanner.policy scanner.source).stream.toList := by
  unfold Scanner.scan
  simp only [sound]

/-- The end of the input comes behind every token that ends in front of the last lexeme. -/
theorem Scanner.filter_tokens_scan {scanner : Scanner}
    (inside : position < (lex scanner.policy scanner.source).stop.offset) :
    scanner.scan.2.tokens.filter (·.stop ≤ (position : Int)) =
      (lex scanner.policy scanner.source).tokens.filter (·.stop ≤ (position : Int)) := by
  cases flawed : (lex scanner.policy scanner.source).flaw with
  | some flaw => rw [tokens_scan_of_flaw flawed]
  | none =>
      have beyond : ¬ ((lex scanner.policy scanner.source).stop.offset : Int) ≤ position := by
        omega
      rw [tokens_scan_of_sound flawed, TokenStream.toList, List.filter_append]
      simp [Lexing.stream, beyond]

theorem rejectsAt_of_dropped {later : List Nat}
    (first : (lex .skip source).droppedPositions = position :: later) :
    RejectsAt source position := by
  obtain ⟨⟨place, character⟩, others, recorded, rfl, _⟩ := List.map_eq_cons_iff.mp first
  have divided : Lexeme.droppedFrom .start (lex .skip source).lexemes =
      [] ++ (place, character) :: others := recorded
  obtain ⟨front, lexeme, back, split, silent, dropped, rfl, rfl⟩ :=
    Lexeme.exists_of_droppedFrom_eq_append divided
  obtain ⟨rest, whole, cut, read⟩ := Lexeme.exists_cut_of_split split
  have rejectCut : Lexeme.Cut .reject (lexeme.text ++ rest) front :=
    cut.underPolicy (Lexeme.droppedFrom_eq_nil_iff.mp silent)
  have rejected := Lexeme.readUnder_reject_of_dropped read dropped
  have inside : (Lexeme.textOf front).length < (lex .skip source).stop.offset := by
    simp [Lexing.stop_offset, split, Lexeme.text]
  rw [Lexeme.start_after]
  rw [List.append_assoc] at whole
  constructor
  · refine ⟨lexeme.first, ?_, ?_⟩
    · simp [whole, Lexeme.text]
    · rw [whole, List.take_left, ← Lexeme.start_after]
      exact rejectCut.scan_error rejected
  · rintro scanner rfl
    have stopped : lex .reject scanner.source =
        ⟨front, some ⟨[], .fault (.invalidCharacter lexeme.first)⟩⟩ := by
      rw [whole]
      exact rejectCut.lex_error rejected
    have reached := cut.filter_tokens
    rw [← whole] at reached
    rw [Scanner.tokens_scan_of_flaw (congrArg Lexing.flaw stopped),
      Scanner.filter_tokens_scan inside, reached]
    exact congrArg Lexing.tokens stopped

end Positions

/-- What a scan drops decides how a scan that rejects unknown characters ends: in the same way if
nothing is dropped, and otherwise at the first position, even if the other one fails behind it.
No position lies in a comment or a string literal. -/
theorem scan_reject_of_dropped (source : List Char) :
    DropsAt source (lex .skip source).droppedPositions ∧
      ((lex .skip source).droppedPositions = [] → scan .reject source = scan .skip source) ∧
      (∀ position later, (lex .skip source).droppedPositions = position :: later →
        RejectsAt source position) ∧
      ∀ position ∈ (lex .skip source).droppedPositions, ¬ Covered source position := by
  refine ⟨dropsAt_droppedPositions source, ?_, ?_, ?_⟩
  · intro nothing
    have kept := Lexeme.droppedFrom_eq_nil_iff.mp (List.map_eq_nil_iff.mp nothing)
    exact congrArg Lexing.outcome (lex_of_kept kept)
  · intro position later first
    exact rejectsAt_of_dropped first
  · intro position member
    exact not_covered_of_dropped member

/-- Unknown characters in a literal and a comment only, and two of them on the second line of a
source, in front of a literal that is never closed. -/
theorem scan_reject_of_dropped_open_string :
    let quoted := ['\x22', '@', '\x22', '#', '$']
    let source := ['a', '\n', '@', '$', '\x22', '@']
    (lex .skip quoted).droppedPositions = [] ∧ scan .reject quoted = scan .skip quoted ∧
      (lex .skip source).droppedPositions = [2, 3] ∧ RejectsAt source 2 ∧
      3 ∈ (lex .skip source).droppedPositions ∧ ¬ Covered source 3 := by
  intro quoted source
  have nothing : (lex .skip quoted).droppedPositions = [] := by cbv
  have dropped : (lex .skip source).droppedPositions = [2, 3] := by cbv
  have member : 3 ∈ (lex .skip source).droppedPositions := by
    rw [dropped]
    decide
  obtain ⟨_, same, _, _⟩ := scan_reject_of_dropped quoted
  obtain ⟨_, _, rejects, apart⟩ := scan_reject_of_dropped source
  exact ⟨nothing, same nothing, dropped, rejects 2 [3] dropped, member, apart 3 member⟩

end LuneSyntax
