import Mathlib.Algebra.Group.Nat.Even
import Mathlib.Data.List.DropRight
import LuneSyntax.Lexeme.Tiling

/-!
# Quotations

Where a string literal ends and what it denotes, stated on its text without the pieces. A quote
behind an odd number of backslashes is part of an escape, so the literal ends at the first quote
behind an even number of them.
-/

set_option autoImplicit false

namespace LuneSyntax.Lexeme.StringLiteral

/-- A quote directly behind the text would end the literal. -/
def Closes (text : List Char) : Prop :=
  Even (text.rtakeWhile (· = '\\')).length

/-- The quote behind the text ends the literal, and no quote inside the text does. -/
def Enclosed (body : List Char) : Prop :=
  Closes body ∧ ∀ front back, body = front ++ '\x22' :: back → ¬ Closes front

def decode : List Char → List Char
  | [] => []
  | '\\' :: mark :: rest =>
    match Escape.ofMark? mark with
    | some escape => escape.meaning :: decode rest
    | none => '\\' :: decode (mark :: rest)
  | character :: rest => character :: decode rest

/-! ## Backslashes at the end of a text -/

section Ending

variable {Element : Type} {holds : Element → Bool} (front : List Element) {text : List Element}

theorem rtakeWhile_append_of_forall (all : ∀ element ∈ text, holds element = true) :
    (front ++ text).rtakeWhile holds = front.rtakeWhile holds ++ text := by
  induction text using List.reverseRecOn with
  | nil => simp
  | append_singleton text element ih =>
      rw [← List.append_assoc, List.rtakeWhile_concat_pos _ _ _ (all element (by simp)),
        ih fun other member => all other (List.mem_append_left _ member), List.append_assoc]

theorem rtakeWhile_append_of_exists (failing : ∃ element ∈ text, holds element = false) :
    (front ++ text).rtakeWhile holds = text.rtakeWhile holds := by
  induction text using List.reverseRecOn with
  | nil => simp at failing
  | append_singleton text element ih =>
      rw [← List.append_assoc, List.rtakeWhile_concat, List.rtakeWhile_concat]
      cases result : holds element with
      | false => simp
      | true =>
          obtain ⟨other, member, fails⟩ := failing
          rcases List.mem_append.mp member with inside | last
          · rw [ih ⟨other, inside, fails⟩]
          · rw [List.mem_singleton.mp last, result] at fails
            cases fails

end Ending

/-- A backslash in front does not count when something else stands between it and the end. -/
theorem closes_append_of_ne (front : List Char) {text : List Char} {character : Char}
    (member : character ∈ text) (plain : character ≠ '\\') :
    Closes (front ++ text) ↔ Closes text := by
  unfold Closes
  rw [rtakeWhile_append_of_exists front ⟨character, member, decide_eq_false plain⟩]

/-- A text that leaves no backslash unpaired does not count for what follows it. -/
theorem closes_append_of_closes {front : List Char} (closed : Closes front) (text : List Char) :
    Closes (front ++ text) ↔ Closes text := by
  by_cases plain : ∃ character ∈ text, character ≠ '\\'
  · obtain ⟨character, member, different⟩ := plain
    exact closes_append_of_ne front member different
  · have all : ∀ character ∈ text, decide (character = '\\') = true := by simpa using plain
    unfold Closes at *
    rw [rtakeWhile_append_of_forall front all, List.rtakeWhile_eq_self_iff.mpr all,
      List.length_append, Nat.even_add]
    simp only [closed, true_iff]

theorem closes_nil : Closes [] := by
  simp [Closes]

theorem closes_singleton {character : Char} (plain : character ≠ '\\') : Closes [character] := by
  simp [Closes, List.rtakeWhile, plain]

theorem not_closes_backslash : ¬ Closes ['\\'] := by
  simp [Closes, List.rtakeWhile]

theorem closes_pair (mark : Char) : Closes ['\\', mark] := by
  by_cases same : mark = '\\'
  · exact ⟨1, by simp [List.rtakeWhile, same]⟩
  · simp [Closes, List.rtakeWhile, same]

/-! ## The end of a literal -/

theorem enclosed_nil : Enclosed [] :=
  ⟨closes_nil, fun front back split => by simp at split⟩

/-- Text may be put in front of the inside of a literal if no quote in it ends the literal and
it does not change which of the later ones do. -/
theorem Enclosed.append (front : List Char) {body : List Char} (enclosed : Enclosed body)
    (silent : ∀ inner back, front = inner ++ '\x22' :: back → ¬ Closes inner)
    (neutral : ∀ text back, body ++ ['\x22'] = text ++ '\x22' :: back →
      (Closes (front ++ text) ↔ Closes text)) : Enclosed (front ++ body) := by
  obtain ⟨closed, early⟩ := enclosed
  refine ⟨(neutral body [] rfl).mpr closed, ?_⟩
  intro inner back split
  rcases List.append_eq_append_iff.mp split with ⟨more, rfl, inside⟩ | ⟨more, outer, inside⟩
  · intro closes
    have same := neutral more (back ++ ['\x22']) (by rw [inside]; simp)
    exact early more back inside (same.mp closes)
  · cases more with
    | nil =>
        exact absurd closes_nil (early [] back inside.symm)
    | cons first more =>
        obtain ⟨rfl, _⟩ := List.cons.inj inside
        exact silent inner more outer

theorem Enclosed.escape {body : List Char} (enclosed : Enclosed body) (mark : Char) :
    Enclosed ('\\' :: mark :: body) := by
  refine Enclosed.append ['\\', mark] enclosed ?_ ?_
  · intro inner back split
    match inner with
    | [] => simp at split
    | [first] =>
        obtain ⟨rfl, _⟩ := List.cons.inj split
        exact not_closes_backslash
    | first :: second :: inner => simp at split
  · intro text back _
    exact closes_append_of_closes (closes_pair mark) text

theorem Enclosed.plain {body : List Char} (enclosed : Enclosed body) {character : Char}
    (notQuote : character ≠ '\x22') (notBackslash : character ≠ '\\') :
    Enclosed (character :: body) := by
  refine Enclosed.append [character] enclosed ?_ ?_
  · intro inner back split
    match inner with
    | [] => exact absurd (List.cons.inj split).1 notQuote
    | first :: inner => simp at split
  · intro text back _
    exact closes_append_of_closes (closes_singleton notBackslash) text

theorem ne_quote_of_ofMark? {mark : Char} (unknown : Escape.ofMark? mark = none) :
    mark ≠ '\x22' := by
  rintro rfl
  cases unknown

/-- A backslash that begins no escape stands for itself. -/
theorem Enclosed.backslash {mark : Char} {body : List Char} (enclosed : Enclosed (mark :: body))
    (unknown : Escape.ofMark? mark = none) : Enclosed ('\\' :: mark :: body) := by
  have notBackslash : mark ≠ '\\' := by
    rintro rfl
    cases unknown
  refine Enclosed.append ['\\'] enclosed ?_ ?_
  · intro inner back split
    match inner with
    | [] => simp at split
    | first :: inner => simp at split
  · intro text back split
    cases text with
    | nil => exact absurd (List.cons.inj split).1 (ne_quote_of_ofMark? unknown)
    | cons first text =>
        obtain ⟨rfl, _⟩ := List.cons.inj split
        exact closes_append_of_ne ['\\'] List.mem_cons_self notBackslash

/-! ## Pieces -/

theorem decode_cons {character : Char} (plain : character ≠ '\\') (rest : List Char) :
    decode (character :: rest) = character :: decode rest := by
  rw [decode]
  intro _ _ same
  exact absurd same plain

theorem pieces?_plain {character : Char} (notQuote : character ≠ '\x22')
    (notBackslash : character ≠ '\\') (rest : List Char) :
    pieces? (character :: rest) = (pieces? rest).map (.plain character :: ·) := by
  rw [pieces?]
  · exact notQuote
  · intro _ _ same
    exact absurd same notBackslash

theorem pieces?_escape {mark : Char} {escape : Escape} (known : Escape.ofMark? mark = some escape)
    (rest : List Char) :
    pieces? ('\\' :: mark :: rest) = (pieces? rest).map (.escaped escape :: ·) := by
  rw [pieces?, known]

theorem pieces?_backslash {mark : Char} (unknown : Escape.ofMark? mark = none)
    (rest : List Char) :
    pieces? ('\\' :: mark :: rest) = (pieces? (mark :: rest)).map (.plain '\\' :: ·) := by
  rw [pieces?, unknown]

theorem exists_spelling_cons {character : Char} {rest : List Char} {pieces : List Piece}
    (found : pieces? (character :: rest) = some pieces) (notQuote : character ≠ '\x22') :
    ∃ more, spelling pieces = character :: more := by
  obtain ⟨after, whole⟩ := spelling_prefix found
  cases spelled : spelling pieces with
  | nil =>
      rw [spelled] at whole
      exact absurd (List.cons.inj whole).1.symm notQuote
  | cons first more =>
      rw [spelled] at whole
      exact ⟨more, congrArg (· :: more) (List.cons.inj whole).1⟩

/-- The pieces that are read spell the inside of the literal, and their meanings decode it. -/
theorem pieces?_enclosed {text : List Char} {pieces : List Piece}
    (found : pieces? text = some pieces) :
    Enclosed (spelling pieces) ∧ meaning pieces = decode (spelling pieces) := by
  fun_induction pieces? text generalizing pieces with
  | case1 => cases found
  | case2 rest =>
      cases found
      exact ⟨enclosed_nil, rfl⟩
  | case3 mark rest escape known ih =>
      obtain ⟨others, read, rfl⟩ := Option.map_eq_some_iff.mp found
      obtain ⟨enclosed, denotes⟩ := ih read
      exact ⟨enclosed.escape escape.mark, by
        simpa [spelling, meaning, Piece.spelling, Piece.meaning, decode] using denotes⟩
  | case4 mark rest unknown ih =>
      obtain ⟨others, read, rfl⟩ := Option.map_eq_some_iff.mp found
      obtain ⟨enclosed, denotes⟩ := ih read
      obtain ⟨more, spelled⟩ := exists_spelling_cons read (ne_quote_of_ofMark? unknown)
      have outer : spelling (.plain '\\' :: others) = '\\' :: mark :: more := by
        simpa [spelling, Piece.spelling] using spelled
      rw [spelled] at enclosed denotes
      rw [outer, decode, unknown]
      exact ⟨enclosed.backslash unknown, congrArg ('\\' :: ·) denotes⟩
  | case5 character rest notQuote notEscape ih =>
      obtain ⟨others, read, rfl⟩ := Option.map_eq_some_iff.mp found
      obtain ⟨enclosed, denotes⟩ := ih read
      have notBackslash : character ≠ '\\' := by
        cases rest with
        | nil => cases read
        | cons mark rest => exact fun same => notEscape mark rest same rfl
      have outer : spelling (.plain character :: others) = character :: spelling others := rfl
      rw [outer, decode_cons notBackslash]
      exact ⟨enclosed.plain notQuote notBackslash, congrArg (character :: ·) denotes⟩

/-- A literal that is read ends at the first quote that ends one, and it denotes its inside. -/
theorem read_enclosed {opening : Char} {rest : List Char} {lexeme : Lexeme}
    (found : StringLiteral.read opening rest = .ok lexeme) :
    ∃ body, Enclosed body ∧ lexeme.text = opening :: body ++ ['\x22'] ∧
      lexeme.content = .token .string (some (.text (String.ofList (decode body)))) := by
  unfold StringLiteral.read at found
  split at found
  · rename_i pieces read
    obtain ⟨enclosed, denotes⟩ := pieces?_enclosed read
    cases found
    exact ⟨spelling pieces, enclosed, rfl, by rw [denotes]⟩
  · cases found

/-! ## Literals that are closed -/

/-- A literal is never closed only if no quote behind the opening one ends it. -/
theorem not_closes_of_pieces?_eq_none {text : List Char} (unclosed : pieces? text = none) :
    ∀ front back, text = front ++ '\x22' :: back → ¬ Closes front := by
  fun_induction pieces? text with
  | case1 =>
      intro front back split
      simp at split
  | case2 => cases unclosed
  | case3 mark rest escape known ih =>
      intro front back split
      have later := ih (Option.map_eq_none_iff.mp unclosed)
      rcases front with _ | ⟨first, _ | ⟨second, inner⟩⟩
      · simp at split
      · obtain ⟨rfl, _⟩ := List.cons.inj split
        exact not_closes_backslash
      · obtain ⟨rfl, behind⟩ := List.cons.inj split
        obtain ⟨rfl, rest_eq⟩ := List.cons.inj behind
        intro closes
        refine later inner back rest_eq ?_
        exact (closes_append_of_closes (closes_pair mark) inner).mp closes
  | case4 mark rest unknown ih =>
      intro front back split
      have later := ih (Option.map_eq_none_iff.mp unclosed)
      have notBackslash : mark ≠ '\\' := by
        rintro rfl
        cases unknown
      rcases front with _ | ⟨first, _ | ⟨second, inner⟩⟩
      · simp at split
      · obtain ⟨rfl, behind⟩ := List.cons.inj split
        exact absurd (List.cons.inj behind).1 (ne_quote_of_ofMark? unknown)
      · obtain ⟨rfl, behind⟩ := List.cons.inj split
        obtain ⟨rfl, _⟩ := List.cons.inj behind
        intro closes
        refine later (mark :: inner) back behind ?_
        exact (closes_append_of_ne ['\\'] List.mem_cons_self notBackslash).mp closes
  | case5 character rest notQuote notEscape ih =>
      intro front back split
      have later := ih (Option.map_eq_none_iff.mp unclosed)
      cases front with
      | nil => exact absurd (List.cons.inj split).1 notQuote
      | cons first inner =>
          obtain ⟨rfl, rest_eq⟩ := List.cons.inj split
          have notBackslash : character ≠ '\\' := by
            rintro rfl
            cases inner with
            | nil => exact notEscape _ _ rfl rest_eq
            | cons mark inner => exact notEscape _ _ rfl rest_eq
          intro closes
          refine later inner back rest_eq ?_
          exact (closes_append_of_closes (closes_singleton notBackslash) inner).mp closes

/-- At most one quote ends a literal. -/
theorem Enclosed.unique {body other back otherBack : List Char} (enclosed : Enclosed body)
    (otherEnclosed : Enclosed other)
    (same : body ++ '\x22' :: back = other ++ '\x22' :: otherBack) : body = other := by
  rcases List.append_eq_append_iff.mp same with ⟨more, rfl, rest⟩ | ⟨more, rfl, rest⟩
  · cases more with
    | nil => exact (List.append_nil body).symm
    | cons first more =>
        obtain ⟨rfl, _⟩ := List.cons.inj rest
        exact absurd enclosed.1 (otherEnclosed.2 body more rfl)
  · cases more with
    | nil => exact List.append_nil other
    | cons first more =>
        obtain ⟨rfl, _⟩ := List.cons.inj rest
        exact absurd otherEnclosed.1 (enclosed.2 other more rfl)

theorem pieces?_of_enclosed {body : List Char} (enclosed : Enclosed body) (rest : List Char) :
    ∃ pieces, pieces? (body ++ '\x22' :: rest) = some pieces ∧ spelling pieces = body := by
  cases result : pieces? (body ++ '\x22' :: rest) with
  | none => exact absurd enclosed.1 (not_closes_of_pieces?_eq_none result body rest rfl)
  | some pieces =>
      obtain ⟨after, whole⟩ := spelling_prefix result
      rw [List.append_assoc] at whole
      exact ⟨pieces, rfl, (pieces?_enclosed result).1.unique enclosed whole⟩

/-- A quoted text is read as a literal, whatever comes behind it. -/
theorem read_of_enclosed {body : List Char} (enclosed : Enclosed body) (opening : Char)
    (rest : List Char) :
    StringLiteral.read opening (body ++ ['\x22'] ++ rest) =
      .ok ⟨opening, body ++ ['\x22'],
        .token .string (some (.text (String.ofList (decode body))))⟩ := by
  obtain ⟨pieces, found, spelled⟩ := pieces?_of_enclosed enclosed rest
  have denotes := (pieces?_enclosed found).2
  rw [StringLiteral.read, List.append_assoc, List.singleton_append, found]
  simp only [denotes, spelled]

end LuneSyntax.Lexeme.StringLiteral
