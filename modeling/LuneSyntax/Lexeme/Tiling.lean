import LuneSyntax.Lexeme.Sequence

/-!
# Tiling

A lexeme is a piece of the source at which it was read, and the lexemes of a source stand one
behind the other without gap or overlap. A source without flaw is exactly what they cover.
-/

set_option autoImplicit false

namespace LuneSyntax

namespace Lexeme

theorem throughLineFeed_prefix (text : List Char) : throughLineFeed text <+: text := by
  induction text with
  | nil => exact List.prefix_refl _
  | cons character rest ih =>
    unfold throughLineFeed
    split
    · exact ⟨rest, rfl⟩
    · exact (List.prefix_cons_inj character).mpr ih

/-- The pieces of a literal and its closing quote are spelled by the text that was read. -/
theorem StringLiteral.spelling_prefix {text : List Char} {pieces : List Piece}
    (found : pieces? text = some pieces) : spelling pieces ++ ['\x22'] <+: text := by
  fun_induction pieces? text generalizing pieces with
  | case1 => cases found
  | case2 rest =>
    cases found
    exact ⟨rest, rfl⟩
  | case3 mark rest escape known ih =>
    obtain ⟨others, read, rfl⟩ := Option.map_eq_some_iff.mp found
    have written := Escape.mark_of_ofMark? known
    subst written
    simpa [spelling, Piece.spelling] using ih read
  | case4 mark rest _ ih =>
    obtain ⟨others, read, rfl⟩ := Option.map_eq_some_iff.mp found
    simpa [spelling, Piece.spelling] using ih read
  | case5 character rest _ _ ih =>
    obtain ⟨others, read, rfl⟩ := Option.map_eq_some_iff.mp found
    simpa [spelling, Piece.spelling] using ih read

theorem StringLiteral.read_prefix {opening : Char} {rest : List Char} {lexeme : Lexeme}
    (found : StringLiteral.read opening rest = .ok lexeme) :
    lexeme.first = opening ∧ lexeme.more <+: rest := by
  unfold StringLiteral.read at found
  split at found
  · rename_i pieces closed
    cases found
    exact ⟨rfl, spelling_prefix closed⟩
  · cases found

theorem Number.ofDigits_ok {radix : Radix} {digits more : List Char} {first : Char}
    {lexeme : Lexeme} (found : Number.ofDigits radix digits first more = .ok lexeme) :
    lexeme.first = first ∧ lexeme.more = more := by
  unfold Number.ofDigits at found
  dsimp only at found
  split at found
  · cases found
    exact ⟨rfl, rfl⟩
  · cases found

theorem Number.readMarked_prefix {radix : Radix} {zero mark : Char} {rest : List Char}
    {lexeme : Lexeme} (found : Number.readMarked radix zero mark rest = .ok lexeme) :
    lexeme.first = zero ∧ lexeme.more <+: mark :: rest := by
  unfold Number.readMarked at found
  dsimp only at found
  split at found
  · cases found
  · obtain ⟨first_eq, more_eq⟩ := ofDigits_ok found
    exact ⟨first_eq, more_eq ▸ (List.prefix_cons_inj mark).mpr (List.takeWhile_prefix _)⟩

theorem Number.readDecimal_prefix {first : Char} {rest : List Char} {lexeme : Lexeme}
    (found : Number.readDecimal first rest = .ok lexeme) :
    lexeme.first = first ∧ lexeme.more <+: rest := by
  unfold Number.readDecimal at found
  dsimp only at found
  split at found
  · obtain ⟨first_eq, more_eq⟩ := ofDigits_ok found
    exact ⟨first_eq, more_eq ▸ List.takeWhile_prefix _⟩
  · cases found

theorem Number.read_prefix {first : Char} {rest : List Char} {lexeme : Lexeme}
    (found : Number.read first rest = .ok lexeme) :
    lexeme.first = first ∧ lexeme.more <+: rest := by
  unfold Number.read at found
  split at found
  · exact readDecimal_prefix found
  · split at found
    · split at found
      · exact readMarked_prefix found
      · exact readDecimal_prefix found
    · exact readDecimal_prefix found

theorem readPair?_prefix {first : Char} {rest : List Char} {lexeme : Lexeme}
    (found : readPair? first rest = some lexeme) :
    lexeme.first = first ∧ lexeme.more <+: rest := by
  unfold readPair? at found
  split at found
  · cases found
  · rename_i second after
    obtain ⟨kind, _, rfl⟩ := Option.map_eq_some_iff.mp found
    exact ⟨rfl, after, rfl⟩

theorem readSingle?_prefix {first : Char} (rest : List Char) {lexeme : Lexeme}
    (found : readSingle? first = some lexeme) :
    lexeme.first = first ∧ lexeme.more <+: rest := by
  obtain ⟨kind, _, rfl⟩ := Option.map_eq_some_iff.mp found
  exact ⟨rfl, List.nil_prefix⟩

theorem readBackslash_prefix (backslash : Char) (rest : List Char) :
    (readBackslash backslash rest).first = backslash ∧
      (readBackslash backslash rest).more <+: rest := by
  unfold readBackslash
  split
  · exact ⟨rfl, _, rfl⟩
  · exact ⟨rfl, _, rfl⟩
  · exact ⟨rfl, List.nil_prefix⟩

theorem readLayout_prefix (first : Char) (rest : List Char) :
    (readLayout first rest).first = first ∧ (readLayout first rest).more <+: rest := by
  unfold readLayout
  split
  · exact ⟨rfl, List.nil_prefix⟩
  · split
    · exact ⟨rfl, List.nil_prefix⟩
    · split
      · exact ⟨rfl, throughLineFeed_prefix rest⟩
      · split
        · exact readBackslash_prefix first rest
        · exact ⟨rfl, List.nil_prefix⟩

/-- A lexeme begins with the first character of the text and goes on with what follows it. -/
theorem read_prefix {first : Char} {rest : List Char} {lexeme : Lexeme}
    (found : read first rest = .ok lexeme) :
    lexeme.first = first ∧ lexeme.more <+: rest := by
  unfold read at found
  split at found
  · rename_i pair
    cases found
    exact readPair?_prefix pair
  · split at found
    · rename_i single
      cases found
      exact readSingle?_prefix rest single
    · split at found
      · exact StringLiteral.read_prefix found
      · split at found
        · exact Number.read_prefix found
        · split at found
          · cases found
            exact ⟨rfl, List.takeWhile_prefix _⟩
          · cases found
            exact readLayout_prefix first rest

/-- A policy never changes a lexeme that it lets pass. -/
theorem read_of_readUnder {policy : UnknownPolicy} {first : Char} {rest : List Char}
    {lexeme : Lexeme} (found : readUnder policy first rest = .ok lexeme) :
    read first rest = .ok lexeme ∧ lexeme.admittedBy policy = true := by
  unfold readUnder at found
  split at found
  · cases found
  · rename_i candidate readable
    split at found
    · rename_i admitted
      cases found
      exact ⟨readable, admitted⟩
    · cases found

/-- The text at which a lexeme was read is the lexeme and the text behind it. -/
theorem text_append_of_readUnder {policy : UnknownPolicy} {first : Char} {rest : List Char}
    {lexeme : Lexeme} (found : readUnder policy first rest = .ok lexeme) :
    lexeme.text ++ rest.drop lexeme.more.length = first :: rest := by
  obtain ⟨first_eq, after, more_eq⟩ := read_prefix (read_of_readUnder found).1
  subst first_eq more_eq
  simp [text]

end Lexeme

/-- The lexemes of a text are a beginning of it, and all of it when there is no flaw. -/
theorem textOf_lex (policy : UnknownPolicy) (text : List Char) :
    ∃ unread, Lexeme.textOf (lex policy text).lexemes ++ unread = text ∧
      ((lex policy text).flaw = none → unread = []) := by
  fun_induction lex policy text with
  | case1 => exact ⟨[], rfl, fun _ => rfl⟩
  | case2 first rest flaw _ => exact ⟨first :: rest, rfl, fun sound => by cases sound⟩
  | case3 first rest lexeme found following ih =>
    obtain ⟨unread, covered, complete⟩ := ih
    refine ⟨unread, ?_, complete⟩
    rw [← Lexeme.text_append_of_readUnder found, ← covered]
    simp [Lexeme.textOf, following]

end LuneSyntax
