import LuneSyntax.Proofs.Lexeme.Boundary

/-!
# Decomposition

The scan of a source is put together at every boundary of the scan of the text in front of it
and of the scan of the text behind it. A text of whole lines always ends at a boundary.
-/

set_option autoImplicit false

namespace LuneSyntax

/-- Behind a text with the given tokens another text is scanned as it is alone, moved by the
length and the lines of the first one: all tokens, the end of the input and a failure. -/
structure Continues (policy : UnknownPolicy) (front : List Char) (before : List Token)
    (back : List Char) : Prop where
  tokens : (lex policy (front ++ back)).tokens =
    before ++ (lex policy back).tokens.map (·.shift front.length (front.count '\n'))
  success : ∀ stream, scan policy (front ++ back) = .ok stream ↔
    ∃ rest, scan policy back = .ok rest ∧
      stream.toList = before ++ rest.toList.map (·.shift front.length (front.count '\n'))
  failure : ∀ failure, scan policy (front ++ back) = .error failure ↔
    ∃ rest, scan policy back = .error rest ∧
      failure = rest.shift front.length (front.count '\n')

namespace Lexeme

variable {policy : UnknownPolicy} {rest : List Char} {front : List Lexeme}

theorem Cut.continues (cut : Cut policy rest front) :
    Continues policy (textOf front) (tokensFrom .start front) rest where
  tokens := by rw [cut.lex_eq, Lexing.tokens_behind]
  success := fun _ => cut.scan_eq_ok_iff
  failure := fun _ => cut.scan_eq_error_iff

/-- Lexemes that can be cut off are scanned alone as they are in front of the rest. -/
theorem Cut.scan_front (cut : Cut policy rest front) :
    ∃ stream, scan policy (textOf front) = .ok stream ∧ stream.body = tokensFrom .start front := by
  have alone := cut.truncate.lex_alone
  refine ⟨(lex policy (textOf front)).stream, ?_, ?_⟩
  · exact LuneSyntax.scan_eq_ok_iff.mpr ⟨by rw [alone], rfl⟩
  · rw [alone]
    rfl

/-- The tokens of the lexemes in front of a cut are those that end there or before. -/
theorem Cut.filter_tokens (cut : Cut policy rest front) :
    (lex policy (textOf front ++ rest)).tokens.filter (·.stop ≤ ((textOf front).length : Int)) =
      tokensFrom .start front := by
  rw [cut.continues.tokens, List.filter_append]
  have before : ∀ token ∈ tokensFrom .start front,
      token.stop ≤ ((textOf front).length : Int) := by
    intro token member
    obtain ⟨_, _, above⟩ := span_of_mem_tokensFrom member
    rwa [start_after] at above
  have behind : ∀ token ∈ (lex policy rest).tokens.map
      (·.shift (textOf front).length ((textOf front).count '\n')),
      ¬ token.stop ≤ ((textOf front).length : Int) := by
    intro token member
    obtain ⟨original, listed, rfl⟩ := List.mem_map.mp member
    obtain ⟨below, nonempty, _⟩ := span_of_mem_tokensFrom listed
    have start : (0 : Int) ≤ original.start := below
    simp only [Token.shift]
    omega
  rw [List.filter_eq_self.mpr (by simpa using before),
    List.filter_eq_nil_iff.mpr (by simpa using behind), List.append_nil]

theorem exists_cut_of_scan {source : List Char} {stream : TokenStream}
    (scanned : scan policy source = .ok stream) :
    ∃ front, source = textOf front ∧ Cut policy [] front ∧
      stream.body = tokensFrom .start front := by
  obtain ⟨sound, rfl⟩ := scan_eq_ok_iff.mp scanned
  have covered := textOf_lex_of_sound sound
  obtain ⟨rest, split, cut⟩ := exists_cut_of_prefix (List.prefix_refl (lex policy source).lexemes)
  rw [covered] at split
  have nothing : rest = [] := List.self_eq_append_right.mp split
  subst nothing
  exact ⟨_, covered.symm, cut, rfl⟩

/-- Behind a line feed anything may follow: neither a comment nor a backslash reaches over it. -/
theorem allows_of_lineFeed (ended : (textOf front).getLast? = some '\n') (other : List Char) :
    Allows front [] other where
  next := fun _ _ => .inr (.inr ended)
  comment := by
    rintro - last member ⟨hash, unbroken⟩
    obtain ⟨before, rfl⟩ := List.getLast?_eq_some_iff.mp member
    rw [textOf_append, textOf_cons, textOf_nil, List.append_nil, text,
      List.getLast?_append_of_ne_nil _ (List.cons_ne_nil _ _)] at ended
    rcases List.mem_cons.mp (List.mem_of_getLast? ended) with same | inside
    · rw [hash] at same
      exact absurd same (by decide)
    · exact absurd inside unbroken
  joint := by
    rintro behind ⟨before, whole⟩ joins
    rw [← whole, List.getLast?_append_of_ne_nil _ (List.cons_ne_nil _ _)] at ended
    rw [List.append_nil]
    rcases joins.of_append with inside | ⟨rfl, _⟩ | ⟨rfl, _⟩
    · exact inside
    · cases ended
    · cases ended

end Lexeme

/-- At every boundary a source decomposes: the text in front is scanned to the tokens that end
there or before, and the text behind is scanned as it is alone. So the scan of whole lines in front
of another text is the scan of the lines and then that of the text. -/
theorem scan_decomposes (policy : UnknownPolicy) :
    (∀ source position, Boundary policy source position →
      position ≤ source.length ∧
        ∃ stream, scan policy (source.take position) = .ok stream ∧
          stream.body = (lex policy source).tokens.filter (·.stop ≤ (position : Int)) ∧
          Continues policy (source.take position) stream.body (source.drop position)) ∧
      ∀ lines text stream, lines.getLast? = some '\n' → scan policy lines = .ok stream →
        Boundary policy (lines ++ text) lines.length ∧
          Continues policy lines stream.body text := by
  constructor
  · intro source position boundary
    obtain ⟨front, rest, rfl, cut, rfl⟩ := boundary_iff.mp boundary
    obtain ⟨stream, scanned, body⟩ := cut.scan_front
    rw [List.take_left, List.drop_left]
    refine ⟨by simp, stream, scanned, ?_, ?_⟩
    · rw [body, cut.filter_tokens]
    · rw [body]
      exact cut.continues
  · intro lines text stream ended scanned
    obtain ⟨front, rfl, cut, body⟩ := Lexeme.exists_cut_of_scan scanned
    have behind := cut.exchange (Lexeme.allows_of_lineFeed ended text)
    rw [body]
    exact ⟨boundary_iff.mpr ⟨front, text, rfl, behind, rfl⟩, behind.continues⟩

/-- Three equals signs in front of an open string, cut behind the second one, and a line that
ends in a comment in front of a number. -/
theorem scan_decomposes_equals :
    let source := ['=', '=', '=', '\x22']
    let lines := ['x', '#', '\n']
    let stream : TokenStream :=
      ⟨[⟨.identifier, some (.text "x"), 0, 1, 1⟩], ⟨.endOfInput, none, 3, 3, 2⟩, rfl⟩
    Boundary .reject source 2 ∧
      (∃ front, scan .reject (source.take 2) = .ok front ∧
        front.body = (lex .reject source).tokens.filter (·.stop ≤ 2) ∧
        Continues .reject (source.take 2) front.body (source.drop 2)) ∧
      lines.getLast? = some '\n' ∧ scan .reject lines = .ok stream ∧
      Boundary .reject (lines ++ ['1']) lines.length ∧
        Continues .reject lines stream.body ['1'] := by
  intro source lines stream
  have boundary : Boundary .reject source 2 :=
    ⟨[⟨'=', ['='], .token .equalEqual none⟩], ⟨[⟨'=', [], .token .equal none⟩], by cbv⟩, rfl⟩
  have scanned : scan .reject lines = .ok stream := by cbv
  exact ⟨boundary, ((scan_decomposes .reject).1 source 2 boundary).2, rfl, scanned,
    (scan_decomposes .reject).2 lines ['1'] stream rfl scanned⟩

end LuneSyntax
