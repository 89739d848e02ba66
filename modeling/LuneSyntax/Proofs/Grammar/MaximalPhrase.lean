import LuneSyntax.Proofs.Grammar.Session

/-!
# Phrases from a cursor

A level of expressions may be read from any position of a stream, also from one past its end. It
passes a phrase of the level than which none from there is longer, or it stops where an operand is
missing.
-/

set_option autoImplicit false

namespace LuneSyntax

namespace Grammar

variable {level : Nat} {reader : Reader Expr} {written rest : List Token}

/-- An operand is required at the beginning or behind an operator. -/
theorem Pending.eq_nil_or_operator (pending : Pending level written) :
    written = [] ∨ ∃ before operator, written = before ++ [operator] ∧
      (operator.kind.Leads ∨ 0 < operator.kind.joiningLevel) := by
  induction pending with
  | start => exact .inl rfl
  | @unary _ operator written _ leads _ ih =>
      rcases ih with nothing | ⟨before, last, split, isOperator⟩
      · exact .inr ⟨[], operator, by rw [nothing]; rfl, .inl leads⟩
      · exact .inr ⟨operator :: before, last, by rw [split]; rfl, isOperator⟩
  | @binary _ operator _ passed written _ joins _ _ _ _ ih =>
      rcases ih with nothing | ⟨before, last, split, isOperator⟩
      · exact .inr ⟨passed, operator, by rw [nothing], .inr joins⟩
      · exact .inr ⟨passed ++ operator :: before, last, by rw [split]; simp, isOperator⟩

/-- Behind a phrase at which its level stops, none of the level goes on. With the longer one alone
the reader would have to stop at both ends. -/
theorem Exact.length_le (exact : Exact level reader) {expr other : Expr} {longer : List Token}
    (yields : expr.Yields written) (normal : expr.Normal) (atLeast : level ≤ expr.level)
    (stops : Stops level rest.head?) (otherYields : other.Yields longer)
    (otherNormal : other.Normal) (otherAtLeast : level ≤ other.level)
    (begins : longer <+: written ++ rest) : longer.length ≤ written.length := by
  rcases List.prefix_or_prefix_of_prefix begins (List.prefix_append written rest) with
    inside | ⟨more, rfl⟩
  · exact inside.length_le
  · have ahead : more <+: rest := (List.prefix_append_right_inj written).mp begins
    have stopsToo : Stops level more.head? := by
      intro token first
      obtain ⟨after, rfl⟩ := ahead
      apply stops token
      simp [List.head?_append, Option.mem_def.mp first]
    have stopped := exact.accepts yields normal atLeast stopsToo
    have whole : reader.run (written ++ more ++ []) = .ok (other, []) :=
      exact.accepts otherYields otherNormal otherAtLeast (by simp [Stops])
    rw [List.append_nil, stopped] at whole
    cases whole
    simp

end Grammar

namespace TokenCursor

open Grammar

variable {cursor reached : TokenCursor} {level : Precedence}

/-- From one cursor to another there is a phrase of a level, and none from there is longer. -/
structure Spans (cursor : TokenCursor) (level : Precedence) (expr : Expr) (written : List Token)
    (reached : TokenCursor) : Prop where
  stream : reached.stream = cursor.stream
  position : reached.position = cursor.position + written.length
  remaining : cursor.remaining = written ++ reached.remaining
  forward : cursor.position < reached.position
  unended : ∀ token ∈ written, token.kind ≠ .endOfInput
  yields : expr.Yields written
  normal : expr.Normal
  atLeast : level.rank ≤ expr.level
  stops : reached.current.kind.joiningLevel < level.rank
  longest : ∀ (other : Expr) (longer : List Token), other.Yields longer → other.Normal →
    level.rank ≤ other.level → longer <+: cursor.remaining → longer.length ≤ written.length

/-- From one cursor on a level has been read to another, where it lacks an operand. -/
structure LacksOperand (cursor : TokenCursor) (level : Precedence) (raised : Raised)
    (reached : TokenCursor) : Prop where
  stream : reached.stream = cursor.stream
  forward : cursor.position ≤ reached.position
  reported : raised =
    (Diagnostic.syntactic .invalidExpression reached.position reached.current).raised
  required : reached.position = cursor.position ∨
    cursor.position < reached.position ∧ ∃ operator,
      cursor.stream.toList[reached.position - 1]? = some operator ∧
        (operator.kind.Leads ∨ 0 < operator.kind.joiningLevel)
  literal : reached.current.kind ≠ .integer ∧ reached.current.kind ≠ .string
  leading : level ≠ .literal → ¬ reached.current.kind.Leads

theorem spans_of_run {expr : Expr} {rest : List Token}
    (result : (atLevel level).run cursor.remaining = .ok (expr, rest)) :
    ∃ written, cursor.Spans level expr written (cursor.advanceTo rest) := by
  have exact := exact_atLevel level
  obtain ⟨written, split, yields, normal, atLeast, stops⟩ := exact.accepted result
  have ahead := remaining_seek split
  rw [advanceTo_of_split split]
  refine ⟨written, rfl, rfl, ?_, ?_, ?_, yields, normal, atLeast, ?_, ?_⟩
  · rw [ahead, split]
  · have nonempty : written ≠ [] := by
      cases yields <;> simp
    exact Nat.lt_add_of_pos_right (List.length_pos_iff.mpr nonempty)
  · intro token member
    exact kind_ne_endOfInput_of_not_separates (yields.not_separates normal member)
  · apply kind_current (·.joiningLevel < level.rank)
    · rwa [ahead]
    · cases level <;> decide
  · intro other longer otherYields otherNormal otherAtLeast begins
    rw [split] at begins
    exact exact.length_le yields normal atLeast stops otherYields otherNormal otherAtLeast begins

theorem lacksOperand_of_run {fault : Fault}
    (result : (atLevel level).run cursor.remaining = .error fault) :
    cursor.LacksOperand level
      (fault.diagnostic (cursor.advanceTo fault.rest).position cursor.stream.final).raised
      (cursor.advanceTo fault.rest) := by
  obtain ⟨written, split, cause, pending, missing⟩ := (exact_atLevel level).refused result
  have ahead := remaining_seek split
  rw [advanceTo_of_split split]
  have closed : ¬ Opens level.rank
      (cursor.seek (cursor.position + written.length)).current.kind := by
    apply kind_current (¬ Opens level.rank ·)
    · rwa [ahead]
    · intro opens
      cases opens with
      | leading _ leads => cases leads
  refine ⟨rfl, Nat.le_add_right _ _, ?_, ?_, ⟨?_, ?_⟩, ?_⟩
  · rw [Fault.diagnostic, cause, current, ahead]
    rfl
  · rcases pending.eq_nil_or_operator with rfl | ⟨before, operator, rfl, isOperator⟩
    · exact .inl rfl
    · have last : cursor.remaining[before.length]? = some operator := by
        rw [split]
        simp
      have position : (cursor.seek (cursor.position + (before ++ [operator]).length)).position =
          cursor.position + before.length + 1 := by
        simp [seek, Nat.add_assoc]
      rw [remaining, List.getElem?_drop] at last
      rw [position]
      exact .inr ⟨by omega, operator, last, isOperator⟩
  · intro isInteger
    exact closed (isInteger ▸ .integer)
  · intro isString
    exact closed (isString ▸ .string)
  · intro other leads
    have atMost : level.rank ≤ 5 := by
      cases level with
      | literal => exact absurd rfl other
      | _ => decide
    exact closed (.leading atMost leads)

/-- From any cursor a level passes a phrase of its own that no other one exceeds, or it reports
that an operand is missing, where one is required and none begins. -/
theorem read_atLevel (cursor : TokenCursor) (level : Precedence) :
    (∃ expr written reached, cursor.read (atLevel level).run = (.ok expr, reached) ∧
      cursor.Spans level expr written reached) ∨
    ∃ raised reached, cursor.read (atLevel level).run = (.error raised, reached) ∧
      cursor.LacksOperand level raised reached := by
  cases result : (atLevel level).run cursor.remaining with
  | ok found =>
      obtain ⟨expr, rest⟩ := found
      obtain ⟨written, spans⟩ := spans_of_run result
      left
      refine ⟨expr, written, cursor.advanceTo rest, ?_, spans⟩
      rw [read, result]
  | error fault =>
      right
      refine ⟨_, cursor.advanceTo fault.rest, ?_, lacksOperand_of_run result⟩
      rw [read, result]

/-- No literal begins with an operator, but the line of this one is too long for a diagnostic that
says so. -/
theorem literal_raises_overlongNumber :
    ((atStart ⟨[⟨.star, none, 0, 1, Numeral.leastOverlong⟩],
      ⟨.endOfInput, none, 1, 1, 1⟩, rfl⟩).read (atLevel .literal).run).1 =
        .error .overlongNumber := by
  have written : (Numeral.leastOverlong : Int) ∈ (Diagnostic.syntactic .invalidExpression 0
      ⟨.star, none, 0, 1, Numeral.leastOverlong⟩).numbers :=
    .tail _ (.head _)
  rw [← Diagnostic.raised_of_mem_numbers written Numeral.not_isWritable_leastOverlong]
  rfl

end TokenCursor

end LuneSyntax
