import LuneSyntax.Grammar.Expression
import LuneSyntax.Proofs.Grammar.Yield

/-!
# What the readers of expressions accept and refuse

A reader of a level passes exactly the yields of normal expressions of that level, and it fails
exactly where an operand is missing. Both are decided by the tokens passed and the one behind
them. The facts are shown for literals, and carried from each level to the one that binds less.
-/

set_option autoImplicit false

namespace LuneSyntax.Grammar

/-- What a reader comes to, without the proof that a phrase is not empty. -/
def Phrase.outcome {Value : Type} {tokens : List Token} :
    Except Fault (Phrase Value tokens) → Except Fault (Value × List Token)
  | .ok phrase => .ok (phrase.value, phrase.rest)
  | .error fault => .error fault

theorem run_eq_outcome {Value : Type} (reader : Reader Value) (tokens : List Token) :
    reader.run tokens = Phrase.outcome (reader tokens) := rfl

theorem run_of_ok {Value : Type} {reader : Reader Value} {tokens : List Token}
    {phrase : Phrase Value tokens} (read : reader tokens = .ok phrase) :
    reader.run tokens = .ok (phrase.value, phrase.rest) := by
  rw [run_eq_outcome, read]
  rfl

theorem run_of_error {Value : Type} {reader : Reader Value} {tokens : List Token} {fault : Fault}
    (failed : reader tokens = .error fault) : reader.run tokens = .error fault := by
  rw [run_eq_outcome, failed]
  rfl

/-- Behind a phrase of a level no operator of that level or of a tighter one follows. -/
def Stops (level : Nat) (next : Option Token) : Prop :=
  ∀ token ∈ next, token.kind.joiningLevel < level

/-- The kinds with which a phrase of a level begins. -/
inductive Opens (level : Nat) : Token.Kind → Prop where
  | integer : Opens level .integer
  | string : Opens level .string
  | leading {kind : Token.Kind} : level ≤ 5 → kind.Leads → Opens level kind

/-- No phrase of a level begins here. -/
def NoOperand (level : Nat) (next : Option Token) : Prop :=
  ∀ token ∈ next, ¬ Opens level token.kind

/-- Tokens of a phrase of a level up to a point where an operand is required: the beginning,
or behind an operator. -/
inductive Pending : Nat → List Token → Prop where
  | start {level : Nat} : Pending level []
  | unary {level : Nat} {operator : Token} {written : List Token} :
      level ≤ 5 → operator.kind.Leads → Pending 5 written → Pending level (operator :: written)
  | binary {level : Nat} {operator : Token} {left : Expr} {before written : List Token} :
      level ≤ operator.kind.joiningLevel → 0 < operator.kind.joiningLevel → left.Normal →
      operator.kind.joiningLevel ≤ left.level → left.Yields before →
      Pending (operator.kind.joiningLevel + 1) written →
      Pending level (before ++ operator :: written)

/-- A reader accepts the normal expressions of a level and refuses a missing operand. -/
structure Exact (level : Nat) (reader : Reader Expr) : Prop where
  accepted : ∀ {tokens : List Token} {expr : Expr} {rest : List Token},
    reader.run tokens = .ok (expr, rest) →
      ∃ written, tokens = written ++ rest ∧ expr.Yields written ∧ expr.Normal ∧
        level ≤ expr.level ∧ Stops level rest.head?
  accepts : ∀ {expr : Expr} {written rest : List Token},
    expr.Yields written → expr.Normal → level ≤ expr.level → Stops level rest.head? →
      reader.run (written ++ rest) = .ok (expr, rest)
  refused : ∀ {tokens : List Token} {fault : Fault},
    reader.run tokens = .error fault →
      ∃ written, tokens = written ++ fault.rest ∧ fault.cause = .invalidExpression ∧
        Pending level written ∧ NoOperand level fault.rest.head?
  refuses : ∀ {written rest : List Token},
    Pending level written → NoOperand level rest.head? →
      reader.run (written ++ rest) = .error ⟨.invalidExpression, rest⟩

theorem Pending.mono {lower level : Nat} {written : List Token}
    (pending : Pending level written) (le : lower ≤ level) : Pending lower written := by
  cases pending with
  | start => exact .start
  | unary bound leads rest => exact .unary (Nat.le_trans le bound) leads rest
  | binary bound joins normal leftLevel yields rest =>
      exact .binary (Nat.le_trans le bound) joins normal leftLevel yields rest

theorem Stops.mono {level higher : Nat} {next : Option Token} (stops : Stops level next)
    (le : level ≤ higher) : Stops higher next :=
  fun token member => Nat.lt_of_lt_of_le (stops token member) le

theorem stops_of_four_lt {level : Nat} (above : 4 < level) (next : Option Token) :
    Stops level next :=
  fun token _ => Nat.lt_of_le_of_lt token.kind.joiningLevel_le above

/-- Up to the unary level every phrase begins with the same kinds. -/
theorem Opens.of_le_five {level higher : Nat} {kind : Token.Kind} (opens : Opens higher kind)
    (le : level ≤ 5) : Opens level kind := by
  cases opens with
  | integer => exact .integer
  | string => exact .string
  | leading _ leads => exact .leading le leads

theorem NoOperand.of_le_five {level higher : Nat} {next : Option Token}
    (missing : NoOperand level next) (le : level ≤ 5) : NoOperand higher next :=
  fun token member opens => missing token member (opens.of_le_five le)

/-- A literal is one token, so nothing of it can be pending. -/
theorem Pending.eq_nil {level : Nat} {written : List Token} (pending : Pending level written)
    (above : 5 < level) : written = [] := by
  cases pending with
  | start => rfl
  | unary bound => omega
  | @binary _ operator =>
      have bound := operator.kind.joiningLevel_le
      omega

theorem Opens.literal_or_leads {level : Nat} {kind : Token.Kind} (opens : Opens level kind) :
    Opens 6 kind ∨ kind.Leads := by
  cases opens with
  | integer => exact .inl .integer
  | string => exact .inl .string
  | leading _ leads => exact .inr leads

/-! ## Literals -/

theorem exact_literal : Exact 6 literal where
  accepted := by
    intro tokens expr rest result
    cases tokens with
    | nil => cases result
    | cons token following =>
        cases kind : token.kind with
        | integer =>
            simp only [Reader.run, literal, kind] at result
            cases result
            exact ⟨[token], rfl, .integer kind token.hasNumber_number, .integer, Nat.le_refl 6,
              stops_of_four_lt (by decide) _⟩
        | string =>
            simp only [Reader.run, literal, kind] at result
            cases result
            exact ⟨[token], rfl, .string kind token.hasContent_content, .string, Nat.le_refl 6,
              stops_of_four_lt (by decide) _⟩
        | _ => simp only [Reader.run, literal, kind] at result; cases result
  accepts := by
    intro expr written rest yields normal level _
    cases yields with
    | integer isInteger valued => simp [Reader.run, literal, isInteger, valued.number_eq]
    | string isString valued => simp [Reader.run, literal, isString, valued.content_eq]
    | unary => exact absurd level (Nat.not_succ_le_self 5)
    | @binary left right operator =>
        have bound := operator.kind.joiningLevel_le
        simp only [Expr.level] at level
        omega
  refused := by
    intro tokens fault result
    cases tokens with
    | nil =>
        cases result
        exact ⟨[], rfl, rfl, .start, by simp [NoOperand]⟩
    | cons token following =>
        cases kind : token.kind with
        | integer | string => simp only [Reader.run, literal, kind] at result; cases result
        | _ =>
            simp only [Reader.run, literal, kind] at result
            cases result
            refine ⟨[], rfl, rfl, .start, ?_⟩
            intro next member opens
            cases member
            rw [kind] at opens
            cases opens with
            | leading bound => exact absurd bound (by decide)
  refuses := by
    intro written rest pending missing
    have unread := pending.eq_nil (Nat.lt_succ_self 5)
    subst unread
    cases rest with
    | nil => rfl
    | cons token following =>
        have closed := missing token rfl
        cases kind : token.kind with
        | integer => exact absurd (kind ▸ .integer) closed
        | string => exact absurd (kind ▸ .string) closed
        | _ => simp [Reader.run, literal, kind]

/-! ## Unary operators -/

theorem run_unary_nil : unary.run [] = literal.run [] := by
  simp only [Reader.run, unary]

theorem run_unary_of_leads {token : Token} (rest : List Token) (leads : token.kind.Leads) :
    unary.run (token :: rest) =
      match unary.run rest with
      | .ok (operand, after) => .ok (.unary token operand, after)
      | .error fault => .error fault := by
  have accepted := Token.Kind.leads_iff_isUnaryOperator.mp leads
  simp only [Reader.run, unary, accepted, if_true]
  cases unary rest <;> rfl

theorem run_unary_of_not_leads {token : Token} (rest : List Token) (other : ¬ token.kind.Leads) :
    unary.run (token :: rest) = literal.run (token :: rest) := by
  have rejected : ¬ token.kind.isUnaryOperator = true := by
    rwa [← Token.Kind.leads_iff_isUnaryOperator]
  simp only [Reader.run, unary, if_neg rejected]

private theorem unary_accepted {tokens : List Token} {expr : Expr} {rest : List Token}
    (result : unary.run tokens = .ok (expr, rest)) :
    ∃ written, tokens = written ++ rest ∧ expr.Yields written ∧ expr.Normal ∧ 5 ≤ expr.level := by
  induction tokens generalizing expr with
  | nil =>
      rw [run_unary_nil] at result
      obtain ⟨written, split, yields, normal, level, _⟩ := exact_literal.accepted result
      exact ⟨written, split, yields, normal, Nat.le_of_succ_le level⟩
  | cons token following ih =>
      by_cases leads : token.kind.Leads
      · rw [run_unary_of_leads following leads] at result
        cases inner : unary.run following with
        | error fault => simp [inner] at result
        | ok read =>
            obtain ⟨operand, after⟩ := read
            simp only [inner, Except.ok.injEq, Prod.mk.injEq] at result
            obtain ⟨rfl, rfl⟩ := result
            obtain ⟨written, rfl, yields, normal, level⟩ := ih inner
            exact ⟨token :: written, rfl, .unary yields, .unary leads normal level,
              Nat.le_refl 5⟩
      · rw [run_unary_of_not_leads following leads] at result
        obtain ⟨written, split, yields, normal, level, _⟩ := exact_literal.accepted result
        exact ⟨written, split, yields, normal, Nat.le_of_succ_le level⟩

private theorem unary_accepts {expr : Expr} {written : List Token} (rest : List Token)
    (yields : expr.Yields written) (normal : expr.Normal) (level : 5 ≤ expr.level) :
    unary.run (written ++ rest) = .ok (expr, rest) := by
  induction yields with
  | integer isInteger valued =>
      rw [List.singleton_append, run_unary_of_not_leads rest (by rw [isInteger]; nofun)]
      exact exact_literal.accepts (.integer isInteger valued) normal (Nat.le_refl 6)
        (stops_of_four_lt (by decide) _)
  | string isString valued =>
      rw [List.singleton_append, run_unary_of_not_leads rest (by rw [isString]; nofun)]
      exact exact_literal.accepts (.string isString valued) normal (Nat.le_refl 6)
        (stops_of_four_lt (by decide) _)
  | unary _ ih =>
      cases normal with
      | unary leads operandNormal operandLevel =>
          rw [List.cons_append, run_unary_of_leads _ leads, ih operandNormal operandLevel]
  | @binary _ _ operator =>
      have bound := operator.kind.joiningLevel_le
      simp only [Expr.level] at level
      omega

private theorem unary_refused {tokens : List Token} {fault : Fault}
    (result : unary.run tokens = .error fault) :
    ∃ written, tokens = written ++ fault.rest ∧ fault.cause = .invalidExpression ∧
      Pending 5 written ∧ NoOperand 5 fault.rest.head? := by
  induction tokens with
  | nil =>
      cases result
      exact ⟨[], rfl, rfl, .start, by simp [NoOperand]⟩
  | cons token following ih =>
      by_cases leads : token.kind.Leads
      · rw [run_unary_of_leads following leads] at result
        cases inner : unary.run following with
        | ok read => simp [inner] at result
        | error innerFault =>
            simp only [inner, Except.error.injEq] at result
            subst result
            obtain ⟨written, split, cause, pending, missing⟩ := ih inner
            exact ⟨token :: written, by rw [split]; rfl, cause,
              .unary (Nat.le_refl 5) leads pending, missing⟩
      · rw [run_unary_of_not_leads following leads] at result
        obtain ⟨written, split, cause, pending, missing⟩ := exact_literal.refused result
        have unread := pending.eq_nil (Nat.lt_succ_self 5)
        subst unread
        refine ⟨[], split, cause, .start, ?_⟩
        intro next member opens
        have same : next = token := by
          rw [List.nil_append] at split
          rw [← split] at member
          exact (Option.some.inj member).symm
        rcases opens.literal_or_leads with literal | leading
        · exact missing next member literal
        · exact leads (same ▸ leading)

private theorem unary_refuses {level : Nat} {written : List Token} (rest : List Token)
    (pending : Pending level written) (bound : 5 ≤ level)
    (missing : NoOperand 5 rest.head?) :
    unary.run (written ++ rest) = .error ⟨.invalidExpression, rest⟩ := by
  induction pending with
  | start =>
      have refusal : literal.run ([] ++ rest) = .error ⟨.invalidExpression, rest⟩ :=
        exact_literal.refuses .start (missing.of_le_five (Nat.le_refl 5))
      rw [List.nil_append] at refusal ⊢
      cases rest with
      | nil => rw [run_unary_nil]; exact refusal
      | cons token following =>
          have other : ¬ token.kind.Leads :=
            fun leads => missing token rfl (.leading (Nat.le_refl 5) leads)
          rw [run_unary_of_not_leads following other]
          exact refusal
  | unary _ leads _ ih =>
      rw [List.cons_append, run_unary_of_leads _ leads, ih (Nat.le_refl 5)]
  | @binary _ operator _ _ _ atLeast =>
      have bound := operator.kind.joiningLevel_le
      omega

theorem exact_unary : Exact 5 unary where
  accepted := by
    intro tokens expr rest result
    obtain ⟨written, split, yields, normal, level⟩ := unary_accepted result
    exact ⟨written, split, yields, normal, level, stops_of_four_lt (by decide) _⟩
  accepts := fun yields normal level _ => unary_accepts _ yields normal level
  refused := unary_refused
  refuses := fun pending missing => unary_refuses _ pending (Nat.le_refl 5) missing

/-! ## Binary operators -/

/-- The course of a binary level behind a left operand: it ends before a token that is no
operator of the level, or at a missing operand. -/
inductive Joins (level : Precedence) (operand : Reader Expr) :
    Expr → List Token → Except Fault (Expr × List Token) → Prop where
  | done {left : Expr} {rest : List Token} :
      (∀ token ∈ rest.head?, token.kind.joiningLevel ≠ level.rank) →
      Joins level operand left rest (.ok (left, rest))
  | fault {left : Expr} {operator : Token} {after : List Token} {fault : Fault} :
      operator.kind.joiningLevel = level.rank → operand.run after = .error fault →
      Joins level operand left (operator :: after) (.error fault)
  | step {left right : Expr} {operator : Token} {after rest : List Token}
      {outcome : Except Fault (Expr × List Token)} :
      operator.kind.joiningLevel = level.rank → operand.run after = .ok (right, rest) →
      Joins level operand (.binary left operator right) rest outcome →
      Joins level operand left (operator :: after) outcome

theorem joins_joinOperands (level : Precedence) (operand : Reader Expr) {tokens : List Token}
    (left : Expr) (rest : List Token) (shorter : rest.length < tokens.length) :
    Joins level operand left rest (Phrase.outcome (joinOperands level operand left rest shorter)) := by
  fun_induction joinOperands level operand left rest shorter with
  | case1 left shorter => exact .done (by simp)
  | case2 left operator after shorter found fault failed =>
      exact .fault (Token.Kind.binaryLevel?_eq_some_iff.mp found) (run_of_error failed)
  | case3 left operator after shorter found right read _ ih =>
      exact .step (Token.Kind.binaryLevel?_eq_some_iff.mp found) (run_of_ok read) ih
  | case4 left operator after shorter other =>
      refine .done ?_
      intro token member same
      cases member
      exact other (Token.Kind.binaryLevel?_eq_some_iff.mpr same)

theorem Joins.unique {level : Precedence} {operand : Reader Expr} {left : Expr}
    {rest : List Token} {first second : Except Fault (Expr × List Token)}
    (joins : Joins level operand left rest first) (other : Joins level operand left rest second) :
    first = second := by
  induction joins with
  | done ends =>
      cases other with
      | done => rfl
      | fault same => exact absurd same (ends _ rfl)
      | step same => exact absurd same (ends _ rfl)
  | fault same failed =>
      cases other with
      | done ends => exact absurd same (ends _ rfl)
      | fault _ failedToo => rw [← failed, failedToo]
      | step _ read => rw [failed] at read; cases read
  | step same read _ ih =>
      cases other with
      | done ends => exact absurd same (ends _ rfl)
      | fault _ failed => rw [read] at failed; cases failed
      | step _ readToo following =>
          rw [read] at readToo
          cases readToo
          exact ih following

theorem run_leftAssociative_of_error {level : Precedence} {operand : Reader Expr}
    {tokens : List Token} {fault : Fault} (failed : operand.run tokens = .error fault) :
    (leftAssociative level operand).run tokens = .error fault := by
  simp only [Reader.run, leftAssociative] at failed ⊢
  cases first : operand tokens with
  | error found => rw [first] at failed; simpa using failed
  | ok phrase => rw [first] at failed; cases failed

theorem joins_run_leftAssociative {level : Precedence} {operand : Reader Expr}
    {tokens rest : List Token} {first : Expr} (read : operand.run tokens = .ok (first, rest)) :
    Joins level operand first rest ((leftAssociative level operand).run tokens) := by
  rw [run_eq_outcome] at read ⊢
  cases phrase : operand tokens with
  | error fault => rw [phrase] at read; cases read
  | ok found =>
      rw [phrase] at read
      cases read
      simp only [leftAssociative, phrase]
      exact joins_joinOperands level operand found.value found.rest found.shorter

/-! ## Exactness of a binary level -/

section Level

variable {level : Precedence} {operand : Reader Expr}

private theorem normal_of_joining {left right : Expr} {operator : Token}
    (joining : operator.kind.joiningLevel = level.rank) (leftNormal : left.Normal)
    (rightNormal : right.Normal) (leftLevel : level.rank ≤ left.level)
    (rightLevel : level.rank + 1 ≤ right.level) : (Expr.binary left operator right).Normal := by
  have positive : 0 < level.rank := by cases level <;> decide
  exact .binary (by omega) leftNormal rightNormal (by omega) (by omega)

/-- An operator of a level may stand behind its left operand. -/
private theorem stops_of_joining {operator : Token} (rest : List Token)
    (joining : operator.kind.joiningLevel = level.rank) :
    Stops (level.rank + 1) (operator :: rest).head? := by
  intro token member
  cases member
  exact Nat.lt_succ_of_le (Nat.le_of_eq joining)

private theorem Joins.accepted (exact : Exact (level.rank + 1) operand) {left : Expr}
    {tokens : List Token} {outcome : Except Fault (Expr × List Token)}
    (joins : Joins level operand left tokens outcome) (normal : left.Normal)
    (atLeast : level.rank ≤ left.level) (stops : Stops (level.rank + 1) tokens.head?)
    {expr : Expr} {rest : List Token} (result : outcome = .ok (expr, rest)) :
    ∃ written, tokens = written ++ rest ∧
      (∀ before, left.Yields before → expr.Yields (before ++ written)) ∧ expr.Normal ∧
      level.rank ≤ expr.level ∧ Stops level.rank rest.head? := by
  induction joins with
  | done ends =>
      cases result
      refine ⟨[], rfl, fun before yields => by rwa [List.append_nil], normal, atLeast, ?_⟩
      intro token member
      have below := stops token member
      have different := ends token member
      omega
  | fault => cases result
  | @step left right operator after following _ same read _ ih =>
      obtain ⟨rightWritten, rfl, rightYields, rightNormal, rightLevel, rightStops⟩ :=
        exact.accepted read
      have joined := normal_of_joining same normal rightNormal atLeast rightLevel
      obtain ⟨written, rfl, yields, exprNormal, exprLevel, exprStops⟩ :=
        ih joined (Nat.le_of_eq same.symm) rightStops result
      refine ⟨operator :: (rightWritten ++ written), by simp, ?_, exprNormal, exprLevel, exprStops⟩
      intro before leftYields
      have whole := yields _ (.binary leftYields rightYields)
      simpa using whole

private theorem Joins.refused (binary : level.rank ≤ 4) (exact : Exact (level.rank + 1) operand)
    {left : Expr} {tokens : List Token} {outcome : Except Fault (Expr × List Token)}
    (joins : Joins level operand left tokens outcome) (normal : left.Normal)
    (atLeast : level.rank ≤ left.level) {fault : Fault} (result : outcome = .error fault) :
    ∃ written, tokens = written ++ fault.rest ∧ fault.cause = .invalidExpression ∧
      (∀ before, left.Yields before → Pending level.rank (before ++ written)) ∧
      NoOperand level.rank fault.rest.head? := by
  have positive : 0 < level.rank := by cases level <;> decide
  induction joins with
  | done => cases result
  | @fault left operator after found same failed =>
      cases result
      obtain ⟨written, rfl, cause, pending, missing⟩ := exact.refused failed
      refine ⟨operator :: written, rfl, cause, ?_, missing.of_le_five (by omega)⟩
      intro before yields
      rw [← same] at pending
      exact .binary (Nat.le_of_eq same.symm) (by omega) normal (by omega) yields pending
  | @step left right operator after following _ same read _ ih =>
      obtain ⟨rightWritten, rfl, rightYields, rightNormal, rightLevel, rightStops⟩ :=
        exact.accepted read
      have joined := normal_of_joining same normal rightNormal atLeast rightLevel
      obtain ⟨written, rfl, cause, pending, missing⟩ :=
        ih joined (Nat.le_of_eq same.symm) result
      refine ⟨operator :: (rightWritten ++ written), by simp, cause, ?_, missing⟩
      intro before leftYields
      have whole := pending _ (.binary leftYields rightYields)
      simpa using whole

private theorem run_of_tighter (exact : Exact (level.rank + 1) operand) {left : Expr}
    {before rest : List Token} {outcome : Except Fault (Expr × List Token)}
    (yields : left.Yields before) (normal : left.Normal) (above : level.rank + 1 ≤ left.level)
    (stops : Stops (level.rank + 1) rest.head?)
    (joins : Joins level operand left rest outcome) :
    (leftAssociative level operand).run (before ++ rest) = outcome :=
  (joins_run_leftAssociative (exact.accepts yields normal above stops)).unique joins

/-- A left operand is passed, however it is put together, and the level goes on behind it.
The tokens behind are arbitrary, so that the left operand of an operator is a case of this. -/
private theorem run_of_joins (binary : level.rank ≤ 4) (exact : Exact (level.rank + 1) operand)
    {left : Expr} {before rest : List Token} {outcome : Except Fault (Expr × List Token)}
    (yields : left.Yields before) (normal : left.Normal) (atLeast : level.rank ≤ left.level)
    (stops : Stops (level.rank + 1) rest.head?)
    (joins : Joins level operand left rest outcome) :
    (leftAssociative level operand).run (before ++ rest) = outcome := by
  have tighter : level.rank + 1 ≤ 5 := Nat.succ_le_succ binary
  induction yields generalizing rest with
  | integer kind value =>
      exact run_of_tighter exact (.integer kind value) normal (Nat.le_succ_of_le tighter) stops
        joins
  | string kind value =>
      exact run_of_tighter exact (.string kind value) normal (Nat.le_succ_of_le tighter) stops
        joins
  | unary yields => exact run_of_tighter exact (.unary yields) normal tighter stops joins
  | @binary left right operator before after leftYields rightYields leftIH _ =>
      rcases Nat.lt_or_eq_of_le atLeast with above | same
      · exact run_of_tighter exact (.binary leftYields rightYields) normal above stops joins
      · -- The operator is one of this level, so the level meets it behind the left operand.
        have joining : operator.kind.joiningLevel = level.rank := same.symm
        cases normal with
        | binary _ leftNormal rightNormal leftLevel rightLevel =>
            rw [joining] at leftLevel rightLevel
            have read := exact.accepts rightYields rightNormal rightLevel stops
            rw [List.append_assoc, List.cons_append]
            exact leftIH leftNormal leftLevel (stops_of_joining _ joining)
              (.step joining read joins)

/-- If a reader is exact at a level, so is the level of operators that joins its operands. -/
theorem exact_leftAssociative (binary : level.rank ≤ 4)
    (exact : Exact (level.rank + 1) operand) :
    Exact level.rank (leftAssociative level operand) where
  accepted := by
    intro tokens expr rest result
    cases first : operand.run tokens with
    | error fault =>
        rw [run_leftAssociative_of_error first] at result
        cases result
    | ok read =>
        obtain ⟨left, following⟩ := read
        obtain ⟨before, rfl, leftYields, leftNormal, leftLevel, stops⟩ := exact.accepted first
        obtain ⟨written, rfl, yields, normal, atLeast, ends⟩ :=
          (joins_run_leftAssociative first).accepted exact leftNormal
            (Nat.le_of_succ_le leftLevel) stops result
        exact ⟨before ++ written, (List.append_assoc _ _ _).symm, yields before leftYields, normal,
          atLeast, ends⟩
  accepts := by
    intro expr written rest yields normal atLeast stops
    apply run_of_joins binary exact yields normal atLeast (stops.mono (Nat.le_succ _))
    exact .done fun token member => Nat.ne_of_lt (stops token member)
  refused := by
    intro tokens fault result
    cases first : operand.run tokens with
    | error found =>
        rw [run_leftAssociative_of_error first] at result
        cases result
        obtain ⟨written, split, cause, pending, missing⟩ := exact.refused first
        exact ⟨written, split, cause, pending.mono (Nat.le_succ _),
          missing.of_le_five (Nat.succ_le_succ binary)⟩
    | ok read =>
        obtain ⟨left, following⟩ := read
        obtain ⟨before, rfl, leftYields, leftNormal, leftLevel, stops⟩ := exact.accepted first
        obtain ⟨written, rfl, cause, pending, missing⟩ :=
          (joins_run_leftAssociative first).refused binary exact leftNormal
            (Nat.le_of_succ_le leftLevel) result
        exact ⟨before ++ written, (List.append_assoc _ _ _).symm, cause,
          pending before leftYields, missing⟩
  refuses := by
    intro written rest pending missing
    have absent : NoOperand (level.rank + 1) rest.head? :=
      missing.of_le_five (Nat.le_succ_of_le binary)
    cases pending with
    | start => exact run_leftAssociative_of_error (exact.refuses .start absent)
    | unary _ leads following =>
        exact run_leftAssociative_of_error
          (exact.refuses (.unary (Nat.succ_le_succ binary) leads following) absent)
    | @binary _ operator left before after atLeast positive normal leftLevel yields following =>
        rcases Nat.lt_or_eq_of_le atLeast with above | same
        · exact run_leftAssociative_of_error
            (exact.refuses (.binary above positive normal leftLevel yields following) absent)
        · rw [← same] at leftLevel following
          have failed := exact.refuses following absent
          rw [List.append_assoc, List.cons_append]
          exact run_of_joins binary exact yields normal leftLevel (stops_of_joining _ same.symm)
            (.fault same.symm failed)

end Level

theorem exact_factor : Exact 4 factor :=
  @exact_leftAssociative .factor unary (by decide) exact_unary

theorem exact_term : Exact 3 term :=
  @exact_leftAssociative .term factor (by decide) exact_factor

theorem exact_comparison : Exact 2 comparison :=
  @exact_leftAssociative .comparison term (by decide) exact_term

theorem exact_equality : Exact 1 equality :=
  @exact_leftAssociative .equality comparison (by decide) exact_comparison

/-- Every level accepts and refuses what its number says. -/
theorem exact_atLevel (level : Precedence) : Exact level.rank (atLevel level) := by
  cases level with
  | equality => exact exact_equality
  | comparison => exact exact_comparison
  | term => exact exact_term
  | factor => exact exact_factor
  | unary => exact exact_unary
  | literal => exact exact_literal

end LuneSyntax.Grammar
