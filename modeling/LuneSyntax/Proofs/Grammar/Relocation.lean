import LuneSyntax.Proofs.Grammar.Program
import LuneSyntax.Tree.SExpression

/-!
# Relocated tokens

Parsing looks at the kinds and the payloads of tokens only. A change to their spans and lines
passes through the grammar into the operators of the trees, and no S-expression shows it. Nor does
the grammar need a line break: a program is the same without it.
-/

set_option autoImplicit false

namespace LuneSyntax

/-- A change to tokens that keeps what they are and concerns only where they stand. -/
structure Token.Relocates (move : Token → Token) : Prop where
  kind : ∀ token, (move token).kind = token.kind
  payload : ∀ token, (move token).payload = token.payload

section Relocation

variable {move : Token → Token} (relocates : Token.Relocates move)

/-! ## Tokens -/

namespace Token.Relocates

include relocates

theorem hasNumber {token : Token} {value : Int} (has : token.HasNumber value) :
    (move token).HasNumber value := by
  cases has with
  | carried payload => exact .carried ((relocates.payload token).trans payload)
  | missing other =>
      apply Token.HasNumber.missing
      rwa [relocates.payload]

theorem hasContent {token : Token} {value : String} (has : token.HasContent value) :
    (move token).HasContent value := by
  cases has with
  | carried payload => exact .carried ((relocates.payload token).trans payload)
  | missing other =>
      apply Token.HasContent.missing
      rwa [relocates.payload]

theorem text (token : Token) : (move token).text = token.text := by
  rw [Token.text, Token.text, relocates.kind, relocates.payload]

end Token.Relocates

/-! ## Expressions -/

namespace Expr

/-- The expression with another token for each operator. -/
def mapOperators (move : Token → Token) : Expr → Expr
  | .integer value => .integer value
  | .string value => .string value
  | .unary operator operand => .unary (move operator) (operand.mapOperators move)
  | .binary left operator right =>
    .binary (left.mapOperators move) (move operator) (right.mapOperators move)
  | .bare => .bare

include relocates

theorem level_mapOperators (expr : Expr) : (expr.mapOperators move).level = expr.level := by
  cases expr with
  | binary left operator right => rw [mapOperators, level, level, relocates.kind]
  | _ => rfl

theorem render_mapOperators (expr : Expr) : (expr.mapOperators move).render = expr.render := by
  induction expr with
  | unary operator operand ih => rw [mapOperators, render, render, ih, relocates.text]
  | binary left operator right leftIH rightIH =>
      rw [mapOperators, render, render, leftIH, rightIH, relocates.text]
  | _ => rfl

theorem Normal.mapOperators {expr : Expr} (normal : expr.Normal) :
    (expr.mapOperators move).Normal := by
  induction normal with
  | integer => exact .integer
  | string => exact .string
  | unary leads _ tight ih =>
      refine .unary ?_ ih ?_
      · rwa [relocates.kind]
      · rwa [level_mapOperators relocates]
  | binary joins _ _ leftTight rightTight leftIH rightIH =>
      refine .binary ?_ leftIH rightIH ?_ ?_
      · rwa [relocates.kind]
      · rwa [relocates.kind, level_mapOperators relocates]
      · rwa [relocates.kind, level_mapOperators relocates]

theorem Yields.mapOperators {expr : Expr} {written : List Token} (yields : expr.Yields written) :
    (expr.mapOperators move).Yields (written.map move) := by
  induction yields with
  | integer isInteger value =>
      exact .integer ((relocates.kind _).trans isInteger) (relocates.hasNumber value)
  | string isString value =>
      exact .string ((relocates.kind _).trans isString) (relocates.hasContent value)
  | unary _ ih => exact .unary ih
  | binary _ _ leftIH rightIH =>
      rw [List.map_append]
      exact .binary leftIH rightIH

end Expr

/-! ## Statements -/

namespace Stmt

@[inherit_doc Expr.mapOperators]
def mapOperators (move : Token → Token) : Stmt → Stmt
  | .expression expr => .expression (expr.mapOperators move)
  | .declaration name type initializer => .declaration name type (initializer.mapOperators move)
  | .assignment target value => .assignment target (value.mapOperators move)
  | .bare => .bare

include relocates

theorem Normal.mapOperators {stmt : Stmt} (normal : stmt.Normal) :
    (stmt.mapOperators move).Normal := by
  cases normal with
  | declaration typed initializer => exact .declaration typed (initializer.mapOperators relocates)

theorem Yields.mapOperators {stmt : Stmt} {written : List Token} (yields : stmt.Yields written) :
    (stmt.mapOperators move).Yields (written.map move) := by
  cases yields with
  | declaration isWord isName named isColon isType isEqual value =>
      refine .declaration ((relocates.kind _).trans isWord) ((relocates.kind _).trans isName)
        (relocates.hasContent named) ((relocates.kind _).trans isColon) ?_
        ((relocates.kind _).trans isEqual) (value.mapOperators relocates)
      rwa [relocates.kind]

theorem render_mapOperators (stmt : Stmt) : (stmt.mapOperators move).render = stmt.render := by
  cases stmt with
  | bare => rfl
  | _ => simp only [mapOperators, render, Expr.render_mapOperators relocates]

omit relocates in
theorem isPrintable_mapOperators (stmt : Stmt) :
    (Node.statement (stmt.mapOperators move)).isPrintable =
      (Node.statement stmt).isPrintable := by
  cases stmt with
  | expression expr => cases expr <;> rfl
  | _ => rfl

end Stmt

include relocates in
theorem SExpression.printProgram_mapOperators (statements : List Stmt) :
    printProgram (statements.map (·.mapOperators move)) = printProgram statements := by
  have printable : (fun node => !Node.isPrintable node) ∘ Node.statement ∘
      (·.mapOperators move) = (fun node => !Node.isPrintable node) ∘ Node.statement :=
    funext fun stmt => congrArg (!·) stmt.isPrintable_mapOperators
  have rendered : Node.render ∘ Node.statement ∘ (·.mapOperators move) =
      Node.render ∘ Node.statement :=
    funext fun stmt => stmt.render_mapOperators relocates
  simp only [printProgram, print, List.map_map, List.findIdx?_map, printable, rendered]

/-! ## Programs -/

namespace Grammar

include relocates

theorem Yields.mapOperators {statements : List Stmt} {written : List Token}
    (yields : Yields statements written) :
    Yields (statements.map (·.mapOperators move)) (written.map move) := by
  induction yields with
  | nil => exact .nil
  | newline isNewline _ ih => exact .newline ((relocates.kind _).trans isNewline) ih
  | statement first _ ih =>
      rw [List.map_append]
      exact .statement (first.mapOperators relocates) ih

end Grammar

end Relocation

/-- A line break is never inside a statement, so it can be left out. -/
theorem Grammar.Yields.erase_newline {statements : List Stmt} {before after : List Token}
    {lineBreak : Token} (yields : Yields statements (before ++ lineBreak :: after))
    (isNewline : lineBreak.kind = .newline) (normal : ∀ stmt ∈ statements, stmt.Normal) :
    Yields statements (before ++ after) := by
  generalize whole : before ++ lineBreak :: after = written at yields
  induction yields generalizing before with
  | nil => simp at whole
  | @newline statements token written isToken yields ih =>
      cases before with
      | nil =>
          obtain ⟨rfl, rfl⟩ := List.cons.inj whole
          exact yields
      | cons head before =>
          obtain ⟨rfl, rfl⟩ := List.cons.inj whole
          exact .newline isToken (ih normal rfl)
  | @statement stmt statements first written firstYields yields ih =>
      have others : ∀ other ∈ statements, other.Normal :=
        fun other member => normal other (List.mem_cons_of_mem _ member)
      rcases List.append_eq_append_iff.mp whole with ⟨between, rfl, split⟩ | ⟨between, rfl, split⟩
      · cases between with
        | nil =>
            have following : Yields statements ([] ++ after) := ih others split
            rw [List.append_nil] at firstYields
            exact .statement firstYields following
        | cons head between =>
            obtain ⟨rfl, _⟩ := List.cons.inj split
            have inside := firstYields.not_separates (normal stmt List.mem_cons_self)
              (List.mem_append_right before List.mem_cons_self)
            rw [isNewline] at inside
            cases inside
      · rw [List.append_assoc]
        exact .statement firstYields (ih others split.symm)

/-! ## Token streams -/

/-- The tokens begin with a yield of the statements, and an end of the input follows it. -/
def Grammar.Spelled (tokens : List Token) (statements : List Stmt) : Prop :=
  ∃ (written : List Token) (last : Token) (rest : List Token),
    tokens = written ++ last :: rest ∧ last.kind = .endOfInput ∧ Yields statements written ∧
      ∀ stmt ∈ statements, stmt.Normal

theorem TokenStream.parse_eq_ok_iff_spelled {stream : TokenStream} {statements : List Stmt} :
    stream.parse = .ok statements ↔ Grammar.Spelled stream.toList statements := by
  constructor
  · exact exists_split_of_parse
  · rintro ⟨written, last, rest, split, ends, yields, normal⟩
    exact parse_of_split split ends yields normal

namespace Grammar.Spelled

/-- Tokens that are relocated spell the statements with relocated operators. -/
theorem mapOperators {move : Token → Token} (relocates : Token.Relocates move)
    {tokens : List Token} {statements : List Stmt} (spelled : Spelled tokens statements) :
    Spelled (tokens.map move) (statements.map (·.mapOperators move)) := by
  obtain ⟨written, last, rest, rfl, ends, yields, normal⟩ := spelled
  refine ⟨written.map move, move last, rest.map move, ?_, (relocates.kind last).trans ends,
    yields.mapOperators relocates, ?_⟩
  · rw [List.map_append, List.map_cons]
  · intro stmt member
    obtain ⟨original, listed, rfl⟩ := List.mem_map.mp member
    exact (normal original listed).mapOperators relocates

theorem erase_newline {before after : List Token} {lineBreak : Token} {statements : List Stmt}
    (spelled : Spelled (before ++ lineBreak :: after) statements)
    (isNewline : lineBreak.kind = .newline) : Spelled (before ++ after) statements := by
  obtain ⟨written, last, rest, split, ends, yields, normal⟩ := spelled
  have apart : lineBreak ≠ last := by
    rintro rfl
    rw [ends] at isNewline
    cases isNewline
  rcases List.append_eq_append_iff.mp split with ⟨between, rfl, behind⟩ | ⟨between, rfl, behind⟩
  · cases between with
    | nil => exact absurd (List.cons.inj behind).1 apart
    | cons head between =>
        obtain ⟨rfl, rfl⟩ := List.cons.inj behind
        exact ⟨before ++ between, last, rest, (List.append_assoc _ _ _).symm, ends,
          yields.erase_newline isNewline normal, normal⟩
  · cases between with
    | nil => exact absurd (List.cons.inj behind).1.symm apart
    | cons head between =>
        obtain ⟨rfl, rfl⟩ := List.cons.inj behind
        exact ⟨written, last, between ++ after, List.append_assoc _ _ _, ends, yields, normal⟩

end Grammar.Spelled

end LuneSyntax
