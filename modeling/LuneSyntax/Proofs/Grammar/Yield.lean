import LuneSyntax.Grammar.Precedence
import LuneSyntax.Tree.Basic

/-!
# Yields of trees

The tokens that a program is written with, in order, stated on the trees and without a reader.
A tree does not record every field of its tokens, so a yield is a relation: a literal may be any
token of its kind and value, while the token of an operator is the very one in its node.
-/

set_option autoImplicit false

namespace LuneSyntax

namespace Token

/-- The number of a token: the one that it carries, or zero if it carries none. -/
inductive HasNumber (token : Token) : Int → Prop where
  | carried {value : Int} : token.payload = some (.number value) → HasNumber token value
  | missing : (∀ value, token.payload ≠ some (.number value)) → HasNumber token 0

/-- The text of a token: the one that it carries, or the empty one if it carries none. -/
inductive HasContent (token : Token) : String → Prop where
  | carried {value : String} : token.payload = some (.text value) → HasContent token value
  | missing : (∀ value, token.payload ≠ some (.text value)) → HasContent token ""

theorem hasNumber_number (token : Token) : token.HasNumber token.number := by
  unfold number
  split
  · rename_i value payload
    exact .carried payload
  · rename_i other
    exact .missing other

theorem hasContent_content (token : Token) : token.HasContent token.content := by
  unfold content
  split
  · rename_i value payload
    exact .carried payload
  · rename_i other
    exact .missing other

theorem HasNumber.number_eq {token : Token} {value : Int} (has : token.HasNumber value) :
    token.number = value := by
  cases has with
  | carried payload => rw [number, payload]
  | missing other =>
      unfold number
      split
      · rename_i found payload
        exact absurd payload (other found)
      · rfl

theorem HasContent.content_eq {token : Token} {value : String} (has : token.HasContent value) :
    token.content = value := by
  cases has with
  | carried payload => rw [content, payload]
  | missing other =>
      unfold content
      split
      · rename_i found payload
        exact absurd payload (other found)
      · rfl

namespace Kind

/-- The level of a binary operator. Every other kind has level zero. -/
def joiningLevel : Kind → Nat
  | .equalEqual | .bangEqual => 1
  | .greater | .greaterEqual | .less | .lessEqual => 2
  | .plus | .minus => 3
  | .star | .slash => 4
  | _ => 0

/-- The two operators that stand before their operand. -/
inductive Leads : Kind → Prop where
  | bang : Leads .bang
  | minus : Leads .minus

/-- The kinds that stand between statements or behind them, and never inside one. -/
def separates : Kind → Bool
  | .newline | .endOfInput => true
  | _ => false

theorem joiningLevel_le (kind : Kind) : kind.joiningLevel ≤ 4 := by
  cases kind <;> decide

theorem leads_iff_isUnaryOperator {kind : Kind} : Leads kind ↔ kind.isUnaryOperator = true := by
  constructor
  · intro leads
    cases leads <;> rfl
  · intro accepted
    cases kind with
    | bang => exact .bang
    | minus => exact .minus
    | _ => cases accepted

/-- The levels of the readers are numbered as in the order of binding. -/
theorem binaryLevel?_eq_some_iff {kind : Kind} {level : Precedence} :
    kind.binaryLevel? = some level ↔ kind.joiningLevel = level.rank := by
  cases kind <;> cases level <;> decide

end Kind

end Token

/-! ## Expressions -/

namespace Expr

/-- How tightly an expression binds: the level of its outermost operator, five for an operator
before its operand, and six for a literal. -/
def level : Expr → Nat
  | .integer _ => 6
  | .string _ => 6
  | .unary _ _ => 5
  | .binary _ operator _ => operator.kind.joiningLevel
  | .bare => 0

/-- Every operand binds at least as tightly as its operator demands. A right operand binds
more tightly than the operator, which makes chains of one level lean to the left. -/
inductive Normal : Expr → Prop where
  | integer {value : Int} : Normal (.integer value)
  | string {value : String} : Normal (.string value)
  | unary {operator : Token} {operand : Expr} :
      operator.kind.Leads → Normal operand → 5 ≤ operand.level →
      Normal (.unary operator operand)
  | binary {left right : Expr} {operator : Token} :
      0 < operator.kind.joiningLevel → Normal left → Normal right →
      operator.kind.joiningLevel ≤ left.level → operator.kind.joiningLevel + 1 ≤ right.level →
      Normal (.binary left operator right)

/-- The tokens of an expression from left to right. -/
inductive Yields : Expr → List Token → Prop where
  | integer {token : Token} {value : Int} :
      token.kind = .integer → token.HasNumber value → Yields (.integer value) [token]
  | string {token : Token} {value : String} :
      token.kind = .string → token.HasContent value → Yields (.string value) [token]
  | unary {operator : Token} {operand : Expr} {written : List Token} :
      Yields operand written → Yields (.unary operator operand) (operator :: written)
  | binary {left right : Expr} {operator : Token} {before after : List Token} :
      Yields left before → Yields right after →
      Yields (.binary left operator right) (before ++ operator :: after)

theorem Normal.level_pos {expr : Expr} (normal : expr.Normal) : 0 < expr.level := by
  cases normal with
  | integer => exact Nat.succ_pos 5
  | string => exact Nat.succ_pos 5
  | unary => exact Nat.succ_pos 4
  | binary joins => exact joins

/-- An expression is written with literals and operators only. -/
theorem Yields.kind_of_mem {expr : Expr} {written : List Token} (yields : expr.Yields written)
    (normal : expr.Normal) {token : Token} (member : token ∈ written) :
    token.kind = .integer ∨ token.kind = .string ∨ token.kind.Leads ∨
      0 < token.kind.joiningLevel := by
  induction yields with
  | integer isInteger _ =>
      rw [List.mem_singleton.mp member]
      exact .inl isInteger
  | string isString _ =>
      rw [List.mem_singleton.mp member]
      exact .inr (.inl isString)
  | unary _ ih =>
      cases normal with
      | unary leads operandNormal _ =>
          rcases List.mem_cons.mp member with rfl | inOperand
          · exact .inr (.inr (.inl leads))
          · exact ih operandNormal inOperand
  | binary _ _ leftIH rightIH =>
      cases normal with
      | binary joins leftNormal rightNormal _ _ =>
          rcases List.mem_append.mp member with inLeft | inRest
          · exact leftIH leftNormal inLeft
          · rcases List.mem_cons.mp inRest with rfl | inRight
            · exact .inr (.inr (.inr joins))
            · exact rightIH rightNormal inRight

theorem Yields.not_separates {expr : Expr} {written : List Token}
    (yields : expr.Yields written) (normal : expr.Normal) {token : Token}
    (member : token ∈ written) : token.kind.separates = false := by
  have kinds := yields.kind_of_mem normal member
  generalize token.kind = kind at kinds
  rcases kinds with rfl | rfl | leads | joins
  · rfl
  · rfl
  · cases leads <;> rfl
  · cases kind <;> first | rfl | cases joins

/-- Every normal expression can be written. -/
theorem Normal.exists_yields {expr : Expr} (normal : expr.Normal) :
    ∃ written, expr.Yields written := by
  induction normal with
  | @integer value => exact ⟨[⟨.integer, some (.number value), 0, 0, 1⟩], .integer rfl (.carried rfl)⟩
  | @string value => exact ⟨[⟨.string, some (.text value), 0, 0, 1⟩], .string rfl (.carried rfl)⟩
  | unary _ _ _ ih =>
      obtain ⟨written, yields⟩ := ih
      exact ⟨_, .unary yields⟩
  | binary _ _ _ _ _ leftIH rightIH =>
      obtain ⟨before, leftYields⟩ := leftIH
      obtain ⟨after, rightYields⟩ := rightIH
      exact ⟨_, .binary leftYields rightYields⟩

end Expr

/-! ## Statements and programs -/

/-- The reserved words that name the types of declarations. -/
inductive PrimitiveType.NamedBy : PrimitiveType → Token.Kind → Prop where
  | integer : NamedBy .integer .intWord
  | string : NamedBy .string .strWord

theorem PrimitiveType.ofKind?_eq_some_iff {kind : Token.Kind} {type : PrimitiveType} :
    ofKind? kind = some type ↔ type.NamedBy kind := by
  constructor
  · intro found
    cases kind with
    | intWord => cases found; exact .integer
    | strWord => cases found; exact .string
    | _ => cases found
  · intro named
    cases named <;> rfl

theorem PrimitiveType.NamedBy.integer_or_string {type : PrimitiveType} {kind : Token.Kind}
    (named : type.NamedBy kind) : type = .integer ∨ type = .string := by
  cases named with
  | integer => exact .inl rfl
  | string => exact .inr rfl

namespace Stmt

/-- A declaration of an integer or a string whose initial value is a normal expression. -/
inductive Normal : Stmt → Prop where
  | declaration {name : String} {type : PrimitiveType} {initializer : Expr} :
      type = .integer ∨ type = .string → initializer.Normal →
      Normal (.declaration name type initializer)

/-- The tokens of a declaration: word, name, colon, type, equals sign and initial value. -/
inductive Yields : Stmt → List Token → Prop where
  | declaration {word name colon named equal : Token} {text : String} {type : PrimitiveType}
      {initializer : Expr} {value : List Token} :
      word.kind = .varWord → name.kind = .identifier → name.HasContent text →
      colon.kind = .colon → type.NamedBy named.kind → equal.kind = .equal →
      initializer.Yields value →
      Yields (.declaration text type initializer)
        (word :: name :: colon :: named :: equal :: value)

theorem Yields.not_separates {stmt : Stmt} {written : List Token}
    (yields : stmt.Yields written) (normal : stmt.Normal) {token : Token}
    (member : token ∈ written) : token.kind.separates = false := by
  cases yields with
  | @declaration _ _ _ named _ _ _ _ _ isWord isName _ isColon isType isEqual value =>
      cases normal with
      | declaration _ initializer =>
          simp only [List.mem_cons] at member
          rcases member with rfl | rfl | rfl | rfl | rfl | inValue
          · rw [isWord]; rfl
          · rw [isName]; rfl
          · rw [isColon]; rfl
          · generalize token.kind = kind at isType
            cases isType <;> rfl
          · rw [isEqual]; rfl
          · exact value.not_separates initializer inValue

theorem Yields.exists_word {stmt : Stmt} {written : List Token} (yields : stmt.Yields written) :
    ∃ word after, written = word :: after ∧ word.kind = .varWord := by
  cases yields with
  | declaration isWord => exact ⟨_, _, rfl, isWord⟩

/-- Every normal statement can be written. -/
theorem Normal.exists_yields {stmt : Stmt} (normal : stmt.Normal) :
    ∃ written, stmt.Yields written := by
  cases normal with
  | @declaration name type _ typed initializer =>
      obtain ⟨value, yields⟩ := initializer.exists_yields
      have named : ∃ kind, type.NamedBy kind := by
        rcases typed with rfl | rfl
        · exact ⟨_, .integer⟩
        · exact ⟨_, .string⟩
      obtain ⟨kind, isType⟩ := named
      exact ⟨⟨.varWord, none, 0, 0, 1⟩ :: ⟨.identifier, some (.text name), 0, 0, 1⟩ ::
        ⟨.colon, none, 0, 0, 1⟩ :: ⟨kind, none, 0, 0, 1⟩ :: ⟨.equal, none, 0, 0, 1⟩ :: value,
        .declaration rfl rfl (.carried rfl) rfl isType rfl yields⟩

end Stmt

namespace Grammar

/-- The tokens of statements with any number of line breaks before, between and behind them. -/
inductive Yields : List Stmt → List Token → Prop where
  | nil : Yields [] []
  | newline {statements : List Stmt} {token : Token} {written : List Token} :
      token.kind = .newline → Yields statements written → Yields statements (token :: written)
  | statement {stmt : Stmt} {statements : List Stmt} {first written : List Token} :
      stmt.Yields first → Yields statements written →
      Yields (stmt :: statements) (first ++ written)

theorem Yields.kind_ne_endOfInput {statements : List Stmt} {written : List Token}
    (yields : Yields statements written) (normal : ∀ stmt ∈ statements, stmt.Normal)
    {token : Token} (member : token ∈ written) : token.kind ≠ .endOfInput := by
  induction yields with
  | nil => cases member
  | newline isNewline _ ih =>
      rcases List.mem_cons.mp member with rfl | inRest
      · rw [isNewline]
        decide
      · exact ih normal inRest
  | statement first _ ih =>
      rcases List.mem_append.mp member with inFirst | inRest
      · intro isEnd
        have inside := first.not_separates (normal _ List.mem_cons_self) inFirst
        rw [isEnd] at inside
        cases inside
      · exact ih (fun stmt inStatements => normal stmt (List.mem_cons_of_mem _ inStatements)) inRest

/-- Every list of normal statements can be written. -/
theorem exists_yields {statements : List Stmt} (normal : ∀ stmt ∈ statements, stmt.Normal) :
    ∃ written, Yields statements written := by
  induction statements with
  | nil => exact ⟨[], .nil⟩
  | cons stmt statements ih =>
      obtain ⟨first, firstYields⟩ := (normal stmt List.mem_cons_self).exists_yields
      obtain ⟨written, yields⟩ :=
        ih fun other member => normal other (List.mem_cons_of_mem _ member)
      exact ⟨first ++ written, .statement firstYields yields⟩

end Grammar

end LuneSyntax
