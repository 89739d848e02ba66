import LuneSyntax.Proofs.Text.AsciiLiteral
import LuneSyntax.Proofs.Grammar.Relocation
import LuneSyntax.Proofs.Lexeme.Shape

/-!
# Unique readability of S-expressions

A printed program determines its statements, apart from where their operators stand. Atoms are
told apart by the delimiters around them, a string is closed by its own quotation mark, and one
operator with one or two operands by what stands behind the first of them.
-/

set_option autoImplicit false

namespace LuneSyntax

/-- The token without its place. -/
def Token.unplaced (token : Token) : Token :=
  { token with start := 0, stop := 0, line := 1 }

theorem Token.relocates_unplaced : Token.Relocates Token.unplaced :=
  ⟨fun _ => rfl, fun _ => rfl⟩

/-- A token whose kind is an operator's and which shows that operator. -/
structure Token.Operates (token : Token) : Prop where
  kind : token.kind.Leads ∨ 0 < token.kind.joiningLevel
  payload : token.payload = none

/-- An expression that is built from literals and operators, with any operand anywhere. -/
inductive Expr.Proper : Expr → Prop where
  | integer {value : Int} : Proper (.integer value)
  | string {value : String} : Proper (.string value)
  | unary {operator : Token} {operand : Expr} :
      operator.kind.Leads → operator.payload = none → Proper operand →
      Proper (.unary operator operand)
  | binary {left right : Expr} {operator : Token} :
      0 < operator.kind.joiningLevel → operator.payload = none → Proper left → Proper right →
      Proper (.binary left operator right)

/-- A statement of any form whose expressions are proper and whose name is a word. -/
inductive Stmt.Proper : Stmt → Prop where
  | expression {expr : Expr} : expr.Proper → Proper (.expression expr)
  | declaration {name : String} {type : PrimitiveType} {initializer : Expr} :
      Lexeme.Word.IsWord name.toList [] → initializer.Proper →
      Proper (.declaration name type initializer)
  | assignment {target : String} {value : Expr} :
      Lexeme.Word.IsWord target.toList [] → value.Proper → Proper (.assignment target value)

namespace SExpression

/-! ## Atoms -/

/-- The characters that end an atom or begin something else. -/
def delimiters : List Char := [' ', '(', ')', '\x22']

/-- The printed characters that atoms consist of. -/
def isAtomic (character : Char) : Bool :=
  AsciiLiteral.isPlain character && !delimiters.contains character

structure IsAtom (text : List Char) : Prop where
  nonempty : text ≠ []
  atomic : ∀ character ∈ text, isAtomic character = true

/-- What may stand behind an atom or an expression. -/
def Separates (rest : List Char) : Prop :=
  ∀ next ∈ rest.head?, next = ' ' ∨ next = ')'

theorem separates_nil : Separates [] := by
  intro next first
  cases first

theorem separates_space (rest : List Char) : Separates (' ' :: rest) := by
  intro next first
  exact .inl (Option.some.inj first).symm

theorem separates_close (rest : List Char) : Separates (')' :: rest) := by
  intro next first
  exact .inr (Option.some.inj first).symm

variable {left right leftRest rightRest : List Char}

theorem IsAtom.maximalRun (atom : IsAtom left) (separates : Separates leftRest) :
    Lexeme.MaximalRun (isAtomic · = true) left leftRest := by
  refine ⟨atom.atomic, fun next first => ?_⟩
  rcases separates next first with rfl | rfl <;> decide

theorem IsAtom.append_injective (leftAtom : IsAtom left) (rightAtom : IsAtom right)
    (leftEnds : Separates leftRest) (rightEnds : Separates rightRest)
    (same : left ++ leftRest = right ++ rightRest) : left = right ∧ leftRest = rightRest :=
  (leftAtom.maximalRun leftEnds).unique (rightAtom.maximalRun rightEnds) same

theorem IsAtom.exists_first (atom : IsAtom left) :
    ∃ first more, left = first :: more ∧ first ∉ delimiters := by
  obtain ⟨first, more, rfl⟩ := List.exists_cons_of_ne_nil atom.nonempty
  have atomic := atom.atomic first List.mem_cons_self
  exact ⟨first, more, rfl, fun delimits => by simp [isAtomic, delimits] at atomic⟩

theorem isAtom_of_subset {text listed : List Char} (nonempty : text ≠ [])
    (inside : ∀ character ∈ text, character ∈ listed)
    (atomic : listed.all isAtomic = true) : IsAtom text := by
  constructor
  · exact nonempty
  · intro character member
    exact List.all_eq_true.mp atomic character (inside character member)

theorem mem_of_mem_decimal {number : Int} {character : Char}
    (member : character ∈ (Numeral.decimal number).toList) :
    character ∈ '-' :: Radix.decimal.digits := by
  cases number with
  | ofNat number =>
      rw [Int.ofNat_eq_natCast, Numeral.toList_decimal_natCast] at member
      have digit : character ∈ Radix.decimal.digits := Numeral.mem_digits_of_mem_toDigits member
      exact List.mem_cons_of_mem _ digit
  | negSucc number =>
      rw [Numeral.toList_decimal_negSucc] at member
      rcases List.mem_cons.mp member with rfl | behind
      · exact List.mem_cons_self
      · have digit : character ∈ Radix.decimal.digits := Numeral.mem_digits_of_mem_toDigits behind
        exact List.mem_cons_of_mem _ digit

theorem isAtom_decimal (number : Int) : IsAtom (Numeral.decimal number).toList := by
  apply isAtom_of_subset
  · cases number with
    | ofNat number =>
        rw [Int.ofNat_eq_natCast, Numeral.toList_decimal_natCast]
        exact Nat.toDigits_ne_nil
    | negSucc number => simp [Numeral.toList_decimal_negSucc]
  · exact fun character => mem_of_mem_decimal
  · decide

theorem decimal_injective {left right : Int}
    (same : (Numeral.decimal left).toList = (Numeral.decimal right).toList) : left = right :=
  Int.repr_inj.mp (String.toList_injective same)

theorem isAtom_of_isWord {name : List Char} (word : Lexeme.Word.IsWord name []) :
    IsAtom name := by
  apply isAtom_of_subset
  · obtain ⟨first, more, rfl, _⟩ := word
    exact List.cons_ne_nil first more
  · exact fun character => word.mem_continuations
  · decide +kernel

theorem isAtom_keyword (type : PrimitiveType) : IsAtom type.keyword.toList := by
  cases type <;> constructor <;> simp [PrimitiveType.keyword, isAtomic, AsciiLiteral.isPlain, delimiters]

theorem keyword_injective {left right : PrimitiveType}
    (same : left.keyword.toList = right.keyword.toList) : left = right := by
  cases left <;> cases right <;> first | rfl | simp [PrimitiveType.keyword] at same

/-! ## Operators -/

/-- The words with which declarations and assignments are printed. -/
def forms : List (List Char) := [['v', 'a', 'r'], ['s', 'e', 't']]

theorem isAtom_of_mem_forms {form : List Char} (listed : form ∈ forms) : IsAtom form := by
  have nonempty : ∀ form ∈ forms, form ≠ [] := by decide
  have atomic : ∀ form ∈ forms, form.all isAtomic = true := by decide
  exact isAtom_of_subset (nonempty form listed) (fun _ => id) (atomic form listed)

theorem exists_spelling {kind : Token.Kind} (operates : kind.Leads ∨ 0 < kind.joiningLevel) :
    ∃ spelling, kind.spelling? = some spelling ∧ spelling.all isAtomic = true ∧
      spelling ∉ [] :: forms := by
  have spelled : 0 < kind.joiningLevel ∨ kind = .bang := by
    rcases operates with leads | joins
    · cases leads with
      | bang => exact .inr rfl
      | minus => exact .inl (by decide)
    · exact .inl joins
  rcases spelled with joins | rfl
  · cases kind <;> first
      | exact absurd joins (by decide)
      | exact ⟨_, rfl, by decide, by decide⟩
  · exact ⟨_, rfl, by decide, by decide⟩

theorem spelling?_injective {left right : Token.Kind} {spelling : List Char}
    (leftSpelled : left.spelling? = some spelling) (rightSpelled : right.spelling? = some spelling) :
    left = right := by
  have apart : ∀ left ∈ Token.Kind.all, ∀ right ∈ Token.Kind.all,
      left.spelling? = right.spelling? → left.spelling? = none ∨ left = right := by
    decide
  rcases apart left left.mem_all right right.mem_all (leftSpelled.trans rightSpelled.symm)
    with missing | same
  · rw [leftSpelled] at missing
    cases missing
  · exact same

theorem toList_text {operator : Token} {spelling : List Char} (payload : operator.payload = none)
    (spelled : operator.kind.spelling? = some spelling) : operator.text.toList = spelling := by
  rw [Token.text, payload]
  exact Token.Kind.toList_text spelled

theorem isAtom_text {operator : Token} (operates : operator.Operates) :
    IsAtom operator.text.toList := by
  obtain ⟨spelling, spelled, atomic, apart⟩ := exists_spelling operates.kind
  rw [toList_text operates.payload spelled]
  constructor
  · exact List.ne_of_not_mem_cons apart
  · exact List.all_eq_true.mp atomic

theorem text_not_mem_forms {operator : Token} (operates : operator.Operates) :
    operator.text.toList ∉ forms := by
  obtain ⟨spelling, spelled, _, apart⟩ := exists_spelling operates.kind
  rw [toList_text operates.payload spelled]
  exact List.not_mem_of_not_mem_cons apart

theorem text_injective {left right : Token} (leftOperates : left.Operates)
    (rightOperates : right.Operates) (same : left.text.toList = right.text.toList) :
    left.unplaced = right.unplaced := by
  obtain ⟨leftSpelling, leftSpelled, _⟩ := exists_spelling leftOperates.kind
  obtain ⟨rightSpelling, rightSpelled, _⟩ := exists_spelling rightOperates.kind
  rw [toList_text leftOperates.payload leftSpelled,
    toList_text rightOperates.payload rightSpelled] at same
  subst same
  simp [Token.unplaced, spelling?_injective leftSpelled rightSpelled, leftOperates.payload,
    rightOperates.payload]

theorem text_append_injective {left right : Token} (leftOperates : left.Operates)
    (rightOperates : right.Operates) {leftRest rightRest : List Char}
    (same : left.text.toList ++ ' ' :: leftRest = right.text.toList ++ ' ' :: rightRest) :
    left.unplaced = right.unplaced ∧ leftRest = rightRest := by
  obtain ⟨texts, rests⟩ := (isAtom_text leftOperates).append_injective (isAtom_text rightOperates)
    (separates_space leftRest) (separates_space rightRest) same
  exact ⟨text_injective leftOperates rightOperates texts, (List.cons.inj rests).2⟩

/-! ## Expressions -/

theorem toList_render_integer (value : Int) :
    (Expr.integer value).render.toList = (Numeral.decimal value).toList := rfl

theorem toList_render_string (value : String) :
    (Expr.string value).render.toList = AsciiLiteral.encode value.toList := by
  simp [Expr.render]

theorem toList_render_unary (operator : Token) (operand : Expr) :
    (Expr.unary operator operand).render.toList =
      '(' :: (operator.text.toList ++ ' ' :: (operand.render.toList ++ [')'])) := by
  simp [Expr.render]

theorem toList_render_binary (left : Expr) (operator : Token) (right : Expr) :
    (Expr.binary left operator right).render.toList =
      '(' :: (operator.text.toList ++
        ' ' :: (left.render.toList ++ ' ' :: (right.render.toList ++ [')']))) := by
  simp [Expr.render]

/-- The delimiter at which an expression begins, if it is no integer. -/
def opening : Expr → Option Char
  | .string _ => some '\x22'
  | .unary _ _ | .binary _ _ _ => some '('
  | _ => none

theorem opening_eq {expr : Expr} (proper : expr.Proper) (rest : List Char) :
    (expr.render.toList ++ rest).head?.filter (· ∈ delimiters) = opening expr := by
  cases proper with
  | @integer value =>
      obtain ⟨first, more, text, outside⟩ := (isAtom_decimal value).exists_first
      simp [toList_render_integer, text, outside, opening]
  | string => simp [toList_render_string, AsciiLiteral.encode, opening, delimiters]
  | unary => simp [toList_render_unary, opening, delimiters]
  | binary => simp [toList_render_binary, opening, delimiters]

theorem opening_unique {left right : Expr} (leftProper : left.Proper)
    (rightProper : right.Proper)
    (same : left.render.toList ++ leftRest = right.render.toList ++ rightRest) :
    opening left = opening right := by
  rw [← opening_eq leftProper leftRest, same, opening_eq rightProper]

theorem render_append_injective {left right : Expr} (leftProper : left.Proper)
    (rightProper : right.Proper) (leftEnds : Separates leftRest) (rightEnds : Separates rightRest)
    (same : left.render.toList ++ leftRest = right.render.toList ++ rightRest) :
    left.mapOperators Token.unplaced = right.mapOperators Token.unplaced ∧
      leftRest = rightRest := by
  -- What stands behind an operand tells how many operands there are, so it is kept general.
  induction leftProper generalizing right leftRest rightRest with
  | @integer value =>
      have openings := opening_unique .integer rightProper same
      cases rightProper with
      | @integer other =>
          obtain ⟨texts, rests⟩ := (isAtom_decimal value).append_injective (isAtom_decimal other)
            leftEnds rightEnds same
          rw [decimal_injective texts]
          exact ⟨rfl, rests⟩
      | _ => simp [opening] at openings
  | @string value =>
      have openings := opening_unique .string rightProper same
      cases rightProper with
      | string =>
          rw [toList_render_string, toList_render_string] at same
          obtain ⟨texts, rests⟩ := AsciiLiteral.encode_append_injective same
          rw [String.toList_injective texts]
          exact ⟨rfl, rests⟩
      | _ => simp [opening] at openings
  | @unary operator operand leads payload proper ih =>
      have openings := opening_unique (.unary leads payload proper) rightProper same
      cases rightProper with
      | unary otherLeads otherPayload otherProper =>
          simp only [toList_render_unary, List.cons_append, List.append_assoc, List.cons.injEq,
            true_and, List.nil_append] at same
          obtain ⟨operators, operands⟩ := text_append_injective ⟨.inl leads, payload⟩
            ⟨.inl otherLeads, otherPayload⟩ same
          obtain ⟨trees, rests⟩ := ih otherProper (separates_close _) (separates_close _) operands
          exact ⟨by simp [Expr.mapOperators, operators, trees], (List.cons.inj rests).2⟩
      | binary joins otherPayload otherProper _ =>
          simp only [toList_render_unary, toList_render_binary, List.cons_append,
            List.append_assoc, List.cons.injEq, true_and, List.nil_append] at same
          obtain ⟨_, operands⟩ := text_append_injective ⟨.inl leads, payload⟩
            ⟨.inr joins, otherPayload⟩ same
          -- The only operand is closed, while a space stands behind the first of two.
          obtain ⟨_, rests⟩ := ih otherProper (separates_close _) (separates_space _) operands
          simp at rests
      | _ => simp [opening] at openings
  | @binary first second operator joins payload firstProper secondProper firstIH secondIH =>
      have openings :=
        opening_unique (.binary joins payload firstProper secondProper) rightProper same
      cases rightProper with
      | unary otherLeads otherPayload otherProper =>
          simp only [toList_render_unary, toList_render_binary, List.cons_append,
            List.append_assoc, List.cons.injEq, true_and, List.nil_append] at same
          obtain ⟨_, operands⟩ := text_append_injective ⟨.inr joins, payload⟩
            ⟨.inl otherLeads, otherPayload⟩ same
          obtain ⟨_, rests⟩ := firstIH otherProper (separates_space _) (separates_close _) operands
          simp at rests
      | binary otherJoins otherPayload otherFirst otherSecond =>
          simp only [toList_render_binary, List.cons_append, List.append_assoc, List.cons.injEq,
            true_and, List.nil_append] at same
          obtain ⟨operators, operands⟩ := text_append_injective ⟨.inr joins, payload⟩
            ⟨.inr otherJoins, otherPayload⟩ same
          obtain ⟨firsts, behind⟩ :=
            firstIH otherFirst (separates_space _) (separates_space _) operands
          obtain ⟨seconds, rests⟩ := secondIH otherSecond (separates_close _) (separates_close _)
            (List.cons.inj behind).2
          exact ⟨by simp [Expr.mapOperators, operators, firsts, seconds],
            (List.cons.inj rests).2⟩
      | _ => simp [opening] at openings

/-! ## Statements -/

theorem toList_render_declaration (name : String) (type : PrimitiveType) (initializer : Expr) :
    (Stmt.declaration name type initializer).render.toList =
      '(' :: (['v', 'a', 'r'] ++ ' ' :: (name.toList ++ ' ' :: (type.keyword.toList ++
        ' ' :: (initializer.render.toList ++ [')'])))) := by
  simp [Stmt.render]

theorem toList_render_assignment (target : String) (value : Expr) :
    (Stmt.assignment target value).render.toList =
      '(' :: (['s', 'e', 't'] ++ ' ' :: (target.toList ++
        ' ' :: (value.render.toList ++ [')']))) := by
  simp [Stmt.render]

theorem render_ne_form {expr : Expr} (proper : expr.Proper) {form rest : List Char}
    (listed : form ∈ forms) : expr.render.toList ≠ '(' :: (form ++ ' ' :: rest) := by
  have noOperator : ∀ {operator : Token} {operands : List Char}, operator.Operates →
      '(' :: (operator.text.toList ++ ' ' :: operands) ≠ '(' :: (form ++ ' ' :: rest) := by
    intro operator operands operates same
    obtain ⟨text, _⟩ := (isAtom_text operates).append_injective (isAtom_of_mem_forms listed)
      (separates_space operands) (separates_space rest) (List.cons.inj same).2
    rw [← text] at listed
    exact text_not_mem_forms operates listed
  cases proper with
  | @integer value =>
      obtain ⟨first, more, text, outside⟩ := (isAtom_decimal value).exists_first
      intro same
      obtain ⟨rfl, _⟩ := List.cons.inj (text.symm.trans same)
      exact outside (by decide)
  | string => simp [toList_render_string, AsciiLiteral.encode]
  | unary leads payload _ =>
      rw [toList_render_unary]
      exact noOperator ⟨.inl leads, payload⟩
  | binary joins payload _ _ =>
      rw [toList_render_binary]
      exact noOperator ⟨.inr joins, payload⟩

theorem render_injective {left right : Stmt} (leftProper : left.Proper)
    (rightProper : right.Proper) (same : left.render.toList = right.render.toList) :
    left.mapOperators Token.unplaced = right.mapOperators Token.unplaced := by
  cases leftProper with
  | @expression expr proper =>
      cases rightProper with
      | @expression other otherProper =>
          have texts : expr.render.toList ++ [] = other.render.toList ++ [] := by
            rw [List.append_nil, List.append_nil]
            exact same
          obtain ⟨trees, _⟩ :=
            render_append_injective proper otherProper separates_nil separates_nil texts
          rw [Stmt.mapOperators, Stmt.mapOperators, trees]
      | declaration =>
          rw [toList_render_declaration] at same
          exact absurd same (render_ne_form proper (by decide))
      | assignment =>
          rw [toList_render_assignment] at same
          exact absurd same (render_ne_form proper (by decide))
  | @declaration name type initializer word proper =>
      cases rightProper with
      | expression otherProper =>
          rw [toList_render_declaration] at same
          exact absurd same.symm (render_ne_form otherProper (by decide))
      | @declaration otherName otherType otherInitializer otherWord otherProper =>
          rw [toList_render_declaration, toList_render_declaration] at same
          have behind := List.append_cancel_left (List.cons.inj same).2
          obtain ⟨names, types⟩ := (isAtom_of_isWord word).append_injective
            (isAtom_of_isWord otherWord) (separates_space _) (separates_space _)
            (List.cons.inj behind).2
          obtain ⟨keywords, values⟩ := (isAtom_keyword type).append_injective
            (isAtom_keyword otherType) (separates_space _) (separates_space _)
            (List.cons.inj types).2
          obtain ⟨trees, _⟩ := render_append_injective proper otherProper (separates_close _)
            (separates_close _) (List.cons.inj values).2
          rw [Stmt.mapOperators, Stmt.mapOperators, String.toList_injective names,
            keyword_injective keywords, trees]
      | assignment => simp [toList_render_declaration, toList_render_assignment] at same
  | @assignment target value word proper =>
      cases rightProper with
      | expression otherProper =>
          rw [toList_render_assignment] at same
          exact absurd same.symm (render_ne_form otherProper (by decide))
      | declaration => simp [toList_render_declaration, toList_render_assignment] at same
      | @assignment otherTarget otherValue otherWord otherProper =>
          rw [toList_render_assignment, toList_render_assignment] at same
          have behind := List.append_cancel_left (List.cons.inj same).2
          obtain ⟨targets, values⟩ := (isAtom_of_isWord word).append_injective
            (isAtom_of_isWord otherWord) (separates_space _) (separates_space _)
            (List.cons.inj behind).2
          obtain ⟨trees, _⟩ := render_append_injective proper otherProper (separates_close _)
            (separates_close _) (List.cons.inj values).2
          rw [Stmt.mapOperators, Stmt.mapOperators, String.toList_injective targets, trees]

/-! ## Lines -/

/-- A text that stands on a line of its own. -/
structure IsLine (text : List Char) : Prop where
  nonempty : text ≠ []
  plain : text.all AsciiLiteral.isPlain = true

theorem IsLine.not_mem_lineFeed (line : IsLine left) : '\n' ∉ left := by
  intro member
  have plain := List.all_eq_true.mp line.plain '\n' member
  exact absurd plain (by decide)

theorem IsAtom.isLine (atom : IsAtom left) : IsLine left := by
  constructor
  · exact atom.nonempty
  · apply List.all_eq_true.mpr
    intro character member
    have atomic := atom.atomic character member
    simp only [isAtomic, Bool.and_eq_true] at atomic
    exact atomic.1

theorem IsLine.opened (line : IsLine left) : IsLine ('(' :: left) := by
  constructor
  · exact List.cons_ne_nil '(' left
  · rw [List.all_cons, line.plain]
    decide

theorem IsLine.closed (line : IsLine left) : IsLine (left ++ [')']) := by
  constructor
  · simp
  · rw [List.all_append, line.plain]
    decide

theorem IsLine.spaced (line : IsLine left) (other : IsLine right) :
    IsLine (left ++ ' ' :: right) := by
  constructor
  · simp
  · rw [List.all_append, line.plain, List.all_cons, other.plain]
    decide

theorem isLine_render {expr : Expr} (proper : expr.Proper) : IsLine expr.render.toList := by
  induction proper with
  | integer => exact (isAtom_decimal _).isLine
  | string =>
      rw [toList_render_string]
      constructor
      · simp [AsciiLiteral.encode]
      · exact List.all_eq_true.mpr fun _ => AsciiLiteral.isPlain_of_mem_encode
  | unary leads payload _ ih =>
      rw [toList_render_unary]
      exact ((isAtom_text ⟨.inl leads, payload⟩).isLine.spaced ih.closed).opened
  | binary joins payload _ _ firstIH secondIH =>
      rw [toList_render_binary]
      exact ((isAtom_text ⟨.inr joins, payload⟩).isLine.spaced
        (firstIH.spaced secondIH.closed)).opened

theorem isLine_render_stmt {stmt : Stmt} (proper : stmt.Proper) : IsLine stmt.render.toList := by
  cases proper with
  | expression proper => exact isLine_render proper
  | @declaration name type initializer word proper =>
      have form : IsLine ['v', 'a', 'r'] := (isAtom_of_mem_forms (by decide)).isLine
      rw [toList_render_declaration]
      exact (form.spaced ((isAtom_of_isWord word).isLine.spaced
        ((isAtom_keyword type).isLine.spaced (isLine_render proper).closed))).opened
  | assignment word proper =>
      have form : IsLine ['s', 'e', 't'] := (isAtom_of_mem_forms (by decide)).isLine
      rw [toList_render_assignment]
      exact (form.spaced
        ((isAtom_of_isWord word).isLine.spaced (isLine_render proper).closed)).opened

/-! ## Programs -/

section Lines

variable {lines : List (List Char)}

theorem splitOn_of_isLine (each : ∀ line ∈ lines, IsLine line) (nonempty : lines ≠ []) :
    (['\n'].intercalate lines).splitOn '\n' = lines :=
  List.splitOn_intercalate '\n' (fun line member => (each line member).not_mem_lineFeed) nonempty

theorem isPlain_of_mem_lines (each : ∀ line ∈ lines, IsLine line) {character : Char}
    (member : character ∈ ['\n'].intercalate lines) :
    character = '\n' ∨ AsciiLiteral.isPlain character = true := by
  induction lines with
  | nil => cases member
  | cons line lines ih =>
      have inFirst : ∀ other ∈ line, AsciiLiteral.isPlain other = true :=
        List.all_eq_true.mp (each line List.mem_cons_self).plain
      cases lines with
      | nil =>
          rw [List.intercalate_singleton] at member
          exact .inr (inFirst character member)
      | cons next lines =>
          rw [List.intercalate_cons_cons, List.append_assoc] at member
          rcases List.mem_append.mp member with first | behind
          · exact .inr (inFirst character first)
          · rcases List.mem_cons.mp behind with lineFeed | later
            · exact .inl lineFeed
            · exact ih (fun other inside => each other (List.mem_cons_of_mem _ inside)) later

theorem intercalate_ne_nil (each : ∀ line ∈ lines, IsLine line) (nonempty : lines ≠ []) :
    ['\n'].intercalate lines ≠ [] := by
  intro empty
  have split := splitOn_of_isLine each nonempty
  rw [empty] at split
  have listed : [] ∈ lines := by
    rw [← split]
    exact List.mem_cons_self
  exact (each [] listed).nonempty rfl

theorem intercalate_injective {others : List (List Char)} (each : ∀ line ∈ lines, IsLine line)
    (otherEach : ∀ line ∈ others, IsLine line)
    (same : ['\n'].intercalate lines = ['\n'].intercalate others) : lines = others := by
  by_cases empty : lines = []
  · subst empty
    by_contra different
    exact intercalate_ne_nil otherEach (Ne.symm different) same.symm
  by_cases otherEmpty : others = []
  · subst otherEmpty
    exact absurd same (intercalate_ne_nil each empty)
  rw [← splitOn_of_isLine each empty, same, splitOn_of_isLine otherEach otherEmpty]

end Lines

/-- The output is printed text with the statements on a line each. -/
structure Lists (statements : List Stmt) (output : String) : Prop where
  plain : ∀ character ∈ output.toList,
    character = '\n' ∨ 0x20 ≤ character.toNat ∧ character.toNat ≤ 0x7E
  lines : statements ≠ [] →
    output.toList.splitOn '\n' = statements.map (·.render.toList)

theorem isPrintable_of_proper {stmt : Stmt} (proper : stmt.Proper) :
    (Node.statement stmt).isPrintable = true := by
  cases proper with
  | expression proper => cases proper <;> simp [Node.isPrintable]
  | declaration => simp [Node.isPrintable]
  | assignment => simp [Node.isPrintable]

theorem printProgram_of_proper {statements : List Stmt}
    (proper : ∀ stmt ∈ statements, stmt.Proper) :
    printProgram statements = .ok ("\n".intercalate (statements.map Stmt.render)) := by
  have printable : (statements.map Node.statement).findIdx? (!·.isPrintable) = none := by
    rw [List.findIdx?_eq_none_iff]
    intro node member
    obtain ⟨stmt, listed, rfl⟩ := List.mem_map.mp member
    simp [isPrintable_of_proper (proper stmt listed)]
  have rendered : (statements.map Node.statement).map Node.render = statements.map Stmt.render :=
    List.map_map
  rw [printProgram, print, printable, rendered]

theorem isLine_of_mem_rendered {statements : List Stmt}
    (proper : ∀ stmt ∈ statements, stmt.Proper) :
    ∀ line ∈ statements.map (·.render.toList), IsLine line := by
  intro line member
  obtain ⟨stmt, listed, rfl⟩ := List.mem_map.mp member
  exact isLine_render_stmt (proper stmt listed)

theorem toList_output (statements : List Stmt) :
    ("\n".intercalate (statements.map Stmt.render)).toList =
      ['\n'].intercalate (statements.map (·.render.toList)) := by
  simp [String.toList_intercalate, Function.comp_def]

theorem lists_of_proper {statements : List Stmt} (proper : ∀ stmt ∈ statements, stmt.Proper) :
    Lists statements ("\n".intercalate (statements.map Stmt.render)) := by
  have each := isLine_of_mem_rendered proper
  constructor
  · intro character member
    rw [toList_output] at member
    simpa [AsciiLiteral.isPlain] using isPlain_of_mem_lines each member
  · intro nonempty
    rw [toList_output]
    exact splitOn_of_isLine each (by simpa using nonempty)

theorem mapOperators_of_printed {left right : List Stmt}
    (leftProper : ∀ stmt ∈ left, stmt.Proper) (rightProper : ∀ stmt ∈ right, stmt.Proper)
    (same : left.map (·.render.toList) = right.map (·.render.toList)) :
    left.map (·.mapOperators Token.unplaced) = right.map (·.mapOperators Token.unplaced) := by
  induction left generalizing right with
  | nil =>
      rw [List.map_nil] at same
      rw [List.map_eq_nil_iff.mp same.symm]
  | cons stmt left ih =>
      cases right with
      | nil => cases same
      | cons other right =>
          obtain ⟨first, behind⟩ := List.cons.inj same
          rw [List.map_cons, List.map_cons,
            render_injective (leftProper stmt List.mem_cons_self)
              (rightProper other List.mem_cons_self) first,
            ih (fun later member => leftProper later (List.mem_cons_of_mem _ member))
              (fun later member => rightProper later (List.mem_cons_of_mem _ member)) behind]

/-- The output is the same for two programs exactly if they are the same up to the places of
their operators, and every program has an output that lists its statements. -/
theorem printProgram_determines {left right : List Stmt}
    (leftProper : ∀ stmt ∈ left, stmt.Proper) (rightProper : ∀ stmt ∈ right, stmt.Proper) :
    (printProgram left = printProgram right ↔
        left.map (·.mapOperators Token.unplaced) = right.map (·.mapOperators Token.unplaced)) ∧
      ∃ output, printProgram left = .ok output ∧ Lists left output := by
  constructor
  · constructor
    · intro same
      rw [printProgram_of_proper leftProper, printProgram_of_proper rightProper] at same
      have texts := congrArg String.toList (Except.ok.inj same)
      rw [toList_output, toList_output] at texts
      exact mapOperators_of_printed leftProper rightProper (intercalate_injective
        (isLine_of_mem_rendered leftProper) (isLine_of_mem_rendered rightProper) texts)
    · intro same
      rw [← printProgram_mapOperators Token.relocates_unplaced left, same,
        printProgram_mapOperators Token.relocates_unplaced]
  · exact ⟨_, printProgram_of_proper leftProper, lists_of_proper leftProper⟩

/-- The negation of one and the integer below zero are printed apart. -/
theorem printProgram_determines_negation :
    (printProgram [.assignment "x" (.unary ⟨.minus, none, 4, 5, 1⟩ (.integer 1))] ≠
        printProgram [.assignment "x" (.integer (-1))]) ∧
      ∃ output,
        printProgram [.assignment "x" (.unary ⟨.minus, none, 4, 5, 1⟩ (.integer 1))] = .ok output ∧
          Lists [.assignment "x" (.unary ⟨.minus, none, 4, 5, 1⟩ (.integer 1))] output := by
  have word : Lexeme.Word.IsWord "x".toList [] :=
    ⟨'x', [], rfl, .inl (by decide), by simp, by simp⟩
  have negation : (Expr.unary ⟨.minus, none, 4, 5, 1⟩ (.integer 1)).Proper :=
    .unary .minus rfl .integer
  obtain ⟨determined, printed⟩ := printProgram_determines
    (List.forall_mem_singleton.mpr (.assignment word negation))
    (List.forall_mem_singleton.mpr (.assignment word (.integer : (Expr.integer (-1)).Proper)))
  constructor
  · intro same
    have trees := determined.mp same
    simp [Stmt.mapOperators, Expr.mapOperators] at trees
  · exact printed

end SExpression

end LuneSyntax
