import LuneSyntax.Grammar.Cursor
import LuneSyntax.Proofs.Grammar.CorrectPrefix
import Mathlib.Data.List.Forall2

/-!
# What kinds decide

A parse looks at the kinds of the tokens only. Where it takes a name, a value or an operator from a
token, the kinds decide from which one, and whether and where it fails.
-/

set_option autoImplicit false

namespace LuneSyntax

/-! ## Outlines of trees -/

/-- An expression with the places of tokens for all that is taken from them. -/
inductive Expr.Outline where
  | integer (place : Nat)
  | string (place : Nat)
  | unary (operator : Nat) (operand : Outline)
  | binary (left : Outline) (operator : Nat) (right : Outline)
  deriving DecidableEq, Repr

@[inherit_doc Expr.Outline]
structure Stmt.Outline where
  name : Nat
  type : PrimitiveType
  initializer : Expr.Outline
  deriving DecidableEq, Repr

/-- The expression of an outline when the places are those of the tokens in a list. -/
inductive Expr.Outline.Fills (tokens : List Token) : Outline → Expr → Prop where
  | integer {place : Nat} {token : Token} {value : Int} :
      tokens[place]? = some token → token.kind = .integer → token.HasNumber value →
      Fills tokens (.integer place) (.integer value)
  | string {place : Nat} {token : Token} {value : String} :
      tokens[place]? = some token → token.kind = .string → token.HasContent value →
      Fills tokens (.string place) (.string value)
  | unary {place : Nat} {operator : Token} {outline : Outline} {operand : Expr} :
      tokens[place]? = some operator → Fills tokens outline operand →
      Fills tokens (.unary place outline) (.unary operator operand)
  | binary {place : Nat} {operator : Token} {before after : Outline} {left right : Expr} :
      Fills tokens before left → tokens[place]? = some operator → Fills tokens after right →
      Fills tokens (.binary before place after) (.binary left operator right)

@[inherit_doc Expr.Outline.Fills]
inductive Stmt.Outline.Fills (tokens : List Token) : Outline → Stmt → Prop where
  | declaration {place : Nat} {name : Token} {text : String} {type : PrimitiveType}
      {outline : Expr.Outline} {initializer : Expr} :
      tokens[place]? = some name → name.kind = .identifier → name.HasContent text →
      outline.Fills tokens initializer →
      Fills tokens ⟨place, type, outline⟩ (.declaration text type initializer)

/-! ## Tokens of the same kinds -/

/-- The tokens have the same kinds one by one. -/
def SameKinds (tokens other : List Token) : Prop :=
  other.map Token.kind = tokens.map Token.kind

namespace SameKinds

variable {token : Token} {tokens before after other : List Token}

theorem length (same : SameKinds tokens other) : other.length = tokens.length := by
  have lengths := congrArg List.length same
  rwa [List.length_map, List.length_map] at lengths

theorem cons (same : SameKinds (token :: tokens) other) :
    ∃ head tail, other = head :: tail ∧ head.kind = token.kind ∧ SameKinds tokens tail :=
  List.map_eq_cons_iff.mp same

theorem append (same : SameKinds (before ++ after) other) :
    ∃ front behind, other = front ++ behind ∧ SameKinds before front ∧ SameKinds after behind := by
  rw [SameKinds, List.map_append] at same
  exact List.map_eq_append_iff.mp same

theorem singleton (same : SameKinds [token] other) :
    ∃ single, other = [single] ∧ single.kind = token.kind := by
  obtain ⟨single, tail, rfl, kind, nothing⟩ := same.cons
  exact ⟨single, by rw [List.map_eq_nil_iff.mp nothing], kind⟩

end SameKinds

/-- From a place of a list on there are these tokens. -/
def StandsAt (tokens : List Token) (place : Nat) (written : List Token) : Prop :=
  written <+: tokens.drop place

namespace StandsAt

variable {token : Token} {tokens written before after : List Token} {place : Nat}

theorem head (stands : StandsAt tokens place (token :: written)) :
    tokens[place]? = some token := by
  obtain ⟨rest, split⟩ := stands
  rw [← List.head?_drop, ← split]
  rfl

theorem left (stands : StandsAt tokens place (before ++ after)) : StandsAt tokens place before :=
  (List.prefix_append before after).trans stands

theorem right (stands : StandsAt tokens place (before ++ after)) :
    StandsAt tokens (place + before.length) after := by
  obtain ⟨rest, split⟩ := stands
  refine ⟨rest, ?_⟩
  rw [← List.drop_drop, ← split, List.append_assoc, List.drop_left]

theorem tail (stands : StandsAt tokens place (token :: written)) :
    StandsAt tokens (place + 1) written := by
  have single : StandsAt tokens place ([token] ++ written) := stands
  exact single.right

end StandsAt

/-! ## Trees of the same outline -/

/-- The outline of an expression is that of every other one written with the same kinds. -/
theorem Expr.Yields.exists_outline {expr : Expr} {written : List Token}
    (yields : expr.Yields written) (normal : expr.Normal) (place : Nat) :
    ∃ outline : Outline, ∀ {tokens other : List Token}, StandsAt tokens place other →
      SameKinds written other → ∃ alike : Expr, outline.Fills tokens alike ∧
        alike.Yields other ∧ alike.Normal ∧ alike.level = expr.level := by
  induction yields generalizing place with
  | integer isInteger _ =>
      refine ⟨.integer place, ?_⟩
      intro tokens other stands same
      obtain ⟨token, rfl, kind⟩ := same.singleton
      rw [isInteger] at kind
      have has := token.hasNumber_number
      exact ⟨_, .integer stands.head kind has, .integer kind has, .integer, rfl⟩
  | string isString _ =>
      refine ⟨.string place, ?_⟩
      intro tokens other stands same
      obtain ⟨token, rfl, kind⟩ := same.singleton
      rw [isString] at kind
      have has := token.hasContent_content
      exact ⟨_, .string stands.head kind has, .string kind has, .string, rfl⟩
  | unary _ ih =>
      cases normal with
      | unary leads operandNormal tight =>
          obtain ⟨outline, fills⟩ := ih operandNormal (place + 1)
          refine ⟨.unary place outline, ?_⟩
          intro tokens other stands same
          obtain ⟨token, other, rfl, kind, same⟩ := same.cons
          obtain ⟨alike, filled, yields, normal, level⟩ := fills stands.tail same
          rw [← kind] at leads
          rw [← level] at tight
          exact ⟨.unary token alike, .unary stands.head filled, .unary yields,
            .unary leads normal tight, rfl⟩
  | @binary left right operator before after _ _ leftIH rightIH =>
      cases normal with
      | binary joins leftNormal rightNormal leftTight rightTight =>
          obtain ⟨leftOutline, leftFills⟩ := leftIH leftNormal place
          obtain ⟨rightOutline, rightFills⟩ := rightIH rightNormal (place + before.length + 1)
          refine ⟨.binary leftOutline (place + before.length) rightOutline, ?_⟩
          intro tokens other stands same
          obtain ⟨front, tail, rfl, sameFront, sameTail⟩ := same.append
          obtain ⟨token, behind, rfl, kind, sameBehind⟩ := sameTail.cons
          have operatorStands := stands.right
          rw [sameFront.length] at operatorStands
          obtain ⟨leftAlike, leftFilled, leftYields, leftNormal, leftLevel⟩ :=
            leftFills stands.left sameFront
          obtain ⟨rightAlike, rightFilled, rightYields, rightNormal, rightLevel⟩ :=
            rightFills operatorStands.tail sameBehind
          rw [← kind] at joins leftTight rightTight
          rw [← leftLevel] at leftTight
          rw [← rightLevel] at rightTight
          refine ⟨.binary leftAlike token rightAlike,
            .binary leftFilled operatorStands.head rightFilled,
            .binary leftYields rightYields,
            .binary joins leftNormal rightNormal leftTight rightTight, ?_⟩
          rw [level, level, kind]

@[inherit_doc Expr.Yields.exists_outline]
theorem Stmt.Yields.exists_outline {stmt : Stmt} {written : List Token}
    (yields : stmt.Yields written) (normal : stmt.Normal) (place : Nat) :
    ∃ outline : Outline, ∀ {tokens other : List Token}, StandsAt tokens place other →
      SameKinds written other → ∃ alike : Stmt, outline.Fills tokens alike ∧
        alike.Yields other ∧ alike.Normal := by
  cases yields with
  | @declaration _ _ _ _ _ _ type _ value isWord isName _ isColon isType isEqual valueYields =>
      cases normal with
      | declaration typed initializerNormal =>
          obtain ⟨outline, fills⟩ :=
            valueYields.exists_outline initializerNormal (place + 1 + 1 + 1 + 1 + 1)
          refine ⟨⟨place + 1, type, outline⟩, ?_⟩
          intro tokens other stands same
          obtain ⟨word, _, rfl, wordKind, same⟩ := same.cons
          obtain ⟨name, _, rfl, nameKind, same⟩ := same.cons
          obtain ⟨colon, _, rfl, colonKind, same⟩ := same.cons
          obtain ⟨named, _, rfl, namedKind, same⟩ := same.cons
          obtain ⟨equal, _, rfl, equalKind, same⟩ := same.cons
          obtain ⟨alike, filled, yields, normal, _⟩ := fills stands.tail.tail.tail.tail.tail same
          rw [isWord] at wordKind
          rw [isName] at nameKind
          rw [isColon] at colonKind
          rw [← namedKind] at isType
          rw [isEqual] at equalKind
          have has := name.hasContent_content
          exact ⟨_, .declaration stands.tail.head nameKind has filled,
            .declaration wordKind nameKind has colonKind isType equalKind yields,
            .declaration typed normal⟩

/-- The outlines of statements are those of all that are written with the same kinds. -/
theorem Grammar.Yields.exists_outlines {statements : List Stmt} {written : List Token}
    (yields : Yields statements written) (normal : ∀ stmt ∈ statements, stmt.Normal)
    (place : Nat) :
    ∃ outlines : List Stmt.Outline, ∀ {tokens other : List Token}, StandsAt tokens place other →
      SameKinds written other → ∃ alike : List Stmt,
        List.Forall₂ (Stmt.Outline.Fills tokens) outlines alike ∧ Yields alike other ∧
          ∀ stmt ∈ alike, stmt.Normal := by
  induction yields generalizing place with
  | nil =>
      refine ⟨[], ?_⟩
      intro tokens other _ same
      rw [List.map_eq_nil_iff.mp same]
      exact ⟨[], .nil, .nil, by simp⟩
  | newline isNewline _ ih =>
      obtain ⟨outlines, fills⟩ := ih normal (place + 1)
      refine ⟨outlines, ?_⟩
      intro tokens other stands same
      obtain ⟨token, other, rfl, kind, same⟩ := same.cons
      obtain ⟨alike, filled, yields, normal⟩ := fills stands.tail same
      exact ⟨alike, filled, .newline (kind.trans isNewline) yields, normal⟩
  | @statement _ _ first _ firstYields _ ih =>
      obtain ⟨firstNormal, othersNormal⟩ := List.forall_mem_cons.mp normal
      obtain ⟨outline, firstFills⟩ := firstYields.exists_outline firstNormal place
      obtain ⟨outlines, fills⟩ := ih othersNormal (place + first.length)
      refine ⟨outline :: outlines, ?_⟩
      intro tokens other stands same
      obtain ⟨front, behind, rfl, sameFront, sameBehind⟩ := same.append
      have behindStands := stands.right
      rw [sameFront.length] at behindStands
      obtain ⟨stmt, stmtFilled, stmtYields, stmtNormal⟩ := firstFills stands.left sameFront
      obtain ⟨alike, filled, yields, normal⟩ := fills behindStands sameBehind
      exact ⟨stmt :: alike, .cons stmtFilled filled, .statement stmtYields yields,
        List.forall_mem_cons.mpr ⟨stmtNormal, normal⟩⟩

/-! ## Rejections of the same kinds -/

namespace Grammar

/-- What holds of the kind of a token that may be there holds of another one of the same kind. -/
theorem forall_mem_of_kind (holds : Token.Kind → Prop) {next following : Option Token}
    (same : following.map Token.kind = next.map Token.kind)
    (known : ∀ token ∈ next, holds token.kind) : ∀ token ∈ following, holds token.kind := by
  intro token member
  rw [Option.mem_def.mp member] at same
  obtain ⟨original, found, kind⟩ := Option.map_eq_some_iff.mp same.symm
  rw [← kind]
  exact known original found

variable {written other : List Token} {cause : SyntaxFault} {next following : Option Token}

theorem Lacks.of_kinds {kind : Token.Kind} (lacks : Lacks kind next)
    (same : following.map Token.kind = next.map Token.kind) : Lacks kind following :=
  forall_mem_of_kind (· ≠ kind) same lacks

theorem NoOperand.of_kinds {level : Nat} (missing : NoOperand level next)
    (same : following.map Token.kind = next.map Token.kind) : NoOperand level following :=
  forall_mem_of_kind (¬ Opens level ·) same missing

theorem Stops.of_kinds {level : Nat} (stops : Stops level next)
    (same : following.map Token.kind = next.map Token.kind) : Stops level following :=
  forall_mem_of_kind (·.joiningLevel < level) same stops

theorem Pending.of_kinds {level : Nat} (pending : Pending level written)
    (same : SameKinds written other) : Pending level other := by
  induction pending generalizing other with
  | start =>
      rw [List.map_eq_nil_iff.mp same]
      exact .start
  | unary atMost leads _ ih =>
      obtain ⟨token, other, rfl, kind, same⟩ := same.cons
      rw [← kind] at leads
      exact .unary atMost leads (ih same)
  | binary atLeast joins leftNormal leftTight leftYields _ ih =>
      obtain ⟨front, tail, rfl, sameFront, sameTail⟩ := same.append
      obtain ⟨token, behind, rfl, kind, sameBehind⟩ := sameTail.cons
      obtain ⟨outline, fills⟩ := leftYields.exists_outline leftNormal 0
      obtain ⟨left, _, yields, normal, tight⟩ := fills (List.prefix_refl front) sameFront
      rw [← kind] at atLeast joins leftTight ih
      rw [← tight] at leftTight
      exact .binary atLeast joins normal leftTight yields (ih sameBehind)

theorem DeclarationRejected.of_kinds (rejected : DeclarationRejected written cause next)
    (same : SameKinds written other) (sameNext : following.map Token.kind = next.map Token.kind) :
    DeclarationRejected other cause following := by
  cases rejected with
  | name lacks =>
      rw [List.map_eq_nil_iff.mp same]
      exact .name (lacks.of_kinds sameNext)
  | colon kinds lacks => exact .colon (same.trans kinds) (lacks.of_kinds sameNext)
  | pointer kinds isPointer =>
      obtain ⟨token, rfl, kind⟩ := Option.map_eq_some_iff.mp sameNext
      exact .pointer (same.trans kinds) (kind.trans isPointer)
  | type kinds noPointer noInteger noString =>
      exact .type (same.trans kinds) (noPointer.of_kinds sameNext)
        (noInteger.of_kinds sameNext) (noString.of_kinds sameNext)
  | equal kinds isType lacks =>
      exact .equal (same.trans kinds) isType (lacks.of_kinds sameNext)
  | @value passed _ _ heads waiting missing =>
      obtain ⟨head, behind, rfl, sameHead, sameBehind⟩ := same.append
      have kinds : head.map Token.kind = passed.map Token.kind := sameHead
      rw [← kinds] at heads
      exact .value heads (waiting.of_kinds sameBehind) (missing.of_kinds sameNext)

theorem Rejected.of_kinds (rejected : Rejected written cause next)
    (same : SameKinds written other) (sameNext : following.map Token.kind = next.map Token.kind) :
    Rejected other cause following := by
  cases rejected with
  | reserved reserved =>
      rw [List.map_eq_nil_iff.mp same]
      obtain ⟨token, rfl, kind⟩ := Option.map_eq_some_iff.mp sameNext
      rw [← kind] at reserved
      exact .reserved reserved
  | unknown unknown =>
      rw [List.map_eq_nil_iff.mp same]
      exact .unknown (forall_mem_of_kind
        (fun kind => kind ≠ .varWord ∧ reservedFeature? kind = none) sameNext unknown)
  | declaration isWord rejected =>
      obtain ⟨word, other, rfl, kind, same⟩ := same.cons
      exact .declaration (kind.trans isWord) (rejected.of_kinds same sameNext)

theorem map_kind_head?_or (same : SameKinds written other)
    (sameNext : following.map Token.kind = next.map Token.kind) :
    (other.head?.or following).map Token.kind = (written.head?.or next).map Token.kind := by
  have heads := congrArg List.head? same
  rw [List.head?_map, List.head?_map] at heads
  rw [Option.map_or, Option.map_or, heads, sameNext]

theorem ProgramRejected.of_kinds (rejected : ProgramRejected written cause next)
    (same : SameKinds written other) (sameNext : following.map Token.kind = next.map Token.kind) :
    ProgramRejected other cause following := by
  induction rejected generalizing other with
  | statement rejected begun =>
      refine .statement (rejected.of_kinds same sameNext) ?_
      obtain ⟨token, first, inside⟩ := begun
      have heads := map_kind_head?_or same sameNext
      rw [Option.mem_def.mp first] at heads
      obtain ⟨head, found, kind⟩ := Option.map_eq_some_iff.mp heads
      rw [← kind] at inside
      exact ⟨head, found, inside⟩
  | newline isNewline _ ih =>
      obtain ⟨token, other, rfl, kind, same⟩ := same.cons
      exact .newline (kind.trans isNewline) (ih same sameNext)
  | behind yields normal stops _ ih =>
      obtain ⟨front, behind, rfl, sameFront, sameBehind⟩ := same.append
      obtain ⟨outline, fills⟩ := yields.exists_outline normal 0
      obtain ⟨stmt, _, yields, normal⟩ := fills (List.prefix_refl front) sameFront
      have stopsToo := stops.of_kinds (map_kind_head?_or sameBehind sameNext)
      exact .behind yields normal stopsToo (ih sameBehind sameNext)

end Grammar

/-! ## Token streams -/

/-- What a parse comes to as far as the kinds of the tokens tell. -/
inductive Verdict where
  | accepted (outlines : List Stmt.Outline)
  | rejected (fault : SyntaxFault) (position : Nat)
  deriving DecidableEq, Repr

/-- The stream is parsed to statements with these outlines, which take from its own tokens what a
tree holds, or the fault is raised against its own token. -/
inductive Verdict.Holds (stream : TokenStream) : Verdict → Prop where
  | accepted {outlines : List Stmt.Outline} {statements : List Stmt} :
      (TokenCursor.atStart stream).parse.1 = .ok statements →
      List.Forall₂ (Stmt.Outline.Fills stream.toList) outlines statements →
      Holds stream (.accepted outlines)
  | rejected {fault : SyntaxFault} {position : Nat} {token : Token} :
      stream.toList[position]? = some token →
      (TokenCursor.atStart stream).parse.1 =
        .error (Diagnostic.syntactic fault position token).raised →
      Holds stream (.rejected fault position)

namespace TokenStream

/-- There is one verdict for all streams with the same kinds of tokens. -/
theorem exists_verdict (stream : TokenStream) :
    ∃ verdict : Verdict, ∀ other : TokenStream, SameKinds stream.toList other.toList →
      verdict.Holds other := by
  cases result : stream.parse with
  | ok statements =>
      obtain ⟨written, last, rest, split, ends, yields, normal⟩ := exists_split_of_parse result
      obtain ⟨outlines, fills⟩ := yields.exists_outlines normal 0
      refine ⟨.accepted outlines, ?_⟩
      intro other same
      rw [split] at same
      obtain ⟨front, behind, otherSplit, sameFront, sameBehind⟩ := same.append
      obtain ⟨otherLast, _, rfl, kind, _⟩ := sameBehind.cons
      have stands : StandsAt other.toList 0 front := ⟨_, otherSplit.symm⟩
      obtain ⟨alike, filled, yields, normal⟩ := fills stands sameFront
      refine .accepted ?_ filled
      rw [TokenCursor.parse_atStart, parse_of_split otherSplit (kind.trans ends) yields normal]
      rfl
  | error diagnostic =>
      obtain ⟨written, token, rest, cause, split, rejected, _⟩ := exists_rejected_of_parse result
      refine ⟨.rejected cause written.length, ?_⟩
      intro other same
      rw [split] at same
      obtain ⟨front, behind, otherSplit, sameFront, sameBehind⟩ := same.append
      obtain ⟨faulty, _, rfl, kind, _⟩ := sameBehind.cons
      have sameNext : (some faulty).map Token.kind = (some token).map Token.kind :=
        congrArg some kind
      rw [← sameFront.length]
      have found : other.toList[front.length]? = some faulty := by
        rw [otherSplit]
        simp
      refine .rejected found ?_
      rw [TokenCursor.parse_atStart,
        parse_of_rejected otherSplit (rejected.of_kinds sameFront sameNext)]
      rfl

/-- A declaration against another one with an empty name and zero for its value. -/
theorem exists_verdict_zero :
    let stream : TokenStream :=
      ⟨[⟨.varWord, none, 0, 3, 1⟩, ⟨.identifier, some (.text "n"), 4, 5, 1⟩,
        ⟨.colon, none, 5, 6, 1⟩, ⟨.intWord, none, 6, 9, 1⟩, ⟨.equal, none, 9, 10, 1⟩,
        ⟨.integer, some (.number 7), 10, 11, 1⟩], ⟨.endOfInput, none, 11, 11, 1⟩, rfl⟩
    let other : TokenStream :=
      ⟨[⟨.varWord, none, 9, 9, 2⟩, ⟨.identifier, some (.text ""), 0, 0, 3⟩,
        ⟨.colon, none, 0, 0, 1⟩, ⟨.intWord, none, 0, 0, 0⟩, ⟨.equal, none, 0, 0, 0⟩,
        ⟨.integer, some (.number 0), 0, 0, 0⟩], ⟨.endOfInput, none, 0, 0, 0⟩, rfl⟩
    SameKinds stream.toList other.toList ∧
      (TokenCursor.atStart stream).parse.1 = .ok [.declaration "n" .integer (.integer 7)] ∧
      (TokenCursor.atStart other).parse.1 = .ok [.declaration "" .integer (.integer 0)] ∧
      ∃ verdict : Verdict, verdict.Holds stream ∧ verdict.Holds other := by
  intro stream other
  have same : SameKinds stream.toList other.toList := rfl
  obtain ⟨verdict, holds⟩ := exists_verdict stream
  exact ⟨same, by cbv, by cbv, verdict, holds stream rfl, holds other same⟩

theorem parse_literal {literal final : Token} (closed : final.kind = .endOfInput)
    (isInteger : literal.kind = .integer) :
    parse ⟨[literal], final, closed⟩ = .error (.syntactic .invalidStatement 0 literal) := by
  have split : toList ⟨[literal], final, closed⟩ = [] ++ literal :: [final] := rfl
  refine parse_of_rejected split (.statement (.unknown ?_) ⟨literal, rfl, ?_⟩)
  · intro token same
    cases same
    rw [isInteger]
    decide
  · rw [isInteger]
    decide

/-- With these two literals the verdict is one, but only one of them can be written into the
diagnostic. -/
theorem overlongNumber_of_sameKinds :
    let stream : TokenStream :=
      ⟨[⟨.integer, some (.number 5), 0, 1, 1⟩], ⟨.endOfInput, none, 1, 1, 1⟩, rfl⟩
    let other : TokenStream :=
      ⟨[⟨.integer, some (.number Numeral.leastOverlong), 0, 1, 1⟩],
        ⟨.endOfInput, none, 1, 1, 1⟩, rfl⟩
    SameKinds stream.toList other.toList ∧
      (TokenCursor.atStart stream).parse.1 = .error (.diagnostic
        (.syntactic .invalidStatement 0 ⟨.integer, some (.number 5), 0, 1, 1⟩)) ∧
      (TokenCursor.atStart other).parse.1 = .error .overlongNumber := by
  intro stream other
  have short : (Diagnostic.syntactic .invalidStatement 0
      ⟨.integer, some (.number 5), 0, 1, 1⟩).IsWritable := by
    intro number member
    have few : 1 ≤ Numeral.digitLimit := by decide
    have small : ∀ number ∈ [(0 : Int), 5, 1], number.natAbs < Nat.pow 10 1 := by decide
    exact Numeral.isWritable_of_lt_pow few (small number member)
  have written : (Numeral.leastOverlong : Int) ∈ (Diagnostic.syntactic .invalidStatement 0
      ⟨.integer, some (.number Numeral.leastOverlong), 0, 1, 1⟩).numbers :=
    .tail _ (.head _)
  refine ⟨rfl, ?_, ?_⟩
  · rw [TokenCursor.parse_atStart, parse_literal rfl rfl]
    exact congrArg Except.error (Diagnostic.raised_of_isWritable short)
  · rw [TokenCursor.parse_atStart, parse_literal rfl rfl]
    exact congrArg Except.error
      (Diagnostic.raised_of_mem_numbers written Numeral.not_isWritable_leastOverlong)

end TokenStream

end LuneSyntax
