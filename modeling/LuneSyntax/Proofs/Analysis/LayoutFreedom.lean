import LuneSyntax.Analysis.Basic
import LuneSyntax.Proofs.Grammar.Relocation
import LuneSyntax.Proofs.Lexeme.InsertedLayout

/-!
# Freedom of layout

Layout between lexemes moves the tokens behind it and changes nothing else, neither the kinds and
payloads of tokens nor the statements, apart from the places of their operators. A comment at the
end of a line of a program also takes away the line break, which the grammar does not need.
-/

set_option autoImplicit false

namespace LuneSyntax

/-! ## Tokens behind an insertion -/

namespace Token

/-- The token when something is inserted at a position: moved, if it starts there or behind. -/
def shiftFrom (token : Token) (position characters lines : Int) : Token :=
  if position ≤ token.start then token.shift characters lines else token

theorem relocates_shiftFrom (position characters lines : Int) :
    Relocates (·.shiftFrom position characters lines) := by
  constructor <;>
  · intro token
    unfold shiftFrom
    split <;> rfl

theorem shift_shift (token : Token) (characters lines moreCharacters moreLines : Int) :
    (token.shift characters lines).shift moreCharacters moreLines =
      token.shift (characters + moreCharacters) (lines + moreLines) := by
  simp [shift, Int.add_assoc]

theorem shiftFrom_shiftFrom (token : Token) {characters : Int} (forward : 0 ≤ characters)
    (position lines : Int) :
    (token.shiftFrom position characters lines).shiftFrom (position + characters) (-characters)
      (-lines) = token := by
  unfold shiftFrom
  by_cases behind : position ≤ token.start
  · have reached : position + characters ≤ (token.shift characters lines).start :=
      Int.add_le_add_right behind characters
    rw [if_pos behind, if_pos reached, shift_shift]
    simp [shift]
  · rw [if_neg behind, if_neg (by omega)]

end Token

theorem Lexeme.map_shiftFrom_tokensFrom (front : List Lexeme) (characters lines : Int) :
    (tokensFrom .start front).map (·.shiftFrom (textOf front).length characters lines) =
      tokensFrom .start front := by
  refine (List.map_congr_left fun token member => ?_).trans (List.map_id _)
  obtain ⟨_, nonempty, above⟩ := span_of_mem_tokensFrom member
  rw [start_after] at above
  dsimp only at above
  exact if_neg (by omega)

theorem start_nonneg_of_scan {policy : UnknownPolicy} {source : List Char} {stream : TokenStream}
    (scanned : scan policy source = .ok stream) {token : Token} (member : token ∈ stream.toList) :
    0 ≤ token.start := by
  obtain ⟨_, rfl⟩ := scan_eq_ok_iff.mp scanned
  rcases List.mem_append.mp member with inside | last
  · exact (Lexeme.span_of_mem_tokensFrom inside).1
  · rw [List.mem_singleton.mp last]
    exact Int.natCast_nonneg _

theorem map_shift_shiftFrom {policy : UnknownPolicy} {source : List Char} {stream : TokenStream}
    (scanned : scan policy source = .ok stream) {position reach : Int} (before : position ≤ reach)
    (lines characters moreLines : Int) :
    (stream.toList.map (·.shift reach lines)).map (·.shiftFrom position characters moreLines) =
      stream.toList.map (·.shift (reach + characters) (lines + moreLines)) := by
  rw [List.map_map]
  refine List.map_congr_left fun token member => ?_
  have nonneg := start_nonneg_of_scan scanned member
  have behind : position ≤ (token.shift reach lines).start := by
    dsimp only [Token.shift]
    omega
  exact (if_pos behind).trans (token.shift_shift _ _ _ _)

/-! ## Programs -/

theorem parseSource_eq_ok_iff {policy : UnknownPolicy} {source : List Char}
    {statements : List Stmt} :
    parseSource policy source = .ok statements ↔
      ∃ stream, scan policy source = .ok stream ∧ Grammar.Spelled stream.toList statements := by
  simp only [parseSource_eq_ok_iff_parse, TokenStream.parse_eq_ok_iff_spelled]

/-- The scan of a longer source is that of a source, moved from a position on. -/
structure ScansMoved (policy : UnknownPolicy) (source longer : List Char)
    (position characters lines : Nat) : Prop where
  success : ∀ stream, scan policy source = .ok stream →
    ∃ other, scan policy longer = .ok other ∧
      other.toList = stream.toList.map (·.shiftFrom position characters lines)
  failure : ∀ failure, scan policy source = .error failure →
    position ≤ failure.place.offset ∧
      scan policy longer = .error (failure.shift characters lines)

section Moved

variable {policy : UnknownPolicy} {source longer : List Char} {position characters lines : Nat}

theorem ScansMoved.parseSource_ok
    (moved : ScansMoved policy source longer position characters lines) {statements : List Stmt}
    (parsed : parseSource policy source = .ok statements) :
    parseSource policy longer =
      .ok (statements.map (·.mapOperators (·.shiftFrom position characters lines))) := by
  obtain ⟨stream, scanned, spelled⟩ := parseSource_eq_ok_iff.mp parsed
  obtain ⟨other, otherScanned, listed⟩ := moved.success stream scanned
  refine parseSource_eq_ok_iff.mpr ⟨other, otherScanned, ?_⟩
  rw [listed]
  exact spelled.mapOperators (Token.relocates_shiftFrom position characters lines)

/-- The tokens can be moved back, so nothing is a program only when it is longer. -/
theorem ScansMoved.exists_of_parseSource
    (moved : ScansMoved policy source longer position characters lines) {others : List Stmt}
    (parsed : parseSource policy longer = .ok others) :
    ∃ statements, parseSource policy source = .ok statements := by
  obtain ⟨other, otherScanned, spelled⟩ := parseSource_eq_ok_iff.mp parsed
  cases scanned : scan policy source with
  | error failure =>
      rw [(moved.failure failure scanned).2] at otherScanned
      cases otherScanned
  | ok stream =>
      obtain ⟨found, foundScanned, listed⟩ := moved.success stream scanned
      rw [otherScanned] at foundScanned
      cases foundScanned
      have back : other.toList.map (·.shiftFrom (position + characters) (-characters) (-lines)) =
          stream.toList := by
        rw [listed, List.map_map]
        refine (List.map_congr_left fun token _ => ?_).trans (List.map_id _)
        exact token.shiftFrom_shiftFrom (Int.natCast_nonneg characters) position lines
      have original := spelled.mapOperators
        (Token.relocates_shiftFrom (position + characters) (-characters) (-lines))
      rw [back] at original
      exact ⟨_, parseSource_eq_ok_iff.mpr ⟨stream, scanned, original⟩⟩

theorem Boundary.scansMoved {layout : List Char} (boundary : Boundary policy source position)
    (silent : Lexeme.Layout layout) :
    ScansMoved policy source (source.take position ++ layout ++ source.drop position) position
      layout.length (layout.count '\n') := by
  obtain ⟨front, rest, rfl, cut, rfl⟩ := boundary_iff.mp boundary
  obtain ⟨others, covered, othersCut, same⟩ := cut.insert_layout silent
  rw [List.take_left, List.drop_left, ← covered]
  constructor
  · intro stream scanned
    obtain ⟨back, backScanned, listed⟩ := cut.scan_eq_ok_iff.mp scanned
    obtain ⟨other, otherScanned, otherListed⟩ := othersCut.scan_ok backScanned
    refine ⟨other, otherScanned, ?_⟩
    rw [listed, otherListed, same, covered, List.map_append, Lexeme.map_shiftFrom_tokensFrom,
      map_shift_shiftFrom backScanned (Int.le_refl _), List.length_append, List.count_append,
      Nat.cast_add, Nat.cast_add]
  · intro failure failed
    obtain ⟨back, backFailed, rfl⟩ := cut.scan_eq_error_iff.mp failed
    refine ⟨Nat.le_add_left _ _, ?_⟩
    rw [othersCut.scan_eq_error_iff.mpr ⟨back, backFailed, rfl⟩, covered]
    simp [ScanFailure.shift, Nat.add_assoc]

end Moved

/-- Layout at a boundary of a source moves the tokens behind it, or the failure. The source is a
program exactly if it is one with the layout, and both are printed alike. -/
theorem scan_insert_layout {policy : UnknownPolicy} {source layout : List Char} {position : Nat}
    (boundary : Boundary policy source position) (silent : Lexeme.Layout layout) :
    let longer := source.take position ++ layout ++ source.drop position
    let move (token : Token) := token.shiftFrom position layout.length (layout.count '\n')
    ScansMoved policy source longer position layout.length (layout.count '\n') ∧
    ((∃ statements, parseSource policy source = .ok statements) ∨
        (∃ statements, parseSource policy longer = .ok statements) →
      ∃ statements, parseSource policy source = .ok statements ∧
        parseSource policy longer = .ok (statements.map (·.mapOperators move)) ∧
        SExpression.printProgram (statements.map (·.mapOperators move)) =
          SExpression.printProgram statements) := by
  intro longer move
  have moved := boundary.scansMoved silent
  refine ⟨moved, fun parses => ?_⟩
  obtain ⟨statements, parsed⟩ : ∃ statements, parseSource policy source = .ok statements := by
    rcases parses with parsed | ⟨others, parsed⟩
    · exact parsed
    · exact moved.exists_of_parseSource parsed
  exact ⟨statements, parsed, moved.parseSource_ok parsed,
    SExpression.printProgram_mapOperators (Token.relocates_shiftFrom _ _ _) statements⟩

/-- A tabulator, a comment and a joined line in front of an operator. -/
theorem scan_insert_layout_comment :
    let source := ['v', 'a', 'r', ' ', 'a', ':', 'i', 'n', 't', '=', '-', '1', '#', 'c']
    let layout := ['\t', '#', 'd', '\n', '\\', '\r', '\n']
    let longer := source.take 10 ++ layout ++ source.drop 10
    let move (token : Token) := token.shiftFrom 10 7 2
    Boundary .skip source 10 ∧ Lexeme.Layout layout ∧ ScansMoved .skip source longer 10 7 2 ∧
      ∃ statements, parseSource .skip source = .ok statements ∧
        parseSource .skip longer = .ok (statements.map (·.mapOperators move)) ∧
        SExpression.printProgram (statements.map (·.mapOperators move)) =
          SExpression.printProgram statements := by
  intro source layout longer move
  have boundary : Boundary .skip source 10 :=
    ⟨[⟨'v', ['a', 'r'], .token .varWord none⟩, ⟨' ', [], .layout⟩,
      ⟨'a', [], .token .identifier (some (.text "a"))⟩, ⟨':', [], .token .colon none⟩,
      ⟨'i', ['n', 't'], .token .intWord none⟩, ⟨'=', [], .token .equal none⟩],
      ⟨[⟨'-', [], .token .minus none⟩, ⟨'1', [], .token .integer (some (.number 1))⟩,
        ⟨'#', ['c'], .layout⟩], by cbv⟩, rfl⟩
  have silent : Lexeme.Layout layout :=
    .blank (by decide) (by decide)
      (@Lexeme.Layout.comment ['d'] _ (by decide) (.wideJoint .nil))
  obtain ⟨moved, parses⟩ := scan_insert_layout boundary silent
  refine ⟨boundary, silent, moved, parses (.inl ⟨[.declaration "a" .integer
    (.unary ⟨.minus, none, 10, 11, 1⟩ (.integer 1))], by cbv⟩)⟩

/-! ## Comments at line ends -/

/-- A comment in front of a line feed takes the token of the line feed away and moves the tokens
behind it along the line. -/
theorem Lexeme.Cut.scan_comment {policy : UnknownPolicy} {rest body : List Char}
    {front : List Lexeme} {stream : TokenStream} (frontCut : Cut policy ('\n' :: rest) front)
    (lineCut : Cut policy rest (front ++ [⟨'\n', [], .token .newline none⟩]))
    (unbroken : '\n' ∉ body) (scanned : scan policy (textOf front ++ '\n' :: rest) = .ok stream) :
    ∃ lineBreak after other, stream.toList = tokensFrom .start front ++ lineBreak :: after ∧
      lineBreak.kind = .newline ∧
      scan policy (textOf front ++ '#' :: body ++ '\n' :: rest) = .ok other ∧
      other.toList = (tokensFrom .start front ++ after).map
        (·.shiftFrom (textOf front).length (1 + body.length) 0) := by
  have lineText : textOf (front ++ [⟨'\n', [], .token .newline none⟩]) = textOf front ++ ['\n'] :=
    textOf_append _ _
  have commentText : textOf (front ++ [⟨'#', body ++ ['\n'], .layout⟩]) =
      textOf front ++ '#' :: body ++ ['\n'] := by
    simp [text]
  have line : scan policy
      (textOf (front ++ [⟨'\n', [], .token .newline none⟩]) ++ rest) = .ok stream := by
    rwa [lineText, List.append_assoc]
  obtain ⟨back, backScanned, listed⟩ := lineCut.scan_eq_ok_iff.mp line
  obtain ⟨other, otherScanned, otherListed⟩ := (frontCut.insert_comment unbroken).scan_ok backScanned
  rw [lineText, tokensFrom_append] at listed
  rw [commentText, tokensFrom_append] at otherListed
  rw [commentText, List.append_assoc] at otherScanned
  let place := Place.start.after (textOf front)
  let lineBreak : Token := ⟨.newline, none, place.offset, (place.after ['\n']).offset, place.line⟩
  let after := back.toList.map
    (·.shift (textOf front ++ ['\n']).length ((textOf front ++ ['\n']).count '\n'))
  refine ⟨lineBreak, after, other, ?_, rfl, otherScanned, ?_⟩
  · rw [listed, List.append_assoc]
    rfl
  · have before : ((textOf front).length : Int) ≤ (textOf front ++ ['\n']).length := by simp
    have characters : ((textOf front ++ '#' :: body ++ ['\n']).length : Int) =
        (textOf front ++ ['\n']).length + (1 + body.length) := by
      simp only [List.length_append, List.length_cons, List.length_nil]
      omega
    have lines : ((textOf front ++ '#' :: body ++ ['\n']).count '\n' : Int) =
        (textOf front ++ ['\n']).count '\n' + 0 := by
      simp [List.count_eq_zero_of_not_mem unbroken]
    have silent : tokensFrom place [⟨'#', body ++ ['\n'], .layout⟩] = [] := rfl
    rw [List.map_append, map_shiftFrom_tokensFrom, map_shift_shiftFrom backScanned before,
      otherListed, silent, List.append_nil, characters, lines]

/-- A comment in front of a line break of a program takes the line break away. The statements
stay the same, with their operators behind the comment moved along the line. -/
theorem parse_trailing_comment {policy : UnknownPolicy} {source comment : List Char}
    {statements : List Stmt} {stream : TokenStream} {lineBreak : Token} {position : Nat}
    (parsed : parseSource policy source = .ok statements)
    (scanned : scan policy source = .ok stream) (member : lineBreak ∈ stream.toList)
    (isNewline : lineBreak.kind = .newline) (start : lineBreak.start = position)
    (unbroken : '\n' ∉ comment) :
    let longer := source.take position ++ '#' :: comment ++ source.drop position
    let move (token : Token) := token.shiftFrom position (1 + comment.length) 0
    parseSource policy longer = .ok (statements.map (·.mapOperators move)) ∧
      SExpression.printProgram (statements.map (·.mapOperators move)) =
        SExpression.printProgram statements := by
  intro longer move
  have relocates : Token.Relocates move := Token.relocates_shiftFrom _ _ _
  refine ⟨?_, SExpression.printProgram_mapOperators relocates statements⟩
  obtain ⟨found, foundScanned, spelled⟩ := parseSource_eq_ok_iff.mp parsed
  rw [scanned] at foundScanned
  cases foundScanned
  obtain ⟨front, rest, rfl, reached, frontCut, lineCut⟩ :=
    Lexeme.exists_cut_of_newline scanned member isNewline
  obtain ⟨erased, after, other, listed, isErased, otherScanned, otherListed⟩ :=
    frontCut.scan_comment lineCut unbroken scanned
  have same : (Lexeme.textOf front).length = position := by
    rw [start] at reached
    exact (Int.ofNat.inj reached).symm
  subst same
  refine parseSource_eq_ok_iff.mpr ⟨other, ?_, ?_⟩
  · simpa [longer] using otherScanned
  · rw [listed] at spelled
    rw [otherListed]
    exact (spelled.erase_newline isErased).mapOperators relocates

/-- A comment on the empty first line of a program with an operator on its second line. -/
theorem parse_trailing_comment_minus :
    let source := ['\n', 'v', 'a', 'r', ' ', 'a', ':', 'i', 'n', 't', '=', '-', '1']
    let comment := [' ', 'x']
    let lineBreak : Token := ⟨.newline, none, 0, 1, 1⟩
    let statements (minus : Token) : List Stmt :=
      [.declaration "a" .integer (.unary minus (.integer 1))]
    parseSource .skip source = .ok (statements ⟨.minus, none, 11, 12, 2⟩) ∧
      (∃ stream, scan .skip source = .ok stream ∧ lineBreak ∈ stream.toList) ∧
      '\n' ∉ comment ∧
      parseSource .skip (source.take 0 ++ '#' :: comment ++ source.drop 0) =
        .ok (statements ⟨.minus, none, 14, 15, 2⟩) ∧
      SExpression.printProgram (statements ⟨.minus, none, 14, 15, 2⟩) =
        SExpression.printProgram (statements ⟨.minus, none, 11, 12, 2⟩) := by
  intro source comment lineBreak statements
  have parsed : parseSource .skip source = .ok (statements ⟨.minus, none, 11, 12, 2⟩) := by cbv
  let stream : TokenStream :=
    ⟨[lineBreak, ⟨.varWord, none, 1, 4, 2⟩, ⟨.identifier, some (.text "a"), 5, 6, 2⟩,
      ⟨.colon, none, 6, 7, 2⟩, ⟨.intWord, none, 7, 10, 2⟩, ⟨.equal, none, 10, 11, 2⟩,
      ⟨.minus, none, 11, 12, 2⟩, ⟨.integer, some (.number 1), 12, 13, 2⟩],
      ⟨.endOfInput, none, 13, 13, 2⟩, rfl⟩
  have scanned : scan .skip source = .ok stream := by cbv
  have member : lineBreak ∈ stream.toList := List.mem_cons_self
  have unbroken : '\n' ∉ comment := by decide
  exact ⟨parsed, ⟨stream, scanned, member⟩, unbroken,
    parse_trailing_comment parsed scanned member rfl rfl unbroken⟩

end LuneSyntax
