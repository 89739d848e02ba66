import LuneSyntax.Proofs.Analysis.Blanked
import LuneSyntax.Proofs.Analysis.LineNumbers
import LuneSyntax.Proofs.Lexeme.StringValue

/-!
# Wide line ends

A line end may be written with a carriage return in front of its line feed. What becomes of the
return depends on where it stands: it is a blank of its own, or a part of a comment, of a joint or
of a string. The lexemes around it stay as they are.
-/

set_option autoImplicit false

namespace LuneSyntax

/-! ## Texts with wide line ends -/

namespace LineBreak

/-- The text with a carriage return in front of every line feed. -/
def widen (text : List Char) : List Char :=
  text.flatMap fun character => if character = '\n' then ['\r', '\n'] else [character]

variable {text : List Char}

theorem widen_append (text other : List Char) : widen (text ++ other) = widen text ++ widen other :=
  List.flatMap_append

theorem widen_lineFeed (text : List Char) : widen ('\n' :: text) = '\r' :: '\n' :: widen text := rfl

theorem widen_cons {character : Char} (other : character ≠ '\n') (text : List Char) :
    widen (character :: text) = character :: widen text := by
  rw [widen, List.flatMap_cons, if_neg other]
  rfl

theorem widen_of_not_mem (absent : '\n' ∉ text) : widen text = text := by
  induction text with
  | nil => rfl
  | cons character text ih =>
      obtain ⟨different, others⟩ := not_or.mp (mt List.mem_cons.mpr absent)
      rw [widen_cons (Ne.symm different), ih others]

theorem length_widen (text : List Char) : (widen text).length = text.length + text.count '\n' := by
  induction text with
  | nil => rfl
  | cons character text ih =>
      by_cases same : character = '\n'
      · subst same
        rw [widen_lineFeed, List.length_cons, List.length_cons, ih, List.count_cons_self,
          List.length_cons]
        omega
      · rw [widen_cons same, List.length_cons, ih, List.count_cons_of_ne same, List.length_cons]
        omega

theorem count_widen (text : List Char) : (widen text).count '\n' = text.count '\n' := by
  induction text with
  | nil => rfl
  | cons character text ih =>
      by_cases same : character = '\n'
      · subst same
        rw [widen_lineFeed, List.count_cons_of_ne (by decide), List.count_cons_self, ih,
          List.count_cons_self]
      · rw [widen_cons same, List.count_cons_of_ne same, List.count_cons_of_ne same, ih]

theorem head?_widen {next : Char} (first : next ∈ (widen text).head?) :
    next ∈ text.head? ∧ next ≠ '\n' ∨ next = '\r' ∧ '\n' ∈ text.head? := by
  cases text with
  | nil => cases first
  | cons character text =>
      by_cases same : character = '\n'
      · subst same
        rw [widen_lineFeed] at first
        exact .inr ⟨(Option.some.inj first).symm, rfl⟩
      · rw [widen_cons same] at first
        obtain rfl : character = next := Option.some.inj first
        exact .inl ⟨rfl, same⟩

end LineBreak

open LineBreak (widen)

/-! ## Strings -/

namespace Lexeme.StringLiteral

/-- A line feed that stands for itself, with a carriage return in front, or any other piece. -/
def Piece.widen (piece : Piece) : List Piece :=
  if piece = .plain '\n' then [.plain '\r', .plain '\n'] else [piece]

/-- A literal in which the line feeds that stand for themselves are wide line ends. -/
def widenPieces (pieces : List Piece) : List Piece :=
  pieces.flatMap Piece.widen

theorem Piece.spelling_widen (piece : Piece) :
    StringLiteral.spelling piece.widen = LineBreak.widen piece.spelling := by
  cases piece with
  | escaped escape => cases escape <;> rfl
  | plain character =>
      by_cases same : character = '\n'
      · subst same
        rfl
      · have unchanged : (Piece.plain character).widen = [.plain character] :=
          if_neg fun equal => same (Piece.plain.inj equal)
        rw [unchanged]
        exact (LineBreak.widen_cons same []).symm

theorem spelling_widenPieces (pieces : List Piece) :
    spelling (widenPieces pieces) = widen (spelling pieces) := by
  induction pieces with
  | nil => rfl
  | cons piece pieces ih =>
      have first : spelling (widenPieces (piece :: pieces)) =
          spelling piece.widen ++ spelling (widenPieces pieces) := by
        simp [spelling, widenPieces]
      have second : spelling (piece :: pieces) = piece.spelling ++ spelling pieces := rfl
      rw [first, second, LineBreak.widen_append, ih, piece.spelling_widen]

theorem widenPieces_cons {piece : Piece} (other : piece ≠ .plain '\n') (pieces : List Piece) :
    widenPieces (piece :: pieces) = piece :: widenPieces pieces := by
  rw [widenPieces, List.flatMap_cons, Piece.widen, if_neg other]
  rfl

/-- A line feed is no mark of an escape and no quote, and neither is a carriage return. -/
theorem pieces?_widen (text : List Char) :
    pieces? (widen text) = (pieces? text).map widenPieces := by
  fun_induction pieces? text with
  | case1 => rfl
  | case2 rest => rfl
  | case3 mark rest escape known ih =>
      have different : mark ≠ '\n' := by
        rintro rfl
        cases known
      rw [LineBreak.widen_cons (by decide), LineBreak.widen_cons different, pieces?_escape known, ih,
        Option.map_map, Option.map_map]
      exact Option.map_congr fun others _ => (widenPieces_cons (by simp) others).symm
  | case4 mark rest unknown ih =>
      -- Behind the backslash stands the mark, or a carriage return if the mark is a line feed.
      have begins : ∃ next more, widen (mark :: rest) = next :: more ∧
          Escape.ofMark? next = none := by
        by_cases same : mark = '\n'
        · subst same
          exact ⟨'\r', _, rfl, rfl⟩
        · exact ⟨mark, _, LineBreak.widen_cons same rest, unknown⟩
      obtain ⟨next, more, split, nextUnknown⟩ := begins
      rw [LineBreak.widen_cons (by decide), split, pieces?_backslash nextUnknown, ← split, ih,
        Option.map_map, Option.map_map]
      exact Option.map_congr fun others _ => (widenPieces_cons (by decide) others).symm
  | case5 character rest notQuote notEscape ih =>
      by_cases same : character = '\n'
      · subst same
        rw [LineBreak.widen_lineFeed, pieces?_plain (by decide) (by decide),
          pieces?_plain (by decide) (by decide), ih, Option.map_map, Option.map_map, Option.map_map]
        rfl
      · rw [LineBreak.widen_cons same]
        -- A backslash gets here only at the end of the text.
        by_cases backslash : character = '\\'
        · cases rest with
          | nil => subst backslash; rfl
          | cons mark rest => exact absurd rfl (notEscape mark rest backslash)
        · rw [pieces?_plain notQuote backslash, ih, Option.map_map, Option.map_map]
          exact Option.map_congr fun others _ =>
            (widenPieces_cons (fun equal => same (Piece.plain.inj equal)) others).symm

theorem pieces?_widenPieces {pieces : List Piece} {rest : List Char}
    (found : pieces? (spelling pieces ++ '\x22' :: rest) = some pieces) :
    pieces? (spelling (widenPieces pieces) ++ '\x22' :: widen rest) =
      some (widenPieces pieces) := by
  have wide := pieces?_widen (spelling pieces ++ '\x22' :: rest)
  rw [found, LineBreak.widen_append, LineBreak.widen_cons (by decide),
    ← spelling_widenPieces] at wide
  exact wide

end Lexeme.StringLiteral

/-! ## Lexemes -/

namespace Lexeme

variable {policy : UnknownPolicy} {rest : List Char} {lexeme : Lexeme} {others : List Lexeme}

theorem same_or_layout_of_widen {next : Char} (member : next ∈ (widen rest).head?) :
    next ∈ rest.head? ∨ beginsLayout next = true := by
  rcases LineBreak.head?_widen member with ⟨same, _⟩ | ⟨rfl, _⟩
  · exact .inl same
  · exact .inr (by decide)

theorem lineFeed_not_mem_head?_widen : '\n' ∉ (widen rest).head? := by
  intro member
  rcases LineBreak.head?_widen member with ⟨_, different⟩ | ⟨same, _⟩
  · exact different rfl
  · cases same

theorem joins_widen (absent : '\r' ∉ rest) (joins : Joins (widen rest)) : Joins rest := by
  obtain ⟨after, split | split⟩ := joins
  · have first : '\n' ∈ (widen rest).head? := by rw [split]; rfl
    exact absurd first lineFeed_not_mem_head?_widen
  · have first : '\r' ∈ (widen rest).head? := by rw [split]; rfl
    rcases LineBreak.head?_widen first with ⟨same, _⟩ | ⟨_, lineFeed⟩
    · exact absurd (List.mem_of_mem_head? same) absent
    · obtain ⟨behind, rfl⟩ := List.head?_eq_some_iff.mp lineFeed
      exact ⟨behind, .inl rfl⟩

/-- Without other carriage returns, line ends may become wide behind any lexemes. -/
theorem allows_widen (absent : '\r' ∉ rest) (front : List Lexeme) :
    Allows front rest (widen rest) where
  next := fun _ member => (same_or_layout_of_widen member).imp_right .inl
  comment := by
    rintro rfl _ _ _
    rfl
  joint := fun _ _ joins => joins.exchange
    (fun next => absurd next lineFeed_not_mem_head?_widen) (joins_widen absent)

/-- What becomes of a lexeme in front of a rest when all line ends are wide. Only a line feed that
stands alone becomes two lexemes. -/
inductive Widens (rest : List Char) : Lexeme → List Lexeme → Prop where
  | lineFeed : Widens rest ⟨'\n', [], .token .newline none⟩
      [⟨'\r', [], .layout⟩, ⟨'\n', [], .token .newline none⟩]
  | comment {body : List Char} : '\n' ∉ body →
      Widens rest ⟨'#', body ++ ['\n'], .layout⟩ [⟨'#', body ++ ['\r'] ++ ['\n'], .layout⟩]
  | joint : Widens rest ⟨'\\', ['\n'], .layout⟩ [⟨'\\', ['\r', '\n'], .layout⟩]
  | string {pieces : List StringLiteral.Piece} :
      StringLiteral.pieces? (StringLiteral.spelling pieces ++ '\x22' :: rest) = some pieces →
      Widens rest (quoted (StringLiteral.spelling pieces))
        [quoted (StringLiteral.spelling (StringLiteral.widenPieces pieces))]
  | silent {lexeme : Lexeme} : '\n' ∉ lexeme.text →
      (∀ kind payload, lexeme.content = .token kind payload → kind ≠ .newline ∧ kind ≠ .string) →
      Widens rest lexeme [lexeme]

theorem Widens.textOf_eq (widens : Widens rest lexeme others) :
    textOf others = widen lexeme.text := by
  cases widens with
  | lineFeed => rfl
  | @comment body unbroken =>
      have front : '\n' ∉ '#' :: body := List.not_mem_cons_of_ne_of_not_mem (by decide) unbroken
      have whole : text ⟨'#', body ++ ['\n'], .layout⟩ = ('#' :: body) ++ ['\n'] := rfl
      rw [whole, LineBreak.widen_append, LineBreak.widen_of_not_mem front]
      simp [text, LineBreak.widen]
  | joint => rfl
  | @string pieces _ =>
      rw [text_quoted, LineBreak.widen_cons (by decide), LineBreak.widen_append,
        ← StringLiteral.spelling_widenPieces]
      simp [LineBreak.widen]
  | silent unbroken _ =>
      rw [LineBreak.widen_of_not_mem unbroken]
      simp

theorem Word.Means.kind_ne {word : List Char} {kind : Token.Kind} {payload : Option Payload}
    (means : Means word (.token kind payload)) : kind ≠ .newline ∧ kind ≠ .string := by
  have plain : ∀ entry ∈ Token.Kind.words, entry.2 ≠ .newline ∧ entry.2 ≠ .string := by decide
  cases means with
  | reserved listed => exact plain _ listed
  | name _ => decide

theorem Matches.exists_widens {shape : Shape}
    (found : Matches shape lexeme.text rest lexeme.content) (absent : '\r' ∉ lexeme.text) :
    ∃ others, Widens rest lexeme others := by
  obtain ⟨first, more, content⟩ := lexeme
  rw [text] at found absent
  cases found with
  | pair listed =>
      have plain : ∀ entry ∈ Token.Kind.pairs, '\n' ∉ [entry.1.1, entry.1.2] ∧
          entry.2 ≠ .newline ∧ entry.2 ≠ .string := by decide
      refine ⟨_, .silent (plain _ listed).1 ?_⟩
      rintro _ _ ⟨⟩
      exact (plain _ listed).2
  | single listed _ =>
      have plain : ∀ entry ∈ Token.Kind.singles, '\n' ∉ [entry.1] ∧
          entry.2 ≠ .newline ∧ entry.2 ≠ .string := by decide
      refine ⟨_, .silent (plain _ listed).1 ?_⟩
      rintro _ _ ⟨⟩
      exact (plain _ listed).2
  | string enclosed =>
      obtain ⟨pieces, found, rfl⟩ := StringLiteral.pieces?_of_enclosed enclosed rest
      exact ⟨_, .string found⟩
  | integer written =>
      refine ⟨_, .silent (lineFeed_not_mem_of_solid fun _ => written.not_beginsLayout) ?_⟩
      rintro _ _ ⟨⟩
      decide
  | word word means =>
      refine ⟨_, .silent (lineFeed_not_mem_of_solid fun _ => word.not_beginsLayout) ?_⟩
      intro kind payload same
      have isToken : content = .token kind payload := same
      rw [isToken] at means
      exact means.kind_ne
  | lineFeed => exact ⟨_, .lineFeed⟩
  | blank _ other => exact ⟨_, .silent (by simpa [text] using other.symm) (by rintro _ _ ⟨⟩)⟩
  | comment unbroken => exact ⟨_, .comment unbroken⟩
  | lastComment unbroken =>
      have silent : '\n' ∉ '#' :: more := List.not_mem_cons_of_ne_of_not_mem (by decide) unbroken
      exact ⟨_, .silent silent (by rintro _ _ ⟨⟩)⟩
  | joint => exact ⟨_, .joint⟩
  | wideJoint => simp at absent

theorem readUnder_lineFeed (rest : List Char) :
    readUnder policy '\n' rest = .ok ⟨'\n', [], .token .newline none⟩ := by
  have layout : readLayout '\n' rest = ⟨'\n', [], .token .newline none⟩ := if_pos rfl
  rw [readUnder, read_layout (by decide), layout]
  exact if_pos (by simp [admittedBy])

/-- What becomes of a lexeme is read in front of the rest with its wide line ends. -/
theorem Widens.cut (widens : Widens rest lexeme others) (absent : '\r' ∉ rest)
    (read : readUnder policy lexeme.first (lexeme.more ++ rest) = .ok lexeme) :
    Cut policy (widen rest) others := by
  cases widens with
  | lineFeed =>
      exact .cons (readUnder_of_matches_layout (.blank (by decide) (by decide)))
        (.cons (readUnder_lineFeed _) .nil)
  | @comment body unbroken =>
      have longer : '\n' ∉ body ++ ['\r'] := by simpa using unbroken
      exact .cons (readUnder_of_matches_layout (.comment longer)) .nil
  | joint => exact .cons (readUnder_of_matches_layout .wideJoint) .nil
  | string found =>
      obtain ⟨enclosed, _⟩ :=
        StringLiteral.pieces?_enclosed (StringLiteral.pieces?_widenPieces found)
      exact .cons (readUnder_quoted enclosed) .nil
  | silent _ _ => exact .cons (readUnder_exchange read (allows_widen absent _)) .nil

theorem exists_widens_of_read (absent : '\r' ∉ lexeme.text ++ rest)
    (read : readUnder policy lexeme.first (lexeme.more ++ rest) = .ok lexeme) :
    ∃ others, Widens rest lexeme others ∧ Cut policy (widen rest) others := by
  obtain ⟨inText, inRest⟩ := not_or.mp (mt List.mem_append.mpr absent)
  have widened : ∃ others, Widens rest lexeme others := by
    rcases read_matches (read_of_readUnder read).1 with ⟨shape, fits⟩ | ⟨dropped, nothing⟩
    · rw [List.drop_left] at fits
      exact fits.exists_widens inText
    · have silent : '\n' ∉ lexeme.text := by
        rw [dropped]
        simpa [text] using nothing.ne_lineFeed.symm
      refine ⟨[lexeme], .silent silent fun kind payload same => ?_⟩
      rw [dropped] at same
      cases same
  obtain ⟨others, widens⟩ := widened
  exact ⟨others, widens, widens.cut inRest read⟩

/-! ## Lexemes that cannot be completed -/

/-- An integer literal neither contains a line end nor looks into one behind it. -/
theorem Number.read_widen {first : Char} (digit : first ∈ Radix.decimal.digits)
    (rest : List Char) : Number.read first (widen rest) = Number.read first rest := by
  rcases Number.exists_written_or_missing digit rest with
    ⟨radix, digits, more, after, rfl, written⟩ | ⟨radix, mark, after, rfl, rfl, announced, run⟩
  · have unbroken : '\n' ∉ more := fun member =>
      lineFeed_not_mem_of_solid (fun _ => written.not_beginsLayout) (List.mem_cons_of_mem _ member)
    have follow : MayFollow (first :: more) after (widen after) :=
      fun _ member => (same_or_layout_of_widen member).imp_right .inl
    rw [LineBreak.widen_append, LineBreak.widen_of_not_mem unbroken,
      Number.read_of_written (written.exchange follow), Number.read_of_written written]
  · have different : mark ≠ '\n' := by
      rintro rfl
      exact absurd (not_beginsLayout_of_mem_marks announced) (by decide)
    have wideRun : MaximalRun (· ∈ radix.digits) [] (widen after) :=
      run.exchange (fun _ => same_or_layout_of_widen) fun _ => not_beginsLayout_of_mem_digits
    rw [LineBreak.widen_cons different, Number.read_of_missing announced run,
      Number.read_of_missing announced wideRun]

theorem read_error_widen {first : Char} {flaw : Flaw} (failed : read first rest = .error flaw) :
    first ≠ '\n' ∧ ∃ other, read first (widen rest) = .error other ∧ other.cause = flaw.cause := by
  rcases quote_or_digit_of_read failed with rfl | digit
  · refine ⟨by decide, ?_⟩
    rw [read_string, StringLiteral.read] at failed ⊢
    rw [StringLiteral.pieces?_widen]
    cases pieces : StringLiteral.pieces? rest with
    | some found => simp [pieces] at failed
    | none =>
        simp only [pieces] at failed
        cases failed
        exact ⟨_, rfl, rfl⟩
  · refine ⟨?_, flaw, ?_, rfl⟩
    · rintro rfl
      exact absurd (not_beginsLayout_of_mem_digits digit) (by decide)
    · rw [read_number digit] at failed ⊢
      rw [Number.read_widen digit, failed]

/-- Where nothing can be read, nothing can be read with wide line ends, for the same cause. -/
theorem readUnder_error_widen {first : Char} {flaw : Flaw} (absent : '\r' ∉ rest)
    (failed : readUnder policy first rest = .error flaw) :
    first ≠ '\n' ∧
      ∃ other, readUnder policy first (widen rest) = .error other ∧ other.cause = flaw.cause := by
  rcases readUnder_error_cases failed with readFailed | ⟨lexeme, found, dropped, rfl, rfl⟩
  · obtain ⟨different, other, readWide, same⟩ := read_error_widen readFailed
    refine ⟨different, other, ?_, same⟩
    rw [readUnder, readWide]
  · have passed : readUnder .skip first rest = .ok lexeme := by
      rw [readUnder, found]
      exact if_pos rfl
    obtain ⟨rfl, different⟩ := eq_of_dropped passed dropped
    have passedWide : readUnder .skip first (widen rest) = .ok ⟨first, [], .dropped⟩ :=
      @readUnder_exchange .skip ⟨first, [], .dropped⟩ rest _ passed (allows_widen absent _)
    exact ⟨different, _, readUnder_reject_of_dropped passedWide rfl, rfl⟩

end Lexeme

end LuneSyntax
