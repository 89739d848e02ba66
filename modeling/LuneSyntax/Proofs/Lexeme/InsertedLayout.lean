import LuneSyntax.Proofs.Lexeme.Decomposition

/-!
# Inserted layout

Blanks, joined lines and comments can be put between any two lexemes without a change to the
tokens. Usually they become lexemes of their own. Only behind a comment that the end of the source
ends they are taken into that comment, up to a line feed in them.
-/

set_option autoImplicit false

namespace LuneSyntax.Lexeme

/-- Any number of blanks other than line feeds, of joined lines and of comments with their line
feeds. -/
inductive Layout : List Char → Prop where
  | nil : Layout []
  | blank {character : Char} {more : List Char} :
      Blank.isBlank character = true → character ≠ '\n' → Layout more → Layout (character :: more)
  | joint {more : List Char} : Layout more → Layout ('\\' :: '\n' :: more)
  | wideJoint {more : List Char} : Layout more → Layout ('\\' :: '\r' :: '\n' :: more)
  | comment {body more : List Char} :
      '\n' ∉ body → Layout more → Layout ('#' :: body ++ '\n' :: more)

variable {policy : UnknownPolicy} {rest other text : List Char} {front lexemes : List Lexeme}

/-! ## Lexemes without tokens -/

theorem tokensFrom_of_layout (silent : ∀ lexeme ∈ lexemes, lexeme.content = .layout)
    (place : Place) : tokensFrom place lexemes = [] := by
  induction lexemes generalizing place with
  | nil => rfl
  | cons lexeme lexemes ih =>
      have none : lexeme.token? place = none := by
        rw [token?, silent lexeme List.mem_cons_self]
      rw [tokensFrom, none, ih fun other member => silent other (List.mem_cons_of_mem _ member)]
      rfl

theorem readUnder_of_matches_layout {shape : Shape} {first : Char} {more : List Char}
    (found : Matches shape (first :: more) rest .layout) :
    readUnder policy first (more ++ rest) = .ok ⟨first, more, .layout⟩ := by
  have read := read_of_matches found fun radix digits written => by
    obtain rfl := found.unique (.integer written)
    cases found
  unfold readUnder
  rw [read]
  exact if_pos (by simp [admittedBy])

theorem readUnder_space (rest : List Char) :
    readUnder policy ' ' rest = .ok ⟨' ', [], .layout⟩ :=
  readUnder_of_matches_layout (.blank (by decide) (by decide))

/-- The text becomes lexemes of layout in front of the rest. -/
def CutsToLayout (policy : UnknownPolicy) (text rest : List Char) : Prop :=
  ∃ lexemes, textOf lexemes = text ∧ Cut policy rest lexemes ∧
    ∀ lexeme ∈ lexemes, lexeme.content = .layout

theorem cutsToLayout_nil : CutsToLayout policy [] rest :=
  ⟨[], rfl, .nil, fun _ member => nomatch member⟩

theorem CutsToLayout.behind {shape : Shape} {first : Char} {more : List Char}
    (cuts : CutsToLayout policy text rest)
    (found : Matches shape (first :: more) (text ++ rest) .layout) :
    CutsToLayout policy (first :: more ++ text) rest := by
  obtain ⟨lexemes, rfl, cut, silent⟩ := cuts
  refine ⟨⟨first, more, .layout⟩ :: lexemes, rfl,
    .cons (readUnder_of_matches_layout found) cut, ?_⟩
  intro lexeme member
  rcases List.mem_cons.mp member with rfl | following
  · rfl
  · exact silent lexeme following

theorem Layout.cutsToLayout (layout : Layout text) (policy : UnknownPolicy) (rest : List Char) :
    CutsToLayout policy text rest := by
  induction layout with
  | nil => exact cutsToLayout_nil
  | blank white different _ ih => exact ih.behind (.blank white different)
  | joint _ ih => exact ih.behind .joint
  | wideJoint _ ih => exact ih.behind .wideJoint
  | comment unbroken _ ih => simpa using ih.behind (.comment unbroken)

/-- Layout behind an open comment goes on with the comment up to the first line feed. -/
theorem Layout.cutsToLayout_of_hash (layout : Layout text) (policy : UnknownPolicy)
    {body : List Char} (unbroken : '\n' ∉ body) :
    CutsToLayout policy ('#' :: body ++ text) [] := by
  induction layout generalizing body with
  | nil => exact cutsToLayout_nil.behind (.lastComment unbroken)
  | @blank character more _ different _ ih =>
      have extended : '\n' ∉ body ++ [character] := by
        simpa [unbroken] using Ne.symm different
      simpa using ih extended
  | @joint more layout _ =>
      have extended : '\n' ∉ body ++ ['\\'] := by simpa using unbroken
      simpa using (layout.cutsToLayout policy []).behind (.comment extended)
  | @wideJoint more layout _ =>
      have extended : '\n' ∉ body ++ ['\\', '\r'] := by simpa using unbroken
      simpa using (layout.cutsToLayout policy []).behind (.comment extended)
  | @comment inner more closed layout _ =>
      have extended : '\n' ∉ body ++ '#' :: inner := by simpa [unbroken] using closed
      simpa using (layout.cutsToLayout policy []).behind (.comment extended)

/-! ## Layout in front of the rest -/

theorem Joins.exchange {behind : List Char} (joins : Joins (behind ++ other))
    (lineFeed : '\n' ∈ other.head? → '\n' ∈ rest.head?) (whole : Joins other → Joins rest) :
    Joins (behind ++ rest) := by
  rcases joins.of_append with inside | ⟨rfl, joins⟩ | ⟨rfl, next⟩
  · exact inside.append rest
  · exact whole joins
  · obtain ⟨after, rfl⟩ := List.head?_eq_some_iff.mp (lineFeed next)
    exact ⟨after, .inr rfl⟩

theorem not_layout_of_lineFeed {more : List Char} : ¬ Layout ('\n' :: more) := by
  intro layout
  cases layout with
  | blank _ different _ => exact different rfl

theorem Layout.lineFeed_of_head? (layout : Layout text)
    (next : '\n' ∈ (text ++ rest).head?) : '\n' ∈ rest.head? := by
  cases text with
  | nil => exact next
  | cons character more =>
      obtain rfl : character = '\n' := Option.some.inj next
      exact absurd layout not_layout_of_lineFeed

/-- A return at the end of layout joins lines only with a line feed that would do so alone. -/
theorem Layout.joins (layout : Layout text) (joins : Joins (text ++ rest)) : Joins rest := by
  rcases joins.of_append with ⟨after, rfl | rfl⟩ | ⟨_, behind⟩ | ⟨_, next⟩
  · exact absurd layout not_layout_of_lineFeed
  · cases layout with
    | blank _ _ more => exact absurd more not_layout_of_lineFeed
  · exact behind
  · obtain ⟨following, rfl⟩ := List.head?_eq_some_iff.mp next
    exact ⟨following, .inl rfl⟩

theorem Layout.beginsLayout_of_head? (layout : Layout text) {next : Char}
    (first : next ∈ text.head?) : beginsLayout next = true := by
  cases layout with
  | nil => cases first
  | blank white _ _ =>
      cases first
      rw [beginsLayout, white]
      rfl
  | joint _ => cases first; decide
  | wideJoint _ => cases first; decide
  | comment _ _ => cases first; decide

theorem Layout.allows (layout : Layout text)
    (closed : rest = [] → ∀ last ∈ front.getLast?, ¬ last.IsOpenComment) :
    Allows front rest (text ++ rest) where
  next := by
    intro next member
    rw [List.head?_append] at member
    rcases Option.or_eq_some_iff.mp member with first | ⟨_, same⟩
    · exact .inr (.inl (layout.beginsLayout_of_head? first))
    · exact .inl same
  comment := fun nothing last member opened => absurd opened (closed nothing last member)
  joint := fun _ _ joins => joins.exchange layout.lineFeed_of_head? layout.joins

theorem allows_hash (nonempty : rest ≠ []) (text : List Char) :
    Allows front rest ('#' :: text) where
  next := by
    intro next member
    cases member
    exact .inr (.inl (by decide))
  comment := fun nothing => absurd nothing nonempty
  joint := fun _ _ joins => joins.exchange (fun next => nomatch next) (by
    rintro ⟨after, split | split⟩ <;> cases split)

/-! ## Insertion -/

theorem Cut.exists_of_swallowed {before : List Lexeme} {last : Lexeme}
    (cut : Cut policy [] (before ++ [last])) (opened : last.IsOpenComment)
    (layout : Layout text) :
    ∃ others, textOf others = textOf (before ++ [last]) ++ text ∧ Cut policy [] others ∧
      tokensFrom .start others = tokensFrom .start (before ++ [last]) := by
  obtain ⟨first, body, content⟩ := last
  obtain ⟨rfl, unbroken⟩ : first = '#' ∧ '\n' ∉ body := opened
  obtain ⟨frontCut, lastCut⟩ := cut.split
  obtain ⟨lexemes, covered, layoutCut, silent⟩ :=
    layout.cutsToLayout_of_hash policy unbroken
  have alone : content = .layout := by
    cases lastCut with
    | cons read _ =>
        obtain ⟨readable, _⟩ := read_of_readUnder read
        have begins : beginsLayout '#' = true := by decide
        rw [read_layout begins, readLayout_hash] at readable
        exact (congrArg Lexeme.content (Except.ok.inj readable)).symm
  subst alone
  have lastText : textOf [⟨'#', body, .layout⟩] = '#' :: body := List.append_nil _
  have allowed : Allows before (textOf [⟨'#', body, .layout⟩] ++ []) (textOf lexemes ++ []) := by
    rw [covered, List.append_nil]
    exact allows_hash (List.cons_ne_nil _ _) _
  refine ⟨before ++ lexemes, ?_, (frontCut.exchange allowed).append layoutCut, ?_⟩
  · rw [textOf_append, textOf_append, covered, lastText, List.append_assoc]
  · rw [tokensFrom_append, tokensFrom_append, tokensFrom_of_layout silent]
    rfl

/-- With layout inserted behind them the lexemes of a cut stay, or a last open comment grows. In
both cases the tokens in front are the same and nothing is changed behind. -/
theorem Cut.insert_layout (cut : Cut policy rest front) (layout : Layout text) :
    ∃ others, textOf others = textOf front ++ text ∧ Cut policy rest others ∧
      tokensFrom .start others = tokensFrom .start front := by
  by_cases swallowed : rest = [] ∧ ∃ last ∈ front.getLast?, last.IsOpenComment
  · obtain ⟨rfl, last, member, opened⟩ := swallowed
    obtain ⟨before, rfl⟩ := List.getLast?_eq_some_iff.mp member
    exact cut.exists_of_swallowed opened layout
  · have closed : rest = [] → ∀ last ∈ front.getLast?, ¬ last.IsOpenComment :=
      fun nothing last member opened => swallowed ⟨nothing, last, member, opened⟩
    obtain ⟨lexemes, covered, layoutCut, silent⟩ :=
      layout.cutsToLayout policy rest
    have frontCut : Cut policy (textOf lexemes ++ rest) front := by
      rw [covered]
      exact cut.exchange (layout.allows closed)
    refine ⟨front ++ lexemes, ?_, frontCut.append layoutCut, ?_⟩
    · rw [textOf_append, covered]
    · rw [tokensFrom_append, tokensFrom_of_layout silent, List.append_nil]

/-! ## Comments at line ends -/

theorem Matches.lineFeed_of_newline {shape : Shape} {payload : Option Payload}
    (found : Matches shape text rest (.token .newline payload)) :
    text = ['\n'] ∧ payload = none := by
  cases found with
  | pair listed =>
      have others : ∀ entry ∈ Token.Kind.pairs, entry.2 ≠ .newline := by decide
      exact absurd rfl (others _ listed)
  | single listed _ =>
      have others : ∀ entry ∈ Token.Kind.singles, entry.2 ≠ .newline := by decide
      exact absurd rfl (others _ listed)
  | word _ means =>
      cases means with
      | reserved listed =>
          have others : ∀ entry ∈ Token.Kind.words, entry.2 ≠ .newline := by decide
          exact absurd rfl (others _ listed)
  | lineFeed => exact ⟨rfl, rfl⟩

theorem eq_lineFeed_of_readUnder {lexeme : Lexeme} {payload : Option Payload}
    (read : readUnder policy lexeme.first (lexeme.more ++ rest) = .ok lexeme)
    (isNewline : lexeme.content = .token .newline payload) :
    lexeme = ⟨'\n', [], .token .newline none⟩ := by
  obtain ⟨first, more, content⟩ := lexeme
  subst isNewline
  rcases read_matches (read_of_readUnder read).1 with ⟨shape, found⟩ | ⟨dropped, _⟩
  · obtain ⟨same, rfl⟩ := found.lineFeed_of_newline
    obtain ⟨rfl, rfl⟩ := List.cons.inj same
    rfl
  · cases dropped

theorem exists_split_of_mem_tokensFrom {place : Place} {token : Token}
    (member : token ∈ tokensFrom place lexemes) :
    ∃ before lexeme after, lexemes = before ++ lexeme :: after ∧
      lexeme.token? (place.after (textOf before)) = some token := by
  induction lexemes generalizing place with
  | nil => cases member
  | cons lexeme lexemes ih =>
      rcases List.mem_append.mp member with here | behind
      · exact ⟨[], lexeme, lexemes, rfl, Option.mem_toList.mp here⟩
      · obtain ⟨before, found, after, rfl, placed⟩ := ih behind
        refine ⟨lexeme :: before, found, after, rfl, ?_⟩
        rwa [textOf_cons, Place.after_append]

theorem content_of_token? {lexeme : Lexeme} {place : Place} {token : Token}
    (placed : lexeme.token? place = some token) :
    lexeme.content = .token token.kind token.payload ∧ token.start = place.offset := by
  unfold token? at placed
  split at placed
  · rename_i same
    cases placed
    exact ⟨same, rfl⟩
  · cases placed
  · cases placed

/-- A line break among the tokens of a scan is a line feed of the source at a boundary. -/
theorem exists_cut_of_newline {source : List Char} {stream : TokenStream} {lineBreak : Token}
    (scanned : scan policy source = .ok stream) (member : lineBreak ∈ stream.toList)
    (isNewline : lineBreak.kind = .newline) :
    ∃ front rest, source = textOf front ++ '\n' :: rest ∧
      lineBreak.start = (textOf front).length ∧ Cut policy ('\n' :: rest) front ∧
      Cut policy rest (front ++ [⟨'\n', [], .token .newline none⟩]) := by
  obtain ⟨lexemes, rfl, cut, body⟩ := exists_cut_of_scan scanned
  have inside : lineBreak ∈ tokensFrom .start lexemes := by
    rcases List.mem_append.mp member with inBody | last
    · rwa [← body]
    · rw [List.mem_singleton.mp last, stream.final_kind] at isNewline
      cases isNewline
  obtain ⟨front, lexeme, back, rfl, placed⟩ := exists_split_of_mem_tokensFrom inside
  obtain ⟨content, start⟩ := content_of_token? placed
  rw [isNewline] at content
  rw [start_after] at start
  rw [← List.singleton_append, ← List.append_assoc] at cut
  obtain ⟨throughCut, _⟩ := cut.split
  rw [List.append_nil] at throughCut
  obtain ⟨frontCut, lexemeCut⟩ := throughCut.split
  cases lexemeCut with
  | cons read _ =>
      obtain rfl := eq_lineFeed_of_readUnder read content
      refine ⟨front, textOf back, ?_, start, frontCut, throughCut⟩
      rw [textOf_append]
      rfl

/-- In front of a line feed a comment goes up to it and takes it in. -/
theorem Cut.insert_comment (cut : Cut policy ('\n' :: rest) front) {body : List Char}
    (unbroken : '\n' ∉ body) :
    Cut policy rest (front ++ [⟨'#', body ++ ['\n'], .layout⟩]) := by
  have following : Cut policy rest [⟨'#', body ++ ['\n'], .layout⟩] :=
    .cons (readUnder_of_matches_layout (.comment unbroken)) .nil
  exact (cut.exchange (allows_hash (List.cons_ne_nil _ _) _)).append following

end LuneSyntax.Lexeme
