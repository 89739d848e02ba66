import LuneSyntax.Command.Run
import LuneSyntax.Proofs.Analysis.Proper
import LuneSyntax.Proofs.Text.Uncontrolled

/-!
# What a run prints

The output of a run is made of whole lines: one for each token, one for each statement, and those
that count them. No line of them can be broken or hide a control sequence, whatever the source
holds.
-/

set_option autoImplicit false

namespace LuneSyntax.Command

/-! ## Lines -/

/-- Lines, each of them with its end. -/
def ended (lines : List String) : String :=
  String.join (lines.map (· ++ "\n"))

variable {lines : List String}

@[simp]
theorem toList_ended (lines : List String) :
    (ended lines).toList = lines.flatMap (·.toList ++ ['\n']) := by
  simp [ended, List.flatMap_map]

theorem ended_append (left right : List String) :
    ended (left ++ right) = ended left ++ ended right := by
  apply String.toList_injective
  simp

theorem splitOn_ended (clear : ∀ line ∈ lines, Uncontrolled line.toList) :
    (ended lines).toList.splitOn '\n' = lines.map String.toList ++ [[]] := by
  rw [toList_ended]
  induction lines with
  | nil => rfl
  | cons line lines ih =>
      obtain ⟨first, others⟩ := List.forall_mem_cons.mp clear
      rw [List.flatMap_cons, List.append_assoc, List.singleton_append,
        List.splitOn_append_cons_self_of_not_mem first.lineFeed_not_mem, ih others]
      rfl

theorem ended_eq_intercalate (nonempty : lines ≠ []) :
    ended lines = "\n".intercalate lines ++ "\n" := by
  apply String.toList_injective
  rw [toList_ended, String.toList_append, String.toList_intercalate]
  induction lines with
  | nil => exact absurd rfl nonempty
  | cons line lines ih =>
      cases lines with
      | nil => simp
      | cons next lines =>
          rw [List.flatMap_cons, ih (List.cons_ne_nil next lines)]
          simp

/-- Text without escape characters is printed as it is. -/
theorem printed_eq {text : String} (absent : '\x1b' ∉ text.toList) :
    printed text = text ++ "\n" := by
  have alsoEnded : '\x1b' ∉ (text ++ "\n").toList := by
    simpa using absent
  rw [printed, ControlSequence.plain, ControlSequence.strip_of_not_mem alsoEnded,
    String.ofList_toList]

theorem printedLines_eq (clear : ∀ line ∈ lines, Uncontrolled line.toList) :
    printedLines lines = ended lines := by
  have same : lines.map printed = lines.map (· ++ "\n") :=
    List.map_congr_left fun line member => printed_eq (clear line member).escape_not_mem
  rw [printedLines, ended, same]

/-! ## Sections -/

section Sections

variable (switches : List Switch) (stream : TokenStream) (statements : List Stmt)

def tokenLines : List String :=
  if .tokens ∈ switches then stream.toList.map Token.display else []

def ShowsProgram : Prop :=
  .ast ∈ switches ∨ .tokens ∉ switches

instance : Decidable (ShowsProgram switches) :=
  inferInstanceAs (Decidable (_ ∨ _))

def statementLines : List String :=
  if ShowsProgram switches then statements.map Stmt.render else []

def countLines : List String :=
  if .verbose ∈ switches then
    ["Tokenized: " ++ Numeral.decimal stream.toList.length ++ " tokens",
      "Parsed: " ++ Numeral.decimal statements.length ++ " statements"]
  else []

def outputLines : List String :=
  tokenLines switches stream ++ statementLines switches statements ++
    countLines switches stream statements

/-- The text is the output about a source with these tokens and statements. It consists of lines
that hold nothing but printed characters. -/
structure Prints (stdout : String) : Prop where
  text : ∃ program, SExpression.printProgram statements = .ok program ∧
    stdout = ended (tokenLines switches stream) ++
      (if ShowsProgram switches ∧ statements ≠ [] then program ++ "\n" else "") ++
      ended (countLines switches stream statements)
  lines : stdout.toList.splitOn '\n' =
    (outputLines switches stream statements).map String.toList ++ [[]]
  clear : ∀ line ∈ outputLines switches stream statements, Uncontrolled line.toList
  plain : ControlSequence.plain stdout = stdout

end Sections

section Printing

variable {switches : List Switch} {stream : TokenStream} {statements : List Stmt}

theorem uncontrolled_tokenLines :
    ∀ line ∈ tokenLines switches stream, Uncontrolled line.toList := by
  intro line member
  unfold tokenLines at member
  split at member
  · obtain ⟨token, _, rfl⟩ := List.mem_map.mp member
    exact token.uncontrolled_display
  · cases member

theorem uncontrolled_statementLines (proper : ∀ stmt ∈ statements, stmt.Proper) :
    ∀ line ∈ statementLines switches statements, Uncontrolled line.toList := by
  intro line member
  unfold statementLines at member
  split at member
  · obtain ⟨stmt, listed, rfl⟩ := List.mem_map.mp member
    intro character inside
    have plain := List.all_eq_true.mp
      (SExpression.isLine_render_stmt (proper stmt listed)).plain character inside
    simp only [AsciiLiteral.isPlain, Bool.and_eq_true, decide_eq_true_eq] at plain
    exact plain.1
  · cases member

theorem uncontrolled_countLines :
    ∀ line ∈ countLines switches stream statements, Uncontrolled line.toList := by
  have counts : ∀ {before after : String} (number : Int), Uncontrolled before.toList →
      Uncontrolled after.toList →
      Uncontrolled (before ++ Numeral.decimal number ++ after).toList := by
    intro before after number first last
    rw [String.toList_append, String.toList_append, Uncontrolled.append_iff,
      Uncontrolled.append_iff]
    exact ⟨⟨first, Numeral.uncontrolled_decimal number⟩, last⟩
  intro line member
  unfold countLines at member
  split at member
  · rcases List.mem_pair.mp member with rfl | rfl
    · exact counts _ (by decide) (by decide)
    · exact counts _ (by decide) (by decide)
  · cases member

theorem uncontrolled_outputLines (proper : ∀ stmt ∈ statements, stmt.Proper) :
    ∀ line ∈ outputLines switches stream statements, Uncontrolled line.toList :=
  List.forall_mem_append.mpr ⟨List.forall_mem_append.mpr
    ⟨uncontrolled_tokenLines, uncontrolled_statementLines proper⟩, uncontrolled_countLines⟩

theorem ended_statementLines :
    ended (statementLines switches statements) =
      if ShowsProgram switches ∧ statements ≠ [] then
        "\n".intercalate (statements.map Stmt.render) ++ "\n"
      else "" := by
  by_cases shows : ShowsProgram switches
  · by_cases empty : statements = []
    · simp [statementLines, empty, ended]
    · have filled : statements.map Stmt.render ≠ [] := by simpa using empty
      rw [statementLines, if_pos shows, if_pos ⟨shows, empty⟩, ended_eq_intercalate filled]
  · rw [statementLines, if_neg shows, if_neg (fun both => shows both.1)]
    rfl

theorem escape_not_mem_ended {lines : List String}
    (clear : ∀ line ∈ lines, Uncontrolled line.toList) : '\x1b' ∉ (ended lines).toList := by
  intro member
  rw [toList_ended] at member
  obtain ⟨line, listed, inside⟩ := List.mem_flatMap.mp member
  rcases List.mem_append.mp inside with shown | last
  · exact (clear line listed).escape_not_mem shown
  · cases List.mem_singleton.mp last

theorem prints_ended (proper : ∀ stmt ∈ statements, stmt.Proper) :
    Prints switches stream statements (ended (outputLines switches stream statements)) := by
  have clear : ∀ line ∈ outputLines switches stream statements, Uncontrolled line.toList :=
    uncontrolled_outputLines proper
  refine ⟨⟨_, SExpression.printProgram_of_proper proper, ?_⟩, splitOn_ended clear, clear, ?_⟩
  · rw [outputLines, ended_append, ended_append, ended_statementLines]
  · rw [ControlSequence.plain, ControlSequence.strip_of_not_mem (escape_not_mem_ended clear),
      String.ofList_toList]

/-! ## The printed parts -/

variable {operands : List String} {name : String}

theorem has_iff {switch : Switch} :
    (Arguments.mk switches operands).has switch = true ↔ switch ∈ switches := by
  rw [Arguments.has, List.contains_iff_mem]

theorem tokenListing_eq :
    tokenListing ⟨switches, operands⟩ ⟨name, stream, statements⟩ =
      ended (tokenLines switches stream) := by
  rw [← printedLines_eq uncontrolled_tokenLines]
  unfold tokenListing tokenLines
  simp only [has_iff]
  split <;> rfl

theorem counts_eq :
    counts ⟨switches, operands⟩ ⟨name, stream, statements⟩ =
      ended (countLines switches stream statements) := by
  rw [← printedLines_eq uncontrolled_countLines]
  unfold counts countLines
  simp only [has_iff]
  split <;> rfl

theorem showsProgram_iff :
    showsProgram ⟨switches, operands⟩ = true ↔ ShowsProgram switches := by
  rw [showsProgram, Bool.or_eq_true, has_iff, Bool.not_eq_true', ← Bool.not_eq_true, has_iff]
  rfl

theorem programListing_eq (proper : ∀ stmt ∈ statements, stmt.Proper) :
    programListing ⟨switches, operands⟩ ⟨name, stream, statements⟩ =
      .ok (ended (statementLines switches statements)) := by
  have lists := SExpression.lists_of_proper proper
  rw [programListing, SExpression.printProgram_of_proper proper, ended_statementLines]
  by_cases shows : ShowsProgram switches
  · rw [if_pos (showsProgram_iff.mpr shows)]
    by_cases empty : statements = []
    · simp [empty]
    · have escape : '\x1b' ∉ ("\n".intercalate (statements.map Stmt.render)).toList := by
        intro member
        rcases lists.plain _ member with lineFeed | ⟨printed, _⟩
        · cases lineFeed
        · exact absurd printed (by decide)
      have filled : ("\n".intercalate (statements.map Stmt.render)).isEmpty = false := by
        rw [← Bool.not_eq_true, String.isEmpty_iff]
        intro nothing
        apply SExpression.intercalate_ne_nil (SExpression.isLine_of_mem_rendered proper)
        · simpa using empty
        · rw [← SExpression.toList_output, nothing]
          rfl
      rw [if_pos ⟨shows, empty⟩]
      simp only [filled, printed_eq escape]
      rfl
  · rw [if_neg fun shown => shows (showsProgram_iff.mp shown), if_neg fun both => shows both.1]

end Printing

end LuneSyntax.Command
