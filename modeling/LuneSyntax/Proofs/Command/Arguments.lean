import LuneSyntax.Command.Arguments

/-!
# Command lines

Every list of flags and operands is read as it is meant, in whatever order it is given and however
often a flag is repeated.
-/

set_option autoImplicit false

namespace LuneSyntax.Command

/-- The flags that bear on the analysis of a file, as they can be given. -/
def flags : List (String × Switch) :=
  [("--tokens", .tokens), ("--ast", .ast), ("--strict", .strict), ("--verbose", .verbose),
    ("-v", .verbose)]

/-- The arguments are those flags and operands, in this order. -/
inductive Asks : List String → List Switch → List String → Prop where
  | nil : Asks [] [] []
  | operands {operands : List String} : Asks ("--" :: operands) [] operands
  | flag {spelling : String} {switch : Switch} {rest operands : List String}
      {switches : List Switch} :
      (spelling, switch) ∈ flags → Asks rest switches operands →
      Asks (spelling :: rest) (switch :: switches) operands
  | operand {operand : String} {rest operands : List String} {switches : List Switch} :
      Arguments.isSwitch operand.toList = false → Asks rest switches operands →
      Asks (operand :: rest) switches (operand :: operands)

variable {arguments operands : List String} {switches : List Switch}

theorem readSwitch_of_mem_flags : ∀ flag ∈ flags, flag.1 ≠ "--" ∧
    Arguments.isSwitch flag.1.toList = true ∧
    Arguments.readSwitch flag.1.toList = .ok [flag.2] ∧ flag.2.answersAlone = false := by
  intro flag listed
  simp only [flags, List.mem_cons, List.not_mem_nil, or_false] at listed
  rcases listed with rfl | rfl | rfl | rfl | rfl <;>
    exact ⟨by decide, by decide, rfl, rfl⟩

theorem Asks.read (asks : Asks arguments switches operands) :
    Arguments.read arguments = .ok ⟨switches, operands⟩ := by
  induction asks with
  | nil => rfl
  | operands => rfl
  | flag listed _ ih =>
      obtain ⟨apart, isSwitch, read, _⟩ := readSwitch_of_mem_flags _ listed
      rw [Arguments.read, if_neg apart, if_pos isSwitch, read, ih]
      rfl
  | @operand operand _ _ _ plain _ ih =>
      have apart : operand ≠ "--" := by
        rintro rfl
        exact absurd plain (by decide)
      rw [Arguments.read, if_neg apart, if_neg (ne_true_of_eq_false plain), ih]

theorem Asks.answersAlone (asks : Asks arguments switches operands) :
    ∀ switch ∈ switches, switch.answersAlone = false := by
  induction asks with
  | nil => exact List.forall_mem_nil _
  | operands => exact List.forall_mem_nil _
  | flag listed _ ih =>
      obtain ⟨_, _, _, working⟩ := readSwitch_of_mem_flags _ listed
      exact List.forall_mem_cons.mpr ⟨working, ih⟩
  | operand _ _ ih => exact ih

end LuneSyntax.Command
