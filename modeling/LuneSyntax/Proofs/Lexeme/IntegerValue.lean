import LuneSyntax.Proofs.Analysis.Proper
import LuneSyntax.Proofs.Lexeme.Emission

/-!
# Values of integer literals

An integer literal goes up to the end of its digits and stands for their positional value. It
becomes a token if the value is in range. Leading zeros and the case of letters do not matter, but
the zeros count for the limit on decimal digits.
-/

set_option autoImplicit false

namespace LuneSyntax

namespace Numeral

/-- The digits are those of the number, with any zeros in front and letters of either case. -/
def Writes (radix : Radix) (digits : List Char) (number : Nat) : Prop :=
  ∃ zeros, digits.map Char.toLower =
    List.replicate zeros '0' ++ Nat.toDigits radix.base number

/-- The sum of the digits, each multiplied by the power of the base that belongs to its place. -/
def positional (radix : Radix) (digits : List Char) : Nat :=
  Nat.ofDigits radix.base (digits.reverse.map digitValue)

/-! ## Positional values -/

theorem value_eq_positional (radix : Radix) (digits : List Char) :
    value radix digits = positional radix digits := by
  unfold positional
  induction digits using List.reverseRecOn with
  | nil => rfl
  | append_singleton digits digit ih =>
      rw [value_append_singleton, List.reverse_concat, List.map_cons, Nat.ofDigits_cons, ih,
        Nat.add_comm]

theorem toLower_eq_self {character : Char} (high : 128 ≤ character.toNat) :
    character.toLower = character := by
  have beyond : ¬ (character.val ≥ 'A'.val ∧ character.val ≤ 'Z'.val) := by
    have same : character.toNat = character.val.toNat := rfl
    simp only [ge_iff_le, UInt32.le_iff_toNat_le, Char.reduceVal, UInt32.reduceToNat]
    omega
  exact dif_neg beyond

theorem digit_of_toLower {radix : Radix} {character : Char}
    (lower : character.toLower ∈ radix.digits) :
    character ∈ radix.digits ∧ digitValue character.toLower = digitValue character := by
  -- Behind 127 no letter is lowered, so a finite table is left.
  rcases Nat.lt_or_ge character.toNat 128 with plain | high
  · have recorded : ∀ code < 128, (Char.ofNat code).toLower ∈ radix.digits →
        Char.ofNat code ∈ radix.digits ∧
          digitValue (Char.ofNat code).toLower = digitValue (Char.ofNat code) := by
      cases radix <;> decide +kernel
    have known := recorded character.toNat plain
    rw [Char.ofNat_toNat] at known
    exact known lower
  · rw [toLower_eq_self high] at lower ⊢
    exact ⟨lower, rfl⟩

theorem value_map_toLower {radix : Radix} {digits : List Char}
    (lower : ∀ digit ∈ digits, digit.toLower ∈ radix.digits) :
    value radix (digits.map Char.toLower) = value radix digits := by
  induction digits using List.reverseRecOn with
  | nil => rfl
  | append_singleton digits digit ih =>
      obtain ⟨before, last⟩ := List.forall_mem_append.mp lower
      rw [List.map_append, List.map_singleton, value_append_singleton, value_append_singleton,
        ih before, (digit_of_toLower (last digit List.mem_cons_self)).2]

/-- What writes a number are digits of the radix, and their value is the number. -/
theorem Writes.value_eq {radix : Radix} {digits : List Char} {number : Nat}
    (writes : Writes radix digits number) :
    digits ≠ [] ∧ (∀ digit ∈ digits, digit ∈ radix.digits) ∧ value radix digits = number := by
  obtain ⟨zeros, same⟩ := writes
  have lower : ∀ digit ∈ digits, digit.toLower ∈ radix.digits := by
    intro digit member
    have listed := List.mem_map_of_mem (f := Char.toLower) member
    rw [same] at listed
    rcases List.mem_append.mp listed with zero | proper
    · rw [List.eq_of_mem_replicate zero]
      cases radix <;> decide
    · exact mem_digits_of_mem_toDigits proper
  refine ⟨?_, fun digit member => (digit_of_toLower (lower digit member)).1, ?_⟩
  · rintro rfl
    exact Nat.toDigits_ne_nil (List.append_eq_nil_iff.mp same.symm).2
  · rw [← value_map_toLower lower, same, value_replicate_zero_append, value_toDigits]

end Numeral

/-! ## Literals in a source -/

/-- What becomes of an integer literal at a boundary, given its digits and its text. Only a run of
decimal digits can be too long for its value to be computed. -/
structure ConvertsAt (policy : UnknownPolicy) (source : List Char) (start : Nat) (radix : Radix)
    (digits text : List Char) : Prop where
  inRange : (radix = .decimal → digits.length ≤ Lexeme.digitLimit) →
    Numeral.positional radix digits ≤ largestInteger →
    Emits policy source start (start + text.length) .integer
      (.number (Numeral.positional radix digits))
  outOfRange : (radix = .decimal → digits.length ≤ Lexeme.digitLimit) →
    largestInteger < Numeral.positional radix digits →
    scan policy source = .error
      ⟨.fault (.invalidNumber (String.ofList text) .outOfRange), start, lineAt source start⟩
  overlong : radix = .decimal → Lexeme.digitLimit < digits.length →
    scan policy source = .error ⟨.tooManyDigits digits.length, start, lineAt source start⟩

section Literals

open Lexeme.Number

variable {policy : UnknownPolicy} {source rest digits text : List Char} {start : Nat}
  {radix : Radix} {first mark : Char}

theorem Lexeme.Number.Fits.readUnder {more : List Char} (fits : Fits radix digits)
    (written : Written rest radix digits (first :: more)) :
    readUnder policy first (more ++ rest) =
      .ok ⟨first, more, .token .integer (some (.number (Numeral.value radix digits)))⟩ := by
  obtain ⟨digit, others, same, listed⟩ := written.exists_digit
  obtain ⟨rfl, rfl⟩ := List.cons.inj same
  rw [Lexeme.readUnder, read_number listed, read_of_written written, convert_of_fits fits]
  exact if_pos (by simp [admittedBy])

theorem Boundary.convertsAt (boundary : Boundary policy source start)
    (here : source.drop start = text ++ rest) (written : Written rest radix digits text) :
    ConvertsAt policy source start radix digits text where
  inRange short small := by
    obtain ⟨first, more, rfl, _⟩ := written.exists_digit
    rw [← Numeral.value_eq_positional] at small ⊢
    exact boundary.emits ⟨first, more, _⟩ here (Fits.readUnder ⟨short, small⟩ written) rfl
  outOfRange short large := by
    rw [← Numeral.value_eq_positional] at large
    rw [boundary.scan_large here written short large, boundary.place]
  overlong decimal long := by
    subst decimal
    obtain rfl := written.eq_of_decimal
    rw [boundary.scan_overlong here written long, boundary.place]

/-- Behind a mark of a radix stand digits of it, or else the literal is at fault. -/
theorem Boundary.marked_cases (boundary : Boundary policy source start)
    (here : source.drop start = '0' :: mark :: rest) (announced : mark ∈ marks radix) :
    (rest.takeWhile radix.isDigit = [] → scan policy source = .error
      ⟨.fault (.invalidNumber (String.ofList ['0', mark]) (.missingDigits radix)), start,
        lineAt source start⟩) ∧
    (rest.takeWhile radix.isDigit ≠ [] → ConvertsAt policy source start radix
      (rest.takeWhile radix.isDigit) ('0' :: mark :: rest.takeWhile radix.isDigit)) := by
  have run := (Lexeme.maximalRun_takeWhile radix.isDigit rest).congr (isDigit_iff radix)
  constructor
  · intro missing
    rw [missing, List.length_nil, List.drop_zero] at run
    have zero : '0' ∈ Radix.decimal.digits := by decide
    have failed : Lexeme.readUnder policy '0' (mark :: rest) = .error ⟨['0', mark],
        .fault (.invalidNumber (String.ofList ['0', mark]) (.missingDigits radix))⟩ := by
      rw [Lexeme.readUnder, Lexeme.read_number zero, read_of_missing announced run]
    rw [boundary.scan_error here failed, boundary.place]
  · intro present
    refine boundary.convertsAt ?_ (.marked announced present run)
    rw [here, List.cons_append, List.cons_append, Lexeme.takeWhile_append_drop]

/-- A digit that no mark of a radix follows begins a run of decimal digits. -/
theorem Boundary.convertsAt_decimal (boundary : Boundary policy source start)
    (here : source.drop start = first :: rest) (digit : first ∈ Radix.decimal.digits)
    (unmarked : ∀ radix mark behind, first :: rest = '0' :: mark :: behind →
      mark ∉ marks radix) :
    ConvertsAt policy source start .decimal ((first :: rest).takeWhile Radix.decimal.isDigit)
      ((first :: rest).takeWhile Radix.decimal.isDigit) := by
  have unannounced : first = '0' → ∀ mark ∈ rest.head?, ∀ radix, mark ∉ marks radix := by
    intro zero mark next radix
    obtain ⟨behind, rfl⟩ := List.head?_eq_some_iff.mp next
    exact unmarked radix mark behind (by rw [zero])
  have written := written_takeWhile digit unannounced
  rw [List.takeWhile_cons_of_pos ((isDigit_iff .decimal first).mpr digit)]
  refine boundary.convertsAt ?_ written
  rw [here, List.cons_append, Lexeme.takeWhile_append_drop]

/-- The numerals of a number: its digits, behind a mark unless the radix is ten. -/
inductive Lexeme.Number.Spells (number : Nat) : Radix → List Char → List Char → Prop where
  | marked {radix : Radix} {mark : Char} {digits : List Char} : mark ∈ marks radix →
      Numeral.Writes radix digits number → Spells number radix digits ('0' :: mark :: digits)
  | plain {digits : List Char} : Numeral.Writes .decimal digits number →
      Spells number .decimal digits digits

theorem Lexeme.Number.Spells.written {number : Nat} (spells : Spells number radix digits text) :
    Written [] radix digits text ∧ Numeral.value radix digits = number := by
  cases spells with
  | marked announced writes =>
      obtain ⟨nonempty, listed, value⟩ := writes.value_eq
      exact ⟨.marked announced nonempty ⟨listed, nofun⟩, value⟩
  | plain writes =>
      obtain ⟨nonempty, listed, value⟩ := writes.value_eq
      exact ⟨.plain nonempty ⟨listed, nofun⟩ fun _ => nofun, value⟩

/-- A numeral of a number in range is scanned to that number, and to nothing else. -/
theorem Lexeme.Number.Spells.scan {number : Nat} (spells : Spells number radix digits text)
    (small : number ≤ largestInteger)
    (short : radix = .decimal → digits.length ≤ Lexeme.digitLimit) :
    ∃ stream, scan policy text = .ok stream ∧
      stream.toList = [⟨.integer, some (.number number), 0, text.length, 1⟩,
        ⟨.endOfInput, none, text.length, text.length, 1⟩] := by
  obtain ⟨written, rfl⟩ := spells.written
  have oneLine : text.count '\n' = 0 := by
    refine List.count_eq_zero.mpr fun member => ?_
    exact absurd (written.not_beginsLayout member) (by decide)
  obtain ⟨first, more, rfl, _⟩ := written.exists_digit
  have read : Lexeme.readUnder policy first (more ++ []) = .ok _ :=
    Fits.readUnder ⟨short, small⟩ written
  rw [List.append_nil] at read
  obtain ⟨stream, scanned, listed⟩ := Lexeme.scan_alone ⟨first, more, _⟩ read rfl
  rw [Lexeme.text, oneLine] at listed
  exact ⟨stream, scanned, listed⟩

theorem range_of_mem_tokens {token : Token} (member : token ∈ (lex policy source).tokens)
    (isInteger : token.kind = .integer) :
    ∃ number : Nat, number ≤ largestInteger ∧ token.payload = some (.number number) := by
  obtain ⟨rest, _, cut, _⟩ := Lexeme.exists_cut_of_lex policy source
  cases cut.spellable member with
  | name isName => simp [isInteger] at isName
  | @integer value _ payload nonneg small =>
      obtain ⟨number, rfl⟩ := Int.eq_ofNat_of_zero_le nonneg
      exact ⟨number, Int.ofNat_le.mp small, payload⟩
  | string isString => simp [isInteger] at isString
  | plain plain _ => simp [isInteger] at plain

/-- At every boundary with a digit an integer literal begins. Behind a zero and a mark of a radix it
needs digits of that radix, and otherwise its digits are decimal. It goes up to the end of them and
becomes a token with their positional value, unless that is out of range or a decimal run is too
long. So every number in range is scanned from each of its numerals, and no other is emitted. -/
theorem integer_value (policy : UnknownPolicy) :
    (∀ source start radix mark rest, Boundary policy source start →
      source.drop start = '0' :: mark :: rest → mark ∈ marks radix →
        (rest.takeWhile radix.isDigit = [] → scan policy source = .error
          ⟨.fault (.invalidNumber (String.ofList ['0', mark]) (.missingDigits radix)), start,
            lineAt source start⟩) ∧
        (rest.takeWhile radix.isDigit ≠ [] → ConvertsAt policy source start radix
          (rest.takeWhile radix.isDigit) ('0' :: mark :: rest.takeWhile radix.isDigit))) ∧
    (∀ source start first rest, Boundary policy source start →
      source.drop start = first :: rest → first ∈ Radix.decimal.digits →
        (∀ radix mark behind, first :: rest = '0' :: mark :: behind → mark ∉ marks radix) →
          ConvertsAt policy source start .decimal
            ((first :: rest).takeWhile Radix.decimal.isDigit)
            ((first :: rest).takeWhile Radix.decimal.isDigit)) ∧
    (∀ number radix digits text, Spells number radix digits text → number ≤ largestInteger →
      (radix = .decimal → digits.length ≤ Lexeme.digitLimit) →
        ∃ stream, scan policy text = .ok stream ∧
          stream.toList = [⟨.integer, some (.number number), 0, text.length, 1⟩,
            ⟨.endOfInput, none, text.length, text.length, 1⟩]) ∧
    ∀ source, ∀ token ∈ (lex policy source).tokens, token.kind = .integer →
      ∃ number : Nat, number ≤ largestInteger ∧ token.payload = some (.number number) := by
  refine ⟨?_, ?_, ?_, ?_⟩
  · intro source start radix mark rest boundary here announced
    exact boundary.marked_cases here announced
  · intro source start first rest boundary here digit unmarked
    exact boundary.convertsAt_decimal here digit unmarked
  · intro number radix digits text spells small short
    exact spells.scan small short
  · intro source token member isInteger
    exact range_of_mem_tokens member isInteger

/-- Letters of both cases behind a mark, a mark without digits, the least number out of range, and
a numeral with a zero in front. -/
theorem integer_value_hexadecimal :
    let source := ['+', '0', 'X', 'f', 'F', 'g']
    let unfinished := ['0', 'b', '2']
    let large := ['2', '1', '4', '7', '4', '8', '3', '6', '4', '8']
    (Boundary .skip source 1 ∧ source.drop 1 = '0' :: 'X' :: ['f', 'F', 'g'] ∧
      'X' ∈ marks .hexadecimal ∧ ['f', 'F', 'g'].takeWhile Radix.hexadecimal.isDigit = ['f', 'F'] ∧
      Emits .skip source 1 5 .integer (.number 255)) ∧
    (Boundary .skip unfinished 0 ∧ unfinished.drop 0 = '0' :: 'b' :: ['2'] ∧
      'b' ∈ marks .binary ∧ ['2'].takeWhile Radix.binary.isDigit = [] ∧
      scan .skip unfinished = .error
        ⟨.fault (.invalidNumber "0b" (.missingDigits .binary)), 0, lineAt unfinished 0⟩) ∧
    (Boundary .skip large 0 ∧ scan .skip large = .error
      ⟨.fault (.invalidNumber "2147483648" .outOfRange), 0, lineAt large 0⟩) ∧
    (Spells 10 .hexadecimal ['0', 'A'] ['0', 'x', '0', 'A'] ∧
      ∃ stream, scan .skip ['0', 'x', '0', 'A'] = .ok stream ∧
        stream.toList = [⟨.integer, some (.number 10), 0, 4, 1⟩,
          ⟨.endOfInput, none, 4, 4, 1⟩]) ∧
    (⟨.integer, some (.number 7), 0, 1, 1⟩ ∈ (lex .skip ['7']).tokens ∧
      ∃ number : Nat, number ≤ largestInteger ∧
        some (Payload.number 7) = some (.number number)) := by
  intro source unfinished large
  obtain ⟨marked, plain, spelled, ranged⟩ := integer_value .skip
  have boundary : Boundary .skip source 1 :=
    ⟨[⟨'+', [], .token .plus none⟩], ⟨_, by cbv⟩, rfl⟩
  have start : ∀ text, Boundary .skip text 0 := fun text => ⟨[], List.nil_prefix, rfl⟩
  have unmarked : ∀ radix mark behind, large = '0' :: mark :: behind → mark ∉ marks radix := by
    intro _ _ _ same
    exact absurd (List.cons.inj same).1 (by decide)
  have notDecimal : Radix.hexadecimal ≠ .decimal := by decide
  have spells : Spells 10 .hexadecimal ['0', 'A'] ['0', 'x', '0', 'A'] :=
    .marked (by decide) ⟨1, rfl⟩
  have read : (lex .skip ['7']).tokens = [⟨.integer, some (.number 7), 0, 1, 1⟩] := by cbv
  have listed : ⟨.integer, some (.number 7), 0, 1, 1⟩ ∈ (lex .skip ['7']).tokens := by
    rw [read]
    exact List.mem_cons_self
  refine ⟨⟨boundary, rfl, by decide, rfl, ?_⟩, ⟨start _, rfl, by decide, rfl, ?_⟩,
    ⟨start _, ?_⟩, ⟨spells, ?_⟩, listed, ?_⟩
  · exact ((marked source 1 .hexadecimal 'X' _ boundary rfl (by decide)).2 (by decide)).inRange
      (absurd · notDecimal) (by decide)
  · exact (marked unfinished 0 .binary 'b' _ (start _) rfl (by decide)).1 rfl
  · exact (plain large 0 '2' _ (start _) rfl (by decide) unmarked).outOfRange
      (fun _ => by decide) (by decide)
  · exact spelled 10 _ _ _ spells (by decide) (absurd · notDecimal)
  · exact ranged ['7'] _ listed rfl

end Literals

end LuneSyntax
