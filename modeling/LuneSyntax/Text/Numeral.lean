/-!
# Numerals

The three radices of integer literals, the digits each one admits, and the number that a run of
digits stands for. Numbers are written in base ten, and in base sixteen with a least width. In base
ten only numbers of limited length are read and written.
-/

set_option autoImplicit false

namespace LuneSyntax

/-- The base in which an integer literal is written. -/
inductive Radix where
  | binary
  | decimal
  | hexadecimal
  deriving DecidableEq, Repr

namespace Radix

def base : Radix → Nat
  | .binary => 2
  | .decimal => 10
  | .hexadecimal => 16

def name : Radix → String
  | .binary => "binary"
  | .decimal => "decimal"
  | .hexadecimal => "hexadecimal"

/-- Every character that is a digit of the radix. Both letter cases are digits of base sixteen. -/
def digits : Radix → List Char
  | .binary => ['0', '1']
  | .decimal => ['0', '1', '2', '3', '4', '5', '6', '7', '8', '9']
  | .hexadecimal =>
    ['0', '1', '2', '3', '4', '5', '6', '7', '8', '9',
     'a', 'b', 'c', 'd', 'e', 'f', 'A', 'B', 'C', 'D', 'E', 'F']

def isDigit (radix : Radix) (character : Char) : Bool :=
  radix.digits.contains character

end Radix

namespace Numeral

/-- The number that one digit stands for. Letters continue after nine in either case. -/
def digitValue (digit : Char) : Nat :=
  if digit ≤ '9' then digit.toNat - '0'.toNat
  else if digit ≤ 'F' then digit.toNat - 'A'.toNat + 10
  else digit.toNat - 'a'.toNat + 10

/-- The positional value of a run of digits, the most significant digit first. -/
def value (radix : Radix) (digits : List Char) : Nat :=
  digits.foldl (fun total digit => radix.base * total + digitValue digit) 0

@[simp]
theorem value_nil (radix : Radix) : value radix [] = 0 := rfl

/-- A further digit shifts the value by one place. -/
theorem value_append_singleton (radix : Radix) (digits : List Char) (digit : Char) :
    value radix (digits ++ [digit]) = radix.base * value radix digits + digitValue digit := by
  simp [value]

/-- An integer in base ten, with a minus sign when it is negative. -/
def decimal (number : Int) : String :=
  toString number

/-- The most digits with which a number in base ten is read or written. -/
def digitLimit : Nat := 4300

/-- The least number with more than so many digits. -/
@[irreducible]
def leastBeyond (digits : Nat) : Nat := Nat.pow 10 digits

def leastOverlong : Nat := leastBeyond digitLimit

/-- Numbers that are short enough to be written in base ten. The sign does not count. -/
def IsWritable (number : Int) : Prop :=
  number.natAbs < leastOverlong

instance (number : Int) : Decidable (IsWritable number) :=
  Nat.decLt _ _

theorem leastBeyond_le {digits more : Nat} (few : digits ≤ more) :
    leastBeyond digits ≤ leastBeyond more := by
  rw [leastBeyond, leastBeyond]
  exact Nat.pow_le_pow_right (by decide) few

theorem isWritable_of_lt_pow {number : Int} {digits : Nat} (few : digits ≤ digitLimit)
    (small : number.natAbs < Nat.pow 10 digits) : IsWritable number := by
  rw [← leastBeyond] at small
  exact Nat.lt_of_lt_of_le small (leastBeyond_le few)

theorem isWritable_natCast_iff {number : Nat} : IsWritable number ↔ number < leastOverlong := by
  rw [IsWritable, Int.natAbs_natCast]

theorem not_isWritable_leastOverlong : ¬ IsWritable leastOverlong := by
  rw [isWritable_natCast_iff]
  exact Nat.lt_irrefl leastOverlong

/-- A text in which some numbers are written. There is none if one of them is too long. -/
def written? (numbers : List Int) (text : String) : Option String :=
  if ∀ number ∈ numbers, IsWritable number then some text else none

/-- The message when a number is too long to be written. -/
def overlongMessage : String :=
  "Exceeds the limit (" ++ decimal digitLimit ++
    " digits) for integer string conversion; use sys.set_int_max_str_digits() to increase the limit"

/-- A number in base sixteen with lower-case digits, filled with zeros up to a width. -/
def hexadecimal (width number : Nat) : List Char :=
  (Nat.toDigits 16 number).leftpad width '0'

end Numeral

end LuneSyntax
