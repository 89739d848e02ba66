/-!
# UTF-8

Strict decoding of bytes into characters. Each lead byte fixes how many continuation bytes
follow and in which range each of them lies. Decoding stops at the first sequence that is not
well formed and reports the longest part of it that could still have begun a character.
-/

set_option autoImplicit false

namespace LuneSyntax.Utf8

inductive Reason where
  | startByte
  | continuationByte
  | endOfData
  deriving DecidableEq, Repr

def Reason.message : Reason → String
  | .startByte => "invalid start byte"
  | .continuationByte => "invalid continuation byte"
  | .endOfData => "unexpected end of data"

/-- The bytes that could not be decoded: their offset, their number, and the first of them. -/
structure Defect where
  offset : Nat
  length : Nat
  lead : UInt8
  reason : Reason
  deriving DecidableEq, Repr

/-- The ranges of the continuation bytes that a lead byte asks for. Bytes that never lead a
well-formed sequence have none. -/
def continuation? (lead : Nat) : Option (List (Nat × Nat)) :=
  if lead < 0x80 then some []
  else if lead < 0xC2 then none
  else if lead < 0xE0 then some [(0x80, 0xBF)]
  else if lead = 0xE0 then some [(0xA0, 0xBF), (0x80, 0xBF)]
  else if lead = 0xED then some [(0x80, 0x9F), (0x80, 0xBF)]
  else if lead < 0xF0 then some [(0x80, 0xBF), (0x80, 0xBF)]
  else if lead = 0xF0 then some [(0x90, 0xBF), (0x80, 0xBF), (0x80, 0xBF)]
  else if lead < 0xF4 then some [(0x80, 0xBF), (0x80, 0xBF), (0x80, 0xBF)]
  else if lead = 0xF4 then some [(0x80, 0x8F), (0x80, 0xBF), (0x80, 0xBF)]
  else none

/-- What of the code point a lead byte holds, given the number of bytes that continue it. -/
def leadBits (lead continuations : Nat) : Nat :=
  match continuations with
  | 0 => lead
  | 1 => lead % 0x20
  | 2 => lead % 0x10
  | _ => lead % 0x08

/-- Reads one continuation byte for each range, six bits from each. On failure the number of
bytes that were accepted is returned with the reason. -/
def readContinuation (bits : Nat) :
    List (Nat × Nat) → List UInt8 → Except (Nat × Reason) (Nat × List UInt8)
  | [], bytes => .ok (bits, bytes)
  | _ :: _, [] => .error (0, .endOfData)
  | range :: ranges, byte :: bytes =>
    if range.1 ≤ byte.toNat ∧ byte.toNat ≤ range.2 then
      match readContinuation (0x40 * bits + byte.toNat % 0x40) ranges bytes with
      | .ok read => .ok read
      | .error (accepted, reason) => .error (accepted + 1, reason)
    else .error (0, .continuationByte)

/-- The character at the head of the bytes and what follows it, or how many of the bytes are
at fault and why. -/
def next (lead : UInt8) (bytes : List UInt8) : Except (Nat × Reason) (Char × List UInt8) :=
  match continuation? lead.toNat with
  | none => .error (1, .startByte)
  | some ranges =>
    match readContinuation (leadBits lead.toNat ranges.length) ranges bytes with
    | .ok (codePoint, rest) => .ok (Char.ofNat codePoint, rest)
    | .error (accepted, reason) => .error (accepted + 1, reason)

theorem length_le_of_readContinuation {bits codePoint : Nat} {ranges : List (Nat × Nat)}
    {bytes rest : List UInt8} (read : readContinuation bits ranges bytes = .ok (codePoint, rest)) :
    rest.length ≤ bytes.length := by
  fun_induction readContinuation bits ranges bytes with
  | case1 => cases read; exact Nat.le_refl _
  | case2 => cases read
  | case3 bits range ranges byte bytes _ result equal ih =>
    cases read
    exact Nat.le_succ_of_le (ih equal)
  | case4 => cases read
  | case5 => cases read

theorem length_le_of_next {lead : UInt8} {character : Char} {bytes rest : List UInt8}
    (read : next lead bytes = .ok (character, rest)) : rest.length ≤ bytes.length := by
  unfold next at read
  split at read
  · cases read
  · split at read
    · rename_i equal
      cases read
      exact length_le_of_readContinuation equal
    · cases read

/-- The characters of bytes that begin at an offset of a file. -/
def decodeFrom (offset : Nat) : List UInt8 → Except Defect (List Char)
  | [] => .ok []
  | lead :: bytes =>
    match read : next lead bytes with
    | .error (length, reason) => .error ⟨offset, length, lead, reason⟩
    | .ok (character, rest) =>
      have := length_le_of_next read
      match decodeFrom (offset + 1 + (bytes.length - rest.length)) rest with
      | .ok characters => .ok (character :: characters)
      | .error defect => .error defect
termination_by bytes => bytes.length
decreasing_by
  simp only [List.length_cons]
  omega

/-- The characters of a file, or the first bytes that are not UTF-8. -/
def decode (bytes : List UInt8) : Except Defect (List Char) :=
  decodeFrom 0 bytes

def encode (text : List Char) : List UInt8 :=
  text.flatMap String.utf8EncodeChar

end LuneSyntax.Utf8
