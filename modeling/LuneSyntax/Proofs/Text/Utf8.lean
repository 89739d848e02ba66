import LuneSyntax.Text.Utf8
import Mathlib.Data.List.Forall2
import Mathlib.Order.Bounds.Defs

/-!
# UTF-8 decoded and encoded

Decoding inverts encoding. It accepts the encodings of texts and no other bytes, because the ranges
of the continuation bytes shut out what is too long, too large, or a surrogate. Other bytes are
refused behind the longest part of them that is an encoding.
-/

set_option autoImplicit false

namespace LuneSyntax.Utf8

/-! ## Continuation bytes -/

def InRange (range : Nat × Nat) (byte : UInt8) : Prop :=
  range.1 ≤ byte.toNat ∧ byte.toNat ≤ range.2

/-- The bits so far, followed by six bits from each of the bytes. -/
def gather (bits : Nat) : List UInt8 → Nat
  | [] => bits
  | byte :: bytes => gather (0x40 * bits + byte.toNat % 0x40) bytes

theorem exists_taken_of_readContinuation {bits codePoint : Nat} {ranges : List (Nat × Nat)}
    {bytes rest : List UInt8} (read : readContinuation bits ranges bytes = .ok (codePoint, rest)) :
    ∃ taken, bytes = taken ++ rest ∧ List.Forall₂ InRange ranges taken ∧
      gather bits taken = codePoint := by
  fun_induction readContinuation bits ranges bytes with
  | case1 =>
      cases read
      exact ⟨[], rfl, .nil, rfl⟩
  | case2 => cases read
  | case3 bits range ranges byte bytes inside result equal ih =>
      cases read
      obtain ⟨taken, rfl, each, gathered⟩ := ih equal
      exact ⟨byte :: taken, rfl, .cons inside each, gathered⟩
  | case4 => cases read
  | case5 => cases read

theorem readContinuation_append {ranges : List (Nat × Nat)} {taken : List UInt8}
    (each : List.Forall₂ InRange ranges taken) (bits : Nat) (rest : List UInt8) :
    readContinuation bits ranges (taken ++ rest) = .ok (gather bits taken, rest) := by
  induction each generalizing bits with
  | nil => rfl
  | @cons range byte ranges taken inside _ ih =>
      have accepted : range.1 ≤ byte.toNat ∧ byte.toNat ≤ range.2 := inside
      rw [List.cons_append, readContinuation, if_pos accepted, ih]
      rfl

/-! ## Lead bytes -/

/-- The four forms of a character, told apart by the number of bytes that continue it. The second
byte has a range of its own where the first leaves room for what is no character. -/
inductive Leads : Nat → List (Nat × Nat) → Prop where
  | one {lead : Nat} : lead < 0x80 → Leads lead []
  | two {lead : Nat} : 0xC2 ≤ lead → lead < 0xE0 → Leads lead [(0x80, 0xBF)]
  | three {lead low high : Nat} : 0xE0 ≤ lead → lead < 0xF0 →
      lead = 0xE0 ∧ low = 0xA0 ∨ lead ≠ 0xE0 ∧ low = 0x80 →
      lead = 0xED ∧ high = 0x9F ∨ lead ≠ 0xED ∧ high = 0xBF →
      Leads lead [(low, high), (0x80, 0xBF)]
  | four {lead low high : Nat} : 0xF0 ≤ lead → lead ≤ 0xF4 →
      lead = 0xF0 ∧ low = 0x90 ∨ lead ≠ 0xF0 ∧ low = 0x80 →
      lead = 0xF4 ∧ high = 0x8F ∨ lead ≠ 0xF4 ∧ high = 0xBF →
      Leads lead [(low, high), (0x80, 0xBF), (0x80, 0xBF)]

theorem leads_of_continuation? {lead : Nat} {ranges : List (Nat × Nat)}
    (asked : continuation? lead = some ranges) : Leads lead ranges := by
  revert asked
  fun_cases Utf8.continuation? lead with
  | case1 ascii => intro asked; cases asked; exact .one ascii
  | case2 => intro asked; cases asked
  | case3 _ lower upper => intro asked; cases asked; exact .two (by omega) upper
  | case4 => intro asked; cases asked; exact .three (by omega) (by omega) (by omega) (by omega)
  | case5 => intro asked; cases asked; exact .three (by omega) (by omega) (by omega) (by omega)
  | case6 => intro asked; cases asked; exact .three (by omega) (by omega) (by omega) (by omega)
  | case7 => intro asked; cases asked; exact .four (by omega) (by omega) (by omega) (by omega)
  | case8 => intro asked; cases asked; exact .four (by omega) (by omega) (by omega) (by omega)
  | case9 => intro asked; cases asked; exact .four (by omega) (by omega) (by omega) (by omega)
  | case10 => intro asked; cases asked

theorem Leads.continuation? {lead : Nat} {ranges : List (Nat × Nat)} (leads : Leads lead ranges) :
    continuation? lead = some ranges := by
  cases leads <;> grind [Utf8.continuation?]

/-! ## Characters -/

theorem ofNat_eq_of_toNat {number : Nat} {byte : UInt8} (same : number = byte.toNat) :
    UInt8.ofNat number = byte := by
  rw [same, UInt8.ofNat_toNat]

/-- The code point that the bytes hold is one of a character, and the character has these bytes. -/
theorem encodeChar_of_leads {lead : UInt8} {ranges : List (Nat × Nat)} {taken : List UInt8}
    (leads : Leads lead.toNat ranges) (each : List.Forall₂ InRange ranges taken) :
    String.utf8EncodeChar (Char.ofNat (gather (leadBits lead.toNat ranges.length) taken)) =
      lead :: taken := by
  have encoded : ∀ {codePoint : Nat}, codePoint.isValidChar →
      (Char.ofNat codePoint).val.toNat = codePoint := by
    intro codePoint valid
    rw [Char.ofNat, dif_pos valid]
    rfl
  cases leads with
  | one ascii =>
      cases each
      have valid : lead.toNat.isValidChar := .inl (by omega)
      simp only [List.length_nil, leadBits, gather, String.utf8EncodeChar, encoded valid]
      rw [if_pos (by omega), UInt8.ofNat_toNat]
  | two lower upper =>
      obtain _ | @⟨_, second, _, _, ⟨_, _⟩, ⟨⟩⟩ := each
      have valid : (0x40 * (lead.toNat % 0x20) + second.toNat % 0x40).isValidChar :=
        .inl (by omega)
      simp only [List.length_cons, List.length_nil, leadBits, gather, String.utf8EncodeChar,
        encoded valid]
      rw [if_neg (by omega), if_pos (by omega)]
      simp only [List.cons.injEq, and_true]
      exact ⟨ofNat_eq_of_toNat (by omega), ofNat_eq_of_toNat (by omega)⟩
  | three lower upper low high =>
      obtain _ | @⟨_, second, _, _, ⟨_, _⟩, _ | @⟨_, third, _, _, ⟨_, _⟩, ⟨⟩⟩⟩ := each
      have valid : (0x40 * (0x40 * (lead.toNat % 0x10) + second.toNat % 0x40) +
          third.toNat % 0x40).isValidChar := by
        unfold Nat.isValidChar
        omega
      simp only [List.length_cons, List.length_nil, leadBits, gather, String.utf8EncodeChar,
        encoded valid]
      rw [if_neg (by omega), if_neg (by omega), if_pos (by omega)]
      simp only [List.cons.injEq, and_true]
      exact ⟨ofNat_eq_of_toNat (by omega), ofNat_eq_of_toNat (by omega),
        ofNat_eq_of_toNat (by omega)⟩
  | four lower upper low high =>
      obtain _ | @⟨_, second, _, _, ⟨_, _⟩, _ | @⟨_, third, _, _, ⟨_, _⟩,
        _ | @⟨_, fourth, _, _, ⟨_, _⟩, ⟨⟩⟩⟩⟩ := each
      have valid : (0x40 * (0x40 * (0x40 * (lead.toNat % 0x08) + second.toNat % 0x40) +
          third.toNat % 0x40) + fourth.toNat % 0x40).isValidChar := by
        unfold Nat.isValidChar
        omega
      simp only [List.length_cons, List.length_nil, leadBits, gather, String.utf8EncodeChar,
        encoded valid]
      rw [if_neg (by omega), if_neg (by omega), if_neg (by omega)]
      simp only [List.cons.injEq, and_true]
      exact ⟨ofNat_eq_of_toNat (by omega), ofNat_eq_of_toNat (by omega),
        ofNat_eq_of_toNat (by omega), ofNat_eq_of_toNat (by omega)⟩

theorem exists_bound (lead special there elsewhere : Nat) :
    ∃ bound, lead = special ∧ bound = there ∨ lead ≠ special ∧ bound = elsewhere := by
  by_cases same : lead = special
  · exact ⟨there, .inl ⟨same, rfl⟩⟩
  · exact ⟨elsewhere, .inr ⟨same, rfl⟩⟩

/-- The bytes of a character are a lead byte and those it asks for, and they hold its code point. -/
theorem exists_leads_of_encodeChar (character : Char) :
    ∃ lead ranges taken, String.utf8EncodeChar character = lead :: taken ∧
      Leads lead.toNat ranges ∧ List.Forall₂ InRange ranges taken ∧
      gather (leadBits lead.toNat ranges.length) taken = character.toNat := by
  have valid : character.toNat.isValidChar := character.valid
  unfold Nat.isValidChar at valid
  unfold String.utf8EncodeChar
  rw [Char.toNat_val]
  generalize character.toNat = codePoint at valid
  simp only
  -- The second of three or four bytes has a range that depends on the first of them.
  split
  · refine ⟨_, _, _, rfl, .one ?_, .nil, ?_⟩
    all_goals
      simp only [UInt8.toNat_ofNat', leadBits, gather, List.length_nil]
      omega
  split
  · refine ⟨_, _, _, rfl, .two ?_ ?_, .cons ⟨?_, ?_⟩ .nil, ?_⟩
    all_goals
      simp only [UInt8.toNat_ofNat', leadBits, gather, List.length_cons, List.length_nil]
      omega
  split
  · have bound := exists_bound (UInt8.ofNat (codePoint / 4096 % 16 + 224)).toNat
    obtain ⟨low, isLow⟩ := bound 0xE0 0xA0 0x80
    obtain ⟨high, isHigh⟩ := bound 0xED 0x9F 0xBF
    clear bound
    refine ⟨_, _, _, rfl, .three ?_ ?_ isLow isHigh,
      .cons ⟨?_, ?_⟩ (.cons ⟨?_, ?_⟩ .nil), ?_⟩
    all_goals
      simp only [UInt8.toNat_ofNat', leadBits, gather, List.length_cons, List.length_nil] at *
      omega
  · have bound := exists_bound (UInt8.ofNat (codePoint / 262144 % 8 + 240)).toNat
    obtain ⟨low, isLow⟩ := bound 0xF0 0x90 0x80
    obtain ⟨high, isHigh⟩ := bound 0xF4 0x8F 0xBF
    clear bound
    refine ⟨_, _, _, rfl, .four ?_ ?_ isLow isHigh,
      .cons ⟨?_, ?_⟩ (.cons ⟨?_, ?_⟩ (.cons ⟨?_, ?_⟩ .nil)), ?_⟩
    all_goals
      simp only [UInt8.toNat_ofNat', leadBits, gather, List.length_cons, List.length_nil] at *
      omega

theorem encodeChar_of_next {lead : UInt8} {bytes rest : List UInt8} {character : Char}
    (read : next lead bytes = .ok (character, rest)) :
    lead :: bytes = String.utf8EncodeChar character ++ rest := by
  unfold next at read
  cases asked : continuation? lead.toNat with
  | none =>
      rw [asked] at read
      cases read
  | some ranges =>
      rw [asked] at read
      simp only at read
      split at read
      · rename_i continued
        cases read
        obtain ⟨taken, rfl, each, rfl⟩ := exists_taken_of_readContinuation continued
        rw [encodeChar_of_leads (leads_of_continuation? asked) each]
        rfl
      · cases read

theorem next_encodeChar (character : Char) (rest : List UInt8) :
    ∃ lead taken, String.utf8EncodeChar character = lead :: taken ∧
      next lead (taken ++ rest) = .ok (character, rest) := by
  obtain ⟨lead, ranges, taken, encoded, leads, each, gathered⟩ :=
    exists_leads_of_encodeChar character
  refine ⟨lead, taken, encoded, ?_⟩
  have continued := readContinuation_append each (leadBits lead.toNat ranges.length) rest
  simp only [next, leads.continuation?, continued, gathered, Char.ofNat_toNat]

/-! ## Files -/

theorem encode_cons (character : Char) (text : List Char) :
    encode (character :: text) = String.utf8EncodeChar character ++ encode text :=
  List.flatMap_cons

theorem encode_of_decodeFrom {offset : Nat} {bytes : List UInt8} {text : List Char}
    (decoded : decodeFrom offset bytes = .ok text) : bytes = encode text := by
  fun_induction decodeFrom offset bytes generalizing text with
  | case1 => cases decoded; rfl
  | case2 => cases decoded
  | case3 offset lead bytes character rest read _ characters equal ih =>
      cases decoded
      rw [encodeChar_of_next read, ih equal, encode_cons]
  | case4 => cases decoded

theorem decodeFrom_encode (offset : Nat) (text : List Char) :
    decodeFrom offset (encode text) = .ok text := by
  induction text generalizing offset with
  | nil => rw [encode, List.flatMap_nil, decodeFrom]
  | cons character text ih =>
      obtain ⟨lead, taken, encoded, read⟩ := next_encodeChar character (encode text)
      have bytes : encode (character :: text) = lead :: (taken ++ encode text) := by
        rw [encode_cons, encoded]
        rfl
      rw [bytes, decodeFrom]
      split
      · rename_i failed
        rw [read] at failed
        cases failed
      · rename_i found
        rw [read] at found
        cases found
        rw [ih]

/-- A file decodes to a text exactly if it is the encoding of the text. -/
theorem decode_eq_ok_iff {bytes : List UInt8} {text : List Char} :
    decode bytes = .ok text ↔ bytes = encode text := by
  constructor
  · exact encode_of_decodeFrom
  · rintro rfl
    exact decodeFrom_encode 0 text

theorem decode_eq_error_iff {bytes : List UInt8} :
    (∃ defect, decode bytes = .error defect) ↔ ∀ text, bytes ≠ encode text := by
  constructor
  · rintro ⟨defect, failed⟩ text encoded
    rw [decode_eq_ok_iff.mpr encoded] at failed
    cases failed
  · intro different
    cases decoded : decode bytes with
    | error defect => exact ⟨defect, rfl⟩
    | ok text => exact absurd (decode_eq_ok_iff.mp decoded) (different text)

/-! ## Defects -/

theorem length_of_next {lead : UInt8} {bytes rest : List UInt8} {character : Char}
    (read : next lead bytes = .ok (character, rest)) :
    (String.utf8EncodeChar character).length = 1 + (bytes.length - rest.length) := by
  have whole := congrArg List.length (encodeChar_of_next read)
  rw [List.length_cons, List.length_append] at whole
  have shorter := length_le_of_next read
  omega

/-- What lies in front of a defect is the encoding of a text. -/
theorem exists_prefix_of_decodeFrom {offset : Nat} {bytes : List UInt8} {defect : Defect}
    (failed : decodeFrom offset bytes = .error defect) :
    ∃ text, encode text <+: bytes ∧ defect.offset = offset + (encode text).length := by
  fun_induction decodeFrom offset bytes generalizing defect with
  | case1 => cases failed
  | case2 =>
      cases failed
      exact ⟨[], List.nil_prefix, rfl⟩
  | case3 => cases failed
  | case4 offset lead bytes character rest read _ found equal ih =>
      cases failed
      obtain ⟨text, before, reached⟩ := ih equal
      refine ⟨character :: text, ?_, ?_⟩
      · rw [encode_cons, encodeChar_of_next read]
        exact (List.prefix_append_right_inj _).mpr before
      · rw [reached, encode_cons, List.length_append, length_of_next read]
        omega

theorem length_le_of_decodeFrom {offset : Nat} {bytes : List UInt8} {defect : Defect}
    (failed : decodeFrom offset bytes = .error defect) {text : List Char}
    (before : encode text <+: bytes) : offset + (encode text).length ≤ defect.offset := by
  induction text generalizing offset bytes with
  | nil =>
      obtain ⟨_, _, reached⟩ := exists_prefix_of_decodeFrom failed
      rw [reached]
      exact Nat.le_add_right _ _
  | cons character text ih =>
      obtain ⟨rest, rfl⟩ := before
      obtain ⟨lead, taken, encoded, read⟩ := next_encodeChar character (encode text ++ rest)
      rw [encode_cons, encoded, List.append_assoc, List.cons_append, decodeFrom] at failed
      have length := length_of_next read
      split at failed
      · rename_i other
        rw [read] at other
        cases other
      · rename_i other
        rw [read] at other
        cases other
        split at failed
        · cases failed
        · rename_i behind
          cases failed
          have bound := ih behind (List.prefix_append _ _)
          rw [encode_cons, List.length_append]
          omega

/-- A defect lies behind the longest part in front that is the encoding of a text. -/
theorem isGreatest_offset_of_decode {bytes : List UInt8} {defect : Defect}
    (failed : decode bytes = .error defect) :
    IsGreatest {length | ∃ text, encode text <+: bytes ∧ (encode text).length = length}
      defect.offset := by
  constructor
  · obtain ⟨text, before, reached⟩ := exists_prefix_of_decodeFrom failed
    rw [Nat.zero_add] at reached
    exact ⟨text, before, reached.symm⟩
  · rintro length ⟨text, before, rfl⟩
    have bound := length_le_of_decodeFrom failed before
    rwa [Nat.zero_add] at bound

end LuneSyntax.Utf8
