import Mathlib.Data.List.Basic

/-!
Contract: the two alphabet tables of `invoice/src/base58.rs` and what a lookup in them
gives.

Owns: `BASE58_CHARS`, `BASE58_DIGITS`, the indexing `charOf` that `format_iter` makes
for a digit in range, the checked lookup `digitOf` that `decode` makes for each byte,
and the fact that the two tables are inverse on the 58 digits.

Does not own: the conversions, which cite `digitOf_charOf`, `digitOf_eq_some` and
`digitOf_eq_none_iff` and never evaluate a table.
-/

namespace BpStd.Invoice.Base58

theorem uint8_toNat_lt (byte : UInt8) : byte.toNat < 256 := byte.toBitVec.isLt

@[simp] theorem uint8_ofNat_toNat (byte : UInt8) : UInt8.ofNat byte.toNat = byte :=
  UInt8.toNat.inj (UInt8.toNat_ofNat_of_lt (uint8_toNat_lt byte))

theorem map_toNat_map_ofNat {values : List Nat} (small : ∀ value ∈ values, value < 256) :
    (values.map UInt8.ofNat).map UInt8.toNat = values := by
  rw [List.map_map]
  conv_rhs => rw [← List.map_id values]
  exact List.map_congr_left fun value member => UInt8.toNat_ofNat_of_lt (small value member)

@[simp] theorem map_ofNat_map_toNat (bytes : List UInt8) :
    (bytes.map UInt8.toNat).map UInt8.ofNat = bytes := by
  induction bytes with
  | nil => rfl
  | cons byte rest inductionHypothesis => simp [inductionHypothesis]

/-- `BASE58_CHARS`. -/
def base58Chars : List UInt8 :=
  "123456789ABCDEFGHJKLMNPQRSTUVWXYZabcdefghijkmnopqrstuvwxyz".toList.map
    fun char => char.toNat.toUInt8

/-- `BASE58_DIGITS`: the digit of each ASCII byte, `none` off the alphabet. -/
def base58Digits : List (Option UInt8) := [
  none,     none,     none,     none,     none,     none,     none,     none,
  none,     none,     none,     none,     none,     none,     none,     none,
  none,     none,     none,     none,     none,     none,     none,     none,
  none,     none,     none,     none,     none,     none,     none,     none,
  none,     none,     none,     none,     none,     none,     none,     none,
  none,     none,     none,     none,     none,     none,     none,     none,
  none,     some 0,   some 1,   some 2,   some 3,   some 4,   some 5,   some 6,
  some 7,   some 8,   none,     none,     none,     none,     none,     none,
  none,     some 9,   some 10,  some 11,  some 12,  some 13,  some 14,  some 15,
  some 16,  none,     some 17,  some 18,  some 19,  some 20,  some 21,  none,
  some 22,  some 23,  some 24,  some 25,  some 26,  some 27,  some 28,  some 29,
  some 30,  some 31,  some 32,  none,     none,     none,     none,     none,
  none,     some 33,  some 34,  some 35,  some 36,  some 37,  some 38,  some 39,
  some 40,  some 41,  some 42,  some 43,  none,     some 44,  some 45,  some 46,
  some 47,  some 48,  some 49,  some 50,  some 51,  some 52,  some 53,  some 54,
  some 55,  some 56,  some 57,  none,     none,     none,     none,     none]

/-- `BASE58_CHARS[digit]`, for a digit known to be in range. -/
def charOf (digit : Nat) : UInt8 := base58Chars.getD digit 0

/-- The lookup `decode` makes for each byte: the range check against
`BASE58_DIGITS.len()`, then the table entry; `none` stands for both `BadByte` returns. -/
def digitOf (d58 : UInt8) : Option UInt8 :=
  if base58Digits.length ≤ d58.toNat then none else base58Digits.getD d58.toNat none

/-! ## The tables are inverse on the digits -/

theorem base58Chars_length : base58Chars.length = 58 := rfl

theorem base58Digits_length : base58Digits.length = 128 := rfl

set_option maxRecDepth 20000 in
private theorem digitOf_charOf_table :
    ∀ digit : Fin 58, digitOf (charOf digit) = some (UInt8.ofNat digit) := by
  decide

set_option maxRecDepth 20000 in
private theorem base58Digits_table : ∀ index : Fin 128, (base58Digits.getD index none).all
    (fun digit => digit.toNat < 58 && charOf digit.toNat == UInt8.ofNat index) = true := by
  decide

theorem digitOf_charOf {digit : Nat} (digitLt : digit < 58) :
    digitOf (charOf digit) = some (UInt8.ofNat digit) :=
  digitOf_charOf_table ⟨digit, digitLt⟩

theorem digitOf_eq_some {byte digit : UInt8} (found : digitOf byte = some digit) :
    digit.toNat < 58 ∧ charOf digit.toNat = byte := by
  unfold digitOf at found
  split at found
  · cases found
  · rename_i inRange
    have entry : (base58Digits.getD byte.toNat none).all
        (fun digit => digit.toNat < 58 && charOf digit.toNat == UInt8.ofNat byte.toNat) = true :=
      base58Digits_table ⟨byte.toNat, by rw [base58Digits_length] at inRange; omega⟩
    rw [found] at entry
    simpa using entry

theorem charOf_mem {digit : Nat} (digitLt : digit < 58) : charOf digit ∈ base58Chars := by
  have inRange : digit < base58Chars.length := by rw [base58Chars_length]; exact digitLt
  rw [charOf, List.getD_eq_getElem?_getD, List.getElem?_eq_getElem inRange, Option.getD_some]
  exact List.getElem_mem _

theorem getElem?_base58Chars {digit : Nat} (digitLt : digit < 58) :
    base58Chars[digit]? = some (charOf digit) := by
  have inRange : digit < base58Chars.length := by rw [base58Chars_length]; exact digitLt
  rw [charOf, List.getD_eq_getElem?_getD, List.getElem?_eq_getElem inRange, Option.getD_some]

theorem mem_base58Chars {byte : UInt8} :
    byte ∈ base58Chars ↔ ∃ digit < 58, charOf digit = byte := by
  constructor
  · intro member
    obtain ⟨index, indexLt, entry⟩ := List.mem_iff_getElem.mp member
    refine ⟨index, by rwa [base58Chars_length] at indexLt, ?_⟩
    rw [charOf, List.getD_eq_getElem?_getD, List.getElem?_eq_getElem indexLt, Option.getD_some,
      entry]
  · rintro ⟨digit, digitLt, rfl⟩
    exact charOf_mem digitLt

theorem digitOf_eq_none_iff {byte : UInt8} : digitOf byte = none ↔ byte ∉ base58Chars := by
  rw [mem_base58Chars]
  constructor
  · rintro missing ⟨digit, digitLt, rfl⟩
    simp [digitOf_charOf digitLt] at missing
  · intro outside
    cases found : digitOf byte with
    | none => rfl
    | some digit =>
        obtain ⟨digitLt, charEq⟩ := digitOf_eq_some found
        exact absurd ⟨digit.toNat, digitLt, charEq⟩ outside

theorem charOf_inj {first second : Nat} (firstLt : first < 58) (secondLt : second < 58) :
    charOf first = charOf second ↔ first = second := by
  constructor
  · intro same
    have digits := (digitOf_charOf firstLt).symm.trans (same ▸ digitOf_charOf secondLt)
    have := congrArg UInt8.toNat (Option.some.inj digits)
    rwa [UInt8.toNat_ofNat_of_lt (show first < 256 by omega),
      UInt8.toNat_ofNat_of_lt (show second < 256 by omega)] at this
  · rintro rfl
    rfl

/-- A string over the alphabet is the characters of a digit list. -/
theorem exists_digits_of_forall_mem {text : List UInt8}
    (alphabet : ∀ byte ∈ text, byte ∈ base58Chars) :
    ∃ digits : List Nat, (∀ digit ∈ digits, digit < 58) ∧ digits.map charOf = text := by
  induction text with
  | nil => exact ⟨[], by simp, rfl⟩
  | cons byte rest inductionHypothesis =>
      obtain ⟨digit, digitLt, rfl⟩ := mem_base58Chars.mp (alphabet byte (by simp))
      obtain ⟨digits, small, rfl⟩ :=
        inductionHypothesis fun other member => alphabet other (by simp [member])
      exact ⟨digit :: digits, by simpa [digitLt] using small, rfl⟩

/-- A string with a byte outside the alphabet is the characters of a digit list, then the
first such byte, then the rest. -/
theorem exists_first_outside {text : List UInt8}
    (outside : ¬ ∀ byte ∈ text, byte ∈ base58Chars) :
    ∃ (digits : List Nat) (byte : UInt8) (rest : List UInt8), (∀ digit ∈ digits, digit < 58) ∧
      byte ∉ base58Chars ∧ text = digits.map charOf ++ byte :: rest := by
  induction text with
  | nil => simp at outside
  | cons first rest inductionHypothesis =>
      by_cases member : first ∈ base58Chars
      · obtain ⟨digit, digitLt, rfl⟩ := mem_base58Chars.mp member
        have restOutside : ¬ ∀ byte ∈ rest, byte ∈ base58Chars := fun all =>
          outside fun byte inText =>
            (List.mem_cons.mp inText).elim (fun same => same ▸ member) (all byte)
        obtain ⟨digits, byte, tail, small, byteOutside, rfl⟩ := inductionHypothesis restOutside
        exact ⟨digit :: digits, byte, tail,
          fun other inDigits =>
            (List.mem_cons.mp inDigits).elim (fun same => same ▸ digitLt) (small other),
          byteOutside, rfl⟩
      · exact ⟨[], first, rest, by simp, member, rfl⟩

end BpStd.Invoice.Base58
