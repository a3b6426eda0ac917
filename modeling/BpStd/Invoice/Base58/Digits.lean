import Mathlib.Data.Nat.Digits

/-!
Contract: the positional arithmetic under both base58 conversions.

Owns: `bigEndianValue`, the number a most-significant-first digit list denotes;
the canonical split of a digit list into its leading zeros and the digits of its
value; and the sizing bound `58ⁿ < 256^(1 + ⌊11n/15⌋)` behind `decode`'s scratch
buffer.

Does not own: the loops, which live with `encode` and `decode` and are proved
against these facts.
-/

namespace BpStd.Invoice.Base58

/-- The number a digit list denotes, most significant digit first. -/
def bigEndianValue (base : Nat) (digits : List Nat) : Nat := Nat.ofDigits base digits.reverse

section Value

variable {base : Nat}

@[simp] theorem bigEndianValue_nil : bigEndianValue base [] = 0 := rfl

theorem bigEndianValue_append_singleton (digits : List Nat) (digit : Nat) :
    bigEndianValue base (digits ++ [digit]) = bigEndianValue base digits * base + digit := by
  simp [bigEndianValue, Nat.ofDigits_cons, Nat.mul_comm, Nat.add_comm]

theorem bigEndianValue_cons (digit : Nat) (digits : List Nat) :
    bigEndianValue base (digit :: digits) =
      digit * base ^ digits.length + bigEndianValue base digits := by
  simp [bigEndianValue, Nat.ofDigits_append, Nat.mul_comm, Nat.add_comm]

theorem bigEndianValue_lt (baseGt : 1 < base) {digits : List Nat}
    (small : ∀ digit ∈ digits, digit < base) :
    bigEndianValue base digits < base ^ digits.length := by
  have bound := @Nat.ofDigits_lt_base_pow_length base digits.reverse baseGt
    (fun digit member => small digit (List.mem_reverse.mp member))
  simpa [bigEndianValue] using bound

@[simp] theorem bigEndianValue_replicate_zero_append (count : Nat) (digits : List Nat) :
    bigEndianValue base (List.replicate count 0 ++ digits) = bigEndianValue base digits := by
  induction count with
  | zero => rfl
  | succ count inductionHypothesis =>
      rw [List.replicate_succ, List.cons_append, bigEndianValue_cons, inductionHypothesis]
      simp

@[simp] theorem bigEndianValue_replicate_zero (count : Nat) :
    bigEndianValue base (List.replicate count 0) = 0 := by
  simpa using @bigEndianValue_replicate_zero_append base count []

@[simp] theorem bigEndianValue_digits_reverse (value : Nat) :
    bigEndianValue base (Nat.digits base value).reverse = value := by
  rw [bigEndianValue, List.reverse_reverse, Nat.ofDigits_digits]

end Value

/-! ## Canonical digit lists -/

section Canonical

variable {base : Nat}

/-- Dropping the leading zeros of a digit list leaves the digits of its value. -/
theorem dropWhile_zero_eq_digits (baseGt : 1 < base) {digits : List Nat}
    (small : ∀ digit ∈ digits, digit < base) :
    digits.dropWhile (· = 0) = (Nat.digits base (bigEndianValue base digits)).reverse := by
  induction digits with
  | nil => simp [bigEndianValue]
  | cons digit rest inductionHypothesis =>
      by_cases zero : digit = 0
      · subst zero
        rw [List.dropWhile_cons_of_pos (by simp),
          inductionHypothesis (fun d member => small d (List.mem_cons_of_mem _ member))]
        simp [bigEndianValue_cons]
      · rw [List.dropWhile_cons_of_neg (by simpa using zero)]
        have reversed : (digit :: rest).reverse = rest.reverse ++ [digit] := by simp
        rw [bigEndianValue, Nat.digits_ofDigits base baseGt _
          (fun d member => small d (List.mem_reverse.mp member))
          (fun nonempty => by simpa [reversed] using zero), List.reverse_reverse]

theorem takeWhile_zero_eq_replicate (digits : List Nat) :
    digits.takeWhile (· = 0) = List.replicate (digits.takeWhile (· = 0)).length 0 := by
  induction digits with
  | nil => rfl
  | cons digit rest inductionHypothesis =>
      by_cases zero : digit = 0
      · subst zero
        simp only [decide_True, List.takeWhile_cons_of_pos, List.length_cons, List.replicate_succ]
        exact congrArg _ inductionHypothesis
      · simp [zero, List.takeWhile_cons_of_neg]

/-- A digit list is its leading zeros followed by the digits of its value. -/
theorem eq_replicate_append_digits (baseGt : 1 < base) {digits : List Nat}
    (small : ∀ digit ∈ digits, digit < base) :
    digits = List.replicate (digits.takeWhile (· = 0)).length 0 ++
      (Nat.digits base (bigEndianValue base digits)).reverse := by
  conv_lhs => rw [← List.takeWhile_append_dropWhile (· = 0) digits]
  rw [← takeWhile_zero_eq_replicate, dropWhile_zero_eq_digits baseGt small]

/-- The leading zeros of `0ᵏ ++ digits(v)` are exactly the `k` written ones. -/
theorem takeWhile_zero_replicate_append_digits (count value : Nat) :
    (List.replicate count 0 ++ (Nat.digits base value).reverse).takeWhile (· = 0) =
      List.replicate count 0 := by
  induction count with
  | zero =>
      rcases Nat.eq_zero_or_pos value with rfl | positive
      · simp
      · have lastNe := Nat.getLast_digit_ne_zero base (Nat.pos_iff_ne_zero.mp positive)
        obtain ⟨init, last, split⟩ := List.eq_nil_or_concat (Nat.digits base value) |>.resolve_left
          (Nat.digits_ne_nil_iff_ne_zero.mpr (Nat.pos_iff_ne_zero.mp positive))
        rw [List.concat_eq_append] at split
        simp only [split, List.getLast_append_singleton] at lastNe
        simp [split, lastNe]
  | succ count inductionHypothesis =>
      simp only [List.replicate_succ, List.cons_append]
      rw [List.takeWhile_cons_of_pos (by simp), inductionHypothesis]

/-- Appending the digits of a high part to a digit list as long as the digits of some
`value` gives the digits of the whole, when the whole is at least `value`: the low list
can end in a zero only where the high part supplies the top digit. -/
theorem append_digits_eq_digits (baseGt : 1 < base) {value high : Nat} {low : List Nat}
    (small : ∀ digit ∈ low, digit < base) (sameLength : low.length = (Nat.digits base value).length)
    (atLeast : value ≤ Nat.ofDigits base low + base ^ low.length * high) :
    low ++ Nat.digits base high =
      Nat.digits base (Nat.ofDigits base low + base ^ low.length * high) := by
  have allSmall : ∀ digit ∈ low ++ Nat.digits base high, digit < base := by
    intro digit member
    rcases List.mem_append.mp member with inLow | inHigh
    · exact small digit inLow
    · exact Nat.digits_lt_base baseGt inHigh
  have lastNe : ∀ nonempty : low ++ Nat.digits base high ≠ [],
      (low ++ Nat.digits base high).getLast nonempty ≠ 0 := by
    intro nonempty
    rcases Nat.eq_zero_or_pos high with rfl | highPos
    · -- The top digit is the last of `low`, which a zero would make shorter than `value`.
      simp only [Nat.digits_zero, List.append_nil] at nonempty ⊢
      intro lastZero
      have valueNe : value ≠ 0 := by
        rintro rfl
        exact nonempty (List.eq_nil_of_length_eq_zero (by simpa using sameLength))
      have split : low = low.dropLast ++ [0] := by
        rw [← lastZero, List.dropLast_append_getLast]
      have initLt : Nat.ofDigits base low.dropLast < base ^ low.dropLast.length :=
        Nat.ofDigits_lt_base_pow_length baseGt
          (fun digit member => small digit (List.mem_of_mem_dropLast member))
      have powLe := Nat.base_pow_length_digits_le base value baseGt valueNe
      rw [← sameLength, split, List.length_append, List.length_singleton, Nat.pow_succ,
        Nat.mul_comm] at powLe
      have valueAtLeast : base ^ low.dropLast.length ≤ value :=
        Nat.le_of_mul_le_mul_left powLe (by omega)
      rw [split, Nat.ofDigits_append] at atLeast
      simp only [Nat.ofDigits_singleton, Nat.mul_zero, Nat.add_zero] at atLeast
      omega
    · rw [List.getLast_append_of_ne_nil (Nat.digits_ne_nil_iff_ne_zero.mpr highPos.ne')]
      exact Nat.getLast_digit_ne_zero base highPos.ne'
  conv_rhs => rw [← Nat.ofDigits_digits base high, ← Nat.ofDigits_append]
  rw [Nat.digits_ofDigits base baseGt _ allSmall lastNe]

end Canonical

/-! ## The scratch buffer of `decode` -/

/-- `1 + ⌊11n/15⌋` bytes hold every value of `n` base58 digits: `11/15` is just over
`log₂₅₆ 58`. -/
theorem fiftyEight_pow_lt (count : Nat) : 58 ^ count < 256 ^ (1 + count * 11 / 15) := by
  obtain ⟨blocks, rest, restLt, rfl⟩ : ∃ blocks rest, rest < 15 ∧ count = 15 * blocks + rest :=
    ⟨count / 15, count % 15, Nat.mod_lt _ (by decide), (Nat.div_add_mod count 15).symm⟩
  have exponent : 1 + (15 * blocks + rest) * 11 / 15 = 11 * blocks + (1 + rest * 11 / 15) := by
    omega
  have blockLe : (58 ^ 15) ^ blocks ≤ (256 ^ 11) ^ blocks :=
    Nat.pow_le_pow_left (by decide) blocks
  have restLt' : 58 ^ rest < 256 ^ (1 + rest * 11 / 15) := by
    interval_cases rest <;> decide
  calc 58 ^ (15 * blocks + rest) = (58 ^ 15) ^ blocks * 58 ^ rest := by
        rw [Nat.pow_add, Nat.pow_mul]
    _ < (256 ^ 11) ^ blocks * 256 ^ (1 + rest * 11 / 15) :=
        Nat.mul_lt_mul_of_le_of_lt blockLe restLt' (Nat.pos_pow_of_pos _ (by decide))
    _ = 256 ^ (1 + (15 * blocks + rest) * 11 / 15) := by
        rw [exponent, Nat.pow_add 256 (11 * blocks), Nat.pow_mul]

end BpStd.Invoice.Base58
