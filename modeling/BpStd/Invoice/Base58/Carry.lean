import Mathlib.Tactic.Ring
import BpStd.Invoice.Base58.SmallVec
import BpStd.Invoice.Base58.Digits

/-!
Contract: the inner loop both conversions of `invoice/src/base58.rs` run over their
buffer: multiply a little-endian digit list by a constant and add a carry, the carry
held in a machine word whose overflow panics.

Owns: `mulAddStep`, one digit of that loop, and `mapAccum_mulAddStep`, what a whole pass
computes: the digits stay digits, the carry stays below the multiplier, no addition
overflows, and the number denoted is multiplied and increased as the loop intends.
-/

namespace BpStd.Invoice.Base58

/-- One digit of a multiply-add with a checked carry: `sum = digit * mul + carry` must
stay below `bound`, the size of the carry's machine type, or the addition panics; the
digit becomes `(sum % base) as u8` and the carry `sum / base`.  `decode` runs it with
base 256, multiplier 58 and a `u32` carry (where `carry as u8` is `sum % 256`), and
`format_iter` with base 58, multiplier 256 and a `usize` carry. -/
def mulAddStep (base mul bound : Nat) (carry : Nat) (digit : UInt8) : Option (UInt8 × Nat) :=
  let sum := digit.toNat * mul + carry
  if sum < bound then some (UInt8.ofNat (sum % base), sum / base) else none

section Pass

variable {base mul bound : Nat}

/-- A pass over digits below `base` with a carry below `mul` never overflows a carry
type of at least `base * mul` values, and multiplies the denoted number by `mul` and
adds the carry, what does not fit coming out as the final carry. -/
theorem mapAccum_mulAddStep (baseLe : base ≤ 256) (basePos : 0 < base)
    (fits : base * mul ≤ bound) {digits : List UInt8}
    (small : ∀ digit ∈ digits, digit.toNat < base) {carry : Nat} (carryLt : carry < mul) :
    ∃ out carry', mapAccum (mulAddStep base mul bound) carry digits = some (out, carry') ∧
      (∀ digit ∈ out, digit.toNat < base) ∧ carry' < mul ∧
      Nat.ofDigits base (out.map UInt8.toNat) + base ^ digits.length * carry' =
        Nat.ofDigits base (digits.map UInt8.toNat) * mul + carry := by
  induction digits generalizing carry with
  | nil => exact ⟨[], carry, rfl, by simp, carryLt, by simp⟩
  | cons digit rest inductionHypothesis =>
      have digitLt := small digit (List.mem_cons_self _ _)
      set sum := digit.toNat * mul + carry with sumDef
      have sumLt : sum < base * mul :=
        calc sum < (digit.toNat + 1) * mul := by rw [Nat.succ_mul]; omega
          _ ≤ base * mul := Nat.mul_le_mul_right _ digitLt
      have lowLt : sum % base < base := Nat.mod_lt _ basePos
      obtain ⟨out, carry', ran, outSmall, carryLt', value⟩ :=
        inductionHypothesis (fun other member => small other (List.mem_cons_of_mem _ member))
          (Nat.div_lt_of_lt_mul sumLt : sum / base < mul)
      have lowDigit : (UInt8.ofNat (sum % base)).toNat = sum % base :=
        UInt8.toNat_ofNat_of_lt (show sum % base < 256 by omega)
      refine ⟨UInt8.ofNat (sum % base) :: out, carry', ?_, ?_, carryLt', ?_⟩
      · simp only [mapAccum, mulAddStep, ← sumDef, if_pos (Nat.lt_of_lt_of_le sumLt fits),
          Option.some_bind, ran, Option.map_some']
      · simpa [lowDigit, lowLt] using outSmall
      · simp only [List.map_cons, Nat.ofDigits_cons, lowDigit, List.length_cons, Nat.pow_succ,
          Nat.cast_id]
        calc sum % base + base * Nat.ofDigits base (out.map UInt8.toNat) +
              base ^ rest.length * base * carry'
            = sum % base + base * (Nat.ofDigits base (out.map UInt8.toNat) +
                base ^ rest.length * carry') := by ring
          _ = sum % base + base * (sum / base) +
                base * Nat.ofDigits base (rest.map UInt8.toNat) * mul := by rw [value]; ring
          _ = (digit.toNat + base * Nat.ofDigits base (rest.map UInt8.toNat)) * mul + carry := by
                rw [Nat.mod_add_div, sumDef]; ring

end Pass

end BpStd.Invoice.Base58
