import Mathlib.Data.Nat.Digits

/-!
Contract: Rust's `from_str` for the unsigned integer types the modelled code parses
(`u4`, `u16`, `u32`).

Owns: `parseUnsigned`, the loop of `core::num::from_str_radix` at radix 10 with the
type's maximum as a parameter, and its round trip with `Display`,
which writes the decimal digits of `Nat.repr`.

`from_str_radix` strips one leading `+`, rejects a lone sign, then reads the digits
left to right, checking each digit before it checks for overflow.  A leading `-`
is not stripped for unsigned types, so it fails as an invalid digit.  The source
parses bytes; a non-ASCII character fails the digit check as its first byte would,
so reading characters gives the same outcome.
-/

namespace BpStd.Rust

/-- `core::num::IntErrorKind`, restricted to what unsigned parsing can produce. -/
inductive IntErrorKind where
  | empty
  | invalidDigit
  | posOverflow
deriving Repr, DecidableEq

/-- `core::num::ParseIntError`. -/
structure ParseIntError where
  kind : IntErrorKind
deriving Repr, DecidableEq

/-- The digit loop of `from_str_radix` from the accumulated `result`. -/
def accumulateDigits (max : Nat) (result : Nat) : List Char → Except ParseIntError Nat
  | [] => .ok result
  | c :: rest =>
      if c.isDigit then
        let next := result * 10 + (c.toNat - '0'.toNat)
        if next ≤ max then accumulateDigits max next rest else .error ⟨.posOverflow⟩
      else .error ⟨.invalidDigit⟩

/-- `from_str` of an unsigned integer type whose largest value is `max`. -/
def parseUnsigned (max : Nat) : List Char → Except ParseIntError Nat
  | [] => .error ⟨.empty⟩
  | ['+'] => .error ⟨.invalidDigit⟩
  | ['-'] => .error ⟨.invalidDigit⟩
  | '+' :: digits => accumulateDigits max 0 digits
  | digits => accumulateDigits max 0 digits

/-! ## The round trip with `Display` -/

theorem toDigitsCore_append (fuel n : Nat) (ds : List Char) :
    Nat.toDigitsCore 10 fuel n ds = Nat.toDigitsCore 10 fuel n [] ++ ds := by
  induction fuel generalizing n ds with
  | zero => rfl
  | succ fuel inductionHypothesis =>
      simp only [Nat.toDigitsCore]
      split
      · rfl
      · rw [inductionHypothesis _ (_ :: ds), inductionHypothesis _ [_]]
        simp

theorem toDigitsCore_fuel {fuel fuel' n : Nat} (ds : List Char) (enough : n < fuel)
    (enough' : n < fuel') : Nat.toDigitsCore 10 fuel n ds = Nat.toDigitsCore 10 fuel' n ds := by
  induction fuel generalizing fuel' n ds with
  | zero => omega
  | succ fuel inductionHypothesis =>
      obtain ⟨fuel', rfl⟩ := Nat.exists_eq_add_of_lt enough'
      simp only [Nat.toDigitsCore]
      split
      · rfl
      · exact inductionHypothesis _ (by omega) (by omega)

/-- The decimal digits of `n`: those of `n / 10`, unless that is `0`, then the last digit. -/
theorem toDigits_eq (n : Nat) :
    Nat.toDigits 10 n =
      (if n / 10 = 0 then [] else Nat.toDigits 10 (n / 10)) ++ [Nat.digitChar (n % 10)] := by
  unfold Nat.toDigits
  rw [Nat.toDigitsCore]
  split
  · rfl
  · rw [toDigitsCore_append, toDigitsCore_fuel [] (show n / 10 < n by omega) (Nat.lt_succ_self _)]

theorem digitChar_isDigit : ∀ digit, digit < 10 →
    (Nat.digitChar digit).isDigit = true ∧ (Nat.digitChar digit).toNat - '0'.toNat = digit := by
  decide

theorem accumulateDigits_append_singleton (max result : Nat) (digits : List Char) (c : Char) :
    accumulateDigits max result (digits ++ [c]) =
      (accumulateDigits max result digits).bind fun value => accumulateDigits max value [c] := by
  induction digits generalizing result with
  | nil => rfl
  | cons d rest inductionHypothesis =>
      simp only [List.cons_append, accumulateDigits]
      split
      · split
        · exact inductionHypothesis _
        · rfl
      · rfl

theorem toDigits_isDigit_and_accumulate (n : Nat) :
    (∀ c ∈ Nat.toDigits 10 n, c.isDigit = true) ∧
      ∀ max, n ≤ max → accumulateDigits max 0 (Nat.toDigits 10 n) = .ok n := by
  induction n using Nat.strongRecOn with
  | ind n inductionHypothesis =>
      have last := digitChar_isDigit (n % 10) (Nat.mod_lt _ (by decide))
      rw [toDigits_eq]
      split
      · rename_i small
        refine ⟨by simpa using last.1, fun max le => ?_⟩
        simp only [List.nil_append, accumulateDigits, last.1, if_true, last.2]
        rw [if_pos (by omega)]
        congr
        omega
      · have shorter := inductionHypothesis (n / 10) (by omega)
        refine ⟨?_, fun max le => ?_⟩
        · intro c mem
          rcases List.mem_append.mp mem with front | single
          · exact shorter.1 c front
          · rw [List.mem_singleton.mp single]
            exact last.1
        · rw [accumulateDigits_append_singleton, shorter.2 max (by omega)]
          simp only [Except.bind, accumulateDigits, last.1, if_true, last.2]
          rw [if_pos (by omega)]
          congr
          omega

theorem parseUnsigned_of_isDigit {max : Nat} {c : Char} (cs : List Char) (digit : c.isDigit = true) :
    parseUnsigned max (c :: cs) = accumulateDigits max 0 (c :: cs) := by
  have plus : c ≠ '+' := by rintro rfl; exact absurd digit (by decide)
  have minus : c ≠ '-' := by rintro rfl; exact absurd digit (by decide)
  cases cs <;> simp [parseUnsigned, plus, minus]

/-- `from_str` reads back the `Display` of every value that fits the type. -/
theorem parseUnsigned_repr {max n : Nat} (fits : n ≤ max) :
    parseUnsigned max (Nat.repr n).toList = .ok n := by
  show parseUnsigned max (Nat.toDigits 10 n) = .ok n
  have digits := toDigits_isDigit_and_accumulate n
  cases text : Nat.toDigits 10 n with
  | nil => simp [toDigits_eq n] at text
  | cons c cs =>
      rw [text] at digits
      rw [parseUnsigned_of_isDigit cs (digits.1 c (List.mem_cons_self c cs))]
      exact digits.2 max fits
end BpStd.Rust
