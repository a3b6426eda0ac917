import BpStd.Invoice.Base58.Carry
import BpStd.Invoice.Base58.Alphabet

/-!
Contract: the encoder of `invoice/src/base58.rs`: `format_iter` writing into a
`String`, `encode_iter`, `encode` and `encode_check`.

Owns: the variables of `format_iter`'s loop, one step and the whole loop as
executable definitions, the invariant the loop keeps, and `formatIter_eq`: the text
written is one `'1'` per leading zero byte, then the base58 digits of the number the
bytes denote, most significant first.  No carry overflows on any target whose `usize`
holds `256 * 58` values.

Does not own: SHA-256, which `encodeCheck` takes as a parameter, and the writer of
`encode_check_to_fmt`, which can fail.
-/

namespace BpStd.Invoice.Base58

/-- `while carry > 0 { ret.push((carry % 58) as u8); carry /= 58; }` -/
def pushCarry (ret : SmallVec UInt8) (carry : Nat) : SmallVec UInt8 :=
  if positive : 0 < carry then pushCarry (ret.push (UInt8.ofNat (carry % 58))) (carry / 58)
  else ret
termination_by carry
decreasing_by exact Nat.div_lt_self positive (by decide)

/-- `for _ in 0..leading_zero_count { ret.push(0); }` -/
def pushZeros (ret : SmallVec UInt8) : Nat → SmallVec UInt8
  | 0 => ret
  | count + 1 => pushZeros (ret.push 0) count

/-- The variables of `format_iter`'s loop. -/
structure FormatState where
  ret : SmallVec UInt8
  leadingZeroCount : Nat
  leadingZeroes : Bool

/-- `if leading_zeroes && carry == 0 { leading_zero_count += 1 } else { leading_zeroes = false }` -/
def FormatState.countLeadingZero (state : FormatState) (carry : Nat) : FormatState :=
  if state.leadingZeroes && carry == 0 then
    { state with leadingZeroCount := state.leadingZeroCount + 1 }
  else { state with leadingZeroes := false }

@[simp] theorem FormatState.countLeadingZero_ret (state : FormatState) (carry : Nat) :
    (state.countLeadingZero carry).ret = state.ret := by
  unfold FormatState.countLeadingZero
  split <;> rfl

/-- One byte of `format_iter`'s loop; `none` when the carry overflows its `usize`. -/
def formatStep (usizeLimit : Nat) (state : FormatState) (d256 : UInt8) : Option FormatState :=
  let carry := d256.toNat
  let state := state.countLeadingZero carry
  (state.ret.iterMut (mulAddStep 58 256 usizeLimit) carry).map fun (ret, carry) =>
    { state with ret := pushCarry ret carry }

/-- `for d256 in data`. -/
def formatBytes (usizeLimit : Nat) : FormatState → List UInt8 → Option FormatState
  | state, [] => some state
  | state, d256 :: rest =>
      (formatStep usizeLimit state d256).bind fun state => formatBytes usizeLimit state rest

/-- `format_iter` writing into a `String`: the bytes written, `none` on a panic (a carry
overflow, or a digit outside `BASE58_CHARS`).  `usizeLimit` is the number of `usize`
values. -/
def formatIter (usizeLimit : Nat) (data : List UInt8) : Option (List UInt8) := do
  let state ← formatBytes usizeLimit ⟨SmallVec.new, 0, true⟩ data
  let ret := pushZeros state.ret state.leadingZeroCount
  ret.iter.reverse.mapM fun ch => base58Chars[ch.toNat]?

/-- `encode_iter` on a 64-bit target: writes into a `String` never fail. -/
def encodeIter (data : List UInt8) : Option (List UInt8) := formatIter (2 ^ 64) data

/-- `encode`. -/
def encode (data : List UInt8) : Option (List UInt8) := encodeIter data

/-- Modelled from the spec: a SHA-256 digest, 32 bytes. -/
structure Sha256Digest where
  bytes : List UInt8
  length_eq : bytes.length = 32

/-- `encode_check`: the data, then the first four bytes of its double SHA-256. -/
def encodeCheck (sha256 : List UInt8 → Sha256Digest) (data : List UInt8) :
    Option (List UInt8) :=
  encodeIter (data ++ (sha256 (sha256 data).bytes).bytes.take 4)

/-! ## The buffer -/

theorem pushCarry_iter (ret : SmallVec UInt8) (carry : Nat) :
    (pushCarry ret carry).iter = ret.iter ++ (Nat.digits 58 carry).map UInt8.ofNat := by
  induction carry using Nat.strong_induction_on generalizing ret with
  | _ carry inductionHypothesis =>
      rw [pushCarry]
      split
      · rename_i positive
        rw [inductionHypothesis _ (Nat.div_lt_self positive (by decide)), SmallVec.iter_push,
          Nat.digits_def' (by decide) positive]
        simp
      · simp [show carry = 0 by omega]

theorem pushZeros_iter (ret : SmallVec UInt8) (count : Nat) :
    (pushZeros ret count).iter = ret.iter ++ List.replicate count 0 := by
  induction count generalizing ret with
  | zero => simp [pushZeros]
  | succ count inductionHypothesis =>
      rw [pushZeros, inductionHypothesis, SmallVec.iter_push, List.append_assoc,
        List.singleton_append, List.replicate_succ]

section Loop

variable {usizeLimit : Nat}

/-- One byte through the buffer: the multiply-add pass and the carry's pushes turn the
digits of `value` into the digits of `value * 256 + byte`. -/
theorem iterMut_pushCarry_digits (fits : 256 * 58 ≤ usizeLimit) {ret : SmallVec UInt8}
    {value : Nat} (digits : ret.iter.map UInt8.toNat = Nat.digits 58 value) {byte : Nat}
    (byteLt : byte < 256) :
    ∃ ret' carry, ret.iterMut (mulAddStep 58 256 usizeLimit) byte = some (ret', carry) ∧
      (pushCarry ret' carry).iter.map UInt8.toNat = Nat.digits 58 (value * 256 + byte) := by
  have small : ∀ digit ∈ ret.iter, digit.toNat < 58 := fun digit member =>
    Nat.digits_lt_base (by decide) (digits ▸ List.mem_map_of_mem _ member)
  obtain ⟨out, carry, ran, outSmall, _, grown⟩ :=
    mapAccum_mulAddStep (by decide) (by decide) (show 58 * 256 ≤ usizeLimit by omega) small byteLt
  obtain ⟨ret', iterMutEq, iterEq⟩ := SmallVec.iterMut_eq_some ran
  have sameLength : (out.map UInt8.toNat).length = ret.iter.length := by
    rw [List.length_map, mapAccum_length ran]
  rw [digits, Nat.ofDigits_digits, ← sameLength] at grown
  refine ⟨ret', carry, iterMutEq, ?_⟩
  rw [pushCarry_iter, iterEq, List.map_append,
    map_toNat_map_ofNat fun digit member => by
      have := Nat.digits_lt_base (by decide) member; omega,
    ← grown]
  have lowSmall : ∀ digit ∈ out.map UInt8.toNat, digit < 58 := fun digit member => by
    obtain ⟨original, inOut, rfl⟩ := List.mem_map.mp member
    exact outSmall original inOut
  have lowLength : (out.map UInt8.toNat).length = (Nat.digits 58 value).length := by
    rw [sameLength, ← digits, List.length_map]
  exact append_digits_eq_digits (by decide) lowSmall lowLength (by rw [grown]; omega)

/-- The leading-zero variables after one more byte still count the leading zeros. -/
theorem countLeadingZero_counts {state : FormatState} {processed : List Nat} (byte : Nat)
    (zeroes : state.leadingZeroes = true ↔ ∀ x ∈ processed, x = 0)
    (counted : state.leadingZeroCount = (processed.takeWhile (· = 0)).length) :
    ((state.countLeadingZero byte).leadingZeroes = true ↔ ∀ x ∈ processed ++ [byte], x = 0) ∧
      (state.countLeadingZero byte).leadingZeroCount =
        ((processed ++ [byte]).takeWhile (· = 0)).length := by
  unfold FormatState.countLeadingZero
  by_cases allZero : ∀ x ∈ processed, x = 0
  · have taken : processed.takeWhile (· = 0) = processed :=
      List.takeWhile_eq_self_iff.mpr (by simpa using allZero)
    rw [List.takeWhile_append_of_pos (by simpa using allZero)]
    by_cases zero : byte = 0
    · have allZero' : ∀ x ∈ processed ++ [byte], x = 0 := fun x member =>
        (List.mem_append.mp member).elim (allZero x) fun last =>
          (List.mem_singleton.mp last).trans zero
      rw [if_pos (by simp [zeroes.mpr allZero, zero])]
      exact ⟨iff_of_true (zeroes.mpr allZero) allZero', by simp [counted, taken, zero]⟩
    · have notAll : ¬ ∀ x ∈ processed ++ [byte], x = 0 := fun all => zero (all byte (by simp))
      rw [if_neg (by simp [zero])]
      exact ⟨iff_of_false (by simp) notAll, by simp [counted, taken, zero]⟩
  · have notZeroes : state.leadingZeroes = false :=
      Bool.eq_false_iff.mpr fun set => allZero (zeroes.mp set)
    have notAll : ¬ ∀ x ∈ processed ++ [byte], x = 0 := fun all =>
      allZero fun x member => all x (List.mem_append_left _ member)
    have shorter : (processed.takeWhile (· = 0)).length ≠ processed.length := fun same =>
      allZero fun x member => by
        simpa using List.takeWhile_eq_self_iff.mp
          ((List.takeWhile_sublist _).eq_of_length same) x member
    rw [if_neg (by simp [notZeroes]), List.takeWhile_append, if_neg shorter]
    exact ⟨iff_of_false (by simp) notAll, counted⟩

/-- What `format_iter`'s loop keeps after the bytes `processed`: the buffer holds the
base58 digits of their number, least significant first, and the leading-zero variables
count their leading zero bytes. -/
structure FormatState.Invariant (state : FormatState) (processed : List Nat) : Prop where
  digits : state.ret.iter.map UInt8.toNat = Nat.digits 58 (bigEndianValue 256 processed)
  leadingZeroes : state.leadingZeroes = true ↔ ∀ byte ∈ processed, byte = 0
  leadingZeroCount : state.leadingZeroCount = (processed.takeWhile (· = 0)).length

theorem FormatState.invariant_init : (⟨SmallVec.new, 0, true⟩ : FormatState).Invariant [] :=
  ⟨by simp, by simp, rfl⟩

theorem formatStep_invariant (fits : 256 * 58 ≤ usizeLimit) {state : FormatState}
    {processed : List Nat} (holds : state.Invariant processed) (d256 : UInt8) :
    ∃ state', formatStep usizeLimit state d256 = some state' ∧
      state'.Invariant (processed ++ [d256.toNat]) := by
  obtain ⟨zeroes, counted⟩ :=
    countLeadingZero_counts d256.toNat holds.leadingZeroes holds.leadingZeroCount
  obtain ⟨ret, carry, ran, digits⟩ :=
    iterMut_pushCarry_digits fits holds.digits (uint8_toNat_lt d256)
  refine ⟨{ state.countLeadingZero d256.toNat with ret := pushCarry ret carry },
    by simp only [formatStep, FormatState.countLeadingZero_ret, ran, Option.map_some'], ?_⟩
  exact ⟨by rw [bigEndianValue_append_singleton]; exact digits, zeroes, counted⟩

theorem formatBytes_invariant (fits : 256 * 58 ≤ usizeLimit) {state : FormatState}
    {processed : List Nat} (holds : state.Invariant processed) (rest : List UInt8) :
    ∃ state', formatBytes usizeLimit state rest = some state' ∧
      state'.Invariant (processed ++ rest.map UInt8.toNat) := by
  induction rest generalizing state processed with
  | nil => exact ⟨state, rfl, by simpa using holds⟩
  | cons d256 rest inductionHypothesis =>
      obtain ⟨next, stepped, nextHolds⟩ := formatStep_invariant fits holds d256
      obtain ⟨final, ran, finalHolds⟩ := inductionHypothesis nextHolds
      exact ⟨final, by simp [formatBytes, stepped, ran], by simpa using finalHolds⟩

end Loop

/-! ## The text written -/

theorem mapM_base58Chars {digits : List UInt8} (small : ∀ digit ∈ digits, digit.toNat < 58) :
    digits.mapM (fun ch => base58Chars[ch.toNat]?) =
      some ((digits.map UInt8.toNat).map charOf) := by
  induction digits with
  | nil => rfl
  | cons digit rest inductionHypothesis =>
      rw [List.mapM_cons, getElem?_base58Chars (small digit (List.mem_cons_self _ _)),
        inductionHypothesis fun other member => small other (List.mem_cons_of_mem _ member)]
      rfl

/-- `format_iter` writes one `'1'` per leading zero byte, then the base58 digits of the
number the bytes denote, most significant first, on every target whose `usize` holds
`256 * 58` values: no carry overflows and every digit is in `BASE58_CHARS`. -/
theorem formatIter_eq {usizeLimit : Nat} (fits : 256 * 58 ≤ usizeLimit) (data : List UInt8) :
    formatIter usizeLimit data =
      some ((List.replicate ((data.map UInt8.toNat).takeWhile (· = 0)).length 0 ++
        (Nat.digits 58 (bigEndianValue 256 (data.map UInt8.toNat))).reverse).map charOf) := by
  obtain ⟨final, ran, holds⟩ := formatBytes_invariant fits FormatState.invariant_init data
  rw [List.nil_append] at holds
  have written : (pushZeros final.ret final.leadingZeroCount).iter.map UInt8.toNat =
      Nat.digits 58 (bigEndianValue 256 (data.map UInt8.toNat)) ++
        List.replicate ((data.map UInt8.toNat).takeWhile (· = 0)).length 0 := by
    rw [pushZeros_iter, List.map_append, holds.digits, holds.leadingZeroCount]
    simp
  have small : ∀ digit ∈ (pushZeros final.ret final.leadingZeroCount).iter.reverse,
      digit.toNat < 58 := fun digit member => by
    have inWritten := List.mem_map_of_mem UInt8.toNat (List.mem_reverse.mp member)
    rw [written, List.mem_append, List.mem_replicate] at inWritten
    rcases inWritten with inDigits | ⟨-, zero⟩
    · exact Nat.digits_lt_base (by decide) inDigits
    · omega
  simp only [formatIter, ran, Option.bind_eq_bind, Option.some_bind, mapM_base58Chars small,
    List.map_reverse, written, List.reverse_append, List.reverse_replicate]

end BpStd.Invoice.Base58
