import BpStd.Rust.Outcome
import BpStd.Invoice.Base58.Encode

/-!
Contract: the decoder of `invoice/src/base58.rs`: `decode` and `decode_check`.

Owns: the byte loop of `decode` over its scratch buffer as executable definitions,
`decodeBytes_digits`, what the loop keeps (the scratch buffer holds the number the
digits read so far denote, and no carry overflows or survives the pass), and the
two halves of `decode`'s specification: `decode_digits`, the bytes a string over the
alphabet decodes to, and `decode_eq_err_iff`, which strings are rejected and with
which byte.  `decode` never panics (`decode_ne_panic`).

Does not own: SHA-256, which `decodeCheck` takes as a parameter.
-/

namespace BpStd.Invoice.Base58

open BpStd.Rust

/-- `base58::Error`, the variants `decode` and `decode_check` return. -/
inductive Error
  | badByte (byte : UInt8)
  | badChecksum (expected actual : UInt32)
  | tooShort (length : Nat)
deriving Repr, DecidableEq

/-- One byte of `decode`'s loop: the table lookup, then `X = X * 58 + digit` over the
scratch buffer least significant byte first (`iter_mut().rev()`) with a `u32` carry,
then `assert_eq!(carry, 0)`. -/
def decodeByte (scratch : List UInt8) (d58 : UInt8) : Outcome Error (List UInt8) :=
  match digitOf d58 with
  | none => .err (.badByte d58)
  | some digit =>
      match mapAccum (mulAddStep 256 58 (2 ^ 32)) digit.toNat scratch.reverse with
      | none => .panic
      | some (reversed, carry) => if carry = 0 then .ok reversed.reverse else .panic

/-- `for d58 in data.bytes()`. -/
def decodeBytes : List UInt8 → List UInt8 → Outcome Error (List UInt8)
  | scratch, [] => .ok scratch
  | scratch, d58 :: rest => do
      let scratch ← decodeByte scratch d58
      decodeBytes scratch rest

/-- `decode`, on the bytes of the string. -/
def decode (data : List UInt8) : Outcome Error (List UInt8) := do
  let scratch ← decodeBytes (List.replicate (1 + data.length * 11 / 15) 0) data
  pure ((data.takeWhile (· == charOf 0)).map (fun _ => 0) ++ scratch.dropWhile (· == 0))

/-- `u32::from_le_bytes`. -/
def u32FromLeBytes (bytes : List UInt8) : UInt32 :=
  UInt32.ofNat (Nat.ofDigits 256 (bytes.map UInt8.toNat))

/-- `decode_check`: the decoded bytes without their last four, which must be the first
four bytes of the double SHA-256 of the rest. -/
def decodeCheck (sha256 : List UInt8 → Sha256Digest) (data : List UInt8) :
    Outcome Error (List UInt8) := do
  let ret ← decode data
  if ret.length < 4 then
    .err (.tooShort ret.length)
  else
    let checkStart := ret.length - 4
    let hashCheck := (sha256 (sha256 (ret.take checkStart)).bytes).bytes.take 4
    let expected := u32FromLeBytes hashCheck
    let actual := u32FromLeBytes (ret.drop checkStart)
    if expected ≠ actual then .err (.badChecksum expected actual) else pure (ret.take checkStart)

/-! ## One byte -/

theorem decodeByte_of_digitOf_none {scratch : List UInt8} {d58 : UInt8}
    (missing : digitOf d58 = none) : decodeByte scratch d58 = .err (.badByte d58) := by
  simp [decodeByte, missing]

theorem bigEndianValue_map_toNat (bytes : List UInt8) :
    bigEndianValue 256 (bytes.map UInt8.toNat) = Nat.ofDigits 256 (bytes.reverse.map UInt8.toNat) := by
  rw [bigEndianValue, List.map_reverse]

/-- A byte of the alphabet multiplies the scratch value by 58 and adds its digit, as long
as the result fits the buffer: the carry then never overflows and ends at zero. -/
theorem decodeByte_of_digitOf_some {scratch : List UInt8} {d58 digit : UInt8}
    (found : digitOf d58 = some digit)
    (fits : bigEndianValue 256 (scratch.map UInt8.toNat) * 58 + digit.toNat < 256 ^ scratch.length) :
    ∃ scratch', decodeByte scratch d58 = .ok scratch' ∧ scratch'.length = scratch.length ∧
      bigEndianValue 256 (scratch'.map UInt8.toNat) =
        bigEndianValue 256 (scratch.map UInt8.toNat) * 58 + digit.toNat := by
  obtain ⟨out, carry, ran, -, -, grown⟩ :=
    mapAccum_mulAddStep (by decide) (by decide) (show 256 * 58 ≤ 2 ^ 32 by decide)
      (fun byte (_ : byte ∈ scratch.reverse) => uint8_toNat_lt byte) (digitOf_eq_some found).1
  rw [← bigEndianValue_map_toNat, List.length_reverse] at grown
  have noCarry : carry = 0 := by
    rcases Nat.eq_zero_or_pos carry with zero | positive
    · exact zero
    · have := Nat.le_mul_of_pos_right (256 ^ scratch.length) positive
      omega
  refine ⟨out.reverse, by simp only [decodeByte, found, ran, noCarry, if_pos], ?_, ?_⟩
  · rw [List.length_reverse, mapAccum_length ran, List.length_reverse]
  · rw [bigEndianValue_map_toNat, List.reverse_reverse, ← grown, noCarry, Nat.mul_zero,
      Nat.add_zero]

/-! ## The loop -/

theorem decodeBytes_append (scratch front back : List UInt8) :
    decodeBytes scratch (front ++ back) =
      decodeBytes scratch front >>= fun scratch => decodeBytes scratch back := by
  induction front generalizing scratch with
  | nil => rfl
  | cons d58 rest inductionHypothesis =>
      rw [List.cons_append]
      simp only [decodeBytes, inductionHypothesis, bind_assoc]

/-- Over a string of the alphabet, the scratch buffer ends up holding the number the
digits denote, appended below what it held, as long as that number fits. -/
theorem decodeBytes_digits {scratch : List UInt8} {digits : List Nat}
    (small : ∀ digit ∈ digits, digit < 58)
    (fits : bigEndianValue 256 (scratch.map UInt8.toNat) * 58 ^ digits.length +
      bigEndianValue 58 digits < 256 ^ scratch.length) :
    ∃ scratch', decodeBytes scratch (digits.map charOf) = .ok scratch' ∧
      scratch'.length = scratch.length ∧
      bigEndianValue 256 (scratch'.map UInt8.toNat) =
        bigEndianValue 256 (scratch.map UInt8.toNat) * 58 ^ digits.length +
          bigEndianValue 58 digits := by
  induction digits generalizing scratch with
  | nil => exact ⟨scratch, rfl, rfl, by simp⟩
  | cons digit rest inductionHypothesis =>
      have digitLt := small digit (List.mem_cons_self _ _)
      have found := digitOf_charOf digitLt
      have digitToNat : (UInt8.ofNat digit).toNat = digit :=
        UInt8.toNat_ofNat_of_lt (show digit < 256 by omega)
      set value := bigEndianValue 256 (scratch.map UInt8.toNat)
      have regrouped : (value * 58 + digit) * 58 ^ rest.length + bigEndianValue 58 rest =
          value * 58 ^ (digit :: rest).length + bigEndianValue 58 (digit :: rest) := by
        rw [bigEndianValue_cons, List.length_cons, Nat.pow_succ]
        ring
      have grows : value * 58 + digit ≤ (value * 58 + digit) * 58 ^ rest.length :=
        Nat.le_mul_of_pos_right _ (Nat.pos_pow_of_pos _ (by decide))
      rw [← regrouped] at fits
      have stepFits : value * 58 + (UInt8.ofNat digit).toNat < 256 ^ scratch.length := by
        rw [digitToNat]; omega
      obtain ⟨next, stepped, nextLength, nextValue⟩ := decodeByte_of_digitOf_some found stepFits
      rw [digitToNat] at nextValue
      obtain ⟨final, ran, finalLength, finalValue⟩ :=
        inductionHypothesis (fun other member => small other (List.mem_cons_of_mem _ member))
          (by rw [nextValue, nextLength]; exact fits)
      refine ⟨final, by simp [decodeBytes, stepped, ran], finalLength.trans nextLength, ?_⟩
      rw [finalValue, nextValue, regrouped]

/-- The digits at the front of a text of `total` bytes run on the fresh buffer `decode`
allocates for it without overflow, and leave it holding their value. -/
theorem decodeBytes_fresh {digits : List Nat} (small : ∀ digit ∈ digits, digit < 58)
    {total : Nat} (longer : digits.length ≤ total) :
    ∃ scratch, decodeBytes (List.replicate (1 + total * 11 / 15) 0) (digits.map charOf) =
        .ok scratch ∧ scratch.length = 1 + total * 11 / 15 ∧
      bigEndianValue 256 (scratch.map UInt8.toNat) = bigEndianValue 58 digits := by
  have fits : bigEndianValue 58 digits < 256 ^ (1 + total * 11 / 15) :=
    calc bigEndianValue 58 digits < 58 ^ digits.length := bigEndianValue_lt (by decide) small
      _ ≤ 58 ^ total := Nat.pow_le_pow_right (by decide) longer
      _ < 256 ^ (1 + total * 11 / 15) := fiftyEight_pow_lt _
  have start : bigEndianValue 256 ((List.replicate (1 + total * 11 / 15) (0 : UInt8)).map
      UInt8.toNat) * 58 ^ digits.length + bigEndianValue 58 digits <
      256 ^ (List.replicate (1 + total * 11 / 15) (0 : UInt8)).length := by
    simpa using fits
  obtain ⟨scratch, ran, length, value⟩ := decodeBytes_digits small start
  exact ⟨scratch, ran, by simpa using length, by simpa using value⟩

/-! ## `decode` -/

theorem takeWhile_map_charOf_length {digits : List Nat} (small : ∀ digit ∈ digits, digit < 58) :
    ((digits.map charOf).takeWhile (· == charOf 0)).length =
      (digits.takeWhile (· = 0)).length := by
  induction digits with
  | nil => rfl
  | cons digit rest inductionHypothesis =>
      have same : (charOf digit == charOf 0) = decide (digit = 0) := by
        rw [Bool.eq_iff_iff, beq_iff_eq, decide_eq_true_iff]
        exact charOf_inj (small digit (List.mem_cons_self _ _)) (by decide)
      simp only [List.map_cons, List.takeWhile_cons, same]
      split
      · simp [inductionHypothesis fun other member => small other (List.mem_cons_of_mem _ member)]
      · rfl

theorem dropWhile_zero_map_toNat (bytes : List UInt8) :
    (bytes.dropWhile (· == 0)).map UInt8.toNat = (bytes.map UInt8.toNat).dropWhile (· = 0) := by
  have zeroIff : ((fun value : Nat => decide (value = 0)) ∘ UInt8.toNat) = (· == (0 : UInt8)) :=
    funext fun byte => by
      simp only [Function.comp, beq_iff_eq]
      exact decide_eq_decide.mpr ⟨fun zero => UInt8.toNat.inj zero, fun zero => zero ▸ rfl⟩
  rw [List.dropWhile_map, zeroIff]

/-- A string of the alphabet decodes to one zero byte per leading `'1'`, then the bytes
of the number its digits denote, most significant first. -/
theorem decode_digits {digits : List Nat} (small : ∀ digit ∈ digits, digit < 58) :
    decode (digits.map charOf) = .ok ((List.replicate (digits.takeWhile (· = 0)).length 0 ++
      (Nat.digits 256 (bigEndianValue 58 digits)).reverse).map UInt8.ofNat) := by
  obtain ⟨scratch, ran, -, value⟩ := decodeBytes_fresh small (List.length_map digits charOf).ge
  have dropped : (scratch.dropWhile (· == 0)).map UInt8.toNat =
      (Nat.digits 256 (bigEndianValue 58 digits)).reverse := by
    rw [dropWhile_zero_map_toNat, dropWhile_zero_eq_digits (show 1 < 256 by decide)
      (fun digit member => by
        obtain ⟨byte, -, rfl⟩ := List.mem_map.mp member
        exact uint8_toNat_lt byte), value]
  have droppedBytes : scratch.dropWhile (· == 0) =
      (Nat.digits 256 (bigEndianValue 58 digits)).reverse.map UInt8.ofNat := by
    rw [← dropped, map_ofNat_map_toNat]
  simp only [decode, ran, Outcome.ok_bind, Outcome.pure_eq_ok, droppedBytes, List.map_append,
    List.map_replicate, List.map_const', takeWhile_map_charOf_length small]
  rfl

/-- A string with a byte outside the alphabet is rejected with its first such byte. -/
theorem decode_badByte {digits : List Nat} (small : ∀ digit ∈ digits, digit < 58)
    {byte : UInt8} (outside : byte ∉ base58Chars) (rest : List UInt8) :
    decode (digits.map charOf ++ byte :: rest) = .err (.badByte byte) := by
  obtain ⟨scratch, ran, -⟩ := decodeBytes_fresh small
    (show digits.length ≤ (digits.map charOf ++ byte :: rest).length by simp)
  rw [decode, decodeBytes_append, ran]
  simp [decodeBytes, decodeByte_of_digitOf_none (digitOf_eq_none_iff.mpr outside)]

/-- `decode` rejects exactly the strings with a byte outside the alphabet, and names the
first such byte. -/
theorem decode_eq_err_iff {text : List UInt8} {error : Error} :
    decode text = .err error ↔ ∃ front byte rest, text = front ++ byte :: rest ∧
      (∀ other ∈ front, other ∈ base58Chars) ∧ byte ∉ base58Chars ∧ error = .badByte byte := by
  constructor
  · intro rejected
    by_cases alphabet : ∀ byte ∈ text, byte ∈ base58Chars
    · obtain ⟨digits, small, rfl⟩ := exists_digits_of_forall_mem alphabet
      rw [decode_digits small] at rejected
      cases rejected
    · obtain ⟨digits, byte, rest, small, outside, rfl⟩ := exists_first_outside alphabet
      rw [decode_badByte small outside] at rejected
      cases rejected
      refine ⟨digits.map charOf, byte, rest, rfl, fun other member => ?_, outside, rfl⟩
      obtain ⟨digit, inDigits, rfl⟩ := List.mem_map.mp member
      exact charOf_mem (small digit inDigits)
  · rintro ⟨front, byte, rest, rfl, alphabet, outside, rfl⟩
    obtain ⟨digits, small, rfl⟩ := exists_digits_of_forall_mem alphabet
    exact decode_badByte small outside rest

/-- `decode` never panics: no `u32` carry overflows and `assert_eq!(carry, 0)` holds on
every input. -/
theorem decode_ne_panic (text : List UInt8) : decode text ≠ .panic := by
  by_cases alphabet : ∀ byte ∈ text, byte ∈ base58Chars
  · obtain ⟨digits, small, rfl⟩ := exists_digits_of_forall_mem alphabet
    rw [decode_digits small]
    nofun
  · obtain ⟨digits, byte, rest, small, outside, rfl⟩ := exists_first_outside alphabet
    rw [decode_badByte small outside]
    nofun

end BpStd.Invoice.Base58
