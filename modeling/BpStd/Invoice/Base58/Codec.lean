import BpStd.Invoice.Base58.Decode

/-!
Contract: what the base58 encoder and decoder of `invoice/src/base58.rs` guarantee
together.

Owns: the round trips in both directions (`decode_encode`, `encode_decode`), with and
without the SHA-256 checksum, the correspondence of leading `'1'`s and leading zero
bytes, and the absence of panics in both conversions.

Does not own: the loops, whose specifications `formatIter_eq`, `decode_digits` and
`decode_eq_err_iff` are cited and never unfolded.
-/

namespace BpStd.Invoice.Base58

open BpStd.Rust

theorem encode_eq (data : List UInt8) :
    encode data =
      some ((List.replicate ((data.map UInt8.toNat).takeWhile (· = 0)).length 0 ++
        (Nat.digits 58 (bigEndianValue 256 (data.map UInt8.toNat))).reverse).map charOf) :=
  formatIter_eq (by decide) data

theorem takeWhile_zero_map_toNat_length (bytes : List UInt8) :
    ((bytes.map UInt8.toNat).takeWhile (· = 0)).length = (bytes.takeWhile (· == 0)).length := by
  induction bytes with
  | nil => rfl
  | cons byte rest inductionHypothesis =>
      have same : decide (byte.toNat = 0) = (byte == 0) :=
        decide_eq_decide.mpr ⟨fun zero => UInt8.toNat.inj zero, fun zero => zero ▸ rfl⟩
      simp only [List.map_cons, List.takeWhile_cons, same]
      split
      · simp [inductionHypothesis]
      · rfl

/-- Encoding then decoding gives the bytes back, and the text starts with one `'1'` per
leading zero byte. -/
theorem decode_encode (data : List UInt8) :
    ∃ text, encode data = some text ∧ decode text = .ok data ∧
      (text.takeWhile (· == charOf 0)).length = (data.takeWhile (· == 0)).length := by
  set bytes := data.map UInt8.toNat
  set zeros := (bytes.takeWhile (· = 0)).length
  set value := bigEndianValue 256 bytes
  have small : ∀ digit ∈ List.replicate zeros 0 ++ (Nat.digits 58 value).reverse, digit < 58 :=
    fun digit member => by
      rcases List.mem_append.mp member with inZeros | inDigits
      · rw [List.eq_of_mem_replicate inZeros]; decide
      · exact Nat.digits_lt_base (by decide) (List.mem_reverse.mp inDigits)
  have leading : ((List.replicate zeros 0 ++ (Nat.digits 58 value).reverse).takeWhile
      (· = 0)).length = zeros := by
    rw [takeWhile_zero_replicate_append_digits, List.length_replicate]
  refine ⟨_, encode_eq data, ?_, ?_⟩
  · rw [decode_digits small, leading, bigEndianValue_replicate_zero_append,
      bigEndianValue_digits_reverse,
      ← eq_replicate_append_digits (by decide) fun byte member => by
        obtain ⟨original, -, rfl⟩ := List.mem_map.mp member
        exact uint8_toNat_lt original]
    exact congrArg Outcome.ok (map_ofNat_map_toNat data)
  · rw [takeWhile_map_charOf_length small, leading]
    exact takeWhile_zero_map_toNat_length data

/-- Every string of the alphabet decodes, and encoding the result gives the string back. -/
theorem encode_decode {text : List UInt8} (alphabet : ∀ byte ∈ text, byte ∈ base58Chars) :
    ∃ data, decode text = .ok data ∧ encode data = some text := by
  obtain ⟨digits, small, rfl⟩ := exists_digits_of_forall_mem alphabet
  set zeros := (digits.takeWhile (· = 0)).length
  set value := bigEndianValue 58 digits
  have bytesSmall : ∀ byte ∈ List.replicate zeros 0 ++ (Nat.digits 256 value).reverse,
      byte < 256 := fun byte member => by
    rcases List.mem_append.mp member with inZeros | inDigits
    · rw [List.eq_of_mem_replicate inZeros]; decide
    · exact Nat.digits_lt_base (by decide) (List.mem_reverse.mp inDigits)
  refine ⟨_, decode_digits small, ?_⟩
  rw [encode_eq, map_toNat_map_ofNat bytesSmall, takeWhile_zero_replicate_append_digits,
    List.length_replicate, bigEndianValue_replicate_zero_append, bigEndianValue_digits_reverse,
    ← eq_replicate_append_digits (by decide) small]

/-! ## The checksum -/

/-- Little-endian digits below the base are determined by their value. -/
theorem ofDigits_inj {base : Nat} : ∀ {low high : List Nat}, low.length = high.length →
    (∀ digit ∈ low, digit < base) → (∀ digit ∈ high, digit < base) →
    Nat.ofDigits base low = Nat.ofDigits base high → low = high
  | [], [], _, _, _, _ => rfl
  | a :: as, b :: bs, length, aSmall, bSmall, same => by
      simp only [List.mem_cons, forall_eq_or_imp] at aSmall bSmall
      simp only [Nat.ofDigits_cons, Nat.cast_id] at same
      have heads : a = b := by
        simpa [Nat.add_mul_mod_self_left, Nat.mod_eq_of_lt aSmall.1, Nat.mod_eq_of_lt bSmall.1]
          using congrArg (· % base) same
      subst heads
      have tails := Nat.eq_of_mul_eq_mul_left (by omega) (Nat.add_left_cancel same)
      rw [ofDigits_inj (Nat.succ.inj length) aSmall.2 bSmall.2 tails]

/-- `u32::from_le_bytes` tells four-byte arrays apart. -/
theorem u32FromLeBytes_inj {a b : List UInt8} (aLength : a.length = 4) (bLength : b.length = 4)
    (same : u32FromLeBytes a = u32FromLeBytes b) : a = b := by
  have small : ∀ bytes : List UInt8, ∀ digit ∈ bytes.map UInt8.toNat, digit < 256 := by
    intro bytes digit member
    obtain ⟨byte, -, rfl⟩ := List.mem_map.mp member
    exact uint8_toNat_lt byte
  have fits : ∀ bytes : List UInt8, bytes.length = 4 →
      Nat.ofDigits 256 (bytes.map UInt8.toNat) < 2 ^ 32 := fun bytes length => by
    simpa [length] using Nat.ofDigits_lt_base_pow_length (by decide) (small bytes)
  have value := congrArg UInt32.toNat same
  rw [u32FromLeBytes, u32FromLeBytes, UInt32.toNat_ofNat_of_lt (fits a aLength),
    UInt32.toNat_ofNat_of_lt (fits b bLength)] at value
  exact List.map_injective_iff.mpr (fun _ _ => UInt8.toNat.inj)
    (ofDigits_inj (by simp [aLength, bLength]) (small a) (small b) value)

theorem checksum_length (sha256 : List UInt8 → Sha256Digest) (data : List UInt8) :
    ((sha256 (sha256 data).bytes).bytes.take 4).length = 4 := by
  simp [Sha256Digest.length_eq]

/-- `decode_check` accepts a text exactly when it decodes to some data followed by the
first four bytes of the data's double SHA-256, and then returns that data. -/
theorem decodeCheck_eq_ok_iff (sha256 : List UInt8 → Sha256Digest) {text data : List UInt8} :
    decodeCheck sha256 text = .ok data ↔
      decode text = .ok (data ++ (sha256 (sha256 data).bytes).bytes.take 4) := by
  cases decoded : decode text with
  | ok bytes =>
      simp only [decodeCheck, decoded, Outcome.ok_bind, Outcome.pure_eq_ok]
      constructor
      · intro accepted
        split_ifs at accepted with short agree
        cases accepted
        have tailLength : (bytes.drop (bytes.length - 4)).length = 4 := by simp; omega
        rw [u32FromLeBytes_inj (checksum_length _ _) tailLength (not_not.mp agree),
          List.take_append_drop]
      · intro same
        cases same
        have length : (data ++ (sha256 (sha256 data).bytes).bytes.take 4).length =
            data.length + 4 := by
          rw [List.length_append, checksum_length]
        simp [length]
  | err error => simp [decodeCheck, decoded]
  | panic => simp [decodeCheck, decoded]

/-- `decode_check` accepts what `encode_check` writes, and gives the data back. -/
theorem decodeCheck_encodeCheck (sha256 : List UInt8 → Sha256Digest) (data : List UInt8) :
    ∃ text, encodeCheck sha256 data = some text ∧ decodeCheck sha256 text = .ok data := by
  obtain ⟨text, encoded, decoded, -⟩ :=
    decode_encode (data ++ (sha256 (sha256 data).bytes).bytes.take 4)
  exact ⟨text, encoded, (decodeCheck_eq_ok_iff sha256).mpr decoded⟩

/-- Base58 is a bijection between byte strings and strings over the alphabet: every byte
string encodes to a text that decodes back to it, with one `'1'` per leading zero byte;
`decode` fails with `BadByte` exactly on strings with a byte outside the alphabet, and
the byte it names is one of them; every other string decodes to bytes that encode back
to it; and `decode_check` inverts `encode_check` for any hash function. -/
theorem base58_bijection (sha256 : List UInt8 → Sha256Digest) :
    (∀ data, ∃ text, encode data = some text ∧ decode text = .ok data ∧
      (text.takeWhile (· == charOf 0)).length = (data.takeWhile (· == 0)).length) ∧
    (∀ text, ((∃ byte, decode text = .err (.badByte byte)) ↔ ∃ byte ∈ text, byte ∉ base58Chars) ∧
      ∀ byte, decode text = .err (.badByte byte) → byte ∈ text ∧ byte ∉ base58Chars) ∧
    (∀ text, (∀ byte ∈ text, byte ∈ base58Chars) →
      ∃ data, decode text = .ok data ∧ encode data = some text) ∧
    (∀ data, ∃ text, encodeCheck sha256 data = some text ∧ decodeCheck sha256 text = .ok data) := by
  have named : ∀ {text byte}, decode text = .err (.badByte byte) →
      byte ∈ text ∧ byte ∉ base58Chars := fun rejected => by
    obtain ⟨front, byte, rest, rfl, -, outside, named⟩ := decode_eq_err_iff.mp rejected
    cases named
    exact ⟨by simp, outside⟩
  refine ⟨decode_encode, fun text => ⟨⟨?_, ?_⟩, fun _ => named⟩, fun _ => encode_decode,
    decodeCheck_encodeCheck sha256⟩
  · rintro ⟨byte, rejected⟩
    exact ⟨byte, named rejected⟩
  · rintro ⟨byte, member, outside⟩
    obtain ⟨digits, first, rest, small, firstOutside, rfl⟩ :=
      exists_first_outside fun all => outside (all byte member)
    exact ⟨first, decode_badByte small firstOutside rest⟩

/-- Neither conversion panics.  `decode`'s scratch buffer of `1 + ⌊11n/15⌋` bytes holds
the number of the digits read so far, so its `u32` carry never overflows and
`assert_eq!(carry, 0)` always holds; in `format_iter` every `new_ch` stays below
`256 * 58`, so the text written is the same on every target whose `usize` holds that. -/
theorem base58_carries_in_range :
    (∀ count, 58 ^ count < 256 ^ (1 + count * 11 / 15)) ∧
    (∀ front back : List Nat, (∀ digit ∈ front ++ back, digit < 58) →
      ∃ scratch, decodeBytes (List.replicate (1 + (front ++ back).length * 11 / 15) 0)
          (front.map charOf) = .ok scratch ∧
        scratch.length = 1 + (front ++ back).length * 11 / 15 ∧
        bigEndianValue 256 (scratch.map UInt8.toNat) = bigEndianValue 58 front) ∧
    (∀ text, decode text ≠ .panic) ∧
    (∀ usizeLimit, 256 * 58 ≤ usizeLimit → ∀ data,
      formatIter usizeLimit data = formatIter (256 * 58) data ∧
        formatIter (256 * 58) data ≠ none) := by
  refine ⟨fiftyEight_pow_lt, fun front back small =>
    decodeBytes_fresh (fun digit member => small digit (List.mem_append_left _ member)) (by simp),
    decode_ne_panic, fun usizeLimit fits data => ?_⟩
  rw [formatIter_eq fits, formatIter_eq (Nat.le_refl _)]
  exact ⟨rfl, Option.some_ne_none _⟩

/-- `decode_check` accepts exactly the texts that decode to data followed by its
four-byte double-SHA-256 checksum, and returns that data; it answers `TooShort(n)` exactly
for the texts that decode to `n < 4` bytes; and it never panics. -/
theorem decodeCheck_accepts_exactly_checksummed (sha256 : List UInt8 → Sha256Digest) :
    (∀ text data, decodeCheck sha256 text = .ok data ↔
      decode text = .ok (data ++ (sha256 (sha256 data).bytes).bytes.take 4)) ∧
    (∀ text length, decodeCheck sha256 text = .err (.tooShort length) ↔
      ∃ bytes, decode text = .ok bytes ∧ bytes.length = length ∧ length < 4) ∧
    (∀ text, decodeCheck sha256 text ≠ .panic) := by
  refine ⟨fun _ _ => decodeCheck_eq_ok_iff sha256, fun text length => ?_, fun text => ?_⟩
  · cases decoded : decode text with
    | ok bytes =>
        simp only [decodeCheck, decoded, Outcome.ok_bind, Outcome.pure_eq_ok, Outcome.ok.injEq,
          exists_eq_left']
        by_cases short : bytes.length < 4
        · simp only [if_pos short, Outcome.err.injEq, Error.tooShort.injEq]
          omega
        · rw [if_neg short, iff_false_intro (show ¬ (bytes.length = length ∧ length < 4) by omega)]
          split <;> simp
    | err error =>
        obtain ⟨-, byte, -, -, -, -, named⟩ := decode_eq_err_iff.mp decoded
        simp [decodeCheck, decoded, named]
    | panic => simp [decodeCheck, decoded]
  · cases decoded : decode text with
    | ok bytes =>
        simp only [decodeCheck, decoded, Outcome.ok_bind, Outcome.pure_eq_ok]
        split_ifs <;> nofun
    | err error => simp [decodeCheck, decoded]
    | panic => exact absurd decoded (decode_ne_panic text)

end BpStd.Invoice.Base58
