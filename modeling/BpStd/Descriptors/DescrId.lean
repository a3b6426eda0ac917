import Mathlib.Data.Nat.Digits

/-!
Contract: `DescrId` of `descriptors/src/descriptor.rs`, the 64-bit identifier of a
descriptor, with its byte conversions and its text form `XXXXXXXX-XXXXXXXX`.

Owns: `DescrId`, `From<[u8; 8]>` and `From<DescrId> for [u8; 8]` (`u64::from_le_bytes`
and `u64::to_le_bytes`), `Display` and `FromStr`; and, modelled from the spec, the hex
text of `amplify::hex` these call: `to_hex`, `<[u8; 8]>::from_hex` and `hex::Error`.

`from_str` reads its argument only as bytes (`len`, `as_bytes`, `replace` of the one-byte
`-`, and `from_hex`, which walks the bytes in pairs), so it is modelled over the UTF-8
bytes of the string, `asBytes`.  `Display` writes ASCII only.
-/

namespace BpStd.Descriptors

/-! ## Hex text -/

/-- Modelled from the spec: `amplify::hex::Error`. -/
inductive HexError where
  | invalidChar (byte : UInt8)
  | oddLengthString (length : Nat)
  | invalidLength (expected found : Nat)
deriving Repr, DecidableEq

/-- `str::as_bytes`: the UTF-8 encoding of the characters. -/
def asBytes (s : List Char) : List UInt8 := s.flatMap String.utf8EncodeChar

/-- Modelled from the spec: the value of a hex digit, in either case. -/
def hexDigitValue (byte : UInt8) : Option Nat :=
  if 0x30 ≤ byte.toNat ∧ byte.toNat ≤ 0x39 then some (byte.toNat - 0x30)
  else if 0x61 ≤ byte.toNat ∧ byte.toNat ≤ 0x66 then some (byte.toNat - 0x61 + 10)
  else if 0x41 ≤ byte.toNat ∧ byte.toNat ≤ 0x46 then some (byte.toNat - 0x41 + 10)
  else none

/-- Modelled from the spec: the lowercase hex digit of a value below 16. -/
def hexDigit (value : Nat) : Char :=
  Char.ofNat (if value < 10 then 0x30 + value else 0x61 + value - 10)

/-- Modelled from the spec: `to_hex`, two lowercase digits a byte, high half first. -/
def toHex (bytes : List UInt8) : List Char :=
  bytes.flatMap fun byte => [hexDigit (byte.toNat / 16), hexDigit (byte.toNat % 16)]

/-- Modelled from the spec: the pairs of digits `from_hex` decodes, high half first,
stopping at the first byte that is no hex digit.  A last lone byte is never reached:
`from_hex` rejects an odd length first. -/
def decodeHexPairs : List UInt8 → Except HexError (List UInt8)
  | high :: low :: rest =>
      match hexDigitValue high, hexDigitValue low with
      | none, _ => .error (.invalidChar high)
      | some _, none => .error (.invalidChar low)
      | some highValue, some lowValue =>
          (decodeHexPairs rest).map (UInt8.ofNat (highValue * 16 + lowValue) :: ·)
  | _ => .ok []

/-- Modelled from the spec: `<[u8; 8]>::from_hex`, which rejects an odd length, then a
length other than sixteen digits, then decodes. -/
def fromHexArray8 (s : List UInt8) : Except HexError (List UInt8) :=
  if s.length % 2 ≠ 0 then .error (.oddLengthString s.length)
  else if s.length / 2 ≠ 8 then .error (.invalidLength 16 (2 * (s.length / 2)))
  else decodeHexPairs s

/-- ASCII lowercasing of one byte. -/
def toLowerByte (byte : UInt8) : UInt8 :=
  if 0x41 ≤ byte.toNat ∧ byte.toNat ≤ 0x5A then byte + 32 else byte

/-! ## Hex digits -/

/-- The sixteen digits `to_hex` writes. -/
theorem hexDigit_toNat : ∀ value, value < 16 →
    (hexDigit value).toNat = if value < 10 then 0x30 + value else 0x57 + value := by
  decide

/-- An ASCII character is its own one byte. -/
theorem utf8EncodeChar_of_lt {c : Char} (ascii : c.toNat < 0x80) :
    String.utf8EncodeChar c = [UInt8.ofNat c.toNat] := by
  have : c.val ≤ 0x7f := by
    show c.val.toNat ≤ 127
    exact Nat.le_of_lt_succ ascii
  simp [String.utf8EncodeChar, this]
  rfl

/-- The digits `from_hex` reads: the lowercase digits `to_hex` writes, and the
uppercase letters `0x20` below them. -/
theorem hexDigitValue_eq_some {byte : UInt8} {value : Nat} :
    hexDigitValue byte = some value ↔
      value < 16 ∧ (byte.toNat = (hexDigit value).toNat ∨
        10 ≤ value ∧ byte.toNat + 0x20 = (hexDigit value).toNat) := by
  constructor
  · intro found
    unfold hexDigitValue at found
    split_ifs at found with digit lower upper <;> cases found
    · exact ⟨by omega, .inl (by rw [hexDigit_toNat _ (by omega), if_pos (by omega)]; omega)⟩
    · exact ⟨by omega, .inl (by rw [hexDigit_toNat _ (by omega), if_neg (by omega)]; omega)⟩
    · exact ⟨by omega,
        .inr ⟨by omega, by rw [hexDigit_toNat _ (by omega), if_neg (by omega)]; omega⟩⟩
  · rintro ⟨small, same | ⟨large, upper⟩⟩
    · rw [hexDigit_toNat _ small] at same
      unfold hexDigitValue
      split_ifs at same ⊢ <;> first | omega | (congr 1; omega)
    · rw [hexDigit_toNat _ small, if_neg (by omega)] at upper
      unfold hexDigitValue
      split_ifs <;> first | omega | (congr 1; omega)

/-! ## `DescrId` -/

/-- `DescrId(pub u64)`. -/
structure DescrId where
  value : UInt64
deriving Repr, DecidableEq

/-- The `count` least significant bytes of `value`, least significant first. -/
def leBytes : Nat → Nat → List UInt8
  | 0, _ => []
  | count + 1, value => UInt8.ofNat value :: leBytes count (value / 256)

namespace DescrId

/-- `From<[u8; 8]>`: `u64::from_le_bytes`. -/
def fromLeBytes (bytes : List UInt8) : DescrId :=
  ⟨UInt64.ofNat (Nat.ofDigits 256 (bytes.map UInt8.toNat))⟩

/-- `From<DescrId> for [u8; 8]`: `u64::to_le_bytes`. -/
def toLeBytes (id : DescrId) : List UInt8 := leBytes 8 id.value.toNat

/-- `Display`: the hex of the first four little-endian bytes, `-`, the hex of the other
four. -/
def display (id : DescrId) : List Char :=
  let val := id.toLeBytes
  toHex (val.take 4) ++ ['-'] ++ toHex (val.drop 4)

/-- `FromStr`, over the bytes of the string. -/
def fromStr (s : List UInt8) : Except HexError DescrId :=
  if s.length ≠ 17 then .error (.invalidLength 17 16)
  else if s.getD 8 0 ≠ 0x2D then .error (.invalidChar (s.getD 8 0))
  else (fromHexArray8 (s.filter (· ≠ 0x2D))).map fromLeBytes

end DescrId

/-! ## The hex codec -/

theorem uint8_toNat_lt (byte : UInt8) : byte.toNat < 256 := byte.val.isLt

/-- The byte of the hex digit of `value`. -/
def hexByte (value : Nat) : UInt8 := UInt8.ofNat (hexDigit value).toNat

theorem hexByte_toNat {value : Nat} (small : value < 16) :
    (hexByte value).toNat = (hexDigit value).toNat := by
  have code := hexDigit_toNat value small
  exact UInt8.toNat_ofNat_of_lt (show (hexDigit value).toNat < 256 by split at code <;> omega)

/-- `to_hex` as bytes: the digit bytes of each byte's halves. -/
def hexBytes (bytes : List UInt8) : List UInt8 :=
  bytes.flatMap fun byte => [hexByte (byte.toNat / 16), hexByte (byte.toNat % 16)]

theorem hexBytes_cons (byte : UInt8) (rest : List UInt8) :
    hexBytes (byte :: rest) =
      hexByte (byte.toNat / 16) :: hexByte (byte.toNat % 16) :: hexBytes rest := rfl

theorem hexDigitValue_hexByte {value : Nat} (small : value < 16) :
    hexDigitValue (hexByte value) = some value :=
  hexDigitValue_eq_some.mpr ⟨small, .inl (hexByte_toNat small)⟩

theorem hexDigitValue_dash : hexDigitValue 0x2D = none := rfl

theorem ne_dash_of_isSome {byte : UInt8} (digit : (hexDigitValue byte).isSome) : byte ≠ 0x2D := by
  rintro rfl
  simp [hexDigitValue_dash] at digit

theorem asBytes_append (front back : List Char) :
    asBytes (front ++ back) = asBytes front ++ asBytes back := List.flatMap_append _ _ _

theorem asBytes_toHex (bytes : List UInt8) : asBytes (toHex bytes) = hexBytes bytes := by
  induction bytes with
  | nil => rfl
  | cons byte rest inductionHypothesis =>
      have high : byte.toNat / 16 < 16 := by have := uint8_toNat_lt byte; omega
      have low : byte.toNat % 16 < 16 := Nat.mod_lt _ (by decide)
      have ascii : ∀ value, value < 16 → (hexDigit value).toNat < 0x80 := fun value small => by
        have code := hexDigit_toNat value small
        split at code <;> omega
      simp only [toHex, hexBytes, List.flatMap_cons, asBytes_append] at inductionHypothesis ⊢
      rw [inductionHypothesis]
      simp [asBytes, utf8EncodeChar_of_lt (ascii _ high), utf8EncodeChar_of_lt (ascii _ low),
        hexByte]

/-- Decoding what `to_hex` writes gives the bytes back. -/
theorem decodeHexPairs_hexBytes (bytes : List UInt8) : decodeHexPairs (hexBytes bytes) = .ok bytes := by
  induction bytes with
  | nil => rfl
  | cons byte rest inductionHypothesis =>
      have high : byte.toNat / 16 < 16 := by have := uint8_toNat_lt byte; omega
      have whole : UInt8.ofNat (byte.toNat / 16 * 16 + byte.toNat % 16) = byte := by
        rw [show byte.toNat / 16 * 16 + byte.toNat % 16 = byte.toNat by omega]
        exact UInt8.toNat.inj (UInt8.toNat_ofNat_of_lt (uint8_toNat_lt byte))
      rw [hexBytes_cons, decodeHexPairs]
      simp only [hexDigitValue_hexByte high,
        hexDigitValue_hexByte (Nat.mod_lt _ (by decide)), inductionHypothesis, whole]
      rfl

/-- Decoding an even number of bytes succeeds exactly when every byte is a hex digit. -/
theorem decodeHexPairs_isOk :
    ∀ {s : List UInt8}, s.length % 2 = 0 →
      ((∃ bytes, decodeHexPairs s = .ok bytes) ↔ ∀ byte ∈ s, (hexDigitValue byte).isSome)
  | [], _ => by simp [decodeHexPairs]
  | [_], odd => by simp at odd
  | high :: low :: rest, even => by
      have inductionHypothesis := @decodeHexPairs_isOk rest
        (by simp only [List.length_cons] at even; omega)
      simp only [decodeHexPairs, List.mem_cons, forall_eq_or_imp]
      cases hexDigitValue high <;> cases hexDigitValue low <;>
        simp [← inductionHypothesis, Except.map]
      · constructor
        · rintro ⟨bytes, decoded⟩
          split at decoded
          · cases decoded
          · exact ⟨_, ‹_›⟩
        · rintro ⟨bytes, decoded⟩
          exact ⟨_, by rw [decoded]⟩

theorem toHex_append (front back : List UInt8) :
    toHex (front ++ back) = toHex front ++ toHex back := List.flatMap_append _ _ _

theorem hexBytes_append (front back : List UInt8) :
    hexBytes (front ++ back) = hexBytes front ++ hexBytes back := List.flatMap_append _ _ _

theorem hexBytes_length (bytes : List UInt8) : (hexBytes bytes).length = 2 * bytes.length := by
  induction bytes with
  | nil => rfl
  | cons byte rest inductionHypothesis =>
      rw [hexBytes_cons, List.length_cons, List.length_cons, inductionHypothesis, List.length_cons]
      omega

theorem hexDigitValue_of_mem_hexBytes {byte : UInt8} {bytes : List UInt8} (mem : byte ∈ hexBytes bytes) :
    (hexDigitValue byte).isSome := by
  obtain ⟨source, -, pair⟩ := List.mem_flatMap.mp mem
  have high : source.toNat / 16 < 16 := by have := uint8_toNat_lt source; omega
  rcases List.mem_pair.mp pair with rfl | rfl
  · simp [hexDigitValue_hexByte high]
  · simp [hexDigitValue_hexByte (Nat.mod_lt _ (by decide))]

theorem decodeHexPairs_append :
    ∀ {front : List UInt8} (back : List UInt8), front.length % 2 = 0 →
      decodeHexPairs (front ++ back) =
        (decodeHexPairs front).bind fun decoded => (decodeHexPairs back).map (decoded ++ ·)
  | [], back, _ => by
      simp only [List.nil_append, decodeHexPairs]
      cases decodeHexPairs back <;> rfl
  | [_], _, odd => by simp at odd
  | high :: low :: rest, back, even => by
      have inductionHypothesis := @decodeHexPairs_append rest back
        (by simp only [List.length_cons] at even; omega)
      simp only [List.cons_append, decodeHexPairs, List.append_eq, inductionHypothesis]
      cases hexDigitValue high <;> cases hexDigitValue low <;> try rfl
      cases decodeHexPairs rest <;> cases decodeHexPairs back <;> rfl

theorem decodeHexPairs_length :
    ∀ {s decoded : List UInt8}, decodeHexPairs s = .ok decoded → decoded.length = s.length / 2
  | [], _, decoded => by cases decoded; rfl
  | [_], _, decoded => by cases decoded; simp
  | high :: low :: rest, decoded, parsed => by
      simp only [decodeHexPairs] at parsed
      split at parsed
      · cases parsed
      · cases parsed
      · cases rest' : decodeHexPairs rest with
        | error => simp [rest', Except.map] at parsed
        | ok tail =>
            simp only [rest', Except.map, Except.ok.injEq] at parsed
            subst parsed
            simp [decodeHexPairs_length rest']
            omega

/-- Lowercasing a hex digit gives the digit `to_hex` writes for its value. -/
theorem hexByte_eq_toLowerByte {byte : UInt8} {value : Nat} (digit : hexDigitValue byte = some value) :
    hexByte value = toLowerByte byte := by
  obtain ⟨small, same | ⟨large, upper⟩⟩ := hexDigitValue_eq_some.mp digit
  all_goals
    have code := hexDigit_toNat value small
    have byteLt := uint8_toNat_lt byte
    apply UInt8.toNat.inj
    rw [hexByte_toNat small, toLowerByte]
    split_ifs with range
    · show _ = (byte.toNat + 32) % 256
      split at code <;> omega
    · split at code <;> omega

/-- Writing back what `from_hex` read gives the text, lowercased. -/
theorem decodeHexPairs_lowercase :
    ∀ {s decoded : List UInt8}, s.length % 2 = 0 → decodeHexPairs s = .ok decoded →
      hexBytes decoded = s.map toLowerByte
  | [], _, _, decoded => by cases decoded; rfl
  | [_], _, odd, _ => by simp at odd
  | high :: low :: rest, decoded, even, parsed => by
      simp only [decodeHexPairs] at parsed
      split at parsed
      · cases parsed
      · cases parsed
      · rename_i highValue lowValue highDigit lowDigit
        cases rest' : decodeHexPairs rest with
        | error => simp [rest', Except.map] at parsed
        | ok tail =>
            simp only [rest', Except.map, Except.ok.injEq] at parsed
            subst parsed
            have highSmall := (hexDigitValue_eq_some.mp highDigit).1
            have lowSmall := (hexDigitValue_eq_some.mp lowDigit).1
            have value : (UInt8.ofNat (highValue * 16 + lowValue)).toNat = highValue * 16 + lowValue :=
              UInt8.toNat_ofNat_of_lt (show highValue * 16 + lowValue < 256 by omega)
            rw [hexBytes_cons, value, decodeHexPairs_lowercase
              (by simp only [List.length_cons] at even; omega) rest',
              show (highValue * 16 + lowValue) / 16 = highValue by omega,
              show (highValue * 16 + lowValue) % 16 = lowValue by omega,
              hexByte_eq_toLowerByte highDigit, hexByte_eq_toLowerByte lowDigit]
            rfl

/-! ## Little-endian bytes -/

theorem leBytes_length : ∀ count value, (leBytes count value).length = count
  | 0, _ => rfl
  | count + 1, value => by simp [leBytes, leBytes_length count]

theorem ofDigits_leBytes : ∀ count value,
    Nat.ofDigits 256 ((leBytes count value).map UInt8.toNat) = value % 256 ^ count
  | 0, value => by simp [leBytes, Nat.mod_one]
  | count + 1, value => by
      rw [leBytes, List.map_cons, Nat.ofDigits_cons, ofDigits_leBytes count, Nat.pow_succ,
        Nat.mul_comm (256 ^ count), Nat.mod_mul]
      rfl

theorem leBytes_ofDigits : ∀ bytes : List UInt8,
    leBytes bytes.length (Nat.ofDigits 256 (bytes.map UInt8.toNat)) = bytes
  | [] => rfl
  | byte :: rest => by
      have byteLt := uint8_toNat_lt byte
      rw [List.length_cons, leBytes, List.map_cons, Nat.ofDigits_cons,
        show (byte.toNat + 256 * Nat.ofDigits 256 (rest.map UInt8.toNat)) / 256 =
          Nat.ofDigits 256 (rest.map UInt8.toNat) by omega, leBytes_ofDigits rest]
      congr 1
      apply UInt8.toNat.inj
      show _ % 256 = _
      omega

namespace DescrId

theorem fromLeBytes_toLeBytes (id : DescrId) : fromLeBytes id.toLeBytes = id := by
  have valueLt : id.value.toNat < 256 ^ 8 := id.value.val.isLt
  rw [fromLeBytes, toLeBytes, ofDigits_leBytes, Nat.mod_eq_of_lt valueLt]
  exact congrArg DescrId.mk (UInt64.toNat.inj (UInt64.toNat_ofNat_of_lt id.value.val.isLt))

theorem toLeBytes_fromLeBytes {bytes : List UInt8} (length : bytes.length = 8) :
    (fromLeBytes bytes).toLeBytes = bytes := by
  have valueLt : Nat.ofDigits 256 (bytes.map UInt8.toNat) < 256 ^ 8 := by
    rw [← length, ← List.length_map bytes UInt8.toNat]
    exact Nat.ofDigits_lt_base_pow_length (by decide) fun digit mem => by
      obtain ⟨byte, -, rfl⟩ := List.mem_map.mp mem
      exact uint8_toNat_lt byte
  rw [toLeBytes, fromLeBytes, UInt64.toNat_ofNat_of_lt valueLt, ← length, leBytes_ofDigits]

/-! ## `from_str` -/

/-- The text `from_str` reads: eight bytes, `-`, eight bytes, no other `-`, decoded. -/
theorem fromStr_dashed {high low : List UInt8} (highLength : high.length = 8)
    (lowLength : low.length = 8) (noDash : 0x2D ∉ high ++ low) :
    fromStr (high ++ [0x2D] ++ low) = (decodeHexPairs (high ++ low)).map fromLeBytes := by
  have clean : ∀ part : List UInt8, (∀ byte ∈ part, byte ≠ 0x2D) → part.filter (· ≠ 0x2D) = part :=
    fun part absent => List.filter_eq_self.mpr fun byte mem => decide_eq_true (absent byte mem)
  have filtered : (high ++ [0x2D] ++ low).filter (· ≠ 0x2D) = high ++ low := by
    rw [List.filter_append, List.filter_append,
      clean high fun byte mem same => noDash (List.mem_append_left low (by rw [← same]; exact mem)),
      clean low fun byte mem same => noDash (List.mem_append_right high (by rw [← same]; exact mem))]
    simp
  have dash : (high ++ [0x2D] ++ low).getD 8 0 = 0x2D := by
    rw [List.getD_eq_getElem?_getD, List.append_assoc, List.getElem?_append_right (by omega),
      highLength]
    simp
  simp only [fromStr, List.length_append, highLength, lowLength, List.length_singleton, dash,
    filtered, fromHexArray8]
  rfl

/-- `from_str` exactly: the text is eight bytes, `-` and eight bytes, with no other `-`,
and its digits decode to the identifier's bytes. -/
theorem fromStr_eq_ok_iff {s : List UInt8} {id : DescrId} :
    fromStr s = .ok id ↔
      ∃ high low : List UInt8, high.length = 8 ∧ low.length = 8 ∧ 0x2D ∉ high ++ low ∧
        s = high ++ [0x2D] ++ low ∧ (decodeHexPairs (high ++ low)).map fromLeBytes = .ok id := by
  constructor
  · intro parsed
    unfold fromStr at parsed
    split_ifs at parsed with lengthNe dashNe
    have length := not_not.mp lengthNe
    have eight : 8 < s.length := by omega
    have split : s = s.take 8 ++ [0x2D] ++ s.drop 9 := by
      have middle : s[8] = 0x2D := by
        rw [← not_not.mp dashNe, List.getD_eq_getElem?_getD, List.getElem?_eq_getElem eight]
        rfl
      rw [← middle, List.append_assoc, List.singleton_append, ← List.drop_eq_getElem_cons eight,
        List.take_append_drop]
    have filteredLength : (s.filter (· ≠ 0x2D)).length = 16 := by
      cases hex : fromHexArray8 (s.filter (· ≠ 0x2D)) with
      | error =>
          rw [hex] at parsed
          cases parsed
      | ok bytes =>
          unfold fromHexArray8 at hex
          split_ifs at hex with odd wide
          omega
    have parts : (s.filter (· ≠ 0x2D)).length =
        ((s.take 8).filter (· ≠ 0x2D)).length + ((s.drop 9).filter (· ≠ 0x2D)).length := by
      conv_lhs => rw [split]
      simp
    have highLength : (s.take 8).length = 8 := by simp [length]
    have lowLength : (s.drop 9).length = 8 := by simp [length]
    have highAll := List.length_filter_le (· ≠ (0x2D : UInt8)) (s.take 8)
    have lowAll := List.length_filter_le (· ≠ (0x2D : UInt8)) (s.drop 9)
    have noDash : 0x2D ∉ s.take 8 ++ s.drop 9 := by
      have highClean := List.filter_length_eq_length.mp
        (show ((s.take 8).filter (· ≠ 0x2D)).length = (s.take 8).length by omega)
      have lowClean := List.filter_length_eq_length.mp
        (show ((s.drop 9).filter (· ≠ 0x2D)).length = (s.drop 9).length by omega)
      intro mem
      rcases List.mem_append.mp mem with high | low
      · simpa using highClean _ high
      · simpa using lowClean _ low
    refine ⟨s.take 8, s.drop 9, highLength, lowLength, noDash, split, ?_⟩
    rw [← fromStr_dashed highLength lowLength noDash, ← split]
    unfold fromStr
    rw [if_neg lengthNe, if_neg dashNe]
    exact parsed
  · rintro ⟨high, low, highLength, lowLength, noDash, rfl, decoded⟩
    rw [fromStr_dashed highLength lowLength noDash, decoded]

end DescrId

/-! ## The text of `DescrId` -/

namespace DescrId

theorem toLeBytes_length (id : DescrId) : id.toLeBytes.length = 8 := leBytes_length _ _

theorem toHex_length (bytes : List UInt8) : (toHex bytes).length = 2 * bytes.length := by
  induction bytes with
  | nil => rfl
  | cons byte rest inductionHypothesis =>
      simp only [toHex, List.flatMap_cons, List.length_append, List.length_cons,
        List.length_nil] at inductionHypothesis ⊢
      omega

theorem mem_toHex {c : Char} {bytes : List UInt8} (mem : c ∈ toHex bytes) :
    ∃ value < 16, c = hexDigit value := by
  obtain ⟨byte, -, pair⟩ := List.mem_flatMap.mp mem
  have high : byte.toNat / 16 < 16 := by have := uint8_toNat_lt byte; omega
  rcases List.mem_pair.mp pair with rfl | rfl
  · exact ⟨_, high, rfl⟩
  · exact ⟨_, Nat.mod_lt _ (by decide), rfl⟩

/-- The bytes `Display` writes. -/
theorem asBytes_display (id : DescrId) :
    asBytes id.display =
      hexBytes (id.toLeBytes.take 4) ++ [0x2D] ++ hexBytes (id.toLeBytes.drop 4) := by
  rw [display, asBytes_append, asBytes_append, asBytes_toHex, asBytes_toHex]
  rfl

/-- What `from_str` accepts: the dashed text of hex digits. -/
theorem fromStr_isOk_iff {s : List UInt8} :
    (∃ id, fromStr s = .ok id) ↔
      ∃ high low : List UInt8, high.length = 8 ∧ low.length = 8 ∧
        (∀ byte ∈ high ++ low, (hexDigitValue byte).isSome) ∧ s = high ++ [0x2D] ++ low := by
  constructor
  · rintro ⟨id, parsed⟩
    obtain ⟨high, low, highLength, lowLength, -, rfl, decoded⟩ := fromStr_eq_ok_iff.mp parsed
    have even : (high ++ low).length % 2 = 0 := by simp [highLength, lowLength]
    refine ⟨high, low, highLength, lowLength, (decodeHexPairs_isOk even).mp ?_, rfl⟩
    cases decoding : decodeHexPairs (high ++ low) with
    | error => rw [decoding] at decoded; cases decoded
    | ok bytes => exact ⟨bytes, rfl⟩
  · rintro ⟨high, low, highLength, lowLength, digits, rfl⟩
    have even : (high ++ low).length % 2 = 0 := by simp [highLength, lowLength]
    obtain ⟨bytes, decoded⟩ := (decodeHexPairs_isOk even).mpr digits
    exact ⟨fromLeBytes bytes, fromStr_eq_ok_iff.mpr ⟨high, low, highLength, lowLength,
      fun dash => ne_dash_of_isSome (digits _ dash) rfl, rfl, by rw [decoded]; rfl⟩⟩

/-- What `Display` writes for what `from_str` read: the text, lowercased. -/
theorem asBytes_display_of_fromStr {s : List UInt8} {id : DescrId} (parsed : fromStr s = .ok id) :
    asBytes id.display = s.map toLowerByte := by
  obtain ⟨high, low, highLength, lowLength, -, rfl, decoded⟩ := fromStr_eq_ok_iff.mp parsed
  rw [decodeHexPairs_append low (by simp [highLength])] at decoded
  cases highDecoded : decodeHexPairs high with
  | error => rw [highDecoded] at decoded; cases decoded
  | ok highBytes =>
      cases lowDecoded : decodeHexPairs low with
      | error => rw [highDecoded, lowDecoded] at decoded; cases decoded
      | ok lowBytes =>
          rw [highDecoded, lowDecoded] at decoded
          cases decoded
          have highBytesLength : highBytes.length = 4 := by
            rw [decodeHexPairs_length highDecoded, highLength]
          have lowBytesLength : lowBytes.length = 4 := by
            rw [decodeHexPairs_length lowDecoded, lowLength]
          rw [asBytes_display, toLeBytes_fromLeBytes (by simp [highBytesLength, lowBytesLength]),
            List.take_left' highBytesLength, List.drop_left' highBytesLength,
            decodeHexPairs_lowercase (by simp [highLength]) highDecoded,
            decodeHexPairs_lowercase (by simp [lowLength]) lowDecoded]
          simp only [List.map_append]
          rfl

theorem toLeBytes_halves (id : DescrId) :
    (id.toLeBytes.take 4).length = 4 ∧ (id.toLeBytes.drop 4).length = 4 := by
  simp [toLeBytes_length]

/-- `from_str` reads back the bytes of every `Display`. -/
theorem fromStr_asBytes_display (id : DescrId) : fromStr (asBytes id.display) = .ok id := by
  have noDash : 0x2D ∉ hexBytes (id.toLeBytes.take 4) ++ hexBytes (id.toLeBytes.drop 4) := by
    rw [← hexBytes_append]
    exact fun dash => ne_dash_of_isSome (hexDigitValue_of_mem_hexBytes dash) rfl
  rw [asBytes_display, fromStr_dashed (by simp [hexBytes_length, toLeBytes_halves id])
    (by simp [hexBytes_length, toLeBytes_halves id]) noDash, ← hexBytes_append,
    List.take_append_drop, decodeHexPairs_hexBytes]
  exact congrArg Except.ok (fromLeBytes_toLeBytes id)

/-- `Display` writes eight hex digits, `-`, eight more, spelling the little-endian bytes. -/
theorem display_eq_dashed_hex (id : DescrId) :
    ∃ high low : List Char, id.display = high ++ ['-'] ++ low ∧
      high.length = 8 ∧ low.length = 8 ∧ (∀ c ∈ high ++ low, ∃ value < 16, c = hexDigit value) ∧
      decodeHexPairs (asBytes (high ++ low)) = .ok id.toLeBytes := by
  refine ⟨_, _, rfl, by simp [toHex_length, toLeBytes_halves id],
    by simp [toHex_length, toLeBytes_halves id], fun c mem => ?_, ?_⟩
  · rw [← toHex_append, List.take_append_drop] at mem
    exact mem_toHex mem
  · rw [asBytes_append, asBytes_toHex, asBytes_toHex, ← hexBytes_append, List.take_append_drop,
      decodeHexPairs_hexBytes]

end DescrId

/-- The text codec of `DescrId`: `from_str` reads back the bytes of every `Display`;
`Display` writes eight lowercase hex digits, `-`, eight more, spelling the little-endian
bytes; `from_str` accepts exactly eight hex digits of either case, `-`, eight more, and
then `Display` writes the text back lowercased. -/
theorem descrId_text :
    (∀ id : DescrId, DescrId.fromStr (asBytes id.display) = .ok id) ∧
    (∀ id : DescrId, ∃ high low : List Char, id.display = high ++ ['-'] ++ low ∧
      high.length = 8 ∧ low.length = 8 ∧ (∀ c ∈ high ++ low, ∃ value < 16, c = hexDigit value) ∧
      decodeHexPairs (asBytes (high ++ low)) = .ok id.toLeBytes) ∧
    (∀ s : List UInt8, (∃ id, DescrId.fromStr s = .ok id) ↔
      ∃ high low : List UInt8, high.length = 8 ∧ low.length = 8 ∧
        (∀ byte ∈ high ++ low, (hexDigitValue byte).isSome) ∧ s = high ++ [0x2D] ++ low) ∧
    (∀ (s : List UInt8) (id : DescrId), DescrId.fromStr s = .ok id →
      asBytes id.display = s.map toLowerByte) :=
  ⟨DescrId.fromStr_asBytes_display, DescrId.display_eq_dashed_hex,
    fun _ => DescrId.fromStr_isOk_iff, fun _ _ => DescrId.asBytes_display_of_fromStr⟩

example : (DescrId.fromLeBytes [0xde, 0xad, 0xbe, 0xef, 0xbe, 0xad, 0xca, 0xfe]).display =
    "deadbeef-beadcafe".toList := by decide

end BpStd.Descriptors
