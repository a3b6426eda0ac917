import BpStd.Rust.Num
import BpStd.Rust.Str

/-!
Contract: `psbt/src/timelocks.rs`, the two absolute time-lock newtypes.

Owns: `LockTimestamp` and `LockHeight` with every constructor of the source
(`anytime`, `from_unix_timestamp` / `from_height`, `try_from_consensus_u32` and the
two `TryFrom` impls, `from_str`), their `Display` and its round trip through
`from_str`, and the bound each type's documentation promises of its value (`Valid`).

The two `try_from_consensus_u32` bodies are the same text in the source, so they are
one definition here, `tryFromHeightBased`, applied to each type.  The two `from_str`
and `Display` bodies differ only in the keyword and the error variant and are shared
the same way.  `from_unix_timestamp` and `from_height` compare in opposite directions
and keep their own bodies.

`LockTime`, `LOCKTIME_THRESHOLD` and `LockTime::is_height_based` come from the `bp`
crate; they are modelled from the spec ("values below are block heights").
-/

namespace BpStd.Psbt

open BpStd.Rust

/-- Modelled from the spec: `bp::LOCKTIME_THRESHOLD = 500_000_000`. -/
def locktimeThreshold : UInt32 := 500000000

/-- Modelled from the spec: `bp::LockTime`, the raw `nLockTime` value. -/
structure LockTime where
  consensus : UInt32
deriving Repr, DecidableEq

namespace LockTime

def fromConsensusU32 (lockTime : UInt32) : LockTime := ⟨lockTime⟩

def intoConsensusU32 (lockTime : LockTime) : UInt32 := lockTime.consensus

/-- Modelled from the spec: values below `LOCKTIME_THRESHOLD` are block heights. -/
def isHeightBased (lockTime : LockTime) : Bool := lockTime.consensus < locktimeThreshold

end LockTime

/-- `InvalidTimelock(u32)`. -/
structure InvalidTimelock where
  value : UInt32
deriving Repr, DecidableEq

/-- `TimelockParseError`; `NoRand` belongs to sequence parsing and is not reached here. -/
inductive TimelockParseError where
  | invalidNumber (error : ParseIntError)
  | invalidHeight (value : UInt32)
  | invalidTimestamp (value : UInt32)
  | invalidDescriptor (s : List Char)
deriving Repr, DecidableEq

/-- Documented as "always either 0 or greater than or equal to 500000000". -/
structure LockTimestamp where
  value : UInt32
deriving Repr, DecidableEq

/-- Documented as "always less than 500000000". -/
structure LockHeight where
  value : UInt32
deriving Repr, DecidableEq

/-! ## The bodies the two types share -/

/-- The body of both `try_from_consensus_u32`: reject what is not height-based. -/
def tryFromHeightBased {α : Type} (wrap : UInt32 → α) (lockTime : UInt32) :
    Except InvalidTimelock α :=
  if !(LockTime.fromConsensusU32 lockTime).isHeightBased then .error ⟨lockTime⟩
  else .ok (wrap lockTime)

/-- `u32::from_str`. -/
def parseU32 (s : List Char) : Except ParseIntError UInt32 :=
  (parseUnsigned 4294967295 s).map UInt32.ofNat

/-- The body of both `from_str`, for the opening `keyword` (`time(` or `height(`). -/
def fromStrWith {α : Type} (keyword : List Char) (anytime : α)
    (tryFrom : UInt32 → Except InvalidTimelock α) (invalid : UInt32 → TimelockParseError)
    (s : List Char) : Except TimelockParseError α :=
  let s := Str.toLowercase s
  if s = "0".toList || s = "none".toList then .ok anytime
  else if Str.startsWith s keyword && Str.endsWith s ')' then
    match parseU32 (Str.trimEndMatches (s.drop keyword.length) ')') with
    | .error error => .error (.invalidNumber error)
    | .ok no =>
        match tryFrom no with
        | .ok lock => .ok lock
        | .error _ => .error (invalid no)
  else .error (.invalidDescriptor s)

/-- The body of both `Display` impls. -/
def displayWith (keyword : List Char) (value : UInt32) : List Char :=
  keyword ++ (Nat.repr value.toNat).toList ++ [')']

/-! ## `LockTimestamp` -/

namespace LockTimestamp

def anytime : LockTimestamp := ⟨0⟩

def fromUnixTimestamp (timestamp : UInt32) : Option LockTimestamp :=
  if timestamp < locktimeThreshold then none else some ⟨timestamp⟩

def tryFromConsensusU32 (lockTime : UInt32) : Except InvalidTimelock LockTimestamp :=
  tryFromHeightBased LockTimestamp.mk lockTime

def tryFromLockTime (lockTime : LockTime) : Except InvalidTimelock LockTimestamp :=
  tryFromConsensusU32 lockTime.intoConsensusU32

/-- `TryFrom<u32>`. -/
def tryFrom (value : UInt32) : Except InvalidTimelock LockTimestamp := tryFromConsensusU32 value

def fromStr (s : List Char) : Except TimelockParseError LockTimestamp :=
  fromStrWith "time(".toList anytime tryFrom .invalidTimestamp s

def display (lock : LockTimestamp) : List Char := displayWith "time(".toList lock.value

/-- What the type's documentation promises of its value. -/
def Valid (lock : LockTimestamp) : Prop := lock.value = 0 ∨ locktimeThreshold ≤ lock.value

instance : DecidablePred Valid := fun lock =>
  inferInstanceAs (Decidable (lock.value = 0 ∨ locktimeThreshold ≤ lock.value))

end LockTimestamp

/-! ## `LockHeight` -/

namespace LockHeight

def anytime : LockHeight := ⟨0⟩

def fromHeight (height : UInt32) : Option LockHeight :=
  if height < locktimeThreshold then some ⟨height⟩ else none

def tryFromConsensusU32 (lockTime : UInt32) : Except InvalidTimelock LockHeight :=
  tryFromHeightBased LockHeight.mk lockTime

def tryFromLockTime (lockTime : LockTime) : Except InvalidTimelock LockHeight :=
  tryFromConsensusU32 lockTime.intoConsensusU32

/-- `TryFrom<u32>`. -/
def tryFrom (value : UInt32) : Except InvalidTimelock LockHeight := tryFromConsensusU32 value

def fromStr (s : List Char) : Except TimelockParseError LockHeight :=
  fromStrWith "height(".toList anytime tryFrom .invalidHeight s

def display (lock : LockHeight) : List Char := displayWith "height(".toList lock.value

/-- What the type's documentation promises of its value. -/
def Valid (lock : LockHeight) : Prop := lock.value < locktimeThreshold

instance : DecidablePred Valid := fun lock =>
  inferInstanceAs (Decidable (lock.value < locktimeThreshold))

end LockHeight

/-! ## The text round trip -/

section Text

variable {α : Type}

/-- `u32::from_str` reads back `Display`. -/
theorem parseU32_repr (value : UInt32) : parseU32 (Nat.repr value.toNat).toList = .ok value := by
  have roundTrip : UInt32.ofNat value.toNat = value :=
    UInt32.toNat.inj (UInt32.toNat_ofNat_of_lt value.val.isLt)
  have fits : value.toNat ≤ 4294967295 := Nat.le_of_lt_succ value.val.isLt
  simp only [parseU32, parseUnsigned_repr fits, Except.map, roundTrip]

/-- `from_str` of the text `Display` writes: the keyword check passes and the number reads
back, so the result is `try_from` of the value, with its error replaced. -/
theorem fromStrWith_displayWith {keyword : List Char}
    (lowercase : keyword.map Char.toLower = keyword) (anytime : α)
    (tryFrom : UInt32 → Except InvalidTimelock α) (invalid : UInt32 → TimelockParseError)
    (value : UInt32) :
    fromStrWith keyword anytime tryFrom invalid (displayWith keyword value) =
      (tryFrom value).mapError fun _ => invalid value := by
  have digits : ∀ c ∈ (Nat.repr value.toNat).toList, c.isDigit = true :=
    (toDigits_isDigit_and_accumulate value.toNat).1
  have digitsLower :
      (Nat.repr value.toNat).toList.map Char.toLower = (Nat.repr value.toNat).toList :=
    (List.map_congr_left fun c mem => Str.toLower_of_isDigit (digits c mem)).trans (List.map_id _)
  obtain ⟨front, last, split⟩ : ∃ front last, (Nat.repr value.toNat).toList = front ++ [last] :=
    ⟨_, _, toDigits_eq value.toNat⟩
  have lastDigit : last.isDigit = true :=
    digits last (by rw [split]; exact List.mem_append_right _ (List.mem_singleton_self _))
  have closing : last ≠ ')' := by rintro rfl; exact absurd lastDigit (by decide)
  have lower : Str.toLowercase (displayWith keyword value) = displayWith keyword value := by
    simp only [Str.toLowercase, displayWith, List.map_append, lowercase, digitsLower]
    rfl
  have notKeyword : ∀ word : String, word.toList.getLast? ≠ some ')' →
      displayWith keyword value ≠ word.toList := fun word other same =>
    other (by rw [← same]; simp [displayWith])
  have keywordFound : (Str.startsWith (displayWith keyword value) keyword &&
      Str.endsWith (displayWith keyword value) ')') = true := by
    simp [displayWith, List.append_assoc, Str.endsWith]
  have number : Str.trimEndMatches ((displayWith keyword value).drop keyword.length) ')' =
      (Nat.repr value.toNat).toList := by
    rw [displayWith, List.append_assoc, List.drop_left, split]
    exact Str.trimEndMatches_append_singleton closing
  simp only [fromStrWith, lower, notKeyword "0" (by decide), notKeyword "none" (by decide),
    decide_False, Bool.or_false, keywordFound, number, parseU32_repr, if_true, Bool.false_eq_true,
    if_false]
  cases tryFrom value <;> rfl

theorem tryFromHeightBased_mapError {wrap : UInt32 → α} {lockTime : UInt32}
    {error : TimelockParseError} :
    (tryFromHeightBased wrap lockTime).mapError (fun _ => error) =
      if lockTime < locktimeThreshold then .ok (wrap lockTime) else .error error := by
  unfold tryFromHeightBased LockTime.isHeightBased LockTime.fromConsensusU32
  by_cases below : lockTime < locktimeThreshold <;> simp [below, Except.mapError]

theorem LockHeight.fromStr_display (lock : LockHeight) :
    LockHeight.fromStr lock.display =
      if lock.Valid then .ok lock else .error (.invalidHeight lock.value) := by
  rw [LockHeight.fromStr, LockHeight.display, fromStrWith_displayWith (by decide)]
  exact tryFromHeightBased_mapError

theorem LockTimestamp.fromStr_display (lock : LockTimestamp) :
    LockTimestamp.fromStr lock.display =
      if lock.value < locktimeThreshold then .ok lock
      else .error (.invalidTimestamp lock.value) := by
  rw [LockTimestamp.fromStr, LockTimestamp.display, fromStrWith_displayWith (by decide)]
  exact tryFromHeightBased_mapError

end Text

/-- `from_str` of `to_string`: a `LockHeight` reads back exactly when it is valid, and a
`LockTimestamp` exactly when its value is below the threshold (`anytime` included), since
`time(n)` goes through the timestamp's `try_from`, which accepts only block heights.  So no
timestamp that `from_unix_timestamp` builds reads back from its text. -/
theorem lockTime_display_fromStr :
    (∀ lock : LockHeight, LockHeight.fromStr lock.display =
      if lock.Valid then .ok lock else .error (.invalidHeight lock.value)) ∧
    (∀ lock : LockTimestamp, LockTimestamp.fromStr lock.display =
      if lock.value < locktimeThreshold then .ok lock else .error (.invalidTimestamp lock.value)) ∧
    (∀ (timestamp : UInt32) (lock : LockTimestamp),
      LockTimestamp.fromUnixTimestamp timestamp = some lock →
        LockTimestamp.fromStr lock.display = .error (.invalidTimestamp timestamp)) := by
  refine ⟨LockHeight.fromStr_display, LockTimestamp.fromStr_display,
    fun timestamp lock built => ?_⟩
  unfold LockTimestamp.fromUnixTimestamp at built
  split at built
  · cases built
  · cases built
    rw [LockTimestamp.fromStr_display, if_neg ‹_›]

example : LockTimestamp.fromStr (LockTimestamp.display ⟨500000000⟩) =
    .error (.invalidTimestamp 500000000) := rfl

/-- At the threshold neither type accepts the value, and below it a timestamp of `1`
is built, which its type documentation excludes. -/
theorem lockTimestamp_tryFrom_at_threshold :
    LockTimestamp.tryFrom 500000000 = .error ⟨500000000⟩ ∧
      LockHeight.tryFrom 500000000 = .error ⟨500000000⟩ ∧
      LockTimestamp.tryFrom 1 = .ok ⟨1⟩ ∧
      LockTimestamp.fromStr "time(1)".toList = .ok ⟨1⟩ ∧
      ¬ (⟨1⟩ : LockTimestamp).Valid := by
  refine ⟨rfl, rfl, rfl, rfl, ?_⟩
  decide

end BpStd.Psbt
