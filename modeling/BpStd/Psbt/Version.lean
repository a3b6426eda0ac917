import Mathlib.Algebra.Group.Nat.Basic

/-!
Contract: the PSBT version of `psbt/src/lib.rs`.

Owns: `PsbtVer` with `try_from_standard_u32`, `to_standard_u32`, `max` and
`TryFrom<usize>`, and `PsbtUnsupportedVer`.

Both conversions into `PsbtVer` match the same two values; that match is one
definition here, `standardVersion`.  They differ in their error: `TryFrom<usize>`
reports `value as u32`, the low 32 bits of its input, and a `usize` is read as a
64-bit word.

Does not own: `Display` (`v0`, `v2`), which no modelled function reads.
-/

namespace BpStd.Psbt

/-- `PsbtVer`, with the discriminants `V0 = 0` and `V2 = 2`. -/
inductive PsbtVer where
  | v0
  | v2
deriving Repr, DecidableEq

/-- `PsbtUnsupportedVer(u32)`. -/
structure PsbtUnsupportedVer where
  version : UInt32
deriving Repr, DecidableEq

namespace PsbtVer

/-- The arms `0 => V0` and `2 => V2` both conversions match. -/
def standardVersion (value : Nat) : Option PsbtVer :=
  if value = 0 then some .v0 else if value = 2 then some .v2 else none

/-- `PsbtVer::try_from_standard_u32`. -/
def tryFromStandardU32 (v : UInt32) : Except PsbtUnsupportedVer PsbtVer :=
  match standardVersion v.toNat with
  | some version => .ok version
  | none => .error ⟨v⟩

/-- `TryFrom<usize> for PsbtVer`: the error holds `value as u32`. -/
def tryFromUsize (value : UInt64) : Except PsbtUnsupportedVer PsbtVer :=
  match standardVersion value.toNat with
  | some version => .ok version
  | none => .error ⟨value.toUInt32⟩

/-- `PsbtVer::to_standard_u32`: `*self as u32`. -/
def toStandardU32 : PsbtVer → UInt32
  | .v0 => 0
  | .v2 => 2

/-- `PsbtVer::max`. -/
def max : PsbtVer :=
  match PsbtVer.v0 with
  | .v0 | .v2 => .v2

end PsbtVer

end BpStd.Psbt
