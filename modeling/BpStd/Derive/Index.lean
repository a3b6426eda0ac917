import Mathlib.Algebra.Group.Nat.Basic

/-!
Contract: the index algebra of BIP-32 as `derive/src/index.rs` declares it, and the
`Keychain` and `Terminal` records of `derive/src/derive.rs`.

Both files are outside the repository's `src/`, so everything here is modelled from
the spec: a 32-bit child number split at `HARDENED_INDEX_BOUNDARY = 2³¹`, normal
indices below it, hardened indices stored as `v - 2³¹` beside a hardened flag, and
the `Idx` capability (`child_number`, `is_hardened`) every path element offers.
Each index type carries its range as a field, so an out-of-range index cannot be
built.

Owns: the index types, their `Idx` and `Into<DerivationIndex>` instances,
`NormalIndex::normal(u16)`, the checked increment of a normal index, `Keychain`,
`Terminal`.
-/

namespace BpStd.Derive

/-! ### Width conversions of the index arithmetic -/

@[simp] theorem uint16_toUInt32_toNat (value : UInt16) : value.toUInt32.toNat = value.toNat := rfl

@[simp] theorem uint32_toUInt16_toNat (value : UInt32) :
    value.toUInt16.toNat = value.toNat % 2 ^ 16 := rfl

@[simp] theorem uint32_toUInt8_toNat (value : UInt32) :
    value.toUInt8.toNat = value.toNat % 2 ^ 8 := rfl

theorem uint16_toNat_lt (value : UInt16) : value.toNat < 2 ^ 16 := value.val.isLt

/-- Modelled from the spec: `HARDENED_INDEX_BOUNDARY`, `2³¹`. -/
def hardenedIndexBoundary : Nat := 2 ^ 31

/-- Modelled from the spec: the capability of a derivation-path element. -/
class Idx (I : Type) where
  /-- The `u32` child number of BIP-32. -/
  childNumber : I → UInt32
  isHardened : I → Bool

/-- Modelled from the spec: `NormalIndex(u32)`, always below the boundary. -/
structure NormalIndex where
  index : UInt32
  index_lt : index.toNat < hardenedIndexBoundary
deriving DecidableEq

/-- Modelled from the spec: `HardenedIndex(u32)`, storing `v - 2³¹`. -/
structure HardenedIndex where
  index : UInt32
  index_lt : index.toNat < hardenedIndexBoundary
deriving DecidableEq

/-- Modelled from the spec: `DerivationIndex`, either kind, keeping the distinction. -/
inductive DerivationIndex where
  | normal (index : NormalIndex)
  | hardened (index : HardenedIndex)
deriving DecidableEq

instance : Idx NormalIndex where
  childNumber index := index.index
  isHardened _ := false

instance : Idx HardenedIndex where
  childNumber index := index.index + 0x80000000
  isHardened _ := true

instance : Idx DerivationIndex where
  childNumber
    | .normal index => Idx.childNumber index
    | .hardened index => Idx.childNumber index
  isHardened
    | .normal _ => false
    | .hardened _ => true

/-- Modelled from the spec: `Into<DerivationIndex>`, the conversion the path
comparisons apply to both sides. -/
class IntoDerivationIndex (I : Type) where
  into : I → DerivationIndex

instance : IntoDerivationIndex NormalIndex := ⟨.normal⟩

instance : IntoDerivationIndex HardenedIndex := ⟨.hardened⟩

instance : IntoDerivationIndex DerivationIndex := ⟨id⟩

namespace NormalIndex

/-- `NormalIndex::normal(u16)`: every `u16` is a normal index. -/
def normal (index : UInt16) : NormalIndex :=
  ⟨index.toUInt32, by
    simp only [uint16_toUInt32_toNat, hardenedIndexBoundary]
    have := uint16_toNat_lt index
    omega⟩

/-- The normal index with child number `index`, when it is below the boundary. -/
def ofNat (index : Nat) (index_lt : index < hardenedIndexBoundary) : NormalIndex :=
  ⟨UInt32.ofNat index, by
    rw [UInt32.toNat_ofNat_of_lt
      (show index < 4294967296 by unfold hardenedIndexBoundary at index_lt; omega)]
    exact index_lt⟩

theorem ofNat_index_toNat (index : NormalIndex) :
    ofNat index.index.toNat index.index_lt = index := by
  cases index
  simp only [ofNat, mk.injEq]
  exact UInt32.toNat.inj (UInt32.toNat_ofNat_of_lt (UInt32.toNat_lt_size _))

@[simp] theorem index_ofNat (index : Nat) (index_lt : index < hardenedIndexBoundary) :
    (ofNat index index_lt).index.toNat = index :=
  UInt32.toNat_ofNat_of_lt
    (show index < 4294967296 by unfold hardenedIndexBoundary at index_lt; omega)

/-- Modelled from the spec: `checked_inc_assign`, the index one up, or `None` at the last
normal index, which the call then leaves as it was. -/
def checkedIncAssign (index : NormalIndex) : Option NormalIndex :=
  if next : index.index.toNat + 1 < hardenedIndexBoundary then some (ofNat _ next) else none

theorem checkedIncAssign_eq_none {index : NormalIndex} (last : index.checkedIncAssign = none) :
    index.index.toNat + 1 = hardenedIndexBoundary := by
  unfold checkedIncAssign at last
  split at last
  · cases last
  · have := index.index_lt
    omega

theorem checkedIncAssign_eq_some {index next : NormalIndex}
    (inc : index.checkedIncAssign = some next) :
    next.index.toNat = index.index.toNat + 1 := by
  unfold checkedIncAssign at inc
  split at inc
  · cases inc
    exact index_ofNat _ _
  · cases inc

@[simp] theorem childNumber_toNat (index : NormalIndex) :
    (Idx.childNumber index).toNat = index.index.toNat := rfl

@[simp] theorem normal_index_toNat (index : UInt16) :
    (normal index).index.toNat = index.toNat := rfl

end NormalIndex

/-- Modelled from the spec: `Keychain(u8)`, a tag naming a parallel address stream. -/
structure Keychain where
  value : UInt8

/-- Modelled from the spec: `Terminal { keychain, index }`, one derived position. -/
structure Terminal where
  keychain : Keychain
  index : NormalIndex

/-- `Terminal::new(keychain: impl Into<Keychain>, index: NormalIndex)`. -/
def Terminal.new (keychain : UInt8) (index : NormalIndex) : Terminal := ⟨⟨keychain⟩, index⟩

@[simp] theorem Terminal.new_keychain (keychain : UInt8) (index : NormalIndex) :
    (Terminal.new keychain index).keychain = ⟨keychain⟩ := rfl

@[simp] theorem Terminal.new_index (keychain : UInt8) (index : NormalIndex) :
    (Terminal.new keychain index).index = index := rfl

end BpStd.Derive
