import BpStd.Descriptors.SingleSig

/-!
Contract: `SpkClass` of `descriptors/src/descriptor.rs`, the kind of scriptPubkey a
descriptor produces, with its dust limits and the predicates `is_taproot`, `is_segwit`
and `is_segwit_v0`; and the classes the single-key descriptors of `singlesig.rs`
declare, read through the defaults `Descriptor::is_taproot` and `Descriptor::is_segwit`.

Owns: `SpkClass` and its four functions, `class` of `Pkh`, `Wpkh` and `ShWpkh`.

Does not own: the classes of the multi-key and script descriptors, whose types are
outside `src/`, and `Display` (`#[display(lowercase)]`).
-/

namespace BpStd.Descriptors

/-- `SpkClass`. -/
inductive SpkClass where
  | bare
  | p2pkh
  | p2sh
  | p2wpkh
  | p2wsh
  | p2tr
deriving Repr, DecidableEq

namespace SpkClass

/-- `SpkClass::dust_limit`, in satoshis. -/
def dustLimit : SpkClass → Nat
  | .bare => 0
  | .p2pkh => 546
  | .p2sh => 540
  | .p2wpkh => 294
  | .p2wsh | .p2tr => 330

/-- `SpkClass::is_taproot`. -/
def isTaproot : SpkClass → Bool
  | .bare | .p2pkh | .p2sh | .p2wpkh | .p2wsh => false
  | .p2tr => true

/-- `SpkClass::is_segwit`. -/
def isSegwit : SpkClass → Bool
  | .bare | .p2pkh | .p2sh => false
  | .p2wpkh | .p2wsh => true
  | .p2tr => true

/-- `SpkClass::is_segwit_v0`. -/
def isSegwitV0 : SpkClass → Bool
  | .bare | .p2pkh | .p2sh => false
  | .p2wpkh | .p2wsh => true
  | .p2tr => false

end SpkClass

section Class

variable {K : Type}

/-- `Descriptor::class` of `Pkh`. -/
def Pkh.class (_ : Pkh K) : SpkClass := .p2pkh

/-- `Descriptor::class` of `Wpkh`. -/
def Wpkh.class (_ : Wpkh K) : SpkClass := .p2wpkh

/-- `Descriptor::class` of `ShWpkh`: the class of the outer script. -/
def ShWpkh.class (_ : ShWpkh K) : SpkClass := .p2sh

end Class

end BpStd.Descriptors
