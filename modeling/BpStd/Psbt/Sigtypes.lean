import Mathlib.Logic.Basic

/-!
Contract: `psbt/src/sigtypes.rs`, the sighash type byte and the ECDSA signature with
its sighash byte appended.

Owns: `SighashFlag`, `SighashType` with `from_consensus`, `from_standard`,
`from_psbt_u8`, `into_u8` and `into_u32`, and `EcdsaSig` with `from_bytes` and
`to_vec`.

The six standard values are matched twice in the source, by `from_standard` and, after
masking, by `from_consensus`; the table is one definition here, `standardSighash`,
and each function keeps its own fallback.  The DER codec of `secp256k1` is a pair of
parameters, `serializeDer` and `fromDer`.

Does not own: the constructor functions `all()`, `none()`, … (record literals), the
`Display` text of `NonStandardSighashType`, and `EcdsaSig::sighash_all`.
-/

namespace BpStd.Psbt

/-- `SighashFlag`, `#[repr(u8)]`. -/
inductive SighashFlag where
  | all
  | none
  | single
deriving Repr, DecidableEq

/-- The discriminant `flag as u8`. -/
def SighashFlag.toU8 : SighashFlag → UInt8
  | .all => 0x01
  | .none => 0x02
  | .single => 0x03

/-- `SighashType`. -/
structure SighashType where
  flag : SighashFlag
  anyoneCanPay : Bool
deriving Repr, DecidableEq

/-- `NonStandardSighashType(u32)`. -/
structure NonStandardSighashType where
  value : UInt32
deriving Repr, DecidableEq

namespace SighashType

/-- The six arms `0x01`, `0x02`, `0x03`, `0x81`, `0x82`, `0x83` that `from_consensus` and
`from_standard` both match. -/
def standardSighash (n : UInt32) : Option SighashType :=
  if n = 0x01 then some ⟨.all, false⟩
  else if n = 0x02 then some ⟨.none, false⟩
  else if n = 0x03 then some ⟨.single, false⟩
  else if n = 0x81 then some ⟨.all, true⟩
  else if n = 0x82 then some ⟨.none, true⟩
  else if n = 0x83 then some ⟨.single, true⟩
  else none

/-- `SighashType::from_consensus`: the table on `n & (0x1f | 0x80)`, then the catch-alls. -/
def fromConsensus (n : UInt32) : SighashType :=
  let masked := n &&& (0x1f ||| 0x80)
  match standardSighash masked with
  | some sighashType => sighashType
  | none => if masked &&& 0x80 = 0x80 then ⟨.all, true⟩ else ⟨.all, false⟩

/-- `SighashType::from_standard`. -/
def fromStandard (n : UInt32) : Except NonStandardSighashType SighashType :=
  match standardSighash n with
  | some sighashType => .ok sighashType
  | none => .error ⟨n⟩

/-- `SighashType::from_psbt_u8`. -/
def fromPsbtU8 (val : UInt8) : Except NonStandardSighashType SighashType :=
  fromStandard val.toUInt32

/-- `SighashType::into_u8`: `flag as u8 | (anyone_can_pay as u8) << 7`. -/
def intoU8 (sighashType : SighashType) : UInt8 :=
  sighashType.flag.toU8 ||| (if sighashType.anyoneCanPay then 1 else 0 : UInt8) <<< 7

/-- `SighashType::into_u32`. -/
def intoU32 (sighashType : SighashType) : UInt32 := sighashType.intoU8.toUInt32

end SighashType

/-! ## Signatures -/

/-- `EcdsaSigError`; the `secp256k1::Error` it converts from is dropped by the source's
`#[from(secp256k1::Error)] DerEncoding`. -/
inductive EcdsaSigError where
  | sighashType (error : NonStandardSighashType)
  | emptySignature
  | derEncoding
deriving Repr, DecidableEq

/-- `EcdsaSig` over the signature type `S` of `secp256k1::ecdsa`. -/
structure EcdsaSig (S : Type) where
  sig : S
  sighashType : SighashType

namespace EcdsaSig

variable {S ε : Type}

/-- `EcdsaSig::from_bytes`: `split_last`, the standard sighash byte, then DER. -/
def fromBytes (fromDer : List UInt8 → Except ε S) (bytes : List UInt8) :
    Except EcdsaSigError (EcdsaSig S) := do
  let hashTy ← match bytes.getLast? with
    | some hashTy => .ok hashTy
    | none => .error .emptySignature
  let sighashType ← (SighashType.fromStandard hashTy.toUInt32).mapError .sighashType
  let sig ← (fromDer bytes.dropLast).mapError fun _ => .derEncoding
  pure ⟨sig, sighashType⟩

/-- `EcdsaSig::to_vec`: the DER bytes, then the sighash byte. -/
def toVec (serializeDer : S → List UInt8) (ecdsaSig : EcdsaSig S) : List UInt8 :=
  serializeDer ecdsaSig.sig ++ [ecdsaSig.sighashType.intoU8]

end EcdsaSig

end BpStd.Psbt
