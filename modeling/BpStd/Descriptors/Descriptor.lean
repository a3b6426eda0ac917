import BpStd.Descriptors.SingleSig

/-!
Contract: `StdDescr` of `descriptors/src/descriptor.rs`, the descriptor kinds the
parsers of `compile.rs` build, the combinator enums `Sh`, `Wsh`, `ShWsh` and `Tr` with
their conversions into `StdDescr`, and `Display`.

Owns: the records of the multi-key descriptors and `ConfinedVec` (their types live
outside `src/`; the fields are those `compile.rs` fills), and the dispatch of
`StdDescr`'s `Display`.  The multi-key descriptors' own `Display` is outside `src/` and
is modelled from the grammar of the spec.

Does not own: the script-template descriptors (`Raw`, `ShScript`, `WshScript`,
`ShWshScript`, `TrScript`), which no parser of `compile.rs` ever returns and are left
out of the enums.
-/

namespace BpStd.Descriptors

/-- Modelled from the spec: `amplify::confinement::ConfinedVec<K, MIN, MAX>`, a vector whose length its type
bounds. -/
structure ConfinedVec (K : Type) (minLen maxLen : Nat) where
  items : List K
  min_le_length : minLen ≤ items.length
  length_le_max : items.length ≤ maxLen

/-- Modelled from the spec: `amplify::confinement::Error`, the variants `try_from_iter` returns. -/
inductive ConfinementError where
  | undersize (len minLen : Nat)
  | oversize (len maxLen : Nat)
deriving Repr, DecidableEq

/-- Modelled from the spec: `ConfinedVec::try_from_iter`. -/
def ConfinedVec.tryFromIter {K : Type} {minLen maxLen : Nat} (items : List K) :
    Except ConfinementError (ConfinedVec K minLen maxLen) :=
  if under : items.length < minLen then .error (.undersize items.length minLen)
  else if over : maxLen < items.length then .error (.oversize items.length maxLen)
  else .ok ⟨items, by omega, by omega⟩

/-- A confined vector's own items are within its bounds. -/
theorem ConfinedVec.tryFromIter_items {K : Type} {minLen maxLen : Nat}
    (vec : ConfinedVec K minLen maxLen) : ConfinedVec.tryFromIter vec.items = .ok vec := by
  obtain ⟨items, long, short⟩ := vec
  simp [ConfinedVec.tryFromIter, Nat.not_lt.mpr long, Nat.not_lt.mpr short]

/-- `try_from_iter` keeps the items it is given, in order. -/
theorem ConfinedVec.tryFromIter_eq_ok {K : Type} {minLen maxLen : Nat} {items : List K}
    {vec : ConfinedVec K minLen maxLen} :
    ConfinedVec.tryFromIter items = .ok vec ↔ vec.items = items := by
  constructor
  · intro built
    unfold ConfinedVec.tryFromIter at built
    split at built
    · cases built
    · split at built
      · cases built
      · cases built
        rfl
  · rintro rfl
    exact ConfinedVec.tryFromIter_items vec

/-- Modelled from the spec: `ShMulti`, `ShSortedMulti`, `WshMulti`, `WshSortedMulti`, `ShWshMulti` and
`ShWshSortedMulti`: the `u4` threshold and the keys `parse_multi_form` returns. -/
structure MultiSig (K : Type) where
  threshold : Fin 16
  keys : ConfinedVec K 1 16

/-- Modelled from the spec: `TrKey`, a key-only taproot output. -/
structure TrKey (K : Type) where
  internalKey : K

/-- Modelled from the spec: `TrMulti` and `TrSortedMulti`, what `parse_tr_form` returns. -/
structure TrMultiSig (K : Type) where
  internalKey : K
  threshold : UInt16
  scriptKeys : ConfinedVec K 1 999

/-- Modelled from the spec: `Sh<K>`, without its script-template variants. -/
inductive Sh (K : Type) where
  | wpkh (descriptor : ShWpkh K)
  | shMulti (descriptor : MultiSig K)
  | shSortedMulti (descriptor : MultiSig K)
  | wshMulti (descriptor : MultiSig K)
  | wshSortedMulti (descriptor : MultiSig K)

/-- Modelled from the spec: `Wsh<K>`, without its script-template variant. -/
inductive Wsh (K : Type) where
  | multi (descriptor : MultiSig K)
  | sortedMulti (descriptor : MultiSig K)

/-- Modelled from the spec: `ShWsh<K>`, without its script-template variant. -/
inductive ShWsh (K : Type) where
  | multi (descriptor : MultiSig K)
  | sortedMulti (descriptor : MultiSig K)

/-- Modelled from the spec: `Tr<K>`, without its script-tree variant. -/
inductive Tr (K : Type) where
  | keyOnly (descriptor : TrKey K)
  | multi (descriptor : TrMultiSig K)
  | sortedMulti (descriptor : TrMultiSig K)

/-- `StdDescr<K>` over one key type for the legacy, compressed and x-only keys, without
the script-template variants `Raw`, `ShScript`, `WshScript`, `ShWshScript` and `TrTree`:
their types are outside src/, and `StdDescr::from_str` never builds them. -/
inductive StdDescr (K : Type) where
  | pkh (descriptor : Pkh K)
  | shMulti (descriptor : MultiSig K)
  | shSortedMulti (descriptor : MultiSig K)
  | wpkh (descriptor : Wpkh K)
  | wshMulti (descriptor : MultiSig K)
  | wshSortedMulti (descriptor : MultiSig K)
  | shWpkh (descriptor : ShWpkh K)
  | shWshMulti (descriptor : MultiSig K)
  | shWshSortedMulti (descriptor : MultiSig K)
  | trKey (descriptor : TrKey K)
  | trMulti (descriptor : TrMultiSig K)
  | trSortedMulti (descriptor : TrMultiSig K)

variable {K : Type}

/-- Modelled from the spec: `From<ShWsh> for Sh`. -/
def ShWsh.toSh : ShWsh K → Sh K
  | .multi descriptor => .wshMulti descriptor
  | .sortedMulti descriptor => .wshSortedMulti descriptor

/-- `From<Sh<S>> for StdDescr<S>`. -/
def Sh.toStdDescr : Sh K → StdDescr K
  | .wpkh descriptor => .shWpkh descriptor
  | .shMulti descriptor => .shMulti descriptor
  | .shSortedMulti descriptor => .shSortedMulti descriptor
  | .wshMulti descriptor => .shWshMulti descriptor
  | .wshSortedMulti descriptor => .shWshSortedMulti descriptor

/-- `From<Wsh<S::Compr>> for StdDescr<S>`. -/
def Wsh.toStdDescr : Wsh K → StdDescr K
  | .multi descriptor => .wshMulti descriptor
  | .sortedMulti descriptor => .wshSortedMulti descriptor

/-- `From<ShWsh<S::Compr>> for StdDescr<S>`. -/
def ShWsh.toStdDescr : ShWsh K → StdDescr K
  | .multi descriptor => .shWshMulti descriptor
  | .sortedMulti descriptor => .shWshSortedMulti descriptor

/-- `From<Tr<S::XOnly>> for StdDescr<S>`. -/
def Tr.toStdDescr : Tr K → StdDescr K
  | .keyOnly descriptor => .trKey descriptor
  | .multi descriptor => .trMulti descriptor
  | .sortedMulti descriptor => .trSortedMulti descriptor

/-! ## Display -/

section Display

variable (keyText : K → List Char)

/-- Modelled from the spec: `inner(k,KEY,…,KEY)` with a decimal threshold and no spaces,
as the strings of the tests are written. -/
def thresholdText (inner : String) (threshold : Nat) (keys : List K) : List Char :=
  callText inner ((Nat.repr threshold).toList ++ keys.flatMap fun key => ',' :: keyText key)

/-- Modelled from the spec: `tr(KEY,inner(k,KEY,…))`. -/
def trThresholdText (inner : String) (descriptor : TrMultiSig K) : List Char :=
  callText "tr" (keyText descriptor.internalKey ++ ',' ::
    thresholdText keyText inner descriptor.threshold.toNat descriptor.scriptKeys.items)

/-- `Display for StdDescr`: each variant writes itself. -/
def StdDescr.display : StdDescr K → List Char
  | .pkh descriptor => descriptor.display keyText
  | .shMulti descriptor =>
      callText "sh" (thresholdText keyText "multi" descriptor.threshold descriptor.keys.items)
  | .shSortedMulti descriptor =>
      callText "sh" (thresholdText keyText "sortedmulti" descriptor.threshold descriptor.keys.items)
  | .wpkh descriptor => descriptor.display keyText
  | .wshMulti descriptor =>
      callText "wsh" (thresholdText keyText "multi" descriptor.threshold descriptor.keys.items)
  | .wshSortedMulti descriptor =>
      callText "wsh"
        (thresholdText keyText "sortedmulti" descriptor.threshold descriptor.keys.items)
  | .shWpkh descriptor => descriptor.display keyText
  | .shWshMulti descriptor =>
      callText "sh" (callText "wsh"
        (thresholdText keyText "multi" descriptor.threshold descriptor.keys.items))
  | .shWshSortedMulti descriptor =>
      callText "sh" (callText "wsh"
        (thresholdText keyText "sortedmulti" descriptor.threshold descriptor.keys.items))
  | .trKey descriptor => callText "tr" (keyText descriptor.internalKey)
  | .trMulti descriptor => trThresholdText keyText "multi_a" descriptor
  | .trSortedMulti descriptor => trThresholdText keyText "sortedmulti_a" descriptor

end Display

end BpStd.Descriptors
