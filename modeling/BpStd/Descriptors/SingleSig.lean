/-!
Contract: the single-key descriptors of `descriptors/src/singlesig.rs`: `Pkh`, `Wpkh`
and `ShWpkh`, their `Display`, and the satisfaction `legacy_witness` assembles from the
signatures of a PSBT input.

Owns: the three descriptor records, `legacyWitnessWith`, the body the three
`legacy_witness` share (pick the first key signature whose origin extends the
descriptor's xpub origin, then assemble), each member's assembly, and the standard
satisfactions of the three output kinds they are compared with.

Does not own: keys, signatures, origins and hashes, which are parameters: `xpubOrigin`
is `xpub_spec().origin()`, `isSubsetOf` is `KeyOrigin::is_subset_of`, `pkBytes` and
`sigBytes` are the `to_vec` serializations and `hash160` is HASH160.  Scripts are lists
of pushes and opcodes, as `push_slice` builds them.
-/

namespace BpStd.Descriptors

/-- `Pkh<K>`: pay to public key hash. -/
structure Pkh (K : Type) where
  key : K

/-- `Wpkh<K>`: pay to witness public key hash. -/
structure Wpkh (K : Type) where
  key : K

/-- `ShWpkh<K>`: pay to witness public key hash nested in pay to script hash. -/
structure ShWpkh (K : Type) where
  key : K

/-- `name(inner)`, the text every descriptor writes around its arguments. -/
def callText (name : String) (inner : List Char) : List Char :=
  name.toList ++ '(' :: inner ++ [')']

section Display

variable {K : Type} (keyText : K → List Char)

/-- `write!(f, "pkh({})", self.0)` -/
def Pkh.display (descriptor : Pkh K) : List Char := callText "pkh" (keyText descriptor.key)

/-- `write!(f, "wpkh({})", self.0)` -/
def Wpkh.display (descriptor : Wpkh K) : List Char := callText "wpkh" (keyText descriptor.key)

/-- `write!(f, "sh(wpkh({}))", self.0)` -/
def ShWpkh.display (descriptor : ShWpkh K) : List Char :=
  callText "sh" (callText "wpkh" (keyText descriptor.key))

end Display

/-! ## Satisfactions -/

/-- An element of a script: a data push or an opcode. -/
inductive ScriptElem where
  | push (data : List UInt8)
  | op (code : UInt8)
deriving Repr, DecidableEq

/-- `LegacyKeySig`. -/
structure LegacyKeySig (Pk Sig : Type) where
  key : Pk
  sig : Sig

section Witness

variable {K O Pk Sig : Type} (xpubOrigin : K → O) (isSubsetOf : O → O → Bool)
variable (pkBytes : Pk → List UInt8) (sigBytes : Sig → List UInt8)

/-- `keysigs.iter().find(|(origin, _)| our_origin.is_subset_of(origin)).map(|(_, ks)| ks)`,
over the entries of the `IndexMap` in their order. -/
def findKeySig (ourOrigin : O) (keysigs : List (O × LegacyKeySig Pk Sig)) :
    Option (LegacyKeySig Pk Sig) :=
  (keysigs.find? fun entry => isSubsetOf ourOrigin entry.1).map (·.2)

/-- The body the three `legacy_witness` share: the first matching key signature, then
the variant's `assemble`; `None` when no origin matches.  The redeem and witness
scripts passed in are ignored by all three. -/
def legacyWitnessWith (assemble : LegacyKeySig Pk Sig → List ScriptElem × Option (List (List UInt8)))
    (key : K) (keysigs : List (O × LegacyKeySig Pk Sig)) :
    Option (List ScriptElem × Option (List (List UInt8))) :=
  (findKeySig isSubsetOf (xpubOrigin key) keysigs).map assemble

/-- `Pkh::legacy_witness`: `sig_script = push(sig) push(key)`, no witness. -/
def Pkh.legacyWitness (descriptor : Pkh K) (keysigs : List (O × LegacyKeySig Pk Sig)) :
    Option (List ScriptElem × Option (List (List UInt8))) :=
  legacyWitnessWith xpubOrigin isSubsetOf
    (fun keysig => ([.push (sigBytes keysig.sig), .push (pkBytes keysig.key)], none))
    descriptor.key keysigs

/-- `Wpkh::legacy_witness`: an empty `sig_script` and the witness `[sig, key]`. -/
def Wpkh.legacyWitness (descriptor : Wpkh K) (keysigs : List (O × LegacyKeySig Pk Sig)) :
    Option (List ScriptElem × Option (List (List UInt8))) :=
  legacyWitnessWith xpubOrigin isSubsetOf
    (fun keysig => ([], some [sigBytes keysig.sig, pkBytes keysig.key]))
    descriptor.key keysigs

/-- `ShWpkh::legacy_witness`: the body of `Wpkh::legacy_witness`, an empty `sig_script`
and the witness `[sig, key]`. -/
def ShWpkh.legacyWitness (descriptor : ShWpkh K) (keysigs : List (O × LegacyKeySig Pk Sig)) :
    Option (List ScriptElem × Option (List (List UInt8))) :=
  legacyWitnessWith xpubOrigin isSubsetOf
    (fun keysig => ([], some [sigBytes keysig.sig, pkBytes keysig.key]))
    descriptor.key keysigs

/-- The redeem script of a nested P2WPKH output, `OP_0 <HASH160(key)>`, as bytes. -/
def p2wpkhRedeemScript (hash160 : List UInt8 → List UInt8) (key : Pk) : List UInt8 :=
  0x00 :: 0x14 :: hash160 (pkBytes key)

/-- A script signature and witness spending a P2SH-wrapped P2WPKH output with `keysig`:
the single push of the redeem script, and `[sig, key]`. -/
def nestedWpkhSatisfaction (hash160 : List UInt8 → List UInt8) (keysig : LegacyKeySig Pk Sig) :
    List ScriptElem × Option (List (List UInt8)) :=
  ([.push (p2wpkhRedeemScript pkBytes hash160 keysig.key)],
    some [sigBytes keysig.sig, pkBytes keysig.key])

/-- `ShWpkh::legacy_witness` is `Wpkh`'s: whenever a key signature matches, it returns an
empty script signature with the witness `[sig, key]`, never the single push of the
redeem script that spending a P2SH-wrapped P2WPKH output needs. -/
theorem shWpkh_legacyWitness_omits_redeem_push (hash160 : List UInt8 → List UInt8)
    (descriptor : ShWpkh K) (keysigs : List (O × LegacyKeySig Pk Sig)) :
    ShWpkh.legacyWitness xpubOrigin isSubsetOf pkBytes sigBytes descriptor keysigs =
        Wpkh.legacyWitness xpubOrigin isSubsetOf pkBytes sigBytes ⟨descriptor.key⟩ keysigs ∧
      ∀ keysig, findKeySig isSubsetOf (xpubOrigin descriptor.key) keysigs = some keysig →
        ShWpkh.legacyWitness xpubOrigin isSubsetOf pkBytes sigBytes descriptor keysigs =
            some ([], some [sigBytes keysig.sig, pkBytes keysig.key]) ∧
          ShWpkh.legacyWitness xpubOrigin isSubsetOf pkBytes sigBytes descriptor keysigs ≠
            some (nestedWpkhSatisfaction pkBytes sigBytes hash160 keysig) := by
  refine ⟨rfl, fun keysig found => ?_⟩
  simp [ShWpkh.legacyWitness, legacyWitnessWith, found, nestedWpkhSatisfaction]

end Witness

end BpStd.Descriptors
