import Mathlib.Data.List.Nodup

/-!
Contract: `invoice/src/network.rs`, the Bitcoin networks with their names and their
genesis blocks.

Owns: `Network` with `Display`, `FromStr`, `is_testnet`, `genesis_hash` and
`TryFrom<BlockHash>`, and its conversion into `AddressNetwork`.

The genesis hashes are the `bc` crate's constants `BlockHash::GENESIS_*`, outside
`src/`; they are a parameter here, a record of five hashes that carries the fact that
they differ (`GenesisHashes`).

Does not own: the texts of the errors' `Display`.
-/

namespace BpStd.Invoice

/-- `Network`. -/
inductive Network where
  | mainnet
  | testnet3
  | testnet4
  | signet
  | regtest
deriving Repr, DecidableEq

namespace Network

/-- `Display`: `#[display(lowercase)]`, and `bitcoin` for the main network. -/
def display : Network → String
  | .mainnet => "bitcoin"
  | .testnet3 => "testnet3"
  | .testnet4 => "testnet4"
  | .signet => "signet"
  | .regtest => "regtest"

/-- `UnknownNetwork(String)`. -/
structure UnknownNetwork where
  name : String
deriving Repr, DecidableEq

/-- `FromStr for Network`. -/
def fromStr (s : String) : Except UnknownNetwork Network :=
  match s with
  | "bitcoin" | "mainnet" => .ok .mainnet
  | "testnet" | "testnet3" => .ok .testnet3
  | "testnet4" => .ok .testnet4
  | "signet" => .ok .signet
  | "regtest" => .ok .regtest
  | other => .error ⟨other⟩

/-- `Network::is_testnet`. -/
def isTestnet (network : Network) : Bool := network != .mainnet

end Network

/-- Modelled from the spec: `bc::AddressNetwork`. -/
inductive AddressNetwork where
  | mainnet
  | testnet
  | regtest
deriving Repr, DecidableEq

/-- `From<Network> for AddressNetwork`. -/
def AddressNetwork.ofNetwork : Network → AddressNetwork
  | .mainnet => .mainnet
  | .testnet3 | .testnet4 | .signet => .testnet
  | .regtest => .regtest

/-- Modelled from the spec: the constants `BlockHash::GENESIS_MAINNET`, `…_TESTNET3`,
`…_TESTNET4`, `…_SIGNET` and `…_REGTEST`, five different hashes. -/
structure GenesisHashes (H : Type) where
  mainnet : H
  testnet3 : H
  testnet4 : H
  signet : H
  regtest : H
  distinct : [mainnet, testnet3, testnet4, signet, regtest].Nodup

/-- `UnknownGenesisBlock(BlockHash)`. -/
structure UnknownGenesisBlock (H : Type) where
  hash : H

namespace Network

variable {H : Type} [DecidableEq H] (hashes : GenesisHashes H)

/-- `Network::genesis_hash`. -/
def genesisHash : Network → H
  | .mainnet => hashes.mainnet
  | .testnet3 => hashes.testnet3
  | .testnet4 => hashes.testnet4
  | .signet => hashes.signet
  | .regtest => hashes.regtest

/-- `TryFrom<BlockHash> for Network`: the constant patterns compare the hash for
equality, in order. -/
def tryFromBlockHash (hash : H) : Except (UnknownGenesisBlock H) Network :=
  if hash = hashes.mainnet then .ok .mainnet
  else if hash = hashes.testnet3 then .ok .testnet3
  else if hash = hashes.testnet4 then .ok .testnet4
  else if hash = hashes.signet then .ok .signet
  else if hash = hashes.regtest then .ok .regtest
  else .error ⟨hash⟩

end Network

end BpStd.Invoice
