import BpStd.Derive.TapTree

/-!
Contract: the Merkle root of a tap tree and the control-block factory of
`derive/src/taptree.rs`.

Owns: `TapTree::merkle_root`, `TapTree::with_single_leaf`, `ControlBlockFactory::with`
and its `Iterator::next`, and `ControlBlockFactory.take`, the first `n` items the
iterator yields.

The tagged hashes and the key tweak belong to the `bc` crate; they are parameters:
`tapLeafHash` is `TapLeafHash::with_leaf_script` and `toOutputPk` is
`InternalPk::to_output_pk`.  `merkle_root` answers for a one-leaf tree and reaches
`todo!()` otherwise; the model returns `none` for that panic.  The factory starts
from an empty Merkle path and never extends it.
-/

namespace BpStd.Derive

/-- Modelled from the spec: `bc::LeafScript`, a leaf version and the script bytes. -/
structure LeafScript where
  version : UInt8
  script : List UInt8
deriving Repr, DecidableEq

/-- Modelled from the spec: `bc::ControlBlock`, built by `ControlBlock::with(leaf_version, internal_pk, parity,
merkle_path)`. -/
structure ControlBlock (Pk Parity H : Type) where
  leafVersion : UInt8
  internalPk : Pk
  outputKeyParity : Parity
  merklePath : List H

/-- `ControlBlockFactory`. -/
structure ControlBlockFactory (Pk OutputPk Parity H : Type) where
  internalPk : Pk
  outputPk : OutputPk
  parity : Parity
  merkleRoot : H
  merklePath : List H
  remainingLeaves : List (LeafInfo LeafScript)

section Factory

variable {Pk OutputPk Parity H : Type}
variable (tapLeafHash : LeafScript → H) (toOutputPk : Pk → Option H → OutputPk × Parity)

/-- `TapTree::merkle_root`; `none` is the `todo!()` reached by trees of more than one
leaf. -/
def TapTree.merkleRoot (tapTree : TapTree LeafScript) : Option H :=
  match tapTree.leaves with
  | [leaf] => some (tapLeafHash leaf.script)
  | _ => none

/-- `TapTree::with_single_leaf`: the script as the only leaf, at depth `0`. -/
def TapTree.withSingleLeaf (leaf : LeafScript) : TapTree LeafScript := ⟨[⟨0, leaf⟩]⟩

/-- `ControlBlockFactory::with`; `none` when `merkle_root` panics. -/
def ControlBlockFactory.with (internalPk : Pk) (tapTree : TapTree LeafScript) :
    Option (ControlBlockFactory Pk OutputPk Parity H) := do
  let merkleRoot ← tapTree.merkleRoot tapLeafHash
  let (outputPk, parity) := toOutputPk internalPk (some merkleRoot)
  pure ⟨internalPk, outputPk, parity, merkleRoot, [], tapTree.leaves⟩

namespace ControlBlockFactory

/-- The control block `next` builds for `leaf`. -/
def controlBlock (factory : ControlBlockFactory Pk OutputPk Parity H)
    (leaf : LeafInfo LeafScript) : ControlBlock Pk Parity H :=
  ⟨leaf.script.version, factory.internalPk, factory.parity, factory.merklePath⟩

/-- `Iterator::next`: pop the last remaining leaf. -/
def next (factory : ControlBlockFactory Pk OutputPk Parity H) :
    Option (ControlBlock Pk Parity H × LeafScript) × ControlBlockFactory Pk OutputPk Parity H :=
  match factory.remainingLeaves.getLast? with
  | none => (none, factory)
  | some leaf =>
      (some (factory.controlBlock leaf, leaf.script),
        { factory with remainingLeaves := factory.remainingLeaves.dropLast })

/-- The first `n` items the iterator yields. -/
def take : Nat → ControlBlockFactory Pk OutputPk Parity H →
    List (ControlBlock Pk Parity H × LeafScript)
  | 0, _ => []
  | n + 1, factory =>
      match factory.next with
      | (none, _) => []
      | (some item, factory) => item :: take n factory

/-- The iterator yields the remaining leaves last first, one item each, with the
factory's Merkle path in every control block. -/
theorem take_eq (factory : ControlBlockFactory Pk OutputPk Parity H) (n : Nat) :
    factory.take n =
      (factory.remainingLeaves.reverse.take n).map fun leaf =>
        (factory.controlBlock leaf, leaf.script) := by
  induction n generalizing factory with
  | zero => rfl
  | succ n inductionHypothesis =>
      rcases List.eq_nil_or_concat factory.remainingLeaves with remaining | ⟨rest, last, remaining⟩
      · simp [take, next, remaining]
      · rw [List.concat_eq_append] at remaining
        simp only [take, next, remaining, List.getLast?_append, List.getLast?_singleton,
          Option.or_some, List.dropLast_concat, List.reverse_append, List.reverse_cons,
          List.reverse_nil, List.nil_append, List.singleton_append, List.take_succ_cons,
          List.map_cons]
        rw [inductionHypothesis]
        rfl

end ControlBlockFactory

/-- Folding a leaf hash with a Merkle path, each step hashing the current node with the
next sibling by the branch hash `tapBranch`. -/
def foldMerklePath (tapBranch : H → H → H) (leafHash : H) (path : List H) : H :=
  path.foldl tapBranch leafHash

/-- The Merkle root and the control blocks of every tree `from_leaves` builds.  A tree of
one leaf has that leaf's hash as root, and the factory yields exactly one item: the leaf
with a control block carrying the leaf version, the internal key, the parity of the key
tweaked by the root, and an empty path, which folds back to the root.  A tree of more
leaves reaches `todo!()` in `merkle_root`, and `ControlBlockFactory::with` with it. -/
theorem merkleRoot_controlBlocks_of_fromLeaves (tapBranch : H → H → H)
    {leaves : List (LeafInfo LeafScript)} {tapTree : TapTree LeafScript}
    (built : TapTree.fromLeaves leaves = .ok tapTree) (internalPk : Pk) :
    (∀ leaf, tapTree.leaves = [leaf] →
      tapTree.merkleRoot tapLeafHash = some (tapLeafHash leaf.script) ∧
      ∃ factory, ControlBlockFactory.with tapLeafHash toOutputPk internalPk tapTree = some factory ∧
        ∀ n, 0 < n → factory.take n =
          [(⟨leaf.script.version, internalPk,
              (toOutputPk internalPk (some (tapLeafHash leaf.script))).2, []⟩, leaf.script)] ∧
        foldMerklePath tapBranch (tapLeafHash leaf.script) factory.merklePath =
          tapLeafHash leaf.script) ∧
    (2 ≤ tapTree.leaves.length →
      tapTree.merkleRoot tapLeafHash = none ∧
      ControlBlockFactory.with tapLeafHash toOutputPk internalPk tapTree = none) := by
  have nonempty := (TapTree.fromLeaves_leaves built).2
  refine ⟨fun leaf single => ?_, fun several => ?_⟩
  · have rootEq : tapTree.merkleRoot tapLeafHash = some (tapLeafHash leaf.script) := by
      simp [TapTree.merkleRoot, single]
    refine ⟨rootEq, _, by simp [ControlBlockFactory.with, rootEq]; rfl, fun n positive => ?_⟩
    obtain ⟨n, rfl⟩ := Nat.exists_eq_add_of_lt positive
    refine ⟨?_, rfl⟩
    simp [ControlBlockFactory.take_eq, single, ControlBlockFactory.controlBlock]
  · have rootNone : tapTree.merkleRoot tapLeafHash = none := by
      unfold TapTree.merkleRoot
      split
      · rename_i single
        simp [single] at several
      · rfl
    exact ⟨rootNone, by simp [ControlBlockFactory.with, rootNone]⟩

end Factory

/-- The one-leaf tree `[(0, c0 51)]`, with stand-in hashes and key tweak. -/
theorem merkleRoot_controlBlocks_single_leaf :
    TapTree.fromLeaves [(⟨0, ⟨0xc0, [0x51]⟩⟩ : LeafInfo LeafScript)] = .ok ⟨[⟨0, ⟨0xc0, [0x51]⟩⟩]⟩ ∧
      ((∀ leaf, (⟨[⟨0, ⟨0xc0, [0x51]⟩⟩]⟩ : TapTree LeafScript).leaves = [leaf] →
        TapTree.merkleRoot (fun _ => (7 : Nat)) ⟨[⟨0, ⟨0xc0, [0x51]⟩⟩]⟩ = some 7 ∧
        ∃ factory, ControlBlockFactory.with (fun _ => (7 : Nat)) (fun (_ : Unit) _ => ((), true))
            () ⟨[⟨0, ⟨0xc0, [0x51]⟩⟩]⟩ = some factory ∧
          ∀ n, 0 < n → factory.take n = [(⟨leaf.script.version, (), true, []⟩, leaf.script)] ∧
          foldMerklePath Nat.add 7 factory.merklePath = 7) ∧
      (2 ≤ (⟨[⟨0, ⟨0xc0, [0x51]⟩⟩]⟩ : TapTree LeafScript).leaves.length →
        TapTree.merkleRoot (fun _ => (7 : Nat)) ⟨[⟨0, ⟨0xc0, [0x51]⟩⟩]⟩ = none ∧
        ControlBlockFactory.with (fun _ => (7 : Nat)) (fun (_ : Unit) _ => ((), true))
            () ⟨[⟨0, ⟨0xc0, [0x51]⟩⟩]⟩ = none)) :=
  have built : TapTree.fromLeaves [(⟨0, ⟨0xc0, [0x51]⟩⟩ : LeafInfo LeafScript)] =
      .ok ⟨[⟨0, ⟨0xc0, [0x51]⟩⟩]⟩ := rfl
  ⟨built, merkleRoot_controlBlocks_of_fromLeaves (fun _ => 7) (fun (_ : Unit) _ => ((), true))
    Nat.add built ()⟩

/-- A two-leaf tree that `from_leaves` accepts, whose `merkle_root` panics. -/
theorem merkleRoot_two_leaves_panics :
    TapTree.fromLeaves [(⟨1, ⟨0xc0, []⟩⟩ : LeafInfo LeafScript), ⟨1, ⟨0xc0, []⟩⟩] =
        .ok ⟨[⟨1, ⟨0xc0, []⟩⟩, ⟨1, ⟨0xc0, []⟩⟩]⟩ ∧
      TapTree.merkleRoot (fun _ => (0 : Nat)) ⟨[⟨1, ⟨0xc0, []⟩⟩, ⟨1, ⟨0xc0, []⟩⟩]⟩ = none :=
  ⟨rfl, rfl⟩

end BpStd.Derive
