import BpStd.Derive.MerkleBuoy

/-!
Contract: the tap-tree builder of `derive/src/taptree.rs` as a state machine over
pushed leaves.

Owns: `LeafInfo`, `TapTreeBuilder` with `new`, `push_leaf`, `with_leaf` and
`finish`, `TapTree::from_leaves` and `TapTree::map`, the invariant of every builder a
sequence of pushes reaches (`Reachable`, `Consistent`), and the spec's validity of a
depth sequence: the stack fold that merges two equal top depths `d > 0` into `d - 1`,
valid when it ends as the single depth `0`.

`push_leaf` takes `&mut self` and returns a `Result`; it is modelled as returning
both, so that a rejected push visibly leaves the builder as it was.  The builder
decides finalization from the buoy's level alone.
-/

namespace BpStd.Derive

/-- `LeafInfo<L>`: a leaf script at a `u7` depth. -/
structure LeafInfo (L : Type) where
  depth : Fin 128
  script : L
deriving Repr, DecidableEq

/-- `FinalizedTree`: a push after the tree closed. -/
structure FinalizedTree where
deriving Repr, DecidableEq

/-- `UnfinalizedTree(u7)`: the buoy level at which `finish` found the tree open. -/
structure UnfinalizedTree where
  level : Nat
deriving Repr, DecidableEq

/-- `InvalidTree`. -/
inductive InvalidTree where
  | unfinalized (error : UnfinalizedTree)
  | mountainRange
deriving Repr, DecidableEq

/-- `TapTree<L>(Vec<LeafInfo<L>>)`. -/
structure TapTree (L : Type) where
  leaves : List (LeafInfo L)
deriving Repr, DecidableEq

/-- `TapTreeBuilder<L>`. -/
structure TapTreeBuilder (L : Type) where
  leaves : List (LeafInfo L)
  buoy : MerkleBuoy
  finalized : Bool

namespace TapTreeBuilder

variable {L : Type}

/-- `TapTreeBuilder::new()`. -/
def new : TapTreeBuilder L := ⟨[], MerkleBuoy.default, false⟩

/-- `push_leaf(&mut self, leaf) -> Result<bool, FinalizedTree>`: the result and the
builder after the call. -/
def pushLeaf (builder : TapTreeBuilder L) (leaf : LeafInfo L) :
    Except FinalizedTree Bool × TapTreeBuilder L :=
  if builder.finalized then (.error ⟨⟩, builder)
  else
    let leaves := builder.leaves ++ [leaf]
    let buoy := (builder.buoy.push leaf.depth.val).2
    let finalized := if buoy.level = 0 then true else builder.finalized
    (.ok finalized, ⟨leaves, buoy, finalized⟩)

/-- `with_leaf(self, leaf) -> Result<Self, FinalizedTree>`. -/
def withLeaf (builder : TapTreeBuilder L) (leaf : LeafInfo L) :
    Except FinalizedTree (TapTreeBuilder L) :=
  match builder.pushLeaf leaf with
  | (.ok _, builder) => .ok builder
  | (.error error, _) => .error error

/-- `finish(self) -> Result<TapTree<L>, UnfinalizedTree>`. -/
def finish (builder : TapTreeBuilder L) : Except UnfinalizedTree (TapTree L) :=
  if !builder.finalized then .error ⟨builder.buoy.level⟩ else .ok ⟨builder.leaves⟩

/-- The loop `for leaf in leaves { builder.push_leaf(leaf)?; }`. -/
def pushLeaves (builder : TapTreeBuilder L) : List (LeafInfo L) →
    Except FinalizedTree (TapTreeBuilder L)
  | [] => .ok builder
  | leaf :: rest =>
      match builder.pushLeaf leaf with
      | (.error error, _) => .error error
      | (.ok _, builder) => pushLeaves builder rest

end TapTreeBuilder

/-- `TapTree::from_leaves`: push every leaf into a fresh builder, then finish it. -/
def TapTree.fromLeaves {L : Type} (leaves : List (LeafInfo L)) : Except InvalidTree (TapTree L) :=
  match TapTreeBuilder.new.pushLeaves leaves with
  | .error _ => .error .mountainRange
  | .ok builder =>
      match builder.finish with
      | .error error => .error (.unfinalized error)
      | .ok tree => .ok tree

/-! ## Runs of the builder -/

namespace TapTreeBuilder

variable {L : Type} {builder result : TapTreeBuilder L} {leaf : LeafInfo L}

/-- A push into an open builder appends the leaf. -/
@[simp] theorem pushLeaf_leaves_of_open (open_ : builder.finalized = false) :
    (builder.pushLeaf leaf).2.leaves = builder.leaves ++ [leaf] := by
  simp [pushLeaf, open_]

theorem pushLeaves_cons (rest : List (LeafInfo L)) :
    builder.pushLeaves (leaf :: rest) =
      if builder.finalized then .error ⟨⟩ else (builder.pushLeaf leaf).2.pushLeaves rest := by
  cases finalized : builder.finalized <;> simp [pushLeaves, pushLeaf, finalized]

/-- A run of pushes appends exactly the pushed leaves, in order. -/
theorem pushLeaves_leaves {leaves : List (LeafInfo L)}
    (pushed : builder.pushLeaves leaves = .ok result) : result.leaves = builder.leaves ++ leaves := by
  induction leaves generalizing builder with
  | nil =>
      cases pushed
      simp
  | cons leaf rest inductionHypothesis =>
      rw [pushLeaves_cons] at pushed
      cases finalized : builder.finalized
      · simp only [finalized] at pushed
        rw [inductionHypothesis pushed, pushLeaf_leaves_of_open finalized]
        simp
      · simp [finalized] at pushed

theorem finish_eq_ok {tapTree : TapTree L} :
    builder.finish = .ok tapTree ↔ builder.finalized = true ∧ tapTree = ⟨builder.leaves⟩ := by
  cases finalized : builder.finalized <;> simp [finish, finalized, eq_comm]

/-! ## Every reachable builder

`push_leaf` takes `&mut self`, so a caller may go on pushing after an error.  Whatever
the pushes and whatever each returned, the flag the builder keeps is a function of its
leaves and buoy: it is finalized exactly when it holds a leaf and the buoy is back at
level `0`, and only the empty builder sits at level `0` unfinalized. -/

/-- The builders `new` and any sequence of `push_leaf` calls reach. -/
inductive Reachable : TapTreeBuilder L → Prop
  | new : Reachable new
  | push {builder : TapTreeBuilder L} (leaf : LeafInfo L) (reachable : Reachable builder) :
      Reachable (builder.pushLeaf leaf).2

/-- What every reachable builder satisfies. -/
structure Consistent (builder : TapTreeBuilder L) : Prop where
  finalized_iff : builder.finalized = true ↔ builder.leaves ≠ [] ∧ builder.buoy.level = 0
  level_of_empty : builder.leaves = [] → builder.buoy.level = 0

theorem consistent_new : Consistent (new : TapTreeBuilder L) :=
  ⟨by simp [new], fun _ => rfl⟩

/-- One push keeps the invariant: a rejected push changes nothing, an accepted one adds a
leaf and sets the flag from the new level. -/
theorem Consistent.pushLeaf (consistent : Consistent builder) (leaf : LeafInfo L) :
    Consistent (builder.pushLeaf leaf).2 := by
  cases finalized : builder.finalized
  · constructor
    · by_cases closed : (builder.buoy.push leaf.depth.val).2.level = 0 <;>
        simp [TapTreeBuilder.pushLeaf, finalized, closed]
    · simp [TapTreeBuilder.pushLeaf, finalized]
  · simpa [TapTreeBuilder.pushLeaf, finalized] using consistent

theorem Reachable.consistent (reachable : Reachable builder) : Consistent builder := by
  induction reachable with
  | new => exact consistent_new
  | push leaf _ inductionHypothesis => exact inductionHypothesis.pushLeaf leaf

/-- On every builder a run of `push_leaf` calls reaches, whatever the calls returned,
`finish` succeeds exactly when the builder holds a leaf and its buoy is at level `0`, with
the leaves pushed; and it reports `UnfinalizedTree(0)` exactly on a builder with no leaf. -/
theorem tapTreeBuilder_reachable_finish (reachable : Reachable builder) :
    (builder.finalized = true ↔ builder.leaves ≠ [] ∧ builder.buoy.level = 0) ∧
    (∀ tapTree, builder.finish = .ok tapTree ↔
      builder.leaves ≠ [] ∧ builder.buoy.level = 0 ∧ tapTree = ⟨builder.leaves⟩) ∧
    (builder.finish = .error ⟨0⟩ ↔ builder.leaves = []) := by
  obtain ⟨closed, levelOfEmpty⟩ := reachable.consistent
  refine ⟨closed, fun tapTree => by rw [finish_eq_ok, closed, and_assoc], ?_⟩
  cases finalized : builder.finalized
  · simp only [finish, finalized, Bool.not_false, if_true, Except.error.injEq, UnfinalizedTree.mk.injEq]
    rw [finalized] at closed
    refine ⟨fun level => ?_, levelOfEmpty⟩
    cases leaves : builder.leaves with
    | nil => rfl
    | cons => exact absurd (closed.mpr ⟨by simp [leaves], level⟩) Bool.false_ne_true
  · simp only [finish, finalized, Bool.not_true, if_false]
    rw [finalized] at closed
    simp [closed.mp rfl]

/-- The builder after two leaves of depth 1, the tree `{A,B}`. -/
theorem tapTreeBuilder_reachable_finish_pair :
    Reachable ((new.pushLeaf (⟨1, ()⟩ : LeafInfo Unit)).2.pushLeaf ⟨1, ()⟩).2 ∧
      (((new.pushLeaf (⟨1, ()⟩ : LeafInfo Unit)).2.pushLeaf ⟨1, ()⟩).2.finalized = true ↔
        ((new.pushLeaf (⟨1, ()⟩ : LeafInfo Unit)).2.pushLeaf ⟨1, ()⟩).2.leaves ≠ [] ∧
          ((new.pushLeaf (⟨1, ()⟩ : LeafInfo Unit)).2.pushLeaf ⟨1, ()⟩).2.buoy.level = 0) :=
  have reachable := Reachable.push ⟨1, ()⟩
    (Reachable.push ⟨1, ()⟩ (Reachable.new : Reachable (new : TapTreeBuilder Unit)))
  ⟨reachable, (tapTreeBuilder_reachable_finish reachable).1⟩

end TapTreeBuilder

theorem TapTree.fromLeaves_eq_ok {L : Type} {leaves : List (LeafInfo L)} {tapTree : TapTree L} :
    TapTree.fromLeaves leaves = .ok tapTree ↔
      ∃ builder, TapTreeBuilder.new.pushLeaves leaves = .ok builder ∧
        builder.finalized = true ∧ tapTree = ⟨builder.leaves⟩ := by
  unfold TapTree.fromLeaves
  split
  · rename_i pushed
    simp [pushed]
  · rename_i builder pushed
    simp only [pushed, Except.ok.injEq, exists_eq_left', ← TapTreeBuilder.finish_eq_ok]
    split <;> simp_all

/-- A tree from `from_leaves` holds exactly the given leaves, and there is at least one. -/
theorem TapTree.fromLeaves_leaves {L : Type} {leaves : List (LeafInfo L)} {tapTree : TapTree L}
    (built : TapTree.fromLeaves leaves = .ok tapTree) : tapTree.leaves = leaves ∧ leaves ≠ [] := by
  obtain ⟨builder, pushed, finalized, rfl⟩ := TapTree.fromLeaves_eq_ok.mp built
  refine ⟨by simpa [TapTreeBuilder.new] using TapTreeBuilder.pushLeaves_leaves pushed, ?_⟩
  rintro rfl
  cases pushed
  cases finalized

/-! ## `TapTree::map` -/

section Map

variable {L M : Type} (f : L → M)

/-- The `LeafInfo { depth: leaf.depth, script: f(leaf.script) }` of `TapTree::map`. -/
def LeafInfo.map (leaf : LeafInfo L) : LeafInfo M := ⟨leaf.depth, f leaf.script⟩

/-- `TapTree::map`. -/
def TapTree.map (tapTree : TapTree L) : TapTree M := ⟨tapTree.leaves.map (LeafInfo.map f)⟩

end Map

/-! ## The spec's validity of a depth sequence -/

/-- One push of the spec's fold on a stack listed top first: two equal top depths
`d > 0` merge into `d - 1`, repeatedly. -/
def mergePush : List Nat → Nat → List Nat
  | [], depth => [depth]
  | top :: rest, depth =>
      if top = depth ∧ 0 < depth then mergePush rest (depth - 1) else depth :: top :: rest

theorem mergePush_cons_self {top : Nat} (positive : 0 < top) (rest : List Nat) :
    mergePush (top :: rest) top = mergePush rest (top - 1) := by
  rw [mergePush, if_pos ⟨rfl, positive⟩]

theorem mergePush_cons_of_ne {top depth : Nat} (differs : top ≠ depth) (rest : List Nat) :
    mergePush (top :: rest) depth = depth :: top :: rest := by
  rw [mergePush, if_neg fun merges => differs merges.1]

/-- The spec's fold of a whole depth sequence. -/
def mergeFold (depths : List Nat) : List Nat := depths.foldl mergePush []

/-- A depth sequence is the leaf-depth sequence of a full binary tree: the single
leaf `[0]`, or positive depths that fold to one node of depth `0`. -/
def ValidDepths (depths : List Nat) : Prop := mergeFold depths = [0]

instance (depths : List Nat) : Decidable (ValidDepths depths) :=
  inferInstanceAs (Decidable (mergeFold depths = [0]))

/-- Two depth sequences that are not full binary trees, one with a depth-0 leaf among
others and one of depths in `1..127`, both become trees. -/
theorem fromLeaves_accepts_invalid_depths :
    TapTree.fromLeaves [(⟨1, ()⟩ : LeafInfo Unit), ⟨0, ()⟩, ⟨1, ()⟩] =
        .ok ⟨[⟨1, ()⟩, ⟨0, ()⟩, ⟨1, ()⟩]⟩ ∧ ¬ ValidDepths [1, 0, 1] ∧
      TapTree.fromLeaves [(⟨2, ()⟩ : LeafInfo Unit), ⟨1, ()⟩, ⟨1, ()⟩, ⟨2, ()⟩, ⟨1, ()⟩] =
        .ok ⟨[⟨2, ()⟩, ⟨1, ()⟩, ⟨1, ()⟩, ⟨2, ()⟩, ⟨1, ()⟩]⟩ ∧ ¬ ValidDepths [2, 1, 1, 2, 1] :=
  ⟨rfl, by decide, rfl, by decide⟩

end BpStd.Derive
