import Mathlib.Data.List.Chain
import BpStd.Derive.TapTree

/-!
Contract: `TapTree::from_leaves` of `derive/src/taptree.rs` accepts every leaf-depth
sequence of a full binary tree, and keeps the leaves in order.

Owns: the reading of the builder's buoy as the spec's stack of open subtrees
(`buoyOf`), the step lemma saying a push at or above the top of that stack moves the
buoy exactly as the fold moves the stack, the fact that a push below the top leaves a
pair of depths the fold never merges again, and `fromLeaves_of_validDepths`, the run
assembled from the two.

Does not own: the converse, which fails (`fromLeaves_accepts_invalid_depths`).

The buoy holds the stack from the bottom up: its outer level is the root's `0`, and
each nested buoy is one open subtree.  A push at the top depth surfaces the innermost
buoy one level up, and the surfacing goes on outwards while the surfaced level meets
the next one, as the fold merges equal depths.
-/

namespace BpStd.Derive

/-! ## Stacks the fold can still close, and stacks it cannot -/

/-- The spec's stack (top first) of the open subtrees of a proper prefix of a full
binary tree: read from the bottom, its depths rise strictly from the root's `0`. -/
def OpenStack (stack : List Nat) : Prop := List.Chain (· < ·) 0 stack.reverse

/-- A stack with an adjacent pair that no push merges again: the upper depth is at most
the lower one, or the lower one is the root's `0`. -/
def BrokenStack (stack : List Nat) : Prop :=
  ∃ above upper lower below,
    stack = above ++ upper :: lower :: below ∧ (upper ≤ lower ∨ lower = 0)

theorem OpenStack.lt_top {top : Nat} {rest : List Nat} (openStack : OpenStack (top :: rest)) :
    ∀ depth ∈ rest, depth < top := by
  unfold OpenStack at openStack
  rw [List.reverse_cons, List.chain_iff_pairwise, ← List.cons_append,
    List.pairwise_append] at openStack
  exact fun depth member => openStack.2.2 depth (List.mem_cons_of_mem _ (List.mem_reverse.mpr member))
    top (List.mem_singleton_self _)

theorem OpenStack.ne_closed {stack : List Nat} (openStack : OpenStack stack) : stack ≠ [0] := by
  rintro rfl
  exact absurd openStack (by simp [OpenStack])

theorem BrokenStack.ne_closed {stack : List Nat} (broken : BrokenStack stack) : stack ≠ [0] := by
  obtain ⟨above, upper, lower, below, rfl, -⟩ := broken
  intro closed
  have lengths := congrArg List.length closed
  simp only [List.length_append, List.length_cons, List.length_nil] at lengths
  omega

/-- No push repairs a broken stack. -/
theorem mergePush_brokenStack {stack : List Nat} (broken : BrokenStack stack) (depth : Nat) :
    BrokenStack (mergePush stack depth) := by
  obtain ⟨above, upper, lower, below, rfl, unmergeable⟩ := broken
  induction above generalizing depth with
  | nil =>
      by_cases merges : upper = depth ∧ 0 < depth
      · obtain ⟨rfl, positive⟩ := merges
        have stops : ¬ (lower = upper - 1 ∧ 0 < upper - 1) := by omega
        rw [List.nil_append, mergePush, if_pos ⟨rfl, positive⟩, mergePush, if_neg stops]
        exact ⟨[], upper - 1, lower, below, rfl, by omega⟩
      · rw [List.nil_append, mergePush, if_neg merges]
        exact ⟨[depth], upper, lower, below, rfl, unmergeable⟩
  | cons top above inductionHypothesis =>
      rw [List.cons_append, mergePush]
      split
      · exact inductionHypothesis _
      · exact ⟨depth :: top :: above, upper, lower, below, rfl, unmergeable⟩

theorem foldl_mergePush_brokenStack {stack : List Nat} (broken : BrokenStack stack)
    (depths : List Nat) : BrokenStack (depths.foldl mergePush stack) := by
  induction depths generalizing stack with
  | nil => exact broken
  | cons depth rest inductionHypothesis =>
      exact inductionHypothesis (mergePush_brokenStack broken depth)

/-- A push of depth `0` onto a stack, a push below its top, or any push onto the closed
tree `[0]`, breaks the stack. -/
theorem mergePush_brokenStack_of_below {top depth : Nat} {rest : List Nat}
    (below : depth = 0 ∨ depth < top ∨ top = 0) : BrokenStack (mergePush (top :: rest) depth) := by
  have stays : ¬ (top = depth ∧ 0 < depth) := by omega
  rw [mergePush, if_neg stays]
  exact ⟨[], depth, top, rest, rfl, by omega⟩

/-! ## The buoy as a stack -/

/-- The nested buoys at the given levels, the outermost first. -/
def MerkleBuoy.nest : List Nat → Option MerkleBuoy
  | [] => none
  | level :: inner => some (.mk level (nest inner))

/-- The buoy holding `stack`: the outer buoy at the root's level `0`, and the stack's
depths nested in it from the bottom up. -/
def buoyOf (stack : List Nat) : MerkleBuoy := .mk 0 (MerkleBuoy.nest stack.reverse)

theorem level_nest_mem (level : Nat) (inner : List Nat) :
    (MerkleBuoy.mk level (MerkleBuoy.nest inner)).level ∈ level :: inner := by
  induction inner generalizing level with
  | nil => exact List.mem_singleton_self _
  | cons next inner inductionHypothesis =>
      exact List.mem_cons_of_mem _ (inductionHypothesis next)

/-- The buoy of an open stack is at level `0` exactly when the stack is empty. -/
theorem level_buoyOf_eq_zero {stack : List Nat} (openStack : OpenStack stack) :
    (buoyOf stack).level = 0 ↔ stack = [] := by
  unfold buoyOf
  rcases reversed : stack.reverse with _ | ⟨level, inner⟩
  · simp [MerkleBuoy.nest, MerkleBuoy.level, List.reverse_eq_nil_iff.mp reversed]
  · have nonempty : stack ≠ [] := by rintro rfl; cases reversed
    rw [OpenStack, reversed, List.chain_iff_pairwise, List.pairwise_cons] at openStack
    have positive := openStack.1 _ (level_nest_mem level inner)
    simp only [MerkleBuoy.nest, MerkleBuoy.level, nonempty, iff_false]
    omega

/-- A buoy at a positive `level` with nothing nested, pushed at or above its level:
it surfaces at `level - 1` when the depth is its level, as the fold merges the depth
into the `level` under it, and otherwise opens `[depth]` inside, which the fold puts
on top. -/
theorem push_new {level depth : Nat} (positive : 0 < level) (atLeast : level ≤ depth)
    (below : List Nat) :
    ((MerkleBuoy.mk level (MerkleBuoy.nest [])).push depth = (true, .new (level - 1)) ∧
      mergePush ([level].reverse ++ below) depth = mergePush below (level - 1)) ∨
    ∃ inner', (MerkleBuoy.mk level (MerkleBuoy.nest [])).push depth =
        (false, .mk level (MerkleBuoy.nest inner')) ∧ List.Chain (· < ·) level inner' ∧
      mergePush ([level].reverse ++ below) depth = (level :: inner').reverse ++ below := by
  by_cases same : depth = level
  · subst same
    exact .inl ⟨MerkleBuoy.pushLevel_self positive, mergePush_cons_self positive below⟩
  · exact .inr ⟨[depth], MerkleBuoy.pushLevel_of_ne (by omega) same,
      List.chain_singleton.mpr (by omega), mergePush_cons_of_ne (Ne.symm same) below⟩

/-- A push at or above the innermost of nested buoys at rising positive levels moves them
as the fold moves the stack they hold, whatever lies below it: either every one of them
surfaces, the outermost at `level - 1`, and the fold goes on below with that depth; or
the merging stops inside them, which then hold the stack the fold leaves. -/
theorem push_nest {level depth : Nat} {inner : List Nat} (rising : List.Chain (· < ·) level inner)
    (positive : 0 < level) (notBelow : ∀ other ∈ level :: inner, other ≤ depth)
    (below : List Nat) :
    ((MerkleBuoy.mk level (MerkleBuoy.nest inner)).push depth = (true, .new (level - 1)) ∧
      mergePush ((level :: inner).reverse ++ below) depth = mergePush below (level - 1)) ∨
    ∃ inner', (MerkleBuoy.mk level (MerkleBuoy.nest inner)).push depth =
        (false, .mk level (MerkleBuoy.nest inner')) ∧ List.Chain (· < ·) level inner' ∧
      mergePush ((level :: inner).reverse ++ below) depth = (level :: inner').reverse ++ below := by
  induction inner generalizing level below with
  | nil => exact push_new positive (notBelow level (List.mem_cons_self _ _)) below
  | cons next inner inductionHypothesis =>
      obtain ⟨nextAbove, rising⟩ := List.chain_cons.mp rising
      have atLeast := notBelow next (List.mem_cons_of_mem _ (List.mem_cons_self _ _))
      have reassociate : (level :: next :: inner).reverse ++ below =
          (next :: inner).reverse ++ level :: below := by simp
      rw [reassociate]
      simp only [MerkleBuoy.nest]
      rcases inductionHypothesis rising (by omega)
          (fun other member => notBelow other (List.mem_cons_of_mem _ member)) (level :: below)
        with ⟨surfaced, merged⟩ | ⟨inner', stays, rising', merged⟩
      · rw [merged, MerkleBuoy.push_some_of_surfaced (by omega) surfaced, MerkleBuoy.level_new]
        exact push_new positive (by omega) below
      · rw [merged, MerkleBuoy.push_some_of_stays (by omega) stays]
        exact .inr ⟨next :: inner', rfl, List.Chain.cons nextAbove rising', by simp⟩

/-- A push onto the empty stack, held by the bare root buoy: depth `0` closes the tree at
once, and any other depth opens the stack `[depth]`. -/
theorem push_buoyOf_nil (depth : Nat) :
    (mergePush [] depth = [0] ∧ ((buoyOf []).push depth).2 = buoyOf []) ∨
    (OpenStack (mergePush [] depth) ∧ mergePush [] depth ≠ [] ∧
      ((buoyOf []).push depth).2 = buoyOf (mergePush [] depth)) := by
  by_cases zero : depth = 0
  · subst zero
    exact .inl ⟨rfl, rfl⟩
  · refine .inr ⟨List.chain_singleton.mpr (by omega), List.cons_ne_nil _ _, ?_⟩
    show (MerkleBuoy.pushLevel 0 depth).2 = _
    rw [MerkleBuoy.pushLevel_of_ne (by omega) zero]
    rfl

/-- The step lemma: a push at or above the top of an open stack (any push onto the empty
one) moves the buoy that holds the stack to the buoy that holds the stack the fold
leaves, which is open, or is the closed tree `[0]` held by the bare root buoy. -/
theorem push_buoyOf {stack : List Nat} {depth : Nat} (openStack : OpenStack stack)
    (notBelow : ∀ top ∈ stack.head?, 0 < depth ∧ top ≤ depth) :
    (mergePush stack depth = [0] ∧ ((buoyOf stack).push depth).2 = buoyOf []) ∨
    (OpenStack (mergePush stack depth) ∧ mergePush stack depth ≠ [] ∧
      ((buoyOf stack).push depth).2 = buoyOf (mergePush stack depth)) := by
  rcases stack with _ | ⟨top, rest⟩
  · exact push_buoyOf_nil depth
  · obtain ⟨positive, topBelow⟩ := notBelow top rfl
    have allBelow : ∀ other ∈ (top :: rest).reverse, other ≤ depth := fun other member => by
      rcases List.mem_cons.mp (List.mem_reverse.mp member) with rfl | inRest
      · exact topBelow
      · exact (openStack.lt_top other inRest).le.trans topBelow
    obtain ⟨level, inner, reversed⟩ : ∃ level inner, (top :: rest).reverse = level :: inner :=
      List.exists_cons_of_ne_nil (by simp)
    have stackEq : top :: rest = (level :: inner).reverse := by
      rw [← reversed, List.reverse_reverse]
    rw [OpenStack, reversed, List.chain_cons] at openStack
    rw [reversed] at allBelow
    rw [stackEq, buoyOf, List.reverse_reverse]
    simp only [MerkleBuoy.nest]
    have moved := push_nest openStack.2 openStack.1 allBelow []
    simp only [List.append_nil] at moved
    rcases moved with ⟨surfaced, merged⟩ | ⟨inner', stays, rising, merged⟩
    · rw [merged, MerkleBuoy.push_some_of_surfaced positive surfaced, MerkleBuoy.level_new]
      exact push_buoyOf_nil (level - 1)
    · rw [merged, MerkleBuoy.push_some_of_stays positive stays]
      refine .inr ⟨?_, by simp, by rw [buoyOf, List.reverse_reverse]; rfl⟩
      rw [OpenStack, List.reverse_reverse]
      exact List.Chain.cons openStack.1 rising

/-! ## Runs of the builder -/

namespace TapTreeBuilder

variable {L : Type} {builder : TapTreeBuilder L} {leaf : LeafInfo L}

theorem pushLeaf_of_open (open_ : builder.finalized = false) :
    (builder.pushLeaf leaf).2 =
      ⟨builder.leaves ++ [leaf], (builder.buoy.push leaf.depth.val).2,
        decide ((builder.buoy.push leaf.depth.val).2.level = 0)⟩ := by
  by_cases zero : (builder.buoy.push leaf.depth.val).2.level = 0 <;> simp [pushLeaf, open_, zero]

/-- The run lemma: from a builder whose buoy holds an open stack, pushing leaves whose
depths the fold closes into one tree finalizes the builder. -/
theorem pushLeaves_of_openStack {stack : List Nat} {leaves : List (LeafInfo L)}
    (openStack : OpenStack stack) (holds : builder.buoy = buoyOf stack)
    (open_ : builder.finalized = false)
    (closes : (leaves.map fun leaf => leaf.depth.val).foldl mergePush stack = [0]) :
    ∃ result, builder.pushLeaves leaves = .ok result ∧ result.finalized = true := by
  induction leaves generalizing builder stack with
  | nil => exact absurd closes openStack.ne_closed
  | cons leaf rest inductionHypothesis =>
      rw [List.map_cons, List.foldl_cons] at closes
      rw [pushLeaves_cons, if_neg (by simp [open_]), pushLeaf_of_open open_, holds]
      by_cases notBelow : ∀ top ∈ stack.head?, 0 < leaf.depth.val ∧ top ≤ leaf.depth.val
      · rcases push_buoyOf openStack notBelow with ⟨closed, moved⟩ | ⟨stillOpen, nonempty, moved⟩
        · rw [closed] at closes
          cases rest with
          | nil => exact ⟨_, rfl, by rw [moved]; rfl⟩
          | cons next rest =>
              rw [List.map_cons, List.foldl_cons] at closes
              exact absurd closes (foldl_mergePush_brokenStack
                (mergePush_brokenStack_of_below (.inr (.inr rfl))) _).ne_closed
        · refine inductionHypothesis stillOpen moved ?_ closes
          simp [(level_buoyOf_eq_zero stillOpen).not.mpr nonempty, moved]
      · rcases stack with _ | ⟨top, rest'⟩
        · simp at notBelow
        · have below : leaf.depth.val = 0 ∨ leaf.depth.val < top ∨ top = 0 := by
            simp only [List.head?_cons, Option.mem_def, Option.some.injEq, forall_eq'] at notBelow
            omega
          exact absurd closes
            (foldl_mergePush_brokenStack (mergePush_brokenStack_of_below below) _).ne_closed

end TapTreeBuilder

/-- `TapTree::from_leaves` accepts every leaf-depth sequence of a full binary tree, and
the tree holds the leaves as given. -/
theorem fromLeaves_of_validDepths {L : Type} (leaves : List (LeafInfo L))
    (valid : ValidDepths (leaves.map fun leaf => leaf.depth.val)) :
    TapTree.fromLeaves leaves = .ok ⟨leaves⟩ := by
  obtain ⟨result, pushed, finalized⟩ :=
    TapTreeBuilder.pushLeaves_of_openStack (show OpenStack [] from List.Chain.nil)
      (show (TapTreeBuilder.new : TapTreeBuilder L).buoy = buoyOf [] from rfl) rfl valid
  refine TapTree.fromLeaves_eq_ok.mpr ⟨result, pushed, finalized, ?_⟩
  rw [TapTreeBuilder.pushLeaves_leaves pushed]
  rfl

/-- The tree of depths `1, 2, 2` is accepted. -/
theorem fromLeaves_of_validDepths_one_two_two :
    ValidDepths
        (([⟨1, ()⟩, ⟨2, ()⟩, ⟨2, ()⟩] : List (LeafInfo Unit)).map fun leaf => leaf.depth.val) ∧
      TapTree.fromLeaves ([⟨1, ()⟩, ⟨2, ()⟩, ⟨2, ()⟩] : List (LeafInfo Unit)) =
        .ok ⟨[⟨1, ()⟩, ⟨2, ()⟩, ⟨2, ()⟩]⟩ :=
  ⟨by decide, fromLeaves_of_validDepths _ (by decide)⟩

end BpStd.Derive
