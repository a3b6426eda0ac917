import BpStd.Rust.Outcome
import BpStd.Derive.TapTree

/-!
Contract: `Display for TapTree` of `derive/src/taptree.rs`, meant to write the BIP-386
compact form of a tap tree.

Owns: the loop of `fmt` as a step on its variables (the text written so far, the buoy,
the last depth, and whether every `debug_assert_ne!(buoy.level(), u7::ZERO)` held), the
text a build without debug assertions writes, and `display`, which panics when an
assertion fails.  Modelled from the spec: the binary tree a depth sequence describes and
its recursive rendering.

The loop writes brackets and commas only; no leaf's `to_string` is ever written.  It
pushes the leaves' depths into a buoy as the builder does, so at the last leaf of every
tree the builder finished the buoy is back at level zero and the assertion inside the loop
fails (`tapTree_display_panics`, by a simulation of the builder, `tracks_foldl`).

Does not own: the `Formatter`, which the model takes to accept every write.
-/

namespace BpStd.Derive

open BpStd.Rust

/-- The variables of the `Display` loop between two leaves. -/
structure DisplayState where
  text : List Char
  buoy : MerkleBuoy
  depth : Nat
  /-- Whether every `debug_assert_ne!(buoy.level(), u7::ZERO)` so far held. -/
  asserted : Bool

namespace DisplayState

/-- The state before the first leaf: `MerkleBuoy::default()` and depth zero. -/
def initial : DisplayState := ⟨[], MerkleBuoy.default, 0, true⟩

variable {L : Type}

/-- One iteration of `for leaf in &self.0`: a `{` for each level from the last depth up to
the leaf's, the push, a `,` when the depth repeats, a `}` for each level from the buoy's
up to the leaf's depth, then the assertion. -/
def step (state : DisplayState) (leaf : LeafInfo L) : DisplayState :=
  let opens := List.replicate (leaf.depth.val - state.depth) '{'
  let buoy := (state.buoy.push leaf.depth.val).2
  let comma := if state.depth = leaf.depth.val then [','] else []
  let closes := List.replicate (leaf.depth.val - buoy.level) '}'
  ⟨state.text ++ opens ++ comma ++ closes, buoy, leaf.depth.val,
    state.asserted && decide (buoy.level ≠ 0)⟩

end DisplayState

variable {L : Type}

/-- The state `Display for TapTree` ends its loop in; its text is what a build without
debug assertions writes. -/
def TapTree.displayState (tapTree : TapTree L) : DisplayState :=
  tapTree.leaves.foldl DisplayState.step DisplayState.initial

/-- `Display for TapTree` with its debug assertions: the text, or a panic when the assertion
inside the loop failed at some leaf or `debug_assert_eq!(buoy.level(), u7::ZERO)` fails
after it. -/
def TapTree.display (tapTree : TapTree L) : Outcome Empty (List Char) :=
  let state := tapTree.displayState
  if state.asserted ∧ state.buoy.level = 0 then .ok state.text else .panic

/-! ## The loop writes no leaf -/

/-- Text made of brackets and commas only. -/
def BracketsOnly (text : List Char) : Prop := ∀ c ∈ text, c = '{' ∨ c = ',' ∨ c = '}'

theorem bracketsOnly_step {state : DisplayState} (brackets : BracketsOnly state.text)
    (leaf : LeafInfo L) : BracketsOnly (state.step leaf).text := by
  intro c member
  simp only [DisplayState.step, List.mem_append, List.mem_replicate] at member
  rcases member with ((inText | ⟨-, rfl⟩) | inComma) | ⟨-, rfl⟩
  · exact brackets c inText
  · exact .inl rfl
  · split at inComma <;> simp_all
  · exact .inr (.inr rfl)

theorem bracketsOnly_foldl {state : DisplayState} (brackets : BracketsOnly state.text)
    (leaves : List (LeafInfo L)) : BracketsOnly (leaves.foldl DisplayState.step state).text := by
  induction leaves generalizing state with
  | nil => exact brackets
  | cons leaf rest inductionHypothesis =>
      exact inductionHypothesis (bracketsOnly_step brackets leaf)

/-! ## The spec's rendering -/

/-- Modelled from the spec: a full binary tree of leaf scripts, the shape a valid depth
sequence describes. -/
inductive TapNode (L : Type) where
  | leaf (script : L)
  | branch (left right : TapNode L)

namespace TapNode

/-- The depths of the leaves under a node at `depth`, left to right. -/
def depths : TapNode L → Nat → List Nat
  | leaf _, depth => [depth]
  | branch left right, depth => left.depths (depth + 1) ++ right.depths (depth + 1)

/-- Modelled from the spec: BIP-386's compact form, a leaf's own text and `{left,right}`
around the children of a branch. -/
def render (leafText : L → List Char) : TapNode L → List Char
  | leaf script => leafText script
  | branch left right => '{' :: render leafText left ++ ',' :: render leafText right ++ ['}']

end TapNode

/-! ## The loop replays the builder

The loop pushes the same depths into a buoy from the same default as the builder, and its
assertion fails exactly when the builder would finalize. -/

/-- The loop's buoy is the builder's, and its assertions held while the builder is open. -/
def Tracks (state : DisplayState) (builder : TapTreeBuilder L) : Prop :=
  state.buoy = builder.buoy ∧ state.asserted = !builder.finalized

theorem tracks_step {state : DisplayState} {builder : TapTreeBuilder L}
    (tracks : Tracks state builder)
    (open_ : builder.finalized = false) (leaf : LeafInfo L) :
    Tracks (state.step leaf) (builder.pushLeaf leaf).2 := by
  obtain ⟨sameBuoy, asserted⟩ := tracks
  rw [open_] at asserted
  simp only [Tracks, DisplayState.step, TapTreeBuilder.pushLeaf, open_, sameBuoy, asserted]
  split <;> simp_all

theorem tracks_foldl {state : DisplayState} {builder result : TapTreeBuilder L}
    {leaves : List (LeafInfo L)} (tracks : Tracks state builder)
    (pushed : builder.pushLeaves leaves = .ok result) :
    Tracks (leaves.foldl DisplayState.step state) result := by
  induction leaves generalizing state builder with
  | nil =>
      cases pushed
      exact tracks
  | cons leaf rest inductionHypothesis =>
      rw [TapTreeBuilder.pushLeaves_cons] at pushed
      cases open_ : builder.finalized
      · rw [open_] at pushed
        exact inductionHypothesis (tracks_step tracks open_ leaf) pushed
      · simp [open_] at pushed

/-- Formatting any tree the builder finishes fails the assertion inside the loop at the
last leaf, where the buoy is back at level zero; and the text the loop writes holds no
leaf's script, only brackets and commas. -/
theorem tapTree_display_panics {leaves : List (LeafInfo L)} {tapTree : TapTree L}
    (built : TapTree.fromLeaves leaves = .ok tapTree) :
    tapTree.display = .panic ∧ BracketsOnly tapTree.displayState.text := by
  obtain ⟨builder, pushed, finalized, rfl⟩ := TapTree.fromLeaves_eq_ok.mp built
  have replayed : Tracks (leaves.foldl DisplayState.step DisplayState.initial) builder :=
    tracks_foldl (show Tracks DisplayState.initial (TapTreeBuilder.new : TapTreeBuilder L) from
      ⟨rfl, rfl⟩) pushed
  have failed : (leaves.foldl DisplayState.step DisplayState.initial).asserted = false := by
    rw [replayed.2, finalized]
    rfl
  have sameLeaves : builder.leaves = leaves := by
    simpa [TapTreeBuilder.new] using TapTreeBuilder.pushLeaves_leaves pushed
  refine ⟨?_, bracketsOnly_foldl (fun _ member => absurd member (List.not_mem_nil _)) _⟩
  simp [TapTree.display, TapTree.displayState, sameLeaves, failed]

/-- The tree `{·,{·,·}}`, depths `1, 2, 2`: built, its formatting panics, and without the
assertions the loop writes `{{,}}` where the rendering with empty leaf texts is `{,{,}}`. -/
theorem tapTree_display_panics_one_two_two :
    TapTree.fromLeaves [(⟨1, ()⟩ : LeafInfo Unit), ⟨2, ()⟩, ⟨2, ()⟩] =
        .ok ⟨[⟨1, ()⟩, ⟨2, ()⟩, ⟨2, ()⟩]⟩ ∧
      (TapTree.display ⟨[(⟨1, ()⟩ : LeafInfo Unit), ⟨2, ()⟩, ⟨2, ()⟩]⟩ = .panic ∧
        BracketsOnly
          (TapTree.displayState ⟨[(⟨1, ()⟩ : LeafInfo Unit), ⟨2, ()⟩, ⟨2, ()⟩]⟩).text) ∧
      (TapTree.displayState ⟨[(⟨1, ()⟩ : LeafInfo Unit), ⟨2, ()⟩, ⟨2, ()⟩]⟩).text =
        "{{,}}".toList ∧
      (TapNode.branch (.leaf ()) (.branch (.leaf ()) (.leaf ()))).depths 0 = [1, 2, 2] ∧
      (TapNode.branch (.leaf ()) (.branch (.leaf ()) (.leaf ()))).render (fun _ => []) =
        "{,{,}}".toList :=
  have built : TapTree.fromLeaves [(⟨1, ()⟩ : LeafInfo Unit), ⟨2, ()⟩, ⟨2, ()⟩] =
      .ok ⟨[⟨1, ()⟩, ⟨2, ()⟩, ⟨2, ()⟩]⟩ := rfl
  ⟨built, tapTree_display_panics built, by decide, rfl, rfl⟩

/-- `{{·,·},·}`, depths `2, 2, 1`, is written the same way: the text does not tell the two
trees apart. -/
example :
    (TapTree.displayState ⟨[(⟨2, ()⟩ : LeafInfo Unit), ⟨2, ()⟩, ⟨1, ()⟩]⟩).text = "{{,}}".toList := by
  decide

end BpStd.Derive
