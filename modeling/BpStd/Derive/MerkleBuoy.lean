/-!
Contract: the Merkle buoy that `derive/src/taptree.rs` uses to decide when a list
of leaf depths closes into a single Merkle root.

`MerkleBuoy` lives in the `commit_verify` crate, outside the repository.  The model
follows that crate's code, which the spec does not describe; the spec only summarises
it ("pushing depth `d` sets the current fill level; consecutive pushes at equal depth
`d` collapse to `d-1`, recursing").  The crate's buoy is a level (`buoy`) with an
optional nested buoy (`stack`): a push descends to the innermost buoy, opens a new
nested buoy at a depth different from its level, or surfaces it one level up when the
depth equals it; a surfaced buoy is dropped by its parent, which then takes the
surfaced level as a push of its own.  A push of the default depth `0` changes nothing.

Owns: `MerkleBuoy`, `level`, `push`, and `levels`, the list of nested levels from
the outermost buoy in.
-/

namespace BpStd.Derive

/-- `commit_verify::merkle::MerkleBuoy<D>`, following the crate's code (outside this
repository), with `D` read as a natural number. -/
inductive MerkleBuoy where
  | mk (buoy : Nat) (stack : Option MerkleBuoy)
deriving Repr

namespace MerkleBuoy

/-- `MerkleBuoy::new(top_level)`. -/
def new (topLevel : Nat) : MerkleBuoy := mk topLevel none

/-- `MerkleBuoy::default()`: level zero, nothing nested. -/
def default : MerkleBuoy := new 0

/-- The current level: that of the innermost nested buoy. -/
def level : MerkleBuoy → Nat
  | mk buoy none => buoy
  | mk _ (some stack) => level stack

/-- `push` on a buoy with nothing nested: it surfaces when `depth` equals its level
and opens a nested buoy at `depth` otherwise. -/
def pushLevel (buoy depth : Nat) : Bool × MerkleBuoy :=
  if depth = 0 then (false, mk buoy none)
  else if depth = buoy then (true, mk (buoy - 1) none)
  else (false, mk buoy (some (new depth)))

/-- `MerkleBuoy::push`, returning whether the buoy surfaced and the buoy after the push. -/
def push : MerkleBuoy → Nat → Bool × MerkleBuoy
  | mk buoy none, depth => pushLevel buoy depth
  | mk buoy (some stack), depth =>
      if depth = 0 then (false, mk buoy (some stack))
      else
        match push stack depth with
        | (false, stack) => (false, mk buoy (some stack))
        | (true, stack) => pushLevel buoy stack.level

@[simp] theorem level_new (topLevel : Nat) : (new topLevel).level = topLevel := rfl

theorem pushLevel_self {buoy : Nat} (positive : 0 < buoy) :
    pushLevel buoy buoy = (true, new (buoy - 1)) := by
  simp [pushLevel, Nat.pos_iff_ne_zero.mp positive, new]

theorem pushLevel_of_ne {buoy depth : Nat} (positive : 0 < depth) (differs : depth ≠ buoy) :
    pushLevel buoy depth = (false, mk buoy (some (new depth))) := by
  simp [pushLevel, Nat.pos_iff_ne_zero.mp positive, differs]

/-- A nested buoy that surfaces hands its level to its parent as a push. -/
theorem push_some_of_surfaced {buoy depth : Nat} {stack surfaced : MerkleBuoy} (positive : 0 < depth)
    (surfaces : stack.push depth = (true, surfaced)) :
    (mk buoy (some stack)).push depth = pushLevel buoy surfaced.level := by
  simp [push, Nat.pos_iff_ne_zero.mp positive, surfaces]

theorem push_some_of_stays {buoy depth : Nat} {stack stack' : MerkleBuoy} (positive : 0 < depth)
    (stays : stack.push depth = (false, stack')) :
    (mk buoy (some stack)).push depth = (false, mk buoy (some stack')) := by
  simp [push, Nat.pos_iff_ne_zero.mp positive, stays]

/-- The levels of the nested buoys, the outermost first. -/
def levels : MerkleBuoy → List Nat
  | mk buoy none => [buoy]
  | mk buoy (some stack) => buoy :: levels stack

end MerkleBuoy

end BpStd.Derive
