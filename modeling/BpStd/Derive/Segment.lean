import Mathlib.Data.List.Sort
import Mathlib.Data.List.Dedup
import BpStd.Rust.Outcome
import BpStd.Derive.Index

/-!
Contract: `DerivationSeg` of `derive/src/path.rs`, a multipath segment: a non-empty
ordered set of at most eight indexes, with the constructors and accessors the source
gives it.

Owns: `DerivationSeg`, whose `NonEmptyOrdSet<I, 8>` (outside `src/`) is modelled from
the spec as the set's elements in increasing order, "a sorted-unique list of indices,
max: 8", carried with that invariant; `Confined::from_iter_checked` as every constructor
calls it, `new`, `From<[I; N]>`, `From<&'static [I]>`, `count`, `is_distinct`, `at`,
`first`, `Index<u8>`, `with` and `DerivationSeg::<NormalIndex>::standard`.

`from_iter_checked` and the `expect`s of `first` and `Index<u8>` are the panics of
`Outcome`.  The order of the set is the index type's `Ord`, a `LinearOrder` here.

`with` is `Confined::try_from_iter`; its error, `amplify::confinement::Error`, is
modelled from the spec's bounds.

Does not own: `Display` and `FromStr` (in `Derive.Text`), and the views `into_set`,
`to_set`, `as_set`.
-/

namespace BpStd.Derive

open BpStd.Rust

/-- `DerivationSeg<I>(NonEmptyOrdSet<I, 8>)`: the elements of the set in increasing
order, at least one and at most eight. -/
structure DerivationSeg (I : Type) [LinearOrder I] where
  items : List I
  sorted : items.Sorted (· < ·)
  nonempty : items ≠ []
  length_le : items.length ≤ 8

/-- Modelled from the spec: `#[derive(Ord)]` on `NormalIndex(u32)`, the order of the
stored value. -/
instance : LinearOrder NormalIndex :=
  LinearOrder.lift' (fun index => index.index.toNat) fun a b same => by
    cases a
    cases b
    congr
    exact UInt32.toNat.inj same

namespace DerivationSeg

variable {I : Type} [LinearOrder I]

/-- Modelled from the spec: the `BTreeSet` an iterator collects into, its distinct
elements in increasing order. -/
def collect (indexes : List I) : List I := indexes.dedup.insertionSort (· ≤ ·)

theorem collect_perm (indexes : List I) : (collect indexes).Perm indexes.dedup :=
  List.perm_insertionSort _ _

theorem collect_sorted (indexes : List I) : (collect indexes).Sorted (· < ·) :=
  (List.sorted_insertionSort _ _).lt_of_le ((collect_perm indexes).nodup_iff.mpr
    (List.nodup_dedup _))

@[simp] theorem mem_collect {index : I} {indexes : List I} :
    index ∈ collect indexes ↔ index ∈ indexes :=
  (collect_perm indexes).mem_iff.trans List.mem_dedup

theorem collect_eq_nil {indexes : List I} : collect indexes = [] ↔ indexes = [] := by
  rw [← List.length_eq_zero, (collect_perm indexes).length_eq, List.length_eq_zero,
    List.dedup_eq_nil]

/-- `Confined::from_iter_checked`: the set the indexes collect into, which must hold one
to eight elements, or the call panics. -/
def fromIterChecked (indexes : List I) : Outcome Empty (DerivationSeg I) :=
  if bounds : collect indexes ≠ [] ∧ (collect indexes).length ≤ 8 then
    .ok ⟨collect indexes, collect_sorted indexes, bounds.1, bounds.2⟩
  else .panic

/-- `DerivationSeg::new(index)`: `NonEmptyOrdSet::with(index)`. -/
def new (index : I) : DerivationSeg I :=
  ⟨[index], List.sorted_singleton _, List.cons_ne_nil _ _, Nat.le_of_ble_eq_true rfl⟩

/-- `From<[I; N]>`, which the source implements for `N = 2, 3, 4`. -/
def fromArray {n : Nat} (indexes : Fin n → I) : Outcome Empty (DerivationSeg I) :=
  fromIterChecked (List.ofFn indexes)

/-- `From<&'static [I]>`. -/
def fromSlice (indexes : List I) : Outcome Empty (DerivationSeg I) := fromIterChecked indexes

/-- `count`: `self.0.len() as u8`. -/
def count (seg : DerivationSeg I) : UInt8 := UInt8.ofNat seg.items.length

/-- `is_distinct`: the two sets are disjoint. -/
def isDistinct (seg other : DerivationSeg I) : Bool :=
  seg.items.all fun index => index ∉ other.items

/-- `at(index)`: `self.0.iter().nth(index as usize).copied()`. -/
def atIndex (seg : DerivationSeg I) (index : UInt8) : Option I := seg.items[index.toNat]?

/-- `first`: `self.0.first().expect(..)`. -/
def first (seg : DerivationSeg I) : Outcome Empty I := Outcome.expect seg.items.head?

/-- `Index<u8>`: `self.0.iter().nth(index as usize).expect(..)`. -/
def index (seg : DerivationSeg I) (index : UInt8) : Outcome Empty I :=
  Outcome.expect seg.items[index.toNat]?

/-- `DerivationSeg::<NormalIndex>::standard()`: the set `{0, 1}`. -/
def standard : Outcome Empty (DerivationSeg NormalIndex) :=
  fromIterChecked [⟨0, by decide⟩, ⟨1, by decide⟩]

/-! ## Construction -/

/-- `from_iter_checked` returns the set of the indexes when they hold one to eight
distinct values, and panics otherwise. -/
theorem fromIterChecked_eq_ok_iff {indexes : List I} {seg : DerivationSeg I} :
    fromIterChecked indexes = .ok seg ↔
      indexes ≠ [] ∧ indexes.dedup.length ≤ 8 ∧ seg.items = collect indexes := by
  rw [Ne, ← collect_eq_nil, ← (collect_perm indexes).length_eq]
  unfold fromIterChecked
  split
  · rename_i bounds
    refine ⟨fun built => ?_, fun ⟨_, _, same⟩ => ?_⟩
    · cases built
      exact ⟨bounds.1, bounds.2, rfl⟩
    · cases seg
      cases same
      rfl
  · rename_i bounds
    exact iff_of_false nofun fun ⟨nonempty, fits, _⟩ => bounds ⟨nonempty, fits⟩

/-- A slice with a repeated index collects to its distinct indexes in increasing order,
and an empty one panics. -/
example : DerivationSeg.items <$> fromSlice ([3, 1, 3] : List Nat) = .ok [1, 3] ∧
    fromSlice ([] : List Nat) = .panic :=
  ⟨rfl, rfl⟩

theorem ext_items {seg other : DerivationSeg I} (same : seg.items = other.items) : seg = other := by
  cases seg
  cases other
  cases same
  rfl

theorem collect_of_sorted {indexes : List I} (sorted : indexes.Sorted (· < ·)) :
    collect indexes = indexes := by
  rw [collect, List.Nodup.dedup sorted.nodup, List.Sorted.insertionSort_eq (sorted.imp le_of_lt)]

/-- Building a segment from its own elements gives it back. -/
theorem fromIterChecked_items (seg : DerivationSeg I) : fromIterChecked seg.items = .ok seg :=
  fromIterChecked_eq_ok_iff.mpr ⟨seg.nonempty,
    by rw [List.Nodup.dedup seg.sorted.nodup]; exact seg.length_le,
    (collect_of_sorted seg.sorted).symm⟩

/-! ## Access -/

variable (seg : DerivationSeg I)

theorem count_toNat : seg.count.toNat = seg.items.length :=
  UInt8.toNat_ofNat_of_lt (by have := seg.length_le; show seg.items.length < 256; omega)

end DerivationSeg

/-- Modelled from the spec: `amplify::confinement::Error`, for a collection below or
above its bounds ("derivation segment of size 0 rejected; segment of size 9 rejected"). -/
inductive ConfinementError where
  | undersize (len minLen : Nat)
  | oversize (len maxLen : Nat)
deriving Repr, DecidableEq

/-- `DerivationSeg::with`: `Confined::try_from_iter`, which returns the error that
`from_iter_checked` panics with. -/
def DerivationSeg.with {I : Type} [LinearOrder I] (indexes : List I) :
    Except ConfinementError (DerivationSeg I) :=
  if bounds : DerivationSeg.collect indexes ≠ [] ∧ (DerivationSeg.collect indexes).length ≤ 8 then
    .ok ⟨DerivationSeg.collect indexes, DerivationSeg.collect_sorted indexes, bounds.1, bounds.2⟩
  else if DerivationSeg.collect indexes = [] then .error (.undersize 0 1)
  else .error (.oversize (DerivationSeg.collect indexes).length 8)

/-- `with` succeeds exactly where `from_iter_checked` does, with the same segment. -/
theorem DerivationSeg.with_eq_ok_iff {I : Type} [LinearOrder I] {indexes : List I}
    {seg : DerivationSeg I} :
    DerivationSeg.with indexes = .ok seg ↔ DerivationSeg.fromIterChecked indexes = .ok seg := by
  unfold DerivationSeg.with DerivationSeg.fromIterChecked
  split
  · exact ⟨fun built => by cases built; rfl, fun built => by cases built; rfl⟩
  · split <;> exact iff_of_false nofun nofun

end BpStd.Derive
