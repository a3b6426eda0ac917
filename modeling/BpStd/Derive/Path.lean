import Mathlib.Data.List.Infix
import BpStd.Derive.Index

/-!
Contract: `derive/src/path.rs`, derivation paths as ordered lists of indices.

Owns: `DerivationPath<I>` for every index type with an `Idx` instance, its
`terminal`, which reads the last two elements as `(keychain, index)`, and
`shared_prefix` and `starts_with`, which compare two paths through
`Into<DerivationIndex>`.

`terminal` checks that the keychain's child number fits a `u8` with
`u8::try_from`, but converts the index's child number with `as u16`, which keeps
only its low 16 bits.
-/

namespace BpStd.Derive

/-- `DerivationPath<I>(Vec<I>)`. -/
structure DerivationPath (I : Type) where
  segments : List I

namespace DerivationPath

variable {I : Type} [Idx I]

/-- `u8::try_from(u32).ok()`. -/
def u8TryFrom (value : UInt32) : Option UInt8 :=
  if value.toNat < 256 then some value.toUInt8 else none

/-- `DerivationPath::terminal`. -/
def terminal (path : DerivationPath I) : Option Terminal :=
  match path.segments.reverse with
  | [] => none
  | index :: rest =>
      if Idx.isHardened index then none
      else
        let index := NormalIndex.normal (Idx.childNumber index).toUInt16
        match rest with
        | [] => none
        | keychain :: _ =>
            if Idx.isHardened keychain then none
            else (u8TryFrom (Idx.childNumber keychain)).map fun keychain =>
              Terminal.new keychain index

/-- The path `0/65536` of normal indices yields the terminal `(0, 0)`: the index's
child number 65536 loses its high bits. -/
theorem terminal_of_index_65536 :
    ((⟨[NormalIndex.ofNat 0 (by decide), NormalIndex.ofNat 65536 (by decide)]⟩ :
        DerivationPath NormalIndex).terminal.map
      fun t => (t.keychain.value.toNat, t.index.index.toNat)) = some (0, 0) := rfl

end DerivationPath

/-! ## Shared prefixes -/

/-- The common prefix `take_while` counts, over the pairs of `zip`: it covers all of
`master` exactly when `master`, read through `g`, is a prefix of `path` read through `f`. -/
theorem takeWhile_zip_length_eq_iff {α β γ : Type} [DecidableEq γ] (f : α → γ) (g : β → γ) :
    ∀ (path : List α) (master : List β), master.length ≤ path.length →
      (((path.zip master).takeWhile fun pair => f pair.1 == g pair.2).length = master.length ↔
        master.map g <+: path.map f)
  | _, [], _ => by simp
  | [], _ :: _, shorter => absurd shorter (by simp)
  | index :: path, masterIndex :: master, shorter => by
      have inductionHypothesis :=
        takeWhile_zip_length_eq_iff f g path master (Nat.le_of_succ_le_succ shorter)
      by_cases same : f index = g masterIndex
      · simp [same, inductionHypothesis]
      · simp [same, Ne.symm same]

namespace DerivationPath

open IntoDerivationIndex

variable {I I2 I3 : Type} [IntoDerivationIndex I] [IntoDerivationIndex I2] [IntoDerivationIndex I3]

/-- `DerivationPath::shared_prefix`. -/
def sharedPrefix (path : DerivationPath I) (master : List I2) : Nat :=
  if master.length ≤ path.segments.length then
    let shared := ((path.segments.zip master).takeWhile fun (index, masterIndex) =>
      into index == into masterIndex).length
    if shared = master.length then shared else 0
  else 0

/-- `DerivationPath::starts_with`. -/
def startsWith (path : DerivationPath I) (master : List I2) : Bool :=
  path.sharedPrefix master == master.length

theorem sharedPrefix_of_isPrefix {path : DerivationPath I} {master : List I2}
    (isPrefix : master.map into <+: path.segments.map into) :
    path.sharedPrefix master = master.length := by
  have shorter : master.length ≤ path.segments.length := by
    simpa using isPrefix.length_le
  simp only [sharedPrefix, shorter, if_true]
  rw [if_pos ((takeWhile_zip_length_eq_iff into into _ _ shorter).mpr isPrefix)]
  exact (takeWhile_zip_length_eq_iff into into _ _ shorter).mpr isPrefix

theorem sharedPrefix_of_not_isPrefix {path : DerivationPath I} {master : List I2}
    (notPrefix : ¬ master.map into <+: path.segments.map into) :
    path.sharedPrefix master = 0 := by
  unfold sharedPrefix
  split
  · rename_i shorter
    rw [if_neg (mt (takeWhile_zip_length_eq_iff into into _ _ shorter).mp notPrefix)]
  · rfl

theorem startsWith_iff {path : DerivationPath I} {master : List I2} :
    path.startsWith master = true ↔ master.map into <+: path.segments.map into := by
  by_cases isPrefix : master.map into <+: path.segments.map into
  · simp [startsWith, sharedPrefix_of_isPrefix isPrefix, isPrefix]
  · have masterNonempty : master ≠ [] := by
      rintro rfl
      exact isPrefix List.nil_prefix
    simp only [startsWith, sharedPrefix_of_not_isPrefix isPrefix, isPrefix, iff_false, beq_iff_eq]
    exact fun empty => masterNonempty (List.eq_nil_of_length_eq_zero empty.symm)

/-- `shared_prefix` and `starts_with` compare paths through `Into<DerivationIndex>`:
the shared prefix is the whole master when the master is a prefix of the path, and `0`
otherwise; so `starts_with` holds exactly when the path is the master followed by more
indexes, is reflexive, holds of the empty master, and is transitive. -/
theorem sharedPrefix_startsWith :
    (∀ (path : DerivationPath I) (master : List I2),
      (master.map into <+: path.segments.map into → path.sharedPrefix master = master.length) ∧
      (¬ master.map into <+: path.segments.map into → path.sharedPrefix master = 0)) ∧
    (∀ (path : DerivationPath I) (master : List I2),
      path.startsWith master = true ↔ ∃ rest, path.segments.map into = master.map into ++ rest) ∧
    (∀ path : DerivationPath I, path.startsWith path.segments = true) ∧
    (∀ path : DerivationPath I, path.startsWith ([] : List I2) = true) ∧
    (∀ (path : DerivationPath I) (master : DerivationPath I2) (root : List I3),
      path.startsWith master.segments = true → master.startsWith root = true →
        path.startsWith root = true) := by
  refine ⟨fun _ _ => ⟨sharedPrefix_of_isPrefix, sharedPrefix_of_not_isPrefix⟩,
    fun _ _ => startsWith_iff.trans ?_, fun path => startsWith_iff.mpr (List.prefix_refl _),
    fun _ => startsWith_iff.mpr List.nil_prefix, fun _ _ _ longer shorter => ?_⟩
  · exact ⟨fun ⟨rest, appended⟩ => ⟨rest, appended.symm⟩, fun ⟨rest, appended⟩ => ⟨rest, appended.symm⟩⟩
  · exact startsWith_iff.mpr ((startsWith_iff.mp shorter).trans (startsWith_iff.mp longer))

end DerivationPath

end BpStd.Derive
