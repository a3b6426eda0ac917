import Mathlib.Data.Nat.Defs
import BpStd.Rust.Outcome
import BpStd.Derive.Index

/-!
Contract: `Derive::derive_batch` and `DeriveSpk::derive_address_batch` of
`std/src/derive.rs`, the loops that derive a run of addresses at consecutive indices.

Owns: the loop of `derive_batch` with its `u8` counter, whose `count += 1` panics on
overflow under the checked semantics, `derive_address`, and `derive_address_batch`, which
maps the batch through `Address::with(…).expect(…)`.

The loop pushes before it tests: it derives at the current index, counts, steps the index
and only then compares the count with `max_count`, so a `max_count` of `0` still yields
one item.  Every other bound is the one a caller expects: consecutive indices from `from`,
at most `max_count` of them, cut at the last normal index, and a counter that never
reaches 256 (`deriveBatch_consecutive`).

Does not own: `derive` itself and `Address::with` (outside `src/`), parameters of every
statement.
-/

namespace BpStd.Derive

open BpStd.Rust

section Batch

variable {D : Type} (derive : NormalIndex → NormalIndex → D)

/-- The `loop` of `derive_batch`, from the index, the counter and the batch so far.  It
pushes first, then counts, then steps the index and compares the count.  `fuel` bounds
the iterations; the counter rises by one in each and `count += 1` panics before it would
pass 255, so 256 always suffice. -/
def deriveBatchLoop (change : NormalIndex) (maxCount : UInt8) :
    Nat → NormalIndex → UInt8 → List D → Outcome Empty (List D)
  | 0, _, _, _ => .panic
  | fuel + 1, index, count, batch =>
      let batch := batch ++ [derive change index]
      if count = 255 then .panic
      else
        let count := count + 1
        match index.checkedIncAssign with
        | none => .ok batch
        | some index =>
            if count ≥ maxCount then .ok batch
            else deriveBatchLoop change maxCount fuel index count batch

/-- `Derive::derive_batch(change, from, max_count)`. -/
def deriveBatch (change fromIndex : NormalIndex) (maxCount : UInt8) : Outcome Empty (List D) :=
  deriveBatchLoop derive change maxCount 256 fromIndex 0 []

/-- **The loop derives a run of consecutive indices.**  From a counter below the effective
maximum `max max_count 1`, with enough fuel, the loop appends the derivations at the
indices from `index` on, as many as the counter has left and no further than the last
normal index. -/
theorem deriveBatchLoop_consecutive (change : NormalIndex) (maxCount : UInt8) (fuel : Nat)
    (index : NormalIndex) (count : UInt8) (batch : List D)
    (below : count.toNat < max maxCount.toNat 1)
    (enough : max maxCount.toNat 1 ≤ count.toNat + fuel) :
    ∃ indices : List NormalIndex, deriveBatchLoop derive change maxCount fuel index count batch =
        .ok (batch ++ indices.map (derive change)) ∧
      indices.map (fun index => index.index.toNat) = List.range' index.index.toNat
        (min (max maxCount.toNat 1 - count.toNat) (hardenedIndexBoundary - index.index.toNat)) := by
  induction fuel generalizing index count batch with
  | zero => omega
  | succ fuel inductionHypothesis =>
      have maxBelow : maxCount.toNat < 256 := maxCount.val.isLt
      have notFull : count ≠ 255 := fun full => by subst full; simp at below; omega
      have counted : (count + 1).toNat = count.toNat + 1 :=
        show (count.toNat + 1) % 256 = _ from Nat.mod_eq_of_lt (by omega)
      have indexBelow := index.index_lt
      have single : max maxCount.toNat 1 - count.toNat ≤ 1 ∨
          hardenedIndexBoundary - index.index.toNat ≤ 1 →
          List.range' index.index.toNat (min (max maxCount.toNat 1 - count.toNat)
            (hardenedIndexBoundary - index.index.toNat)) = [index.index.toNat] := by
        intro oneLeft
        have one : min (max maxCount.toNat 1 - count.toNat)
            (hardenedIndexBoundary - index.index.toNat) = 1 := by omega
        rw [one]
        rfl
      simp only [deriveBatchLoop, notFull, if_false]
      cases inc : index.checkedIncAssign with
      | none =>
          have last := NormalIndex.checkedIncAssign_eq_none inc
          exact ⟨[index], rfl, (single (.inr (by omega))).symm⟩
      | some next =>
          have step := NormalIndex.checkedIncAssign_eq_some inc
          by_cases stop : maxCount ≤ count + 1
          · have stopped : maxCount.toNat ≤ count.toNat + 1 := counted ▸ stop
            exact ⟨[index], by simp [stop], (single (.inl (by omega))).symm⟩
          · have continues : count.toNat + 1 < maxCount.toNat :=
              counted ▸ Nat.lt_of_not_le stop
            obtain ⟨indices, ran, exact⟩ := inductionHypothesis next (count + 1)
              (batch ++ [derive change index]) (by omega) (by omega)
            refine ⟨index :: indices, by simp [stop, ran], ?_⟩
            rw [List.map_cons, exact, step, counted,
              show min (max maxCount.toNat 1 - count.toNat)
                  (hardenedIndexBoundary - index.index.toNat) =
                min (max maxCount.toNat 1 - (count.toNat + 1))
                  (hardenedIndexBoundary - (index.index.toNat + 1)) + 1 by omega]
            rfl

theorem deriveBatch_consecutive (change fromIndex : NormalIndex) (maxCount : UInt8) :
    ∃ indices : List NormalIndex,
      deriveBatch derive change fromIndex maxCount = .ok (indices.map (derive change)) ∧
      indices.map (fun index => index.index.toNat) = List.range' fromIndex.index.toNat
        (min (max maxCount.toNat 1) (hardenedIndexBoundary - fromIndex.index.toNat)) := by
  have maxBelow : maxCount.toNat < 256 := maxCount.val.isLt
  obtain ⟨indices, ran, exact⟩ :=
    deriveBatchLoop_consecutive derive change maxCount 256 fromIndex 0 []
      (show 0 < max maxCount.toNat 1 by omega) (show max maxCount.toNat 1 ≤ 0 + 256 by omega)
  exact ⟨indices, by simpa using ran, by simpa using exact⟩

theorem deriveBatch_zero (change fromIndex : NormalIndex) :
    deriveBatch derive change fromIndex 0 = .ok [derive change fromIndex] := by
  unfold deriveBatch deriveBatchLoop
  cases fromIndex.checkedIncAssign <;> rfl

/-- `derive_batch` derives the indices from `from` on, one after another, at most
`max(max_count, 1)` of them and none past the last normal index, and its counter never
overflows; with a `max_count` of `0` it still derives one. -/
theorem deriveBatch_max_count_zero :
    (∀ (change fromIndex : NormalIndex) (maxCount : UInt8), ∃ indices : List NormalIndex,
      deriveBatch derive change fromIndex maxCount = .ok (indices.map (derive change)) ∧
      indices.map (fun index => index.index.toNat) = List.range' fromIndex.index.toNat
        (min (max maxCount.toNat 1) (hardenedIndexBoundary - fromIndex.index.toNat))) ∧
    ∀ change fromIndex : NormalIndex,
      deriveBatch derive change fromIndex 0 = .ok [derive change fromIndex] :=
  ⟨deriveBatch_consecutive derive, deriveBatch_zero derive⟩

/-- `mapM` of `expect` panics at the first `None` and otherwise returns every value. -/
theorem mapM_expect {α β ε : Type} (f : α → Option β) (items : List α) :
    (items.mapM fun item => (Outcome.expect (f item) : Outcome ε β)) =
      Outcome.expect (items.mapM f) := by
  induction items with
  | nil => rfl
  | cons item rest inductionHypothesis =>
      simp only [List.mapM_cons, inductionHypothesis]
      cases f item <;> cases rest.mapM f <;> rfl

variable {A N : Type}

/-- `DeriveSpk::derive_address_batch(network, change, from, max_count)`: the batch, each
script pubkey turned into an address by `Address::with(&spk, network)`, whose `expect`
panics on an error. -/
def deriveAddressBatch (addressWith : D → N → Option A) (network : N)
    (change fromIndex : NormalIndex) (maxCount : UInt8) : Outcome Empty (List A) := do
  let batch ← deriveBatch derive change fromIndex maxCount
  batch.mapM fun spk => Outcome.expect (addressWith spk network)

/-- `derive_address_batch` makes the addresses of the script pubkeys `derive_batch` derives,
in order, and panics exactly when one of them has no address. -/
theorem deriveAddressBatch_consecutive (addressWith : D → N → Option A) (network : N)
    (change fromIndex : NormalIndex) (maxCount : UInt8) :
    ∃ indices : List NormalIndex,
      deriveAddressBatch derive addressWith network change fromIndex maxCount =
        Outcome.expect ((indices.map (derive change)).mapM fun spk => addressWith spk network) ∧
      indices.map (fun index => index.index.toNat) = List.range' fromIndex.index.toNat
        (min (max maxCount.toNat 1) (hardenedIndexBoundary - fromIndex.index.toNat)) := by
  obtain ⟨indices, ran, consecutive⟩ := deriveBatch_consecutive derive change fromIndex maxCount
  refine ⟨indices, ?_, consecutive⟩
  rw [deriveAddressBatch, ran, Outcome.ok_bind, mapM_expect]

/-- `DeriveSpk::derive_address(network, change, index)`: the address of the script pubkey
`derive` gives, whose `expect` panics when it has none. -/
def deriveAddress (addressWith : D → N → Option A) (network : N) (change index : NormalIndex) :
    Outcome Empty A :=
  Outcome.expect (addressWith (derive change index) network)

theorem mapM_map_comp {α β γ ε : Type} (f : β → Outcome ε γ) (g : α → β) (items : List α) :
    (items.map g).mapM f = items.mapM (f ∘ g) := by
  induction items with
  | nil => rfl
  | cons item rest inductionHypothesis => simp only [List.map_cons, List.mapM_cons,
      inductionHypothesis, Function.comp_apply]

/-- `derive_address_batch` is `derive_address` at each of the consecutive indices, in
order: the batch agrees with the single calls, and panics where the first of them does. -/
theorem deriveAddressBatch_eq_mapM_deriveAddress (addressWith : D → N → Option A) (network : N)
    (change fromIndex : NormalIndex) (maxCount : UInt8) :
    ∃ indices : List NormalIndex,
      deriveAddressBatch derive addressWith network change fromIndex maxCount =
        indices.mapM (deriveAddress derive addressWith network change) ∧
      indices.map (fun index => index.index.toNat) = List.range' fromIndex.index.toNat
        (min (max maxCount.toNat 1) (hardenedIndexBoundary - fromIndex.index.toNat)) := by
  obtain ⟨indices, ran, consecutive⟩ := deriveBatch_consecutive derive change fromIndex maxCount
  refine ⟨indices, ?_, consecutive⟩
  rw [deriveAddressBatch, ran, Outcome.ok_bind, mapM_map_comp]
  rfl

end Batch

end BpStd.Derive
