import Mathlib.Data.Nat.Defs

/-!
Contract: `SmallVec<T>` of `invoice/src/base58.rs`, the digit buffer of the encoder:
the first 100 elements in an inline array, the rest in a heap vector.

Owns: `SmallVec` with its layout invariant as fields, `new`, `push`, `iter` and
`iter_mut` (as a traversal threading a state through a checked step), and the
lemmas that read each operation on `iter`, the sequence a plain vector would hold.
-/

namespace BpStd.Invoice.Base58

/-- `SmallVec<T>`.  `len` counts the inline elements; the heap is used only once the
inline array is full. -/
structure SmallVec (T : Type) where
  len : Nat
  stack : List T
  heap : List T
  stack_length : stack.length = 100
  len_le : len ≤ 100
  heap_spills : heap ≠ [] → len = 100

/-- A stateful step over a list that may stop on a panic, as a `for` loop over
`iter_mut()` with a carried value. -/
def mapAccum {T σ : Type} (step : σ → T → Option (T × σ)) : σ → List T → Option (List T × σ)
  | state, [] => some ([], state)
  | state, element :: rest =>
      (step state element).bind fun (element, state) =>
        (mapAccum step state rest).map fun (rest, state) => (element :: rest, state)

section MapAccum

variable {T σ : Type} {step : σ → T → Option (T × σ)}

theorem mapAccum_append (state : σ) (front back : List T) :
    mapAccum step state (front ++ back) =
      (mapAccum step state front).bind fun (front, state) =>
        (mapAccum step state back).map fun (back, state) => (front ++ back, state) := by
  induction front generalizing state with
  | nil =>
      simp only [List.nil_append, mapAccum, Option.some_bind]
      cases mapAccum step state back <;> rfl
  | cons element rest inductionHypothesis =>
      rw [List.cons_append]
      simp only [mapAccum, inductionHypothesis]
      cases step state element with
      | none => rfl
      | some stepped =>
          simp only [Option.some_bind]
          cases mapAccum step stepped.2 rest with
          | none => rfl
          | some restDone =>
              simp only [Option.some_bind, Option.map_some']
              cases mapAccum step restDone.2 back <;> simp

theorem mapAccum_length {state state' : σ} {elements elements' : List T}
    (ran : mapAccum step state elements = some (elements', state')) :
    elements'.length = elements.length := by
  induction elements generalizing state elements' state' with
  | nil =>
      cases ran
      rfl
  | cons element rest inductionHypothesis =>
      simp only [mapAccum, Option.bind_eq_some, Option.map_eq_some'] at ran
      obtain ⟨_, -, ⟨_, _⟩, restRan, finished⟩ := ran
      cases finished
      simp [inductionHypothesis restRan]

end MapAccum

namespace SmallVec

variable {T : Type}

/-- `SmallVec::new()`: every inline slot holds `T::default()`. -/
def new [Inhabited T] : SmallVec T :=
  ⟨0, List.replicate 100 default, [], by simp, by decide, fun heapNonempty => absurd rfl heapNonempty⟩

theorem heap_eq_nil_of_lt (vec : SmallVec T) (inline : vec.len < 100) : vec.heap = [] := by
  cases heap : vec.heap with
  | nil => rfl
  | cons _ _ =>
      have := vec.heap_spills (by simp [heap])
      omega

/-- `SmallVec::push`. -/
def push (vec : SmallVec T) (value : T) : SmallVec T :=
  if inline : vec.len < 100 then
    ⟨vec.len + 1, vec.stack.set vec.len value, vec.heap, by simp [vec.stack_length], inline,
      fun heapNonempty => absurd (vec.heap_eq_nil_of_lt inline) heapNonempty⟩
  else
    ⟨vec.len, vec.stack, vec.heap ++ [value], vec.stack_length, vec.len_le,
      fun _ => by have := vec.len_le; omega⟩

/-- `SmallVec::iter`: the inline elements, then the heap. -/
def iter (vec : SmallVec T) : List T := vec.stack.take vec.len ++ vec.heap

/-- `vec` with its inline elements and its heap replaced, lengths kept. -/
def replace (vec : SmallVec T) (front heap : List T) (frontLength : front.length = vec.len)
    (heapLength : heap.length = vec.heap.length) : SmallVec T :=
  ⟨vec.len, front ++ vec.stack.drop vec.len, heap,
    by simp [frontLength, vec.stack_length, vec.len_le],
    vec.len_le, fun heapNonempty => vec.heap_spills fun empty =>
      heapNonempty (List.eq_nil_of_length_eq_zero (by simp [heapLength, empty]))⟩

theorem take_len_length (vec : SmallVec T) : (vec.stack.take vec.len).length = vec.len := by
  rw [List.length_take, vec.stack_length, Nat.min_eq_left vec.len_le]

/-- `for element in vec.iter_mut()` running a checked `step` with a carried state. -/
def iterMut {σ : Type} (step : σ → T → Option (T × σ)) (state : σ) (vec : SmallVec T) :
    Option (SmallVec T × σ) :=
  match inlineRan : mapAccum step state (vec.stack.take vec.len) with
  | none => none
  | some (front, state) =>
      match heapRan : mapAccum step state vec.heap with
      | none => none
      | some (heap, state) =>
          some (vec.replace front heap ((mapAccum_length inlineRan).trans vec.take_len_length)
            (mapAccum_length heapRan), state)

@[simp] theorem iter_new [Inhabited T] : (new : SmallVec T).iter = [] := rfl

/-- `push` appends to the sequence, on either side of the inline/heap boundary. -/
@[simp] theorem iter_push (vec : SmallVec T) (value : T) :
    (vec.push value).iter = vec.iter ++ [value] := by
  unfold push iter
  split
  · rename_i inline
    have inBounds : vec.len < vec.stack.length := by rw [vec.stack_length]; exact inline
    simp only [vec.heap_eq_nil_of_lt inline, List.append_nil, List.take_succ]
    rw [List.set_take, List.set_eq_of_length_le (by rw [List.length_take]; exact Nat.min_le_left _ _)]
    simp [inBounds]
  · simp

@[simp] theorem iter_replace (vec : SmallVec T) (front heap : List T)
    (frontLength : front.length = vec.len) (heapLength : heap.length = vec.heap.length) :
    (vec.replace front heap frontLength heapLength).iter = front ++ heap := by
  show (front ++ vec.stack.drop vec.len).take vec.len ++ heap = front ++ heap
  rw [List.take_left' frontLength]

/-- `iter_mut` runs the step over the sequence `iter` yields, in order. -/
theorem iterMut_iter {σ : Type} (step : σ → T → Option (T × σ)) (state : σ) (vec : SmallVec T) :
    (vec.iterMut step state).map (fun result => (result.1.iter, result.2)) =
      mapAccum step state vec.iter := by
  unfold iterMut
  rw [iter, mapAccum_append]
  split
  · rename_i inlineRan
    simp [inlineRan]
  · rename_i front inlineState inlineRan
    simp only [inlineRan]
    split
    · rename_i heapRan
      simp [heapRan]
    · rename_i heap heapState heapRan
      simp [heapRan, iter_replace]

theorem iterMut_eq_some {σ : Type} {step : σ → T → Option (T × σ)} {state state' : σ}
    {vec : SmallVec T} {elements : List T} (ran : mapAccum step state vec.iter = some (elements, state')) :
    ∃ vec', vec.iterMut step state = some (vec', state') ∧ vec'.iter = elements := by
  rw [← iterMut_iter, Option.map_eq_some'] at ran
  obtain ⟨⟨vec', state''⟩, ranMut, same⟩ := ran
  cases same
  exact ⟨vec', ranMut, rfl⟩

/-- Every `SmallVec` keeps its first 100 elements inline: `len` is the length of the
sequence up to 100, and the heap holds exactly what comes after. -/
theorem len_eq_min_and_heap_eq_drop (vec : SmallVec T) :
    vec.len = min vec.iter.length 100 ∧ vec.heap = vec.iter.drop 100 := by
  have takeLength := vec.take_len_length
  rcases Nat.lt_or_ge vec.len 100 with inline | full
  · have heapEmpty := vec.heap_eq_nil_of_lt inline
    simp only [iter, heapEmpty, List.append_nil, takeLength]
    exact ⟨(Nat.min_eq_left (Nat.le_of_lt inline)).symm, (List.drop_eq_nil_of_le (by omega)).symm⟩
  · have full : vec.len = 100 := Nat.le_antisymm vec.len_le full
    simp only [iter, List.length_append, takeLength, full]
    rw [← full, List.drop_left' takeLength]
    exact ⟨by omega, rfl⟩

end SmallVec

/-! ## The buffer as the encoder uses it -/

/-- One update `format_iter` makes to its digit buffer: a `push`, or a pass of
`iter_mut` running a checked `step` from a starting `state`. -/
inductive Update (T σ : Type) where
  | push (value : T)
  | iterMut (step : σ → T → Option (T × σ)) (state : σ)

section Run

variable {T σ : Type}

/-- The updates applied in order to a `SmallVec`, with the state each `iter_mut` pass
ends with; `none` when a step panics. -/
def SmallVec.run : SmallVec T → List (Update T σ) → Option (SmallVec T × List σ)
  | vec, [] => some (vec, [])
  | vec, .push value :: updates => (vec.push value).run updates
  | vec, .iterMut step state :: updates =>
      (vec.iterMut step state).bind fun (vec, state) =>
        (vec.run updates).map fun (vec, states) => (vec, state :: states)

/-- The same updates applied to a plain `Vec`. -/
def runVec : List T → List (Update T σ) → Option (List T × List σ)
  | elements, [] => some (elements, [])
  | elements, .push value :: updates => runVec (elements ++ [value]) updates
  | elements, .iterMut step state :: updates =>
      (mapAccum step state elements).bind fun (elements, state) =>
        (runVec elements updates).map fun (elements, states) => (elements, state :: states)

/-- Run lemma: from any buffer, a run of updates yields the sequence and the carried
states that the same run over the buffer's sequence as a plain `Vec` yields. -/
theorem SmallVec.run_iter (vec : SmallVec T) (updates : List (Update T σ)) :
    (vec.run updates).map (fun result => (result.1.iter, result.2)) = runVec vec.iter updates := by
  induction updates generalizing vec with
  | nil => rfl
  | cons update updates inductionHypothesis =>
      cases update with
      | push value => simp only [SmallVec.run, runVec, inductionHypothesis, SmallVec.iter_push]
      | iterMut step state =>
          simp only [SmallVec.run, runVec, ← SmallVec.iterMut_iter, Option.map_bind,
            Option.bind_map]
          congr 1
          funext passed
          simp only [Function.comp, ← inductionHypothesis, Option.map_map]
          rfl

/-- `SmallVec` refines `Vec`: every sequence of `push` and `iter_mut` updates from
`SmallVec::new()` leaves `iter()` yielding what a `Vec` holds after the same updates,
with the same carried states and the same panics; and every buffer keeps at most 100
elements inline, the rest on the heap in order. -/
theorem smallVec_refines_vec [Inhabited T] (updates : List (Update T σ)) :
    ((SmallVec.new : SmallVec T).run updates).map (fun result => (result.1.iter, result.2)) =
        runVec [] updates ∧
      ∀ vec : SmallVec T, vec.len = min vec.iter.length 100 ∧ vec.heap = vec.iter.drop 100 :=
  ⟨SmallVec.run_iter _ updates, SmallVec.len_eq_min_and_heap_eq_drop⟩

end Run

end BpStd.Invoice.Base58
