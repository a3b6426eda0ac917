/-!
Contract: the result of Rust code that returns a `Result` and may also panic.

Owns: `Outcome`, its monad structure and the lemmas that take a `do` block apart.
`panic` stands for every abort the modelled code can reach: `unreachable!()`,
`todo!()`, a failed `assert!`, an `expect` on `None`, and an arithmetic overflow
under the checked (debug-build) semantics.

Does not own: the error types, which live beside the functions that return them.
-/

namespace BpStd.Rust

/-- `Result<α, ε>` extended with the panic a Rust function may reach instead of returning. -/
inductive Outcome (ε α : Type) where
  | ok (value : α)
  | err (error : ε)
  | panic
deriving Repr, DecidableEq

namespace Outcome

variable {ε α β : Type}

def bind : Outcome ε α → (α → Outcome ε β) → Outcome ε β
  | ok value, next => next value
  | err error, _ => err error
  | panic, _ => panic

instance : Monad (Outcome ε) where
  pure := ok
  bind := bind

@[simp] theorem pure_eq_ok (value : α) : (pure value : Outcome ε α) = ok value := rfl

@[simp] theorem ok_bind (value : α) (next : α → Outcome ε β) :
    (ok value >>= next) = next value := rfl

@[simp] theorem err_bind (error : ε) (next : α → Outcome ε β) :
    (err error >>= next) = err error := rfl

@[simp] theorem panic_bind (next : α → Outcome ε β) :
    (panic >>= next) = (panic : Outcome ε β) := rfl

@[simp] theorem map_ok (f : α → β) (value : α) :
    (f <$> ok value : Outcome ε β) = ok (f value) := rfl

@[simp] theorem map_err (f : α → β) (error : ε) : (f <$> err error : Outcome ε β) = err error :=
  rfl

@[simp] theorem map_panic (f : α → β) : (f <$> panic : Outcome ε β) = panic := rfl

/-- A mapped result is `Ok` exactly when the result was. -/
theorem map_eq_ok {f : α → β} {x : Outcome ε α} {result : β} :
    (f <$> x) = ok result ↔ ∃ value, x = ok value ∧ f value = result := by
  cases x <;> simp

instance : LawfulMonad (Outcome ε) :=
  LawfulMonad.mk' _ (fun x => by cases x <;> rfl) (fun _ _ => rfl)
    (fun x _ _ => by cases x <;> rfl)

/-- A mapped result panics exactly when the result did. -/
theorem map_eq_panic {f : α → β} {x : Outcome ε α} : (f <$> x) = panic ↔ x = panic := by
  cases x <;> simp

/-- A successful `do` block succeeded at its first step. -/
theorem bind_eq_ok {x : Outcome ε α} {next : α → Outcome ε β} {result : β} :
    (x >>= next) = ok result ↔ ∃ value, x = ok value ∧ next value = ok result := by
  cases x <;> simp

/-- A `do` block panics exactly when its first step panics or the rest does. -/
theorem bind_eq_panic {x : Outcome ε α} {next : α → Outcome ε β} :
    (x >>= next) = panic ↔ x = panic ∨ ∃ value, x = ok value ∧ next value = panic := by
  cases x <;> simp

/-- `option.ok_or(error)?`: `None` becomes the given error. -/
def ofOption (error : ε) : Option α → Outcome ε α
  | some value => ok value
  | none => err error

@[simp] theorem ofOption_some (error : ε) (value : α) :
    ofOption error (some value) = ok value := rfl

@[simp] theorem ofOption_none (error : ε) : ofOption error (none : Option α) = err error := rfl

theorem ofOption_ne_panic (error : ε) (x : Option α) : ofOption error x ≠ panic := by
  cases x <;> simp

theorem ofOption_eq_ok {error : ε} {x : Option α} {value : α} :
    ofOption error x = ok value ↔ x = some value := by
  cases x <;> simp

/-- A `Result` produced without any possibility of panicking. -/
def ofExcept : Except ε α → Outcome ε α
  | .ok value => ok value
  | .error error => err error

@[simp] theorem ofExcept_ok (value : α) : ofExcept (.ok value : Except ε α) = ok value := rfl

@[simp] theorem ofExcept_error (error : ε) : ofExcept (.error error : Except ε α) = err error := rfl

theorem ofExcept_ne_panic (x : Except ε α) : ofExcept x ≠ panic := by
  cases x <;> simp

theorem ofExcept_eq_ok {x : Except ε α} {value : α} :
    ofExcept x = ok value ↔ x = .ok value := by
  cases x <;> simp

/-- `expect`/`unwrap` on an `Option`: `None` panics. -/
def expect : Option α → Outcome ε α
  | some value => ok value
  | none => panic

@[simp] theorem expect_some (value : α) : (expect (some value) : Outcome ε α) = ok value := rfl

@[simp] theorem expect_none : (expect none : Outcome ε α) = panic := rfl

end Outcome

end BpStd.Rust
