import BeamSocket.Lib.Bytes

/-!
# Functions that index their input

The outcome of code that returns a value or an error, or panics because it indexes a byte
string outside of its bounds.

* `Outcome.range_of_le`, `Outcome.index_of_lt`: an access in bounds;
  `Outcome.range_append`, `Outcome.index_append`: an access to what was written there.
* `Outcome.bind_ne_panicked`: two steps do not panic if neither does.
-/

namespace BeamSocket.Lib

/-- How a computation ends: with a value, with an error that it returns, or in a panic. -/
inductive Outcome (ε α : Type)
  | ok (a : α)
  | error (e : ε)
  | panicked
  deriving DecidableEq

namespace Outcome

variable {ε α β : Type}

/-- The `?` operator: an error or a panic ends the function. -/
def bind (x : Outcome ε α) (f : α → Outcome ε β) : Outcome ε β :=
  match x with
  | ok a => f a
  | error e => error e
  | panicked => panicked

instance : Monad (Outcome ε) where
  pure := ok
  bind := bind

@[simp] theorem ok_bind (a : α) (f : α → Outcome ε β) : (ok a >>= f) = f a := rfl

theorem ok_ne_panicked (a : α) : (ok a : Outcome ε α) ≠ panicked := by
  intro h
  cases h

theorem error_ne_panicked (e : ε) : (error e : Outcome ε α) ≠ panicked := by
  intro h
  cases h

theorem bind_ne_panicked {x : Outcome ε α} {f : α → Outcome ε β} (hx : x ≠ panicked)
    (hf : ∀ a, x = ok a → f a ≠ panicked) : (x >>= f) ≠ panicked := by
  cases x with
  | ok a => exact hf a rfl
  | error e => exact error_ne_panicked e
  | panicked => exact absurd rfl hx

/-- `buf[i]`. -/
def index (buf : Bytes) (i : ℕ) : Outcome ε UInt8 :=
  match buf[i]? with
  | some b => ok b
  | none => panicked

/-- `buf[off..off + n]`. -/
def range (buf : Bytes) (off n : ℕ) : Outcome ε Bytes :=
  match slice? buf off n with
  | some b => ok b
  | none => panicked

/-- `buf.split_at(mid)`. -/
def splitAt (buf : Bytes) (mid : ℕ) : Outcome ε (Bytes × Bytes) :=
  if mid ≤ buf.length then ok (buf.take mid, buf.drop mid) else panicked

/-- `o.ok_or(e)?`, for a checked access such as `buf.get(..)`. -/
def okOr (e : ε) : Option α → Outcome ε α
  | some a => ok a
  | none => error e

@[simp] theorem okOr_some (e : ε) (a : α) : okOr e (some a) = ok a := rfl

/-- The value or the error of a function that cannot panic. -/
def ofExcept : Except ε α → Outcome ε α
  | .ok a => ok a
  | .error e => error e

theorem range_of_le {buf : Bytes} {off n : ℕ} (h : off + n ≤ buf.length) :
    (range buf off n : Outcome ε Bytes) = ok (slice buf off n) := by
  unfold range slice?
  rw [if_pos h]

theorem index_of_lt {buf : Bytes} {i : ℕ} (h : i < buf.length) :
    (index buf i : Outcome ε UInt8) = ok buf[i] := by
  unfold index
  rw [List.getElem?_eq_getElem h]

/-- A field written behind `p` is read back. -/
theorem range_append {p x r : Bytes} {off n : ℕ} (hoff : off = p.length) (hn : n = x.length) :
    (range (p ++ (x ++ r)) off n : Outcome ε Bytes) = ok x := by
  unfold range
  rw [slice?_append hoff hn]

theorem index_append {p r : Bytes} {x : UInt8} {off : ℕ} (hoff : off = p.length) :
    (index (p ++ (x :: r)) off : Outcome ε UInt8) = ok x := by
  unfold index
  rw [getElem?_append_cons hoff]

theorem splitAt_of_le {buf : Bytes} {mid : ℕ} (h : mid ≤ buf.length) :
    (splitAt buf mid : Outcome ε (Bytes × Bytes)) = ok (buf.take mid, buf.drop mid) :=
  if_pos h

theorem okOr_ne_panicked (e : ε) (o : Option α) : okOr e o ≠ panicked := by
  cases o with
  | none => exact error_ne_panicked e
  | some a => exact ok_ne_panicked a

end Outcome

end BeamSocket.Lib
