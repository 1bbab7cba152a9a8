import Mathlib.Algebra.BigOperators.Group.List.Basic
import Mathlib.Algebra.Order.Ring.Int

/-!
# Lists in pieces

A stream is read piece by piece into buffers of given sizes. A buffer is full of `pad` before
it is read into, so that a stream that ends too early leaves it there.

* `Lib.fillAll`: the buffers.
* `Lib.map_length_fillAll`: each of them has its size.
* `Lib.flatten_fillAll_iff`: together they are the stream iff the sizes add up to its length.
-/

namespace Lib

variable {α : Type*} (pad : α)

/-- A buffer that is read into. -/
def fill (size : ℕ) (stream : List α) : List α := (stream.take size).rightpad size pad

/-- The buffers of a stream. -/
def fillAll : List ℕ → List α → List (List α)
  | [], _ => []
  | size :: sizes, stream => fill pad size stream :: fillAll sizes (stream.drop size)

theorem length_fill (size : ℕ) (stream : List α) : (fill pad size stream).length = size := by
  unfold fill
  rw [List.length_rightpad, List.length_take]
  omega

/-- A stream that is long enough fills the buffer. -/
theorem fill_of_le {size : ℕ} {stream : List α} (h : size ≤ stream.length) :
    fill pad size stream = stream.take size := by
  unfold fill
  rw [List.rightpad, List.length_take, Nat.min_eq_left h, Nat.sub_self, List.replicate_zero,
    List.append_nil]

theorem map_length_fillAll (sizes : List ℕ) (stream : List α) :
    (fillAll pad sizes stream).map List.length = sizes := by
  induction sizes generalizing stream with
  | nil => rfl
  | cons size sizes ih => rw [fillAll, List.map_cons, length_fill, ih]

/-- The buffers are the beginning of a stream that is long enough. -/
theorem flatten_fillAll {sizes : List ℕ} {stream : List α} (h : sizes.sum ≤ stream.length) :
    (fillAll pad sizes stream).flatten = stream.take sizes.sum := by
  induction sizes generalizing stream with
  | nil => rfl
  | cons size sizes ih =>
    rw [List.sum_cons] at h
    have hrest : sizes.sum ≤ (stream.drop size).length := by
      rw [List.length_drop]
      omega
    rw [fillAll, List.flatten_cons, fill_of_le pad (by omega), ih hrest, List.sum_cons,
      List.take_add]

theorem flatten_fillAll_iff (sizes : List ℕ) (stream : List α) :
    (fillAll pad sizes stream).flatten = stream ↔ sizes.sum = stream.length := by
  constructor
  · intro h
    have hlength := congrArg List.length h
    rwa [List.length_flatten, map_length_fillAll] at hlength
  · intro h
    rw [flatten_fillAll pad (Nat.le_of_eq h), h, List.take_length]

end Lib
