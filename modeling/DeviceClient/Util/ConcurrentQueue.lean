import Mathlib.Algebra.BigOperators.Group.List.Basic
import Mathlib.Algebra.Order.Ring.Nat

/-!
# The concurrent queue

`CConcurrentQueue` over `std::queue`: `Put` tries the lock a bounded number of
times and drops the element when none of them succeeds, `Take` waits for the
lock. How often `TryLock` fails before it first succeeds is an input of `Put`.

The size counter is an `unsigned int`; the queue carries the fact that it is
the sum of the sizes of its elements modulo `2 ^ 32`.

* `lockRetry_iff`: `Put` gets the lock iff fewer than `MAX_LOCK_RETRIES`
  attempts fail in a row.
* `put_values` and `take_eq_some`: the operations on the list of
  elements.
* `Sized.size_eq`: the counter is the total size, as long as that fits.
-/

namespace DeviceClient

/-- One element with the size it was put with. -/
structure Node (α : Type) where
  value : α
  unSize : ℕ
deriving DecidableEq, Repr

/-- The queue, oldest element first. -/
structure ConcurrentQueue (α : Type) where
  queueQ : List (Node α)
  unSize : ℕ
  accounted : unSize = (queueQ.map Node.unSize).sum % 2 ^ 32
deriving DecidableEq

def MAX_LOCK_RETRIES : ℕ := 10

/-- The loop around `TryLock`, `nFails` attempts of which still fail; true if
the lock was obtained. -/
def lockRetry (nRetries : ℕ) : ℕ → Bool
  | 0 => true
  | nFails + 1 =>
    if MAX_LOCK_RETRIES ≤ nRetries + 1 then false else lockRetry (nRetries + 1) nFails

theorem lockRetry_iff (nRetries nFails : ℕ) (h : nRetries < MAX_LOCK_RETRIES) :
    lockRetry nRetries nFails = true ↔ nRetries + nFails < MAX_LOCK_RETRIES := by
  induction nFails generalizing nRetries with
  | zero => simp [lockRetry, h]
  | succ n ih =>
    unfold lockRetry
    by_cases hr : MAX_LOCK_RETRIES ≤ nRetries + 1
    · rw [if_pos hr]
      constructor
      · intro hf
        cases hf
      · intro hlt
        omega
    · rw [if_neg hr, ih (nRetries + 1) (by omega)]
      omega

namespace ConcurrentQueue

variable {α : Type}

/-- The queue as constructed. -/
def empty : ConcurrentQueue α := ⟨[], 0, rfl⟩

/-- The elements, oldest first. -/
def values (q : ConcurrentQueue α) : List α := q.queueQ.map Node.value

/-- Enqueue under the lock; the size parameter is an `unsigned int`. -/
def push (q : ConcurrentQueue α) (data : α) (unDataSize : ℕ) : ConcurrentQueue α where
  queueQ := q.queueQ ++ [⟨data, unDataSize % 2 ^ 32⟩]
  unSize := (q.unSize + unDataSize % 2 ^ 32) % 2 ^ 32
  accounted := by
    rw [q.accounted, List.map_append, List.sum_append]
    simp

/-- `Put`, when `nFails` attempts at the lock fail before one succeeds. -/
def put (q : ConcurrentQueue α) (data : α) (unDataSize nFails : ℕ) : Bool × ConcurrentQueue α :=
  if lockRetry 0 nFails then (true, q.push data unDataSize) else (false, q)

/-- `Take`. -/
def take (q : ConcurrentQueue α) : Option (α × ConcurrentQueue α) :=
  match hq : q.queueQ with
  | [] => none
  | node :: rest =>
    some (node.value, {
      queueQ := rest
      unSize := (q.unSize + 2 ^ 32 - node.unSize % 2 ^ 32) % 2 ^ 32
      accounted := by
        have hsum := q.accounted
        rw [hq, List.map_cons, List.sum_cons] at hsum
        rw [hsum]
        omega })

/-- `Size`. -/
def size (q : ConcurrentQueue α) : ℕ := q.unSize

@[simp] theorem values_empty : (empty : ConcurrentQueue α).values = [] := rfl

@[simp] theorem values_push (q : ConcurrentQueue α) (data : α) (n : ℕ) :
    (q.push data n).values = q.values ++ [data] := by
  simp [values, push]

/-- What `Put` does to the elements. -/
theorem put_values (q : ConcurrentQueue α) (data : α) (unDataSize nFails : ℕ) :
    (q.put data unDataSize nFails).2.values =
      if nFails < MAX_LOCK_RETRIES then q.values ++ [data] else q.values := by
  have hlock : lockRetry 0 nFails = true ↔ nFails < MAX_LOCK_RETRIES := by
    simpa using lockRetry_iff 0 nFails (by decide)
  unfold put
  by_cases h : nFails < MAX_LOCK_RETRIES
  · rw [if_pos (hlock.2 h), if_pos h]
    exact values_push q data unDataSize
  · rw [if_neg (fun hl => h (hlock.1 hl)), if_neg h]

/-- `Take` hands out the oldest element. -/
theorem take_eq_some {q q' : ConcurrentQueue α} {data : α} (h : q.take = some (data, q')) :
    q.values = data :: q'.values := by
  unfold take at h
  unfold values
  split at h
  · cases h
  · rename_i node rest hq
    cases h
    exact congrArg (List.map Node.value) hq

theorem take_eq_none {q : ConcurrentQueue α} (h : q.take = none) : q.values = [] := by
  unfold take at h
  unfold values
  split at h
  · rename_i hq
    exact congrArg (List.map Node.value) hq
  · exact nomatch h

/-! ## The size counter -/

/-- Every element was put with its own size. -/
def Sized (f : α → ℕ) (q : ConcurrentQueue α) : Prop :=
  ∀ node ∈ q.queueQ, node.unSize = f node.value % 2 ^ 32

theorem sized_empty (f : α → ℕ) : (empty : ConcurrentQueue α).Sized f := by
  intro node hnode
  cases hnode

theorem Sized.push {f : α → ℕ} {q : ConcurrentQueue α} (h : q.Sized f) (data : α) :
    (q.push data (f data)).Sized f := by
  intro node hnode
  rcases List.mem_append.1 hnode with hold | hnew
  · exact h node hold
  · rw [List.mem_singleton.1 hnew]

theorem Sized.take {f : α → ℕ} {q q' : ConcurrentQueue α} {data : α} (h : q.Sized f)
    (htake : q.take = some (data, q')) : q'.Sized f := by
  unfold ConcurrentQueue.take at htake
  split at htake
  · cases htake
  · rename_i node rest hq
    cases htake
    intro n hn
    apply h n
    rw [hq]
    exact List.mem_cons_of_mem node hn

/-- Below `2 ^ 32` the counter is the total size. -/
theorem Sized.size_eq {f : α → ℕ} {q : ConcurrentQueue α} (h : q.Sized f)
    (hlt : (q.values.map f).sum < 2 ^ 32) : q.size = (q.values.map f).sum := by
  have hnodes : ∀ l : List (Node α), (∀ node ∈ l, node.unSize = f node.value % 2 ^ 32) →
      (l.map Node.unSize).sum % 2 ^ 32 = ((l.map Node.value).map f).sum % 2 ^ 32 := by
    intro l
    induction l with
    | nil => exact fun _ => rfl
    | cons node rest ih =>
      intro hl
      have hrest := ih fun n hn => hl n (List.mem_cons_of_mem node hn)
      have hhead := hl node List.mem_cons_self
      simp only [List.map_cons, List.sum_cons]
      omega
  show q.unSize = _
  rw [q.accounted, hnodes q.queueQ h]
  exact Nat.mod_eq_of_lt hlt

end ConcurrentQueue

end DeviceClient
