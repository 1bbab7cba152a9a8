import DeviceClient.Lib.WakeUp

/-!
# A mutex and its condition

`CIgniteMutex` and `CThreadCondition` where one thread waits, the worker. `ConditionWait` is
two steps: the worker lets the mutex go and waits, and takes it again once it is awake. A
thread may unlock the mutex of another one, as the default mutex lets it.

* `workerView`: the worker and the calls, as far as waking up goes.
* `inv_goto_toCome`, `inv_goto`, `inv_goto_broadcast`: what a statement of a call keeps.
* `inv_look`, `inv_wait`: what the worker's statements keep.
-/

namespace DeviceClient

structure ThreadCondition where
  locked : Bool
  /-- The worker is blocked. -/
  waiting : Bool
deriving DecidableEq

namespace ThreadCondition

/-- As constructed. -/
def init : ThreadCondition := ⟨false, false⟩

/-- `Lock`; there is no step while the mutex is held. -/
def lock (c : ThreadCondition) : Option ThreadCondition :=
  if c.locked then none else some { c with locked := true }

/-- `TryLock`, whose answer nobody looks at. -/
def tryLock (c : ThreadCondition) : ThreadCondition := { c with locked := true }

def unlock (c : ThreadCondition) : ThreadCondition := { c with locked := false }

/-- `ConditionBroadcast`. The worker may also wake up so of itself. -/
def broadcast (c : ThreadCondition) : ThreadCondition := { c with waiting := false }

/-- `ConditionWait` up to where it blocks. -/
def wait (_ : ThreadCondition) : ThreadCondition := ⟨false, true⟩

/-- `ConditionWait` from there. -/
def resume (c : ThreadCondition) : Option ThreadCondition :=
  if c.waiting then none else c.lock

theorem waiting_lock {c c' : ThreadCondition} (h : c.lock = some c') : c'.waiting = c.waiting := by
  unfold lock at h
  split at h
  · exact nomatch h
  · exact Option.some.inj h ▸ rfl

end ThreadCondition

/-- What a worker looks at before it waits: its queue or flag, and the shutdown flag. -/
inductive WaitSource where
  | work
  | shutdown
deriving DecidableEq

namespace WaitSource

/-- The sources in a list, for the instances. -/
instance : Fintype WaitSource where
  elems := ⟨[work, shutdown], by decide⟩
  complete i := by cases i <;> decide

end WaitSource

/-! ## The worker -/

/-- Where the worker is: it has found some sources idle, or is in its wait. -/
inductive WorkerPosition where
  | looking (idle : WaitSource → Bool)
  | waiting

open Lib.WakeUp (View)

variable {κ : Type}

/-- Once it is awake in its wait, the worker has found nothing idle. -/
def workerView (pending : WaitSource → Bool) (position : WorkerPosition) (c : ThreadCondition)
    (toCome : κ → Bool) : View κ WaitSource where
  pending := pending
  idle :=
    match position with
    | .looking idle => idle
    | .waiting => fun _ => c.waiting
  blocked :=
    match position with
    | .looking _ => false
    | .waiting => c.waiting
  toCome := toCome

namespace WorkerWait

variable {pending pending' : WaitSource → Bool} {position : WorkerPosition}
  {c c' : ThreadCondition} {toCome toCome' : κ → Bool}

theorem inv_awake : View.Inv (workerView pending (.looking fun _ => false) c toCome) :=
  View.inv_of_awake rfl fun _ => rfl

/-- A statement of a call before its broadcast. -/
theorem inv_call (h : View.Inv (workerView pending position c toCome))
    (hwaiting : c'.waiting = c.waiting) (t : κ) (ht : toCome' t = true) :
    View.Inv (workerView pending' position c' toCome') := by
  cases position with
  | looking idle => exact h.of_toCome rfl rfl ht
  | waiting => exact h.of_toCome hwaiting (funext fun _ => hwaiting) ht

/-- A statement of a call that is not before its broadcast. -/
theorem inv_mono (h : View.Inv (workerView pending position c toCome))
    (hwaiting : c'.waiting = c.waiting) (htoCome : ∀ t, toCome t = true → toCome' t = true) :
    View.Inv (workerView pending position c' toCome') := by
  cases position with
  | looking idle => exact h.mono rfl rfl rfl htoCome
  | waiting => exact h.mono hwaiting (funext fun _ => hwaiting) rfl htoCome

/-- A broadcast awakes the worker that waits, and is heard otherwise. -/
theorem inv_broadcast {t : κ}
    (hheard : (workerView pending position c toCome).Heard t)
    (htoCome : ∀ u, u ≠ t → toCome' u = toCome u) :
    View.Inv (workerView pending position c.broadcast toCome') := by
  cases position with
  | looking idle => exact View.inv_of_heard hheard rfl rfl rfl rfl htoCome
  | waiting => exact View.inv_of_awake rfl fun _ => rfl

theorem inv_wake (h : View.Inv (workerView pending position c toCome)) :
    View.Inv (workerView pending position c.broadcast toCome) := by
  cases position with
  | looking idle =>
    exact h.mono rfl rfl rfl fun _ ht => ht
  | waiting => exact View.inv_of_awake rfl fun _ => rfl

section Calls

variable [DecidableEq κ] {ρ : Type} {call : κ → ρ} {before : ρ → Bool} {t : κ} {pc : ρ}

/-- A call goes on to a statement that its broadcast comes after. -/
theorem inv_goto_toCome
    (h : View.Inv (workerView pending position c fun u => before (call u)))
    (hwaiting : c'.waiting = c.waiting) (hpc : before pc = true) :
    View.Inv (workerView pending' position c' fun u => before (Function.update call t pc u)) := by
  refine inv_call h hwaiting t ?_
  rw [Function.update_self]
  exact hpc

/-- A call goes on, and no broadcast is behind it that was before it. -/
theorem inv_goto (h : View.Inv (workerView pending position c fun u => before (call u)))
    (hwaiting : c'.waiting = c.waiting) (hpc : before (call t) = true → before pc = true) :
    View.Inv (workerView pending position c' fun u => before (Function.update call t pc u)) := by
  refine inv_mono h hwaiting fun u hu => ?_
  by_cases hut : u = t
  · subst hut
    rw [Function.update_self]
    exact hpc hu
  · rw [Function.update_of_ne hut]
    exact hu

/-- A call broadcasts, and goes on. -/
theorem inv_goto_broadcast
    (hheard : (workerView pending position c fun u => before (call u)).Heard t) :
    View.Inv (workerView pending position c.broadcast
      fun u => before (Function.update call t pc u)) := by
  refine inv_broadcast hheard fun u hu => ?_
  rw [Function.update_of_ne hu]

end Calls

/-- The worker finds a source idle. -/
theorem inv_look {idle idle' : WaitSource → Bool}
    (h : View.Inv (workerView pending (.looking idle) c toCome))
    (hnew : ∀ i, idle' i = true → idle i = true ∨ pending i = false) :
    View.Inv (workerView pending (.looking idle') c' toCome) :=
  h.look rfl rfl hnew nofun

theorem inv_wait (h : View.Inv (workerView pending (.looking fun _ => true) c toCome)) :
    View.Inv (workerView pending .waiting c.wait toCome) :=
  h.look rfl rfl (fun _ _ => Or.inl rfl) fun _ _ => rfl

end WorkerWait

end DeviceClient
