import DeviceClient.Lib.Run
import DeviceClient.Util.ConcurrentQueue
import Mathlib.Algebra.Order.Ring.Nat
import Mathlib.Logic.Function.Basic

/-!
# The concurrent queue under its lock

`CConcurrentQueue` statement by statement, for any threads. `Put` polls the
lock with `TryLock`, which fails while another thread holds it; `Take` waits.
Between the lock and the unlock each changes the queue first and the size
counter then.

* `lockedStep`: a call, or the next statement of one thread.
* `LockedQueue.putLog`, `takenLog`: the elements put and taken, in the order in
  which the counter was updated. They and `returned`, the answers of `Put`, are
  history.
* `Inv`: one thread at a time is inside, and queue and counter show the
  elements put and not taken.
* `Present.change`, `InHand.change`: an entry handed to a `Put` that does not give
  up gets into the queue, and an entry in the queue stays until it is taken.
* `represents_lockedStep`: every step is an operation of `ConcurrentQueue` or
  changes nothing there.
* `fifo_of_run`: the queue is first in, first out and its counter is exact.
-/

namespace DeviceClient

/-- An element with its size, and the number of the call of `Put`. -/
structure Entry (α : Type) where
  call : ℕ
  node : Node α
deriving DecidableEq

/-- The next statement of a thread. -/
inductive QueuePc (α : Type) where
  | outside
  | putTry (e : Entry α) (nRetries : ℕ)
  | putPush (e : Entry α)
  | putSize (e : Entry α)
  | putUnlock (e : Entry α)
  | takeLock
  | takeFront
  | takeSize (e : Entry α)
  | takeUnlock
deriving DecidableEq

/-- The thread is between a lock and the unlock. -/
def QueuePc.inside {α : Type} : QueuePc α → Bool
  | .putPush _ | .putSize _ | .putUnlock _ | .takeFront | .takeSize _ | .takeUnlock => true
  | .outside | .putTry _ _ | .takeLock => false

structure LockedQueue (ι α : Type) where
  queueQ : List (Entry α)
  unSize : ℕ
  holder : Option ι
  pc : ι → QueuePc α
  nCalls : ℕ
  putLog : List (Entry α)
  takenLog : List (Entry α)
  returned : List (Entry α × Bool)

/-- A call, or a step of a thread that is inside a call. -/
inductive QueueAct (ι α : Type) where
  | callPut (i : ι) (data : α) (unDataSize : ℕ)
  | callTake (i : ι)
  | step (i : ι)

/-- The thread that acts. -/
def QueueAct.thread {ι α : Type} : QueueAct ι α → ι
  | .callPut i _ _ | .callTake i | .step i => i

namespace LockedQueue

variable {ι α : Type} [DecidableEq ι]

/-- The queue as constructed, every thread outside. -/
def init : LockedQueue ι α := ⟨[], 0, none, fun _ => .outside, 0, [], [], []⟩

/-- Thread `i` goes on to `p`. -/
def goto (s : LockedQueue ι α) (i : ι) (p : QueuePc α) : LockedQueue ι α :=
  { s with pc := Function.update s.pc i p }

/-- `TryLock`, and what follows a failure. -/
def tryLock (s : LockedQueue ι α) (i : ι) (e : Entry α) (nRetries : ℕ) : LockedQueue ι α :=
  if s.holder = none then { s.goto i (.putPush e) with holder := some i }
  else if MAX_LOCK_RETRIES ≤ nRetries + 1 then
    -- the element is deleted, `Put` answers false
    { s.goto i .outside with returned := s.returned ++ [(e, false)] }
  else s.goto i (.putTry e (nRetries + 1))

/-- The test for emptiness and `front`, `pop`. -/
def popFront (s : LockedQueue ι α) (i : ι) : LockedQueue ι α :=
  match s.queueQ with
  | [] => s.goto i .takeUnlock
  | e :: rest => { s.goto i (.takeSize e) with queueQ := rest }

/-- The next statement of thread `i`. -/
def stepThread (s : LockedQueue ι α) (i : ι) : Option (LockedQueue ι α) :=
  match s.pc i with
  | .outside => none
  | .putTry e nRetries => some (s.tryLock i e nRetries)
  | .putPush e => some { s.goto i (.putSize e) with queueQ := s.queueQ ++ [e] }
  -- the counter is 32 bits wide and wraps
  | .putSize e =>
    some { s.goto i (.putUnlock e) with
      unSize := (s.unSize + e.node.unSize) % 2 ^ 32
      putLog := s.putLog ++ [e] }
  | .putUnlock e =>
    some { s.goto i .outside with holder := none, returned := s.returned ++ [(e, true)] }
  -- `Take` waits for the lock, so it has no step while another thread is inside
  | .takeLock =>
    if s.holder = none then some { s.goto i .takeFront with holder := some i } else none
  | .takeFront => some (s.popFront i)
  | .takeSize e =>
    some { s.goto i .takeUnlock with
      unSize := (s.unSize + 2 ^ 32 - e.node.unSize % 2 ^ 32) % 2 ^ 32
      takenLog := s.takenLog ++ [e] }
  | .takeUnlock => some { s.goto i .outside with holder := none }

end LockedQueue

/-- One step; a call needs its thread outside. -/
def lockedStep {ι α : Type} [DecidableEq ι] (s : LockedQueue ι α) :
    QueueAct ι α → Option (LockedQueue ι α)
  | .callPut i data unDataSize =>
    match s.pc i with
    | .outside =>
      some { s.goto i (.putTry ⟨s.nCalls, ⟨data, unDataSize % 2 ^ 32⟩⟩ 0) with
        nCalls := s.nCalls + 1 }
    | _ => none
  | .callTake i =>
    match s.pc i with
    | .outside => some (s.goto i .takeLock)
    | _ => none
  | .step i => s.stepThread i

namespace LockedQueue

variable {ι α : Type} [DecidableEq ι]

/-- What one step can do, thread `i` leaving its place `s.pc i` for `p`. -/
inductive Change (s : LockedQueue ι α) (i : ι) : LockedQueue ι α → Prop where
  | callPut (data : α) (n : ℕ) (hpc : s.pc i = .outside) :
      Change s i { s.goto i (.putTry ⟨s.nCalls, ⟨data, n % 2 ^ 32⟩⟩ 0) with nCalls := s.nCalls + 1 }
  | callTake (hpc : s.pc i = .outside) : Change s i (s.goto i .takeLock)
  | lockPut (e : Entry α) (k : ℕ) (hpc : s.pc i = .putTry e k) (hfree : s.holder = none) :
      Change s i { s.goto i (.putPush e) with holder := some i }
  | giveUp (e : Entry α) (k : ℕ) (hpc : s.pc i = .putTry e k) (hheld : s.holder ≠ none)
      (hmax : MAX_LOCK_RETRIES ≤ k + 1) :
      Change s i { s.goto i .outside with returned := s.returned ++ [(e, false)] }
  | retry (e : Entry α) (k : ℕ) (hpc : s.pc i = .putTry e k) (hheld : s.holder ≠ none)
      (hmax : ¬ MAX_LOCK_RETRIES ≤ k + 1) : Change s i (s.goto i (.putTry e (k + 1)))
  | push (e : Entry α) (hpc : s.pc i = .putPush e) :
      Change s i { s.goto i (.putSize e) with queueQ := s.queueQ ++ [e] }
  | addSize (e : Entry α) (hpc : s.pc i = .putSize e) :
      Change s i { s.goto i (.putUnlock e) with
        unSize := (s.unSize + e.node.unSize) % 2 ^ 32
        putLog := s.putLog ++ [e] }
  | unlockPut (e : Entry α) (hpc : s.pc i = .putUnlock e) :
      Change s i { s.goto i .outside with holder := none, returned := s.returned ++ [(e, true)] }
  | lockTake (hpc : s.pc i = .takeLock) (hfree : s.holder = none) :
      Change s i { s.goto i .takeFront with holder := some i }
  | empty (hpc : s.pc i = .takeFront) (hnil : s.queueQ = []) : Change s i (s.goto i .takeUnlock)
  | pop (e : Entry α) (rest : List (Entry α)) (hpc : s.pc i = .takeFront)
      (hcons : s.queueQ = e :: rest) :
      Change s i { s.goto i (.takeSize e) with queueQ := rest }
  | subSize (e : Entry α) (hpc : s.pc i = .takeSize e) :
      Change s i { s.goto i .takeUnlock with
        unSize := (s.unSize + 2 ^ 32 - e.node.unSize % 2 ^ 32) % 2 ^ 32
        takenLog := s.takenLog ++ [e] }
  | unlockTake (hpc : s.pc i = .takeUnlock) :
      Change s i { s.goto i .outside with holder := none }

/-- Every step is one of these, of the thread it is a step of. -/
theorem change_of_lockedStep {s s' : LockedQueue ι α} {a : QueueAct ι α}
    (h : lockedStep s a = some s') : Change s a.thread s' := by
  -- one constructor of `Change` for each statement and its outcome
  cases a with
  | callPut i data n =>
    simp only [lockedStep] at h
    split at h
    · rename_i hpc
      cases h
      exact .callPut data n hpc
    · cases h
  | callTake i =>
    simp only [lockedStep] at h
    split at h
    · rename_i hpc
      cases h
      exact .callTake hpc
    · cases h
  | step i =>
    simp only [lockedStep, stepThread] at h
    split at h
    · cases h
    · rename_i e k hpc
      cases h
      unfold tryLock
      split
      · rename_i hfree
        exact .lockPut e k hpc hfree
      · rename_i hheld
        split
        · rename_i hmax
          exact .giveUp e k hpc hheld hmax
        · rename_i hmax
          exact .retry e k hpc hheld hmax
    · rename_i e hpc
      cases h
      exact .push e hpc
    · rename_i e hpc
      cases h
      exact .addSize e hpc
    · rename_i e hpc
      cases h
      exact .unlockPut e hpc
    · rename_i hpc
      split at h
      · rename_i hfree
        cases h
        exact .lockTake hpc hfree
      · cases h
    · rename_i hpc
      cases h
      unfold popFront
      split
      · rename_i hnil
        exact .empty hpc hnil
      · rename_i e rest hcons
        exact .pop e rest hpc hcons
    · rename_i e hpc
      cases h
      exact .subSize e hpc
    · rename_i hpc
      cases h
      exact .unlockTake hpc

@[simp] theorem goto_pc_self (s : LockedQueue ι α) (i : ι) (p : QueuePc α) :
    (s.goto i p).pc i = p := by
  simp [goto]

theorem goto_pc_of_ne (s : LockedQueue ι α) {i j : ι} (h : j ≠ i) (p : QueuePc α) :
    (s.goto i p).pc j = s.pc j := by
  simp [goto, h]

/-! ## The invariant -/

/-- How the queue shows the elements put and not taken: between the change of
the queue and that of the counter it is one element ahead or behind. -/
def Shows (s : LockedQueue ι α) (pending : List (Entry α)) : Prop :=
  match s.holder with
  | none => s.queueQ = pending
  | some i =>
    match s.pc i with
    | .putSize e => s.queueQ = pending ++ [e]
    | .takeSize e => pending = e :: s.queueQ
    | _ => s.queueQ = pending

/-- The sum of the sizes, as the counter has it. -/
def totalSize (entries : List (Entry α)) : ℕ := (entries.map fun e => e.node.unSize).sum % 2 ^ 32

structure Inv (s : LockedQueue ι α) (pending : List (Entry α)) : Prop where
  exclusive : ∀ i, s.holder = some i ↔ (s.pc i).inside = true
  log : s.putLog = s.takenLog ++ pending
  size : s.unSize = totalSize pending
  shows : s.Shows pending

omit [DecidableEq ι] in
theorem inv_init : (init : LockedQueue ι α).Inv [] where
  exclusive := by
    intro i
    constructor <;> exact fun h => by cases h
  log := rfl
  size := rfl
  shows := rfl

theorem totalSize_push (pending : List (Entry α)) (e : Entry α) :
    totalSize (pending ++ [e]) = (totalSize pending + e.node.unSize) % 2 ^ 32 := by
  unfold totalSize
  rw [List.map_append, List.sum_append]
  simp

theorem totalSize_pop (pending : List (Entry α)) (e : Entry α) :
    (totalSize (e :: pending) + 2 ^ 32 - e.node.unSize % 2 ^ 32) % 2 ^ 32 = totalSize pending := by
  unfold totalSize
  rw [List.map_cons, List.sum_cons]
  omega

/-- A thread that is outside, or only polls, leaves the view of the queue alone. -/
theorem Shows.goto {s : LockedQueue ι α} {pending : List (Entry α)} (hs : s.Shows pending) {i : ι}
    (hi : s.holder ≠ some i) (p : QueuePc α) : (s.goto i p).Shows pending := by
  unfold Shows at hs ⊢
  show match s.holder with
    | none => s.queueQ = pending
    | some j =>
      match (s.goto i p).pc j with
      | .putSize e => s.queueQ = pending ++ [e]
      | .takeSize e => pending = e :: s.queueQ
      | _ => s.queueQ = pending
  cases hholder : s.holder with
  | none =>
    rw [hholder] at hs
    exact hs
  | some j =>
    have hji : j ≠ i := fun heq => hi (by rw [hholder, heq])
    rw [hholder] at hs
    simp only [goto_pc_of_ne s hji]
    exact hs

/-- A thread moves between two places on one side of the lock. -/
theorem exclusive_goto {s : LockedQueue ι α}
    (hs : ∀ j, s.holder = some j ↔ (s.pc j).inside = true) {i : ι} {p : QueuePc α}
    (hp : p.inside = (s.pc i).inside) :
    ∀ j, s.holder = some j ↔ ((s.goto i p).pc j).inside = true := by
  intro j
  by_cases hji : j = i
  · rw [hji, goto_pc_self, hp]
    exact hs i
  · rw [goto_pc_of_ne s hji]
    exact hs j

/-- A thread takes the free lock. -/
theorem exclusive_lock {s : LockedQueue ι α}
    (hs : ∀ j, s.holder = some j ↔ (s.pc j).inside = true) {i : ι} {p : QueuePc α}
    (hfree : s.holder = none) (hp : p.inside = true) :
    ∀ j, some i = some j ↔ ((s.goto i p).pc j).inside = true := by
  intro j
  by_cases hji : j = i
  · rw [hji, goto_pc_self, hp]
    exact ⟨fun _ => rfl, fun _ => rfl⟩
  · rw [goto_pc_of_ne s hji, ← hs j, hfree]
    constructor
    · exact fun heq => absurd (Option.some.inj heq).symm hji
    · exact fun heq => by cases heq

/-- The thread inside leaves. -/
theorem exclusive_unlock {s : LockedQueue ι α}
    (hs : ∀ j, s.holder = some j ↔ (s.pc j).inside = true) {i : ι} (hi : (s.pc i).inside = true) :
    ∀ j, none = some j ↔ ((s.goto i .outside).pc j).inside = true := by
  intro j
  by_cases hji : j = i
  · rw [hji, goto_pc_self]
    constructor <;> exact fun h => by cases h
  · rw [goto_pc_of_ne s hji, ← hs j, (hs i).2 hi]
    constructor
    · exact fun heq => by cases heq
    · exact fun heq => absurd (Option.some.inj heq).symm hji

/-- The view of the queue from a place inside the lock. -/
def View (pending queueQ : List (Entry α)) : QueuePc α → Prop
  | .putSize e => queueQ = pending ++ [e]
  | .takeSize e => pending = e :: queueQ
  | _ => queueQ = pending

omit [DecidableEq ι] in
theorem shows_iff_of_holder {s : LockedQueue ι α} {pending : List (Entry α)} {i : ι}
    (hi : s.holder = some i) : s.Shows pending ↔ View pending s.queueQ (s.pc i) := by
  unfold Shows
  rw [hi]
  rfl

omit [DecidableEq ι] in
theorem Inv.view {s : LockedQueue ι α} {pending : List (Entry α)} {i : ι} {p : QueuePc α}
    (hs : s.Inv pending) (hpc : s.pc i = p) (hp : p.inside = true) :
    View pending s.queueQ p := by
  rw [← hpc] at hp ⊢
  exact (shows_iff_of_holder ((hs.exclusive i).2 hp)).1 hs.shows

/-- A move outside the lock. -/
theorem Inv.moveOutside {s : LockedQueue ι α} {pending : List (Entry α)} {i : ι} {p : QueuePc α}
    (hs : s.Inv pending) (hi : (s.pc i).inside = false) (hp : p.inside = false) :
    (s.goto i p).Inv pending where
  exclusive := exclusive_goto hs.exclusive (hp.trans hi.symm)
  log := hs.log
  size := hs.size
  shows := by
    refine hs.shows.goto (fun heq => ?_) p
    rw [(hs.exclusive i).1 heq] at hi
    cases hi

theorem Inv.lock {s : LockedQueue ι α} {pending : List (Entry α)} {i : ι} {p : QueuePc α}
    (hs : s.Inv pending) (hfree : s.holder = none) (hp : p.inside = true)
    (hview : s.queueQ = pending → View pending s.queueQ p) :
    Inv { s.goto i p with holder := some i } pending where
  exclusive := exclusive_lock hs.exclusive hfree hp
  log := hs.log
  size := hs.size
  shows := by
    have hshow := hs.shows
    unfold Shows at hshow
    rw [hfree] at hshow
    refine (shows_iff_of_holder rfl).2 ?_
    show View pending s.queueQ ((s.goto i p).pc i)
    rw [goto_pc_self]
    exact hview hshow

theorem Inv.unlock {s : LockedQueue ι α} {pending : List (Entry α)} {i : ι} (hs : s.Inv pending)
    (hin : (s.pc i).inside = true) (hview : s.queueQ = pending) :
    Inv { s.goto i .outside with holder := none } pending where
  exclusive := exclusive_unlock hs.exclusive hin
  log := hs.log
  size := hs.size
  shows := hview

/-- A move inside the lock, with whatever it changes. -/
theorem Inv.moveInside {s s' : LockedQueue ι α} {pending pending' : List (Entry α)} {i : ι}
    {p : QueuePc α} (hs : s.Inv pending) (hi : (s.pc i).inside = true) (hp : p.inside = true)
    (hpc : s'.pc = (s.goto i p).pc) (hholder : s'.holder = s.holder)
    (hlog : s'.putLog = s'.takenLog ++ pending') (hsize : s'.unSize = totalSize pending')
    (hview : View pending' s'.queueQ p) : s'.Inv pending' where
  exclusive := by
    rw [hholder, hpc]
    exact exclusive_goto hs.exclusive (hp.trans hi.symm)
  log := hlog
  size := hsize
  shows := by
    refine (shows_iff_of_holder (hholder.trans ((hs.exclusive i).2 hi))).2 ?_
    rw [hpc, goto_pc_self]
    exact hview

/-- What a step does to the elements put and not taken. -/
def PendingStep (pending pending' : List (Entry α)) : Prop :=
  pending' = pending ∨ (∃ e, pending' = pending ++ [e]) ∨ ∃ e, pending = e :: pending'

/-- The invariant through one step. -/
theorem Inv.change {s s' : LockedQueue ι α} {pending : List (Entry α)} {i : ι}
    (hs : s.Inv pending) (hc : Change s i s') :
    ∃ pending', s'.Inv pending' ∧ PendingStep pending pending' := by
  have hat : ∀ {p : QueuePc α} {b : Bool}, s.pc i = p → p.inside = b → (s.pc i).inside = b := by
    intro p b hpc hp
    rw [hpc]
    exact hp
  cases hc with
  | callPut data n hpc =>
    have hmoved := hs.moveOutside (hat hpc rfl) (p := .putTry ⟨s.nCalls, ⟨data, n % 2 ^ 32⟩⟩ 0) rfl
    exact ⟨pending, ⟨hmoved.exclusive, hmoved.log, hmoved.size, hmoved.shows⟩, Or.inl rfl⟩
  | callTake hpc => exact ⟨pending, hs.moveOutside (hat hpc rfl) rfl, Or.inl rfl⟩
  | lockPut e k hpc hfree => exact ⟨pending, hs.lock hfree rfl id, Or.inl rfl⟩
  | giveUp e k hpc hheld hmax =>
    have hmoved := hs.moveOutside (hat hpc rfl) (p := .outside) rfl
    exact ⟨pending, ⟨hmoved.exclusive, hmoved.log, hmoved.size, hmoved.shows⟩, Or.inl rfl⟩
  | retry e k hpc hheld hmax => exact ⟨pending, hs.moveOutside (hat hpc rfl) rfl, Or.inl rfl⟩
  | push e hpc =>
    have hview : s.queueQ = pending := hs.view hpc rfl
    have hpushed : View pending (s.queueQ ++ [e]) (.putSize e) := by rw [hview]; rfl
    exact ⟨pending, hs.moveInside (hat hpc rfl) rfl rfl rfl hs.log hs.size hpushed, Or.inl rfl⟩
  | addSize e hpc =>
    have hview : s.queueQ = pending ++ [e] := hs.view hpc rfl
    have hlog : s.putLog ++ [e] = s.takenLog ++ (pending ++ [e]) := by
      rw [hs.log, List.append_assoc]
    have hsize : (s.unSize + e.node.unSize) % 2 ^ 32 = totalSize (pending ++ [e]) := by
      rw [hs.size, totalSize_push]
    exact ⟨pending ++ [e], hs.moveInside (hat hpc rfl) rfl rfl rfl hlog hsize hview,
      Or.inr (Or.inl ⟨e, rfl⟩)⟩
  | unlockPut e hpc =>
    have hfreed := hs.unlock (hat hpc rfl) (hs.view hpc rfl)
    exact ⟨pending, ⟨hfreed.exclusive, hfreed.log, hfreed.size, hfreed.shows⟩, Or.inl rfl⟩
  | lockTake hpc hfree => exact ⟨pending, hs.lock hfree rfl id, Or.inl rfl⟩
  | empty hpc hnil =>
    have hview : s.queueQ = pending := hs.view hpc rfl
    exact ⟨pending, hs.moveInside (hat hpc rfl) rfl rfl rfl hs.log hs.size hview, Or.inl rfl⟩
  | pop e rest hpc hcons =>
    have hview : s.queueQ = pending := hs.view hpc rfl
    have hpopped : View pending rest (.takeSize e) := hview.symm.trans hcons
    exact ⟨pending, hs.moveInside (hat hpc rfl) rfl rfl rfl hs.log hs.size hpopped, Or.inl rfl⟩
  | subSize e hpc =>
    -- the oldest element is gone from the queue already
    have hpending : pending = e :: s.queueQ := hs.view hpc rfl
    have hlog : s.putLog = (s.takenLog ++ [e]) ++ s.queueQ := by
      rw [hs.log, hpending, List.append_assoc, List.singleton_append]
    have hsize : (s.unSize + 2 ^ 32 - e.node.unSize % 2 ^ 32) % 2 ^ 32 = totalSize s.queueQ := by
      rw [hs.size, hpending, totalSize_pop]
    exact ⟨s.queueQ, hs.moveInside (hat hpc rfl) rfl rfl rfl hlog hsize rfl,
      Or.inr (Or.inr ⟨e, hpending⟩)⟩
  | unlockTake hpc =>
    exact ⟨pending, hs.unlock (hat hpc rfl) (hs.view hpc rfl), Or.inl rfl⟩

/-- The invariant holds in every state of a run. -/
theorem inv_of_run {s : LockedQueue ι α} {as : List (QueueAct ι α)}
    (hrun : Lib.exec lockedStep init as = some s) : ∃ pending, s.Inv pending := by
  refine Lib.exec_inv_all (P := fun s => ∃ pending, Inv s pending) ?_ ⟨[], inv_init⟩ hrun
  rintro s a s' ⟨pending, hs⟩ hstep
  obtain ⟨pending', hs', _⟩ := hs.change (change_of_lockedStep hstep)
  exact ⟨pending', hs'⟩

/-! ## Where an entry is -/

/-- The entry is in the queue or has been taken; between the two the thread that
takes it holds it. -/
def Present (s : LockedQueue ι α) (e : Entry α) : Prop :=
  e ∈ s.queueQ ∨ e ∈ s.takenLog ∨ ∃ i, s.pc i = .takeSize e

/-- Thread `i` is in `Put` with the entry and has not pushed it. -/
def InHand (s : LockedQueue ι α) (i : ι) (e : Entry α) : Prop :=
  (∃ nRetries, s.pc i = .putTry e nRetries) ∨ s.pc i = .putPush e

/-- Thread `i` is at the last attempt of its `Put`, and the lock is held. -/
def GivesUp (s : LockedQueue ι α) (i : ι) : Prop :=
  ∃ e nRetries, s.pc i = .putTry e nRetries ∧ s.holder ≠ none ∧ MAX_LOCK_RETRIES ≤ nRetries + 1

/-- The other threads stay where they are. -/
theorem Change.pc_of_ne {s s' : LockedQueue ι α} {i j : ι} (hc : Change s i s') (h : j ≠ i) :
    s'.pc j = s.pc j := by
  cases hc <;> exact goto_pc_of_ne s h _

omit [DecidableEq ι] in
/-- A step that takes nothing out of the queue leaves every entry present. -/
theorem Present.of_frame {s s' : LockedQueue ι α} {i : ι} {e : Entry α} (h : s.Present e)
    (hqueue : ∀ e ∈ s.queueQ, e ∈ s'.queueQ) (htaken : s'.takenLog = s.takenLog)
    (hpc : ∀ j, j ≠ i → s'.pc j = s.pc j) (hi : s.pc i ≠ .takeSize e) : s'.Present e := by
  rcases h with hin | htook | ⟨j, hj⟩
  · exact Or.inl (hqueue e hin)
  · refine Or.inr (Or.inl ?_)
    rw [htaken]
    exact htook
  · refine Or.inr (Or.inr ⟨j, ?_⟩)
    have hne : j ≠ i := by
      intro heq
      rw [heq] at hj
      exact hi hj
    rw [hpc j hne]
    exact hj

/-- What is in the queue or taken stays so. -/
theorem Present.change {s s' : LockedQueue ι α} {i : ι} {e : Entry α} (h : s.Present e)
    (hc : Change s i s') : s'.Present e := by
  have hpc : ∀ j, j ≠ i → s'.pc j = s.pc j := fun j hj => hc.pc_of_ne hj
  have hsame : ∀ e ∈ s.queueQ, e ∈ s.queueQ := fun _ he => he
  cases hc with
  | callPut data n hat | callTake hat | lockPut _ _ hat hfree | giveUp _ _ hat hheld hmax
  | retry _ _ hat hheld hmax | addSize _ hat | unlockPut _ hat | lockTake hat hfree
  | empty hat hnil | unlockTake hat =>
    exact h.of_frame hsame rfl hpc (by rw [hat]; exact fun heq => by cases heq)
  | push e' hat =>
    refine h.of_frame ?_ rfl hpc (by rw [hat]; exact fun heq => by cases heq)
    exact fun e he => List.mem_append.2 (Or.inl he)
  | pop e' rest hat hcons =>
    by_cases heq : e = e'
    · -- the entry is the one at the front
      refine Or.inr (Or.inr ⟨i, ?_⟩)
      rw [heq]
      exact goto_pc_self s i (.takeSize e')
    · rcases h with hin | htook | ⟨j, hj⟩
      · rw [hcons] at hin
        rcases List.mem_cons.1 hin with hfront | hrest
        · exact absurd hfront heq
        · exact Or.inl hrest
      · exact Or.inr (Or.inl htook)
      · have hne : j ≠ i := by
          intro hji
          rw [hji, hat] at hj
          cases hj
        exact Or.inr (Or.inr ⟨j, (hpc j hne).trans hj⟩)
  | subSize e' hat =>
    rcases h with hin | htook | ⟨j, hj⟩
    · exact Or.inl hin
    · exact Or.inr (Or.inl (List.mem_append.2 (Or.inl htook)))
    · by_cases hji : j = i
      · rw [hji, hat] at hj
        cases hj
        exact Or.inr (Or.inl (List.mem_append.2 (Or.inr (List.mem_singleton.2 rfl))))
      · exact Or.inr (Or.inr ⟨j, (hpc j hji).trans hj⟩)

/-- The entry of a `Put` that does not give up is pushed in the end. -/
theorem InHand.change {s s' : LockedQueue ι α} {i : ι} {e : Entry α} (h : s.InHand i e)
    (hc : Change s i s') (hup : ¬ s.GivesUp i) : s'.InHand i e ∨ s'.Present e := by
  -- the acting thread is in `Put`, so the steps of `Take` and the calls are out
  have hat : ∀ p, s.pc i = p → (∃ k, p = .putTry e k) ∨ p = .putPush e := fun p hp => hp ▸ h
  cases hc with
  | lockPut e' k hpc hfree =>
    rcases hat _ hpc with ⟨k', heq⟩ | heq
    · cases heq
      exact Or.inl (Or.inr (goto_pc_self s i _))
    · cases heq
  | giveUp e' k hpc hheld hmax => exact absurd ⟨e', k, hpc, hheld, hmax⟩ hup
  | retry e' k hpc hheld hmax =>
    rcases hat _ hpc with ⟨k', heq⟩ | heq
    · cases heq
      exact Or.inl (Or.inl ⟨k + 1, goto_pc_self s i _⟩)
    · cases heq
  | push e' hpc =>
    rcases hat _ hpc with ⟨k', heq⟩ | heq
    · cases heq
    · cases heq
      exact Or.inr (Or.inl (List.mem_append.2 (Or.inr (List.mem_singleton.2 rfl))))
  | callPut _ _ hpc | callTake hpc | addSize _ hpc | unlockPut _ hpc | lockTake hpc _
  | empty hpc _ | pop _ _ hpc _ | subSize _ hpc | unlockTake hpc =>
    rcases hat _ hpc with ⟨k', heq⟩ | heq <;> cases heq

/-! ## The queue of the specification -/

/-- The state stands for the queue `q` of whole operations. -/
def Represents (s : LockedQueue ι α) (q : ConcurrentQueue α) : Prop :=
  ∃ pending, s.Inv pending ∧ q.queueQ = pending.map Entry.node ∧ q.unSize = s.unSize

omit [DecidableEq ι] in
theorem represents_init : (init : LockedQueue ι α).Represents ConcurrentQueue.empty :=
  ⟨[], inv_init, rfl, rfl⟩

/-- The elements and the counter of a state make a queue. -/
def toQueue (pending : List (Entry α)) : ConcurrentQueue α where
  queueQ := pending.map Entry.node
  unSize := totalSize pending
  accounted := by
    unfold totalSize
    rw [List.map_map]
    rfl

omit [DecidableEq ι] in
theorem Inv.represents {s : LockedQueue ι α} {pending : List (Entry α)} (hs : s.Inv pending) :
    s.Represents (toQueue pending) := ⟨pending, hs, rfl, hs.size.symm⟩

/-- Every step is an element enqueued, the oldest one taken, or nothing. -/
theorem represents_lockedStep {s s' : LockedQueue ι α} {a : QueueAct ι α} {q : ConcurrentQueue α}
    (hq : s.Represents q) (hstep : lockedStep s a = some s') :
    ∃ q', s'.Represents q' ∧
      (q'.queueQ = q.queueQ ∨ (∃ node, q'.queueQ = q.queueQ ++ [node]) ∨
        ∃ node, q.queueQ = node :: q'.queueQ) := by
  obtain ⟨pending, hs, hnodes, _⟩ := hq
  obtain ⟨pending', hs', hpending⟩ := hs.change (change_of_lockedStep hstep)
  refine ⟨toQueue pending', hs'.represents, ?_⟩
  show pending'.map Entry.node = _ ∨ (∃ node, pending'.map Entry.node = _) ∨
    ∃ node, _ = node :: pending'.map Entry.node
  rw [hnodes]
  rcases hpending with rfl | ⟨e, rfl⟩ | ⟨e, rfl⟩
  · exact Or.inl rfl
  · exact Or.inr (Or.inl ⟨e.node, by rw [List.map_append]; rfl⟩)
  · exact Or.inr (Or.inr ⟨e.node, rfl⟩)

/-- In every state of every run the elements taken are the first of the elements
put, and the counter is the sum of the sizes of the others modulo `2 ^ 32`. -/
theorem fifo_of_run {s : LockedQueue ι α} {as : List (QueueAct ι α)}
    (hrun : Lib.exec lockedStep init as = some s) :
    s.takenLog <+: s.putLog ∧
      s.unSize = ((s.putLog.drop s.takenLog.length).map fun e => e.node.unSize).sum % 2 ^ 32 := by
  obtain ⟨pending, hs⟩ := inv_of_run hrun
  rw [hs.log, List.drop_left]
  exact ⟨List.prefix_append _ _, hs.size⟩

/-- Two threads put, one polls while the other is inside; a third one takes. -/
def twoPuts : List (QueueAct ℕ String) :=
  [.callPut 0 "a" 1, .step 0, .callPut 1 "b" 2, .step 1, .step 0, .step 0, .step 0, .step 1,
    .step 1, .step 1, .step 1, .callTake 2, .step 2, .step 2, .step 2]

theorem fifo_twoPuts :
    ∃ s : LockedQueue ℕ String, Lib.exec lockedStep init twoPuts = some s ∧
      s.putLog.map (fun e => e.node.value) = ["a", "b"] ∧ s.takenLog <+: s.putLog ∧
      s.unSize = ((s.putLog.drop s.takenLog.length).map fun e => e.node.unSize).sum % 2 ^ 32 := by
  have hrun : (Lib.exec lockedStep init twoPuts).isSome = true := rfl
  obtain ⟨s, hs⟩ := Option.isSome_iff_exists.1 hrun
  refine ⟨s, hs, ?_, fifo_of_run hs⟩
  have hlog : (Lib.exec lockedStep init twoPuts).map
      (fun t => t.putLog.map fun e => e.node.value) = some ["a", "b"] := rfl
  rw [hs] at hlog
  exact Option.some.inj hlog

end LockedQueue

end DeviceClient
