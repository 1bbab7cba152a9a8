import DeviceClient.Dam.CacheWorker
import DeviceClient.Dam.MessageWorker
import DeviceClient.Upload.AlertWorker
import DeviceClient.Upload.MidWorker

/-!
# No worker sleeps beside its work

The four workers check and then wait, each in its own way. A call in between is made in vain:
its broadcast finds nobody, and the worker waits for the next one.

* `no_lost_wakeUp`: no worker waits beside its work after a run in which each broadcast finds
  the worker waiting, or is followed by another one, or says nothing new.
-/

namespace DeviceClient

variable {κ τ : Type} [DecidableEq κ]

theorem MidWorker.inv_exec {run : List (Act κ τ)} {s : State κ τ}
    (halong : Lib.Along next Heard init run) (hrun : Lib.exec next init run = some s) :
    s.view.Inv :=
  @Lib.exec_inv _ _ next Heard (fun s => s.view.Inv)
    (fun _ _ _ h hheard hnext => inv_next h hheard hnext) run init s inv_init halong hrun

theorem CacheWorker.inv_exec {run : List (Act κ)} {s : State κ}
    (halong : Lib.Along next Heard init run) (hrun : Lib.exec next init run = some s) : Inv s :=
  Lib.exec_inv (fun _ _ _ h hheard hnext => inv_next h hheard hnext) run init s inv_init halong
    hrun

theorem MessageWorker.inv_exec {run : List (Act κ)} {s : State κ}
    (halong : Lib.Along next Heard init run) (hrun : Lib.exec next init run = some s) :
    s.view.Inv :=
  @Lib.exec_inv _ _ next Heard (fun s => s.view.Inv)
    (fun _ _ _ h hheard hnext => inv_next h hheard hnext) run init s inv_init halong hrun

theorem AlertWorker.inv_exec {run : List (Act κ)} {s : State κ}
    (halong : Lib.Along next Heard init run) (hrun : Lib.exec next init run = some s) :
    s.view.Inv :=
  @Lib.exec_inv _ _ next Heard (fun s => s.view.Inv)
    (fun _ _ _ h hheard hnext => inv_next h hheard hnext) run init s inv_init halong hrun

/-- Where broadcasts are heard, no worker waits while its queue is filled, its flag is set or
a shutdown is requested, unless another broadcast is to come. -/
theorem no_lost_wakeUp :
    (∀ (run : List (MidWorker.Act κ τ)) (s : MidWorker.State κ τ),
      Lib.Along MidWorker.next MidWorker.Heard MidWorker.init run →
      Lib.exec MidWorker.next MidWorker.init run = some s → ¬ s.view.Lost) ∧
    (∀ (run : List (CacheWorker.Act κ)) (s : CacheWorker.State κ),
      Lib.Along CacheWorker.next CacheWorker.Heard CacheWorker.init run →
      Lib.exec CacheWorker.next CacheWorker.init run = some s → ¬ s.view.Lost) ∧
    (∀ (run : List (MessageWorker.Act κ)) (s : MessageWorker.State κ),
      Lib.Along MessageWorker.next MessageWorker.Heard MessageWorker.init run →
      Lib.exec MessageWorker.next MessageWorker.init run = some s → ¬ s.view.Lost) ∧
    ∀ (run : List (AlertWorker.Act κ)) (s : AlertWorker.State κ),
      Lib.Along AlertWorker.next AlertWorker.Heard AlertWorker.init run →
      Lib.exec AlertWorker.next AlertWorker.init run = some s → ¬ s.view.Lost := by
  refine ⟨?_, ?_, ?_, ?_⟩
  · intro run s halong hrun
    exact (MidWorker.inv_exec halong hrun).not_lost
  · intro run s halong hrun
    exact (CacheWorker.inv_exec halong hrun).view.not_lost
  · intro run s halong hrun
    exact (MessageWorker.inv_exec halong hrun).not_lost
  · intro run s halong hrun
    exact (AlertWorker.inv_exec halong hrun).not_lost

/-! ## Runs -/

/-- A call comes when the worker has taken so many steps, and after it the worker goes on. -/
def MidWorker.callAfter (nBefore nAfter : ℕ) : List (Act Bool String) :=
  List.replicate nBefore .run ++ .clearMid true 7 "EventStore" ::
    List.replicate 4 (.call true 0) ++ List.replicate nAfter .run

/-- The same with a first event that starts the worker. -/
def CacheWorker.callAfter (nBefore nAfter : ℕ) : List (Act Bool) :=
  .send true "a" :: List.replicate 4 (.call true 0) ++ List.replicate nBefore .run ++
    .send true "b" :: List.replicate 7 (.call true 0) ++ List.replicate nAfter .run

def MessageWorker.callAfter (nBefore nAfter : ℕ) : List (Act Bool) :=
  List.replicate nBefore .run ++ .handleEvent true ⟨"\x7b\x7d", by decide +kernel⟩ ::
    List.replicate 4 (.call true 0) ++ List.replicate nAfter .run

def AlertWorker.callAfter (nBefore nAfter : ℕ) : List (Act Bool) :=
  List.replicate nBefore (.run false true) ++ .alertUpload true ::
    List.replicate 3 (.call true) ++ List.replicate nAfter (.run false true)

/-- Each worker waits before the call. -/
theorem no_lost_wakeUp_waiting :
    (∃ s, Lib.exec MidWorker.next MidWorker.init (MidWorker.callAfter 4 0) = some s ∧
      ¬ s.view.Lost) ∧
    (∃ s, Lib.exec CacheWorker.next CacheWorker.init (CacheWorker.callAfter 6 0) = some s ∧
      ¬ s.view.Lost) ∧
    (∃ s, Lib.exec MessageWorker.next MessageWorker.init (MessageWorker.callAfter 4 0) = some s ∧
      ¬ s.view.Lost) ∧
    ∃ s, Lib.exec AlertWorker.next AlertWorker.init (AlertWorker.callAfter 10 0) = some s ∧
      ¬ s.view.Lost :=
  ⟨⟨_, rfl, no_lost_wakeUp.1 (MidWorker.callAfter 4 0) _ (by decide +kernel) rfl⟩,
    ⟨_, rfl, (@no_lost_wakeUp _ Unit _).2.1 (CacheWorker.callAfter 6 0) _ (by decide +kernel) rfl⟩,
    ⟨_, rfl, (@no_lost_wakeUp _ Unit _).2.2.1 (MessageWorker.callAfter 4 0) _ (by decide +kernel)
      rfl⟩,
    ⟨_, rfl, (@no_lost_wakeUp _ Unit _).2.2.2 (AlertWorker.callAfter 10 0) _ (by decide +kernel)
      rfl⟩⟩

/-- Each call comes between the last check and the wait. -/
theorem lost_wakeUp :
    (∃ s, Lib.exec MidWorker.next MidWorker.init (MidWorker.callAfter 2 2) = some s ∧
      s.view.Lost) ∧
    (∃ s, Lib.exec CacheWorker.next CacheWorker.init (CacheWorker.callAfter 4 2) = some s ∧
      s.view.Lost) ∧
    (∃ s, Lib.exec MessageWorker.next MessageWorker.init (MessageWorker.callAfter 2 2) = some s ∧
      s.view.Lost) ∧
    ∃ s, Lib.exec AlertWorker.next AlertWorker.init (AlertWorker.callAfter 8 2) = some s ∧
      s.view.Lost :=
  ⟨⟨_, rfl, by decide +kernel⟩, ⟨_, rfl, by decide +kernel⟩, ⟨_, rfl, by decide +kernel⟩,
    ⟨_, rfl, by decide +kernel⟩⟩

end DeviceClient
