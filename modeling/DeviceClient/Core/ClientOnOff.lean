import DeviceClient.Lib.KeyedList
import DeviceClient.Lib.Run
import Mathlib.Data.String.Basic
import Mathlib.Logic.Function.Basic

/-!
# The receivers of the shutdown notification

`CClientOnOff` keeps one entry for each receiver: under its code, or, for the
code `eR_OTHER`, under its name. A receiver registers, says that it is ready for
the shutdown or unregisters; the entry stays and its status tells which.

A receiver reference is never null in an entry, since `Register` refuses one.

* `entry_register`, `entry_setStatus`: the entries after a call.
* `entry_register_eq_iff`: `Register` inserts, it does not replace, so what it
  stores is its argument only where there is no entry yet.
-/

namespace DeviceClient

/-- `NotifReceiverCode`. -/
inductive NotifReceiverCode where
  | cacheTransport
  | dbTransport
  | messageQueue
  | messageController
  | mqttClient
  | mqttUploader
  | midHandler
  | notificationListener
  | productImplController
  | sensorDataProcessor
  | uploadController
  | zmqReceiveMessage
  | other
deriving DecidableEq, Repr

/-- `SubscribeStatus`. -/
inductive SubscribeStatus where
  | subscribed
  | notified
  | shutdownCompleted
  | unsubscribed
deriving DecidableEq, Repr

/-- `ReceiverDetail`, on receivers `ρ`. -/
structure ReceiverDetail (ρ : Type) where
  pRcvrRef : ρ
  eStatus : SubscribeStatus
deriving DecidableEq, Repr

/-- The key of an entry in one of the two maps. -/
inductive ReceiverKey where
  | predefined (eRcvrCode : NotifReceiverCode)
  | nonDefined (strRcvrName : String)
deriving DecidableEq, Repr

/-- The map and the key in it that a call with these arguments goes to. -/
def receiverKey (eRcvrCode : NotifReceiverCode) (strRcvrName : String) : ReceiverKey :=
  if eRcvrCode = .other then .nonDefined strRcvrName else .predefined eRcvrCode

structure ClientOnOff (ρ : Type) where
  m_mapReceivers : NotifReceiverCode → Option (ReceiverDetail ρ)
  m_mapNonDefinedReceivers : List (String × ReceiverDetail ρ)

namespace ReceiverDetail

variable {ρ : Type}

/-- Completed or unsubscribed: what the check of the statuses asks. -/
def IsDone (recvrDetail : ReceiverDetail ρ) : Prop :=
  recvrDetail.eStatus = .shutdownCompleted ∨ recvrDetail.eStatus = .unsubscribed

instance (recvrDetail : ReceiverDetail ρ) : Decidable recvrDetail.IsDone :=
  inferInstanceAs (Decidable (_ ∨ _))

/-- The same receiver with another status. -/
def withStatus (recvrDetail : ReceiverDetail ρ) (eStatus : SubscribeStatus) : ReceiverDetail ρ :=
  { recvrDetail with eStatus := eStatus }

@[simp] theorem pRcvrRef_withStatus (d : ReceiverDetail ρ) (e : SubscribeStatus) :
    (d.withStatus e).pRcvrRef = d.pRcvrRef := rfl

@[simp] theorem eStatus_withStatus (d : ReceiverDetail ρ) (e : SubscribeStatus) :
    (d.withStatus e).eStatus = e := rfl

theorem not_isDone_of_subscribed {d : ReceiverDetail ρ} (h : d.eStatus = .subscribed) :
    ¬ d.IsDone := by
  unfold IsDone
  rw [h]
  simp

theorem not_isDone_of_notified {d : ReceiverDetail ρ} (h : d.eStatus = .notified) :
    ¬ d.IsDone := by
  unfold IsDone
  rw [h]
  simp

end ReceiverDetail

namespace ClientOnOff

variable {ρ : Type}

/-- `CClientOnOff()`: no receiver yet. -/
def init : ClientOnOff ρ where
  m_mapReceivers := fun _ => none
  m_mapNonDefinedReceivers := []

/-- `m_mapNotifOrder`, as the constructor fills it. -/
def notifOrder : List (List NotifReceiverCode) :=
  -- no group has the sensor data processor
  [[.messageController, .mqttClient, .mqttUploader, .notificationListener, .uploadController],
   [.messageQueue, .midHandler],
   [.cacheTransport],
   [.dbTransport, .zmqReceiveMessage, .productImplController]]

/-- `find` in the map of the key. -/
def entry (s : ClientOnOff ρ) : ReceiverKey → Option (ReceiverDetail ρ)
  | .predefined eRcvrCode => s.m_mapReceivers eRcvrCode
  | .nonDefined strRcvrName => s.m_mapNonDefinedReceivers.lookup strRcvrName

/-- `map.insert`: a key that has an entry keeps it. -/
def insertEntry (s : ClientOnOff ρ) (recvrDetail : ReceiverDetail ρ) :
    ReceiverKey → ClientOnOff ρ
  | .predefined eRcvrCode =>
    let kept := (s.m_mapReceivers eRcvrCode).getD recvrDetail
    { s with m_mapReceivers := Function.update s.m_mapReceivers eRcvrCode (some kept) }
  | .nonDefined strRcvrName =>
    { s with m_mapNonDefinedReceivers :=
        Lib.insertKey strRcvrName recvrDetail s.m_mapNonDefinedReceivers }

/-- `iterMap->second = recvrDetail`. -/
def assignEntry (s : ClientOnOff ρ) (recvrDetail : ReceiverDetail ρ) :
    ReceiverKey → ClientOnOff ρ
  | .predefined eRcvrCode =>
    let stored := (s.m_mapReceivers eRcvrCode).map fun _ => recvrDetail
    { s with m_mapReceivers := Function.update s.m_mapReceivers eRcvrCode stored }
  | .nonDefined strRcvrName =>
    { s with m_mapNonDefinedReceivers :=
        Lib.assignKey strRcvrName recvrDetail s.m_mapNonDefinedReceivers }

/-! ## Calls -/

/-- `RegisterForShutdownNotification`: `none` is the null reference. -/
def registerForShutdownNotification (s : ClientOnOff ρ) (pRcvr : Option ρ)
    (eRcvrCode : NotifReceiverCode) (strRcvrName : String) : Bool × ClientOnOff ρ :=
  match pRcvr with
  | none => (false, s)
  | some pRcvr =>
    -- an existing entry is only logged, as "registered already! Replacing it..."
    (true, s.insertEntry ⟨pRcvr, .subscribed⟩ (receiverKey eRcvrCode strRcvrName))

/-- The status of an entry, if there is one. -/
def setStatus (s : ClientOnOff ρ) (eStatus : SubscribeStatus) (key : ReceiverKey) :
    Bool × ClientOnOff ρ :=
  match s.entry key with
  | none => (false, s)
  | some recvrDetail => (true, s.assignEntry (recvrDetail.withStatus eStatus) key)

/-- `UnregisterForShutdownNotification`. -/
def unregisterForShutdownNotification (s : ClientOnOff ρ) (eRcvrCode : NotifReceiverCode)
    (strRcvrName : String) : Bool × ClientOnOff ρ :=
  s.setStatus .unsubscribed (receiverKey eRcvrCode strRcvrName)

/-- `ReadyForShutdown`. -/
def readyForShutdown (s : ClientOnOff ρ) (eRcvrCode : NotifReceiverCode)
    (strRcvrName : String) : Bool × ClientOnOff ρ :=
  s.setStatus .shutdownCompleted (receiverKey eRcvrCode strRcvrName)

/-- A call from outside, in any thread. -/
inductive Call (ρ : Type) where
  | register (pRcvr : Option ρ) (eRcvrCode : NotifReceiverCode) (strRcvrName : String)
  | unregister (eRcvrCode : NotifReceiverCode) (strRcvrName : String)
  | ready (eRcvrCode : NotifReceiverCode) (strRcvrName : String)

def call (s : ClientOnOff ρ) : Call ρ → ClientOnOff ρ
  | .register pRcvr eRcvrCode strRcvrName =>
    (s.registerForShutdownNotification pRcvr eRcvrCode strRcvrName).2
  | .unregister eRcvrCode strRcvrName =>
    (s.unregisterForShutdownNotification eRcvrCode strRcvrName).2
  | .ready eRcvrCode strRcvrName => (s.readyForShutdown eRcvrCode strRcvrName).2

/-- The state after a history of calls. -/
def after (calls : List (Call ρ)) : ClientOnOff ρ := calls.foldl call init

/-! ## Entries after a call -/

@[simp] theorem entry_init (key : ReceiverKey) : (init : ClientOnOff ρ).entry key = none := by
  cases key <;> rfl

theorem receiverKey_ne_other (eRcvrCode : NotifReceiverCode) (strRcvrName : String) :
    receiverKey eRcvrCode strRcvrName ≠ .predefined .other := by
  unfold receiverKey
  intro h
  split at h
  · cases h
  · rename_i hne
    injection h with h
    exact hne h

/-- Every key but that of `eR_OTHER` in the first map is one of a call. -/
theorem exists_receiverKey {key : ReceiverKey} (h : key ≠ .predefined .other) :
    ∃ eRcvrCode strRcvrName, receiverKey eRcvrCode strRcvrName = key := by
  cases key with
  | predefined eRcvrCode =>
    have hne : eRcvrCode ≠ .other := fun he => h (congrArg _ he)
    refine ⟨eRcvrCode, "", ?_⟩
    unfold receiverKey
    rw [if_neg hne]
  | nonDefined strRcvrName => exact ⟨.other, strRcvrName, rfl⟩

theorem entry_insertEntry (s : ClientOnOff ρ) (d : ReceiverDetail ρ) (key k : ReceiverKey) :
    (s.insertEntry d key).entry k =
      if k = key then some ((s.entry key).getD d) else s.entry k := by
  cases key with
  | predefined eRcvrCode =>
    cases k with
    | predefined c =>
      show Function.update s.m_mapReceivers eRcvrCode _ c = _
      rw [Function.update_apply]
      simp only [ReceiverKey.predefined.injEq]
      rfl
    | nonDefined n =>
      rw [if_neg (by simp)]
      rfl
  | nonDefined strRcvrName =>
    cases k with
    | predefined c =>
      rw [if_neg (by simp)]
      rfl
    | nonDefined n =>
      show (Lib.insertKey strRcvrName d s.m_mapNonDefinedReceivers).lookup n = _
      rw [Lib.lookup_insertKey]
      simp only [ReceiverKey.nonDefined.injEq]
      rfl

theorem entry_assignEntry (s : ClientOnOff ρ) (d : ReceiverDetail ρ) (key k : ReceiverKey) :
    (s.assignEntry d key).entry k =
      if k = key then (s.entry key).map fun _ => d else s.entry k := by
  cases key with
  | predefined eRcvrCode =>
    cases k with
    | predefined c =>
      show Function.update s.m_mapReceivers eRcvrCode _ c = _
      rw [Function.update_apply]
      simp only [ReceiverKey.predefined.injEq]
      rfl
    | nonDefined n =>
      rw [if_neg (by simp)]
      rfl
  | nonDefined strRcvrName =>
    cases k with
    | predefined c =>
      rw [if_neg (by simp)]
      rfl
    | nonDefined n =>
      show (Lib.assignKey strRcvrName d s.m_mapNonDefinedReceivers).lookup n = _
      rw [Lib.lookup_assignKey]
      simp only [ReceiverKey.nonDefined.injEq]
      rfl

theorem entry_register (s : ClientOnOff ρ) (pRcvr : ρ) (eRcvrCode : NotifReceiverCode)
    (strRcvrName : String) (k : ReceiverKey) :
    (s.registerForShutdownNotification (some pRcvr) eRcvrCode strRcvrName).2.entry k =
      if k = receiverKey eRcvrCode strRcvrName then
        some ((s.entry (receiverKey eRcvrCode strRcvrName)).getD ⟨pRcvr, .subscribed⟩)
      else s.entry k :=
  entry_insertEntry s _ _ k

theorem entry_setStatus (s : ClientOnOff ρ) (eStatus : SubscribeStatus) (key k : ReceiverKey) :
    (s.setStatus eStatus key).2.entry k =
      if k = key then (s.entry key).map fun d => d.withStatus eStatus else s.entry k := by
  unfold setStatus
  cases hkey : s.entry key with
  | none =>
    by_cases hk : k = key
    · rw [if_pos hk, hk]
      exact hkey
    · rw [if_neg hk]
  | some d =>
    show (s.assignEntry (d.withStatus eStatus) key).entry k = _
    rw [entry_assignEntry, hkey]
    rfl

/-- `Register` of a receiver returns true; it stores its argument where the key has
no entry, or where the entry is that receiver, still subscribed. -/
theorem entry_register_eq_iff (s : ClientOnOff ρ) (pRcvr : ρ) (eRcvrCode : NotifReceiverCode)
    (strRcvrName : String) :
    (s.registerForShutdownNotification (some pRcvr) eRcvrCode strRcvrName).2.entry
        (receiverKey eRcvrCode strRcvrName) = some ⟨pRcvr, .subscribed⟩ ↔
      s.entry (receiverKey eRcvrCode strRcvrName) = none ∨
        s.entry (receiverKey eRcvrCode strRcvrName) = some ⟨pRcvr, .subscribed⟩ := by
  rw [entry_register, if_pos rfl]
  cases s.entry (receiverKey eRcvrCode strRcvrName) with
  | none => simp
  | some d => simp

/-! ## Histories -/

/-- The first map has no entry under `eR_OTHER`. -/
theorem entry_other_call {s : ClientOnOff ρ} (h : s.entry (.predefined .other) = none)
    (c : Call ρ) : (s.call c).entry (.predefined .other) = none := by
  cases c with
  | register pRcvr eRcvrCode strRcvrName =>
    cases pRcvr with
    | none => exact h
    | some pRcvr =>
      have hne := (receiverKey_ne_other eRcvrCode strRcvrName).symm
      show (s.registerForShutdownNotification _ _ _).2.entry _ = none
      rw [entry_register, if_neg hne, h]
  | unregister eRcvrCode strRcvrName =>
    have hne := (receiverKey_ne_other eRcvrCode strRcvrName).symm
    show (s.setStatus _ _).2.entry _ = none
    rw [entry_setStatus, if_neg hne, h]
  | ready eRcvrCode strRcvrName =>
    have hne := (receiverKey_ne_other eRcvrCode strRcvrName).symm
    show (s.setStatus _ _).2.entry _ = none
    rw [entry_setStatus, if_neg hne, h]

theorem entry_other_after (calls : List (Call ρ)) :
    (after calls).entry (.predefined .other) = none := by
  have hfold : ∀ s : ClientOnOff ρ, s.entry (.predefined .other) = none →
      (calls.foldl call s).entry (.predefined .other) = none := by
    induction calls with
    | nil => exact fun s h => h
    | cons c calls ih => exact fun s h => ih (s.call c) (entry_other_call h c)
  exact hfold init (entry_init _)

end ClientOnOff

end DeviceClient
