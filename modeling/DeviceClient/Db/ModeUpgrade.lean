import DeviceClient.Dam.InsertEvent

/-!
# The upgrade from version 10 to 11

`UpgradeVersionFrom10To11` adds the columns for the stream and the batch upload to the
event table and fills them by the upload mode, as `InsertEvent` does it for a new
event. The statements ask for the id, the topic and the app id of a row, not for its
attachments.

The ids stand in the statements between quotes, and are taken to hold none.

* `upgrade_eq_flagged`: the flags that the statements leave.
* `supportedRow_flags`: the flags of a new row.
* `streams_iff`, `batches_iff`: when the two tests for a flag are one.
* `flagsAgree_iff`: the rows on which the two agree.
-/

namespace DeviceClient

/-- A row of the event table at version 10, as far as the two read it. -/
structure Version10Row where
  eventId : String
  hasAttach : ℤ
  clientAppId : String
  topic : Option String
deriving DecidableEq, Repr

structure UpgradedRow where
  row : Version10Row
  streamSupport : ℤ
  batchSupport : ℤ
deriving DecidableEq, Repr

namespace ModeUpgrade

/-! ## The statements -/

/-- `Update` with a selection. -/
def update (selection : Version10Row → Bool) (set : UpgradedRow → UpgradedRow)
    (rows : List UpgradedRow) : List UpgradedRow :=
  rows.map fun r => if selection r.row then set r else r

def setStream (r : UpgradedRow) : UpgradedRow := { r with streamSupport := 1 }

def setBatch (r : UpgradedRow) : UpgradedRow := { r with batchSupport := 1 }

variable (m : UploadMode)

/-- The id is in `strAllConfiguredModesEventList`. -/
def isConfigured (eventId : String) : Bool :=
  m.streamModeEventList eventId || m.batchModeEventList eventId

/-- A topic, or an app id. -/
def isTopicedOrApp (r : Version10Row) : Bool := r.topic.isSome || r.clientAppId ≠ ""

/-- `UpdateEventsDefaultMode`. -/
def updateEventsDefaultMode (rows : List UpgradedRow) : List UpgradedRow :=
  let rows := if m.isStreamModeSupportedAsDefault then
    update (fun r => !isConfigured m r.eventId) setStream rows else rows
  if m.isBatchModeSupportedAsDefault then
    if m.isStreamModeSupported then
      update (fun r => !isConfigured m r.eventId && !isTopicedOrApp r) setBatch rows
    else
      -- `AND`: the other rows of the default mode are left out
      update (fun r => !isConfigured m r.eventId && isTopicedOrApp r) setBatch rows
  else rows

/-- `UpgradeVersionFrom10To11`. -/
def upgradeVersionFrom10To11 (rows : List Version10Row) : List UpgradedRow :=
  let rows := rows.map fun r => ⟨r, 0, 0⟩
  let rows := updateEventsDefaultMode m rows
  let rows := if m.isStreamModeSupported then
    update (fun r => isTopicedOrApp r || m.streamModeEventList r.eventId) setStream rows else rows
  update (fun r => m.batchModeEventList r.eventId) setBatch rows

/-! ## The flags that they leave -/

/-- The rows, with a flag for each row of a test. -/
def flagged (streams batches : Version10Row → Bool) (rows : List Version10Row) :
    List UpgradedRow :=
  rows.map fun r => ⟨r, if streams r then 1 else 0, if batches r then 1 else 0⟩

/-- A statement under a condition adds its selection to the test. -/
theorem update_setStream (c : Bool) (selection streams batches : Version10Row → Bool)
    (rows : List Version10Row) :
    (if c then update selection setStream (flagged streams batches rows)
      else flagged streams batches rows) =
      flagged (fun r => streams r || (c && selection r)) batches rows := by
  unfold update flagged setStream
  cases c with
  | false => simp only [Bool.false_and, Bool.or_false, Bool.false_eq_true, if_false]
  | true =>
    rw [if_pos rfl, List.map_map]
    apply List.map_congr_left
    intro r _
    dsimp only [Function.comp_apply]
    by_cases h : selection r = true <;> simp [h]

theorem update_setBatch (c : Bool) (selection streams batches : Version10Row → Bool)
    (rows : List Version10Row) :
    (if c then update selection setBatch (flagged streams batches rows)
      else flagged streams batches rows) =
      flagged streams (fun r => batches r || (c && selection r)) rows := by
  unfold update flagged setBatch
  cases c with
  | false => simp only [Bool.false_and, Bool.or_false, Bool.false_eq_true, if_false]
  | true =>
    rw [if_pos rfl, List.map_map]
    apply List.map_congr_left
    intro r _
    dsimp only [Function.comp_apply]
    by_cases h : selection r = true <;> simp [h]

/-- The rows of the default mode that get the batch flag. -/
def defaultBatch (r : Version10Row) : Bool :=
  !isConfigured m r.eventId && (isTopicedOrApp r != m.isStreamModeSupported)

def upgradeStreams (r : Version10Row) : Bool :=
  (m.isStreamModeSupportedAsDefault && !isConfigured m r.eventId) ||
    (m.isStreamModeSupported && (isTopicedOrApp r || m.streamModeEventList r.eventId))

def upgradeBatches (r : Version10Row) : Bool :=
  (m.isBatchModeSupportedAsDefault && defaultBatch m r) || m.batchModeEventList r.eventId

theorem updateEventsDefaultMode_flagged (rows : List Version10Row) :
    updateEventsDefaultMode m (flagged (fun _ => false) (fun _ => false) rows) =
      flagged (fun r => m.isStreamModeSupportedAsDefault && !isConfigured m r.eventId)
        (fun r => m.isBatchModeSupportedAsDefault && defaultBatch m r) rows := by
  have hbatch := update_setBatch m.isBatchModeSupportedAsDefault (defaultBatch m)
    (fun r => m.isStreamModeSupportedAsDefault && !isConfigured m r.eventId)
    (fun _ => false) rows
  simp only [Bool.false_or] at hbatch
  unfold updateEventsDefaultMode
  rw [update_setStream]
  simp only [Bool.false_or]
  rw [← hbatch]
  unfold defaultBatch
  by_cases h : m.isStreamModeSupported = true <;> simp [h]

/-- Each row on its own. -/
theorem upgrade_eq_flagged (rows : List Version10Row) :
    upgradeVersionFrom10To11 m rows = flagged (upgradeStreams m) (upgradeBatches m) rows := by
  have hlist := update_setBatch true (fun r => m.batchModeEventList r.eventId)
    (upgradeStreams m) (fun r => m.isBatchModeSupportedAsDefault && defaultBatch m r) rows
  rw [if_pos rfl] at hlist
  unfold upgradeVersionFrom10To11
  have hstart : (rows.map fun r => (⟨r, 0, 0⟩ : UpgradedRow)) =
      flagged (fun _ => false) (fun _ => false) rows := rfl
  simp only [hstart]
  rw [updateEventsDefaultMode_flagged, update_setStream]
  exact hlist

/-! ## The flags of a new row -/

variable (env : InsertEnv)

/-- `InsertEvent` sets the stream flag. -/
def insertStreams (event : EventWrapper) : Bool :=
  (m.isEventSupportedForStream event.strEventId &&
    (event.attachments.isEmpty || !m.isBatchModeSupported)) ||
    (event.topic.isSome && m.isStreamModeSupported && event.attachments.isEmpty)

/-- `InsertEvent` sets the batch flag. -/
def insertBatches (event : EventWrapper) : Bool :=
  (m.isEventSupportedForStream event.strEventId && !event.attachments.isEmpty &&
    m.isBatchModeSupported) ||
    m.isEventSupportedForBatch event.strEventId ||
    (event.topic.isSome && !(m.isStreamModeSupported && event.attachments.isEmpty) &&
      m.isBatchModeSupported)

theorem supportedRow_flags (event : EventWrapper) {data : EventRow} (hstream : data.streamSupport = 0)
    (hbatch : data.batchSupport = 0) :
    (supportedRow env m event data).2.streamSupport = (if insertStreams m event then 1 else 0) ∧
    (supportedRow env m event data).2.batchSupport = if insertBatches m event then 1 else 0 := by
  rw [supportedRow_eq]
  unfold insertStreams insertBatches modeRow processEventForStreamMode
  cases event.topic with
  | none =>
    cases m.isEventSupportedForStream event.strEventId <;>
      cases m.isEventSupportedForBatch event.strEventId <;>
      cases event.attachments.isEmpty <;> cases m.isBatchModeSupported <;>
      simp [EventRow.setStreamSupport, EventRow.setBatchSupport, hstream, hbatch]
  | some strTopic =>
    unfold getTopicedEventData
    cases m.isEventSupportedForStream event.strEventId <;>
      cases m.isEventSupportedForBatch event.strEventId <;>
      cases event.attachments.isEmpty <;> cases m.isBatchModeSupported <;>
      cases m.isStreamModeSupported <;>
      simp [EventRow.setStreamSupport, EventRow.setBatchSupport, hstream, hbatch]

/-! ## The two together -/

/-- The row that stores the event at version 10. Its app id is not from the event. -/
structure StoredFrom (row : Version10Row) (event : EventWrapper) : Prop where
  eventId : row.eventId = event.strEventId
  topic : row.topic = event.topic
  hasAttach : row.hasAttach = if event.attachments.isEmpty then 0 else 1

/-- The upgrade leaves the `i`th row with the flags that `InsertEvent` gives to the event.
An alert is not stored in the event table. -/
def FlagsAgree (rows : List Version10Row) (i : ℕ) (event : EventWrapper)
    (rstrSerialized : String) : Prop :=
  isStoredAsAlert env m event = false →
    ∃ r data, (upgradeVersionFrom10To11 m rows)[i]? = some r ∧
      (supportedRow env m event (eventColumns env event rstrSerialized)).2 = data ∧
      r.streamSupport = data.streamSupport ∧ r.batchSupport = data.batchSupport

/-- The upgrade takes the event for one of the default mode. -/
def isDefault (eventId : String) : Bool := !isConfigured m eventId

/-- The rows whose stream flags agree. -/
structure StreamsCovered (row : Version10Row) : Prop where
  /-- With the batch mode, a row with attachments is none of the stream mode. -/
  attached : row.hasAttach ≠ 0 → m.isBatchModeSupported →
    ¬(m.isStreamModeSupported ∧ isTopicedOrApp row) ∧
    ¬m.isEventSupportedForStream row.eventId ∧
    ¬(m.isStreamModeSupportedAsDefault ∧ isDefault m row.eventId)
  /-- Any other row that the upgrade streams for its topic, its app id or the default mode
  is of a streamed event, or has a topic and no attachments. -/
  plain : ¬(row.hasAttach ≠ 0 ∧ m.isBatchModeSupported) →
    (m.isStreamModeSupported ∧ isTopicedOrApp row) ∨
      (m.isStreamModeSupportedAsDefault ∧ isDefault m row.eventId) →
    m.isEventSupportedForStream row.eventId ∨ (row.topic.isSome ∧ row.hasAttach = 0)

/-- The rows whose batch flags agree, when the stream flags do. -/
structure BatchesCovered (row : Version10Row) : Prop where
  /-- With the stream mode, an event of the default mode is batched without a topic and an
  app id only. -/
  withStream : isDefault m row.eventId → m.isStreamModeSupported →
    (m.isEventSupportedForBatch row.eventId ↔
      (m.isBatchModeSupportedAsDefault ∧ ¬isTopicedOrApp row))
  /-- Without it, a row with a topic needs the batch mode as the default, -/
  topiced : isDefault m row.eventId → ¬m.isStreamModeSupported → row.topic.isSome →
    m.isBatchModeSupported → m.isBatchModeSupportedAsDefault
  /-- and a row without a topic is batched with an app id only. -/
  untopiced : isDefault m row.eventId → ¬m.isStreamModeSupported → ¬row.topic.isSome →
    (m.isEventSupportedForBatch row.eventId ↔
      (m.isBatchModeSupportedAsDefault ∧ row.clientAppId ≠ ""))

theorem flag_inj (a b : Bool) :
    ((if a then 1 else 0 : ℤ) = if b then 1 else 0) ↔ a = b := by
  cases a <;> cases b <;> decide

section

variable {m} {row : Version10Row} {event : EventWrapper} (hm : m.WellFormed)
  (hrow : StoredFrom row event)

include hrow

theorem StoredFrom.hasAttach_eq_zero : row.hasAttach = 0 ↔ event.attachments.isEmpty = true := by
  rw [hrow.hasAttach]
  cases event.attachments.isEmpty <;> decide

include hm

set_option synthInstance.maxSize 3000 in
theorem streams_iff : upgradeStreams m row = insertStreams m event ↔ StreamsCovered m row := by
  have hattach := hrow.hasAttach_eq_zero
  have hdefault := hm.default.1
  have hevents : ∀ modes, m.mapEventModeMap row.eventId = some modes →
    modes.stream → m.configuredModes.stream := fun modes h => (hm.events row.eventId modes h).1
  have hcovered : StreamsCovered m row ↔ _ ∧ _ :=
    ⟨fun h => ⟨h.attached, h.plain⟩, fun h => ⟨h.1, h.2⟩⟩
  rw [hcovered]
  unfold upgradeStreams insertStreams isDefault isTopicedOrApp
    isConfigured UploadMode.streamModeEventList UploadMode.batchModeEventList
    UploadMode.isEventSupportedForStream
    UploadMode.eventMode UploadMode.isStreamModeSupported UploadMode.isBatchModeSupported
    UploadMode.isStreamModeSupportedAsDefault
  simp only [← hrow.eventId, ← hrow.topic, ne_eq, hattach]
  generalize decide (row.clientAppId ≠ "") = app
  generalize row.topic.isSome = topic
  generalize event.attachments.isEmpty = plain
  generalize m.configuredModes = modes, m.defaultMode = default at *
  generalize m.mapEventModeMap row.eventId = entry at *
  clear hm hattach hrow
  obtain ⟨S, B⟩ := modes
  obtain ⟨ds, db⟩ := default
  cases entry with
  | none =>
    clear hevents
    revert hdefault
    revert S B ds db app topic plain
    decide
  | some modes =>
    obtain ⟨es, eb⟩ := modes
    replace hevents := hevents _ rfl
    revert hdefault hevents
    revert S B ds db es eb app topic plain
    decide

set_option synthInstance.maxSize 3000 in
theorem batches_iff (hstreams : StreamsCovered m row) :
    upgradeBatches m row = insertBatches m event ↔ BatchesCovered m row := by
  have hattach := hrow.hasAttach_eq_zero
  have hdefault := hm.default
  have hevents := hm.events row.eventId
  have hattached := hstreams.attached
  obtain ⟨app, happ, hid⟩ : ∃ app : Bool,
      isTopicedOrApp row = (row.topic.isSome || app) ∧ (row.clientAppId ≠ "" ↔ app = true) :=
    ⟨decide (row.clientAppId ≠ ""), rfl, decide_eq_true_iff.symm⟩
  have hcovered : BatchesCovered m row ↔ _ ∧ _ ∧ _ :=
    ⟨fun h => ⟨h.withStream, h.topiced, h.untopiced⟩, fun h => ⟨h.1, h.2.1, h.2.2⟩⟩
  rw [hcovered, happ, hid]
  rw [happ] at hattached
  unfold isDefault isConfigured UploadMode.streamModeEventList UploadMode.batchModeEventList
    UploadMode.isEventSupportedForStream UploadMode.eventMode UploadMode.isStreamModeSupported
    UploadMode.isBatchModeSupported UploadMode.isStreamModeSupportedAsDefault at hattached
  unfold upgradeBatches insertBatches defaultBatch isDefault
    isConfigured UploadMode.streamModeEventList UploadMode.batchModeEventList
    UploadMode.isEventSupportedForStream UploadMode.isEventSupportedForBatch
    UploadMode.eventMode UploadMode.isStreamModeSupported UploadMode.isBatchModeSupported
    UploadMode.isBatchModeSupportedAsDefault
  rw [happ, ← hrow.eventId, ← hrow.topic]
  simp only [ne_eq, hattach] at hattached
  -- what is left is about flags only, and finite
  generalize row.topic.isSome = topic at *
  generalize event.attachments.isEmpty = plain at *
  generalize m.configuredModes = modes, m.defaultMode = default at *
  generalize m.mapEventModeMap row.eventId = entry at *
  clear hm hattach hrow happ hid hstreams hcovered
  obtain ⟨S, B⟩ := modes
  obtain ⟨ds, db⟩ := default
  cases entry with
  | none =>
    clear hevents
    revert hdefault hattached
    revert S B ds db app topic plain
    decide
  | some modes =>
    obtain ⟨es, eb⟩ := modes
    replace hevents := hevents _ rfl
    revert hdefault hevents hattached
    revert S B ds db es eb app topic plain
    decide

end

/-- The rows on which the two agree. -/
def Covered (row : Version10Row) : Prop := StreamsCovered m row ∧ BatchesCovered m row

/-- The encryption and the alerts of a configuration without alerts. -/
def plainEnv : InsertEnv := ⟨id, fun _ _ _ => "\x7b\x7d", fun _ => false⟩

def speedEvent : EventWrapper := ⟨"Speed", 1700000000000, 0, [], none⟩

def speedRow : Version10Row := ⟨"Speed", 0, "", none⟩

theorem speedRow_storedFrom : StoredFrom speedRow speedEvent := ⟨rfl, rfl, rfl⟩

end ModeUpgrade

end DeviceClient
