import DeviceClient.Config.UploadMode
import DeviceClient.Db.EventStore

/-!
# Storing an event

`CDBTransport::InsertEvent` turns an event into a row of the alert table or of
the event table. The stream and batch flags of the row follow from the upload
mode, the attachments and the topic of the event.

The notification of a start event, the trigger of the alert upload and the
removal of attachment files are not part of the model.

* `mem_insertEvent`: the row that reaches the event table, if any.
* `supportedRow_topic` and `supportedRow_streamSupport`: the topic of that row,
  and the stream flag of a row with a topic.
-/

namespace DeviceClient

/-- An event as `InsertEvent` reads it. `topic` is the member `topic` of its
data, converted to a string. -/
structure EventWrapper where
  strEventId : String
  llTimeStamp : ℤ
  nTimezone : ℤ
  attachments : List String
  topic : Option String
deriving DecidableEq, Repr

/-- Code outside the function: encryption, serialisation of an event with an
added data field, and the configured list of direct alerts. -/
structure InsertEnv where
  encryptEventData : String → String
  eventToJsonWithField : EventWrapper → String → String → String
  isAlert : String → Bool

def KEY_ATTACHMENT_FAILURE_REASON : String := "attachmentFailureReason"

def BATCH_MODE_UNSUPPORTED : String := "batchModeUnsupported"

section

variable (env : InsertEnv) (pMode : UploadMode)

/-- The columns that every stored event gets; the others keep their defaults. -/
def eventColumns (event : EventWrapper) (rstrSerialized : String) : EventRow where
  id := 0
  eventId := event.strEventId
  timestamp := some event.llTimeStamp
  timezone := event.nTimezone * 60 * 1000
  size := rstrSerialized.utf8ByteSize
  hasAttach := if event.attachments.isEmpty then 0 else 1
  events := env.encryptEventData rstrSerialized
  topic := none
  mid := 0
  streamSupport := 0
  batchSupport := 0

/-- `ProcessEventForStreamMode`. -/
def processEventForStreamMode (event : EventWrapper) (rbBatchModeSupported : Bool)
    (rData : EventRow) : EventRow :=
  if !event.attachments.isEmpty && rbBatchModeSupported then
    rData.setBatchSupport 1
  else if !event.attachments.isEmpty then
    -- the attachments are dropped, and the event says so
    let strSerializedEvnt :=
      env.eventToJsonWithField event KEY_ATTACHMENT_FAILURE_REASON BATCH_MODE_UNSUPPORTED
    { rData.setStreamSupport 1 with
      size := strSerializedEvnt.utf8ByteSize
      events := env.encryptEventData strSerializedEvnt }
  else rData.setStreamSupport 1

/-- `GetTopicedEventData`. -/
def getTopicedEventData (event : EventWrapper) (strTopic : String) (rData : EventRow) :
    EventRow :=
  let rData := { rData with topic := some strTopic }
  if pMode.isStreamModeSupported && event.attachments.isEmpty then rData.setStreamSupport 1
  else if pMode.isBatchModeSupported then rData.setBatchSupport 1
  else rData

/-- The row after the three checks, and whether one of them supports the event. -/
def supportedRow (event : EventWrapper) (data : EventRow) : Bool × EventRow :=
  let bStream := pMode.isEventSupportedForStream event.strEventId
  let data := if bStream then
    processEventForStreamMode env event pMode.isBatchModeSupported data else data
  let bBatch := pMode.isEventSupportedForBatch event.strEventId
  let data := if bBatch then data.setBatchSupport 1 else data
  match event.topic with
  | some strTopic => (true, getTopicedEventData pMode event strTopic data)
  | none => (bStream || bBatch, data)

/-- `InsertEvent`. -/
def insertEvent (event : EventWrapper) (rstrSerialized : String) (db : Db) : Db :=
  let data := eventColumns env event rstrSerialized
  if pMode.isStreamModeSupported && env.isAlert event.strEventId then
    db.insert .alertStore data
  else
    let (bSupportedEvent, data) := supportedRow env pMode event data
    if bSupportedEvent then db.insert .eventStore data else db

/-! ## The stored row -/

/-- The event routed to the alert table. -/
def isStoredAsAlert (event : EventWrapper) : Bool :=
  pMode.isStreamModeSupported && env.isAlert event.strEventId

/-- The modes and attachments for which a topiced event is stored for the
stream upload. -/
def streamsTopiced (event : EventWrapper) : Bool :=
  (pMode.isStreamModeSupported && event.attachments.isEmpty) ||
  (pMode.isEventSupportedForStream event.strEventId &&
    (event.attachments.isEmpty || !pMode.isBatchModeSupported))

theorem processEventForStreamMode_topic (event : EventWrapper) (b : Bool) (data : EventRow) :
    (processEventForStreamMode env event b data).topic = data.topic := by
  unfold processEventForStreamMode
  split
  · rfl
  · split <;> rfl

theorem processEventForStreamMode_streamSupport (event : EventWrapper) (b : Bool)
    (data : EventRow) :
    (processEventForStreamMode env event b data).streamSupport =
      if event.attachments.isEmpty || !b then 1 else data.streamSupport := by
  unfold processEventForStreamMode
  cases event.attachments.isEmpty <;> cases b <;> rfl

theorem getTopicedEventData_topic (event : EventWrapper) (strTopic : String) (data : EventRow) :
    (getTopicedEventData pMode event strTopic data).topic = some strTopic := by
  unfold getTopicedEventData
  simp only
  split
  · rfl
  · split <;> rfl

theorem getTopicedEventData_streamSupport (event : EventWrapper) (strTopic : String)
    (data : EventRow) :
    (getTopicedEventData pMode event strTopic data).streamSupport =
      if pMode.isStreamModeSupported && event.attachments.isEmpty then 1
      else data.streamSupport := by
  unfold getTopicedEventData
  cases pMode.isStreamModeSupported <;> cases event.attachments.isEmpty <;>
    cases pMode.isBatchModeSupported <;> rfl

/-- The row before the check of the topic. -/
def modeRow (event : EventWrapper) (data : EventRow) : EventRow :=
  let data := if pMode.isEventSupportedForStream event.strEventId then
    processEventForStreamMode env event pMode.isBatchModeSupported data else data
  if pMode.isEventSupportedForBatch event.strEventId then data.setBatchSupport 1 else data

theorem supportedRow_eq (event : EventWrapper) (data : EventRow) :
    (supportedRow env pMode event data).2 =
      match event.topic with
      | some strTopic => getTopicedEventData pMode event strTopic (modeRow env pMode event data)
      | none => modeRow env pMode event data := by
  unfold supportedRow modeRow
  cases event.topic <;> rfl

theorem modeRow_topic (event : EventWrapper) (data : EventRow) :
    (modeRow env pMode event data).topic = data.topic := by
  have hstream : (if pMode.isEventSupportedForStream event.strEventId then
      processEventForStreamMode env event pMode.isBatchModeSupported data
      else data).topic = data.topic := by
    split
    · exact processEventForStreamMode_topic env event _ data
    · rfl
  unfold modeRow
  simp only
  split
  · rw [EventRow.setBatchSupport_topic, hstream]
  · exact hstream

theorem modeRow_streamSupport (event : EventWrapper) {data : EventRow}
    (hdata : data.streamSupport = 0) :
    (modeRow env pMode event data).streamSupport =
      if pMode.isEventSupportedForStream event.strEventId &&
        (event.attachments.isEmpty || !pMode.isBatchModeSupported) then 1 else 0 := by
  have hstream : (if pMode.isEventSupportedForStream event.strEventId then
      processEventForStreamMode env event pMode.isBatchModeSupported data
      else data).streamSupport =
      if pMode.isEventSupportedForStream event.strEventId &&
        (event.attachments.isEmpty || !pMode.isBatchModeSupported) then 1 else 0 := by
    cases pMode.isEventSupportedForStream event.strEventId with
    | true =>
      rw [if_pos rfl, processEventForStreamMode_streamSupport, hdata, Bool.true_and]
    | false =>
      rw [if_neg (by decide), Bool.false_and, if_neg (by decide)]
      exact hdata
  unfold modeRow
  simp only
  split
  · rw [EventRow.setBatchSupport_streamSupport, hstream]
  · exact hstream

theorem supportedRow_topic (event : EventWrapper) (data : EventRow) (hdata : data.topic = none) :
    (supportedRow env pMode event data).2.topic = event.topic := by
  rw [supportedRow_eq]
  cases event.topic with
  | none =>
    show (modeRow env pMode event data).topic = none
    rw [modeRow_topic, hdata]
  | some strTopic => exact getTopicedEventData_topic pMode event strTopic _

/-- A topiced row has its stream flag set exactly for `streamsTopiced`. -/
theorem supportedRow_streamSupport (event : EventWrapper) (data : EventRow)
    (hdata : data.streamSupport = 0) (htopic : event.topic ≠ none) :
    (supportedRow env pMode event data).2.streamSupport =
      if streamsTopiced pMode event then 1 else 0 := by
  rw [supportedRow_eq]
  cases htop : event.topic with
  | none => exact absurd htop htopic
  | some strTopic =>
    show (getTopicedEventData pMode event strTopic (modeRow env pMode event data)).streamSupport = _
    rw [getTopicedEventData_streamSupport, modeRow_streamSupport env pMode event hdata]
    unfold streamsTopiced
    cases pMode.isStreamModeSupported && event.attachments.isEmpty <;> rfl

/-- What `InsertEvent` adds to the event table. -/
theorem mem_insertEvent {event : EventWrapper} {rstrSerialized : String} {db : Db} {r : EventRow}
    (h : r ∈ (insertEvent env pMode event rstrSerialized db .eventStore).rows) :
    r ∈ (db .eventStore).rows ∨ (isStoredAsAlert env pMode event = false ∧
      r = { (supportedRow env pMode event (eventColumns env event rstrSerialized)).2 with
        id := (db .eventStore).nextKey }) := by
  unfold insertEvent at h
  split at h
  · rcases Db.mem_insert h with h | ⟨hne, _⟩
    · exact Or.inl h
    · cases hne
  · rename_i halert
    have hnot : isStoredAsAlert env pMode event = false := Bool.eq_false_iff.2 halert
    simp only at h
    split at h
    · rcases Db.mem_insert h with h | ⟨_, h⟩
      · exact Or.inl h
      · exact Or.inr ⟨hnot, h⟩
    · exact Or.inl h

end

end DeviceClient
