import DeviceClient.Config.UploadMode
import DeviceClient.Db.EventStore
import DeviceClient.Lib.Paging
import DeviceClient.Lib.Run
import DeviceClient.Lib.SortedSet
import Mathlib.Data.String.Basic

/-!
# Granularity reduction

`CGranularityReductionHandler` shrinks the event table when the database has
grown over its limit: policy after policy removes rows until enough storage is
gained.

* `populateExemptionList`: the event ids that a policy has to leave alone.
* `populateEventsList`: every second row of an event id in each session.
* `populateTriggerEventsList`: the triggers of each session, a pre-trigger row
  with the post-trigger row that follows it.
* `populatePostTriggerEvents`: every post-trigger row.
* `policyTurn`: one turn of the loop over the policies.

Event ids and suffixes are text of one-byte characters. An id in the double
quotes of a statement is that text: it holds no quote and names no column.
-/

namespace DeviceClient

/-- A row of `EVENT_STORE` with its column `GRANULARITY`. -/
structure GranularRow extends EventRow where
  granularity : ℤ
deriving DecidableEq, Repr

/-- The key of the table. -/
def GranularRow.key (r : GranularRow) : ℕ := r.id

def GranularRow.setGranularity (r : GranularRow) (nGranLevel : ℤ) : GranularRow :=
  { r with granularity := nGranLevel }

@[simp] theorem GranularRow.key_setGranularity (r : GranularRow) (n : ℤ) :
    (r.setGranularity n).key = r.key := rfl

/-- `EVENT_STORE`. -/
abbrev GranularTable := Lib.Table GranularRow.key

/-- `CUploadUtils::UploadDataMode`. -/
inductive UploadDataMode where
  | eBatch
  | eStream
  | eBatchAndStream
deriving DecidableEq, Repr

namespace GranularityReduction

/-! ## Constants and members -/

def clientLaunchedEvent : String := "IgniteClientLaunched"

def policyRemoveAlternateSimilarEvent : String := "RemoveAlternateSimilarEvent"

def policyRemoveRepeatedTriggerEventsLeaveFirstAndLast : String :=
  "RemoveRepeatedTriggerEvents_LeaveFirstAndLast"

def policyRemoveTriggerEventPostFiles : String := "RemoveTriggerEventPostFiles"

def dbEventQueryLimit : ℕ := 1000

def attachmentAvailableFlag : ℤ := 1

def fileSeparator : String := "/"

/-- `GRPolicyConfigDetails`: a policy as the configuration names it. -/
structure GRPolicyConfigDetails where
  strName : String
  setAddlExemptedEvnts : List String
  setRemoveFromExemptedEvnts : List String
  bClearDefExemptedEvents : Bool
deriving DecidableEq, Repr

/-- `GRPolicy`; the list of exempted events is the test for an id of the list. -/
structure GRPolicy where
  strName : String
  strExemptedEvents : String → Bool
  nGranLevel : ℕ

/-- The members of the handler and what it calls outside the client:
`std::regex_match` of a name with a pattern, the decryption of a stored event
and the attachments that the event's JSON text names. -/
structure GRHandler where
  regexMatch : String → String → Bool
  decryptEventData : String → String
  getAttachments : String → List String
  pMode : UploadMode
  strAttachPath : String
  setExemptedEvents : List String
  /-- The array `policyOrder`; an entry without a name is `none`. -/
  policyOrder : List (Option GRPolicyConfigDetails)
  strPreTrgrEventIdSuffix : String
  strPostTrgrEventIdSuffix : String
  eGReductionEventType : UploadDataMode
  unExpectedDbSizeToGain : ℕ

/-! ## The exemption lists -/

/-- `LoadMandatoryExemptedEvents`. -/
def mandatoryExemptedEvents (pMode : UploadMode) (rstrEventId : String) : Bool :=
  pMode.isStreamModeSupported && pMode.streamModeEventList rstrEventId

/-- `PopulateExemptionList`: the defaults unless cleared, the additional events,
less the removed ones; then the mandatory ones. -/
def populateExemptionList (h : GRHandler) (stPolicy : GRPolicyConfigDetails)
    (rstrEventId : String) : Bool :=
  ((!stPolicy.bClearDefExemptedEvents && decide (rstrEventId ∈ h.setExemptedEvents) ||
      decide (rstrEventId ∈ stPolicy.setAddlExemptedEvnts)) &&
    !decide (rstrEventId ∈ stPolicy.setRemoveFromExemptedEvnts)) ||
  mandatoryExemptedEvents h.pMode rstrEventId

/-- `ReadGRPolicies`: the level of a policy counts the entries without a name. -/
def readGRPolicies (h : GRHandler) : List GRPolicy :=
  h.policyOrder.zipIdx.filterMap fun entry =>
    entry.1.map fun stPolicy =>
      { strName := stPolicy.strName
        strExemptedEvents := populateExemptionList h stPolicy
        nGranLevel := entry.2 + 1 }

/-- A mandatory exempted event is exempted by every policy. -/
theorem mandatory_of_mem_readGRPolicies {h : GRHandler} {p : GRPolicy} {rstrEventId : String}
    (hp : p ∈ readGRPolicies h) (hm : mandatoryExemptedEvents h.pMode rstrEventId = true) :
    p.strExemptedEvents rstrEventId = true := by
  unfold readGRPolicies at hp
  obtain ⟨entry, _, hentry⟩ := List.mem_filterMap.1 hp
  obtain ⟨stPolicy, _, rfl⟩ := Option.map_eq_some_iff.1 hentry
  show populateExemptionList h stPolicy rstrEventId = true
  unfold populateExemptionList
  rw [hm, Bool.or_true]

/-! ## Selections -/

/-- `TIMESTAMP > start AND TIMESTAMP <= end`; never true of a row without one. -/
def inTimeRange (llStartTime llEndTime : ℤ) (r : GranularRow) : Bool :=
  r.timestamp.any fun ts => decide (llStartTime < ts) && decide (ts ≤ llEndTime)

/-- `TIMESTAMP >= start AND TIMESTAMP <= end`. -/
def inClosedTimeRange (llStartTime llEndTime : ℤ) (r : GranularRow) : Bool :=
  r.timestamp.any fun ts => decide (llStartTime ≤ ts) && decide (ts ≤ llEndTime)

/-- `EVENTID NOT IN (exempted) AND EVENTID != "IgniteClientLaunched"`. -/
def notExempted (strExempEventList : String → Bool) (r : GranularRow) : Bool :=
  !strExempEventList r.eventId && decide (r.eventId ≠ clientLaunchedEvent)

/-- SQLite's `substr(X, -n)`: the last `n` characters, all of them if there are
fewer or `n` is zero. -/
def substrFromEnd (s : String) (n : ℕ) : List Char :=
  if n = 0 then s.toList else s.toList.drop (s.toList.length - n)

/-- The post-trigger id that belongs to a pre-trigger id. The subtraction of the
lengths is unsigned: if it wraps, the whole id is kept. -/
def postTriggerEventId (strTrigEventId strPostTrgrEvntIdSuffix : String) : String :=
  String.ofList
    (if strPostTrgrEvntIdSuffix.length ≤ strTrigEventId.length then
      strTrigEventId.toList.take (strTrigEventId.length - strPostTrgrEvntIdSuffix.length)
    else strTrigEventId.toList) ++ strPostTrgrEvntIdSuffix

/-- The rows of `PopulateUniqueSteadyStateEventIds`. -/
def steadyStateSelection (llStartTime llEndTime : ℤ) (strExempEventList : String → Bool)
    (r : GranularRow) : Bool :=
  inClosedTimeRange llStartTime llEndTime r && notExempted strExempEventList r &&
    decide (r.hasAttach ≠ 1)

/-- The rows of `PopulateSessionBasedEventList`, less the condition on the row id. -/
def sessionSelection (strEventId : String) (llStartTime llEndTime : ℤ) (r : GranularRow) : Bool :=
  inClosedTimeRange llStartTime llEndTime r &&
    (decide (r.eventId = strEventId) || decide (r.eventId = clientLaunchedEvent))

/-- The rows of `PopulateUniquePreTriggerEventIds`; the statement looks at three
characters whatever the suffix. -/
def preTriggerSelection (llStartTime llEndTime : ℤ) (strPreTrgrEvntIdSuffix : String)
    (strExempEventList : String → Bool) (r : GranularRow) : Bool :=
  inTimeRange llStartTime llEndTime r && notExempted strExempEventList r &&
    decide (r.hasAttach = 1) &&
    decide (substrFromEnd r.eventId 3 = strPreTrgrEvntIdSuffix.toList)

/-- The rows of `PopulateSessionBasedTriggerEventList`, less the condition on the
row id. -/
def triggerSelection (strTrigEventId strPostTrgrEvntIdSuffix : String) (llStartTime llEndTime : ℤ)
    (r : GranularRow) : Bool :=
  inTimeRange llStartTime llEndTime r &&
    ((decide (r.eventId = strTrigEventId) ||
        decide (r.eventId = postTriggerEventId strTrigEventId strPostTrgrEvntIdSuffix)) &&
      decide (r.hasAttach = 1) ||
    decide (r.eventId = clientLaunchedEvent))

/-- The rows of `PopulatePostTriggerEventList`, less the condition on the row id. -/
def postTriggerSelection (llStartTime llEndTime : ℤ) (strPostTrgrEvntIdSuffix : String)
    (r : GranularRow) : Bool :=
  inTimeRange llStartTime llEndTime r &&
    decide (substrFromEnd r.eventId strPostTrgrEvntIdSuffix.length =
      strPostTrgrEvntIdSuffix.toList) &&
    decide (r.hasAttach = 1)

/-- A `SELECT DISTINCT EVENTID`, read into a set. -/
def uniqueEventIds (rows : List GranularRow) : Lib.SortedSet String :=
  rows.foldl (fun setUniqEvntIds r => setUniqEvntIds.insert r.eventId) Lib.SortedSet.empty

theorem mem_uniqueEventIds {rows : List GranularRow} {e : String} :
    e ∈ uniqueEventIds rows ↔ ∃ r ∈ rows, r.eventId = e := by
  have hfold : ∀ (rows : List GranularRow) (s : Lib.SortedSet String),
      e ∈ rows.foldl (fun s r => s.insert r.eventId) s ↔ e ∈ s ∨ ∃ r ∈ rows, r.eventId = e := by
    intro rows
    induction rows with
    | nil => simp
    | cons r rows ih =>
      intro s
      rw [List.foldl_cons, ih, Lib.SortedSet.mem_insert, List.exists_mem_cons_iff]
      constructor
      · rintro ((rfl | h) | h)
        · exact Or.inr (Or.inl rfl)
        · exact Or.inl h
        · exact Or.inr (Or.inr h)
      · rintro (h | rfl | h)
        · exact Or.inl (Or.inr h)
        · exact Or.inl (Or.inl rfl)
        · exact Or.inr h
  unfold uniqueEventIds
  rw [hfold]
  simp

/-! ## Deletion -/

/-- `_id IN (ids)`. -/
def idsSelection (rsetIds : List ℤ) (r : GranularRow) : Bool := decide ((r.id : ℤ) ∈ rsetIds)

/-- The condition that `UpdateDeleteSelectionAsPerMode` adds. -/
def deleteSelectionAsPerMode : UploadDataMode → GranularRow → Bool
  | .eBatch, r => decide (r.streamSupport = 0)
  | .eStream, r => decide (r.batchSupport = 0)
  | .eBatchAndStream, _ => true

/-- `MarkEventsAsUploaded`. -/
def markEventsAsUploaded : UploadDataMode → GranularRow → GranularRow
  | .eBatch, r => { r with toEventRow := r.toEventRow.setBatchSupport 0 }
  | .eStream, r => { r with toEventRow := r.toEventRow.setStreamSupport 0 }
  | .eBatchAndStream, r =>
    { r with toEventRow := (r.toEventRow.setBatchSupport 0).setStreamSupport 0 }

theorem key_markEventsAsUploaded (dataMode : UploadDataMode) (r : GranularRow) :
    (markEventsAsUploaded dataMode r).key = r.key := by
  cases dataMode <;> rfl

/-- Whether a row goes when its id is to be deleted; otherwise it is marked only. -/
def deletable (h : GRHandler) (r : GranularRow) : Bool :=
  !h.pMode.isStreamModeSupported || deleteSelectionAsPerMode h.eGReductionEventType r

/-- `DeleteEventsFromDB` on the event table, no anonymous upload active. -/
def deleteEventsFromDB (h : GRHandler) (t : GranularTable) (rsetIds : List ℤ) : GranularTable :=
  if rsetIds.isEmpty then t
  else if h.pMode.isStreamModeSupported then
    (t.remove fun r =>
      idsSelection rsetIds r && deleteSelectionAsPerMode h.eGReductionEventType r).update
      (idsSelection rsetIds) (markEventsAsUploaded h.eGReductionEventType)
      (key_markEventsAsUploaded h.eGReductionEventType)
  else t.remove (idsSelection rsetIds)

/-- The table, and the attachment files that `DeleteAttachmentFiles` was given. -/
structure GRStore where
  table : GranularTable
  removedFiles : List String

/-- The two deletions at the end of a turn of a policy. -/
def GRStore.delete (h : GRHandler) (s : GRStore) (setIds : List ℤ) (setFiles : List String) :
    GRStore where
  table := deleteEventsFromDB h s.table setIds
  removedFiles := s.removedFiles ++ setFiles

/-- `UpdateGRLevel`. -/
def updateGRLevel (llStartTime llEndTime : ℤ) (stPolicy : GRPolicy) (t : GranularTable) :
    GranularTable :=
  t.update
    (fun r => inTimeRange llStartTime llEndTime r && notExempted stPolicy.strExemptedEvents r)
    (fun r => r.setGranularity stPolicy.nGranLevel) fun r => r.key_setGranularity _

/-- The paths of the attachments that an event's text names. -/
def attachmentPaths (h : GRHandler) (strEventData : String) : List String :=
  (h.getAttachments strEventData).map fun name => h.strAttachPath ++ fileSeparator ++ name

/-- `AddAttachmentsFromEventRecord`. -/
def attachmentsFromEventRecord (h : GRHandler) (rstRecord : GranularRow) : List String :=
  if rstRecord.hasAttach = attachmentAvailableFlag then
    attachmentPaths h (h.decryptEventData rstRecord.events)
  else []

/-- `AddAttachmentsToDeleteList` of the decrypted text. -/
def attachmentsToDelete (h : GRHandler) (strEvents : String) : List String :=
  if h.decryptEventData strEvents = "" then [] else attachmentPaths h (h.decryptEventData strEvents)

/-! ## RemoveAlternateSimilarEvent -/

/-- The variables of the loop of `PopulateEventsList`. -/
structure AlternateEvents where
  llStartId : ℕ
  unEvntIndex : ℕ
  setDeleteEvntIds : List ℤ
  setDeleteFileList : List String
deriving DecidableEq, Repr

/-- One row: a session marker restarts the count, every second row after it goes. -/
def AlternateEvents.visit (h : GRHandler) (s : AlternateEvents) (stRecord : GranularRow) :
    AlternateEvents :=
  if stRecord.eventId = clientLaunchedEvent then
    { s with llStartId := stRecord.id, unEvntIndex := 0 }
  else if (s.unEvntIndex + 1) % 2 = 0 then
    { llStartId := stRecord.id
      unEvntIndex := s.unEvntIndex + 1
      setDeleteEvntIds := s.setDeleteEvntIds ++ [(stRecord.id : ℤ)]
      setDeleteFileList := s.setDeleteFileList ++ attachmentsFromEventRecord h stRecord }
  else { s with llStartId := stRecord.id, unEvntIndex := s.unEvntIndex + 1 }

/-- `PopulateEventsList`. -/
def populateEventsList (h : GRHandler) (nLimit : ℕ) (t : GranularTable) (rstrEId : String)
    (rllStartTime rllEndTime : ℤ) (rllLastGRedId : ℕ) : AlternateEvents :=
  Lib.readPages GranularRow.key nLimit
    (t.rows.filter (sessionSelection rstrEId rllStartTime rllEndTime))
    AlternateEvents.llStartId (fun page s => page.foldl (AlternateEvents.visit h) s)
    { llStartId := rllLastGRedId
      unEvntIndex := 0
      setDeleteEvntIds := []
      setDeleteFileList := [] }

/-- One event id of the policy. -/
def alternateTurn (h : GRHandler) (llStartTime llEndTime : ℤ) (llLastGRedId : ℕ) (s : GRStore)
    (strEventId : String) : GRStore :=
  let events :=
    populateEventsList h dbEventQueryLimit s.table strEventId llStartTime llEndTime llLastGRedId
  s.delete h events.setDeleteEvntIds events.setDeleteFileList

/-- `RemoveAlternateSimilarEventPolicyHandler`. -/
def removeAlternateSimilarEvent (h : GRHandler) (llStartTime llEndTime : ℤ) (stPolicy : GRPolicy)
    (llLastGRedId : ℕ) (s : GRStore) : GRStore :=
  let setUniqEvnts := uniqueEventIds
    (s.table.rows.filter (steadyStateSelection llStartTime llEndTime stPolicy.strExemptedEvents))
  let s' := setUniqEvnts.elems.foldl (alternateTurn h llStartTime llEndTime llLastGRedId) s
  { s' with table := updateGRLevel llStartTime llEndTime stPolicy s'.table }

/-! ## RemoveRepeatedTriggerEvents_LeaveFirstAndLast -/

/-- `TrigEventDetails`; `Init` gives both ids `-1`. -/
structure TrigEventDetails where
  llPreTrigId : ℤ
  strPreTrigEvents : String
  llPostTrigId : ℤ
  strPostTrigEvents : String
deriving DecidableEq, Repr

/-- A pre-trigger row with the post-trigger row found for it. -/
def TrigEventDetails.of (stRecord : GranularRow) : Option GranularRow → TrigEventDetails
  | none => ⟨stRecord.id, stRecord.events, -1, ""⟩
  | some stNextRecord =>
    ⟨stRecord.id, stRecord.events, stNextRecord.id, stNextRecord.events⟩

/-- What the handler comes across: a session marker, or a trigger. -/
inductive Found where
  | session (id : ℕ)
  | trigger (stTEvnt : TrigEventDetails)
deriving DecidableEq, Repr

/-- The variables of `PopulateTriggerEventsList`. The history `found` is not in
the source: it lists the session ends and the triggers in the order found. -/
structure TriggerEvents where
  llStartId : ℕ
  vecTrigEvntsToDelete : List TrigEventDetails
  vecTrigEvnts : List TrigEventDetails
  found : List Found
deriving DecidableEq, Repr

/-- The triggers of a session that go: if there are more than two, all but the
last and the first. -/
def leaveFirstAndLast (vecTrigEvnts : List TrigEventDetails) : List TrigEventDetails :=
  if 2 < vecTrigEvnts.length then vecTrigEvnts.dropLast.tail else []

namespace TriggerEvents

def empty : TriggerEvents := ⟨0, [], [], []⟩

/-- A session marker: the triggers so far are a whole session. -/
def endSession (s : TriggerEvents) (stRecord : GranularRow) : TriggerEvents where
  llStartId := stRecord.id
  vecTrigEvntsToDelete := s.vecTrigEvntsToDelete ++ leaveFirstAndLast s.vecTrigEvnts
  vecTrigEvnts := []
  found := s.found ++ [.session stRecord.id]

/-- A row that is no pre-trigger row. -/
def skip (s : TriggerEvents) (stRecord : GranularRow) : TriggerEvents :=
  { s with llStartId := stRecord.id }

/-- A pre-trigger row; the start id stays on it when the next row is taken too. -/
def addTrigger (s : TriggerEvents) (stRecord : GranularRow)
    (stNextRecord : Option GranularRow) : TriggerEvents :=
  { s with
    llStartId := stRecord.id
    vecTrigEvnts := s.vecTrigEvnts ++ [.of stRecord stNextRecord]
    found := s.found ++ [.trigger (.of stRecord stNextRecord)] }

@[simp] theorem endSession_llStartId (s : TriggerEvents) (r : GranularRow) :
    (s.endSession r).llStartId = r.id := rfl
@[simp] theorem skip_llStartId (s : TriggerEvents) (r : GranularRow) :
    (s.skip r).llStartId = r.id := rfl
@[simp] theorem addTrigger_llStartId (s : TriggerEvents) (r : GranularRow)
    (o : Option GranularRow) : (s.addTrigger r o).llStartId = r.id := rfl

end TriggerEvents

/-- The match of a name with the pattern built from the pre-trigger suffix. -/
def isPreTrigger (h : GRHandler) (strEventName : String) : Bool :=
  h.regexMatch strEventName ("(.*)(" ++ h.strPreTrgrEventIdSuffix ++ ")")

/-- The match of a name with the pattern built from the post-trigger suffix. -/
def isPostTrigger (h : GRHandler) (strEventName : String) : Bool :=
  h.regexMatch strEventName ("(.*)(" ++ h.strPostTrgrEventIdSuffix ++ ")")

/-- `ProcessEventListAndAddEvents`. -/
def processEventListAndAddEvents (h : GRHandler) :
    List GranularRow → TriggerEvents → TriggerEvents
  | [], s => s
  | [stRecord], s =>
    if stRecord.eventId = clientLaunchedEvent then s.endSession stRecord
    else if isPreTrigger h stRecord.eventId = false then s.skip stRecord
    -- the end of the page: no row to look at
    else s.addTrigger stRecord none
  | stRecord :: stNextRecord :: page, s =>
    if stRecord.eventId = clientLaunchedEvent then
      processEventListAndAddEvents h (stNextRecord :: page) (s.endSession stRecord)
    else if isPreTrigger h stRecord.eventId = false then
      processEventListAndAddEvents h (stNextRecord :: page) (s.skip stRecord)
    else if isPostTrigger h stNextRecord.eventId then
      processEventListAndAddEvents h page (s.addTrigger stRecord (some stNextRecord))
    else processEventListAndAddEvents h (stNextRecord :: page) (s.addTrigger stRecord none)

/-- The rows that the turns of `PopulateTriggerEventsList` read. -/
def triggerRows (h : GRHandler) (t : GranularTable) (rstrPreTrigEventId : String)
    (rllStartTime rllEndTime : ℤ) : List GranularRow :=
  t.rows.filter
    (triggerSelection rstrPreTrigEventId h.strPostTrgrEventIdSuffix rllStartTime rllEndTime)

/-- `PopulateTriggerEventsList` for a page limit; zero is no limit. -/
def populateTriggerEventsList (h : GRHandler) (nLimit : ℕ) (t : GranularTable)
    (rstrPreTrigEventId : String) (rllStartTime rllEndTime : ℤ) : TriggerEvents :=
  Lib.readPages GranularRow.key nLimit
    (triggerRows h t rstrPreTrigEventId rllStartTime rllEndTime)
    TriggerEvents.llStartId (processEventListAndAddEvents h) TriggerEvents.empty

/-- The triggers to delete once the rows are read: those of the ended sessions
and those of the last one. -/
def TriggerEvents.toDelete (s : TriggerEvents) : List TrigEventDetails :=
  s.vecTrigEvntsToDelete ++ leaveFirstAndLast s.vecTrigEvnts

/-- The ids of `PopulateEventsAndFilesToDelete`. -/
def trigEventIds (stTEDetails : TrigEventDetails) : List ℤ :=
  stTEDetails.llPreTrigId ::
    if stTEDetails.llPostTrigId = -1 then [] else [stTEDetails.llPostTrigId]

/-- The files of `PopulateEventsAndFilesToDelete`. -/
def trigEventFiles (h : GRHandler) (stTEDetails : TrigEventDetails) : List String :=
  attachmentsToDelete h stTEDetails.strPreTrigEvents ++
    if stTEDetails.llPostTrigId = -1 then [] else attachmentsToDelete h stTEDetails.strPostTrigEvents

/-- One pre-trigger event id of the policy. -/
def repeatedTriggerTurn (h : GRHandler) (llStartTime llEndTime : ℤ) (s : GRStore)
    (strPreTrigEventId : String) : GRStore :=
  let vecTrigEvntsToDelete :=
    (populateTriggerEventsList h dbEventQueryLimit s.table strPreTrigEventId llStartTime
      llEndTime).toDelete
  s.delete h (vecTrigEvntsToDelete.flatMap trigEventIds)
    (vecTrigEvntsToDelete.flatMap (trigEventFiles h))

/-- `RemoveRepeatedTriggerEventsLeaveFirstAndLastPolicyHandler`. -/
def removeRepeatedTriggerEvents (h : GRHandler) (llStartTime llEndTime : ℤ) (stPolicy : GRPolicy)
    (s : GRStore) : GRStore :=
  let setUniqPreTrgEvnts := uniqueEventIds
    (s.table.rows.filter (preTriggerSelection llStartTime llEndTime h.strPreTrgrEventIdSuffix
      stPolicy.strExemptedEvents))
  let s' := setUniqPreTrgEvnts.elems.foldl (repeatedTriggerTurn h llStartTime llEndTime) s
  { s' with table := updateGRLevel llStartTime llEndTime stPolicy s'.table }

/-! ## RemoveTriggerEventPostFiles -/

/-- The variables of the loop of the handler. -/
structure PostTriggerEvents where
  llStartId : ℕ
  vecPostTrigEvntsToDelete : List GranularRow
deriving DecidableEq, Repr

def PostTriggerEvents.visit (s : PostTriggerEvents) (stRecord : GranularRow) :
    PostTriggerEvents where
  llStartId := stRecord.id
  vecPostTrigEvntsToDelete := s.vecPostTrigEvntsToDelete ++ [stRecord]

/-- The loop of `RemoveTriggerEventPostFilesPolicyHandler`. -/
def populatePostTriggerEvents (h : GRHandler) (nLimit : ℕ) (t : GranularTable)
    (llStartTime llEndTime : ℤ) : PostTriggerEvents :=
  Lib.readPages GranularRow.key nLimit
    (t.rows.filter (postTriggerSelection llStartTime llEndTime h.strPostTrgrEventIdSuffix))
    PostTriggerEvents.llStartId (fun page s => page.foldl PostTriggerEvents.visit s) ⟨0, []⟩

/-- `RemoveTriggerEventPostFilesPolicyHandler`; the list of exempted events is
read by the update at the end only. -/
def removeTriggerEventPostFiles (h : GRHandler) (llStartTime llEndTime : ℤ) (stPolicy : GRPolicy)
    (s : GRStore) : GRStore :=
  let vecPostTrigEvntsToDelete :=
    (populatePostTriggerEvents h dbEventQueryLimit s.table llStartTime
      llEndTime).vecPostTrigEvntsToDelete
  let s' := s.delete h (vecPostTrigEvntsToDelete.map fun r => (r.id : ℤ))
    (vecPostTrigEvntsToDelete.flatMap fun r => attachmentsToDelete h r.events)
  { s' with table := updateGRLevel llStartTime llEndTime stPolicy s'.table }

/-! ## The loop over the policies -/

/-- `LastGRPerformedRecord`. -/
structure LastGRPerformedRecord where
  llTimeStamp : ℤ
  llLastGRPerRecId : ℕ
deriving DecidableEq, Repr

/-- `GetLastGranularityPerformedRecord`: of the rows with a level in the range
the one with the latest timestamp; without one the record stays. -/
def getLastGranularityPerformedRecord (llStartTime llEndTime : ℤ) (t : GranularTable)
    (rstLastGrRecordDetails : LastGRPerformedRecord) : LastGRPerformedRecord :=
  match Lib.limit 1 (Lib.orderBy (fun r => OrderDual.toDual r.timestampKey)
      (t.rows.filter fun r => inTimeRange llStartTime llEndTime r && decide (r.granularity ≠ 0))) with
  | [] => rstLastGrRecordDetails
  | r :: _ => ⟨r.timestamp.getD 0, r.id⟩

/-- What `PerformGranularityReduction` reads before the loop. -/
structure GRRun where
  llStartTime : ℤ
  llEndTime : ℤ
  llStartId : ℕ
  unDBSizeBefGR : ℕ
deriving DecidableEq, Repr

/-- The state between two turns of the loop. -/
structure GRState where
  store : GRStore
  stLastGrRecord : LastGRPerformedRecord
  bIsRemoveAlternateSimilarEventPerformed : Bool
  bIsGRSuccess : Bool

/-- The unsigned difference of two 64-bit sizes. -/
def sizeGained (unDBSizeBefGR unDBSizeAftGR : ℕ) : ℕ :=
  (unDBSizeBefGR + 2 ^ 64 - unDBSizeAftGR) % 2 ^ 64

/-- The alternate policy: the whole table again if it ran just before. -/
def performAlternate (h : GRHandler) (run : GRRun) (stPolicy : GRPolicy) (s : GRState) : GRState :=
  let store :=
    if s.bIsRemoveAlternateSimilarEventPerformed then
      removeAlternateSimilarEvent h 0 run.llEndTime stPolicy 0 s.store
    else removeAlternateSimilarEvent h run.llStartTime run.llEndTime stPolicy run.llStartId s.store
  { s with
    store := store
    bIsRemoveAlternateSimilarEventPerformed := !s.bIsRemoveAlternateSimilarEventPerformed
    stLastGrRecord := getLastGranularityPerformedRecord run.llStartTime run.llEndTime store.table
      s.stLastGrRecord }

/-- The handler that a policy's name selects; `none` for an unsupported name. -/
def performPolicy (h : GRHandler) (run : GRRun) (stPolicy : GRPolicy) (s : GRState) :
    Option GRState :=
  if stPolicy.strName = policyRemoveAlternateSimilarEvent then
    some (performAlternate h run stPolicy s)
  else if stPolicy.strName = policyRemoveRepeatedTriggerEventsLeaveFirstAndLast then
    some { s with store := removeRepeatedTriggerEvents h 0 run.llEndTime stPolicy s.store }
  else if stPolicy.strName = policyRemoveTriggerEventPostFiles then
    some { s with store := removeTriggerEventPostFiles h 0 run.llEndTime stPolicy s.store }
  else none

/-- One turn of the loop, with the size read after the vacuum. The loop is left
once enough is gained; an unsupported policy is passed over. -/
def policyTurn (h : GRHandler) (run : GRRun) (s : GRState) (turn : GRPolicy × ℕ) :
    Option GRState :=
  if s.bIsGRSuccess then none
  else
    match performPolicy h run turn.1 s with
    | none => some s
    | some s' =>
      some { s' with
        bIsGRSuccess :=
          decide (h.unExpectedDbSizeToGain ≤ sizeGained run.unDBSizeBefGR turn.2) }

/-! ## A sample configuration -/

/-- `std::regex_match` with a pattern `(.*)(suffix)` whose suffix has no special
character: the suffix ends the name, no line break stands before it. -/
def suffixRegexMatch (strName strPattern : String) : Bool :=
  let suffix := (strPattern.toList.drop 5).dropLast
  suffix.isSuffixOf strName.toList &&
    (strName.toList.take (strName.toList.length - suffix.length)).all fun c =>
      decide (c ≠ '\n') && decide (c ≠ '\r')

/-- Batch mode only, the default suffixes, no encryption and no attachments. -/
def sampleHandler (policyOrder : List (Option GRPolicyConfigDetails))
    (setExemptedEvents : List String) : GRHandler where
  regexMatch := suffixRegexMatch
  decryptEventData := fun strEvents => strEvents
  getAttachments := fun _ => []
  pMode := ⟨⟨false, true⟩, ⟨false, true⟩, fun _ => none⟩
  strAttachPath := "/data/attachments"
  setExemptedEvents := setExemptedEvents
  policyOrder := policyOrder
  strPreTrgrEventIdSuffix := "BEF"
  strPostTrgrEventIdSuffix := "AFT"
  eGReductionEventType := .eBatch
  unExpectedDbSizeToGain := 2359296

/-- A row stored for the batch upload. -/
def sampleRow (id : ℕ) (eventId : String) (hasAttach : ℤ) : GranularRow where
  id := id
  eventId := eventId
  timestamp := some 1700000000000
  timezone := 0
  size := 0
  hasAttach := hasAttach
  events := ""
  topic := none
  mid := 0
  streamSupport := 0
  batchSupport := 1
  granularity := 0

/-- A table with one such row for each event id and attachment flag. -/
def sampleTable (rows : List (String × ℤ)) : GranularTable :=
  rows.foldl (fun t row => t.insert (fun id => sampleRow id row.1 row.2) fun _ => rfl)
    Lib.Table.empty

example : isPreTrigger (sampleHandler [] []) "HarshBrakeBEF" = true := by decide

end GranularityReduction

end DeviceClient
