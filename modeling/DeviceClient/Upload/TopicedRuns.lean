import DeviceClient.Dam.InsertEvent
import DeviceClient.Lib.Run
import DeviceClient.Upload.MidRows
import DeviceClient.Upload.TopicedSelection

/-!
# Which rows the topiced upload may see

Runs that build the event table: events are stored, uploads tag their rows,
acknowledgements delete them or keep them for the batch upload, and `InitMid`
untags every row. The stream upload asks for a set stream flag; the topiced
upload does not, and relies on topiced rows having it.

* `streamFlagInv_run`: topiced rows keep their stream flag as long as they are
  stored with it and no acknowledgement takes it away.
* `topicedUploadStreams_of_run`: then no row without the flag is returned.
* `not_topicedUploadStreams_attachment`: a topiced event with an attachment is
  stored for the batch upload only, and returned all the same.
-/

namespace DeviceClient

namespace TopicedRuns

/-- One step on the database. -/
inductive Label where
  /-- `InsertEvent`, under the upload mode of that moment. -/
  | insertEvent (pMode : UploadMode) (event : EventWrapper) (rstrSerialized : String)
  | updateMid (rvecRowIDs : List ℕ) (nMid : ℤ)
  /-- `delete_events_from_db` for an acknowledged upload of the event table. -/
  | deleteEvents (bBatchMode : Bool) (nMid : ℤ)
  | initMid

variable (env : InsertEnv)

def next (db : Db) : Label → Option Db
  | .insertEvent pMode event rstrSerialized => some (insertEvent env pMode event rstrSerialized db)
  | .updateMid rvecRowIDs nMid => some (db.tagRows .eventStore rvecRowIDs nMid)
  | .deleteEvents bBatchMode nMid => some (db.deleteEventsFromDb bBatchMode .eventStore nMid)
  | .initMid => some ((db.resetMid .alertStore).resetMid .eventStore)

/-- The event's topic has `2c/` in it. -/
def eventHas2c (event : EventWrapper) : Bool :=
  (substrFrom2c (event.topic.getD "").toList).isSome

/-- The condition on a step: an event with a `2c/` topic that reaches the event
table is stored for the stream upload, and an acknowledgement in batch mode finds
no such row that is flagged for the batch upload as well. -/
def StreamFlagKept (db : Db) : Label → Prop
  | .insertEvent pMode event _ =>
    eventHas2c event = true → isStoredAsAlert env pMode event = false →
      streamsTopiced pMode event = true
  | .deleteEvents bBatchMode nMid =>
    bBatchMode = true → ∀ r ∈ (db .eventStore).rows, r.mid = nMid → r.has2c = true →
      r.batchSupport = 0
  | _ => True

/-- No row of the event table whose stream flag is not set is returned by the
topiced upload, whatever its parameters. -/
def TopicedUploadStreams (db : Db) : Prop :=
  ∀ (rd : PayloadReader) (cfg : TopicConfig) (fuel : ℕ) (n startTs endTs : ℤ) (out : TopicedResult),
    getTopicedStreamingEventsFromDB rd cfg fuel n startTs endTs (db .eventStore) = some out →
    ∀ r ∈ (db .eventStore).rows, r.streamSupport = 0 →
      r.id ∉ out.pvectRowIDs ∧ out.rmapResults r.id = none

/-! ## The stream flag of topiced rows -/

/-- Every row with a `2c/` topic has its stream flag set. -/
def StreamFlagInv (db : Db) : Prop :=
  ∀ r ∈ (db .eventStore).rows, r.has2c = true → r.streamSupport ≠ 0

theorem streamFlagInv_updateMid {db : Db} (h : StreamFlagInv db) (t : StoreTable)
    (p : EventRow → Bool) (n : ℤ) : StreamFlagInv (db.updateMid t p n) := by
  intro r hr h2c
  unfold Db.updateMid at hr
  by_cases ht : StoreTable.eventStore = t
  · subst ht
    rw [Function.update_self, Lib.Table.mem_update] at hr
    rcases hr with ⟨r₀, h₀, rfl⟩
    -- the update touches neither the topic nor the flag
    have hsame : (if p r₀ then r₀.setMid n else r₀).topic = r₀.topic ∧
        (if p r₀ then r₀.setMid n else r₀).streamSupport = r₀.streamSupport := by
      split <;> exact ⟨rfl, rfl⟩
    unfold EventRow.has2c at h2c
    rw [hsame.1] at h2c
    rw [hsame.2]
    exact h r₀ h₀ h2c
  · rw [Function.update_of_ne ht] at hr
    exact h r hr h2c

theorem streamFlagInv_insertEvent {db : Db} (h : StreamFlagInv db) {pMode : UploadMode}
    {event : EventWrapper} {ser : String}
    (hok : StreamFlagKept env db (.insertEvent pMode event ser)) :
    StreamFlagInv (insertEvent env pMode event ser db) := by
  intro r hr h2c
  rcases mem_insertEvent env pMode hr with hold | ⟨halert, rfl⟩
  · exact h r hold h2c
  · have htopic := supportedRow_topic env pMode event (eventColumns env event ser) rfl
    have h2c' : eventHas2c event = true := by
      unfold eventHas2c
      rw [← htopic]
      exact h2c
    have hsome : event.topic ≠ none := by
      intro hnone
      unfold eventHas2c at h2c'
      rw [hnone] at h2c'
      revert h2c'
      decide
    have hflag := supportedRow_streamSupport env pMode event
      (eventColumns env event ser) rfl hsome
    rw [if_pos (hok h2c' halert)] at hflag
    show (supportedRow env pMode event (eventColumns env event ser)).2.streamSupport ≠ 0
    rw [hflag]
    decide

/-- An acknowledgement: the rows of its mid are deleted, or stay for the batch
upload without their flag, and the latter have no `2c/` topic. -/
theorem streamFlagInv_deleteEvents {db : Db} (h : StreamFlagInv db) {b : Bool} {m : ℤ}
    (hok : StreamFlagKept env db (.deleteEvents b m)) :
    StreamFlagInv (db.deleteEventsFromDb b .eventStore m) := by
  have hdel : StreamFlagInv (db.deleteEvents b .eventStore m) := by
    intro r hr h2c
    unfold Db.deleteEvents Db.remove at hr
    rw [Function.update_self, Lib.Table.mem_remove] at hr
    exact h r hr.1 h2c
  unfold Db.deleteEventsFromDb
  split
  · rename_i hb
    intro r hr h2c
    unfold Db.markUploaded Db.updateStreamSupport at hr
    rw [Function.update_self, Lib.Table.mem_update] at hr
    rcases hr with ⟨r₀, h₀, rfl⟩
    by_cases hmid : r₀.mid = m
    · exfalso
      -- a row that survived the delete is flagged for the batch upload
      unfold Db.deleteEvents Db.remove at h₀
      rw [Function.update_self, Lib.Table.mem_remove] at h₀
      rcases h₀ with ⟨h₀, hkept⟩
      rw [if_pos (decide_eq_true hmid)] at h2c
      have hbatch : r₀.batchSupport = 0 := hok hb.2 r₀ h₀ hmid h2c
      unfold Db.deletes at hkept
      rw [if_pos hb, decide_eq_true hmid, decide_eq_true hbatch] at hkept
      cases hkept
    · have hneg : ¬ decide (r₀.mid = m) = true := fun hd => hmid (of_decide_eq_true hd)
      rw [if_neg hneg] at h2c ⊢
      exact hdel r₀ h₀ h2c
  · exact hdel

theorem streamFlagInv_step (db : Db) (l : Label) (db' : Db) (h : StreamFlagInv db)
    (hok : StreamFlagKept env db l) (hstep : next env db l = some db') : StreamFlagInv db' := by
  cases l with
  | insertEvent pMode event ser =>
    cases hstep
    exact streamFlagInv_insertEvent env h hok
  | updateMid ids m =>
    cases hstep
    exact streamFlagInv_updateMid h .eventStore _ m
  | deleteEvents b m =>
    cases hstep
    exact streamFlagInv_deleteEvents env h hok
  | initMid =>
    cases hstep
    exact streamFlagInv_updateMid (streamFlagInv_updateMid h .alertStore _ 0) .eventStore _ 0

theorem streamFlagInv_run (labels : List Label) (db : Db)
    (hok : Lib.Along (next env) (StreamFlagKept env) (fun _ => Lib.Table.empty) labels)
    (hrun : Lib.exec (next env) (fun _ => Lib.Table.empty) labels = some db) :
    StreamFlagInv db := by
  refine Lib.exec_inv (streamFlagInv_step env) labels _ db ?_ hok hrun
  intro r hr
  cases hr

/-! ## The topiced upload -/

theorem topicedUploadStreams_of_inv {db : Db} (h : StreamFlagInv db) :
    TopicedUploadStreams db := by
  intro rd cfg fuel n startTs endTs out hout r hr hflag
  rcases getTopicedStreamingEventsFromDB_returned rd cfg hout with ⟨hids, hmap⟩
  have hnot : r.id ∉ out.pvectRowIDs := by
    intro hid
    rcases hids r.id hid with ⟨r', hr', heq, h2c, _⟩
    rw [(db .eventStore).eq_of_key_eq hr' hr heq] at h2c
    exact h r hr h2c hflag
  refine ⟨hnot, ?_⟩
  by_contra hsome
  exact hnot (hmap r.id hsome)

/-- In every run whose steps keep the stream flag of topiced rows, the topiced
upload returns rows of the stream upload only. -/
theorem topicedUploadStreams_of_run (labels : List Label) (db : Db)
    (hok : Lib.Along (next env) (StreamFlagKept env) (fun _ => Lib.Table.empty) labels)
    (hrun : Lib.exec (next env) (fun _ => Lib.Table.empty) labels = some db) :
    TopicedUploadStreams db :=
  topicedUploadStreams_of_inv (streamFlagInv_run env labels db hok hrun)

/-! ## Two runs -/

/-- Encryption and serialisation that change nothing, and no direct alert. -/
def plainEnv : InsertEnv := ⟨id, fun _ _ _ => "\x7b\x7d", fun _ => false⟩

/-- Both modes supported, every event for the stream upload. -/
def bothModes : UploadMode := ⟨⟨true, true⟩, ⟨true, false⟩, fun _ => none⟩

/-- A topiced event with the given attachments. -/
def topicedEvent (attachments : List String) : EventWrapper :=
  ⟨"Speed", 1, 0, attachments, some "D1/2c/x"⟩

/-- Two topiced events, the first of which is uploaded and acknowledged. -/
def plainRun : List Label :=
  [.insertEvent bothModes (topicedEvent []) "\x7b\x7d",
    .insertEvent bothModes (topicedEvent []) "\x7b\x7d",
    .updateMid [1] 7, .deleteEvents true 7, .initMid]

theorem topicedUploadStreams_plainRun :
    ∃ db, Lib.exec (next plainEnv) (fun _ => Lib.Table.empty) plainRun = some db ∧
      (db .eventStore).rows.map EventRow.id = [2] ∧ TopicedUploadStreams db := by
  refine ⟨_, rfl, rfl, topicedUploadStreams_of_run plainEnv plainRun _ ?_ rfl⟩
  refine Lib.along_cons rfl (fun _ _ => by decide) ?_
  refine Lib.along_cons rfl (fun _ _ => by decide) ?_
  refine Lib.along_cons rfl trivial ?_
  refine Lib.along_cons rfl ?_ (Lib.along_cons rfl trivial (Lib.along_nil _ _ _))
  -- neither row is flagged for the batch upload
  intro _ r hr _ _
  have hall : ∀ r ∈ (((insertEvent plainEnv bothModes (topicedEvent []) "\x7b\x7d"
      (insertEvent plainEnv bothModes (topicedEvent []) "\x7b\x7d"
        fun _ => Lib.Table.empty)).tagRows .eventStore [1] 7) .eventStore).rows,
      r.batchSupport = 0 := by decide
  exact hall r hr

theorem not_topicedUploadStreams_attachment :
    ¬ ∀ (env : InsertEnv) (labels : List Label) (db : Db),
      Lib.exec (next env) (fun _ => Lib.Table.empty) labels = some db →
      TopicedUploadStreams db := by
  intro hall
  have hrun := hall plainEnv [.insertEvent bothModes (topicedEvent ["a.jpg"]) "\x7b\x7d"] _ rfl
  have hout := hrun ⟨id, fun _ => true⟩ ⟨"D1", "ic/"⟩ 1 20 0 0 _ rfl _ (List.mem_singleton.2 rfl) rfl
  exact hout.1 (by decide)

end TopicedRuns

end DeviceClient
