import DeviceClient.Dam.InsertEvent

/-!
# Where an event goes

`InsertEvent` decides between the alert table and the event table, and between
the two flags of a row of the event table. A row with neither flag stays in the
table: no uploader selects it.

* `Routed`: the alert goes to the alert table alone, a stored event is flagged
  for an upload that is supported, attachments wait for the batch upload.
* `flagged_supportedRow_iff`: when the row of an event has a flag.
* `routed_iff`: for the modes of any configuration, the events that are routed
  so are all but those with a topic, of no supported mode, that neither upload
  takes because of its topic.
-/

namespace DeviceClient

section

variable (env : InsertEnv) (pMode : UploadMode)

/-- A row that the uploader of a supported mode selects. -/
def Flagged (r : EventRow) : Prop :=
  r.streamSupport = 1 ∧ pMode.isStreamModeSupported = true ∨
    r.batchSupport = 1 ∧ pMode.isBatchModeSupported = true

/-- The tables after `InsertEvent`, compared with those before. -/
structure Routed (event : EventWrapper) (rstrSerialized : String) (db : Db) : Prop where
  alert : pMode.isStreamModeSupported = true → env.isAlert event.strEventId = true →
    insertEvent env pMode event rstrSerialized db .eventStore = db .eventStore ∧
      (insertEvent env pMode event rstrSerialized db .alertStore).rows =
        (db .alertStore).rows ++ [{ eventColumns env event rstrSerialized with
          id := (db .alertStore).nextKey }]
  flagged : ∀ r ∈ (insertEvent env pMode event rstrSerialized db .eventStore).rows,
    r ∉ (db .eventStore).rows → Flagged pMode r
  attachments : event.attachments ≠ [] → pMode.isBatchModeSupported = true →
    ∀ r ∈ (insertEvent env pMode event rstrSerialized db .eventStore).rows,
      r ∉ (db .eventStore).rows → r.streamSupport = 0

/-! ## The flags of a row -/

theorem processEventForStreamMode_batchSupport (event : EventWrapper) (b : Bool)
    (data : EventRow) :
    (processEventForStreamMode env event b data).batchSupport =
      if !event.attachments.isEmpty && b then 1 else data.batchSupport := by
  unfold processEventForStreamMode
  cases event.attachments.isEmpty <;> cases b <;> rfl

theorem getTopicedEventData_batchSupport (event : EventWrapper) (strTopic : String)
    (data : EventRow) :
    (getTopicedEventData pMode event strTopic data).batchSupport =
      if !(pMode.isStreamModeSupported && event.attachments.isEmpty) &&
        pMode.isBatchModeSupported then 1 else data.batchSupport := by
  unfold getTopicedEventData
  cases pMode.isStreamModeSupported <;> cases event.attachments.isEmpty <;>
    cases pMode.isBatchModeSupported <;> rfl

theorem modeRow_batchSupport (event : EventWrapper) {data : EventRow}
    (hdata : data.batchSupport = 0) :
    (modeRow env pMode event data).batchSupport =
      if pMode.isEventSupportedForBatch event.strEventId ||
        (pMode.isEventSupportedForStream event.strEventId && !event.attachments.isEmpty &&
          pMode.isBatchModeSupported) then 1 else 0 := by
  unfold modeRow
  cases pMode.isEventSupportedForBatch event.strEventId with
  | true => rfl
  | false =>
    cases pMode.isEventSupportedForStream event.strEventId with
    | false => exact hdata
    | true =>
      simp only [Bool.false_eq_true, if_false, if_true, Bool.false_or, Bool.true_and]
      rw [processEventForStreamMode_batchSupport, hdata]

/-- The modes of the event id alone give the row a flag iff there is such a mode. -/
theorem flagged_modeRow_iff {pMode : UploadMode} (hwf : pMode.WellFormed) (event : EventWrapper)
    {data : EventRow} (hstream : data.streamSupport = 0) (hbatch : data.batchSupport = 0) :
    Flagged pMode (modeRow env pMode event data) ↔
      pMode.isEventSupportedForStream event.strEventId = true ∨
        pMode.isEventSupportedForBatch event.strEventId = true := by
  -- a mode of the event is a mode of the client
  have hle : (pMode.eventMode event.strEventId).Le pMode.configuredModes := by
    unfold UploadMode.eventMode
    cases hmap : pMode.mapEventModeMap event.strEventId with
    | none => exact hwf.default
    | some modes => exact hwf.events _ _ hmap
  have hs : pMode.isEventSupportedForStream event.strEventId = true →
      pMode.isStreamModeSupported = true := hle.1
  have hb : pMode.isEventSupportedForBatch event.strEventId = true →
      pMode.isBatchModeSupported = true := hle.2
  unfold Flagged
  rw [modeRow_streamSupport env pMode event hstream, modeRow_batchSupport env pMode event hbatch]
  cases hes : pMode.isEventSupportedForStream event.strEventId <;>
    cases heb : pMode.isEventSupportedForBatch event.strEventId <;>
    cases event.attachments.isEmpty <;> cases hB : pMode.isBatchModeSupported <;>
    simp_all

/-- The row of an event is flagged iff a mode of its id or of its topic takes it. -/
theorem flagged_supportedRow_iff {pMode : UploadMode} (hwf : pMode.WellFormed)
    (event : EventWrapper) {data : EventRow} (hstream : data.streamSupport = 0)
    (hbatch : data.batchSupport = 0) :
    Flagged pMode (supportedRow env pMode event data).2 ↔
      pMode.isEventSupportedForStream event.strEventId = true ∨
        pMode.isEventSupportedForBatch event.strEventId = true ∨
        event.topic ≠ none ∧ (pMode.isBatchModeSupported = true ∨
          pMode.isStreamModeSupported = true ∧ event.attachments = []) := by
  rw [supportedRow_eq]
  have hmode := flagged_modeRow_iff env hwf event hstream hbatch
  cases htopic : event.topic with
  | none =>
    rw [hmode]
    simp
  | some strTopic =>
    unfold Flagged at hmode ⊢
    simp only [getTopicedEventData_streamSupport, getTopicedEventData_batchSupport]
    rw [← or_assoc, ← hmode, ← List.isEmpty_iff]
    cases pMode.isStreamModeSupported <;> cases event.attachments.isEmpty <;>
      cases pMode.isBatchModeSupported <;> simp

/-- With batch upload supported, attachments keep a row from the stream. -/
theorem streamSupport_supportedRow {event : EventWrapper} {data : EventRow}
    (hdata : data.streamSupport = 0) (hattach : event.attachments ≠ [])
    (hbatch : pMode.isBatchModeSupported = true) :
    (supportedRow env pMode event data).2.streamSupport = 0 := by
  have hsome : event.attachments.isEmpty = false := by
    rw [← Bool.not_eq_true, List.isEmpty_iff]
    exact hattach
  have hmode : (modeRow env pMode event data).streamSupport = 0 := by
    rw [modeRow_streamSupport env pMode event hdata, hsome, hbatch]
    simp
  rw [supportedRow_eq]
  cases event.topic with
  | none => exact hmode
  | some strTopic =>
    show (getTopicedEventData pMode event strTopic (modeRow env pMode event data)).streamSupport = 0
    rw [getTopicedEventData_streamSupport, hsome, hmode]
    simp

/-! ## The tables -/

theorem insertEvent_alert {event : EventWrapper} {rstrSerialized : String} {db : Db}
    (halert : isStoredAsAlert env pMode event = true) :
    insertEvent env pMode event rstrSerialized db =
      db.insert .alertStore (eventColumns env event rstrSerialized) := by
  unfold insertEvent
  exact if_pos halert

/-- An event that no mode supports and that has no topic is not stored. -/
theorem insertEvent_event {event : EventWrapper} {rstrSerialized : String} {db : Db}
    (halert : isStoredAsAlert env pMode event = false) :
    insertEvent env pMode event rstrSerialized db =
      if (supportedRow env pMode event (eventColumns env event rstrSerialized)).1 then
        db.insert .eventStore (supportedRow env pMode event (eventColumns env event rstrSerialized)).2
      else db := by
  unfold insertEvent
  exact if_neg (Bool.eq_false_iff.1 halert)

theorem supportedRow_stored (event : EventWrapper) (data : EventRow) :
    (supportedRow env pMode event data).1 = true ↔
      pMode.isEventSupportedForStream event.strEventId = true ∨
        pMode.isEventSupportedForBatch event.strEventId = true ∨ event.topic ≠ none := by
  unfold supportedRow
  cases event.topic with
  | none => simp
  | some strTopic => simp

/-- The key of a new row is a new one. -/
theorem not_mem_of_nextKey {db : Db} {t : StoreTable} {data : EventRow} :
    { data with id := (db t).nextKey } ∉ (db t).rows := by
  intro hmem
  exact absurd ((db t).below _ hmem) (lt_irrefl _)

section

variable {env pMode} {event : EventWrapper} {rstrSerialized : String} {db : Db}

/-- An alert leaves the event table as it is. -/
theorem routed_of_alert (halert : isStoredAsAlert env pMode event = true) :
    Routed env pMode event rstrSerialized db := by
  have htables := @insertEvent_alert env pMode event rstrSerialized db halert
  have hkept : insertEvent env pMode event rstrSerialized db .eventStore = db .eventStore := by
    rw [htables]
    exact Function.update_of_ne (by decide) _ _
  refine ⟨fun _ _ => ⟨hkept, ?_⟩, fun r hr hnew => ?_, fun _ _ r hr hnew => ?_⟩
  · rw [htables]
    unfold Db.insert
    rw [Function.update_self]
    rfl
  · rw [hkept] at hr
    exact absurd hr hnew
  · rw [hkept] at hr
    exact absurd hr hnew

/-- The one new row of the event table, where the event is no alert. -/
theorem new_row_iff (halert : isStoredAsAlert env pMode event = false) {r : EventRow} :
    (r ∈ (insertEvent env pMode event rstrSerialized db .eventStore).rows ∧
        r ∉ (db .eventStore).rows) ↔
      (supportedRow env pMode event (eventColumns env event rstrSerialized)).1 = true ∧
        r = { (supportedRow env pMode event (eventColumns env event rstrSerialized)).2 with
          id := (db .eventStore).nextKey } := by
  rw [insertEvent_event env pMode halert]
  cases hstored : (supportedRow env pMode event (eventColumns env event rstrSerialized)).1 with
  | false =>
    rw [if_neg Bool.false_ne_true]
    exact ⟨fun hboth => absurd hboth.1 hboth.2, fun hboth => absurd hboth.1 (by decide)⟩
  | true =>
    rw [if_pos rfl]
    unfold Db.insert
    rw [Function.update_self, Lib.Table.mem_insert]
    constructor
    · rintro ⟨hold | hrow, hnew⟩
      · exact absurd hold hnew
      · exact ⟨rfl, hrow⟩
    · rintro ⟨_, rfl⟩
      exact ⟨Or.inr rfl, not_mem_of_nextKey⟩

theorem isBatchModeSupported_of_event (hwf : pMode.WellFormed)
    (hevent : pMode.isEventSupportedForBatch event.strEventId = true) :
    pMode.isBatchModeSupported = true := by
  unfold UploadMode.isEventSupportedForBatch UploadMode.eventMode at hevent
  cases hmap : pMode.mapEventModeMap event.strEventId with
  | none =>
    rw [hmap] at hevent
    exact hwf.default.2 hevent
  | some modes =>
    rw [hmap] at hevent
    exact (hwf.events _ _ hmap).2 hevent

/-- An event that is no alert is routed iff its row, if there is one, has a flag. -/
theorem routed_iff_flagged (halert : isStoredAsAlert env pMode event = false) :
    Routed env pMode event rstrSerialized db ↔
      ((supportedRow env pMode event (eventColumns env event rstrSerialized)).1 = true →
        Flagged pMode (supportedRow env pMode event (eventColumns env event rstrSerialized)).2) := by
  constructor
  · intro hrouted hstored
    have hnew := (@new_row_iff env pMode event rstrSerialized db halert _).2 ⟨hstored, rfl⟩
    have hflag := hrouted.flagged _ hnew.1 hnew.2
    exact hflag
  · intro hflag
    refine ⟨fun hs ha => ?_, fun r hr hnew => ?_, fun hattach hB r hr hnew => ?_⟩
    · unfold isStoredAsAlert at halert
      rw [hs, ha] at halert
      exact absurd halert (by decide)
    · rcases (new_row_iff halert).1 ⟨hr, hnew⟩ with ⟨hstored, rfl⟩
      exact hflag hstored
    · rcases (new_row_iff halert).1 ⟨hr, hnew⟩ with ⟨_, rfl⟩
      exact streamSupport_supportedRow env pMode rfl hattach hB

end

end

/-- With the modes of any configuration an event is routed iff it has no topic, is
an alert, has a mode of its own, or is taken because of its topic: by the batch
upload, or by the stream upload if it has no attachments. -/
theorem routed_iff (env : InsertEnv) (config : Option UploadConfig) (event : EventWrapper)
    (rstrSerialized : String) (db : Db) :
    Routed env (UploadMode.init config) event rstrSerialized db ↔
      event.topic = none ∨ isStoredAsAlert env (UploadMode.init config) event = true ∨
        (UploadMode.init config).isEventSupportedForStream event.strEventId = true ∨
        (UploadMode.init config).isBatchModeSupported = true ∨
        (UploadMode.init config).isStreamModeSupported = true ∧ event.attachments = [] := by
  have hwf := UploadMode.wellFormed_init config
  generalize UploadMode.init config = pMode at hwf ⊢
  cases halert : isStoredAsAlert env pMode event with
  | true => exact iff_of_true (routed_of_alert halert) (Or.inr (Or.inl rfl))
  | false =>
    rw [routed_iff_flagged halert, supportedRow_stored, flagged_supportedRow_iff env hwf event rfl rfl]
    constructor
    · intro hflag
      by_contra hno
      push Not at hno
      rcases hno with ⟨htopic, _, hstream, hB, hboth⟩
      -- the event has a topic, so it is stored, and its row is not flagged
      rcases hflag (Or.inr (Or.inr htopic)) with hs | hb | ⟨_, hB' | ⟨hS, hattach⟩⟩
      · exact hstream hs
      · exact hB (isBatchModeSupported_of_event hwf hb)
      · exact hB hB'
      · exact hboth hS hattach
    · rintro hcases (hs | hb | htopic)
      · exact Or.inl hs
      · exact Or.inr (Or.inl hb)
      · rcases hcases with hnone | hfalse | hs | hB | hboth
        · exact absurd hnone htopic
        · exact absurd hfalse (by decide)
        · exact Or.inl hs
        · exact Or.inr (Or.inr ⟨htopic, Or.inl hB⟩)
        · exact Or.inr (Or.inr ⟨htopic, Or.inr hboth⟩)

/-- The stream upload alone, and no mode for events without their own. -/
def streamNoneConfig : UploadConfig := ⟨some ["stream"], some ⟨some "none", fun _ => []⟩⟩

/-- An event with a topic and an attachment is stored with neither flag. -/
theorem not_routed_of_attachment :
    ¬ Routed ⟨fun s => s, fun _ _ _ => "", fun _ => false⟩ (UploadMode.init (some streamNoneConfig))
      ⟨"CrashReport", 1700000000000, 0, ["crash.jpg"], some "crash"⟩ "\x7b\x7d"
      (fun _ => Lib.Table.empty) := by
  intro hrouted
  have hflag := hrouted.flagged
    { id := 1, eventId := "CrashReport", timestamp := some 1700000000000, timezone := 0, size := 2,
      hasAttach := 1, events := "\x7b\x7d", topic := some "crash", mid := 0, streamSupport := 0,
      batchSupport := 0 } (by decide) (by decide)
  unfold Flagged at hflag
  exact absurd hflag (by decide)

end DeviceClient
