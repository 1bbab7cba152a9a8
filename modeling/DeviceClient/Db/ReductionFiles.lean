import DeviceClient.Db.GranularityExemption
import DeviceClient.Db.ReductionRun

/-!
# Attachment files under granularity reduction

A turn of a policy picks rows, deletes them by their ids and then deletes the
attachment files that their events name. The deletion of the rows keeps those
that wait for the other upload mode; the deletion of the files does not ask.

* `ReductionStep`: what changes the store in a run; `reductionSteps`: the steps
  of a run.
* `Unreferenced`: no row names a deleted file.
* `FilesOwned`: every row that names a file of a picked row is picked and goes.
* `unreferenced_iff_filesOwned`: all states of a run are the one iff all its
  steps meet the other.
-/

namespace DeviceClient

namespace GranularityReduction

/-! ## Rows and files -/

/-- The event of the row names the file. -/
def References (h : GRHandler) (r : GranularRow) (f : String) : Prop :=
  f ∈ attachmentPaths h (h.decryptEventData r.events)

/-- No row in the table names a deleted file. -/
def Unreferenced (h : GRHandler) (s : GRStore) : Prop :=
  ∀ f ∈ s.removedFiles, ∀ r ∈ s.table.rows, ¬ References h r f

/-! ## The steps of a run -/

/-- A change of the store: one event id of a policy, the update of the level at
its end, or the default purge. -/
inductive ReductionStep where
  | alternate (strEventId : String) (llStartTime llEndTime : ℤ) (llLastGRedId : ℕ)
  | repeatedTrigger (strPreTrigEventId : String) (llStartTime llEndTime : ℤ)
  | postFiles (llStartTime llEndTime : ℤ)
  | level (llStartTime llEndTime : ℤ) (stPolicy : GRPolicy)
  | purge (stDefPolicy : DefaultGRPolicy) (sizes : DBSizes)

/-- The deletions of `RemoveTriggerEventPostFilesPolicyHandler`. -/
def postFilesTurn (h : GRHandler) (llStartTime llEndTime : ℤ) (s : GRStore) : GRStore :=
  let vecPostTrigEvntsToDelete :=
    (populatePostTriggerEvents h dbEventQueryLimit s.table llStartTime
      llEndTime).vecPostTrigEvntsToDelete
  s.delete h (vecPostTrigEvntsToDelete.map fun r => (r.id : ℤ))
    (vecPostTrigEvntsToDelete.flatMap fun r => attachmentsToDelete h r.events)

/-- The store that the default purge leaves. -/
def purgedStore (res : GRStore × Option DBOverLimit) : GRStore := res.1

theorem purgedStore_eq (res : GRStore × Option DBOverLimit) : purgedStore res = res.1 := by
  cases res
  rfl

/-- The store after a step. -/
def reductionStep (h : GRHandler) (s : GRStore) : ReductionStep → GRStore
  | .alternate strEventId llStartTime llEndTime llLastGRedId =>
    alternateTurn h llStartTime llEndTime llLastGRedId s strEventId
  | .repeatedTrigger strPreTrigEventId llStartTime llEndTime =>
    repeatedTriggerTurn h llStartTime llEndTime s strPreTrigEventId
  | .postFiles llStartTime llEndTime => postFilesTurn h llStartTime llEndTime s
  | .level llStartTime llEndTime stPolicy =>
    { s with table := updateGRLevel llStartTime llEndTime stPolicy s.table }
  | .purge stDefPolicy sizes => purgedStore (defaultPolicyHandler h stDefPolicy sizes s)

/-- The steps as a machine that takes each of them. -/
def reductionNext (h : GRHandler) (s : GRStore) (a : ReductionStep) : Option GRStore :=
  some (reductionStep h s a)

/-- The steps of the alternate policy on a table. -/
def alternateSteps (llStartTime llEndTime : ℤ) (stPolicy : GRPolicy) (llLastGRedId : ℕ)
    (t : GranularTable) : List ReductionStep :=
  ((uniqueEventIds (t.rows.filter (steadyStateSelection llStartTime llEndTime
    stPolicy.strExemptedEvents))).elems.map fun e =>
      .alternate e llStartTime llEndTime llLastGRedId) ++ [.level llStartTime llEndTime stPolicy]

/-- The steps of the policy for repeated triggers on a table. -/
def repeatedTriggerSteps (h : GRHandler) (llStartTime llEndTime : ℤ) (stPolicy : GRPolicy)
    (t : GranularTable) : List ReductionStep :=
  ((uniqueEventIds (t.rows.filter (preTriggerSelection llStartTime llEndTime
    h.strPreTrgrEventIdSuffix stPolicy.strExemptedEvents))).elems.map fun e =>
      .repeatedTrigger e llStartTime llEndTime) ++ [.level llStartTime llEndTime stPolicy]

/-- The steps of a policy; none of an unsupported one. -/
def policySteps (h : GRHandler) (run : GRRun) (stPolicy : GRPolicy) (s : GRState) :
    List ReductionStep :=
  if stPolicy.strName = policyRemoveAlternateSimilarEvent then
    if s.bIsRemoveAlternateSimilarEventPerformed then
      alternateSteps 0 run.llEndTime stPolicy 0 s.store.table
    else alternateSteps run.llStartTime run.llEndTime stPolicy run.llStartId s.store.table
  else if stPolicy.strName = policyRemoveRepeatedTriggerEventsLeaveFirstAndLast then
    repeatedTriggerSteps h 0 run.llEndTime stPolicy s.store.table
  else if stPolicy.strName = policyRemoveTriggerEventPostFiles then
    [.postFiles 0 run.llEndTime, .level 0 run.llEndTime stPolicy]
  else []

/-- The steps of the loop over the policies and of what follows it. -/
def loopSteps (h : GRHandler) (stDefPolicy : DefaultGRPolicy) (sizes : DBSizes) (run : GRRun) :
    GRState → List (GRPolicy × ℕ) → List ReductionStep
  | s, [] => if s.bIsGRSuccess then [] else [.purge stDefPolicy sizes]
  | s, turn :: turns =>
    match policyTurn h run s turn with
    -- left on a gain
    | none => []
    | some s' => policySteps h run turn.1 s ++ loopSteps h stDefPolicy sizes run s' turns

/-- The steps of `PerformGranularityReduction`. -/
def reductionSteps (h : GRHandler) (stDefPolicy : DefaultGRPolicy)
    (stLastGrRecord : LastGRPerformedRecord) (llEndTime : ℤ) (unDBSizeBefGR : ℕ) (sizes : DBSizes)
    (store : GRStore) (turns : List (GRPolicy × ℕ)) : List ReductionStep :=
  loopSteps h stDefPolicy sizes (startRun stLastGrRecord llEndTime unDBSizeBefGR)
    ⟨store, stLastGrRecord, false, false⟩ turns

/-! ## What a step picks -/

/-- The row is among those that the statements of the step select. -/
def Picked (h : GRHandler) (t : GranularTable) (r : GranularRow) : ReductionStep → Prop
  | .alternate strEventId llStartTime llEndTime llLastGRedId =>
    r.eventId = strEventId ∧ ∃ k, Even k ∧ Lib.StandsAt isSessionMarker
      (sessionRows t strEventId llStartTime llEndTime llLastGRedId) r k
  | .repeatedTrigger strPreTrigEventId llStartTime llEndTime =>
    ∃ d ∈ (populateTriggerEventsList h dbEventQueryLimit t strPreTrigEventId llStartTime
      llEndTime).toDelete, (r.id : ℤ) ∈ trigEventIds d
  | .postFiles llStartTime llEndTime =>
    postTriggerSelection llStartTime llEndTime h.strPostTrgrEventIdSuffix r = true ∧ 0 < r.id
  | .level .. => False
  | .purge stDefPolicy _ =>
    0 < rowsToDelete stDefPolicy t ∧ purgeSelection (rowsToDelete stDefPolicy t) t r = true

/-- The files that the step takes from the event of a picked row. -/
def filesOf (h : GRHandler) (r : GranularRow) : ReductionStep → List String
  | .alternate .. => attachmentsFromEventRecord h r
  | .repeatedTrigger .. => attachmentsToDelete h r.events
  | .postFiles .. => attachmentsToDelete h r.events
  | .level .. => []
  | .purge .. => if r.hasAttach = 1 then attachmentsToDelete h r.events else []

/-- A picked row goes unless it waits for the other mode; the purge takes all. -/
def Goes (h : GRHandler) (r : GranularRow) : ReductionStep → Prop
  | .purge .. => True
  | _ => deletable h r = true

/-- Every row that names a file of a picked row is picked too and goes. -/
def FilesOwned (h : GRHandler) (s : GRStore) (a : ReductionStep) : Prop :=
  ∀ x ∈ s.table.rows, Picked h s.table x a → ∀ f ∈ filesOf h x a,
    ∀ r ∈ s.table.rows, References h r f → Picked h s.table r a ∧ Goes h r a

/-! ## One step -/

/-- What a step does: the files of the rows picked are deleted, and the rows that
are left have the events of the rows that do not go. -/
structure Collects (h : GRHandler) (s s' : GRStore) (a : ReductionStep) : Prop where
  files : ∀ f, f ∈ s'.removedFiles ↔
    f ∈ s.removedFiles ∨ ∃ x ∈ s.table.rows, Picked h s.table x a ∧ f ∈ filesOf h x a
  old : ∀ r' ∈ s'.table.rows, ∃ r ∈ s.table.rows, r'.events = r.events ∧
    ¬ (Picked h s.table r a ∧ Goes h r a)
  kept : ∀ r ∈ s.table.rows, ¬ (Picked h s.table r a ∧ Goes h r a) →
    ∃ r' ∈ s'.table.rows, r'.events = r.events

section Step

variable {h : GRHandler}

theorem references_congr {r r' : GranularRow} (hevents : r'.events = r.events) (f : String) :
    References h r' f ↔ References h r f := by
  unfold References
  rw [hevents]

/-- A step that meets its description keeps the files unreferenced iff it owns them. -/
theorem Collects.unreferenced_iff {s s' : GRStore} {a : ReductionStep} (hcol : Collects h s s' a)
    (hs : Unreferenced h s) : Unreferenced h s' ↔ FilesOwned h s a := by
  constructor
  · intro hs' x hx hpick f hf r hr href
    by_contra hstay
    rcases hcol.kept r hr hstay with ⟨r', hr', hevents⟩
    exact hs' f ((hcol.files f).2 (Or.inr ⟨x, hx, hpick, hf⟩)) r' hr'
      ((references_congr hevents f).2 href)
  · intro hown f hf r' hr' href
    rcases hcol.old r' hr' with ⟨r, hr, hevents, hstay⟩
    rw [references_congr hevents] at href
    rcases (hcol.files f).1 hf with hold | ⟨x, hx, hpick, hfile⟩
    · exact hs f hold r hr href
    · exact hstay (hown x hx hpick f hfile r hr href)

/-- A deletion leaves a field as it is if the mark does. -/
theorem field_of_mem_delete {α : Type} (field : GranularRow → α)
    (hmark : ∀ mode x, field (markEventsAsUploaded mode x) = field x) {t : GranularTable}
    {rsetIds : List ℤ} {r r' : GranularRow} (hr : r ∈ t.rows)
    (hr' : r' ∈ (deleteEventsFromDB h t rsetIds).rows) (hid : r.id = r'.id) :
    field r' = field r := by
  -- the row it was before is the row with its id
  have hsame : ∀ x ∈ t.rows, x.id = r'.id → field x = field r := by
    intro x hx hxid
    rw [t.eq_of_key_eq hx hr (hxid.trans hid.symm)]
  unfold deleteEventsFromDB at hr'
  split at hr'
  · exact hsame r' hr' rfl
  · split at hr'
    · rcases Lib.Table.mem_update.1 hr' with ⟨x, hx, hxr⟩
      have hxt := (Lib.Table.mem_remove.1 hx).1
      split at hxr
      · rw [← hxr, hmark]
        refine hsame x hxt ?_
        rw [← hxr]
        exact (key_markEventsAsUploaded _ x).symm
      · exact hxr ▸ hsame x hxt (by rw [hxr])
    · exact hsame r' (Lib.Table.mem_remove.1 hr').1 rfl

theorem events_of_mem_delete {t : GranularTable} {rsetIds : List ℤ} {r r' : GranularRow}
    (hr : r ∈ t.rows) (hr' : r' ∈ (deleteEventsFromDB h t rsetIds).rows) (hid : r.id = r'.id) :
    r'.events = r.events := by
  refine field_of_mem_delete (fun x => x.events) (fun mode x => ?_) hr hr' hid
  cases mode
  · rfl
  · rfl
  · rfl

/-- A turn of a policy that lists the ids and the files of the rows it picks. -/
theorem collects_delete {s : GRStore} {a : ReductionStep} {ids : List ℤ} {files : List String}
    (hgoes : ∀ r, Goes h r a ↔ deletable h r = true)
    (hids : ∀ r ∈ s.table.rows, (r.id : ℤ) ∈ ids ↔ Picked h s.table r a)
    (hfiles : ∀ f, f ∈ files ↔
      ∃ x ∈ s.table.rows, Picked h s.table x a ∧ f ∈ filesOf h x a) :
    Collects h s (s.delete h ids files) a where
  files := by
    intro f
    show f ∈ s.removedFiles ++ files ↔ _
    rw [List.mem_append, hfiles]
  old := by
    intro r' hr'
    rcases exists_sameEvent_of_mem_delete hr' with ⟨r, hr, hsame, hnot⟩
    refine ⟨r, hr, events_of_mem_delete hr hr' hsame.id.symm, ?_⟩
    rwa [← hids r hr, hgoes]
  kept := by
    intro r hr hnot
    rw [← hids r hr, hgoes] at hnot
    rcases exists_sameEvent_of_not_deleted hr hnot with ⟨r', hr', hsame⟩
    exact ⟨r', hr', events_of_mem_delete hr hr' hsame.id.symm⟩

/-- The rows that one pass of the alternate policy picks. -/
theorem AlternateEvents.exists_picked (rows : List GranularRow) (s : AlternateEvents) :
    ∃ picked : List GranularRow, (∀ r ∈ picked, r ∈ rows) ∧
      (rows.foldl (AlternateEvents.visit h) s).setDeleteEvntIds =
        s.setDeleteEvntIds ++ picked.map (fun r => (r.id : ℤ)) ∧
      (rows.foldl (AlternateEvents.visit h) s).setDeleteFileList =
        s.setDeleteFileList ++ picked.flatMap (attachmentsFromEventRecord h) := by
  induction rows generalizing s with
  | nil => exact ⟨[], fun r hr => hr, by simp, by simp⟩
  | cons x rows ih =>
    rcases ih (s.visit h x) with ⟨picked, hsub, hids, hfiles⟩
    have hsub' : ∀ r ∈ picked, r ∈ x :: rows := fun r hr => List.mem_cons_of_mem _ (hsub r hr)
    rw [List.foldl_cons, hids, hfiles]
    unfold AlternateEvents.visit
    split
    · exact ⟨picked, hsub', rfl, rfl⟩
    · split
      · refine ⟨x :: picked, ?_, by simp, by simp⟩
        intro r hr
        rcases List.mem_cons.1 hr with rfl | hr
        · exact List.mem_cons_self
        · exact hsub' r hr
      · exact ⟨picked, hsub', rfl, rfl⟩

/-- A turn lists the ids of the rows it picks. -/
theorem mem_setDeleteEvntIds_iff_picked {t : GranularTable} {e : String}
    {llStartTime llEndTime : ℤ} {llLastGRedId : ℕ} {r : GranularRow} (hr : r ∈ t.rows) :
    (r.id : ℤ) ∈ (populateEventsList h dbEventQueryLimit t e llStartTime llEndTime
        llLastGRedId).setDeleteEvntIds ↔
      Picked h t r (.alternate e llStartTime llEndTime llLastGRedId) := by
  rw [mem_setDeleteEvntIds]
  constructor
  · rintro ⟨x, k, hxid, hxe, heven, hat⟩
    have hxr : x = r := t.eq_of_key_eq (mem_sessionRows.1 hat.mem).1 hr (by
      show x.id = r.id
      exact_mod_cast hxid)
    rw [hxr] at hxe hat
    exact ⟨hxe, k, heven, hat⟩
  · rintro ⟨hre, k, heven, hat⟩
    exact ⟨r, k, rfl, hre, heven, hat⟩

theorem collects_alternate (s : GRStore) (e : String) (llStartTime llEndTime : ℤ)
    (llLastGRedId : ℕ) :
    Collects h s (alternateTurn h llStartTime llEndTime llLastGRedId s e)
      (.alternate e llStartTime llEndTime llLastGRedId) := by
  have hids : ∀ r ∈ s.table.rows, (r.id : ℤ) ∈ (populateEventsList h dbEventQueryLimit s.table e
      llStartTime llEndTime llLastGRedId).setDeleteEvntIds ↔
      Picked h s.table r (.alternate e llStartTime llEndTime llLastGRedId) :=
    fun r hr => mem_setDeleteEvntIds_iff_picked hr
  refine collects_delete (fun r => Iff.rfl) hids fun f => ?_
  rcases AlternateEvents.exists_picked (h := h)
    (sessionRows s.table e llStartTime llEndTime llLastGRedId) (.init llLastGRedId) with
    ⟨picked, hsub, hpick, hfiles⟩
  rw [← populateEventsList_eq h dbEventQueryLimit, AlternateEvents.init, List.nil_append] at hpick
  rw [← populateEventsList_eq h dbEventQueryLimit, AlternateEvents.init, List.nil_append] at hfiles
  rw [hfiles, List.mem_flatMap]
  constructor
  · rintro ⟨x, hx, hf⟩
    have hrow := (mem_sessionRows.1 (hsub x hx)).1
    refine ⟨x, hrow, (hids x hrow).1 ?_, hf⟩
    rw [hpick]
    exact List.mem_map.2 ⟨x, hx, rfl⟩
  · rintro ⟨x, hx, hpicked, hf⟩
    rw [← hids x hx, hpick, List.mem_map] at hpicked
    rcases hpicked with ⟨y, hy, hyid⟩
    have hyx : y = x := s.table.eq_of_key_eq (mem_sessionRows.1 (hsub y hy)).1 hx (by
      show y.id = x.id
      exact_mod_cast hyid)
    exact ⟨x, hyx ▸ hy, hf⟩

/-- The files of a trigger are those of its rows. -/
theorem mem_trigEventFiles_of {r : GranularRow} {o : Option GranularRow} {f : String} :
    f ∈ trigEventFiles h (.of r o) ↔
      f ∈ attachmentsToDelete h r.events ∨
        ∃ q, o = some q ∧ f ∈ attachmentsToDelete h q.events := by
  cases o with
  | none => simp [trigEventFiles, TrigEventDetails.of]
  | some q =>
    have hne : (q.id : ℤ) ≠ -1 := by omega
    simp [trigEventFiles, TrigEventDetails.of, hne]

theorem collects_repeatedTrigger (s : GRStore) (e : String) (llStartTime llEndTime : ℤ) :
    Collects h s (repeatedTriggerTurn h llStartTime llEndTime s e)
      (.repeatedTrigger e llStartTime llEndTime) := by
  refine collects_delete (fun r => Iff.rfl) (fun r hr => List.mem_flatMap) fun f => ?_
  rw [List.mem_flatMap]
  constructor
  · rintro ⟨d, hd, hf⟩
    rcases madeOf_of_mem_toDelete hd with ⟨r, o, hmade, rfl⟩
    rcases mem_trigEventFiles_of.1 hf with hf | ⟨q, hq, hf⟩
    · exact ⟨r, List.mem_of_mem_filter hmade.pre, ⟨_, hd, mem_trigEventIds_of.2 (Or.inl rfl)⟩, hf⟩
    · exact ⟨q, List.mem_of_mem_filter (hmade.post q hq),
        ⟨_, hd, mem_trigEventIds_of.2 (Or.inr ⟨q, hq, rfl⟩)⟩, hf⟩
  · rintro ⟨x, hx, ⟨d, hd, hid⟩, hf⟩
    refine ⟨d, hd, ?_⟩
    rcases madeOf_of_mem_toDelete hd with ⟨r, o, hmade, rfl⟩
    -- the ids of a trigger are those of its rows, too
    rcases mem_trigEventIds_of.1 hid with hrid | ⟨q, hq, hqid⟩
    · have hrx : r = x := s.table.eq_of_key_eq (List.mem_of_mem_filter hmade.pre) hx (by
        show r.id = x.id
        exact_mod_cast hrid)
      rw [← hrx] at hf
      exact mem_trigEventFiles_of.2 (Or.inl hf)
    · have hqx : q = x := s.table.eq_of_key_eq (List.mem_of_mem_filter (hmade.post q hq)) hx (by
        show q.id = x.id
        exact_mod_cast hqid)
      rw [← hqx] at hf
      exact mem_trigEventFiles_of.2 (Or.inr ⟨q, hq, hf⟩)

theorem collects_postFiles (s : GRStore) (llStartTime llEndTime : ℤ) :
    Collects h s (postFilesTurn h llStartTime llEndTime s) (.postFiles llStartTime llEndTime) := by
  have hmem : ∀ x, x ∈ (populatePostTriggerEvents h dbEventQueryLimit s.table llStartTime
      llEndTime).vecPostTrigEvntsToDelete ↔
      x ∈ s.table.rows ∧ Picked h s.table x (.postFiles llStartTime llEndTime) := by
    intro x
    rw [populatePostTriggerEvents_eq, List.mem_filter, List.mem_filter, decide_eq_true_eq,
      and_assoc]
    rfl
  refine collects_delete (fun r => Iff.rfl) (fun r hr => ?_) fun f => ?_
  · rw [List.mem_map]
    constructor
    · rintro ⟨x, hx, hxid⟩
      rw [hmem] at hx
      have hxr : x = r := s.table.eq_of_key_eq hx.1 hr (by
        show x.id = r.id
        exact_mod_cast hxid)
      exact hxr ▸ hx.2
    · exact fun hpick => ⟨r, (hmem r).2 ⟨hr, hpick⟩, rfl⟩
  · rw [List.mem_flatMap]
    constructor
    · rintro ⟨x, hx, hf⟩
      rw [hmem] at hx
      exact ⟨x, hx.1, hx.2, hf⟩
    · rintro ⟨x, hx, hpick, hf⟩
      exact ⟨x, (hmem x).2 ⟨hx, hpick⟩, hf⟩

theorem mem_updateGRLevel {llStartTime llEndTime : ℤ} {stPolicy : GRPolicy} {t : GranularTable}
    {r : GranularRow} :
    r ∈ (updateGRLevel llStartTime llEndTime stPolicy t).rows ↔
      ∃ x ∈ t.rows, (if (inTimeRange llStartTime llEndTime x &&
        notExempted stPolicy.strExemptedEvents x) = true then x.setGranularity stPolicy.nGranLevel
        else x) = r := by
  unfold updateGRLevel
  rw [Lib.Table.mem_update]

theorem collects_level (s : GRStore) (llStartTime llEndTime : ℤ) (stPolicy : GRPolicy) :
    Collects h s { s with table := updateGRLevel llStartTime llEndTime stPolicy s.table }
      (.level llStartTime llEndTime stPolicy) where
  files := by
    intro f
    refine ⟨Or.inl, ?_⟩
    rintro (hf | ⟨x, _, hpick, _⟩)
    · exact hf
    · exact absurd hpick id
  old := by
    intro r' hr'
    rcases mem_updateGRLevel.1 hr' with ⟨r, hr, rfl⟩
    refine ⟨r, hr, ?_, fun hboth => hboth.1⟩
    split
    · rfl
    · rfl
  kept := by
    intro r hr _
    refine ⟨_, mem_updateGRLevel.2 ⟨r, hr, rfl⟩, ?_⟩
    split
    · rfl
    · rfl

theorem collects_purge (s : GRStore) (stDefPolicy : DefaultGRPolicy) (sizes : DBSizes) :
    Collects h s (defaultPolicyHandler h stDefPolicy sizes s).1 (.purge stDefPolicy sizes) := by
  by_cases hpos : 0 < rowsToDelete stDefPolicy s.table
  · have hgone : ∀ r, (Picked h s.table r (.purge stDefPolicy sizes) ∧
        Goes h r (.purge stDefPolicy sizes)) ↔
        purgeSelection (rowsToDelete stDefPolicy s.table) s.table r = true := by
      intro r
      simp only [Picked, Goes, and_true, hpos, true_and]
    refine ⟨fun f => ?_, fun r' hr' => ?_, fun r hr hstay => ?_⟩
    · simp only [defaultPolicyHandler, if_neg (not_le.2 hpos), List.mem_append, List.mem_flatMap,
        List.mem_filter, Bool.and_eq_true, decide_eq_true_eq, Picked, filesOf]
      refine or_congr_right (exists_congr fun x => ?_)
      by_cases hx : x.hasAttach = 1
      · simp [hx, hpos, and_assoc]
      · simp [hx]
    · rw [(defaultPolicyHandler_of_pos hpos).1, Lib.Table.mem_remove] at hr'
      refine ⟨r', hr'.1, rfl, ?_⟩
      rw [hgone, hr'.2]
      decide
    · rw [hgone, Bool.not_eq_true] at hstay
      refine ⟨r, ?_, rfl⟩
      rw [(defaultPolicyHandler_of_pos hpos).1]
      exact Lib.Table.mem_remove.2 ⟨hr, hstay⟩
  · have hsame : (defaultPolicyHandler h stDefPolicy sizes s).1 = s := by
      simp only [defaultPolicyHandler, if_pos (not_lt.1 hpos)]
    rw [hsame]
    refine ⟨fun f => ⟨Or.inl, ?_⟩, fun r hr => ⟨r, hr, rfl, ?_⟩, fun r hr _ => ⟨r, hr, rfl⟩⟩
    · rintro (hf | ⟨x, _, hpick, _⟩)
      · exact hf
      · exact absurd hpick.1 hpos
    · exact fun hboth => hpos hboth.1.1

/-- Every step deletes the files of the rows it picks. -/
theorem collects_reductionStep (s : GRStore) (a : ReductionStep) :
    Collects h s (reductionStep h s a) a := by
  cases a with
  | alternate e llStartTime llEndTime llLastGRedId =>
    exact collects_alternate s e llStartTime llEndTime llLastGRedId
  | repeatedTrigger e llStartTime llEndTime =>
    exact collects_repeatedTrigger s e llStartTime llEndTime
  | postFiles llStartTime llEndTime => exact collects_postFiles s llStartTime llEndTime
  | level llStartTime llEndTime stPolicy =>
    exact collects_level s llStartTime llEndTime stPolicy
  | purge stDefPolicy sizes =>
    simp only [reductionStep, purgedStore_eq]
    exact collects_purge s stDefPolicy sizes

end Step

/-! ## The steps make up the run -/

section Run

variable {h : GRHandler} {run : GRRun}

theorem foldl_alternateSteps (llStartTime llEndTime : ℤ) (stPolicy : GRPolicy) (llLastGRedId : ℕ)
    (s : GRStore) :
    (alternateSteps llStartTime llEndTime stPolicy llLastGRedId s.table).foldl (reductionStep h) s =
      removeAlternateSimilarEvent h llStartTime llEndTime stPolicy llLastGRedId s := by
  unfold alternateSteps
  rw [List.foldl_append, List.foldl_map]
  rfl

theorem foldl_repeatedTriggerSteps (llStartTime llEndTime : ℤ) (stPolicy : GRPolicy)
    (s : GRStore) :
    (repeatedTriggerSteps h llStartTime llEndTime stPolicy s.table).foldl (reductionStep h) s =
      removeRepeatedTriggerEvents h llStartTime llEndTime stPolicy s := by
  unfold repeatedTriggerSteps
  rw [List.foldl_append, List.foldl_map]
  rfl

/-- The steps of a policy are a turn of the loop. -/
theorem foldl_policySteps {s s' : GRState} {turn : GRPolicy × ℕ}
    (hturn : policyTurn h run s turn = some s') :
    (policySteps h run turn.1 s).foldl (reductionStep h) s.store = s'.store := by
  unfold policyTurn performPolicy at hturn
  unfold policySteps
  split at hturn
  · cases hturn
  · by_cases halt : turn.1.strName = policyRemoveAlternateSimilarEvent
    · rw [if_pos halt] at hturn
      rw [if_pos halt]
      cases hturn
      unfold performAlternate
      split
      · exact foldl_alternateSteps _ _ _ _ _
      · exact foldl_alternateSteps _ _ _ _ _
    · rw [if_neg halt] at hturn
      rw [if_neg halt]
      by_cases hrep : turn.1.strName = policyRemoveRepeatedTriggerEventsLeaveFirstAndLast
      · rw [if_pos hrep] at hturn
        rw [if_pos hrep]
        cases hturn
        exact foldl_repeatedTriggerSteps _ _ _ _
      · rw [if_neg hrep] at hturn
        rw [if_neg hrep]
        by_cases hpost : turn.1.strName = policyRemoveTriggerEventPostFiles
        · rw [if_pos hpost] at hturn
          rw [if_pos hpost]
          cases hturn
          rfl
        · rw [if_neg hpost] at hturn
          rw [if_neg hpost]
          cases hturn
          rfl

theorem policyTurn_eq_none {s : GRState} {turn : GRPolicy × ℕ} :
    policyTurn h run s turn = none ↔ s.bIsGRSuccess = true := by
  unfold policyTurn
  split
  · simp [*]
  · rename_i hs
    cases performPolicy h run turn.1 s <;> simp [hs]

theorem state_performPolicies_cons {s s' : GRState} {turn : GRPolicy × ℕ}
    (hturn : policyTurn h run s turn = some s') (turns : List (GRPolicy × ℕ)) :
    (performPolicies h run s (turn :: turns)).state = (performPolicies h run s' turns).state := by
  simp only [performPolicies, hturn]
  split
  · rfl
  · rfl

/-- Without a gain the purge is the last step. -/
theorem foldl_loopSteps_nil (stDefPolicy : DefaultGRPolicy) (sizes : DBSizes) {s : GRState}
    (hs : s.bIsGRSuccess = false) :
    (loopSteps h stDefPolicy sizes run s []).foldl (reductionStep h) s.store =
      purgedStore (defaultPolicyHandler h stDefPolicy sizes s.store) := by
  rw [loopSteps, if_neg (by rw [hs]; decide), List.foldl_cons, List.foldl_nil, reductionStep]

theorem loopSteps_cons (stDefPolicy : DefaultGRPolicy) (sizes : DBSizes) {s s' : GRState}
    {turn : GRPolicy × ℕ} (hturn : policyTurn h run s turn = some s')
    (turns : List (GRPolicy × ℕ)) :
    loopSteps h stDefPolicy sizes run s (turn :: turns) =
      policySteps h run turn.1 s ++ loopSteps h stDefPolicy sizes run s' turns := by
  rw [loopSteps, hturn]

theorem loopSteps_success (stDefPolicy : DefaultGRPolicy) (sizes : DBSizes) {s : GRState}
    (hs : s.bIsGRSuccess = true) (turns : List (GRPolicy × ℕ)) :
    loopSteps h stDefPolicy sizes run s turns = [] := by
  cases turns with
  | nil => rw [loopSteps, if_pos hs]
  | cons turn turns => rw [loopSteps, policyTurn_eq_none.2 hs]

/-- The steps of a run lead to the store that the run leaves. -/
theorem foldl_loopSteps (stDefPolicy : DefaultGRPolicy) (sizes : DBSizes)
    (turns : List (GRPolicy × ℕ)) :
    ∀ s : GRState, (loopSteps h stDefPolicy sizes run s turns).foldl (reductionStep h) s.store =
      if (performPolicies h run s turns).state.bIsGRSuccess then
        (performPolicies h run s turns).state.store
      else purgedStore
        (defaultPolicyHandler h stDefPolicy sizes (performPolicies h run s turns).state.store) := by
  induction turns with
  | nil =>
    intro s
    rw [performPolicies]
    cases hs : s.bIsGRSuccess with
    | true => rw [loopSteps_success _ _ hs, List.foldl_nil, if_pos rfl]
    | false => rw [foldl_loopSteps_nil _ _ hs, if_neg Bool.false_ne_true]
  | cons turn turns ih =>
    intro s
    cases hturn : policyTurn h run s turn with
    | none =>
      have hs := policyTurn_eq_none.1 hturn
      rw [performPolicies_success hs, if_pos hs, loopSteps_success _ _ hs, List.foldl_nil]
    | some s' =>
      rw [state_performPolicies_cons hturn, ← ih s', loopSteps_cons _ _ hturn, List.foldl_append,
        foldl_policySteps hturn]

end Run

/-- The store of a run that a purge ends. -/
theorem store_purged (performed : PoliciesPerformed) (res : GRStore × Option DBOverLimit) :
    (⟨performed, res.1, true, res.2⟩ : ReductionPerformed).store = purgedStore res := by
  cases res
  rfl

theorem store_performGranularityReduction (h : GRHandler) (stDefPolicy : DefaultGRPolicy)
    (stLastGrRecord : LastGRPerformedRecord) (llEndTime : ℤ) (unDBSizeBefGR : ℕ) (sizes : DBSizes)
    (store : GRStore) (turns : List (GRPolicy × ℕ)) {performed : PoliciesPerformed}
    (hperformed : performPolicies h (startRun stLastGrRecord llEndTime unDBSizeBefGR)
      ⟨store, stLastGrRecord, false, false⟩ turns = performed) :
    (performGranularityReduction h stDefPolicy stLastGrRecord llEndTime unDBSizeBefGR sizes
        store turns).store =
      if performed.state.bIsGRSuccess then performed.state.store
      else purgedStore (defaultPolicyHandler h stDefPolicy sizes performed.state.store) := by
  cases hsucc : performed.state.bIsGRSuccess with
  | true =>
    have hrun : performGranularityReduction h stDefPolicy stLastGrRecord llEndTime unDBSizeBefGR
        sizes store turns = ⟨performed, performed.state.store, false, none⟩ := by
      simp only [performGranularityReduction, hperformed, hsucc, if_true]
    rw [hrun, if_pos rfl]
  | false =>
    have hrun : performGranularityReduction h stDefPolicy stLastGrRecord llEndTime unDBSizeBefGR
        sizes store turns =
          ⟨performed, (defaultPolicyHandler h stDefPolicy sizes performed.state.store).1, true,
            (defaultPolicyHandler h stDefPolicy sizes performed.state.store).2⟩ := by
      simp only [performGranularityReduction, hperformed, hsucc, Bool.false_eq_true, if_false]
    rw [hrun, store_purged, if_neg Bool.false_ne_true]

theorem exec_reductionSteps (h : GRHandler) (stDefPolicy : DefaultGRPolicy)
    (stLastGrRecord : LastGRPerformedRecord) (llEndTime : ℤ) (unDBSizeBefGR : ℕ) (sizes : DBSizes)
    (store : GRStore) (turns : List (GRPolicy × ℕ)) :
    Lib.exec (reductionNext h) store
        (reductionSteps h stDefPolicy stLastGrRecord llEndTime unDBSizeBefGR sizes store turns) =
      some (performGranularityReduction h stDefPolicy stLastGrRecord llEndTime unDBSizeBefGR sizes
        store turns).store := by
  have hsteps := @foldl_loopSteps h (startRun stLastGrRecord llEndTime unDBSizeBefGR)
    stDefPolicy sizes turns ⟨store, stLastGrRecord, false, false⟩
  unfold reductionNext reductionSteps
  rw [Lib.exec_some, hsteps, store_performGranularityReduction _ _ _ _ _ _ _ _ rfl]

/-- Both upload modes, the reduction for the batch mode, and events that name one file. -/
def bothModesHandler : GRHandler :=
  { sampleHandler [] [] with
    pMode := ⟨⟨true, true⟩, ⟨true, true⟩, fun _ => none⟩
    getAttachments := fun strEvents => if strEvents = "" then [] else [strEvents] }

/-- A post-trigger row that neither mode has uploaded. -/
def pendingPostTrigger (id : ℕ) : GranularRow :=
  { sampleRow id "HarshBrakeAFT" 1 with
    events := "clip.mp4"
    streamSupport := 1 }

def pendingTable : GranularTable :=
  Lib.Table.empty.insert pendingPostTrigger fun _ => rfl

end GranularityReduction

end DeviceClient
