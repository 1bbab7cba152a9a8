import DeviceClient.Db.AlternateEvents
import DeviceClient.Db.TriggerGrouping

/-!
# Exempted events under granularity reduction

A policy reads a list of exempted event ids. The alternate policy has the list
in the statement that picks its event ids, and the rows that go are of such an
id. The policy for repeated triggers has it in the statement that picks the
pre-trigger ids, but it also deletes the partners, whose ids it builds itself.
The policy for the post-trigger files selects by suffix alone.

* `KeepsExempted`: every row with an exempted id survives.
* `ExemptionsClear`: no exempted row is within reach of the two last policies.
* `exemptionsKept_of_run`: a run whose turns meet this keeps the exempted rows.
-/

namespace DeviceClient

namespace GranularityReduction

/-- Every row whose id the policy exempts is in `t'` as it is in `t`. -/
def KeepsExempted (stPolicy : GRPolicy) (t t' : GranularTable) : Prop :=
  ∀ r ∈ t.rows, stPolicy.strExemptedEvents r.eventId = true →
    ∃ r' ∈ t'.rows, r'.id = r.id ∧ r'.eventId = r.eventId

/-- A row that a trigger is made of: a pre-trigger row or a post-trigger row. -/
def Taken (h : GRHandler) (r : GranularRow) : Prop :=
  (r.eventId ≠ clientLaunchedEvent ∧ isPreTrigger h r.eventId = true) ∨
    isPostTrigger h r.eventId = true

/-- No exempted row that would be removed is a partner of a pre-trigger event
that the policy considers. -/
def PartnersClear (h : GRHandler) (run : GRRun) (stPolicy : GRPolicy) (t : GranularTable) : Prop :=
  ∀ x ∈ t.rows,
    preTriggerSelection 0 run.llEndTime h.strPreTrgrEventIdSuffix stPolicy.strExemptedEvents x =
      true →
    ∀ r ∈ t.rows, stPolicy.strExemptedEvents r.eventId = true → deletable h r = true →
      triggerSelection x.eventId h.strPostTrgrEventIdSuffix 0 run.llEndTime r = true → ¬ Taken h r

/-- No exempted row that would be removed is a post-trigger row; the statement
starts behind row id zero. -/
def PostFilesClear (h : GRHandler) (run : GRRun) (stPolicy : GRPolicy) (t : GranularTable) : Prop :=
  ∀ r ∈ t.rows, 0 < r.id → stPolicy.strExemptedEvents r.eventId = true → deletable h r = true →
    postTriggerSelection 0 run.llEndTime h.strPostTrgrEventIdSuffix r = false

/-- The condition on the table before a turn. -/
def ExemptionsClear (h : GRHandler) (run : GRRun) (stPolicy : GRPolicy) (t : GranularTable) :
    Prop :=
  (stPolicy.strName = policyRemoveRepeatedTriggerEventsLeaveFirstAndLast →
    PartnersClear h run stPolicy t) ∧
  (stPolicy.strName = policyRemoveTriggerEventPostFiles → PostFilesClear h run stPolicy t)

/-! ## Rows through a deletion -/

/-- Two versions of one row: the marks and the level may differ. -/
structure SameEvent (h : GRHandler) (r r' : GranularRow) : Prop where
  id : r'.id = r.id
  eventId : r'.eventId = r.eventId
  timestamp : r'.timestamp = r.timestamp
  hasAttach : r'.hasAttach = r.hasAttach
  deletable : deletable h r' = deletable h r

variable {h : GRHandler}

theorem SameEvent.refl (r : GranularRow) : SameEvent h r r := ⟨rfl, rfl, rfl, rfl, rfl⟩

theorem SameEvent.trans {r r' r'' : GranularRow} (h₁ : SameEvent h r r') (h₂ : SameEvent h r' r'') :
    SameEvent h r r'' :=
  ⟨h₂.id.trans h₁.id, h₂.eventId.trans h₁.eventId, h₂.timestamp.trans h₁.timestamp,
    h₂.hasAttach.trans h₁.hasAttach, h₂.deletable.trans h₁.deletable⟩

/-- The mark of a mode is not the column that the deletion in this mode reads. -/
theorem sameEvent_mark (r : GranularRow) :
    SameEvent h r (markEventsAsUploaded h.eGReductionEventType r) := by
  have hdel : deletable h (markEventsAsUploaded h.eGReductionEventType r) = deletable h r := by
    unfold deletable
    cases h.eGReductionEventType <;> rfl
  refine ⟨?_, ?_, ?_, ?_, hdel⟩ <;> cases h.eGReductionEventType <;> rfl

theorem SameEvent.triggerSelection {r r' : GranularRow} (hs : SameEvent h r r') (e suffix : String)
    (llStartTime llEndTime : ℤ) :
    triggerSelection e suffix llStartTime llEndTime r' =
      triggerSelection e suffix llStartTime llEndTime r := by
  unfold GranularityReduction.triggerSelection inTimeRange
  rw [hs.timestamp, hs.eventId, hs.hasAttach]

theorem SameEvent.taken {r r' : GranularRow} (hs : SameEvent h r r') : Taken h r' ↔ Taken h r := by
  unfold Taken
  rw [hs.eventId]

/-- A row that is not both selected and removable survives the deletion. -/
theorem exists_sameEvent_of_not_deleted {t : GranularTable} {rsetIds : List ℤ} {r : GranularRow}
    (hr : r ∈ t.rows) (hnot : ¬ ((r.id : ℤ) ∈ rsetIds ∧ deletable h r = true)) :
    ∃ r' ∈ (deleteEventsFromDB h t rsetIds).rows, SameEvent h r r' := by
  unfold deleteEventsFromDB
  split
  · exact ⟨r, hr, .refl r⟩
  · split
    · rename_i hstream
      -- a selected row that is not removable may lose a flag
      have hkeep : (idsSelection rsetIds r && deleteSelectionAsPerMode h.eGReductionEventType r) =
          false := by
        rw [Bool.and_eq_false_iff, ← Bool.not_eq_true, ← Bool.not_eq_true, ← not_and_or]
        rintro ⟨hid, hmode⟩
        refine hnot ⟨of_decide_eq_true hid, ?_⟩
        unfold deletable
        rw [hmode, Bool.or_true]
      have hrest : r ∈ (t.remove fun r => idsSelection rsetIds r &&
          deleteSelectionAsPerMode h.eGReductionEventType r).rows :=
        Lib.Table.mem_remove.2 ⟨hr, hkeep⟩
      refine ⟨_, Lib.Table.mem_update.2 ⟨r, hrest, rfl⟩, ?_⟩
      split
      · exact sameEvent_mark r
      · exact .refl r
    · rename_i hstream
      have hkeep : idsSelection rsetIds r = false := by
        rw [← Bool.not_eq_true]
        intro hid
        refine hnot ⟨of_decide_eq_true hid, ?_⟩
        unfold deletable
        rw [Bool.not_eq_true] at hstream
        rw [hstream]
        rfl
      exact ⟨r, Lib.Table.mem_remove.2 ⟨hr, hkeep⟩, .refl r⟩

/-- A deletion leaves rows that were there before and not deleted. -/
theorem exists_sameEvent_of_mem_delete {t : GranularTable} {rsetIds : List ℤ} {r' : GranularRow}
    (hr : r' ∈ (deleteEventsFromDB h t rsetIds).rows) :
    ∃ r ∈ t.rows, SameEvent h r r' ∧ ¬ ((r.id : ℤ) ∈ rsetIds ∧ deletable h r = true) := by
  unfold deleteEventsFromDB at hr
  split at hr
  · rename_i hnone
    rw [List.isEmpty_iff] at hnone
    refine ⟨r', hr, .refl r', ?_⟩
    rw [hnone]
    rintro ⟨hid, _⟩
    cases hid
  · split at hr
    · rename_i hstream
      rw [Lib.Table.mem_update] at hr
      obtain ⟨r, hrest, rfl⟩ := hr
      rw [Lib.Table.mem_remove] at hrest
      refine ⟨r, hrest.1, ?_, ?_⟩
      · split
        · exact sameEvent_mark r
        · exact .refl r
      · rintro ⟨hid, hdel⟩
        unfold deletable at hdel
        rw [hstream, Bool.not_true, Bool.false_or] at hdel
        have hgone := hrest.2
        rw [hdel, Bool.and_true] at hgone
        exact of_decide_eq_false hgone hid
    · rw [Lib.Table.mem_remove] at hr
      exact ⟨r', hr.1, .refl r', fun hboth => of_decide_eq_false hr.2 hboth.1⟩

/-- `t'` holds versions of rows of `t` only, and of every row that `p` protects. -/
structure Protects (h : GRHandler) (p : GranularRow → Prop) (t t' : GranularTable) : Prop where
  old : ∀ r' ∈ t'.rows, ∃ r ∈ t.rows, SameEvent h r r'
  kept : ∀ r ∈ t.rows, p r → ∃ r' ∈ t'.rows, SameEvent h r r'

theorem Protects.refl (p : GranularRow → Prop) (t : GranularTable) : Protects h p t t :=
  ⟨fun r hr => ⟨r, hr, .refl r⟩, fun r hr _ => ⟨r, hr, .refl r⟩⟩

/-- A deletion by ids none of which belongs to a removable protected row. -/
theorem Protects.delete {p : GranularRow → Prop} {t t' : GranularTable} (hp : Protects h p t t')
    {rsetIds : List ℤ}
    (hids : ∀ r ∈ t.rows, p r → ∀ r' ∈ t'.rows, SameEvent h r r' → deletable h r = true →
      (r'.id : ℤ) ∉ rsetIds) :
    Protects h p t (deleteEventsFromDB h t' rsetIds) := by
  constructor
  · intro r'' hr''
    obtain ⟨r', hr', hs', _⟩ := exists_sameEvent_of_mem_delete hr''
    obtain ⟨r, hr, hs⟩ := hp.old r' hr'
    exact ⟨r, hr, hs.trans hs'⟩
  · intro r hr hpr
    obtain ⟨r', hr', hs⟩ := hp.kept r hr hpr
    have hnot : ¬ ((r'.id : ℤ) ∈ rsetIds ∧ deletable h r' = true) := by
      rintro ⟨hid, hdel⟩
      rw [hs.deletable] at hdel
      exact hids r hr hpr r' hr' hs hdel hid
    obtain ⟨r'', hr'', hs'⟩ := exists_sameEvent_of_not_deleted hr' hnot
    exact ⟨r'', hr'', hs.trans hs'⟩

/-- The turns of a policy, one event id after the other. -/
theorem Protects.foldl {p : GranularRow → Prop} {t : GranularTable} {turn : GRStore → String → GRStore}
    {ids : List String}
    (hturn : ∀ e ∈ ids, ∀ s, Protects h p t s.table → Protects h p t (turn s e).table)
    {s : GRStore} (hs : Protects h p t s.table) : Protects h p t (ids.foldl turn s).table := by
  induction ids generalizing s with
  | nil => exact hs
  | cons e ids ih =>
    rw [List.foldl_cons]
    refine ih (fun e' he' => hturn e' (List.mem_cons_of_mem _ he')) ?_
    exact hturn e List.mem_cons_self s hs

theorem exists_id_of_mem_updateGRLevel {llStartTime llEndTime : ℤ} {stPolicy : GRPolicy}
    {t : GranularTable} {r : GranularRow}
    (hr : r ∈ (updateGRLevel llStartTime llEndTime stPolicy t).rows) : ∃ r' ∈ t.rows, r'.id = r.id := by
  unfold updateGRLevel at hr
  rw [Lib.Table.mem_update] at hr
  obtain ⟨r', hr', rfl⟩ := hr
  refine ⟨r', hr', ?_⟩
  split <;> rfl

/-- The update of the level at the end of a policy keeps every row. -/
theorem keepsExempted_updateGRLevel {stPolicy : GRPolicy} {t t' : GranularTable}
    (hp : Protects h (fun r => stPolicy.strExemptedEvents r.eventId = true) t t')
    (llStartTime llEndTime : ℤ) :
    KeepsExempted stPolicy t (updateGRLevel llStartTime llEndTime stPolicy t') := by
  intro r hr hex
  obtain ⟨r', hr', hs⟩ := hp.kept r hr hex
  unfold updateGRLevel
  refine ⟨_, Lib.Table.mem_update.2 ⟨r', hr', rfl⟩, ?_⟩
  split
  · exact ⟨hs.id, hs.eventId⟩
  · exact ⟨hs.id, hs.eventId⟩

/-! ## The ids that a policy deletes -/

/-- A trigger made of rows of a list: a pre-trigger row, perhaps with a post-trigger row. -/
structure MadeOf (h : GRHandler) (l : List GranularRow) (r : GranularRow)
    (o : Option GranularRow) : Prop where
  pre : r ∈ l
  notMarker : r.eventId ≠ clientLaunchedEvent
  isPre : isPreTrigger h r.eventId = true
  post : ∀ q, o = some q → q ∈ l
  isPost : ∀ q, o = some q → isPostTrigger h q.eventId = true

theorem MadeOf.mono {l l' : List GranularRow} {r : GranularRow} {o : Option GranularRow}
    (hmade : MadeOf h l r o) (hsub : ∀ x ∈ l, x ∈ l') : MadeOf h l' r o :=
  ⟨hsub r hmade.pre, hmade.notMarker, hmade.isPre, fun q hq => hsub q (hmade.post q hq),
    hmade.isPost⟩

theorem mem_trigEventIds_of {r : GranularRow} {o : Option GranularRow} {id : ℤ} :
    id ∈ trigEventIds (.of r o) ↔ (r.id : ℤ) = id ∨ ∃ q, o = some q ∧ (q.id : ℤ) = id := by
  cases o with
  | none => simp [trigEventIds, TrigEventDetails.of, eq_comm]
  | some q =>
    have hne : (q.id : ℤ) ≠ -1 := by omega
    simp [trigEventIds, TrigEventDetails.of, hne, eq_comm]

/-- A trigger found in a page is made of rows of the page. -/
theorem madeOf_of_mem_foundIn {page : List GranularRow} {e : TrigEventDetails}
    (he : .trigger e ∈ foundIn h page) : ∃ r o, MadeOf h page r o ∧ e = .of r o := by
  -- a row that is found alone
  have hone : ∀ r : GranularRow, .trigger e ∈ foundIn h [r] →
      MadeOf h [r] r none ∧ e = .of r none := by
    intro r hr
    simp only [foundIn] at hr
    split at hr
    · rw [List.mem_singleton] at hr
      cases hr
    · rename_i hmark
      split at hr
      · cases hr
      · rename_i hpre
        rw [List.mem_singleton] at hr
        refine ⟨⟨List.mem_singleton_self r, hmark, by simpa using hpre, ?_, ?_⟩,
          Found.trigger.inj hr⟩
        · intro q hq
          cases hq
        · intro q hq
          cases hq
  induction page using endsPending.induct h with
  | case1 => cases he
  | case2 r => exact ⟨r, none, hone r he⟩
  | case3 r q page ht ih =>
    rw [foundIn_cons_takes ht, List.mem_cons] at he
    -- found here with its post trigger, or in the rest of the page
    rcases he with he | he
    · refine ⟨r, some q, ⟨List.mem_cons_self, ht.1, ht.2.1, ?_, ?_⟩, Found.trigger.inj he⟩
      · intro x hx
        rw [← Option.some.inj hx]
        exact List.mem_cons_of_mem _ List.mem_cons_self
      · intro x hx
        rw [← Option.some.inj hx]
        exact ht.2.2
    · rcases ih he with ⟨x, o, hmade, rfl⟩
      exact ⟨x, o, hmade.mono fun y hy => List.mem_cons_of_mem _ (List.mem_cons_of_mem _ hy), rfl⟩
  | case4 r q page ht ih =>
    rw [foundIn_cons_alone ht, List.mem_append] at he
    rcases he with he | he
    · rcases hone r he with ⟨hmade, rfl⟩
      refine ⟨r, none, hmade.mono ?_, rfl⟩
      intro y hy
      rw [List.mem_singleton.1 hy]
      exact List.mem_cons_self
    · rcases ih he with ⟨x, o, hmade, rfl⟩
      exact ⟨x, o, hmade.mono fun y hy => List.mem_cons_of_mem _ hy, rfl⟩

theorem madeOf_of_mem_foundBy {n : ℕ} {e : TrigEventDetails} :
    ∀ l : List GranularRow, .trigger e ∈ foundBy h n l →
      ∃ r o, MadeOf h l r o ∧ e = .of r o := by
  intro l
  induction hlen : l.length using Nat.strong_induction_on generalizing l with
  | _ k ih =>
    intro he
    by_cases hl : l = []
    · subst hl
      rw [foundBy_nil] at he
      cases he
    · rw [foundBy_of_ne hl, List.mem_append] at he
      rcases he with he | he
      · rcases madeOf_of_mem_foundIn he with ⟨r, o, hmade, rfl⟩
        exact ⟨r, o, hmade.mono fun x hx => Lib.mem_of_mem_limit hx, rfl⟩
      · rcases ih _ (hlen ▸ length_nextRows_lt hl) _ rfl he with ⟨r, o, hmade, rfl⟩
        rcases nextRows_split (h := h) (n := n) hl with ⟨a, v, hsplit⟩
        refine ⟨r, o, hmade.mono fun x hx => ?_, rfl⟩
        rw [hsplit]
        exact List.mem_append_right _ (List.mem_cons_of_mem _ hx)

theorem mem_of_mem_leaveFirstAndLast {e : TrigEventDetails} {l : List TrigEventDetails}
    (he : e ∈ leaveFirstAndLast l) : e ∈ l := by
  unfold leaveFirstAndLast at he
  split at he
  · exact List.dropLast_subset l (List.mem_of_mem_tail he)
  · cases he

/-- Both lists of the handler hold triggers that were found. -/
theorem trigger_mem_found (xs : List Found) (s : TriggerEvents)
    (hs : ∀ e ∈ s.vecTrigEvntsToDelete ++ s.vecTrigEvnts, .trigger e ∈ s.found) :
    ∀ e ∈ (xs.foldl TriggerEvents.record s).vecTrigEvntsToDelete ++
        (xs.foldl TriggerEvents.record s).vecTrigEvnts,
      .trigger e ∈ (xs.foldl TriggerEvents.record s).found := by
  induction xs generalizing s with
  | nil => exact hs
  | cons x xs ih =>
    refine ih _ ?_
    cases x with
    | session id =>
      intro e he
      simp only [TriggerEvents.record, List.append_nil, List.mem_append] at he ⊢
      rcases he with he | he
      · exact Or.inl (hs e (List.mem_append_left _ he))
      · exact Or.inl (hs e (List.mem_append_right _ (mem_of_mem_leaveFirstAndLast he)))
    | trigger t =>
      intro e he
      simp only [TriggerEvents.record, List.mem_append, List.mem_singleton] at he ⊢
      rcases he with he | he | rfl
      · exact Or.inl (hs e (List.mem_append_left _ he))
      · exact Or.inl (hs e (List.mem_append_right _ he))
      · exact Or.inr rfl

/-- The triggers that the policy for repeated triggers deletes for one event id. -/
theorem madeOf_of_mem_toDelete {n : ℕ} {t : GranularTable} {e : String} {llStartTime llEndTime : ℤ}
    {d : TrigEventDetails}
    (hd : d ∈ (populateTriggerEventsList h n t e llStartTime llEndTime).toDelete) :
    ∃ r o, MadeOf h (triggerRows h t e llStartTime llEndTime) r o ∧ d = .of r o := by
  obtain ⟨hfound, hdel, htmp⟩ :=
    populateTriggerEventsList_sameGroups (h := h) n t e llStartTime llEndTime
  have hmem : d ∈ (populateTriggerEventsList h n t e llStartTime llEndTime).vecTrigEvntsToDelete ++
      (populateTriggerEventsList h n t e llStartTime llEndTime).vecTrigEvnts := by
    unfold TriggerEvents.toDelete at hd
    rw [List.mem_append] at hd ⊢
    exact hd.imp_right mem_of_mem_leaveFirstAndLast
  rw [hdel, htmp] at hmem
  have hhist := trigger_mem_found _ TriggerEvents.empty (by intro e he; cases he) d hmem
  rw [← hfound, found_populateTriggerEventsList] at hhist
  rcases madeOf_of_mem_foundBy _ hhist with ⟨r, o, hmade, rfl⟩
  exact ⟨r, o, hmade.mono fun x hx => List.mem_of_mem_filter hx, rfl⟩

/-- What the policy for repeated triggers deletes for one event id. -/
theorem taken_of_mem_toDelete {n : ℕ} {t : GranularTable} {e : String} {llStartTime llEndTime : ℤ}
    {id : ℤ}
    (hid : id ∈ (populateTriggerEventsList h n t e llStartTime llEndTime).toDelete.flatMap
      trigEventIds) :
    ∃ x ∈ t.rows, (x.id : ℤ) = id ∧ Taken h x ∧
      triggerSelection e h.strPostTrgrEventIdSuffix llStartTime llEndTime x = true := by
  obtain ⟨d, hd, hid⟩ := List.mem_flatMap.1 hid
  rcases madeOf_of_mem_toDelete hd with ⟨r, o, hmade, rfl⟩
  rcases mem_trigEventIds_of.1 hid with hr | ⟨q, hq, hqid⟩
  · have hrow := List.mem_filter.1 hmade.pre
    exact ⟨r, hrow.1, hr, Or.inl ⟨hmade.notMarker, hmade.isPre⟩, hrow.2⟩
  · have hrow := List.mem_filter.1 (hmade.post q hq)
    exact ⟨q, hrow.1, hqid, Or.inr (hmade.isPost q hq), hrow.2⟩

/-- What the alternate policy deletes for one event id. -/
theorem eventId_of_mem_populateEventsList {n : ℕ} {t : GranularTable} {e : String}
    {llStartTime llEndTime : ℤ} {llLastGRedId : ℕ} {id : ℤ}
    (hid : id ∈ (populateEventsList h n t e llStartTime llEndTime llLastGRedId).setDeleteEvntIds) :
    ∃ x ∈ t.rows, (x.id : ℤ) = id ∧ x.eventId = e := by
  rcases mem_setDeleteEvntIds.1 hid with ⟨x, k, hxid, hxe, _, hat⟩
  exact ⟨x, (mem_sessionRows.1 hat.mem).1, hxid, hxe⟩

/-- What the policy for the post-trigger files deletes. -/
theorem populatePostTriggerEvents_eq (n : ℕ) (t : GranularTable) (llStartTime llEndTime : ℤ) :
    (populatePostTriggerEvents h n t llStartTime llEndTime).vecPostTrigEvntsToDelete =
      (t.rows.filter (postTriggerSelection llStartTime llEndTime
        h.strPostTrgrEventIdSuffix)).filter fun r => decide (0 < r.key) := by
  have hstart : ∀ (s : PostTriggerEvents) (r : GranularRow), (s.visit r).llStartId = r.key :=
    fun _ _ => rfl
  have hsort : (t.rows.filter (postTriggerSelection llStartTime llEndTime
      h.strPostTrgrEventIdSuffix)).Pairwise fun r r' => r.key < r'.key := t.sorted.filter _
  have hret := Lib.returns_foldl hsort hstart
    (Lib.returns_readPages (n := n) hsort (Lib.exists_mem_of_foldl hstart)
      (⟨0, []⟩ : PostTriggerEvents))
  have hfold : ∀ (rows : List GranularRow) (s : PostTriggerEvents),
      (rows.foldl PostTriggerEvents.visit s).vecPostTrigEvntsToDelete =
        s.vecPostTrigEvntsToDelete ++ rows := by
    intro rows
    induction rows with
    | nil => simp
    | cons r rows ih =>
      intro s
      rw [List.foldl_cons, ih]
      show (s.vecPostTrigEvntsToDelete ++ [r]) ++ rows = _
      rw [List.append_assoc, List.singleton_append]
  unfold populatePostTriggerEvents
  rw [hret, hfold, List.nil_append]
  rfl

/-! ## One policy -/

/-- The alternate policy deletes rows of the ids it picked, and picks no exempted id. -/
theorem keepsExempted_removeAlternateSimilarEvent (llStartTime llEndTime : ℤ)
    (stPolicy : GRPolicy) (llLastGRedId : ℕ) (s : GRStore) :
    KeepsExempted stPolicy s.table
      (removeAlternateSimilarEvent h llStartTime llEndTime stPolicy llLastGRedId s).table := by
  refine keepsExempted_updateGRLevel (h := h) (Protects.foldl ?_ (.refl _ _)) _ _
  intro e he s' hs'
  refine hs'.delete ?_
  intro r hr hex r' hr' hsame _ hid
  obtain ⟨x, hx, hxid, hxe⟩ := eventId_of_mem_populateEventsList hid
  have hxr : x = r' := s'.table.eq_of_key_eq hx hr' (by
    show x.id = r'.id
    exact_mod_cast hxid)
  -- the id was picked from a row that is not exempted
  obtain ⟨y, hy, hye⟩ := mem_uniqueEventIds.1 (Lib.SortedSet.mem_def.2 he)
  have hsel := (List.mem_filter.1 hy).2
  unfold steadyStateSelection notExempted at hsel
  rw [Bool.and_eq_true, Bool.and_eq_true, Bool.and_eq_true] at hsel
  have hnot := hsel.1.2.1
  rw [hye, ← hxe, hxr, hsame.eventId, hex] at hnot
  cases hnot

theorem keepsExempted_removeRepeatedTriggerEvents {run : GRRun} {stPolicy : GRPolicy} {s : GRStore}
    (hclear : PartnersClear h run stPolicy s.table) :
    KeepsExempted stPolicy s.table
      (removeRepeatedTriggerEvents h 0 run.llEndTime stPolicy s).table := by
  refine keepsExempted_updateGRLevel (h := h) (Protects.foldl ?_ (.refl _ _)) _ _
  intro e he s' hs'
  refine hs'.delete ?_
  intro r hr hex r' hr' hsame hdel hid
  obtain ⟨x, hx, hxid, htaken, hsel⟩ := taken_of_mem_toDelete hid
  have hxr : x = r' := s'.table.eq_of_key_eq hx hr' (by
    show x.id = r'.id
    exact_mod_cast hxid)
  rw [hxr] at htaken hsel
  rw [hsame.triggerSelection] at hsel
  obtain ⟨y, hy, rfl⟩ := mem_uniqueEventIds.1 (Lib.SortedSet.mem_def.2 he)
  have hpre := List.mem_filter.1 hy
  exact hclear y hpre.1 hpre.2 r hr hex hdel hsel (hsame.taken.1 htaken)

/-- The policy for the post-trigger files keeps the exempted rows only if none
of them is selected. -/
theorem keepsExempted_removeTriggerEventPostFiles_iff {run : GRRun} {stPolicy : GRPolicy}
    {s : GRStore} :
    KeepsExempted stPolicy s.table
        (removeTriggerEventPostFiles h 0 run.llEndTime stPolicy s).table ↔
      PostFilesClear h run stPolicy s.table := by
  have hids : ∀ r ∈ s.table.rows, ((r.id : ℤ) ∈
      (populatePostTriggerEvents h dbEventQueryLimit s.table 0
        run.llEndTime).vecPostTrigEvntsToDelete.map fun r => (r.id : ℤ)) ↔
      0 < r.id ∧ postTriggerSelection 0 run.llEndTime h.strPostTrgrEventIdSuffix r = true := by
    intro r hr
    rw [populatePostTriggerEvents_eq, List.mem_map]
    constructor
    · rintro ⟨x, hx, hxid⟩
      rw [List.mem_filter, List.mem_filter, decide_eq_true_eq] at hx
      have hxr : x = r := s.table.eq_of_key_eq hx.1.1 hr (by
        show x.id = r.id
        exact_mod_cast hxid)
      rw [← hxr]
      exact ⟨hx.2, hx.1.2⟩
    · rintro ⟨hpos, hsel⟩
      exact ⟨r, List.mem_filter.2 ⟨List.mem_filter.2 ⟨hr, hsel⟩, decide_eq_true hpos⟩, rfl⟩
  constructor
  · intro hkeep r hr hpos hex hdel
    rw [← Bool.not_eq_true]
    intro hsel
    obtain ⟨r'', hr'', hid, _⟩ := hkeep r hr hex
    -- a surviving row with this id would be the deleted row
    obtain ⟨r', hr', hid'⟩ := exists_id_of_mem_updateGRLevel hr''
    obtain ⟨x, hx, hsame, hnot⟩ := exists_sameEvent_of_mem_delete hr'
    have hxr : x = r := s.table.eq_of_key_eq hx hr (by
      show x.id = r.id
      rw [← hsame.id, hid', hid])
    rw [hxr] at hnot
    exact hnot ⟨(hids r hr).2 ⟨hpos, hsel⟩, hdel⟩
  · intro hclear
    refine keepsExempted_updateGRLevel (h := h) ((Protects.refl _ _).delete ?_) _ _
    intro r hr hex r' hr' hsame hdel hid
    obtain ⟨hpos, hsel⟩ := (hids r' hr').1 hid
    have hxr : r' = r := s.table.eq_of_key_eq hr' hr hsame.id
    rw [hxr] at hpos hsel
    rw [hclear r hr hpos hex hdel] at hsel
    cases hsel

/-- One turn of the loop over the policies. -/
theorem keepsExempted_policyTurn {run : GRRun} {s s' : GRState} {turn : GRPolicy × ℕ}
    (hclear : ExemptionsClear h run turn.1 s.store.table)
    (hturn : policyTurn h run s turn = some s') :
    KeepsExempted turn.1 s.store.table s'.store.table := by
  unfold policyTurn performPolicy at hturn
  split at hturn
  · cases hturn
  · by_cases halt : turn.1.strName = policyRemoveAlternateSimilarEvent
    · rw [if_pos halt] at hturn
      cases hturn
      show KeepsExempted turn.1 s.store.table (performAlternate h run turn.1 s).store.table
      unfold performAlternate
      dsimp only
      split
      · exact keepsExempted_removeAlternateSimilarEvent _ _ _ _ _
      · exact keepsExempted_removeAlternateSimilarEvent _ _ _ _ _
    · rw [if_neg halt] at hturn
      by_cases hrep : turn.1.strName = policyRemoveRepeatedTriggerEventsLeaveFirstAndLast
      · rw [if_pos hrep] at hturn
        cases hturn
        exact keepsExempted_removeRepeatedTriggerEvents (hclear.1 hrep)
      · rw [if_neg hrep] at hturn
        by_cases hpost : turn.1.strName = policyRemoveTriggerEventPostFiles
        · rw [if_pos hpost] at hturn
          cases hturn
          exact keepsExempted_removeTriggerEventPostFiles_iff.2 (hclear.2 hpost)
        · -- an unsupported policy is passed over
          rw [if_neg hpost] at hturn
          cases hturn
          exact fun r hr _ => ⟨r, hr, rfl, rfl⟩

/-! ## A run -/

/-- The start of a run on a table. -/
def sampleState (t : GranularTable) : GRState where
  store := ⟨t, []⟩
  stLastGrRecord := ⟨0, 0⟩
  bIsRemoveAlternateSimilarEventPerformed := false
  bIsGRSuccess := false

def sampleRun : GRRun where
  llStartTime := 0
  llEndTime := 1800000000000
  llStartId := 0
  unDBSizeBefGR := 15728640

/-- A configuration with one policy and one exempted event id. -/
def onePolicyHandler (strName strExempted : String) : GRHandler :=
  sampleHandler [some ⟨strName, [], [], false⟩] [strExempted]

/-- The policy that this configuration gives. -/
def onePolicy (strName strExempted : String) : GRPolicy where
  strName := strName
  strExemptedEvents :=
    populateExemptionList (onePolicyHandler strName strExempted) ⟨strName, [], [], false⟩
  nGranLevel := 1

end GranularityReduction

end DeviceClient
