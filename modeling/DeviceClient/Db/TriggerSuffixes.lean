import DeviceClient.Db.LeaveFirstAndLast

/-!
# Trigger suffixes

Leaving the first and the last occurrence depends on the configured suffixes:
the statement for the pre-trigger ids cuts three characters off, the post-trigger
id is built by the length of the other suffix, and the patterns look at the end
of a name only.

* `namedTable`: a table with rows of given ids.
* `suffixesFit_of_leaves`: four such tables tell whether the suffixes fit.
* `leavesFirstAndLast_iff`: the policy is right for a base event iff they do.
-/

namespace DeviceClient

namespace GranularityReduction

/-! ## Tables with rows of given ids -/

/-- A table with one row with attachments for each event id. -/
def namedTable (eventIds : List String) : GranularTable :=
  sampleTable (eventIds.map fun eventId => (eventId, 1))

/-- A time range that holds these rows. -/
def sampleEndTime : ℤ := 1800000000000

section Named

variable {h : GRHandler} {stPolicy : GRPolicy} {base : String}

theorem mem_namedTable {eventIds : List String} {r : GranularRow}
    (hr : r ∈ (namedTable eventIds).rows) :
    r.eventId ∈ eventIds ∧ r.hasAttach = 1 ∧ 0 < r.id ∧
      inTimeRange 0 sampleEndTime r = true := by
  have hrange : ∀ id eventId, inTimeRange 0 sampleEndTime (sampleRow id eventId 1) = true := by
    intro id eventId
    show (decide ((0 : ℤ) < 1700000000000) && decide ((1700000000000 : ℤ) ≤ 1800000000000)) = true
    decide
  -- the rows inserted so far, and the next key
  have hfold : ∀ (eventIds : List String) (t : GranularTable), 0 < t.nextKey →
      ∀ r ∈ ((eventIds.map fun eventId => (eventId, (1 : ℤ))).foldl
        (fun t row => t.insert (fun id => sampleRow id row.1 row.2) fun _ => rfl) t).rows,
        r ∈ t.rows ∨ r.eventId ∈ eventIds ∧ r.hasAttach = 1 ∧ 0 < r.id ∧
          inTimeRange 0 sampleEndTime r = true := by
    intro eventIds
    induction eventIds with
    | nil => exact fun t _ r hr => Or.inl hr
    | cons e eventIds ih =>
      intro t ht r hr
      rcases ih _ (Nat.succ_pos t.nextKey) r hr with hold | ⟨hid, hrest⟩
      · rcases Lib.Table.mem_insert.1 hold with hold | rfl
        · exact Or.inl hold
        · exact Or.inr ⟨List.mem_cons_self, rfl, ht, hrange _ _⟩
      · exact Or.inr ⟨List.mem_cons_of_mem _ hid, hrest⟩
  rcases hfold eventIds Lib.Table.empty Nat.one_pos r hr with hnone | hrest
  · exact absurd hnone List.not_mem_nil
  · exact hrest

theorem baseRows_namedTable {eventIds : List String} (hids : ∀ e ∈ eventIds,
    e = preTriggerIdOf h base ∨ e = postTriggerIdOf h base ∨ e = clientLaunchedEvent) :
    baseRows h (namedTable eventIds) base 0 sampleEndTime = (namedTable eventIds).rows := by
  unfold baseRows
  rw [List.filter_filter, List.filter_eq_self]
  intro r hr
  rcases mem_namedTable hr with ⟨hid, hattach, hpos, hrange⟩
  unfold baseSelection isSessionMarker
  rw [Bool.and_eq_true, decide_eq_true_eq]
  refine ⟨hpos, ?_⟩
  rw [hrange, hattach]
  rcases hids _ hid with heq | heq | heq
  · simp [heq]
  · simp [heq]
  · simp [heq]

theorem rowsRead_namedTable {e : String} {eventIds : List String} (hids : ∀ x ∈ eventIds,
    x = e ∨ x = postTriggerEventId e h.strPostTrgrEventIdSuffix ∨ x = clientLaunchedEvent) :
    rowsRead h (namedTable eventIds) e 0 sampleEndTime = (namedTable eventIds).rows := by
  unfold rowsRead triggerRows
  rw [List.filter_filter, List.filter_eq_self]
  intro r hr
  rcases mem_namedTable hr with ⟨hid, hattach, hpos, hrange⟩
  unfold triggerSelection
  rw [Bool.and_eq_true, decide_eq_true_eq]
  refine ⟨hpos, ?_⟩
  rw [hrange, hattach]
  rcases hids _ hid with heq | heq | heq
  · simp [heq]
  · simp [heq]
  · simp [heq]

/-- The policy on such a table of rows that the handler reads, one of them a
pre-trigger row. -/
theorem selectedIds_namedTable (hcut : substrFromEnd (preTriggerIdOf h base) 3 =
      h.strPreTrgrEventIdSuffix.toList)
    (hex : stPolicy.strExemptedEvents (preTriggerIdOf h base) = false)
    (hne : preTriggerIdOf h base ≠ clientLaunchedEvent) {eventIds : List String}
    (hids : ∀ x ∈ eventIds, x = preTriggerIdOf h base ∨
      x = postTriggerEventId (preTriggerIdOf h base) h.strPostTrgrEventIdSuffix ∨
      x = clientLaunchedEvent)
    (hlen : (namedTable eventIds).rows.length ≤ dbEventQueryLimit)
    (hpre : ∃ r ∈ (namedTable eventIds).rows, r.eventId = preTriggerIdOf h base) :
    selectedIds h stPolicy (namedTable eventIds) 0 sampleEndTime (preTriggerIdOf h base) =
      (removable [] (foundIn h (namedTable eventIds).rows ++
        foundIn h (leftOver h (namedTable eventIds).rows))).flatMap trigEventIds := by
  rcases hpre with ⟨r, hr, hid⟩
  have hmem : r ∈ baseRows h (namedTable eventIds) base 0 sampleEndTime := by
    rcases mem_namedTable hr with ⟨_, hattach, hpos, hrange⟩
    exact mem_baseRows.2 ⟨hr, hrange, Or.inl ⟨Or.inl hid, hattach⟩, hpos⟩
  unfold selectedIds
  rw [if_pos (considered_of_mem hcut hex hne hmem hid),
    toDelete_of_onePage (by rw [rowsRead_namedTable hids]; exact hlen), rowsRead_namedTable hids]

theorem selectedIds_of_not_cut (hcut : substrFromEnd (preTriggerIdOf h base) 3 ≠
      h.strPreTrgrEventIdSuffix.toList) (t : GranularTable) (llStartTime llEndTime : ℤ) :
    selectedIds h stPolicy t llStartTime llEndTime (preTriggerIdOf h base) = [] := by
  unfold selectedIds
  rw [if_neg]
  intro hin
  rcases mem_uniqueEventIds.1 hin with ⟨r, hr, hid⟩
  have hsel := (List.mem_filter.1 hr).2
  unfold preTriggerSelection at hsel
  rw [Bool.and_eq_true, decide_eq_true_eq, hid] at hsel
  exact hcut hsel.2

/-- A selected row is a pre-trigger or a post-trigger row by the patterns, and of
an id that the handler reads. -/
theorem kind_of_mem_selectedIds {t : GranularTable} {e : String} {llStartTime llEndTime : ℤ}
    {r : GranularRow} (hr : r ∈ t.rows)
    (hid : (r.id : ℤ) ∈ selectedIds h stPolicy t llStartTime llEndTime e) :
    (isPreTrigger h r.eventId = true ∨ isPostTrigger h r.eventId = true) ∧
      (r.eventId = e ∨ r.eventId = postTriggerEventId e h.strPostTrgrEventIdSuffix ∨
        r.eventId = clientLaunchedEvent) ∧
      ∃ x ∈ triggerRows h t e llStartTime llEndTime, isPreTrigger h x.eventId = true := by
  unfold selectedIds at hid
  split at hid
  · rcases List.mem_flatMap.1 hid with ⟨d, hd, hdid⟩
    rcases madeOf_of_mem_toDelete hd with ⟨x, o, hmade, rfl⟩
    have hread : ∀ y ∈ triggerRows h t e llStartTime llEndTime, (y.id : ℤ) = r.id → y = r ∧
        (y.eventId = e ∨ y.eventId = postTriggerEventId e h.strPostTrgrEventIdSuffix ∨
          y.eventId = clientLaunchedEvent) := by
      intro y hy hyid
      have hsel := List.mem_filter.1 hy
      have hyr : y = r := t.eq_of_key_eq hsel.1 hr (by
        show y.id = r.id
        exact_mod_cast hyid)
      refine ⟨hyr, ?_⟩
      have hkind := hsel.2
      unfold triggerSelection at hkind
      simp only [Bool.and_eq_true, Bool.or_eq_true, decide_eq_true_eq] at hkind
      tauto
    refine ⟨?_, ?_, x, hmade.pre, hmade.isPre⟩
    · rcases mem_trigEventIds_of.1 hdid with hxid | ⟨q, hq, hqid⟩
      · exact Or.inl ((hread x hmade.pre hxid).1 ▸ hmade.isPre)
      · exact Or.inr ((hread q (hmade.post q hq) hqid).1 ▸ hmade.isPost q hq)
    · rcases mem_trigEventIds_of.1 hdid with hxid | ⟨q, hq, hqid⟩
      · rcases hread x hmade.pre hxid with ⟨rfl, hkind⟩
        exact hkind
      · rcases hread q (hmade.post q hq) hqid with ⟨rfl, hkind⟩
        exact hkind
  · exact absurd hid List.not_mem_nil

end Named

/-! ## What the tables tell -/

section Necessary

theorem length_rows_namedTable (eventIds : List String) :
    (namedTable eventIds).rows.length = eventIds.length := by
  have hfold : ∀ (rows : List (String × ℤ)) (t : GranularTable),
      (rows.foldl (fun t row => t.insert (fun id => sampleRow id row.1 row.2) fun _ => rfl)
        t).rows.length = t.rows.length + rows.length := by
    intro rows
    induction rows with
    | nil => exact fun t => rfl
    | cons row rows ih =>
      intro t
      rw [List.foldl_cons, ih]
      simp [Lib.Table.insert]
      omega
  unfold namedTable sampleTable
  rw [hfold, List.length_map, Lib.Table.rows_empty, List.length_nil, Nat.zero_add]

variable {h : GRHandler} {stPolicy : GRPolicy} {base : String}

/-- Rows without a marker are one session. -/
theorem clientSessions_of_no_marker {eventIds : List String}
    (hids : ∀ e ∈ eventIds, e ≠ clientLaunchedEvent) :
    clientSessions (namedTable eventIds).rows = [(namedTable eventIds).rows] :=
  List.splitOnP_eq_singleton fun _ hr => decide_eq_false (hids _ (mem_namedTable hr).1)

/-- In one session of six pre-trigger rows the third is in the middle, paired or not. -/
theorem inner_sixPre :
    ∃ o ∈ Lib.inner (baseOccurrences h base
        (namedTable (List.replicate 6 (preTriggerIdOf h base))).rows),
      sampleRow 3 (preTriggerIdOf h base) 1 ∈ occurrenceRows o := by
  show ∃ o ∈ Lib.inner (baseOccurrences h base [sampleRow 1 (preTriggerIdOf h base) 1,
    sampleRow 2 (preTriggerIdOf h base) 1, sampleRow 3 (preTriggerIdOf h base) 1,
    sampleRow 4 (preTriggerIdOf h base) 1, sampleRow 5 (preTriggerIdOf h base) 1,
    sampleRow 6 (preTriggerIdOf h base) 1]), _
  unfold baseOccurrences
  by_cases hPQ : preTriggerIdOf h base = postTriggerIdOf h base
  · simp [Lib.occurrences, Lib.inner, sampleRow, hPQ, occurrenceRows]
  · simp [Lib.occurrences, Lib.inner, sampleRow, hPQ, occurrenceRows]


theorem mem_replicate_pre {e : String} (he : e ∈ List.replicate 6 (preTriggerIdOf h base)) :
    e = preTriggerIdOf h base := (List.mem_replicate.1 he).2

/-- The policy on six pre-trigger rows. -/
theorem selectedIds_sixPre (hcut : substrFromEnd (preTriggerIdOf h base) 3 =
      h.strPreTrgrEventIdSuffix.toList)
    (hex : stPolicy.strExemptedEvents (preTriggerIdOf h base) = false)
    (hP : preTriggerIdOf h base ≠ clientLaunchedEvent)
    (hpre : isPreTrigger h (preTriggerIdOf h base) = true) :
    selectedIds h stPolicy (namedTable (List.replicate 6 (preTriggerIdOf h base))) 0 sampleEndTime
        (preTriggerIdOf h base) =
      if isPostTrigger h (preTriggerIdOf h base) then [3, 4, 5, 6] else [2, 3, 4, 5] := by
  rw [selectedIds_namedTable hcut hex hP (fun e he => Or.inl (mem_replicate_pre he)) (by
      rw [length_rows_namedTable, List.length_replicate]
      decide)
    ⟨sampleRow 1 _ 1, List.mem_cons_self, rfl⟩]
  show (removable [] (foundIn h [sampleRow 1 _ 1, sampleRow 2 _ 1, sampleRow 3 _ 1,
    sampleRow 4 _ 1, sampleRow 5 _ 1, sampleRow 6 _ 1] ++
    foundIn h (leftOver h [sampleRow 1 _ 1, sampleRow 2 _ 1, sampleRow 3 _ 1,
    sampleRow 4 _ 1, sampleRow 5 _ 1, sampleRow 6 _ 1]))).flatMap trigEventIds = _
  cases hpost : isPostTrigger h (preTriggerIdOf h base) with
  | true => simp [foundIn, leftOver, Takes, sampleRow, hP, hpre, hpost, removable, Lib.inner,
      TrigEventDetails.of, trigEventIds]
  | false => simp [foundIn, leftOver, Takes, sampleRow, hP, hpre, hpost, removable, Lib.inner,
      TrigEventDetails.of, trigEventIds]

/-- A selected row stands in a session of more than two rows. -/
theorem session_of_selected {t : GranularTable} {llStartTime llEndTime : ℤ}
    (hends : LeavesEnds h stPolicy base t llStartTime llEndTime) {id : ℤ}
    (hid : id ∈ selectedIds h stPolicy t llStartTime llEndTime (preTriggerIdOf h base)) :
    ∃ session ∈ clientSessions (baseRows h t base llStartTime llEndTime),
      2 < (baseOccurrences h base session).length ∧ 2 < session.length := by
  rcases hends.only id hid with ⟨session, hsession, hlen, _⟩
  exact ⟨session, hsession, hlen, lt_of_lt_of_le hlen (Lib.length_occurrences_le session)⟩

variable (hleaves : LeavesFirstAndLast h stPolicy base)
  (hex : stPolicy.strExemptedEvents (preTriggerIdOf h base) = false)
  (hP : preTriggerIdOf h base ≠ clientLaunchedEvent)
  (hQ : postTriggerIdOf h base ≠ clientLaunchedEvent)

include hleaves hex hP hQ

/-- The table of these rows is one that the policy is meant to treat. -/
theorem leavesEnds_namedTable {eventIds : List String}
    (hids : ∀ e ∈ eventIds,
      e = preTriggerIdOf h base ∨ e = postTriggerIdOf h base ∨ e = clientLaunchedEvent)
    (hlen : eventIds.length ≤ dbEventQueryLimit) :
    LeavesEnds h stPolicy base (namedTable eventIds) 0 sampleEndTime := by
  refine hleaves hex hP hQ (namedTable eventIds) 0 sampleEndTime ?_
  rw [baseRows_namedTable hids, length_rows_namedTable]
  exact hlen

theorem leavesEnds_sixPre :
    LeavesEnds h stPolicy base (namedTable (List.replicate 6 (preTriggerIdOf h base))) 0
      sampleEndTime := by
  refine leavesEnds_namedTable hleaves hex hP hQ (fun e he => Or.inl (mem_replicate_pre he)) ?_
  rw [List.length_replicate]
  decide

theorem third_selected :
    ((3 : ℕ) : ℤ) ∈ selectedIds h stPolicy (namedTable (List.replicate 6 (preTriggerIdOf h base)))
      0 sampleEndTime (preTriggerIdOf h base) := by
  have hends := leavesEnds_sixPre hleaves hex hP hQ
  rcases @inner_sixPre h base with ⟨o, ho, hr⟩
  refine hends.middle _ ?_ o ho _ hr
  rw [baseRows_namedTable fun e he => Or.inl (mem_replicate_pre he),
    clientSessions_of_no_marker fun e he => (mem_replicate_pre he).symm ▸ hP]
  exact List.mem_singleton_self _

theorem cut_of_leaves :
    substrFromEnd (preTriggerIdOf h base) 3 = h.strPreTrgrEventIdSuffix.toList := by
  by_contra hcut
  have hthird := third_selected hleaves hex hP hQ
  rw [selectedIds_of_not_cut hcut] at hthird
  exact absurd hthird List.not_mem_nil

theorem isPre_of_leaves :
    isPreTrigger h (preTriggerIdOf h base) = true := by
  have hrow : sampleRow 3 (preTriggerIdOf h base) 1 ∈
      (namedTable (List.replicate 6 (preTriggerIdOf h base))).rows := by
    show _ ∈ [sampleRow 1 _ 1, sampleRow 2 _ 1, sampleRow 3 _ 1, sampleRow 4 _ 1, sampleRow 5 _ 1,
      sampleRow 6 _ 1]
    simp
  rcases (kind_of_mem_selectedIds hrow (third_selected hleaves hex hP hQ)).2.2 with ⟨x, hx, hpre⟩
  rwa [mem_replicate_pre (mem_namedTable (List.mem_of_mem_filter hx)).1] at hpre

/-- With one id for both kinds of rows the last pair is read again. -/
theorem distinct_of_leaves :
    preTriggerIdOf h base ≠ postTriggerIdOf h base := by
  intro heq
  have hends := leavesEnds_sixPre hleaves hex hP hQ
  have hfifth : (5 : ℤ) ∈ selectedIds h stPolicy
      (namedTable (List.replicate 6 (preTriggerIdOf h base))) 0 sampleEndTime
      (preTriggerIdOf h base) := by
    rw [selectedIds_sixPre (cut_of_leaves hleaves hex hP hQ) hex hP
      (isPre_of_leaves hleaves hex hP hQ)]
    split
    · simp
    · simp
  rcases hends.only _ hfifth with ⟨session, hsession, _, o, ho, r, hr, hid⟩
  rw [baseRows_namedTable fun e he => Or.inl (mem_replicate_pre he),
    clientSessions_of_no_marker fun e he => (mem_replicate_pre he).symm ▸ hP,
    List.mem_singleton] at hsession
  rw [hsession] at ho
  have hpair : Lib.inner (baseOccurrences h base
      (namedTable (List.replicate 6 (preTriggerIdOf h base))).rows) =
      [(sampleRow 3 (preTriggerIdOf h base) 1, some (sampleRow 4 (preTriggerIdOf h base) 1))] := by
    show Lib.inner (baseOccurrences h base [sampleRow 1 _ 1, sampleRow 2 _ 1, sampleRow 3 _ 1,
      sampleRow 4 _ 1, sampleRow 5 _ 1, sampleRow 6 _ 1]) = _
    simp [baseOccurrences, Lib.occurrences, Lib.inner, sampleRow, ← heq]
  rw [hpair, List.mem_singleton] at ho
  rw [ho] at hr
  simp only [occurrenceRows, Option.toList_some, List.mem_cons, List.not_mem_nil, or_false] at hr
  rcases hr with rfl | rfl
  · exact absurd (show ((3 : ℕ) : ℤ) = 5 from hid) (by decide)
  · exact absurd (show ((4 : ℕ) : ℤ) = 5 from hid) (by decide)

theorem preNotPost_of_leaves :
    isPostTrigger h (preTriggerIdOf h base) = false := by
  rw [← Bool.not_eq_true]
  intro hpost
  have hends := leavesEnds_sixPre hleaves hex hP hQ
  have hPQ := distinct_of_leaves hleaves hex hP hQ
  have hsecond : ((2 : ℕ) : ℤ) ∈ selectedIds h stPolicy
      (namedTable (List.replicate 6 (preTriggerIdOf h base))) 0 sampleEndTime
      (preTriggerIdOf h base) := by
    refine hends.middle (namedTable (List.replicate 6 (preTriggerIdOf h base))).rows ?_
      (sampleRow 2 (preTriggerIdOf h base) 1, none) ?_ _ List.mem_cons_self
    · rw [baseRows_namedTable fun e he => Or.inl (mem_replicate_pre he),
        clientSessions_of_no_marker fun e he => (mem_replicate_pre he).symm ▸ hP]
      exact List.mem_singleton_self _
    · show _ ∈ Lib.inner (baseOccurrences h base [sampleRow 1 _ 1, sampleRow 2 _ 1,
        sampleRow 3 _ 1, sampleRow 4 _ 1, sampleRow 5 _ 1, sampleRow 6 _ 1])
      simp [baseOccurrences, Lib.occurrences, Lib.inner, sampleRow, hPQ]
  rw [selectedIds_sixPre (cut_of_leaves hleaves hex hP hQ) hex hP
    (isPre_of_leaves hleaves hex hP hQ), if_pos hpost] at hsecond
  simp at hsecond

theorem markerNotPost_of_leaves :
    isPostTrigger h clientLaunchedEvent = false := by
  rw [← Bool.not_eq_true]
  intro hpost
  -- two sessions of one and two rows: nothing is to go
  have hids : ∀ e ∈ [preTriggerIdOf h base, clientLaunchedEvent, preTriggerIdOf h base,
      preTriggerIdOf h base], e = preTriggerIdOf h base ∨ e = clientLaunchedEvent := by
    intro e he
    simp only [List.mem_cons, List.not_mem_nil, or_false] at he
    tauto
  have hends := leavesEnds_namedTable hleaves hex hP hQ
    (fun e he => (hids e he).imp_right Or.inr) (by simp [dbEventQueryLimit])
  have hpre := isPre_of_leaves hleaves hex hP hQ
  have hnot := preNotPost_of_leaves hleaves hex hP hQ
  have hselected : (3 : ℤ) ∈ selectedIds h stPolicy
      (namedTable [preTriggerIdOf h base, clientLaunchedEvent, preTriggerIdOf h base,
        preTriggerIdOf h base]) 0 sampleEndTime (preTriggerIdOf h base) := by
    rw [selectedIds_namedTable (cut_of_leaves hleaves hex hP hQ) hex hP
      (fun e he => (hids e he).imp_right Or.inr)
      (by rw [length_rows_namedTable]; simp [dbEventQueryLimit])
      ⟨sampleRow 1 _ 1, List.mem_cons_self, rfl⟩]
    show (3 : ℤ) ∈ (removable [] (foundIn h [sampleRow 1 _ 1, sampleRow 2 _ 1, sampleRow 3 _ 1,
      sampleRow 4 _ 1] ++ foundIn h (leftOver h [sampleRow 1 _ 1, sampleRow 2 _ 1,
      sampleRow 3 _ 1, sampleRow 4 _ 1]))).flatMap trigEventIds
    simp [foundIn, leftOver, Takes, sampleRow, hP, hpre, hpost, hnot, removable, Lib.inner,
      TrigEventDetails.of, trigEventIds]
  rcases session_of_selected hends hselected with ⟨session, hsession, _, hlen⟩
  rw [baseRows_namedTable fun e he => (hids e he).imp_right Or.inr] at hsession
  have hsplit : clientSessions (namedTable [preTriggerIdOf h base, clientLaunchedEvent,
      preTriggerIdOf h base, preTriggerIdOf h base]).rows =
      [[sampleRow 1 (preTriggerIdOf h base) 1],
        [sampleRow 3 (preTriggerIdOf h base) 1, sampleRow 4 (preTriggerIdOf h base) 1]] := by
    show List.splitOnP isSessionMarker [sampleRow 1 _ 1, sampleRow 2 _ 1, sampleRow 3 _ 1,
      sampleRow 4 _ 1] = _
    simp [List.splitOnP_cons_eq_if_modifyHead, isSessionMarker, sampleRow, hP]
  rw [hsplit, List.mem_pair] at hsession
  rcases hsession with rfl | rfl
  · exact absurd hlen (by simp)
  · exact absurd hlen (by simp)

/-- Three pairs in one session: the second one is to go. -/
theorem fourth_selected :
    ∃ t r, r ∈ t.rows ∧ r.eventId = postTriggerIdOf h base ∧
      (r.id : ℤ) ∈ selectedIds h stPolicy t 0 sampleEndTime (preTriggerIdOf h base) := by
  have hids : ∀ e ∈ [preTriggerIdOf h base, postTriggerIdOf h base, preTriggerIdOf h base,
      postTriggerIdOf h base, preTriggerIdOf h base, postTriggerIdOf h base],
      e = preTriggerIdOf h base ∨ e = postTriggerIdOf h base := by
    intro e he
    simp only [List.mem_cons, List.not_mem_nil, or_false] at he
    tauto
  have hends := leavesEnds_namedTable hleaves hex hP hQ
    (fun e he => (hids e he).imp_right Or.inl) (by simp [dbEventQueryLimit])
  refine ⟨_, sampleRow 4 (postTriggerIdOf h base) 1, ?_, rfl, hends.middle
    (namedTable [preTriggerIdOf h base, postTriggerIdOf h base, preTriggerIdOf h base,
      postTriggerIdOf h base, preTriggerIdOf h base, postTriggerIdOf h base]).rows ?_
    (sampleRow 3 (preTriggerIdOf h base) 1, some (sampleRow 4 (postTriggerIdOf h base) 1)) ?_ _ ?_⟩
  · show _ ∈ [sampleRow 1 _ 1, sampleRow 2 _ 1, sampleRow 3 _ 1, sampleRow 4 _ 1, sampleRow 5 _ 1,
      sampleRow 6 _ 1]
    simp
  · rw [baseRows_namedTable fun e he => (hids e he).imp_right Or.inl,
      clientSessions_of_no_marker fun e he => by
        rcases hids e he with rfl | rfl
        · exact hP
        · exact hQ]
    exact List.mem_singleton_self _
  · show _ ∈ Lib.inner (baseOccurrences h base [sampleRow 1 _ 1, sampleRow 2 _ 1,
      sampleRow 3 _ 1, sampleRow 4 _ 1, sampleRow 5 _ 1, sampleRow 6 _ 1])
    simp [baseOccurrences, Lib.occurrences, Lib.inner, sampleRow]
  · simp [occurrenceRows]

theorem partner_of_leaves :
    postTriggerEventId (preTriggerIdOf h base) h.strPostTrgrEventIdSuffix =
      postTriggerIdOf h base := by
  rcases fourth_selected hleaves hex hP hQ with ⟨t, r, hr, hrid, hid⟩
  rcases (kind_of_mem_selectedIds hr hid).2.1 with heq | heq | heq
  · exact absurd (heq.symm.trans hrid) (distinct_of_leaves hleaves hex hP hQ)
  · exact heq.symm.trans hrid
  · exact absurd (hrid.symm.trans heq) hQ

theorem postNotPre_of_leaves :
    isPreTrigger h (postTriggerIdOf h base) = false := by
  rw [← Bool.not_eq_true]
  intro hpost
  -- a post-trigger row and two occurrences: nothing is to go
  have hids : ∀ e ∈ [postTriggerIdOf h base, preTriggerIdOf h base, preTriggerIdOf h base],
      e = preTriggerIdOf h base ∨ e = postTriggerIdOf h base := by
    intro e he
    simp only [List.mem_cons, List.not_mem_nil, or_false] at he
    tauto
  have hends := leavesEnds_namedTable hleaves hex hP hQ
    (fun e he => (hids e he).imp_right Or.inl) (by simp [dbEventQueryLimit])
  have hpre := isPre_of_leaves hleaves hex hP hQ
  have hnot := preNotPost_of_leaves hleaves hex hP hQ
  have hselected : (2 : ℤ) ∈ selectedIds h stPolicy
      (namedTable [postTriggerIdOf h base, preTriggerIdOf h base, preTriggerIdOf h base]) 0
      sampleEndTime (preTriggerIdOf h base) := by
    rw [selectedIds_namedTable (cut_of_leaves hleaves hex hP hQ) hex hP
      (fun e he => (hids e he).imp_right fun heq =>
        Or.inl (heq.trans (partner_of_leaves hleaves hex hP hQ).symm))
      (by rw [length_rows_namedTable]; simp [dbEventQueryLimit])
      ⟨sampleRow 2 _ 1, List.mem_cons_of_mem _ List.mem_cons_self, rfl⟩]
    show (2 : ℤ) ∈ (removable [] (foundIn h [sampleRow 1 _ 1, sampleRow 2 _ 1, sampleRow 3 _ 1] ++
      foundIn h (leftOver h [sampleRow 1 _ 1, sampleRow 2 _ 1,
      sampleRow 3 _ 1]))).flatMap trigEventIds
    simp [foundIn, leftOver, Takes, sampleRow, hP, hQ, hpre, hpost, hnot, removable, Lib.inner,
      TrigEventDetails.of, trigEventIds]
  rcases session_of_selected hends hselected with ⟨session, hsession, hlen, _⟩
  rw [baseRows_namedTable fun e he => (hids e he).imp_right Or.inl,
    clientSessions_of_no_marker fun e he => by
      rcases hids e he with rfl | rfl
      · exact hP
      · exact hQ, List.mem_singleton] at hsession
  rw [hsession] at hlen
  have hfew : (baseOccurrences h base [sampleRow 1 (postTriggerIdOf h base) 1,
      sampleRow 2 (preTriggerIdOf h base) 1,
      sampleRow 3 (preTriggerIdOf h base) 1]).length ≤ 2 := by
    refine (congrArg List.length (Lib.occurrences_cons_of_not ?_ _)).le.trans
      (Lib.length_occurrences_le _)
    exact decide_eq_false (distinct_of_leaves hleaves hex hP hQ).symm
  exact absurd hlen (not_lt.2 hfew)

theorem isPost_of_leaves :
    isPostTrigger h (postTriggerIdOf h base) = true := by
  rcases fourth_selected hleaves hex hP hQ with ⟨t, r, hr, hrid, hid⟩
  rcases (kind_of_mem_selectedIds hr hid).1 with hpre | hpost
  · rw [hrid, postNotPre_of_leaves hleaves hex hP hQ] at hpre
    exact absurd hpre (by decide)
  · rwa [hrid] at hpost


theorem suffixesFit_of_leaves : SuffixesFit h base where
  cut := cut_of_leaves hleaves hex hP hQ
  partner := partner_of_leaves hleaves hex hP hQ
  isPre := isPre_of_leaves hleaves hex hP hQ
  isPost := isPost_of_leaves hleaves hex hP hQ
  postNotPre := postNotPre_of_leaves hleaves hex hP hQ
  preNotPost := preNotPost_of_leaves hleaves hex hP hQ
  markerNotPost := markerNotPost_of_leaves hleaves hex hP hQ

end Necessary

/-- The default suffixes fit. -/
example : SuffixesFit (sampleHandler [] []) "HarshBrake" := by
  constructor
  all_goals decide

/-- A configuration with suffixes of five and three characters. -/
def startEndHandler : GRHandler :=
  { sampleHandler [] [] with
    strPreTrgrEventIdSuffix := "START"
    strPostTrgrEventIdSuffix := "END" }

end GranularityReduction

end DeviceClient
