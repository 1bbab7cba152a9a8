import DeviceClient.Db.GranularityExemption
import DeviceClient.Lib.Occurrences

/-!
# Leave first and last

The policy for repeated triggers looks for the occurrences of a base event in
each client session: a pre-trigger row, with the post-trigger row directly
behind it if there is one. All but the first and the last are to go.

* `baseOccurrences`: the occurrences in a session, by the ids of the base event.
* `LeavesEnds`: what the policy selects is as it is meant.
* `SuffixesFit`: the configured suffixes do what the handler takes for granted.
* `givenBySessions_foundIn`: what a page contributes, session by session.
* `leavesEnds_of_fit`: for rows that fit in one page, suffixes that fit are enough.
-/

namespace DeviceClient

namespace GranularityReduction

/-! ## The rows of a base event -/

/-- The pre-trigger id of a base event. -/
def preTriggerIdOf (h : GRHandler) (base : String) : String := base ++ h.strPreTrgrEventIdSuffix

/-- The post-trigger id of a base event. -/
def postTriggerIdOf (h : GRHandler) (base : String) : String := base ++ h.strPostTrgrEventIdSuffix

/-- A row of the base event with attachments, or a session marker, in the time range. -/
def baseSelection (h : GRHandler) (base : String) (llStartTime llEndTime : ℤ) (r : GranularRow) :
    Bool :=
  inTimeRange llStartTime llEndTime r &&
    ((decide (r.eventId = preTriggerIdOf h base) || decide (r.eventId = postTriggerIdOf h base)) &&
        decide (r.hasAttach = 1) ||
      isSessionMarker r)

/-- These rows in id order; ids start at one. -/
def baseRows (h : GRHandler) (t : GranularTable) (base : String) (llStartTime llEndTime : ℤ) :
    List GranularRow :=
  (t.rows.filter (baseSelection h base llStartTime llEndTime)).filter fun r => decide (0 < r.key)

/-- The rows of each session. -/
def clientSessions (rows : List GranularRow) : List (List GranularRow) :=
  rows.splitOnP isSessionMarker

/-- The occurrences of the base event in a session. -/
def baseOccurrences (h : GRHandler) (base : String) (session : List GranularRow) :
    List (GranularRow × Option GranularRow) :=
  Lib.occurrences (fun r => decide (r.eventId = preTriggerIdOf h base))
    (fun r => decide (r.eventId = postTriggerIdOf h base)) session

/-- The rows of an occurrence. -/
def occurrenceRows (o : GranularRow × Option GranularRow) : List GranularRow := o.1 :: o.2.toList

/-! ## The selection -/

/-- The pre-trigger ids that the policy considers: those its first statement lists. -/
def consideredIds (h : GRHandler) (stPolicy : GRPolicy) (t : GranularTable)
    (llStartTime llEndTime : ℤ) : Lib.SortedSet String :=
  uniqueEventIds (t.rows.filter (preTriggerSelection llStartTime llEndTime
    h.strPreTrgrEventIdSuffix stPolicy.strExemptedEvents))

/-- The ids that the policy selects for a pre-trigger id, if it considers that id. -/
def selectedIds (h : GRHandler) (stPolicy : GRPolicy) (t : GranularTable)
    (llStartTime llEndTime : ℤ) (strPreTrigEventId : String) : List ℤ :=
  if strPreTrigEventId ∈ consideredIds h stPolicy t llStartTime llEndTime then
    (populateTriggerEventsList h dbEventQueryLimit t strPreTrigEventId llStartTime
      llEndTime).toDelete.flatMap trigEventIds
  else []

/-- The selection as it is meant: in a session with more than two occurrences all
rows of all but the first and the last one, in another session none; and a
post-trigger row with its pre-trigger row only. -/
structure LeavesEnds (h : GRHandler) (stPolicy : GRPolicy) (base : String) (t : GranularTable)
    (llStartTime llEndTime : ℤ) : Prop where
  middle : ∀ session ∈ clientSessions (baseRows h t base llStartTime llEndTime),
    ∀ o ∈ Lib.inner (baseOccurrences h base session), ∀ r ∈ occurrenceRows o,
      (r.id : ℤ) ∈ selectedIds h stPolicy t llStartTime llEndTime (preTriggerIdOf h base)
  only : ∀ id ∈ selectedIds h stPolicy t llStartTime llEndTime (preTriggerIdOf h base),
    ∃ session ∈ clientSessions (baseRows h t base llStartTime llEndTime),
      2 < (baseOccurrences h base session).length ∧
        ∃ o ∈ Lib.inner (baseOccurrences h base session), ∃ r ∈ occurrenceRows o, (r.id : ℤ) = id
  together : ∀ r ∈ baseRows h t base llStartTime llEndTime,
    r.eventId = postTriggerIdOf h base →
    (r.id : ℤ) ∈ selectedIds h stPolicy t llStartTime llEndTime (preTriggerIdOf h base) →
    ∃ session ∈ clientSessions (baseRows h t base llStartTime llEndTime), ∃ x,
      (x, some r) ∈ baseOccurrences h base session ∧
        (x.id : ℤ) ∈ selectedIds h stPolicy t llStartTime llEndTime (preTriggerIdOf h base)

/-- The policy leaves the first and the last occurrence of a base event: one that
is not exempted and whose ids are not the session marker's. -/
def LeavesFirstAndLast (h : GRHandler) (stPolicy : GRPolicy) (base : String) : Prop :=
  stPolicy.strExemptedEvents (preTriggerIdOf h base) = false →
  preTriggerIdOf h base ≠ clientLaunchedEvent → postTriggerIdOf h base ≠ clientLaunchedEvent →
    ∀ t llStartTime llEndTime,
      (baseRows h t base llStartTime llEndTime).length ≤ dbEventQueryLimit →
      LeavesEnds h stPolicy base t llStartTime llEndTime

/-- The suffixes as the handler takes them: three characters of the pre-trigger id
are its suffix, the post-trigger id comes out as long as the pre-trigger id, and
the patterns tell the two ids and the session marker apart. -/
structure SuffixesFit (h : GRHandler) (base : String) : Prop where
  cut : substrFromEnd (preTriggerIdOf h base) 3 = h.strPreTrgrEventIdSuffix.toList
  partner : postTriggerEventId (preTriggerIdOf h base) h.strPostTrgrEventIdSuffix =
    postTriggerIdOf h base
  isPre : isPreTrigger h (preTriggerIdOf h base) = true
  isPost : isPostTrigger h (postTriggerIdOf h base) = true
  postNotPre : isPreTrigger h (postTriggerIdOf h base) = false
  preNotPost : isPostTrigger h (preTriggerIdOf h base) = false
  markerNotPost : isPostTrigger h clientLaunchedEvent = false

/-! ## The handler's lists, session by session -/

/-- What the history of a scan adds to the list to delete. -/
def removable : List TrigEventDetails → List Found → List TrigEventDetails
  | vecTrigEvnts, [] => Lib.inner vecTrigEvnts
  | vecTrigEvnts, .session _ :: xs => Lib.inner vecTrigEvnts ++ removable [] xs
  | vecTrigEvnts, .trigger e :: xs => removable (vecTrigEvnts ++ [e]) xs

/-- An occurrence as the handler notes it. -/
def noted (o : GranularRow × Option GranularRow) : TrigEventDetails := .of o.1 o.2

section Handler

variable {h : GRHandler}

/-- Two triggers or fewer are all first or last. -/
theorem leaveFirstAndLast_eq (l : List TrigEventDetails) : leaveFirstAndLast l = Lib.inner l := by
  unfold leaveFirstAndLast
  split
  · exact List.tail_dropLast
  · rename_i hlen
    exact (Lib.inner_eq_nil (by omega)).symm

theorem toDelete_foldl_record (xs : List Found) (s : TriggerEvents) :
    (xs.foldl TriggerEvents.record s).toDelete =
      s.vecTrigEvntsToDelete ++ removable s.vecTrigEvnts xs := by
  induction xs generalizing s with
  | nil =>
    rw [List.foldl_nil, removable, ← leaveFirstAndLast_eq]
    rfl
  | cons x xs ih =>
    rw [List.foldl_cons, ih]
    cases x with
    | session id =>
      simp only [TriggerEvents.record, removable, leaveFirstAndLast_eq, List.append_assoc]
    | trigger e => simp only [TriggerEvents.record, removable]

/-- The patterns of the handler, on rows. -/
def isPreTriggerRow (h : GRHandler) (r : GranularRow) : Bool := isPreTrigger h r.eventId

def isPostTriggerRow (h : GRHandler) (r : GranularRow) : Bool := isPostTrigger h r.eventId

/-- The occurrences by the patterns of the handler. -/
def foundOccurrences (h : GRHandler) (session : List GranularRow) :
    List (GranularRow × Option GranularRow) :=
  Lib.occurrences (isPreTriggerRow h) (isPostTriggerRow h) session

/-- What a history adds is what the sessions of the rows give, the open one first. -/
def GivenBySessions (h : GRHandler) (rows : List GranularRow) (xs : List Found) : Prop :=
  ∀ (acc : List (GranularRow × Option GranularRow)) (session : List GranularRow)
    (sessions : List (List GranularRow)), clientSessions rows = session :: sessions →
    removable (acc.map noted) xs =
      (Lib.inner (acc ++ foundOccurrences h session) ++
        sessions.flatMap fun s => Lib.inner (foundOccurrences h s)).map noted

theorem clientSessions_cons (rows : List GranularRow) :
    ∃ session sessions, clientSessions rows = session :: sessions :=
  List.exists_cons_of_ne_nil (List.splitOnP_ne_nil isSessionMarker rows)

theorem givenBySessions_nil : GivenBySessions h [] [] := by
  intro acc session sessions hsplit
  have hnil : [[]] = session :: sessions := hsplit
  rw [List.cons.injEq] at hnil
  rcases hnil with ⟨rfl, rfl⟩
  unfold foundOccurrences
  rw [removable, Lib.inner_map, Lib.occurrences_nil, List.append_nil, List.flatMap_nil,
    List.append_nil]

theorem givenBySessions_marker {r : GranularRow} (hr : isSessionMarker r = true)
    {rows : List GranularRow} {xs : List Found} (hxs : GivenBySessions h rows xs) :
    GivenBySessions h (r :: rows) (.session r.id :: xs) := by
  intro acc session sessions hsplit
  rcases clientSessions_cons rows with ⟨s, ss, hrows⟩
  unfold clientSessions at hsplit
  rw [Lib.splitOnP_cons_marker hr, ← clientSessions, hrows, List.cons.injEq] at hsplit
  rcases hsplit with ⟨rfl, rfl⟩
  have hopen := hxs [] s ss hrows
  rw [List.map_nil, List.nil_append] at hopen
  rw [removable, hopen, Lib.inner_map, ← List.map_append, List.flatMap_cons]
  unfold foundOccurrences
  rw [Lib.occurrences_nil, List.append_nil]

theorem givenBySessions_skip {r : GranularRow} (hr : isSessionMarker r = false)
    (hpre : isPreTriggerRow h r = false) {rows : List GranularRow} {xs : List Found}
    (hxs : GivenBySessions h rows xs) : GivenBySessions h (r :: rows) xs := by
  intro acc session sessions hsplit
  rcases clientSessions_cons rows with ⟨s, ss, hrows⟩
  unfold clientSessions at hsplit
  rw [Lib.splitOnP_cons_of_not hr hrows, List.cons.injEq] at hsplit
  rcases hsplit with ⟨rfl, rfl⟩
  rw [hxs acc s ss hrows]
  unfold foundOccurrences
  rw [Lib.occurrences_cons_of_not hpre]

theorem givenBySessions_alone {r : GranularRow} (hr : isSessionMarker r = false)
    (hpre : isPreTriggerRow h r = true) {rows : List GranularRow}
    (hrows : ∀ q, rows.head? = some q → isPostTriggerRow h q = false) {xs : List Found}
    (hxs : GivenBySessions h rows xs) :
    GivenBySessions h (r :: rows) (.trigger (.of r none) :: xs) := by
  intro acc session sessions hsplit
  rcases clientSessions_cons rows with ⟨s, ss, hrest⟩
  unfold clientSessions at hsplit
  rw [Lib.splitOnP_cons_of_not hr hrest, List.cons.injEq] at hsplit
  rcases hsplit with ⟨rfl, rfl⟩
  have hopen := hxs (acc ++ [(r, none)]) s ss hrest
  rw [List.map_append, List.append_assoc, List.singleton_append] at hopen
  unfold foundOccurrences at hopen ⊢
  rw [Lib.occurrences_cons_alone hpre fun q hq => hrows q (Lib.head?_splitOnP hrest hq), removable]
  exact hopen

theorem givenBySessions_pair {r q : GranularRow} (hr : isSessionMarker r = false)
    (hq : isSessionMarker q = false) (hpre : isPreTriggerRow h r = true)
    (hpost : isPostTriggerRow h q = true) {rows : List GranularRow} {xs : List Found}
    (hxs : GivenBySessions h rows xs) :
    GivenBySessions h (r :: q :: rows) (.trigger (.of r (some q)) :: xs) := by
  intro acc session sessions hsplit
  rcases clientSessions_cons rows with ⟨s, ss, hrest⟩
  unfold clientSessions at hsplit
  rw [Lib.splitOnP_cons_of_not hr (Lib.splitOnP_cons_of_not hq hrest), List.cons.injEq] at hsplit
  rcases hsplit with ⟨rfl, rfl⟩
  have hopen := hxs (acc ++ [(r, some q)]) s ss hrest
  rw [List.map_append, List.append_assoc, List.singleton_append] at hopen
  unfold foundOccurrences at hopen ⊢
  rw [Lib.occurrences_cons_pair hpre hpost, removable]
  exact hopen

/-- A row that takes no partner, in front of the others. -/
theorem givenBySessions_front {r : GranularRow} {rows : List GranularRow} {xs : List Found}
    (halone : ∀ q, rows.head? = some q → ¬ Takes h r q) (hxs : GivenBySessions h rows xs) :
    GivenBySessions h (r :: rows) (foundIn h [r] ++ xs) := by
  cases hr : isSessionMarker r with
  | true =>
    simp only [foundIn, if_pos (of_decide_eq_true hr), List.singleton_append]
    exact givenBySessions_marker hr hxs
  | false =>
    have hne : r.eventId ≠ clientLaunchedEvent := of_decide_eq_false hr
    cases hpre : isPreTrigger h r.eventId with
    | false =>
      simp only [foundIn, if_neg hne, hpre, if_true, List.nil_append]
      exact givenBySessions_skip hr hpre hxs
    | true =>
      simp only [foundIn, if_neg hne, hpre, Bool.true_eq_false, if_false, List.singleton_append]
      refine givenBySessions_alone hr hpre (fun q hq => ?_) hxs
      rw [← Bool.not_eq_true]
      exact fun hpost => halone q hq ⟨hne, hpre, hpost⟩

/-- Where no session marker is taken for a post-trigger row, what one page
contributes are the occurrences of its sessions. -/
theorem givenBySessions_foundIn (hmark : isPostTrigger h clientLaunchedEvent = false)
    (rows : List GranularRow) : GivenBySessions h rows (foundIn h rows) := by
  induction rows using endsPending.induct h with
  | case1 => exact givenBySessions_nil
  | case2 r =>
    have hone := @givenBySessions_front h r [] [] (fun q hq => by cases hq) givenBySessions_nil
    rwa [List.append_nil] at hone
  | case3 r q page ht ih =>
    have hq : isSessionMarker q = false := by
      refine decide_eq_false fun hq => ?_
      have hpost := ht.2.2
      rw [hq, hmark] at hpost
      exact absurd hpost (by decide)
    rw [foundIn_cons_takes ht]
    exact givenBySessions_pair (decide_eq_false ht.1) hq ht.2.1 ht.2.2 ih
  | case4 r q page ht ih =>
    rw [foundIn_cons_alone ht]
    refine givenBySessions_front (fun x hx => ?_) ih
    rw [← Option.some.inj hx]
    exact ht

/-- Rows that fit in one page: a partner at the end is read once more. -/
theorem toDelete_of_onePage {t : GranularTable} {e : String} {llStartTime llEndTime : ℤ}
    (hlen : (rowsRead h t e llStartTime llEndTime).length ≤ dbEventQueryLimit) :
    (populateTriggerEventsList h dbEventQueryLimit t e llStartTime llEndTime).toDelete =
      removable [] (foundIn h (rowsRead h t e llStartTime llEndTime) ++
        foundIn h (leftOver h (rowsRead h t e llStartTime llEndTime))) := by
  have hbehind : behindPage dbEventQueryLimit (rowsRead h t e llStartTime llEndTime) = [] := by
    unfold behindPage Lib.limit
    rw [if_neg (by decide), List.take_of_length_le hlen, List.drop_length]
  rcases populateTriggerEventsList_sameGroups (h := h) dbEventQueryLimit t e llStartTime
    llEndTime with ⟨_, hdel, htmp⟩
  rw [← foundBy_of_behindPage_nil hbehind]
  have hfold := toDelete_foldl_record
    (foundBy h dbEventQueryLimit (rowsRead h t e llStartTime llEndTime)) .empty
  unfold TriggerEvents.toDelete at hfold ⊢
  rw [hdel, htmp, hfold]
  rfl

/-- What the policy selects for one page, by the patterns of the handler. -/
theorem mem_toDelete_of_onePage {t : GranularTable} {e : String} {llStartTime llEndTime : ℤ}
    (hmark : isPostTrigger h clientLaunchedEvent = false)
    (hquiet : ∀ r ∈ rowsRead h t e llStartTime llEndTime, isPostTrigger h r.eventId = true →
      isPreTrigger h r.eventId = false)
    (hlen : (rowsRead h t e llStartTime llEndTime).length ≤ dbEventQueryLimit) {id : ℤ} :
    id ∈ (populateTriggerEventsList h dbEventQueryLimit t e llStartTime
        llEndTime).toDelete.flatMap trigEventIds ↔
      ∃ session ∈ clientSessions (rowsRead h t e llStartTime llEndTime),
        ∃ o ∈ Lib.inner (foundOccurrences h session), ∃ r ∈ occurrenceRows o, (r.id : ℤ) = id := by
  have hleft : foundIn h (leftOver h (rowsRead h t e llStartTime llEndTime)) = [] := by
    rcases leftOver_cases (h := h) (rowsRead h t e llStartTime llEndTime) with
      hnil | ⟨a, v, w, hsplit, hvw, hone⟩
    · rw [hnil]
      rfl
    · rw [hone]
      -- a partner is no marker and no pre-trigger row
      have hw : w ∈ rowsRead h t e llStartTime llEndTime := by
        rw [hsplit]
        simp
      have hne : w.eventId ≠ clientLaunchedEvent := by
        intro hw
        have hpost := hvw.2.2
        rw [hw, hmark] at hpost
        exact absurd hpost (by decide)
      exact foundIn_of_quiet ⟨hne, hquiet w hw hvw.2.2⟩
  rcases clientSessions_cons (rowsRead h t e llStartTime llEndTime) with ⟨s, ss, hrows⟩
  have hgiven := givenBySessions_foundIn hmark (rowsRead h t e llStartTime llEndTime) [] s ss hrows
  rw [List.map_nil, List.nil_append] at hgiven
  rw [toDelete_of_onePage hlen, hleft, List.append_nil, hgiven, hrows,
    ← List.flatMap_cons (f := fun s => Lib.inner (foundOccurrences h s)), List.mem_flatMap]
  constructor
  · rintro ⟨d, hd, hid⟩
    rcases List.mem_map.1 hd with ⟨o, ho, rfl⟩
    rcases List.mem_flatMap.1 ho with ⟨session, hsession, hin⟩
    refine ⟨session, hsession, o, hin, ?_⟩
    rcases mem_trigEventIds_of.1 hid with hr | ⟨q, hq, hqid⟩
    · exact ⟨o.1, List.mem_cons_self, hr⟩
    · exact ⟨q, List.mem_cons_of_mem _ (Option.mem_toList.2 hq), hqid⟩
  · rintro ⟨session, hsession, o, hin, r, hr, hid⟩
    refine ⟨noted o, List.mem_map.2 ⟨o, List.mem_flatMap.2 ⟨session, hsession, hin⟩, rfl⟩, ?_⟩
    rcases List.mem_cons.1 hr with rfl | hr
    · exact mem_trigEventIds_of.2 (Or.inl hid)
    · exact mem_trigEventIds_of.2 (Or.inr ⟨r, Option.mem_toList.1 hr, hid⟩)

end Handler

/-! ## Where the suffixes fit -/

section Fit

variable {h : GRHandler} {stPolicy : GRPolicy} {base : String} {t : GranularTable}
  {llStartTime llEndTime : ℤ}

theorem mem_baseRows {r : GranularRow} :
    r ∈ baseRows h t base llStartTime llEndTime ↔
      r ∈ t.rows ∧ inTimeRange llStartTime llEndTime r = true ∧
        ((r.eventId = preTriggerIdOf h base ∨ r.eventId = postTriggerIdOf h base) ∧
            r.hasAttach = 1 ∨ r.eventId = clientLaunchedEvent) ∧ 0 < r.id := by
  unfold baseRows baseSelection isSessionMarker
  rw [List.mem_filter, List.mem_filter]
  simp only [Bool.and_eq_true, Bool.or_eq_true, decide_eq_true_eq]
  exact and_assoc.trans (and_congr_right fun _ => and_assoc)

/-- With the right partner the handler reads the rows of the base event. -/
theorem rowsRead_eq_baseRows (hpartner : postTriggerEventId (preTriggerIdOf h base)
      h.strPostTrgrEventIdSuffix = postTriggerIdOf h base) :
    rowsRead h t (preTriggerIdOf h base) llStartTime llEndTime =
      baseRows h t base llStartTime llEndTime := by
  unfold rowsRead triggerRows baseRows
  congr 1
  refine List.filter_congr fun r _ => ?_
  unfold triggerSelection baseSelection isSessionMarker
  rw [hpartner]

theorem mem_of_mem_baseOccurrences {session : List GranularRow}
    {o : GranularRow × Option GranularRow} (ho : o ∈ baseOccurrences h base session)
    (hsession : session ∈ clientSessions (baseRows h t base llStartTime llEndTime)) :
    o.1 ∈ baseRows h t base llStartTime llEndTime ∧ o.1.eventId = preTriggerIdOf h base ∧
      ∀ q, o.2 = some q → q ∈ baseRows h t base llStartTime llEndTime ∧
        q.eventId = postTriggerIdOf h base := by
  rcases Lib.of_mem_occurrences ho with ⟨hmem, hopen, hclose⟩
  refine ⟨(Lib.mem_of_mem_splitOnP hsession hmem).1, of_decide_eq_true hopen, fun q hq => ?_⟩
  exact ⟨(Lib.mem_of_mem_splitOnP hsession (hclose q hq).1).1, of_decide_eq_true (hclose q hq).2⟩

/-- The statement lists the pre-trigger id if a row of the base event has it. -/
theorem considered_of_mem (hcut : substrFromEnd (preTriggerIdOf h base) 3 =
      h.strPreTrgrEventIdSuffix.toList)
    (hex : stPolicy.strExemptedEvents (preTriggerIdOf h base) = false)
    (hne : preTriggerIdOf h base ≠ clientLaunchedEvent) {r : GranularRow}
    (hr : r ∈ baseRows h t base llStartTime llEndTime)
    (hid : r.eventId = preTriggerIdOf h base) :
    preTriggerIdOf h base ∈ consideredIds h stPolicy t llStartTime llEndTime := by
  rcases mem_baseRows.1 hr with ⟨hrow, hrange, hkind, _⟩
  refine mem_uniqueEventIds.2 ⟨r, List.mem_filter.2 ⟨hrow, ?_⟩, hid⟩
  have hattach : r.hasAttach = 1 := by
    rcases hkind with ⟨_, hattach⟩ | hmark
    · exact hattach
    · exact absurd (hid.symm.trans hmark) hne
  unfold preTriggerSelection notExempted
  rw [hrange, hid, hex, hattach, hcut]
  simp [hne]

/-- Rows of a session keep the pattern of their id. -/
theorem foundOccurrences_eq (hfit : SuffixesFit h base) {session : List GranularRow}
    (hsession : session ∈ clientSessions (baseRows h t base llStartTime llEndTime)) :
    foundOccurrences h session = baseOccurrences h base session := by
  have hdistinct : preTriggerIdOf h base ≠ postTriggerIdOf h base := by
    intro heq
    have hpre := hfit.isPre
    rw [heq, hfit.postNotPre] at hpre
    exact absurd hpre (by decide)
  have hkind : ∀ r ∈ session,
      r.eventId = preTriggerIdOf h base ∨ r.eventId = postTriggerIdOf h base := by
    intro r hr
    rcases Lib.mem_of_mem_splitOnP hsession hr with ⟨hrow, hmark⟩
    rcases (mem_baseRows.1 hrow).2.2.1 with hids | hlaunched
    · exact hids.1
    · exact absurd hlaunched (of_decide_eq_false hmark)
  unfold foundOccurrences baseOccurrences
  refine Lib.occurrences_congr (fun r hr => ?_) (fun r hr => ?_)
  · unfold isPreTriggerRow
    rcases hkind r hr with hid | hid
    · rw [hid, hfit.isPre, decide_eq_true rfl]
    · rw [hid, hfit.postNotPre, decide_eq_false hdistinct.symm]
  · unfold isPostTriggerRow
    rcases hkind r hr with hid | hid
    · rw [hid, hfit.preNotPost, decide_eq_false hdistinct]
    · rw [hid, hfit.isPost, decide_eq_true rfl]

/-- Where the suffixes fit, the policy selects what it is meant to. -/
theorem mem_selectedIds_iff (hfit : SuffixesFit h base)
    (hex : stPolicy.strExemptedEvents (preTriggerIdOf h base) = false)
    (hne : preTriggerIdOf h base ≠ clientLaunchedEvent)
    (hlen : (baseRows h t base llStartTime llEndTime).length ≤ dbEventQueryLimit) {id : ℤ} :
    id ∈ selectedIds h stPolicy t llStartTime llEndTime (preTriggerIdOf h base) ↔
      ∃ session ∈ clientSessions (baseRows h t base llStartTime llEndTime),
        ∃ o ∈ Lib.inner (baseOccurrences h base session),
          ∃ r ∈ occurrenceRows o, (r.id : ℤ) = id := by
  have hrows := @rowsRead_eq_baseRows h base t llStartTime llEndTime hfit.partner
  have hquiet : ∀ r ∈ rowsRead h t (preTriggerIdOf h base) llStartTime llEndTime,
      isPostTrigger h r.eventId = true → isPreTrigger h r.eventId = false := by
    intro r hr hpost
    rw [hrows] at hr
    rcases (mem_baseRows.1 hr).2.2.1 with ⟨hid | hid, _⟩ | hid
    · rw [hid, hfit.preNotPost] at hpost
      exact absurd hpost (by decide)
    · rw [hid]
      exact hfit.postNotPre
    · rw [hid, hfit.markerNotPost] at hpost
      exact absurd hpost (by decide)
  unfold selectedIds
  split
  · rw [mem_toDelete_of_onePage hfit.markerNotPost hquiet (by rw [hrows]; exact hlen), hrows]
    refine exists_congr fun session => and_congr_right fun hsession => ?_
    rw [foundOccurrences_eq hfit hsession]
  · rename_i hnot
    refine ⟨fun hid => absurd hid List.not_mem_nil, ?_⟩
    rintro ⟨session, hsession, o, ho, _⟩
    rcases mem_of_mem_baseOccurrences (Lib.mem_of_mem_inner ho) hsession with ⟨hmem, hid, _⟩
    exact absurd (considered_of_mem hfit.cut hex hne hmem hid) hnot

theorem leavesEnds_of_fit (hfit : SuffixesFit h base)
    (hex : stPolicy.strExemptedEvents (preTriggerIdOf h base) = false)
    (hne : preTriggerIdOf h base ≠ clientLaunchedEvent)
    (hlen : (baseRows h t base llStartTime llEndTime).length ≤ dbEventQueryLimit) :
    LeavesEnds h stPolicy base t llStartTime llEndTime where
  middle := by
    intro session hsession o ho r hr
    exact (mem_selectedIds_iff hfit hex hne hlen).2 ⟨session, hsession, o, ho, r, hr, rfl⟩
  only := by
    intro id hid
    rcases (mem_selectedIds_iff hfit hex hne hlen).1 hid with ⟨session, hsession, o, ho, hrest⟩
    refine ⟨session, hsession, ?_, o, ho, hrest⟩
    by_contra hfew
    rw [Lib.inner_eq_nil (not_lt.1 hfew)] at ho
    exact absurd ho List.not_mem_nil
  together := by
    intro r hr hpost hid
    rcases (mem_selectedIds_iff hfit hex hne hlen).1 hid with
      ⟨session, hsession, o, ho, x, hx, hxid⟩
    have hocc := mem_of_mem_baseOccurrences (Lib.mem_of_mem_inner ho) hsession
    have hsame : ∀ y ∈ baseRows h t base llStartTime llEndTime, y.id = x.id → y = r := by
      intro y hy hyx
      refine t.eq_of_key_eq (mem_baseRows.1 hy).1 (mem_baseRows.1 hr).1 ?_
      show y.id = r.id
      rw [hyx]
      exact_mod_cast hxid
    have hfirst : (o.1.id : ℤ) ∈
        selectedIds h stPolicy t llStartTime llEndTime (preTriggerIdOf h base) :=
      (mem_selectedIds_iff hfit hex hne hlen).2
        ⟨session, hsession, o, ho, o.1, List.mem_cons_self, rfl⟩
    rcases List.mem_cons.1 hx with rfl | hx
    · -- the row of the post-trigger id would be the pre-trigger row
      have heq := hsame o.1 hocc.1 rfl
      have hpre := hfit.isPre
      rw [← hocc.2.1, heq, hpost, hfit.postNotPre] at hpre
      exact absurd hpre (by decide)
    · have hq : o.2 = some x := Option.mem_toList.1 hx
      have heq := hsame x (hocc.2.2 x hq).1 rfl
      refine ⟨session, hsession, o.1, ?_, hfirst⟩
      rw [← heq, ← hq]
      exact Lib.mem_of_mem_inner ho

end Fit

end GranularityReduction

end DeviceClient
