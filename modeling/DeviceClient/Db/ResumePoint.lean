import DeviceClient.Db.AlternatePass

/-!
# The resume point of the reduction

A run of the reduction starts its first pass of the alternate policy at the
resume point: the timestamp and the id of the row that the passes before it got
to. The row is the latest by timestamp, while rows are stored in the order of
their ids, and the three statements of a pass do not agree at the start.

* `ResumePoint`: what a pass considered carries a level and is not selected
  again; what it has to consider still is.
* `resumeNext`: rows are stored and uploaded, runs are made.
* `Agrees`: the condition on a step, in the state before it.
* `resumePoint_next_iff`: after a step the resume point is right iff the step
  agrees, where it was right before.
-/

namespace DeviceClient

namespace GranularityReduction

/-! ## Rows and the resume point -/

/-- A row that the policy has to consider. -/
def isEligible (stPolicy : GRPolicy) (r : GranularRow) : Bool :=
  notExempted stPolicy.strExemptedEvents r && decide (r.hasAttach ≠ 1)

/-- The row is selected from the resume point on, by its timestamp and by its id. -/
def fromResumePoint (stLastGrRecord : LastGRPerformedRecord) (r : GranularRow) : Bool :=
  r.timestamp.any (fun ts => decide (stLastGrRecord.llTimeStamp ≤ ts)) &&
    decide (stLastGrRecord.llLastGRPerRecId < r.id)

/-- The row has a timestamp behind the end of the run. -/
def isAfter (llEndTime : ℤ) (r : GranularRow) : Bool :=
  r.timestamp.any fun ts => decide (llEndTime < ts)

/-- The state across runs. The history `considered` is not in the source: it lists
the ids of the rows that a pass considered. `running` is the run in progress. -/
structure ResumeState where
  store : GRStore
  stLastGrRecord : LastGRPerformedRecord
  considered : List ℕ
  running : Option GRRun

/-- The resume point is right for the table. -/
structure ResumePoint (stPolicy : GRPolicy) (s : ResumeState) : Prop where
  marked : ∀ r ∈ s.store.table.rows, r.id ∈ s.considered → r.granularity ≠ 0
  selected : ∀ r ∈ s.store.table.rows, isEligible stPolicy r = true → r.id ∉ s.considered →
    fromResumePoint s.stLastGrRecord r = true
  notAgain : ∀ r ∈ s.store.table.rows, r.id ∈ s.considered →
    fromResumePoint s.stLastGrRecord r = false

/-! ## The steps -/

/-- What happens to the table: a row is stored, rows are uploaded; the first pass
of a run, another pass of the same run, another step of it, and its end. -/
inductive ResumeStep where
  | stored (r : GranularRow)
  | uploaded (rsetIds : List ℤ) (dataMode : UploadDataMode)
  | first (llEndTime : ℤ) (unDBSizeBefGR : ℕ)
  | again (whole : Bool) (stPolicy : GRPolicy)
  | turn (a : ReductionStep)
  | finish

/-- A row as it is stored: the next id, and no level. -/
def storedRow (r : GranularRow) (id : ℕ) : GranularRow := { r with id := id, granularity := 0 }

theorem key_storedRow (r : GranularRow) (id : ℕ) : (storedRow r id).key = id := rfl

/-- The table with one row more. -/
def ResumeState.insertRow (r : GranularRow) (s : ResumeState) : ResumeState :=
  { s with
    store := ⟨s.store.table.insert (storedRow r) (key_storedRow r), s.store.removedFiles⟩ }

/-- The pass that a run makes: from its resume point on, or of the whole table. -/
def passOf (run : GRRun) (whole : Bool) (stPolicy : GRPolicy) : AlternatePass where
  llStartTime := if whole then 0 else run.llStartTime
  llEndTime := run.llEndTime
  llLastGRedId := if whole then 0 else run.llStartId
  llRunStartTime := run.llStartTime
  stPolicy := stPolicy

/-- A pass, and the update of the resume point behind it. -/
def ResumeState.pass (h : GRHandler) (p : AlternatePass) (s : ResumeState) : ResumeState :=
  let store := removeAlternateSimilarEvent h p.llStartTime p.llEndTime p.stPolicy p.llLastGRedId
    s.store
  { s with
    store := store
    stLastGrRecord := getLastGranularityPerformedRecord p.llRunStartTime p.llEndTime store.table
      s.stLastGrRecord
    considered := s.considered ++
      (s.store.table.rows.filter (isConsideredBy p s.store.table)).map GranularRow.key }

/-- The state after a step; the rows are stored by the thread that makes the runs. -/
def resumeNext (h : GRHandler) (stPolicy : GRPolicy) (s : ResumeState) :
    ResumeStep → Option ResumeState
  | .stored r =>
    if s.running.isNone then some (s.insertRow r) else none
  | .uploaded rsetIds dataMode =>
    some { s with store := { s.store with
      table := deleteEventsFromDB { h with eGReductionEventType := dataMode } s.store.table
        rsetIds } }
  | .first llEndTime unDBSizeBefGR =>
    if s.running.isNone then
      let run := startRun s.stLastGrRecord llEndTime unDBSizeBefGR
      some (({ s with running := some run } : ResumeState).pass h (passOf run false stPolicy))
    else none
  | .again whole stPolicy' => s.running.map fun run => s.pass h (passOf run whole stPolicy')
  | .turn a => some { s with store := reductionStep h s.store a }
  | .finish => some { s with running := none }

/-! ## The condition on a step -/

/-- The three statements of a pass agree on the rows: those left that the pass
considered at its start time carry a level already, no row considered shares the
timestamp of the row resumed at under a higher id, and of the rows behind the end
time those considered have lower ids than that row, those to consider higher ids.
If the pass resumes nowhere, it leaves no row with the timestamp of the resume
point and a higher id. -/
structure PassAgrees (h : GRHandler) (stPolicy : GRPolicy) (p : AlternatePass) (s : ResumeState) :
    Prop where
  atStart : ∀ r ∈ s.store.table.rows, isConsideredBy p s.store.table r = true →
    Leaves h p s.store.table r → r.timestamp = some p.llStartTime → r.granularity ≠ 0
  ties : ∀ q, ResumesAt h p s.store.table q → ∀ r ∈ s.store.table.rows,
    Leaves h p s.store.table r →
    (r.id ∈ s.considered ∨ isConsideredBy p s.store.table r = true) →
    r.timestamp = q.timestamp → r.id ≤ q.id
  ahead : ∀ q, ResumesAt h p s.store.table q → ∀ r ∈ s.store.table.rows,
    Leaves h p s.store.table r → r.id ∈ s.considered → isAfter p.llEndTime r = true →
    r.id ≤ q.id
  later : ∀ q, ResumesAt h p s.store.table q → ∀ r ∈ s.store.table.rows,
    isEligible stPolicy r = true → r.id ∉ s.considered → isAfter p.llEndTime r = true →
    q.id < r.id
  stays : (¬ ∃ q, ResumesAt h p s.store.table q) → ∀ r ∈ s.store.table.rows,
    isConsideredBy p s.store.table r = true → Leaves h p s.store.table r →
    r.timestamp = some s.stLastGrRecord.llTimeStamp → r.id ≤ s.stLastGrRecord.llLastGRPerRecId

/-- A row to consider is not stored with a timestamp before the resume point; the
statements of a pass agree. -/
def Agrees (h : GRHandler) (stPolicy : GRPolicy) (s : ResumeState) : ResumeStep → Prop
  | .stored r => isEligible stPolicy r = true →
    ∃ ts, r.timestamp = some ts ∧ s.stLastGrRecord.llTimeStamp ≤ ts
  | .first llEndTime unDBSizeBefGR =>
    PassAgrees h stPolicy
      (passOf (startRun s.stLastGrRecord llEndTime unDBSizeBefGR) false stPolicy) s
  | .again whole stPolicy' =>
    ∀ run, s.running = some run → PassAgrees h stPolicy (passOf run whole stPolicy') s
  | _ => True

/-- The policies of the steps have a level. -/
def ResumeStep.LevelSet : ResumeStep → Prop
  | .again _ stPolicy => stPolicy.nGranLevel ≠ 0
  | .turn (.level _ _ stPolicy) => stPolicy.nGranLevel ≠ 0
  | _ => True

/-- What every step keeps. While a run is in progress, the rows left to consider
are behind its end time. -/
structure ResumeFrame (stPolicy : GRPolicy) (s : ResumeState) : Prop where
  lastBelow : s.stLastGrRecord.llLastGRPerRecId < s.store.table.nextKey
  consideredBelow : ∀ id ∈ s.considered, id < s.store.table.nextKey
  running : ∀ run, s.running = some run →
    run.llStartTime ≤ s.stLastGrRecord.llTimeStamp ∧
      ∀ r ∈ s.store.table.rows, isEligible stPolicy r = true → r.id ∉ s.considered →
        isAfter run.llEndTime r = true

/-! ## Rows -/

section Rows

variable {h : GRHandler} {stPolicy : GRPolicy} {r r' : GranularRow}

theorem fromResumePoint_iff {stLastGrRecord : LastGRPerformedRecord} :
    fromResumePoint stLastGrRecord r = true ↔
      (∃ ts, r.timestamp = some ts ∧ stLastGrRecord.llTimeStamp ≤ ts) ∧
        stLastGrRecord.llLastGRPerRecId < r.id := by
  unfold fromResumePoint
  cases r.timestamp <;> simp

theorem isAfter_iff {llEndTime : ℤ} :
    isAfter llEndTime r = true ↔ ∃ ts, r.timestamp = some ts ∧ llEndTime < ts := by
  unfold isAfter
  cases r.timestamp <;> simp

theorem isEligible_congr (hid : r'.eventId = r.eventId) (hattach : r'.hasAttach = r.hasAttach) :
    isEligible stPolicy r' = isEligible stPolicy r := by
  unfold isEligible notExempted
  rw [hid, hattach]

theorem fromResumePoint_congr (hid : r'.id = r.id) (htime : r'.timestamp = r.timestamp)
    (stLastGrRecord : LastGRPerformedRecord) :
    fromResumePoint stLastGrRecord r' = fromResumePoint stLastGrRecord r := by
  unfold fromResumePoint
  rw [hid, htime]

theorem isAfter_congr (htime : r'.timestamp = r.timestamp) (llEndTime : ℤ) :
    isAfter llEndTime r' = isAfter llEndTime r := by
  unfold isAfter
  rw [htime]

end Rows

/-! ## One pass -/

section Pass

variable {h : GRHandler} {stPolicy : GRPolicy} {p : AlternatePass} {s : ResumeState}

theorem passRows_pass : PassRows h p s.store.table (s.pass h p).store.table :=
  passRows_removeAlternateSimilarEvent p s.store

theorem isConsideredBy_iff {t : GranularTable} {r : GranularRow} :
    isConsideredBy p t r = true ↔
      inClosedTimeRange p.llStartTime p.llEndTime r = true ∧ p.llLastGRedId < r.id ∧
        r.eventId ∈ passEventIds p t := by
  unfold isConsideredBy
  rw [Bool.and_eq_true, Bool.and_eq_true, decide_eq_true_eq, decide_eq_true_eq, and_assoc]

/-- The history after a pass, of a row of the table before it. -/
theorem mem_considered_pass {r : GranularRow} (hr : r ∈ s.store.table.rows) :
    r.id ∈ (s.pass h p).considered ↔
      r.id ∈ s.considered ∨ isConsideredBy p s.store.table r = true := by
  show r.id ∈ s.considered ++ _ ↔ _
  rw [List.mem_append, List.mem_map]
  refine or_congr_right ⟨?_, fun hcons => ⟨r, List.mem_filter.2 ⟨hr, hcons⟩, rfl⟩⟩
  rintro ⟨x, hx, hxid⟩
  rcases List.mem_filter.1 hx with ⟨hxrow, hcons⟩
  rwa [s.store.table.eq_of_key_eq hxrow hr hxid] at hcons

/-- A row that is not considered stays. -/
theorem leaves_of_not_considered {t : GranularTable} {r : GranularRow}
    (hr : isConsideredBy p t r = false) : Leaves h p t r := by
  rintro ⟨hin, ⟨_, k, _, hat⟩, _⟩
  rcases mem_sessionRows.1 hat.mem with ⟨_, hrange, _, hid⟩
  rw [isConsideredBy_iff.2 ⟨hrange, hid, Lib.SortedSet.mem_def.2 hin⟩] at hr
  exact absurd hr (by decide)

/-- A considered row behind the start time is marked. -/
theorem levelAfter_of_considered {t : GranularTable} {r : GranularRow}
    (hr : isConsideredBy p t r = true) {ts : ℤ} (hts : r.timestamp = some ts)
    (hlt : p.llStartTime < ts) : levelAfter p r = p.stPolicy.nGranLevel := by
  rcases isConsideredBy_iff.1 hr with ⟨hrange, _, hin⟩
  rcases inClosedTimeRange_iff_exists.1 hrange with ⟨ts', hts', _, hle⟩
  rw [hts] at hts'
  unfold levelAfter
  rw [inTimeRange_iff.2 ⟨ts, hts, hlt, (Option.some.inj hts').le.trans hle⟩,
    notExempted_of_mem_passEventIds hin, if_pos (by decide)]

/-- A level is kept or replaced by that of the policy. -/
theorem levelAfter_ne_zero (hlevel : p.stPolicy.nGranLevel ≠ 0) {r : GranularRow}
    (hr : r.granularity ≠ 0) : levelAfter p r ≠ 0 := by
  unfold levelAfter
  split
  · exact_mod_cast hlevel
  · exact hr

theorem stLastGrRecord_pass {q : GranularRow} (hq : ResumesAt h p s.store.table q) :
    (s.pass h p).stLastGrRecord = ⟨q.timestamp.getD 0, q.id⟩ := by
  rcases lastRecord_of_pass passRows_pass s.stLastGrRecord with ⟨q', hq', hlast⟩ | ⟨hnone, _⟩
  · rw [hq.unique hq']
    exact hlast
  · exact absurd hq.marked (hnone q hq.mem hq.leaves)

theorem stLastGrRecord_pass_of_none (hnone : ¬ ∃ q, ResumesAt h p s.store.table q) :
    (∀ r ∈ s.store.table.rows, Leaves h p s.store.table r → ¬ IsMarked p r) ∧
      (s.pass h p).stLastGrRecord = s.stLastGrRecord := by
  rcases lastRecord_of_pass passRows_pass s.stLastGrRecord with ⟨q, hq, _⟩ | hboth
  · exact absurd ⟨q, hq⟩ hnone
  · exact hboth

/-- The row that a pass resumes at is in the range. -/
theorem ResumesAt.time {q : GranularRow} (hq : ResumesAt h p s.store.table q) :
    ∃ ts, q.timestamp = some ts ∧ p.llRunStartTime < ts ∧ ts ≤ p.llEndTime :=
  inTimeRange_iff.1 hq.marked.1

/-- The state after a pass, in terms of the rows before it. -/
theorem resumePoint_pass_iff_rows :
    ResumePoint stPolicy (s.pass h p) ↔
      (∀ r ∈ s.store.table.rows, Leaves h p s.store.table r →
        (r.id ∈ s.considered ∨ isConsideredBy p s.store.table r = true) →
        levelAfter p r ≠ 0 ∧ fromResumePoint (s.pass h p).stLastGrRecord r = false) ∧
      ∀ r ∈ s.store.table.rows, isEligible stPolicy r = true → r.id ∉ s.considered →
        isConsideredBy p s.store.table r = false →
        fromResumePoint (s.pass h p).stLastGrRecord r = true := by
  have hpass := @passRows_pass h p s
  constructor
  · intro hpoint
    refine ⟨fun r hr hleave hcons => ?_, fun r hr helig hnew hout => ?_⟩
    · rcases hpass.kept r hr hleave with ⟨r', hr', hsame, hlevel⟩
      rw [← mem_considered_pass (h := h) hr, ← hsame.id] at hcons
      refine ⟨hlevel ▸ hpoint.marked r' hr' hcons, ?_⟩
      rw [← fromResumePoint_congr hsame.id hsame.timestamp]
      exact hpoint.notAgain r' hr' hcons
    · rcases hpass.kept r hr (leaves_of_not_considered hout) with ⟨r', hr', hsame, _⟩
      rw [← fromResumePoint_congr hsame.id hsame.timestamp]
      refine hpoint.selected r' hr' ?_ ?_
      · rwa [isEligible_congr hsame.eventId hsame.hasAttach]
      · rw [hsame.id, mem_considered_pass hr, hout]
        simpa using hnew
  · rintro ⟨hcons, hnew⟩
    refine ⟨fun r' hr' hin => ?_, fun r' hr' helig hout => ?_, fun r' hr' hin => ?_⟩
    · rcases hpass.old r' hr' with ⟨r, hr, hleave, hsame, hlevel⟩
      rw [hsame.id, mem_considered_pass hr] at hin
      exact hlevel ▸ (hcons r hr hleave hin).1
    · rcases hpass.old r' hr' with ⟨r, hr, _, hsame, _⟩
      rw [hsame.id, mem_considered_pass hr, not_or, Bool.not_eq_true] at hout
      rw [isEligible_congr hsame.eventId hsame.hasAttach] at helig
      rw [fromResumePoint_congr hsame.id hsame.timestamp]
      exact hnew r hr helig hout.1 hout.2
    · rcases hpass.old r' hr' with ⟨r, hr, hleave, hsame, _⟩
      rw [hsame.id, mem_considered_pass hr] at hin
      rw [fromResumePoint_congr hsame.id hsame.timestamp]
      exact (hcons r hr hleave hin).2

theorem id_le_of_not_from {stLastGrRecord : LastGRPerformedRecord} {r : GranularRow} {ts : ℤ}
    (hts : r.timestamp = some ts) (hle : stLastGrRecord.llTimeStamp ≤ ts)
    (hnot : fromResumePoint stLastGrRecord r = false) :
    r.id ≤ stLastGrRecord.llLastGRPerRecId := by
  by_contra hlt
  rw [fromResumePoint_iff.2 ⟨⟨ts, hts, hle⟩, not_le.1 hlt⟩] at hnot
  exact absurd hnot (by decide)

theorem not_considered_of_isAfter {t : GranularTable} {r : GranularRow}
    (hafter : isAfter p.llEndTime r = true) : isConsideredBy p t r = false := by
  rw [← Bool.not_eq_true]
  intro hcons
  rcases isAfter_iff.1 hafter with ⟨ts, hts, hlt⟩
  rcases inClosedTimeRange_iff_exists.1 (isConsideredBy_iff.1 hcons).1 with ⟨ts', hts', _, hle⟩
  rw [hts] at hts'
  have heq := Option.some.inj hts'
  omega

/-- The resume point after a pass that resumes at a row: its timestamp and its id. -/
theorem record_of_resumesAt {q : GranularRow} (hq : ResumesAt h p s.store.table q) :
    ∃ ts, q.timestamp = some ts ∧ p.llRunStartTime < ts ∧ ts ≤ p.llEndTime ∧
      (s.pass h p).stLastGrRecord = ⟨ts, q.id⟩ := by
  rcases hq.time with ⟨ts, hts, hlt, hle⟩
  refine ⟨ts, hts, hlt, hle, ?_⟩
  rw [stLastGrRecord_pass hq, hts]
  rfl

/-- A right resume point after a pass: the statements of the pass agree. -/
theorem passAgrees_of_resumePoint (hpoint : ResumePoint stPolicy (s.pass h p)) :
    PassAgrees h stPolicy p s := by
  rcases resumePoint_pass_iff_rows.1 hpoint with ⟨hcons, hnew⟩
  refine ⟨fun r hr hin hleave htime => ?_, fun q hq r hr hleave hin htime => ?_,
    fun q hq r hr hleave hin hafter => ?_, fun q hq r hr helig hout hafter => ?_,
    fun hnone r hr hin hleave htime => ?_⟩
  · have hlevel := (hcons r hr hleave (Or.inr hin)).1
    unfold levelAfter at hlevel
    rw [if_neg] at hlevel
    · exact hlevel
    · -- the update leaves the start time out
      intro hrange
      rcases inTimeRange_iff.1 (Bool.and_eq_true _ _ ▸ hrange).1 with ⟨ts, hts, hlt, _⟩
      rw [htime] at hts
      have heq := Option.some.inj hts
      omega
  · rcases record_of_resumesAt hq with ⟨ts, hts, _, _, hlast⟩
    have hnot := (hcons r hr hleave hin).2
    rw [hlast] at hnot
    exact id_le_of_not_from (htime.trans hts) le_rfl hnot
  · rcases record_of_resumesAt hq with ⟨ts, hts, _, hle, hlast⟩
    rcases isAfter_iff.1 hafter with ⟨ts', hts', hlt⟩
    have hnot := (hcons r hr hleave (Or.inl hin)).2
    rw [hlast] at hnot
    exact id_le_of_not_from hts' (hle.trans hlt.le) hnot
  · rcases record_of_resumesAt hq with ⟨ts, hts, _, _, hlast⟩
    have hfrom := hnew r hr helig hout (not_considered_of_isAfter hafter)
    rw [hlast] at hfrom
    exact (fromResumePoint_iff.1 hfrom).2
  · have hnot := (hcons r hr hleave (Or.inr hin)).2
    rw [(stLastGrRecord_pass_of_none hnone).2] at hnot
    exact id_le_of_not_from htime le_rfl hnot

/-- The level of a considered row that a pass leaves. -/
theorem PassAgrees.marked (hagree : PassAgrees h stPolicy p s) (hs : ResumePoint stPolicy s)
    (hlevel : p.stPolicy.nGranLevel ≠ 0) {r : GranularRow} (hr : r ∈ s.store.table.rows)
    (hleave : Leaves h p s.store.table r)
    (hin : r.id ∈ s.considered ∨ isConsideredBy p s.store.table r = true) :
    levelAfter p r ≠ 0 := by
  rcases hin with hin | hin
  · exact levelAfter_ne_zero hlevel (hs.marked r hr hin)
  · rcases inClosedTimeRange_iff_exists.1 (isConsideredBy_iff.1 hin).1 with ⟨ts, hts, hle, _⟩
    rcases hle.eq_or_lt with heq | hlt
    · exact levelAfter_ne_zero hlevel (hagree.atStart r hr hin hleave (hts.trans (heq ▸ rfl)))
    · rw [levelAfter_of_considered hin hts hlt]
      exact_mod_cast hlevel

/-- A considered row is not selected again from the row that the pass resumes at. -/
theorem PassAgrees.not_from (hagree : PassAgrees h stPolicy p s) {q : GranularRow}
    (hq : ResumesAt h p s.store.table q) {r : GranularRow} (hr : r ∈ s.store.table.rows)
    (hleave : Leaves h p s.store.table r)
    (hin : r.id ∈ s.considered ∨ isConsideredBy p s.store.table r = true)
    (hmarked : levelAfter p r ≠ 0) :
    fromResumePoint (s.pass h p).stLastGrRecord r = false := by
  rcases record_of_resumesAt hq with ⟨ts, hts, hlt, _, hlast⟩
  rw [hlast, ← Bool.not_eq_true]
  intro hfrom
  rcases fromResumePoint_iff.1 hfrom with ⟨⟨ts', hts', hge⟩, hid⟩
  refine absurd hid (not_lt.2 ?_)
  by_cases hend : ts' ≤ p.llEndTime
  · -- in the range, so not later than the row resumed at
    have hrange : inTimeRange p.llRunStartTime p.llEndTime r = true :=
      inTimeRange_iff.2 ⟨ts', hts', lt_of_lt_of_le hlt hge, hend⟩
    rcases hq.latest r hr hleave ⟨hrange, hmarked⟩ with hearlier | ⟨htime, _⟩
    · rw [hts, hts'] at hearlier
      exact absurd hge (not_le.2 hearlier)
    · exact hagree.ties q hq r hr hleave hin htime
  · have hafter : isAfter p.llEndTime r = true := isAfter_iff.2 ⟨ts', hts', not_le.1 hend⟩
    rcases hin with hin | hin
    · exact hagree.ahead q hq r hr hleave hin hafter
    · rw [not_considered_of_isAfter hafter] at hin
      exact absurd hin (by decide)

/-- Nor is it from the old resume point, if the pass resumes nowhere. -/
theorem PassAgrees.not_from_old (hagree : PassAgrees h stPolicy p s)
    (hrun : p.llRunStartTime ≤ s.stLastGrRecord.llTimeStamp)
    (hresume : ¬ ∃ q, ResumesAt h p s.store.table q) {r : GranularRow}
    (hr : r ∈ s.store.table.rows) (hleave : Leaves h p s.store.table r)
    (hin : isConsideredBy p s.store.table r = true)
    (hmarked : levelAfter p r ≠ 0) :
    fromResumePoint s.stLastGrRecord r = false := by
  rw [← Bool.not_eq_true]
  intro hfrom
  rcases fromResumePoint_iff.1 hfrom with ⟨⟨ts, hts, hge⟩, hid⟩
  rcases inClosedTimeRange_iff_exists.1 (isConsideredBy_iff.1 hin).1 with ⟨ts', hts', _, hle⟩
  have heq : ts' = ts := Option.some.inj (hts'.symm.trans hts)
  -- behind the start of the run the pass would resume at it
  have htime : ts = s.stLastGrRecord.llTimeStamp := by
    by_contra hne
    have hrange : inTimeRange p.llRunStartTime p.llEndTime r = true :=
      inTimeRange_iff.2 ⟨ts, hts, by omega, heq ▸ hle⟩
    exact (stLastGrRecord_pass_of_none hresume).1 r hr hleave ⟨hrange, hmarked⟩
  exact absurd hid (not_lt.2 (hagree.stays hresume r hr hin hleave (hts.trans (htime ▸ rfl))))

/-- A pass whose statements agree leaves the resume point right. -/
theorem resumePoint_of_passAgrees (hs : ResumePoint stPolicy s)
    (hrun : p.llRunStartTime ≤ s.stLastGrRecord.llTimeStamp) (hlevel : p.stPolicy.nGranLevel ≠ 0)
    (hrest : ∀ r ∈ s.store.table.rows, isEligible stPolicy r = true → r.id ∉ s.considered →
      isConsideredBy p s.store.table r = false → isAfter p.llEndTime r = true)
    (hagree : PassAgrees h stPolicy p s) : ResumePoint stPolicy (s.pass h p) := by
  rw [resumePoint_pass_iff_rows]
  by_cases hresume : ∃ q, ResumesAt h p s.store.table q
  · rcases hresume with ⟨q, hq⟩
    refine ⟨fun r hr hleave hin => ?_, fun r hr helig hout hno => ?_⟩
    · have hmarked := hagree.marked hs hlevel hr hleave hin
      exact ⟨hmarked, hagree.not_from hq hr hleave hin hmarked⟩
    · have hafter := hrest r hr helig hout hno
      rcases isAfter_iff.1 hafter with ⟨ts', hts', hlate⟩
      rcases record_of_resumesAt hq with ⟨ts, _, _, hle, hlast⟩
      rw [hlast]
      exact fromResumePoint_iff.2 ⟨⟨ts', hts', hle.trans hlate.le⟩,
        hagree.later q hq r hr helig hout hafter⟩
  · rw [(stLastGrRecord_pass_of_none hresume).2]
    refine ⟨fun r hr hleave hin => ?_, fun r hr helig hout _ => hs.selected r hr helig hout⟩
    have hmarked := hagree.marked hs hlevel hr hleave hin
    refine ⟨hmarked, ?_⟩
    rcases hin with hin | hin
    · exact hs.notAgain r hr hin
    · exact hagree.not_from_old hrun hresume hr hleave hin hmarked

theorem nextKey_pass : (s.pass h p).store.table.nextKey = s.store.table.nextKey :=
  passRows_pass.nextKey

/-- What a pass keeps of the frame, whether its statements agree or not. -/
theorem resumeFrame_pass {run : GRRun} (hlast :
      s.stLastGrRecord.llLastGRPerRecId < s.store.table.nextKey)
    (hbelow : ∀ id ∈ s.considered, id < s.store.table.nextKey)
    (hrunning : s.running = some run) (hend : p.llEndTime = run.llEndTime)
    (hstart : p.llRunStartTime = run.llStartTime)
    (hrun : run.llStartTime ≤ s.stLastGrRecord.llTimeStamp)
    (hrest : ∀ r ∈ s.store.table.rows, isEligible stPolicy r = true → r.id ∉ s.considered →
      isConsideredBy p s.store.table r = false → isAfter p.llEndTime r = true) :
    ResumeFrame stPolicy (s.pass h p) := by
  have hpoint : (s.pass h p).stLastGrRecord.llLastGRPerRecId < s.store.table.nextKey ∧
      run.llStartTime ≤ (s.pass h p).stLastGrRecord.llTimeStamp := by
    by_cases hresume : ∃ q, ResumesAt h p s.store.table q
    · rcases hresume with ⟨q, hq⟩
      rcases hq.time with ⟨ts, hts, hlt, _⟩
      rw [stLastGrRecord_pass hq, hts]
      exact ⟨s.store.table.below q hq.mem, hstart ▸ hlt.le⟩
    · rw [(stLastGrRecord_pass_of_none hresume).2]
      exact ⟨hlast, hrun⟩
  refine ⟨?_, fun id hid => ?_, fun run' hrun' => ?_⟩
  · rw [nextKey_pass]
    exact hpoint.1
  · rw [nextKey_pass]
    rcases List.mem_append.1 hid with hid | hid
    · exact hbelow id hid
    · rcases List.mem_map.1 hid with ⟨r, hr, rfl⟩
      exact s.store.table.below r (List.mem_of_mem_filter hr)
  · have heq : run = run' := Option.some.inj (hrunning.symm.trans hrun')
    rw [← heq]
    refine ⟨hpoint.2, fun r' hr' helig hout => ?_⟩
    rcases (passRows_pass (h := h)).old r' hr' with ⟨r, hr, _, hsame, _⟩
    rw [hsame.id, mem_considered_pass hr, not_or, Bool.not_eq_true] at hout
    rw [isEligible_congr hsame.eventId hsame.hasAttach] at helig
    rw [isAfter_congr hsame.timestamp, ← hend]
    exact hrest r hr helig hout.1 hout.2

/-- A row to consider that the first pass of a run leaves out is behind its end time. -/
theorem isAfter_of_not_considered {run : GRRun} {r : GranularRow} (hr : r ∈ s.store.table.rows)
    (helig : isEligible stPolicy r = true)
    (hfrom : fromResumePoint ⟨run.llStartTime, run.llStartId⟩ r = true)
    (hout : isConsideredBy (passOf run false stPolicy) s.store.table r = false) :
    isAfter run.llEndTime r = true := by
  rcases fromResumePoint_iff.1 hfrom with ⟨⟨ts, hts, hge⟩, hid⟩
  refine isAfter_iff.2 ⟨ts, hts, ?_⟩
  by_contra hle
  have hrange : inClosedTimeRange run.llStartTime run.llEndTime r = true :=
    inClosedTimeRange_iff_exists.2 ⟨ts, hts, hge, not_lt.1 hle⟩
  unfold isEligible at helig
  rw [Bool.and_eq_true] at helig
  have hin : r.eventId ∈ passEventIds (passOf run false stPolicy) s.store.table := by
    refine mem_passEventIds.2 ⟨r, hr, ?_, rfl⟩
    unfold steadyStateSelection
    rw [Bool.and_eq_true, Bool.and_eq_true]
    exact ⟨⟨hrange, helig.1⟩, helig.2⟩
  rw [isConsideredBy_iff.2 ⟨hrange, hid, hin⟩] at hout
  exact absurd hout (by decide)

end Pass

/-! ## The other steps -/

section Others

variable {h : GRHandler} {stPolicy : GRPolicy}

/-- Rows may go, and lose marks or change levels; none comes, and no level is taken. -/
structure RowsRemain (t t' : GranularTable) : Prop where
  old : ∀ r' ∈ t'.rows, ∃ r ∈ t.rows, r'.id = r.id ∧ r'.eventId = r.eventId ∧
    r'.timestamp = r.timestamp ∧ r'.hasAttach = r.hasAttach ∧
      (r.granularity ≠ 0 → r'.granularity ≠ 0)
  nextKey : t'.nextKey = t.nextKey

theorem RowsRemain.refl (t : GranularTable) : RowsRemain t t :=
  ⟨fun r hr => ⟨r, hr, rfl, rfl, rfl, rfl, fun hlevel => hlevel⟩, rfl⟩

theorem rowsRemain_delete (t : GranularTable) (rsetIds : List ℤ) :
    RowsRemain t (deleteEventsFromDB h t rsetIds) where
  old := by
    intro r' hr'
    rcases exists_sameEvent_of_mem_delete hr' with ⟨r, hr, hsame, _⟩
    refine ⟨r, hr, hsame.id, hsame.eventId, hsame.timestamp, hsame.hasAttach, ?_⟩
    rw [granularity_of_mem_delete hr hr' hsame.id.symm]
    exact fun hlevel => hlevel
  nextKey := nextKey_deleteEventsFromDB t rsetIds

theorem rowsRemain_remove (t : GranularTable) (sel : GranularRow → Bool) :
    RowsRemain t (t.remove sel) :=
  ⟨fun r hr => ⟨r, (Lib.Table.mem_remove.1 hr).1, rfl, rfl, rfl, rfl, fun hlevel => hlevel⟩, rfl⟩

theorem rowsRemain_updateGRLevel (t : GranularTable) (llStartTime llEndTime : ℤ)
    {stPolicy : GRPolicy} (hlevel : stPolicy.nGranLevel ≠ 0) :
    RowsRemain t (updateGRLevel llStartTime llEndTime stPolicy t) where
  old := by
    intro r' hr'
    rcases mem_updateGRLevel.1 hr' with ⟨r, hr, rfl⟩
    refine ⟨r, hr, ?_⟩
    split
    · exact ⟨rfl, rfl, rfl, rfl, fun _ => Int.natCast_ne_zero.2 hlevel⟩
    · exact ⟨rfl, rfl, rfl, rfl, fun hgran => hgran⟩
  nextKey := rfl

theorem rowsRemain_purge (stDefPolicy : DefaultGRPolicy) (sizes : DBSizes) (s : GRStore) :
    RowsRemain s.table (defaultPolicyHandler h stDefPolicy sizes s).1.table := by
  by_cases hpos : 0 < rowsToDelete stDefPolicy s.table
  · rw [(defaultPolicyHandler_of_pos hpos).1]
    exact rowsRemain_remove _ _
  · have hsame : (defaultPolicyHandler h stDefPolicy sizes s).1 = s := by
      simp only [defaultPolicyHandler, if_pos (not_lt.1 hpos)]
    rw [hsame]
    exact .refl _

/-- The rows of a step of a run other than a pass. -/
theorem rowsRemain_reductionStep (s : GRStore) (a : ReductionStep)
    (hlevel : (ResumeStep.turn a).LevelSet) : RowsRemain s.table (reductionStep h s a).table := by
  cases a with
  | alternate e llStartTime llEndTime llLastGRedId => exact rowsRemain_delete s.table _
  | repeatedTrigger e llStartTime llEndTime => exact rowsRemain_delete s.table _
  | postFiles llStartTime llEndTime => exact rowsRemain_delete s.table _
  | level llStartTime llEndTime stPolicy =>
    exact rowsRemain_updateGRLevel s.table llStartTime llEndTime hlevel
  | purge stDefPolicy sizes =>
    simp only [reductionStep, purgedStore_eq]
    exact rowsRemain_purge stDefPolicy sizes s

variable {s : ResumeState} {store : GRStore}

theorem ResumePoint.remain (hs : ResumePoint stPolicy s)
    (hrows : RowsRemain s.store.table store.table) :
    ResumePoint stPolicy { s with store := store } where
  marked := by
    intro r' hr' hin
    rcases hrows.old r' hr' with ⟨r, hr, hid, _, _, _, hlevel⟩
    exact hlevel (hs.marked r hr (hid ▸ hin))
  selected := by
    intro r' hr' helig hout
    rcases hrows.old r' hr' with ⟨r, hr, hid, hevent, htime, hattach, _⟩
    rw [isEligible_congr hevent hattach] at helig
    rw [fromResumePoint_congr hid htime]
    exact hs.selected r hr helig fun hin => hout (hid.symm ▸ hin)
  notAgain := by
    intro r' hr' hin
    rcases hrows.old r' hr' with ⟨r, hr, hid, _, htime, _, _⟩
    rw [fromResumePoint_congr hid htime]
    exact hs.notAgain r hr (hid ▸ hin)

theorem ResumeFrame.remain (hs : ResumeFrame stPolicy s)
    (hrows : RowsRemain s.store.table store.table) :
    ResumeFrame stPolicy { s with store := store } where
  lastBelow := by
    show _ < store.table.nextKey
    rw [hrows.nextKey]
    exact hs.lastBelow
  consideredBelow := by
    intro id hid
    show id < store.table.nextKey
    rw [hrows.nextKey]
    exact hs.consideredBelow id hid
  running := by
    intro run hrun
    rcases hs.running run hrun with ⟨hstart, hafter⟩
    refine ⟨hstart, fun r' hr' helig hout => ?_⟩
    rcases hrows.old r' hr' with ⟨r, hr, hid, hevent, htime, hattach, _⟩
    rw [isEligible_congr hevent hattach] at helig
    rw [isAfter_congr htime]
    exact hafter r hr helig fun hin => hout (hid.symm ▸ hin)

/-- A stored row: it is the only new one, and no id of the history. -/
theorem resumePoint_stored_iff (hs : ResumePoint stPolicy s) (hframe : ResumeFrame stPolicy s)
    (r : GranularRow) :
    ResumePoint stPolicy (s.insertRow r) ↔ Agrees h stPolicy s (.stored r) := by
  have hmem : ∀ x, x ∈ (s.insertRow r).store.table.rows ↔
      x ∈ s.store.table.rows ∨ x = storedRow r s.store.table.nextKey := by
    intro x
    exact @Lib.Table.mem_insert _ _ s.store.table (storedRow r) (key_storedRow r) x
  have hnew : (storedRow r s.store.table.nextKey).id ∉ s.considered := fun hin =>
    absurd (hframe.consideredBelow _ hin) (lt_irrefl _)
  have helig : isEligible stPolicy (storedRow r s.store.table.nextKey) = isEligible stPolicy r :=
    isEligible_congr rfl rfl
  have hfrom : fromResumePoint s.stLastGrRecord (storedRow r s.store.table.nextKey) = true ↔
      ∃ ts, r.timestamp = some ts ∧ s.stLastGrRecord.llTimeStamp ≤ ts := by
    rw [fromResumePoint_iff]
    exact and_iff_left hframe.lastBelow
  constructor
  · intro hpoint helig'
    exact hfrom.1 (hpoint.selected _ ((hmem _).2 (Or.inr rfl)) (helig.trans helig') hnew)
  · intro hagree
    refine ⟨fun x hx hin => ?_, fun x hx hxelig hout => ?_, fun x hx hin => ?_⟩
    · rcases (hmem x).1 hx with hx | rfl
      · exact hs.marked x hx hin
      · exact absurd hin hnew
    · rcases (hmem x).1 hx with hx | rfl
      · exact hs.selected x hx hxelig hout
      · exact hfrom.2 (hagree (helig.symm.trans hxelig))
    · rcases (hmem x).1 hx with hx | rfl
      · exact hs.notAgain x hx hin
      · exact absurd hin hnew

end Others

/-! ## A step -/

section Step

variable {h : GRHandler} {stPolicy : GRPolicy} {s s' : ResumeState}

theorem resumeFrame_stored (hs : ResumeFrame stPolicy s) (hrunning : s.running = none)
    (r : GranularRow) : ResumeFrame stPolicy (s.insertRow r) where
  lastBelow := Nat.lt_succ_of_lt hs.lastBelow
  consideredBelow := fun id hid => Nat.lt_succ_of_lt (hs.consideredBelow id hid)
  running := by
    intro run hrun
    rw [show s.running = some run from hrun] at hrunning
    cases hrunning

/-- The run in progress is not part of the condition on a pass. -/
theorem passAgrees_running_iff {p : AlternatePass} (running : Option GRRun) :
    PassAgrees h stPolicy p { s with running := running } ↔ PassAgrees h stPolicy p s :=
  ⟨fun ha => ⟨ha.atStart, ha.ties, ha.ahead, ha.later, ha.stays⟩,
    fun ha => ⟨ha.atStart, ha.ties, ha.ahead, ha.later, ha.stays⟩⟩

/-- Every step keeps the frame; the resume point stays right iff the step agrees. -/
theorem resumePoint_next_iff (hpolicy : stPolicy.nGranLevel ≠ 0) {a : ResumeStep}
    (hlevel : a.LevelSet) (hframe : ResumeFrame stPolicy s) (hs : ResumePoint stPolicy s)
    (hnext : resumeNext h stPolicy s a = some s') :
    ResumeFrame stPolicy s' ∧ (ResumePoint stPolicy s' ↔ Agrees h stPolicy s a) := by
  cases a with
  | stored r =>
    simp only [resumeNext, Option.isNone_iff_eq_none] at hnext
    split at hnext
    · rename_i hrunning
      rw [← Option.some.inj hnext]
      exact ⟨resumeFrame_stored hframe hrunning r, resumePoint_stored_iff hs hframe r⟩
    · cases hnext
  | uploaded rsetIds dataMode =>
    rw [← Option.some.inj hnext]
    have hrows := rowsRemain_delete (h := { h with eGReductionEventType := dataMode })
      s.store.table rsetIds
    exact ⟨hframe.remain hrows, iff_of_true (hs.remain hrows) trivial⟩
  | first llEndTime unDBSizeBefGR =>
    simp only [resumeNext, Option.isNone_iff_eq_none] at hnext
    split at hnext
    · rw [← Option.some.inj hnext]
      have hs₁ : ResumePoint stPolicy { s with
          running := some (startRun s.stLastGrRecord llEndTime unDBSizeBefGR) } :=
        ⟨hs.marked, hs.selected, hs.notAgain⟩
      -- the run starts at the resume point
      have hrest : ∀ r ∈ s.store.table.rows, isEligible stPolicy r = true →
          r.id ∉ s.considered → isConsideredBy (passOf (startRun s.stLastGrRecord llEndTime
            unDBSizeBefGR) false stPolicy) s.store.table r = false → isAfter llEndTime r = true :=
        fun r hr helig hout hno =>
          @isAfter_of_not_considered stPolicy s (startRun s.stLastGrRecord llEndTime unDBSizeBefGR)
            r hr helig (hs.selected r hr helig hout) hno
      refine ⟨resumeFrame_pass hframe.lastBelow hframe.consideredBelow rfl rfl rfl le_rfl hrest, ?_⟩
      constructor
      · intro hpoint
        exact (passAgrees_running_iff _).1 (passAgrees_of_resumePoint hpoint)
      · intro hagree
        exact resumePoint_of_passAgrees hs₁ le_rfl hpolicy hrest
          ((passAgrees_running_iff _).2 hagree)
    · cases hnext
  | again whole stPolicy' =>
    rcases Option.map_eq_some_iff.1 hnext with ⟨run, hrunning, rfl⟩
    rcases hframe.running run hrunning with ⟨hstart, hafter⟩
    have hrest : ∀ r ∈ s.store.table.rows, isEligible stPolicy r = true →
        r.id ∉ s.considered → isConsideredBy (passOf run whole stPolicy') s.store.table r = false →
        isAfter run.llEndTime r = true :=
      fun r hr helig hout _ => hafter r hr helig hout
    refine ⟨resumeFrame_pass hframe.lastBelow hframe.consideredBelow hrunning rfl rfl hstart
      hrest, ?_⟩
    constructor
    · intro hpoint run' hrun'
      rw [← Option.some.inj (hrunning.symm.trans hrun')]
      exact passAgrees_of_resumePoint hpoint
    · intro hagree
      exact resumePoint_of_passAgrees hs hstart hlevel hrest (hagree run hrunning)
  | turn a =>
    rw [← Option.some.inj hnext]
    have hrows := rowsRemain_reductionStep (h := h) s.store a hlevel
    exact ⟨hframe.remain hrows, iff_of_true (hs.remain hrows) trivial⟩
  | finish =>
    rw [← Option.some.inj hnext]
    refine ⟨⟨hframe.lastBelow, hframe.consideredBelow, fun run hrun => ?_⟩,
      iff_of_true ⟨hs.marked, hs.selected, hs.notAgain⟩ trivial⟩
    cases hrun

end Step

end GranularityReduction

end DeviceClient
