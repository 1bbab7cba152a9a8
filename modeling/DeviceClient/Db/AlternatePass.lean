import DeviceClient.Db.ReductionFiles
import DeviceClient.Lib.Latest

/-!
# One pass of the alternate policy

A call of the policy treats one event id after the other, marks the rows that
are left with its level, and the row with the latest timestamp among those that
carry a level becomes the resume point.

* `isConsideredBy`, `Leaves`, `levelAfter`: the rows that a pass considers,
  those that it leaves, and the level that they have afterwards.
* `passRows_removeAlternateSimilarEvent`: the table after the pass, row by row.
* `ResumesAt`: the row that the resume point is taken from.
* `lastRecord_of_pass`: the resume point after the pass.
-/

namespace DeviceClient

namespace GranularityReduction

/-- The arguments of a call of the policy, and where the range starts in which the
resume point is looked for afterwards. -/
structure AlternatePass where
  llStartTime : ℤ
  llEndTime : ℤ
  llLastGRedId : ℕ
  llRunStartTime : ℤ
  stPolicy : GRPolicy

/-- The event ids that the pass treats. -/
def passEventIds (p : AlternatePass) (t : GranularTable) : Lib.SortedSet String :=
  uniqueEventIds (t.rows.filter (steadyStateSelection p.llStartTime p.llEndTime
    p.stPolicy.strExemptedEvents))

/-- The row is read for one of these ids; session markers only delimit. -/
def isConsideredBy (p : AlternatePass) (t : GranularTable) (r : GranularRow) : Bool :=
  inClosedTimeRange p.llStartTime p.llEndTime r && decide (p.llLastGRedId < r.id) &&
    decide (r.eventId ∈ passEventIds p t)

/-- The turns for these event ids delete the row: its turn picks it, and it does not
wait for the other upload mode. -/
def DeletedBy (h : GRHandler) (p : AlternatePass) (es : List String) (t : GranularTable)
    (r : GranularRow) : Prop :=
  r.eventId ∈ es ∧
    Picked h t r (.alternate r.eventId p.llStartTime p.llEndTime p.llLastGRedId) ∧
    deletable h r = true

/-- The pass does not delete the row. -/
def Leaves (h : GRHandler) (p : AlternatePass) (t : GranularTable) (r : GranularRow) : Prop :=
  ¬ DeletedBy h p (passEventIds p t).elems t r

/-- The level that `UpdateGRLevel` leaves a row with. -/
def levelAfter (p : AlternatePass) (r : GranularRow) : ℤ :=
  if (inTimeRange p.llStartTime p.llEndTime r && notExempted p.stPolicy.strExemptedEvents r) = true
  then p.stPolicy.nGranLevel else r.granularity

/-- The row may become the resume point. -/
def IsMarked (p : AlternatePass) (r : GranularRow) : Prop :=
  inTimeRange p.llRunStartTime p.llEndTime r = true ∧ levelAfter p r ≠ 0

/-- Of the rows that may, the row has the latest timestamp, and the lowest id among
those that share it. -/
structure ResumesAt (h : GRHandler) (p : AlternatePass) (t : GranularTable) (q : GranularRow) :
    Prop where
  mem : q ∈ t.rows
  leaves : Leaves h p t q
  marked : IsMarked p q
  latest : ∀ r ∈ t.rows, Leaves h p t r → IsMarked p r →
    r.timestamp.getD 0 < q.timestamp.getD 0 ∨ r.timestamp = q.timestamp ∧ q.id ≤ r.id

/-! ## Time ranges -/

theorem inTimeRange_iff {llStartTime llEndTime : ℤ} {r : GranularRow} :
    inTimeRange llStartTime llEndTime r = true ↔
      ∃ ts, r.timestamp = some ts ∧ llStartTime < ts ∧ ts ≤ llEndTime := by
  unfold inTimeRange
  cases r.timestamp <;> simp

theorem inClosedTimeRange_iff_exists {llStartTime llEndTime : ℤ} {r : GranularRow} :
    inClosedTimeRange llStartTime llEndTime r = true ↔
      ∃ ts, r.timestamp = some ts ∧ llStartTime ≤ ts ∧ ts ≤ llEndTime := by
  unfold inClosedTimeRange
  cases r.timestamp <;> simp

/-! ## Rows through a deletion -/

section Rows

variable {h : GRHandler}

/-- The row and its level, through a step. -/
structure SameLevel (h : GRHandler) (r r' : GranularRow) : Prop extends SameEvent h r r' where
  granularity : r'.granularity = r.granularity

theorem SameLevel.refl (r : GranularRow) : SameLevel h r r := ⟨.refl r, rfl⟩

theorem SameLevel.trans {r r' r'' : GranularRow} (h₁ : SameLevel h r r')
    (h₂ : SameLevel h r' r'') : SameLevel h r r'' :=
  ⟨h₁.toSameEvent.trans h₂.toSameEvent, h₂.granularity.trans h₁.granularity⟩

theorem granularity_of_mem_delete {t : GranularTable} {rsetIds : List ℤ} {r r' : GranularRow}
    (hr : r ∈ t.rows) (hr' : r' ∈ (deleteEventsFromDB h t rsetIds).rows) (hid : r.id = r'.id) :
    r'.granularity = r.granularity := by
  refine field_of_mem_delete GranularRow.granularity (fun mode x => ?_) hr hr' hid
  cases mode
  · rfl
  · rfl
  · rfl

theorem nextKey_deleteEventsFromDB (t : GranularTable) (rsetIds : List ℤ) :
    (deleteEventsFromDB h t rsetIds).nextKey = t.nextKey := by
  unfold deleteEventsFromDB
  split
  · rfl
  · split
    · rfl
    · rfl

/-- Rows of other ids stay as they are. -/
theorem filter_rows_deleteEventsFromDB {t : GranularTable} {rsetIds : List ℤ}
    {q : GranularRow → Bool} (hids : ∀ r ∈ t.rows, (r.id : ℤ) ∈ rsetIds → q r = false)
    (hmark : ∀ mode r, q (markEventsAsUploaded mode r) = q r) :
    (deleteEventsFromDB h t rsetIds).rows.filter q = t.rows.filter q := by
  have hkeep : ∀ sel : GranularRow → Bool,
      (∀ r ∈ t.rows, sel r = true → idsSelection rsetIds r = true) →
        (t.rows.filter fun r => !sel r).filter q = t.rows.filter q := by
    intro sel hsel
    rw [List.filter_filter]
    refine List.filter_congr fun r hr => ?_
    cases hs : sel r with
    | false => simp
    | true => simp [hids r hr (of_decide_eq_true (hsel r hr hs))]
  unfold deleteEventsFromDB
  split
  · rfl
  · split
    · show ((t.rows.filter _).map fun r => if idsSelection rsetIds r then
        markEventsAsUploaded h.eGReductionEventType r else r).filter q = _
      have hq : (q ∘ fun r => if idsSelection rsetIds r then
          markEventsAsUploaded h.eGReductionEventType r else r) = q := by
        funext r
        rw [Function.comp_apply]
        split
        · exact hmark _ r
        · rfl
      rw [List.filter_map, hq, hkeep _ fun r _ hs => (Bool.and_eq_true _ _ ▸ hs).1]
      -- none of the rows that are left is marked
      refine (List.map_congr_left fun r hr => if_neg ?_).trans (List.map_id _)
      intro hsel
      rcases List.mem_filter.1 hr with ⟨hrow, hqr⟩
      rw [hids r hrow (of_decide_eq_true hsel)] at hqr
      exact absurd hqr (by decide)
    · exact hkeep _ fun r _ hs => hs

/-! ## The turns of a pass -/

/-- What the turns for some event ids do to the rows. -/
structure TurnRows (h : GRHandler) (p : AlternatePass) (es : List String) (t t' : GranularTable) :
    Prop where
  old : ∀ r' ∈ t'.rows, ∃ r ∈ t.rows, SameLevel h r r' ∧ ¬ DeletedBy h p es t r
  kept : ∀ r ∈ t.rows, ¬ DeletedBy h p es t r → ∃ r' ∈ t'.rows, SameLevel h r r'
  nextKey : t'.nextKey = t.nextKey

/-- A turn leaves the rows of the other event ids as they are. -/
theorem filter_rows_alternateTurn {p : AlternatePass} {s : GRStore} {e : String} :
    (alternateTurn h p.llStartTime p.llEndTime p.llLastGRedId s e).table.rows.filter
        (fun r => decide (r.eventId ≠ e)) =
      s.table.rows.filter fun r => decide (r.eventId ≠ e) := by
  refine filter_rows_deleteEventsFromDB (fun r hr hid => ?_) fun mode r => ?_
  · rw [mem_setDeleteEvntIds_iff_picked hr] at hid
    exact decide_eq_false (not_not.2 hid.1)
  · cases mode
    · rfl
    · rfl
    · rfl

/-- So a turn does not change what the turn for another event id reads. -/
theorem sessionRows_alternateTurn {p : AlternatePass} {s : GRStore} {e e' : String}
    (hne : e' ≠ e) (hmark : e ≠ clientLaunchedEvent) :
    sessionRows (alternateTurn h p.llStartTime p.llEndTime p.llLastGRedId s e).table e'
        p.llStartTime p.llEndTime p.llLastGRedId =
      sessionRows s.table e' p.llStartTime p.llEndTime p.llLastGRedId := by
  have hsel : ∀ rows : List GranularRow,
      rows.filter (sessionSelection e' p.llStartTime p.llEndTime) =
        (rows.filter fun r => decide (r.eventId ≠ e)).filter
          (sessionSelection e' p.llStartTime p.llEndTime) := by
    intro rows
    rw [List.filter_filter]
    refine List.filter_congr fun r _ => ?_
    cases hr : sessionSelection e' p.llStartTime p.llEndTime r with
    | false => rw [Bool.false_and]
    | true =>
      unfold sessionSelection at hr
      simp only [Bool.and_eq_true, Bool.or_eq_true, decide_eq_true_eq] at hr
      rcases hr.2 with hid | hid
      · rw [hid, decide_eq_true hne, Bool.true_and]
      · rw [hid, decide_eq_true hmark.symm, Bool.true_and]
  unfold sessionRows
  rw [hsel, filter_rows_alternateTurn, ← hsel]

/-- One turn. -/
theorem turnRows_alternateTurn (p : AlternatePass) (s : GRStore) (e : String) :
    TurnRows h p [e] s.table
      (alternateTurn h p.llStartTime p.llEndTime p.llLastGRedId s e).table := by
  have hiff : ∀ r ∈ s.table.rows, ((r.id : ℤ) ∈ (populateEventsList h dbEventQueryLimit s.table e
      p.llStartTime p.llEndTime p.llLastGRedId).setDeleteEvntIds ∧ deletable h r = true) ↔
      DeletedBy h p [e] s.table r := by
    intro r hr
    unfold DeletedBy
    rw [mem_setDeleteEvntIds_iff_picked hr, List.mem_singleton, ← and_assoc]
    refine and_congr_left fun _ => ?_
    constructor
    · intro hpick
      have he := hpick.1
      rw [he]
      exact ⟨rfl, hpick⟩
    · rintro ⟨he, hpick⟩
      rwa [he] at hpick
  refine ⟨fun r' hr' => ?_, fun r hr hnot => ?_, nextKey_deleteEventsFromDB _ _⟩
  · rcases exists_sameEvent_of_mem_delete hr' with ⟨r, hr, hsame, hnot⟩
    refine ⟨r, hr, ⟨hsame, granularity_of_mem_delete hr hr' hsame.id.symm⟩, ?_⟩
    rwa [← hiff r hr]
  · rw [← hiff r hr] at hnot
    rcases exists_sameEvent_of_not_deleted hr hnot with ⟨r', hr', hsame⟩
    exact ⟨r', hr', hsame, granularity_of_mem_delete hr hr' hsame.id.symm⟩

/-- A row of a later event id is the same row before and after a turn, and the turns for
the later ids delete it or not as if they were the first. -/
theorem deletedBy_behind_turn {p : AlternatePass} {s : GRStore} {e : String} {es : List String}
    (hmark : e ≠ clientLaunchedEvent) (he : e ∉ es) {r r₁ : GranularRow} (hr : r ∈ s.table.rows)
    (hsame : SameLevel h r r₁)
    (hr₁ : r₁ ∈ (alternateTurn h p.llStartTime p.llEndTime p.llLastGRedId s e).table.rows)
    (hin : r.eventId ∈ es) :
    DeletedBy h p es (alternateTurn h p.llStartTime p.llEndTime p.llLastGRedId s e).table r₁ ↔
      DeletedBy h p (e :: es) s.table r := by
  have hre : r.eventId ≠ e := fun heq => he (heq ▸ hin)
  have hmem : r₁ ∈ s.table.rows.filter fun x => decide (x.eventId ≠ e) := by
    rw [← filter_rows_alternateTurn (h := h) (p := p)]
    exact List.mem_filter.2 ⟨hr₁, decide_eq_true (hsame.eventId ▸ hre)⟩
  have heq : r₁ = r := s.table.eq_of_key_eq (List.mem_of_mem_filter hmem) hr hsame.id
  rw [heq]
  simp only [DeletedBy, Picked, sessionRows_alternateTurn hre hmark, List.mem_cons, hin, or_true]

theorem deletedBy_cons_of_notMem {p : AlternatePass} {t : GranularTable} {e : String}
    {es : List String} {r : GranularRow} (hout : r.eventId ∉ es) :
    DeletedBy h p (e :: es) t r ↔ DeletedBy h p [e] t r := by
  unfold DeletedBy
  rw [List.mem_cons, or_iff_left hout, List.mem_singleton]

/-- All turns of a pass: each reads its rows as they were at the start. -/
theorem turnRows_foldl (p : AlternatePass) (es : List String) (hes : es.Nodup)
    (hmark : clientLaunchedEvent ∉ es) :
    ∀ s : GRStore, TurnRows h p es s.table
      (es.foldl (alternateTurn h p.llStartTime p.llEndTime p.llLastGRedId) s).table := by
  induction es with
  | nil =>
    intro s
    exact ⟨fun r hr => ⟨r, hr, .refl r, fun hboth => absurd hboth.1 List.not_mem_nil⟩,
      fun r hr _ => ⟨r, hr, .refl r⟩, rfl⟩
  | cons e es ih =>
    intro s
    rw [List.nodup_cons] at hes
    have hne : e ≠ clientLaunchedEvent := fun heq => hmark (heq ▸ List.mem_cons_self)
    have hturn := @turnRows_alternateTurn h p s e
    have hrest := ih hes.2 (fun hin => hmark (List.mem_cons_of_mem _ hin))
      (alternateTurn h p.llStartTime p.llEndTime p.llLastGRedId s e)
    rw [List.foldl_cons]
    refine ⟨fun r' hr' => ?_, fun r hr hnot => ?_, hrest.nextKey.trans hturn.nextKey⟩
    · rcases hrest.old r' hr' with ⟨r₁, hr₁, hsame₁, hnot₁⟩
      rcases hturn.old r₁ hr₁ with ⟨r, hr, hsame, hnot⟩
      refine ⟨r, hr, hsame.trans hsame₁, ?_⟩
      by_cases hin : r.eventId ∈ es
      · rwa [← deletedBy_behind_turn hne hes.1 hr hsame hr₁ hin]
      · rwa [deletedBy_cons_of_notMem hin]
    · have hstay : ¬ DeletedBy h p [e] s.table r := by
        rintro ⟨hin, hboth⟩
        exact hnot ⟨List.mem_cons.2 (Or.inl (List.mem_singleton.1 hin)), hboth⟩
      rcases hturn.kept r hr hstay with ⟨r₁, hr₁, hsame⟩
      have hstay₁ : ¬ DeletedBy h p es
          (alternateTurn h p.llStartTime p.llEndTime p.llLastGRedId s e).table r₁ := by
        intro hdel
        have hin : r.eventId ∈ es := hsame.eventId ▸ hdel.1
        exact hnot ((deletedBy_behind_turn hne hes.1 hr hsame hr₁ hin).1 hdel)
      rcases hrest.kept r₁ hr₁ hstay₁ with ⟨r', hr', hsame₁⟩
      exact ⟨r', hr', hsame.trans hsame₁⟩

/-! ## The table after a pass -/

/-- What a pass does to the rows. -/
structure PassRows (h : GRHandler) (p : AlternatePass) (t t' : GranularTable) : Prop where
  old : ∀ r' ∈ t'.rows, ∃ r ∈ t.rows, Leaves h p t r ∧ SameEvent h r r' ∧
    r'.granularity = levelAfter p r
  kept : ∀ r ∈ t.rows, Leaves h p t r → ∃ r' ∈ t'.rows, SameEvent h r r' ∧
    r'.granularity = levelAfter p r
  nextKey : t'.nextKey = t.nextKey

theorem mem_passEventIds {p : AlternatePass} {t : GranularTable} {e : String} :
    e ∈ passEventIds p t ↔ ∃ r ∈ t.rows,
      steadyStateSelection p.llStartTime p.llEndTime p.stPolicy.strExemptedEvents r = true ∧
        r.eventId = e := by
  unfold passEventIds
  rw [mem_uniqueEventIds]
  simp only [List.mem_filter, and_assoc]

/-- A pass treats neither an exempted id nor the session marker's. -/
theorem notExempted_of_mem_passEventIds {p : AlternatePass} {t : GranularTable} {r : GranularRow}
    (hr : r.eventId ∈ passEventIds p t) :
    notExempted p.stPolicy.strExemptedEvents r = true := by
  rcases mem_passEventIds.1 hr with ⟨x, _, hsel, hid⟩
  unfold steadyStateSelection at hsel
  rw [Bool.and_eq_true, Bool.and_eq_true] at hsel
  have hx := hsel.1.2
  unfold notExempted at hx ⊢
  rwa [hid] at hx

theorem nodup_elems_passEventIds (p : AlternatePass) (t : GranularTable) :
    (passEventIds p t).elems.Nodup :=
  (passEventIds p t).sorted.imp fun hlt => hlt.ne

theorem marker_notMem_passEventIds (p : AlternatePass) (t : GranularTable) :
    clientLaunchedEvent ∉ (passEventIds p t).elems := by
  intro hin
  rcases mem_passEventIds.1 (Lib.SortedSet.mem_def.2 hin) with ⟨r, _, hsel, hid⟩
  unfold steadyStateSelection notExempted at hsel
  simp [hid] at hsel

/-- The update of the level, on a row that is what it was. -/
theorem granularity_update {p : AlternatePass} {r x : GranularRow} (hsame : SameLevel h r x) :
    (if (inTimeRange p.llStartTime p.llEndTime x &&
        notExempted p.stPolicy.strExemptedEvents x) = true then x.setGranularity p.stPolicy.nGranLevel
      else x).granularity = levelAfter p r := by
  unfold levelAfter inTimeRange notExempted
  rw [hsame.timestamp, hsame.eventId]
  split
  · rfl
  · exact hsame.granularity

theorem sameEvent_update {p : AlternatePass} (x : GranularRow) :
    SameEvent h x (if (inTimeRange p.llStartTime p.llEndTime x &&
        notExempted p.stPolicy.strExemptedEvents x) = true then x.setGranularity p.stPolicy.nGranLevel
      else x) := by
  split
  · exact ⟨rfl, rfl, rfl, rfl, by unfold deletable; cases h.eGReductionEventType <;> rfl⟩
  · exact .refl x

theorem passRows_removeAlternateSimilarEvent (p : AlternatePass) (s : GRStore) :
    PassRows h p s.table (removeAlternateSimilarEvent h p.llStartTime p.llEndTime p.stPolicy
      p.llLastGRedId s).table := by
  have hturns := @turnRows_foldl h p _ (nodup_elems_passEventIds p s.table)
    (marker_notMem_passEventIds p s.table) s
  refine ⟨fun r' hr' => ?_, fun r hr hleave => ?_, hturns.nextKey⟩
  · rcases mem_updateGRLevel.1 hr' with ⟨x, hx, rfl⟩
    rcases hturns.old x hx with ⟨r, hr, hsame, hleave⟩
    exact ⟨r, hr, hleave, hsame.toSameEvent.trans (sameEvent_update x), granularity_update hsame⟩
  · rcases hturns.kept r hr hleave with ⟨x, hx, hsame⟩
    exact ⟨_, mem_updateGRLevel.2 ⟨x, hx, rfl⟩, hsame.toSameEvent.trans (sameEvent_update x),
      granularity_update hsame⟩

/-! ## The resume point after a pass -/

/-- The resume point is the row that the pass resumes at; without one it stays. -/
theorem lastRecord_of_pass {p : AlternatePass} {t t' : GranularTable} (hpass : PassRows h p t t')
    (last : LastGRPerformedRecord) :
    (∃ q, ResumesAt h p t q ∧
        getLastGranularityPerformedRecord p.llRunStartTime p.llEndTime t' last =
          ⟨q.timestamp.getD 0, q.id⟩) ∨
      (∀ r ∈ t.rows, Leaves h p t r → ¬ IsMarked p r) ∧
        getLastGranularityPerformedRecord p.llRunStartTime p.llEndTime t' last = last := by
  -- what the statement selects are the marked rows that the pass leaves
  have hsel : ∀ r r' : GranularRow, SameEvent h r r' → r'.granularity = levelAfter p r →
      ((inTimeRange p.llRunStartTime p.llEndTime r' && decide (r'.granularity ≠ 0)) = true ↔
        IsMarked p r) := by
    intro r r' hsame hlevel
    unfold IsMarked inTimeRange
    rw [Bool.and_eq_true, decide_eq_true_eq, hlevel, hsame.timestamp]
  unfold getLastGranularityPerformedRecord
  split
  · rename_i hnone
    refine Or.inr ⟨fun r hr hleave hmark => ?_, rfl⟩
    rcases hpass.kept r hr hleave with ⟨r', hr', hsame, hlevel⟩
    have hin : r' ∈ t'.rows.filter fun r => inTimeRange p.llRunStartTime p.llEndTime r &&
        decide (r.granularity ≠ 0) := List.mem_filter.2 ⟨hr', (hsel r r' hsame hlevel).2 hmark⟩
    rw [Lib.limit_eq_nil] at hnone
    rw [← Lib.mem_orderBy (k := fun r : GranularRow => OrderDual.toDual r.timestampKey), hnone] at hin
    exact absurd hin List.not_mem_nil
  · rename_i q' rest hhead
    have hlatest := Lib.isHead_of_limit (t'.sorted.filter _) hhead
    rcases List.mem_filter.1 hlatest.mem with ⟨hq', hq'sel⟩
    rcases hpass.old q' hq' with ⟨q, hq, hleave, hsame, hlevel⟩
    have hmark := (hsel q q' hsame hlevel).1 hq'sel
    refine Or.inl ⟨q, ⟨hq, hleave, hmark, fun r hr hrleave hrmark => ?_⟩, ?_⟩
    · rcases hpass.kept r hr hrleave with ⟨r', hr', hrsame, hrlevel⟩
      have hin : r' ∈ t'.rows.filter fun r => inTimeRange p.llRunStartTime p.llEndTime r &&
          decide (r.granularity ≠ 0) :=
        List.mem_filter.2 ⟨hr', (hsel r r' hrsame hrlevel).2 hrmark⟩
      rcases inTimeRange_iff.1 hrmark.1 with ⟨ts, hts, _⟩
      rcases inTimeRange_iff.1 hmark.1 with ⟨qts, hqts, _⟩
      have hkey : r'.timestampKey = (ts : WithBot ℤ) := hrsame.timestamp.trans hts
      have hqkey : q'.timestampKey = (qts : WithBot ℤ) := hsame.timestamp.trans hqts
      have hfirst := hlatest.first r' hin
      rw [hkey, hqkey] at hfirst
      rw [hts, hqts]
      rcases hfirst with hlt | ⟨heq, hle⟩
      · exact Or.inl (WithBot.coe_lt_coe.1 (OrderDual.toDual_lt_toDual.1 hlt))
      · refine Or.inr ⟨congrArg some (WithBot.coe_injective (OrderDual.toDual.injective heq)), ?_⟩
        have hid : q'.id ≤ r'.id := hle
        rwa [hsame.id, hrsame.id] at hid
    · rw [hsame.timestamp, hsame.id]

/-- A pass resumes at one row at most. -/
theorem ResumesAt.unique {p : AlternatePass} {t : GranularTable} {q q' : GranularRow}
    (hq : ResumesAt h p t q) (hq' : ResumesAt h p t q') : q = q' := by
  refine t.eq_of_key_eq hq.mem hq'.mem ?_
  show q.id = q'.id
  rcases hq.latest q' hq'.mem hq'.leaves hq'.marked with hlt | ⟨heq, hle⟩
  · rcases hq'.latest q hq.mem hq.leaves hq.marked with hlt' | ⟨heq', _⟩
    · omega
    · rw [heq'] at hlt
      exact absurd hlt (lt_irrefl _)
  · rcases hq'.latest q hq.mem hq.leaves hq.marked with hlt' | ⟨_, hle'⟩
    · rw [heq] at hlt'
      exact absurd hlt' (lt_irrefl _)
    · exact le_antisymm hle hle'

end Rows

end GranularityReduction

end DeviceClient
