import DeviceClient.Lib.NestedLoop
import DeviceClient.Upload.MidHandler
import DeviceClient.Upload.MidRows
import DeviceClient.Upload.StreamSelection
import DeviceClient.Upload.TopicedSelection
import Mathlib.Data.Finset.Card

/-!
# The upload loops

`UploadTopicedEvents` and `UploadEvents` select a batch of rows, publish it and
tag its rows with the mid of the publish, and go round as long as the batches
are full. Compression, publish and update may fail at any time.

* `iterationProgress_iff`: one iteration leaves or takes rows out of the sight
  of the next query, exactly if `Moves` holds.
* `loopProgress_iff`: all iterations do, and the loop ends, exactly if `Moves`
  holds at each of them.
* `not_finishes_of_gzip`: a full batch of rows that parse is tried for ever while
  its compression fails.
-/

namespace DeviceClient

def MIN_UPLOAD_EVENT_COUNT : ℤ := 20

def MAX_UPLOAD_EVENT_COUNT : ℤ := 175

/-- `InitEventsUploadCnt`. -/
def initEventsUploadCnt (nConfiguredMaxEventUploadCnt : ℤ) : ℕ :=
  if nConfiguredMaxEventUploadCnt ≤ MIN_UPLOAD_EVENT_COUNT then MIN_UPLOAD_EVENT_COUNT.toNat
  else if MAX_UPLOAD_EVENT_COUNT ≤ nConfiguredMaxEventUploadCnt then MAX_UPLOAD_EVENT_COUNT.toNat
  else nConfiguredMaxEventUploadCnt.toNat

theorem initEventsUploadCnt_pos (n : ℤ) : 0 < initEventsUploadCnt n := by
  unfold initEventsUploadCnt MIN_UPLOAD_EVENT_COUNT MAX_UPLOAD_EVENT_COUNT
  split
  · decide
  · split
    · decide
    · omega

/-- How one attempt to publish turns out: `GzipMsg` gives a message, the error and
the mid of the client, the result of `update_mid`, the lock attempts of `Put`. -/
structure PublishAttempt where
  bGzip : Bool
  nErr : ℤ
  nMid : ℤ
  bUpdateMid : Bool
  nFails : ℕ

/-- The uploader's settings, and the attempts to come by their number. -/
structure UploadEnv where
  rd : PayloadReader
  cfg : TopicConfig
  nConfiguredMaxEventUploadCnt : ℤ
  bCompression : Bool
  attempt : ℕ → PublishAttempt
  /-- `m_bShutdownRequested` after so many attempts. -/
  bShutdownRequested : ℕ → Bool

def UploadEnv.unMaxEventUploadCnt (env : UploadEnv) : ℕ :=
  initEventsUploadCnt env.nConfiguredMaxEventUploadCnt

/-- What the loops work on. -/
structure UploadState where
  db : Db
  handler : MidHandler StoreTable
  nErr : ℤ
  bDisconnected : Bool
  nAttempts : ℕ

namespace UploadState

/-- The next attempt is under way. -/
def tried (s : UploadState) : UploadState := { s with nAttempts := s.nAttempts + 1 }

/-- The event table as a query leaves it. -/
def setEventTable (s : UploadState) (table : EventTable) : UploadState :=
  { s with db := Function.update s.db .eventStore table }

/-- The batch is published: `update_mid` and `SetMidTable`. -/
def tagged (s : UploadState) (rvecRowIDs : List ℕ) (nMid : ℤ) (nFails : ℕ) : UploadState :=
  { s with
    db := s.db.tagRows .eventStore rvecRowIDs nMid
    handler := (s.handler.setMidTable nMid .eventStore nFails).2 }

end UploadState

variable (env : UploadEnv)

/-- Error and mid of a publish; nothing when the message cannot be compressed. -/
def gzipAndPublish (a : PublishAttempt) : Option (ℤ × ℤ) :=
  if env.bCompression = true ∧ a.bGzip = false then none else some (a.nErr, a.nMid)

/-- `PrepareDataAndPublish`. -/
def prepareDataAndPublish (a : PublishAttempt) : Option (ℤ × ℤ) := gzipAndPublish env a

/-- `PublishEvents`. -/
def publishEvents (a : PublishAttempt) : Option (ℤ × ℤ) := gzipAndPublish env a

/-- What follows a publish with error `s.nErr` and mid `nMid`. -/
def afterPublish (a : PublishAttempt) (nMid : ℤ) (rowIDs : List ℕ) (s : UploadState) :
    Bool × UploadState :=
  if s.nErr = 0 then
    if nMid ≤ 0 then (false, { s with nErr := -1, bDisconnected := true })
    else if a.bUpdateMid then (true, s.tagged rowIDs nMid a.nFails)
    else (false, { s with nErr := -1 })
  else (false, s)

/-- `VerifyPostPublish`. -/
def verifyPostPublish (a : PublishAttempt) (nMid : ℤ) (rvectRowIDs : List ℕ) (s : UploadState) :
    Bool × UploadState := afterPublish a nMid rvectRowIDs s

/-- The condition of both loops, after a batch of `unSize` rows. -/
def goesRound (unSize : ℕ) (s : UploadState) : UploadState ⊕ UploadState :=
  if unSize = env.unMaxEventUploadCnt ∧ env.bShutdownRequested s.nAttempts = false then .inl s
  else .inr s

/-! ## The event loop -/

/-- The rest of an iteration of `UploadEvents`, on the rows of the query. -/
def uploadBatch (vecRowIDs : List ℕ) (s : UploadState) : UploadState ⊕ UploadState :=
  if 0 < vecRowIDs.length then
    let a := env.attempt s.nAttempts
    match publishEvents env a with
    -- `continue` goes to the condition of the loop
    | none => goesRound env vecRowIDs.length s.tried
    | some (nErr, nMid) =>
      let r := verifyPostPublish a nMid vecRowIDs { s.tried with nErr := nErr }
      if r.1 then goesRound env vecRowIDs.length r.2 else .inr r.2
  else goesRound env vecRowIDs.length s

/-- One iteration of `UploadEvents`. -/
def uploadEventsIteration (fuel : ℕ) (s : UploadState) : Option (UploadState ⊕ UploadState) :=
  (getStreamingEventsFromDB env.rd fuel .eventStore {} env.unMaxEventUploadCnt
    (s.db .eventStore)).map fun out => uploadBatch env out.pvectRowIDs (s.setEventTable out.table)

/-- `UploadEvents`; the answer of `IsConnected` is an input. -/
def uploadEvents (bConnected : Bool) (fuel turns : ℕ) (s : UploadState) : Option UploadState :=
  if bConnected then
    Lib.nestedLoop (uploadEventsIteration env) fuel turns { s with nErr := -1 }
  else some { s with nErr := -1 }

/-! ## The loop of topiced events -/

/-- The keys of `mapTopicedEvent`, in their order. -/
def TopicedResult.mapTopicedEvent (out : TopicedResult) : List ℕ :=
  (out.pvectRowIDs.filter fun id => (out.rmapResults id).isSome).insertionSort (· ≤ ·)

/-- The loop of `UploadAllTopicedEvent` over the map. -/
def uploadTopiced : List ℕ → UploadState → UploadState
  | [], s => s
  | llRowId :: rest, s =>
    let a := env.attempt s.nAttempts
    match prepareDataAndPublish env a with
    -- `continue` goes to the next row, and the error stays what it was
    | none => uploadTopiced rest s.tried
    | some (nErr, nMid) =>
      let r := afterPublish a nMid [llRowId] { s.tried with nErr := nErr }
      if r.1 then uploadTopiced rest r.2 else r.2

/-- `UploadAllTopicedEvent`. -/
def uploadAllTopicedEvent (mapTopicedEvent : List ℕ) (s : UploadState) : UploadState :=
  uploadTopiced env mapTopicedEvent { s with nErr := -1 }

/-- The rest of an iteration of `UploadTopicedEvents`. -/
def uploadTopicedBatch (mapTopicedEvent : List ℕ) (s : UploadState) : UploadState ⊕ UploadState :=
  if 0 < mapTopicedEvent.length then
    let s := uploadAllTopicedEvent env mapTopicedEvent s
    if s.nErr ≠ 0 then .inr s else goesRound env mapTopicedEvent.length s
  else .inr s

/-- One iteration of `UploadTopicedEvents`. -/
def uploadTopicedEventsIteration (fuel : ℕ) (s : UploadState) :
    Option (UploadState ⊕ UploadState) :=
  (getTopicedStreamingEventsFromDB env.rd env.cfg fuel env.unMaxEventUploadCnt 0 0
    (s.db .eventStore)).map fun out =>
      uploadTopicedBatch env out.mapTopicedEvent (s.setEventTable out.table)

/-- `UploadTopicedEvents`. -/
def uploadTopicedEvents (bConnected : Bool) (fuel turns : ℕ) (s : UploadState) :
    Option UploadState :=
  if bConnected then
    Lib.nestedLoop (uploadTopicedEventsIteration env) fuel turns { s with nErr := -1 }
  else some { s with nErr := -1 }

/-! ## Progress -/

/-- The two loops. -/
inductive UploadLoop where
  | topiced
  | events

namespace UploadLoop

/-- What the query of the loop selects. -/
def selection : UploadLoop → EventRow → Bool
  | .topiced => topicedSelection 0 0
  | .events => getSelectionForStreamingEvents .eventStore {}

def iteration : UploadLoop → ℕ → UploadState → Option (UploadState ⊕ UploadState)
  | .topiced => uploadTopicedEventsIteration env
  | .events => uploadEventsIteration env

/-- The rows that the next query of the loop selects, without its limit. -/
def selected (loop : UploadLoop) (s : UploadState) : Finset EventRow :=
  ((s.db .eventStore).rows.filter loop.selection).toFinset

/-- One iteration returns, and leaves the loop or takes rows out of the selection. -/
def IterationProgress (loop : UploadLoop) (s : UploadState) : Prop :=
  ∃ r, Lib.Iterates (loop.iteration env) s r ∧
    ∀ s', r = .inl s' → loop.selected s' ⊂ loop.selected s

/-- The function with the loop. -/
def upload : UploadLoop → Bool → ℕ → ℕ → UploadState → Option UploadState
  | .topiced => uploadTopicedEvents env
  | .events => uploadEvents env

/-- The state from which the loop is entered. -/
def enter (s : UploadState) : UploadState := { s with nErr := -1 }

/-- The function returns, and every iteration of its loop makes progress. -/
def LoopProgress (loop : UploadLoop) (bConnected : Bool) (s : UploadState) : Prop :=
  (∃ fuel turns out, loop.upload env bConnected fuel turns s = some out) ∧
    (bConnected = true → ∀ t, Lib.Rounds (loop.iteration env) (enter s) t →
      loop.IterationProgress env t)

/-- The compression of a full page of good rows fails, with no shutdown requested. -/
def GzipStuck (s : UploadState) : Prop :=
  FullGoodPage env.rd .eventStore env.unMaxEventUploadCnt (s.db .eventStore) ∧
    env.bCompression = true ∧ (env.attempt s.nAttempts).bGzip = false ∧
    env.bShutdownRequested (s.nAttempts + 1) = false

/-- The condition on an iteration. The topiced query returns; the batch of the event
loop is not stuck. -/
def Moves : UploadLoop → UploadState → Prop
  | .topiced, s => env.cfg.strDeviceId = "" ∨
      FirstPageLoads env.rd (topicedSelection 0 0) env.unMaxEventUploadCnt (s.db .eventStore)
  | .events, s => ¬ GzipStuck env s

end UploadLoop

variable {env}

/-! ## The rows that stay selected -/

section Selected

variable {loop : UploadLoop} {s s' : UploadState}

theorem mem_selected {r : EventRow} :
    r ∈ loop.selected s ↔ r ∈ (s.db .eventStore).rows ∧ loop.selection r = true := by
  unfold UploadLoop.selected
  rw [List.mem_toFinset, List.mem_filter]

/-- Both loops select rows without a mid. -/
theorem mid_of_selection {r : EventRow} (h : loop.selection r = true) : r.mid = 0 := by
  cases loop with
  | topiced =>
    unfold UploadLoop.selection topicedSelection at h
    cases hts : r.timestamp with
    | none => simp [hts] at h
    | some ts =>
      simp only [hts, Bool.and_eq_true, decide_eq_true_eq] at h
      exact h.2
  | events => exact (selection_default.1 h).1

/-- Only rows outside the batch stay selected, unchanged. -/
theorem mem_selected_tagged {rowIDs : List ℕ} {nMid : ℤ} {nFails : ℕ} (hmid : 0 < nMid)
    {r : EventRow} (h : r ∈ loop.selected (s.tagged rowIDs nMid nFails)) :
    r ∈ loop.selected s ∧ r.id ∉ rowIDs := by
  rcases mem_selected.1 h with ⟨hmem, hsel⟩
  unfold UploadState.tagged Db.tagRows Db.updateMid at hmem
  dsimp only at hmem
  rw [Function.update_self, Lib.Table.mem_update] at hmem
  rcases hmem with ⟨r₀, h₀, heq⟩
  by_cases hid : r₀.id ∈ rowIDs
  · -- a tagged row has a mid
    rw [if_pos (decide_eq_true hid)] at heq
    have hzero := mid_of_selection hsel
    rw [← heq, EventRow.setMid_mid] at hzero
    omega
  · rw [if_neg (by rw [decide_eq_true_eq]; exact hid)] at heq
    subst heq
    exact ⟨mem_selected.2 ⟨h₀, hsel⟩, hid⟩

theorem selected_setEventTable {table : EventTable} {r : EventRow} :
    r ∈ loop.selected (s.setEventTable table) ↔ r ∈ table.rows ∧ loop.selection r = true := by
  rw [mem_selected]
  unfold UploadState.setEventTable
  dsimp only
  rw [Function.update_self]

theorem selected_congr (loop : UploadLoop) (h : s'.db = s.db) :
    loop.selected s' = loop.selected s := by
  unfold UploadLoop.selected
  rw [h]

end Selected

/-! ## After a publish -/

/-- Either the rows are tagged, or the database is as it was and an error is set. -/
theorem afterPublish_cases (a : PublishAttempt) (nMid : ℤ) (rowIDs : List ℕ) (s : UploadState) :
    (0 < nMid ∧ s.nErr = 0 ∧
      afterPublish a nMid rowIDs s = (true, s.tagged rowIDs nMid a.nFails)) ∨
    ∃ s', afterPublish a nMid rowIDs s = (false, s') ∧ s'.db = s.db ∧ s'.nErr ≠ 0 := by
  unfold afterPublish
  by_cases herr : s.nErr = 0
  · rw [if_pos herr]
    by_cases hmid : nMid ≤ 0
    · rw [if_pos hmid]
      exact Or.inr ⟨_, rfl, rfl, Int.neg_ne_zero.2 one_ne_zero⟩
    · rw [if_neg hmid]
      cases a.bUpdateMid with
      | true => exact Or.inl ⟨by omega, herr, rfl⟩
      | false => exact Or.inr ⟨_, rfl, rfl, Int.neg_ne_zero.2 one_ne_zero⟩
  · rw [if_neg herr]
    exact Or.inr ⟨s, rfl, rfl, herr⟩

variable (env) in
/-- One row of the map: it is not compressed and passed over; or published and
tagged; or the rest is given up with an error. -/
theorem uploadTopiced_cons (llRowId : ℕ) (rest : List ℕ) (s : UploadState) :
    uploadTopiced env (llRowId :: rest) s = uploadTopiced env rest s.tried ∨
    (∃ (t : UploadState) (nMid : ℤ) (nFails : ℕ), 0 < nMid ∧ t.db = s.db ∧
      uploadTopiced env (llRowId :: rest) s =
        uploadTopiced env rest (t.tagged [llRowId] nMid nFails)) ∨
    ((uploadTopiced env (llRowId :: rest) s).db = s.db ∧
      (uploadTopiced env (llRowId :: rest) s).nErr ≠ 0) := by
  cases hp : prepareDataAndPublish env (env.attempt s.nAttempts) with
  | none =>
    left
    simp only [uploadTopiced, hp]
  | some p =>
    right
    rcases p with ⟨nErr, nMid⟩
    rcases afterPublish_cases (env.attempt s.nAttempts) nMid [llRowId]
      { s.tried with nErr := nErr } with ⟨hmid, _, h⟩ | ⟨s', h, hdb, herr⟩
    · left
      refine ⟨{ s.tried with nErr := nErr }, nMid, (env.attempt s.nAttempts).nFails, hmid, rfl, ?_⟩
      simp only [uploadTopiced, hp, h, if_true]
    · right
      have heq : uploadTopiced env (llRowId :: rest) s = s' := by
        simp only [uploadTopiced, hp, h, Bool.false_eq_true, if_false]
      rw [heq]
      exact ⟨hdb, herr⟩

variable (env) in
/-- The map takes rows out of the selection only, and without an error at least one. -/
theorem selected_uploadTopiced (loop : UploadLoop) (ids : List ℕ) :
    ∀ s, loop.selected (uploadTopiced env ids s) ⊆ loop.selected s ∧
      ((uploadTopiced env ids s).nErr = 0 → s.nErr = 0 ∨
        ∃ id ∈ ids, ∀ r ∈ loop.selected (uploadTopiced env ids s), r.id ≠ id) := by
  induction ids with
  | nil => exact fun s => ⟨Finset.Subset.refl _, fun h => Or.inl h⟩
  | cons llRowId rest ih =>
    intro s
    rcases uploadTopiced_cons env llRowId rest s with
      h | ⟨t, nMid, nFails, hmid, hdb, h⟩ | ⟨hdb, herr⟩
    · rw [h]
      rcases ih s.tried with ⟨hsub, hone⟩
      refine ⟨hsub, fun hzero => ?_⟩
      -- the row that is passed over stays as it is
      rcases hone hzero with hs | ⟨id, hid, hgone⟩
      · exact Or.inl hs
      · exact Or.inr ⟨id, List.mem_cons_of_mem _ hid, hgone⟩
    · rw [h]
      have hsub := (ih (t.tagged [llRowId] nMid nFails)).1
      constructor
      · intro r hr
        rw [← selected_congr loop hdb]
        exact (mem_selected_tagged hmid (hsub hr)).1
      · intro _
        refine Or.inr ⟨llRowId, List.mem_cons_self, fun r hr heq => ?_⟩
        exact (mem_selected_tagged hmid (hsub hr)).2 (List.mem_singleton.2 heq)
    · rw [selected_congr loop hdb]
      exact ⟨Finset.Subset.refl _, fun hzero => absurd hzero herr⟩

/-! ## One iteration -/

theorem goesRound_eq_inl {unSize : ℕ} {s s' : UploadState} :
    goesRound env unSize s = .inl s' ↔
      (unSize = env.unMaxEventUploadCnt ∧ env.bShutdownRequested s.nAttempts = false) ∧ s = s' := by
  unfold goesRound
  by_cases h : unSize = env.unMaxEventUploadCnt ∧ env.bShutdownRequested s.nAttempts = false
  · rw [if_pos h, Sum.inl.injEq]
    exact ⟨fun heq => ⟨h, heq⟩, fun heq => heq.2⟩
  · rw [if_neg h]
    exact ⟨fun heq => (nomatch heq), fun heq => absurd heq.1 h⟩

theorem unMaxEventUploadCnt_pos (env : UploadEnv) : 0 < env.unMaxEventUploadCnt :=
  initEventsUploadCnt_pos _

/-- A batch that goes round was full. It was tagged, or its compression failed. -/
theorem uploadBatch_inl {vecRowIDs : List ℕ} {s s' : UploadState}
    (h : uploadBatch env vecRowIDs s = .inl s') :
    vecRowIDs.length = env.unMaxEventUploadCnt ∧
      ((∃ (t : UploadState) (nMid : ℤ) (nFails : ℕ), 0 < nMid ∧ t.db = s.db ∧
          s' = t.tagged vecRowIDs nMid nFails) ∨
        (s' = s.tried ∧ env.bCompression = true ∧ (env.attempt s.nAttempts).bGzip = false ∧
          env.bShutdownRequested (s.nAttempts + 1) = false)) := by
  unfold uploadBatch at h
  dsimp only at h
  by_cases hlen : 0 < vecRowIDs.length
  · rw [if_pos hlen] at h
    cases hp : publishEvents env (env.attempt s.nAttempts) with
    | none =>
      rw [hp] at h
      dsimp only at h
      rcases goesRound_eq_inl.1 h with ⟨⟨hfull, hrun⟩, heq⟩
      unfold publishEvents gzipAndPublish at hp
      split at hp
      · rename_i hgzip
        exact ⟨hfull, Or.inr ⟨heq.symm, hgzip.1, hgzip.2, hrun⟩⟩
      · cases hp
    | some p =>
      rcases p with ⟨nErr, nMid⟩
      rw [hp] at h
      rcases afterPublish_cases (env.attempt s.nAttempts) nMid vecRowIDs
        { s.tried with nErr := nErr } with ⟨hmid, _, hafter⟩ | ⟨s₁, hafter, _, _⟩
      · simp only [verifyPostPublish, hafter, if_true] at h
        rcases goesRound_eq_inl.1 h with ⟨⟨hfull, _⟩, heq⟩
        exact ⟨hfull, Or.inl ⟨{ s.tried with nErr := nErr }, nMid, _, hmid, rfl, heq.symm⟩⟩
      · simp only [verifyPostPublish, hafter, Bool.false_eq_true, if_false] at h
        cases h
  · rw [if_neg hlen] at h
    have hpos := unMaxEventUploadCnt_pos env
    -- an empty batch is not full
    have hfull := (goesRound_eq_inl.1 h).1.1
    omega

/-- The map of an iteration that goes round lost a row from the selection. -/
theorem uploadTopicedBatch_inl {mapTopicedEvent : List ℕ} {s s' : UploadState}
    (loop : UploadLoop) (h : uploadTopicedBatch env mapTopicedEvent s = .inl s') :
    loop.selected s' ⊆ loop.selected s ∧
      ∃ id ∈ mapTopicedEvent, ∀ r ∈ loop.selected s', r.id ≠ id := by
  unfold uploadTopicedBatch at h
  dsimp only at h
  by_cases hlen : 0 < mapTopicedEvent.length
  · rw [if_pos hlen] at h
    by_cases herr : (uploadAllTopicedEvent env mapTopicedEvent s).nErr = 0
    · rw [if_neg (not_not.2 herr)] at h
      have heq := (goesRound_eq_inl.1 h).2
      subst heq
      rcases selected_uploadTopiced env loop mapTopicedEvent { s with nErr := -1 } with
        ⟨hsub, hone⟩
      -- the error is -1 until a row is tagged
      exact ⟨hsub, (hone herr).resolve_left (Int.neg_ne_zero.2 one_ne_zero)⟩
    · rw [if_pos herr] at h
      cases h
  · rw [if_neg hlen] at h
    cases h

theorem mem_mapTopicedEvent {out : TopicedResult} {id : ℕ} (h : id ∈ out.mapTopicedEvent) :
    id ∈ out.pvectRowIDs :=
  List.mem_of_mem_filter ((List.mem_insertionSort _).1 h)

/-- A selected row that the iteration took out of the selection. -/
theorem ssubset_of_gone {loop : UploadLoop} {s s' : UploadState} {r : EventRow}
    (hsub : loop.selected s' ⊆ loop.selected s) (hr : r ∈ loop.selected s)
    (hgone : r ∉ loop.selected s') : loop.selected s' ⊂ loop.selected s :=
  (Finset.ssubset_iff_of_subset hsub).2 ⟨r, hr, hgone⟩

theorem settled_iteration (env : UploadEnv) (loop : UploadLoop) :
    Lib.Settled (loop.iteration env) := by
  intro fuel fuel' s r hle h
  cases loop with
  | topiced =>
    rcases Option.map_eq_some_iff.1 h with ⟨out, hout, heq⟩
    exact Option.map_eq_some_iff.2
      ⟨out, getTopicedStreamingEventsFromDB_mono env.rd env.cfg hle hout, heq⟩
  | events =>
    rcases Option.map_eq_some_iff.1 h with ⟨out, hout, heq⟩
    exact Option.map_eq_some_iff.2 ⟨out, getStreamingEventsFromDB_mono env.rd hle hout, heq⟩

theorem topicedProgress_of_moves {s : UploadState} (h : UploadLoop.Moves env .topiced s) :
    UploadLoop.IterationProgress env .topiced s := by
  rcases getTopicedStreamingEventsFromDB_returns env.rd env.cfg h with ⟨fuel, out, hout⟩
  have hiter : UploadLoop.iteration env .topiced fuel s =
      some (uploadTopicedBatch env out.mapTopicedEvent (s.setEventTable out.table)) :=
    Option.map_eq_some_iff.2 ⟨out, hout, rfl⟩
  refine ⟨_, ⟨fuel, hiter⟩, fun s' hs' => ?_⟩
  rcases uploadTopicedBatch_inl .topiced hs' with ⟨hsub, id, hid, hgone⟩
  have htable := getTopicedStreamingEventsFromDB_table env.rd env.cfg hout
  rcases (getTopicedStreamingEventsFromDB_returned env.rd env.cfg hout).1 id
    (mem_mapTopicedEvent hid) with ⟨r, hr, hrid, _, hsel⟩
  refine ssubset_of_gone ?_ (mem_selected.2 ⟨hr, hsel⟩) fun hmem => hgone r hmem hrid
  intro r' hr'
  have hkept := selected_setEventTable.1 (hsub hr')
  exact mem_selected.2 ⟨htable r' hkept.1, hkept.2⟩

/-- A query that never returns. -/
theorem not_topicedProgress {s : UploadState} (h : ¬ UploadLoop.Moves env .topiced s) :
    ¬ UploadLoop.IterationProgress env .topiced s := by
  rintro ⟨r, ⟨fuel, hr⟩, _⟩
  rcases Option.map_eq_some_iff.1 hr with ⟨out, hout, _⟩
  rw [UploadLoop.Moves, not_or] at h
  -- the query fetches the same page again and again
  exact topicedLoop_traps h.2 (topicedInv_init env.rd _)
    (terminates_of_returns env.rd env.cfg h.1 ⟨fuel, out, hout⟩)

theorem eventsProgress_of_moves {s : UploadState} (h : UploadLoop.Moves env .events s) :
    UploadLoop.IterationProgress env .events s := by
  rcases getStreamingEventsFromDB_returns env.rd .eventStore {} env.unMaxEventUploadCnt
    (s.db .eventStore) with ⟨fuel, out, hout⟩
  have hiter : UploadLoop.iteration env .events fuel s =
      some (uploadBatch env out.pvectRowIDs (s.setEventTable out.table)) :=
    Option.map_eq_some_iff.2 ⟨out, hout, rfl⟩
  refine ⟨_, ⟨fuel, hiter⟩, fun s' hs' => ?_⟩
  rcases getStreamingEventsFromDB_returned env.rd hout with ⟨hids, htable⟩
  have hsub : UploadLoop.selected .events (s.setEventTable out.table) ⊆
      UploadLoop.selected .events s := by
    intro r hr
    have hkept := selected_setEventTable.1 hr
    exact mem_selected.2 ⟨htable r hkept.1, hkept.2⟩
  rcases uploadBatch_inl hs' with ⟨hfull, ⟨t, nMid, nFails, hmid, hdb, rfl⟩ |
    ⟨rfl, hcompression, hgzip, hrun⟩⟩
  · -- the rows of the batch have a mid now
    have hpos := unMaxEventUploadCnt_pos env
    rcases List.exists_mem_of_length_pos (show 0 < out.pvectRowIDs.length by omega) with
      ⟨id, hid⟩
    rcases hids id hid with ⟨r, hr, hrid, hsel⟩
    refine ssubset_of_gone ?_ (mem_selected.2 ⟨hr, hsel⟩) ?_
    · intro r' hr'
      have hkept := (mem_selected_tagged hmid hr').1
      rw [selected_congr .events hdb] at hkept
      exact hsub hkept
    · intro hmem
      exact (mem_selected_tagged hmid hmem).2 (hrid ▸ hid)
  · -- the batch stays, but a corrupted row was deleted on the way to it
    have hpage : ¬ FullGoodPage env.rd .eventStore env.unMaxEventUploadCnt (s.db .eventStore) :=
      fun hpage => h ⟨hpage, hcompression, hgzip, hrun⟩
    rcases getStreamingEventsFromDB_deletes env.rd hpage hout (congrArg Nat.cast hfull) with
      ⟨r, hr, hsel, hgone⟩
    refine ssubset_of_gone hsub (mem_selected.2 ⟨hr, hsel⟩) fun hmem => ?_
    have hkept : r ∈ UploadLoop.selected .events (s.setEventTable out.table) := hmem
    exact hgone (selected_setEventTable.1 hkept).1

/-- A stuck iteration goes round with the database as it was. -/
theorem iterates_of_gzipStuck {s : UploadState} (h : UploadLoop.GzipStuck env s) :
    Lib.Iterates (UploadLoop.iteration env .events) s (.inl s.tried) := by
  rcases h with ⟨hpage, hcompression, hgzip, hrun⟩
  rcases getStreamingEventsFromDB_fullGoodPage env.rd hpage with ⟨out, hout, htable, hlen⟩
  have hsame : s.setEventTable out.table = s := by
    unfold UploadState.setEventTable
    rw [htable, Function.update_eq_self]
  have hpos := unMaxEventUploadCnt_pos env
  refine ⟨1, Option.map_eq_some_iff.2 ⟨out, hout, ?_⟩⟩
  rw [hsame]
  have hp : publishEvents env (env.attempt s.nAttempts) = none := if_pos ⟨hcompression, hgzip⟩
  unfold uploadBatch
  dsimp only
  rw [if_pos (show 0 < out.pvectRowIDs.length by omega), hp]
  exact goesRound_eq_inl.2 ⟨⟨by omega, hrun⟩, rfl⟩

theorem not_eventsProgress {s : UploadState} (h : ¬ UploadLoop.Moves env .events s) :
    ¬ UploadLoop.IterationProgress env .events s := by
  rintro ⟨r, hr, hless⟩
  have hiter := iterates_of_gzipStuck (not_not.1 h)
  have heq := Lib.Iterates.unique (settled_iteration env .events) hr hiter
  exact (hless s.tried heq).ne rfl

/-- An iteration leaves the loop or takes rows out of the selection, exactly if it moves. -/
theorem iterationProgress_iff {loop : UploadLoop} {s : UploadState} :
    loop.IterationProgress env s ↔ loop.Moves env s := by
  cases loop with
  | topiced => exact ⟨fun h => by_contra fun hm => not_topicedProgress hm h, topicedProgress_of_moves⟩
  | events => exact ⟨fun h => by_contra fun hm => not_eventsProgress hm h, eventsProgress_of_moves⟩

/-! ## The whole loop -/

variable (env) in
theorem upload_eq (loop : UploadLoop) (bConnected : Bool) (fuel turns : ℕ) (s : UploadState) :
    loop.upload env bConnected fuel turns s =
      if bConnected then Lib.nestedLoop (loop.iteration env) fuel turns (UploadLoop.enter s)
      else some (UploadLoop.enter s) := by
  cases loop <;> rfl

/-- A loop whose iterations all make progress ends: each lowers the number of selected rows. -/
theorem finishes_of_progress {loop : UploadLoop} {s : UploadState}
    (h : ∀ t, Lib.Rounds (loop.iteration env) s t → loop.IterationProgress env t) :
    Lib.Finishes (loop.iteration env) s := by
  refine Lib.finishes_of_measure (settled_iteration env loop) (Lib.Rounds (loop.iteration env) s)
    (fun t => (loop.selected t).card) ?_ s (Lib.Rounds.refl s)
  intro t ht
  rcases h t ht with ⟨r, hr, hless⟩
  refine ⟨r, hr, fun t' ht' => ⟨Lib.Rounds.tail ht (ht' ▸ hr), ?_⟩⟩
  exact Finset.card_lt_card (hless t' ht')

/-- For all settings, tables and outcomes of the attempts, the function returns and
each iteration makes progress exactly if each iteration moves. -/
theorem loopProgress_iff (env : UploadEnv) (loop : UploadLoop) (bConnected : Bool)
    (s : UploadState) :
    loop.LoopProgress env bConnected s ↔
      (bConnected = true → ∀ t, Lib.Rounds (loop.iteration env) (UploadLoop.enter s) t →
        loop.Moves env t) := by
  constructor
  · exact fun h hconnected t ht => iterationProgress_iff.1 (h.2 hconnected t ht)
  · intro h
    have hprogress : bConnected = true → ∀ t,
        Lib.Rounds (loop.iteration env) (UploadLoop.enter s) t → loop.IterationProgress env t :=
      fun hconnected t ht => iterationProgress_iff.2 (h hconnected t ht)
    refine ⟨?_, hprogress⟩
    cases bConnected with
    | false => exact ⟨0, 0, UploadLoop.enter s, upload_eq env loop false 0 0 s⟩
    | true =>
      rcases finishes_of_progress (hprogress rfl) with ⟨fuel, turns, out, hout⟩
      exact ⟨fuel, turns, out, (upload_eq env loop true fuel turns s).trans hout⟩

/-- A full page of good rows is tried for ever while its compression fails. -/
theorem not_finishes_of_gzip {s : UploadState}
    (hpage : FullGoodPage env.rd .eventStore env.unMaxEventUploadCnt (s.db .eventStore))
    (hcompression : env.bCompression = true) (hgzip : ∀ k, (env.attempt k).bGzip = false)
    (hrun : ∀ k, env.bShutdownRequested k = false) :
    ¬ Lib.Finishes (UploadLoop.iteration env .events) s := by
  refine Lib.not_finishes_of_trap (settled_iteration env .events)
    (fun t => FullGoodPage env.rd .eventStore env.unMaxEventUploadCnt (t.db .eventStore)) ?_ s hpage
  intro t ht
  exact ⟨t.tried, iterates_of_gzipStuck ⟨ht, hcompression, hgzip _, hrun _⟩, ht⟩

/-- Twenty events, the size of a batch by default. -/
def twentyEvents : UploadState where
  db := Function.update (fun _ => Lib.Table.empty) .eventStore
    ((List.range 20).foldl (fun t _ => t.insert
      (fun n => ⟨n, "Speed", some 1, 0, 2, 0, "\x7b\x7d", none, 0, 1, 0⟩) fun _ => rfl)
      Lib.Table.empty)
  handler := MidHandler.init
  nErr := 0
  bDisconnected := false
  nAttempts := 0

/-- `GzipMsg` never gives a message. -/
def noGzip : UploadEnv where
  rd := ⟨id, fun _ => true⟩
  cfg := ⟨"D1", "ic/"⟩
  nConfiguredMaxEventUploadCnt := 20
  bCompression := true
  attempt := fun _ => ⟨false, 0, 1, true, 0⟩
  bShutdownRequested := fun _ => false

theorem not_loopProgress_noGzip : ¬ UploadLoop.LoopProgress noGzip .events true twentyEvents := by
  rintro ⟨⟨fuel, turns, out, hout⟩, _⟩
  rw [upload_eq] at hout
  refine not_finishes_of_gzip ⟨?_, ?_⟩ rfl (fun _ => rfl) (fun _ => rfl) ⟨fuel, turns, out, hout⟩
  · decide +kernel
  · decide +kernel

end DeviceClient
