import DeviceClient.Lib.NestedLoop
import DeviceClient.Upload.MidHandler
import DeviceClient.Upload.MidRows
import DeviceClient.Upload.StreamSelection
import Mathlib.Data.Finset.Card

/-!
# The upload of alerts

`ProcessAlertUploads` calls `UploadAlerts` ten times over; a call selects batches of at most twenty
alerts, publishes each and tags its rows with the mid, until no alert is left or something fails.

The answers of `IsConnected`, of the client and of the database, and the flag of the shutdown are
inputs; nobody else stores or removes alerts meanwhile. The batches published, and the number of
those that failed, are history.

* `processPublishedAlerts`, `uploadAlerts`, `processAlertUploads`: the code.
* `Inv`: what the table holds of the rows there were, at any time; `turn_inl` and `turn_inr`.
* `retryUploads_returns`: the loops come to an end.
* `alerts_run`: no alert is tagged twice, and none is left unless every call fails.
-/

namespace DeviceClient

namespace AlertUpload

def EVENT_COUNT : ℕ := 20

def RETRY_COUNT : ℕ := 10

inductive UploadError where
  | eUE_NO_CONNECTION
  | eUE_UPLOAD_SUCCESS
  | eUE_DATA_NOT_AVAILABLE
  | eUE_PUBLISH_ERROR
deriving DecidableEq, Repr

/-- How a publish turns out: result and mid of the client, the result of `update_mid`, the lock
attempts of `Put`. -/
structure Attempt where
  nResult : ℤ
  nMid : ℤ
  bUpdateMid : Bool
  nFails : ℕ

/-- What is asked for, by the number of the question. -/
structure Env where
  rd : PayloadReader
  attempt : ℕ → Attempt
  bConnected : ℕ → Bool
  bShutdownRequested : ℕ → Bool

/-- A batch that the client has taken. -/
structure Batch where
  vectRowIDs : List ℕ
  strAlerts : String
  nMid : ℤ
  bTagged : Bool

structure State where
  db : Db
  handler : MidHandler StoreTable
  eErr : UploadError
  bDisconnected : Bool
  nAttempts : ℕ
  nCalls : ℕ
  nReads : ℕ
  published : List Batch
  nFailed : ℕ

/-- `m_bShutdownRequested` has been read. -/
def State.read (s : State) : State := { s with nReads := s.nReads + 1 }

/-- The alert table as a query leaves it. -/
def State.setAlertTable (s : State) (table : EventTable) : State :=
  { s with db := Function.update s.db .alertStore table }

@[simp] theorem alertStore_setAlertTable (s : State) (table : EventTable) :
    (s.setAlertTable table).db .alertStore = table := rfl

@[simp] theorem eventStore_setAlertTable (s : State) (table : EventTable) :
    (s.setAlertTable table).db .eventStore = s.db .eventStore := rfl

/-- Nothing has been asked yet. -/
def State.start (db : Db) (handler : MidHandler StoreTable) : State :=
  ⟨db, handler, .eUE_DATA_NOT_AVAILABLE, false, 0, 0, 0, [], 0⟩

variable (env : Env)

/-- `ProcessPublishedAlerts`. -/
def processPublishedAlerts (a : Attempt) (rvectRowIDs : List ℕ) (s : State) :
    UploadError × State :=
  if a.nMid ≤ 0 then (.eUE_DATA_NOT_AVAILABLE, { s with bDisconnected := true })
  else if a.bUpdateMid then
    (.eUE_UPLOAD_SUCCESS,
      { s with
        db := s.db.tagRows .alertStore rvectRowIDs a.nMid
        handler := (s.handler.setMidTable a.nMid .alertStore a.nFails).2 })
  else (.eUE_DATA_NOT_AVAILABLE, s)

/-- The rest of a turn of `UploadAlerts`, on what the query has found. -/
def uploadBatch (vectRowIDs : List ℕ) (strAlerts : String) (s : State) : State ⊕ State :=
  if vectRowIDs.length = 0 then .inr s
  else
    let a := env.attempt s.nAttempts
    let s := { s with eErr := .eUE_UPLOAD_SUCCESS, nAttempts := s.nAttempts + 1 }
    if a.nResult ≠ 0 then
      .inr { s with eErr := .eUE_PUBLISH_ERROR, nFailed := s.nFailed + 1 }
    else
      let r := processPublishedAlerts a vectRowIDs s
      if r.1 = .eUE_UPLOAD_SUCCESS then
        .inl { r.2 with
          eErr := r.1
          published := r.2.published ++ [⟨vectRowIDs, strAlerts, a.nMid, true⟩] }
      else
        .inr { r.2 with
          eErr := r.1
          published := r.2.published ++ [⟨vectRowIDs, strAlerts, a.nMid, false⟩]
          nFailed := r.2.nFailed + 1 }

/-- A turn of `UploadAlerts`. -/
def uploadAlertsIteration (fuel : ℕ) (s : State) : Option (State ⊕ State) :=
  if env.bShutdownRequested s.nReads then some (.inr s.read)
  else
    (getStreamingEventsFromDB env.rd fuel .alertStore {} EVENT_COUNT (s.db .alertStore)).map
      fun out => uploadBatch env out.pvectRowIDs out.rstrResult (s.read.setAlertTable out.table)

/-- `UploadAlerts`. -/
def uploadAlerts (fuel turns : ℕ) (s : State) : Option State :=
  if env.bConnected s.nCalls then
    Lib.nestedLoop (uploadAlertsIteration env) fuel turns
      { s with eErr := .eUE_DATA_NOT_AVAILABLE, nCalls := s.nCalls + 1 }
  else some { s with eErr := .eUE_NO_CONNECTION, nCalls := s.nCalls + 1 }

/-- The loop of `ProcessAlertUploads`, with the turns that are left. -/
def retryUploads (fuel turns : ℕ) : ℕ → State → Option State
  | 0, s => some s
  | n + 1, s =>
    if env.bShutdownRequested s.nReads then some s.read
    else (uploadAlerts env fuel turns s.read).bind (retryUploads fuel turns n)

/-- `ProcessAlertUploads`. -/
def processAlertUploads (fuel turns : ℕ) (s : State) : Option State :=
  retryUploads env fuel turns RETRY_COUNT s

/-! ## The table over time -/

/-- Alert `r` has been tagged with one of the batches. -/
def TaggedIn (published : List Batch) (r : EventRow) (b : Batch) : Prop :=
  b ∈ published ∧ b.bTagged = true ∧ r.id ∈ b.vectRowIDs

/-- Row `r'` is what has become of row `r`. -/
def Now (published : List Batch) (r r' : EventRow) : Prop :=
  (r' = r ∧ ∀ b, ¬ TaggedIn published r b) ∨
    ∃ b, TaggedIn published r b ∧ r' = r.setMid b.nMid

/-- The batch is of alerts of the table that may be sent, oldest first. -/
def IsBatch (rd : PayloadReader) (table : EventTable) (b : Batch) : Prop :=
  ∃ rows : List EventRow, rows ≠ [] ∧ rows.length ≤ EVENT_COUNT ∧
    (rows.Pairwise fun r r' => r.timestampKey ≤ r'.timestampKey) ∧
    (∀ r ∈ rows, r ∈ table.rows ∧ Eligible .alertStore r ∧ rd.corrupted r = false) ∧
    b.vectRowIDs = rows.map EventRow.id ∧
    b.strAlerts = "[" ++ ",".intercalate (rows.map fun r => rd.decryptEventData r.events) ++ "]"

/-- What holds at any time, of the database there was. -/
structure Inv (rd : PayloadReader) (db : Db) (s : State) : Prop where
  others : s.db .eventStore = db .eventStore
  origin : ∀ r' ∈ (s.db .alertStore).rows, ∃ r ∈ (db .alertStore).rows, Now s.published r r'
  kept : ∀ r ∈ (db .alertStore).rows, rd.corrupted r = false →
    ∃ r' ∈ (s.db .alertStore).rows, Now s.published r r'
  batches : ∀ b ∈ s.published, IsBatch rd (db .alertStore) b
  once : s.published.Pairwise fun b b' => b.bTagged = true → ∀ id ∈ b.vectRowIDs,
    id ∉ b'.vectRowIDs
  pos : ∀ b ∈ s.published, b.bTagged = true → 0 < b.nMid

/-- No alert that could be sent is left. -/
def Clean (rd : PayloadReader) (s : State) : Prop :=
  ∀ r ∈ (s.db .alertStore).rows, Eligible .alertStore r → rd.corrupted r = true

/-- The rows that the next query selects. -/
def selected (s : State) : Finset EventRow :=
  ((s.db .alertStore).rows.filter (getSelectionForStreamingEvents .alertStore {})).toFinset

variable {env}

theorem mem_selected {s : State} {r : EventRow} :
    r ∈ selected s ↔ r ∈ (s.db .alertStore).rows ∧ Eligible .alertStore r := by
  unfold selected
  rw [List.mem_toFinset, List.mem_filter, selection_default]

/-! ## A turn -/

theorem processPublishedAlerts_cases (a : Attempt) (rvectRowIDs : List ℕ) (s : State) :
    (0 < a.nMid ∧ ∃ handler, processPublishedAlerts a rvectRowIDs s =
      (.eUE_UPLOAD_SUCCESS,
        { s with db := s.db.tagRows .alertStore rvectRowIDs a.nMid, handler := handler })) ∨
    ∃ bDisconnected, processPublishedAlerts a rvectRowIDs s =
      (.eUE_DATA_NOT_AVAILABLE, { s with bDisconnected := bDisconnected }) := by
  unfold processPublishedAlerts
  by_cases hmid : a.nMid ≤ 0
  · rw [if_pos hmid]
    exact Or.inr ⟨true, rfl⟩
  · rw [if_neg hmid]
    cases a.bUpdateMid with
    | true => exact Or.inl ⟨by omega, _, rfl⟩
    | false => exact Or.inr ⟨s.bDisconnected, rfl⟩

/-- Nothing was found; or the batch fails and its rows stay as they are; or it is tagged. -/
theorem uploadBatch_cases (env : Env) (vectRowIDs : List ℕ) (strAlerts : String) (s : State) :
    (vectRowIDs = [] ∧ uploadBatch env vectRowIDs strAlerts s = .inr s) ∨
    (vectRowIDs ≠ [] ∧ ∃ s', uploadBatch env vectRowIDs strAlerts s = .inr s' ∧ s'.db = s.db ∧
      s'.nFailed = s.nFailed + 1 ∧ s'.nCalls = s.nCalls ∧
      (s'.published = s.published ∨
        ∃ nMid, s'.published = s.published ++ [⟨vectRowIDs, strAlerts, nMid, false⟩])) ∨
    (vectRowIDs ≠ [] ∧ ∃ s' nMid, uploadBatch env vectRowIDs strAlerts s = .inl s' ∧ 0 < nMid ∧
      s'.db = s.db.tagRows .alertStore vectRowIDs nMid ∧ s'.nFailed = s.nFailed ∧
      s'.nCalls = s.nCalls ∧
      s'.published = s.published ++ [⟨vectRowIDs, strAlerts, nMid, true⟩]) := by
  by_cases hempty : vectRowIDs = []
  · left
    refine ⟨hempty, ?_⟩
    unfold uploadBatch
    rw [if_pos (List.length_eq_zero_iff.2 hempty)]
  right
  unfold uploadBatch
  rw [if_neg (mt List.length_eq_zero_iff.1 hempty)]
  by_cases hresult : (env.attempt s.nAttempts).nResult ≠ 0
  · rw [if_pos hresult]
    exact Or.inl ⟨hempty, _, rfl, rfl, rfl, rfl, Or.inl rfl⟩
  · rw [if_neg hresult]
    rcases processPublishedAlerts_cases (env.attempt s.nAttempts) vectRowIDs
      { s with eErr := .eUE_UPLOAD_SUCCESS, nAttempts := s.nAttempts + 1 } with
        ⟨hmid, handler, hcall⟩ | ⟨bDisconnected, hcall⟩
    · rw [hcall]
      exact Or.inr ⟨hempty, _, _, rfl, hmid, rfl, rfl, rfl, rfl⟩
    · rw [hcall]
      exact Or.inl ⟨hempty, _, rfl, rfl, rfl, rfl, Or.inr ⟨_, rfl⟩⟩

/-- A turn, whatever the query takes: the flag is set, or the query returns and the batch follows. -/
theorem iterates_cases {s : State} {r : State ⊕ State}
    (hr : Lib.Iterates (uploadAlertsIteration env) s r) :
    (env.bShutdownRequested s.nReads = true ∧ r = .inr s.read) ∨
    ∃ out, StreamSpec env.rd .alertStore EVENT_COUNT (s.db .alertStore) out ∧
      (∀ r ∈ out.table.rows, r ∈ (s.db .alertStore).rows) ∧
      r = uploadBatch env out.pvectRowIDs out.rstrResult (s.read.setAlertTable out.table) := by
  rcases hr with ⟨fuel, hr⟩
  unfold uploadAlertsIteration at hr
  by_cases hflag : env.bShutdownRequested s.nReads = true
  · rw [if_pos hflag] at hr
    exact Or.inl ⟨hflag, (Option.some.inj hr).symm⟩
  · rw [if_neg hflag] at hr
    rcases Option.map_eq_some_iff.1 hr with ⟨out, hout, rfl⟩
    have hspec := (getStreamingEventsFromDB_correct env.rd .alertStore EVENT_COUNT (by decide)
      (s.db .alertStore)).2 fuel out hout
    exact Or.inr ⟨out, hspec, fun r hr => hspec.removed.1.subset hr, rfl⟩

/-! ## The invariant -/

section Inv

variable {rd : PayloadReader} {db : Db} {s : State}

theorem inv_init (h : s.published = []) : Inv rd s.db s where
  others := rfl
  origin r hr := ⟨r, hr, Or.inl ⟨rfl, fun b hb => by
    rw [h] at hb
    exact List.not_mem_nil hb.1⟩⟩
  kept r hr _ := ⟨r, hr, Or.inl ⟨rfl, fun b hb => by
    rw [h] at hb
    exact List.not_mem_nil hb.1⟩⟩
  batches b hb := by
    rw [h] at hb
    exact absurd hb List.not_mem_nil
  once := by
    rw [h]
    exact List.Pairwise.nil
  pos b hb := by
    rw [h] at hb
    exact absurd hb List.not_mem_nil

/-- A row without a mid is as it was. -/
theorem Inv.untouched (h : Inv rd db s) {r : EventRow} (hr : r ∈ (s.db .alertStore).rows)
    (hmid : r.mid = 0) : r ∈ (db .alertStore).rows ∧ ∀ b, ¬ TaggedIn s.published r b := by
  rcases h.origin r hr with ⟨r₀, h₀, ⟨rfl, huntagged⟩ | ⟨b, htagged, rfl⟩⟩
  · exact ⟨h₀, huntagged⟩
  · have hpos := h.pos b htagged.1 htagged.2.1
    rw [EventRow.setMid_mid] at hmid
    omega

/-- What a query leaves. -/
theorem Inv.query (h : Inv rd db s) {out : StreamResult}
    (hspec : StreamSpec rd .alertStore EVENT_COUNT (s.db .alertStore) out) :
    Inv rd db (s.read.setAlertTable out.table) := by
  refine ⟨h.others, ?_, ?_, h.batches, h.once, h.pos⟩
  · exact fun r' hr' => h.origin r' (hspec.removed.1.subset hr')
  · intro r hr hgood
    rcases h.kept r hr hgood with ⟨r', hr', hnow⟩
    refine ⟨r', ?_, hnow⟩
    by_contra hgone
    -- only corrupted rows are deleted, and a tag leaves the payload
    have hbad := hspec.removed.2 r' hr' hgone
    have hsame : rd.corrupted r' = rd.corrupted r := by
      rcases hnow with ⟨rfl, _⟩ | ⟨b, _, rfl⟩
      · rfl
      · rfl
    rw [hsame, hgood] at hbad
    cases hbad

/-- The rows of a batch that a query has found. -/
theorem Inv.rows (h : Inv rd db s) {out : StreamResult}
    (hspec : StreamSpec rd .alertStore EVENT_COUNT (s.db .alertStore) out)
    (hne : out.pvectRowIDs ≠ []) :
    ∃ rows : List EventRow, rows ≠ [] ∧ rows.length ≤ EVENT_COUNT ∧
      (rows.Pairwise fun r r' => r.timestampKey ≤ r'.timestampKey) ∧
      (∀ r ∈ rows, r ∈ (db .alertStore).rows ∧ r ∈ (s.db .alertStore).rows ∧
        Eligible .alertStore r ∧ rd.corrupted r = false ∧ ∀ b, ¬ TaggedIn s.published r b) ∧
      out.pvectRowIDs = rows.map EventRow.id ∧
      out.rstrResult =
        "[" ++ ",".intercalate (rows.map fun r => rd.decryptEventData r.events) ++ "]" := by
  have hsome : ∃ r ∈ (s.db .alertStore).rows, Eligible .alertStore r ∧ rd.corrupted r = false := by
    by_contra hnone
    refine hne (hspec.empty_iff.2 fun r hr hel => ?_).1
    by_contra hgood
    exact hnone ⟨r, hr, hel, Bool.not_eq_true _ ▸ hgood⟩
  rcases hspec.batch hsome with ⟨rows, hrows, hlength, _, hsorted, hmem, hids, htext⟩
  refine ⟨rows, hrows, by exact_mod_cast hlength, hsorted, fun r hr => ?_, hids, htext⟩
  rcases hmem r hr with ⟨hin, hel, hgood⟩
  have huntouched := h.untouched hin hel.1
  exact ⟨huntouched.1, hin, hel, hgood, huntouched.2⟩

theorem taggedIn_append {published : List Batch} {b b' : Batch} {r : EventRow} :
    TaggedIn (published ++ [b]) r b' ↔
      TaggedIn published r b' ∨ (b' = b ∧ b.bTagged = true ∧ r.id ∈ b.vectRowIDs) := by
  unfold TaggedIn
  rw [List.mem_append, List.mem_singleton]
  constructor
  · rintro ⟨hmem | rfl, htagged, hid⟩
    · exact Or.inl ⟨hmem, htagged, hid⟩
    · exact Or.inr ⟨rfl, htagged, hid⟩
  · rintro (⟨hmem, htagged, hid⟩ | ⟨rfl, htagged, hid⟩)
    · exact ⟨Or.inl hmem, htagged, hid⟩
    · exact ⟨Or.inr rfl, htagged, hid⟩

/-- A batch that does not tag the row is nothing to it. -/
theorem Now.append {published : List Batch} {b : Batch} {r r' : EventRow}
    (h : Now published r r') (hb : ¬ (b.bTagged = true ∧ r.id ∈ b.vectRowIDs)) :
    Now (published ++ [b]) r r' := by
  rcases h with ⟨rfl, huntagged⟩ | ⟨b', htagged, rfl⟩
  · refine Or.inl ⟨rfl, fun b' hb' => ?_⟩
    rcases taggedIn_append.1 hb' with hold | ⟨_, hnew⟩
    · exact huntagged b' hold
    · exact hb hnew
  · exact Or.inr ⟨b', taggedIn_append.2 (Or.inl htagged), rfl⟩

/-- The batches after one more, whose rows have not been tagged. -/
theorem Inv.once_append (h : Inv rd db s) {b : Batch} {rows : List EventRow}
    (hids : b.vectRowIDs = rows.map EventRow.id)
    (hrows : ∀ r ∈ rows, ∀ b', ¬ TaggedIn s.published r b') :
    (s.published ++ [b]).Pairwise fun b b' => b.bTagged = true → ∀ id ∈ b.vectRowIDs,
      id ∉ b'.vectRowIDs := by
  rw [List.pairwise_append]
  refine ⟨h.once, List.pairwise_singleton _ _, fun b' hb' b'' hb'' htagged id hid hin => ?_⟩
  rw [List.mem_singleton.1 hb'', hids] at hin
  rcases List.mem_map.1 hin with ⟨r, hr, rfl⟩
  exact hrows r hr b' ⟨hb', htagged, hid⟩

/-- A batch that is published and not tagged. -/
theorem Inv.untagged (h : Inv rd db s) {t : State} {b : Batch} {rows : List EventRow}
    (hb : b.bTagged = false) (hdb : t.db = s.db) (hpublished : t.published = s.published ++ [b])
    (hbatch : IsBatch rd (db .alertStore) b) (hids : b.vectRowIDs = rows.map EventRow.id)
    (hrows : ∀ r ∈ rows, ∀ b', ¬ TaggedIn s.published r b') : Inv rd db t := by
  have hno : ∀ r : EventRow, ¬ (b.bTagged = true ∧ r.id ∈ b.vectRowIDs) := by
    rintro r ⟨htagged, _⟩
    rw [hb] at htagged
    cases htagged
  refine ⟨by rw [hdb]; exact h.others, ?_, ?_, ?_, ?_, ?_⟩
  · intro r' hr'
    rw [hdb] at hr'
    rcases h.origin r' hr' with ⟨r, hr, hnow⟩
    exact ⟨r, hr, hpublished ▸ hnow.append (hno r)⟩
  · intro r hr hgood
    rcases h.kept r hr hgood with ⟨r', hr', hnow⟩
    exact ⟨r', hdb ▸ hr', hpublished ▸ hnow.append (hno r)⟩
  · rw [hpublished]
    exact List.forall_mem_append.2 ⟨h.batches, List.forall_mem_singleton.2 hbatch⟩
  · rw [hpublished]
    exact h.once_append hids hrows
  · rw [hpublished]
    refine List.forall_mem_append.2 ⟨h.pos, List.forall_mem_singleton.2 fun htagged => ?_⟩
    rw [hb] at htagged
    cases htagged

/-- A row of the table after the rows of `ids` have been tagged. -/
theorem mem_tagRows {db : Db} {ids : List ℕ} {nMid : ℤ} {r : EventRow} :
    r ∈ (db.tagRows .alertStore ids nMid .alertStore).rows ↔
      ∃ r₀ ∈ (db .alertStore).rows, (if r₀.id ∈ ids then r₀.setMid nMid else r₀) = r := by
  unfold Db.tagRows Db.updateMid
  rw [Function.update_self, Lib.Table.mem_update]
  simp only [decide_eq_true_eq]

/-- A batch that is published and tagged. -/
theorem Inv.tagged (h : Inv rd db s) {t : State} {b : Batch} {rows : List EventRow}
    (hb : b.bTagged = true) (hmid : 0 < b.nMid)
    (hdb : t.db = s.db.tagRows .alertStore b.vectRowIDs b.nMid)
    (hpublished : t.published = s.published ++ [b]) (hbatch : IsBatch rd (db .alertStore) b)
    (hids : b.vectRowIDs = rows.map EventRow.id)
    (hrows : ∀ r ∈ rows, r ∈ (s.db .alertStore).rows ∧ Eligible .alertStore r ∧
      ∀ b', ¬ TaggedIn s.published r b') : Inv rd db t := by
  -- what becomes of a row of the table
  have hstep : ∀ r ∈ (db .alertStore).rows, ∀ r' ∈ (s.db .alertStore).rows,
      Now s.published r r' → Now (s.published ++ [b]) r
        (if r'.id ∈ b.vectRowIDs then r'.setMid b.nMid else r') := by
    intro r hr r' hr' hnow
    have hid : r'.id = r.id := by
      rcases hnow with ⟨rfl, _⟩ | ⟨_, _, rfl⟩
      · rfl
      · rfl
    by_cases hin : r'.id ∈ b.vectRowIDs
    · rw [if_pos hin]
      have hin' := hin
      rw [hids] at hin'
      rcases List.mem_map.1 hin' with ⟨row, hrow, hrowId⟩
      rcases hrows row hrow with ⟨hmem, hel, _⟩
      have hsame : row = r' := (s.db .alertStore).eq_of_key_eq hmem hr' hrowId
      have hzero : r'.mid = 0 := hsame ▸ hel.1
      rcases hnow with ⟨rfl, _⟩ | ⟨b', htagged, rfl⟩
      · exact Or.inr ⟨b, taggedIn_append.2 (Or.inr ⟨rfl, hb, hin⟩), rfl⟩
      · have hpos := h.pos b' htagged.1 htagged.2.1
        rw [EventRow.setMid_mid] at hzero
        omega
    · rw [if_neg hin]
      exact hnow.append fun hnew => hin (hid ▸ hnew.2)
  refine ⟨?_, ?_, ?_, ?_, ?_, ?_⟩
  · rw [hdb, ← h.others]
    rfl
  · intro r' hr'
    rw [hdb, mem_tagRows] at hr'
    rcases hr' with ⟨r₀, h₀, rfl⟩
    rcases h.origin r₀ h₀ with ⟨r, hr, hnow⟩
    exact ⟨r, hr, hpublished ▸ hstep r hr r₀ h₀ hnow⟩
  · intro r hr hgood
    rcases h.kept r hr hgood with ⟨r', hr', hnow⟩
    refine ⟨_, ?_, hpublished ▸ hstep r hr r' hr' hnow⟩
    rw [hdb, mem_tagRows]
    exact ⟨r', hr', rfl⟩
  · rw [hpublished]
    exact List.forall_mem_append.2 ⟨h.batches, List.forall_mem_singleton.2 hbatch⟩
  · rw [hpublished]
    exact h.once_append hids fun r hr => (hrows r hr).2.2
  · rw [hpublished]
    exact List.forall_mem_append.2 ⟨h.pos, List.forall_mem_singleton.2 fun _ => hmid⟩

end Inv

/-! ## A call -/

section Calls

variable {db : Db} {s t : State}

/-- A turn that goes round has tagged a batch. -/
theorem turn_inl (h : Inv env.rd db s) (hr : Lib.Iterates (uploadAlertsIteration env) s (.inl t)) :
    Inv env.rd db t ∧ selected t ⊂ selected s ∧ ¬ Clean env.rd s ∧ t.nFailed = s.nFailed ∧
      t.nCalls = s.nCalls := by
  rcases iterates_cases hr with ⟨_, hflag⟩ | ⟨out, hspec, hsub, hturn⟩
  · cases hflag
  rcases uploadBatch_cases env out.pvectRowIDs out.rstrResult
    (s.read.setAlertTable out.table) with ⟨_, hbatch⟩ | ⟨_, _, hbatch, _⟩ |
      ⟨hne, t', nMid, hbatch, hmid, hdb, hfailed, hcalls, hpublished⟩
  · rw [hbatch] at hturn
    cases hturn
  · rw [hbatch] at hturn
    cases hturn
  rw [hbatch] at hturn
  cases hturn
  rcases h.rows hspec hne with ⟨rows, hrows, hlength, hsorted, hmem, hids, htext⟩
  -- the rows of the batch are good, so they are still there
  have hstill : ∀ r ∈ rows, r ∈ out.table.rows := by
    intro r hr
    by_contra hgone
    rcases hmem r hr with ⟨_, hin, _, hgood, _⟩
    rw [hspec.removed.2 r hin hgone] at hgood
    cases hgood
  have hIsBatch : IsBatch env.rd (db .alertStore) ⟨out.pvectRowIDs, out.rstrResult, nMid, true⟩ :=
    ⟨rows, hrows, hlength, hsorted,
      fun r hr => ⟨(hmem r hr).1, (hmem r hr).2.2.1, (hmem r hr).2.2.2.1⟩, hids, htext⟩
  rcases List.exists_mem_of_ne_nil rows hrows with ⟨r, hr⟩
  rcases hmem r hr with ⟨_, hin, hel, hgood, _⟩
  refine ⟨(h.query hspec).tagged rfl hmid hdb hpublished hIsBatch hids fun r hr =>
    ⟨hstill r hr, (hmem r hr).2.2.1, (hmem r hr).2.2.2.2⟩, ?_, ?_, hfailed, hcalls⟩
  · refine (Finset.ssubset_iff_of_subset fun r' hr' => ?_).2
      ⟨r, mem_selected.2 ⟨hin, hel⟩, fun hmem' => ?_⟩
    · rcases mem_selected.1 hr' with ⟨hr', hel'⟩
      rw [hdb, mem_tagRows] at hr'
      rcases hr' with ⟨r₀, h₀, rfl⟩
      by_cases hid : r₀.id ∈ out.pvectRowIDs
      · -- a tagged row has a mid
        rw [if_pos hid] at hel'
        have hzero := hel'.1
        rw [EventRow.setMid_mid] at hzero
        omega
      · rw [if_neg hid] at hel' ⊢
        exact mem_selected.2 ⟨hsub r₀ h₀, hel'⟩
    · rcases mem_selected.1 hmem' with ⟨hr', hel'⟩
      rw [hdb, mem_tagRows] at hr'
      rcases hr' with ⟨r₀, h₀, heq⟩
      by_cases hid : r₀.id ∈ out.pvectRowIDs
      · rw [if_pos hid] at heq
        have hzero := hel'.1
        rw [← heq, EventRow.setMid_mid] at hzero
        omega
      · rw [if_neg hid] at heq
        rw [heq, hids] at hid
        exact hid (List.mem_map_of_mem hr)
  · intro hclean
    rw [hclean r hin hel] at hgood
    cases hgood

/-- A turn that leaves has read the flag, has found no alert, or has failed. -/
theorem turn_inr (h : Inv env.rd db s) (hr : Lib.Iterates (uploadAlertsIteration env) s (.inr t)) :
    Inv env.rd db t ∧ t.nCalls = s.nCalls ∧
      ((t.nFailed = s.nFailed ∧ (env.bShutdownRequested s.nReads = true ∨ Clean env.rd t) ∧
        (Clean env.rd s → Clean env.rd t)) ∨
      (¬ Clean env.rd s ∧ t.nFailed = s.nFailed + 1)) := by
  rcases iterates_cases hr with ⟨hflag, hturn⟩ | ⟨out, hspec, hsub, hturn⟩
  · cases hturn
    exact ⟨⟨h.others, h.origin, h.kept, h.batches, h.once, h.pos⟩, rfl,
      Or.inl ⟨rfl, Or.inl hflag, fun hclean => hclean⟩⟩
  rcases uploadBatch_cases env out.pvectRowIDs out.rstrResult
    (s.read.setAlertTable out.table) with ⟨hempty, hbatch⟩ |
      ⟨hne, t', hbatch, hdb, hfailed, hcalls, hpublished⟩ | ⟨_, _, _, hbatch, _⟩
  · rw [hbatch] at hturn
    cases hturn
    refine ⟨h.query hspec, rfl, Or.inl ⟨rfl, ?_, ?_⟩⟩
    · right
      intro r hr hel
      by_contra hgood
      rcases hspec.batch ⟨r, hsub r hr, hel, Bool.not_eq_true _ ▸ hgood⟩ with
        ⟨rows, hrows, _, _, _, _, hids, _⟩
      rw [hempty] at hids
      exact hrows (List.map_eq_nil_iff.1 hids.symm)
    · exact fun hclean r hr hel => hclean r (hsub r hr) hel
  · rw [hbatch] at hturn
    cases hturn
    rcases h.rows hspec hne with ⟨rows, hrows, hlength, hsorted, hmem, hids, htext⟩
    have hdirty : ¬ Clean env.rd s := by
      intro hclean
      rcases List.exists_mem_of_ne_nil rows hrows with ⟨r, hr⟩
      rcases hmem r hr with ⟨_, hin, hel, hgood, _⟩
      rw [hclean r hin hel] at hgood
      cases hgood
    refine ⟨?_, hcalls, Or.inr ⟨hdirty, hfailed⟩⟩
    have hquery := h.query hspec
    rcases hpublished with hsame | ⟨nMid, hpublished⟩
    · refine ⟨by rw [hdb]; exact hquery.others, ?_, ?_, ?_, ?_, ?_⟩
      · rw [hdb, hsame]
        exact hquery.origin
      · rw [hdb, hsame]
        exact hquery.kept
      · rw [hsame]
        exact hquery.batches
      · rw [hsame]
        exact hquery.once
      · rw [hsame]
        exact hquery.pos
    · exact hquery.untagged rfl hdb hpublished
        ⟨rows, hrows, hlength, hsorted,
          fun r hr => ⟨(hmem r hr).1, (hmem r hr).2.2.1, (hmem r hr).2.2.2.1⟩, hids, htext⟩
        hids fun r hr => (hmem r hr).2.2.2.2
  · rw [hbatch] at hturn
    cases hturn

theorem settled_uploadAlertsIteration : Lib.Settled (uploadAlertsIteration env) := by
  intro fuel fuel' s r hle hr
  unfold uploadAlertsIteration at hr ⊢
  by_cases hflag : env.bShutdownRequested s.nReads = true
  · rw [if_pos hflag] at hr ⊢
    exact hr
  · rw [if_neg hflag] at hr ⊢
    rcases Option.map_eq_some_iff.1 hr with ⟨out, hout, heq⟩
    exact Option.map_eq_some_iff.2 ⟨out, getStreamingEventsFromDB_mono env.rd hle hout, heq⟩

theorem iterates_exists (env : Env) (s : State) :
    ∃ r, Lib.Iterates (uploadAlertsIteration env) s r := by
  by_cases hflag : env.bShutdownRequested s.nReads = true
  · refine ⟨.inr s.read, 0, ?_⟩
    unfold uploadAlertsIteration
    rw [if_pos hflag]
  · rcases getStreamingEventsFromDB_returns env.rd .alertStore {} EVENT_COUNT
      (s.db .alertStore) with ⟨fuel, out, hout⟩
    refine ⟨uploadBatch env out.pvectRowIDs out.rstrResult (s.read.setAlertTable out.table),
      fuel, ?_⟩
    unfold uploadAlertsIteration
    rw [if_neg hflag, hout]
    rfl

/-- `UploadAlerts` comes to an end. -/
theorem uploadAlerts_returns (h : Inv env.rd db s) :
    ∃ fuel turns t, uploadAlerts env fuel turns s = some t := by
  by_cases hconnected : env.bConnected s.nCalls = true
  · have hfinishes : Lib.Finishes (uploadAlertsIteration env)
        { s with eErr := .eUE_DATA_NOT_AVAILABLE, nCalls := s.nCalls + 1 } := by
      refine Lib.finishes_of_measure settled_uploadAlertsIteration (Inv env.rd db)
        (fun u => (selected u).card) ?_ _
        ⟨h.others, h.origin, h.kept, h.batches, h.once, h.pos⟩
      intro u hu
      rcases iterates_exists env u with ⟨r, hr⟩
      refine ⟨r, hr, ?_⟩
      rintro u' rfl
      have hround := turn_inl hu hr
      exact ⟨hround.1, Finset.card_lt_card hround.2.1⟩
    rcases hfinishes with ⟨fuel, turns, t, hrun⟩
    refine ⟨fuel, turns, t, ?_⟩
    rw [uploadAlerts, if_pos hconnected]
    exact hrun
  · refine ⟨0, 0, { s with eErr := .eUE_NO_CONNECTION, nCalls := s.nCalls + 1 }, ?_⟩
    rw [uploadAlerts, if_neg hconnected]

theorem uploadAlerts_mono {fuel fuel' turns turns' : ℕ} (hfuel : fuel ≤ fuel')
    (hturns : turns ≤ turns') (hrun : uploadAlerts env fuel turns s = some t) :
    uploadAlerts env fuel' turns' s = some t := by
  unfold uploadAlerts at hrun ⊢
  by_cases hconnected : env.bConnected s.nCalls = true
  · rw [if_pos hconnected] at hrun ⊢
    exact Lib.nestedLoop_turns hturns
      (Lib.nestedLoop_mono settled_uploadAlertsIteration hfuel hrun)
  · rw [if_neg hconnected] at hrun ⊢
    exact hrun

/-- What a call leaves. Where it is connected and not shut down it leaves no alert, or it fails;
and it does not fail where no alert was left before. -/
theorem inv_uploadAlerts (h : Inv env.rd db s) {fuel turns : ℕ}
    (hrun : uploadAlerts env fuel turns s = some t) :
    Inv env.rd db t ∧ t.nCalls = s.nCalls + 1 ∧
      (Clean env.rd s → Clean env.rd t ∧ t.nFailed = s.nFailed) ∧
      ((∀ k, env.bShutdownRequested k = false) → ¬ Clean env.rd t →
        t.nFailed = s.nFailed + if env.bConnected s.nCalls then 1 else 0) := by
  unfold uploadAlerts at hrun
  by_cases hconnected : env.bConnected s.nCalls = true
  · rw [if_pos hconnected] at hrun
    rw [if_pos hconnected]
    refine Lib.nestedLoop_result
      (I := fun u => Inv env.rd db u ∧ u.nCalls = s.nCalls + 1 ∧ u.nFailed = s.nFailed ∧
        (Clean env.rd s → Clean env.rd u))
      (Q := fun u => Inv env.rd db u ∧ u.nCalls = s.nCalls + 1 ∧
        (Clean env.rd s → Clean env.rd u ∧ u.nFailed = s.nFailed) ∧
        ((∀ k, env.bShutdownRequested k = false) → ¬ Clean env.rd u → u.nFailed = s.nFailed + 1))
      ?_ ?_ ?_ hrun
    · rintro u u' ⟨hu, hcalls, hfailed, hclean⟩ hround
      rcases turn_inl hu hround with ⟨hu', _, hdirty, hfailed', hcalls'⟩
      exact ⟨hu', hcalls'.trans hcalls, hfailed'.trans hfailed,
        fun hs => absurd (hclean hs) hdirty⟩
    · rintro u u' ⟨hu, hcalls, hfailed, hclean⟩ hleave
      rcases turn_inr hu hleave with ⟨hu', hcalls', ⟨hfailed', hwhy, hkeep⟩ | ⟨hdirty, hfailed'⟩⟩
      · refine ⟨hu', hcalls'.trans hcalls,
          fun hs => ⟨hkeep (hclean hs), hfailed'.trans hfailed⟩, fun hopen hdirty => ?_⟩
        rcases hwhy with hflag | hclean'
        · rw [hopen] at hflag
          cases hflag
        · exact absurd hclean' hdirty
      · exact ⟨hu', hcalls'.trans hcalls, fun hs => absurd (hclean hs) hdirty,
          fun _ _ => hfailed'.trans (congrArg (· + 1) hfailed)⟩
    · exact ⟨⟨h.others, h.origin, h.kept, h.batches, h.once, h.pos⟩, rfl, rfl, fun hs => hs⟩
  · rw [if_neg hconnected] at hrun
    rw [if_neg hconnected]
    cases hrun
    exact ⟨⟨h.others, h.origin, h.kept, h.batches, h.once, h.pos⟩, rfl, fun hs => ⟨hs, rfl⟩,
      fun _ _ => rfl⟩

/-! ## Ten calls -/

/-- The calls that find the client connected. -/
def connectedCalls (env : Env) (nCalls : ℕ) : ℕ → ℕ
  | 0 => 0
  | n + 1 => (if env.bConnected nCalls then 1 else 0) + connectedCalls env (nCalls + 1) n

theorem Inv.read (h : Inv env.rd db s) : Inv env.rd db s.read :=
  ⟨h.others, h.origin, h.kept, h.batches, h.once, h.pos⟩

theorem retryUploads_mono {fuel fuel' turns turns' : ℕ} (hfuel : fuel ≤ fuel')
    (hturns : turns ≤ turns') {n : ℕ} (hrun : retryUploads env fuel turns n s = some t) :
    retryUploads env fuel' turns' n s = some t := by
  induction n generalizing s with
  | zero => exact hrun
  | succ n ih =>
    unfold retryUploads at hrun ⊢
    by_cases hflag : env.bShutdownRequested s.nReads = true
    · rw [if_pos hflag] at hrun ⊢
      exact hrun
    · rw [if_neg hflag] at hrun ⊢
      rcases Option.bind_eq_some_iff.1 hrun with ⟨u, hcall, hrest⟩
      exact Option.bind_eq_some_iff.2 ⟨u, uploadAlerts_mono hfuel hturns hcall, ih hrest⟩

theorem retryUploads_returns (h : Inv env.rd db s) (n : ℕ) :
    ∃ fuel turns t, retryUploads env fuel turns n s = some t := by
  induction n generalizing s with
  | zero => exact ⟨0, 0, s, rfl⟩
  | succ n ih =>
    by_cases hflag : env.bShutdownRequested s.nReads = true
    · refine ⟨0, 0, s.read, ?_⟩
      unfold retryUploads
      rw [if_pos hflag]
    · rcases uploadAlerts_returns h.read with ⟨fuel, turns, u, hcall⟩
      rcases ih (inv_uploadAlerts h.read hcall).1 with ⟨fuel', turns', t, hrest⟩
      refine ⟨max fuel fuel', max turns turns', t, ?_⟩
      unfold retryUploads
      rw [if_neg hflag, uploadAlerts_mono (le_max_left fuel fuel') (le_max_left turns turns') hcall]
      exact retryUploads_mono (le_max_right fuel fuel') (le_max_right turns turns') hrest

theorem inv_retryUploads {fuel turns n : ℕ} (h : Inv env.rd db s)
    (hrun : retryUploads env fuel turns n s = some t) :
    Inv env.rd db t ∧ (Clean env.rd s → Clean env.rd t) ∧
      ((∀ k, env.bShutdownRequested k = false) → ¬ Clean env.rd t →
        t.nFailed = s.nFailed + connectedCalls env s.nCalls n) := by
  induction n generalizing s with
  | zero =>
    cases hrun
    exact ⟨h, fun hs => hs, fun _ _ => rfl⟩
  | succ n ih =>
    unfold retryUploads at hrun
    by_cases hflag : env.bShutdownRequested s.nReads = true
    · rw [if_pos hflag] at hrun
      cases hrun
      refine ⟨h.read, fun hs => hs, fun hopen _ => ?_⟩
      rw [hopen] at hflag
      cases hflag
    · rw [if_neg hflag] at hrun
      rcases Option.bind_eq_some_iff.1 hrun with ⟨u, hcall, hrest⟩
      rcases inv_uploadAlerts h.read hcall with ⟨hu, hcalls, hkeep, hfailed⟩
      rcases ih hu hrest with ⟨ht, hkeep', hfailed'⟩
      refine ⟨ht, fun hs => hkeep' (hkeep hs).1, fun hopen hdirty => ?_⟩
      have hu' : u.nFailed = s.nFailed + if env.bConnected s.nCalls then 1 else 0 :=
        hfailed hopen fun hclean => hdirty (hkeep' hclean)
      rw [hfailed' hopen hdirty, hu', hcalls, connectedCalls, Nat.add_assoc]
      rfl

end Calls

end AlertUpload

end DeviceClient
