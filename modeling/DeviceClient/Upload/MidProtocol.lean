import DeviceClient.Lib.Run
import DeviceClient.Upload.MidHandler
import DeviceClient.Upload.MidRows

/-!
# Publish, acknowledge, delete

The upload protocol over the two tables. Four actors take steps in any order:

* the uploader of each table selects rows, publishes them, tags them with the
  mid that the broker client assigned and registers the table of the mid;
* the client thread handles acknowledgements and, on a reconnect, runs
  `InitMid`, whose two updates of the database are steps of their own;
* the worker takes an entry off the deletion queue, deletes the rows of its mid
  and marks those that stay for the batch upload;
* the database transport inserts rows, and other parts of the client publish
  messages that carry no row.

Two lists only observe: `acknowledged` has the rows of every publish that was
acknowledged, `cleared` the rows that the worker deleted or marked.

* `protocolInv_run`: while every assigned mid is fresh, whatever carries a mid
  that is waiting to be cleared has been acknowledged.
* `acknowledgedOnly_of_fresh`: so the worker clears acknowledged rows only.
* `not_acknowledgedOnly_stale_entry`: an entry left in the queue by a reconnect
  clears rows of the next session.
-/

namespace DeviceClient

namespace MidProtocol

/-! ## State -/

/-- A publish of the current session that is not acknowledged yet. -/
structure Publication where
  mid : ℤ
  rows : List (StoreTable × ℕ)
deriving DecidableEq, Repr

/-- An upload in progress, with the uploader's own copy of ids and mid. -/
inductive Uploader where
  | idle
  | selected (vectRowIDs : List ℕ)
  | published (vectRowIDs : List ℕ) (nMid : ℤ)
  | tagged (nMid : ℤ)
deriving DecidableEq, Repr

/-- The deletion worker: inside `Take`, before the delete, before the update. -/
inductive Worker where
  | idle
  | deleting (pMt : MidTable StoreTable)
  | marking (pMt : MidTable StoreTable)
deriving DecidableEq, Repr

/-- The client thread: outside `InitMid`, or before one of its updates. -/
inductive Client where
  | idle
  | resetAlerts
  | resetEvents
deriving DecidableEq, Repr

structure State where
  db : Db
  handler : MidHandler StoreTable
  uploader : StoreTable → Uploader
  worker : Worker
  client : Client
  outstanding : List Publication
  acknowledged : List (StoreTable × ℕ)
  cleared : List (StoreTable × ℕ)

/-- Start of the process on a given database. -/
def init (db : Db) : State where
  db := db
  handler := MidHandler.init
  uploader := fun _ => .idle
  worker := .idle
  client := .idle
  outstanding := []
  acknowledged := []
  cleared := []

/-! ## Steps -/

inductive Label where
  | insert (t : StoreTable) (r : EventRow)
  | select (t : StoreTable) (vectRowIDs : List ℕ)
  /-- The broker client accepts the payload and assigns `nMid`. -/
  | publish (t : StoreTable) (nMid : ℤ)
  | publishFails (t : StoreTable)
  | updateMid (t : StoreTable) (bResult : Bool)
  | setMidTable (t : StoreTable) (nFails : ℕ)
  /-- A publish outside the uploaders. -/
  | publishOther (nMid : ℤ)
  | puback (p : Publication) (nFails : ℕ)
  | workerTake
  | workerDelete (bBatchMode : Bool)
  | workerMark
  /-- The containers part of `InitMid`, on a new connection. -/
  | reconnect (nFails : ℤ → ℕ)
  | resetAlerts
  | resetEvents

/-- The uploader of `t` goes to `u`. -/
def State.setUploader (s : State) (t : StoreTable) (u : Uploader) : State :=
  { s with uploader := Function.update s.uploader t u }

/-- The rows that a selection may return: they exist and carry no mid. -/
def Selectable (db : Db) (t : StoreTable) (vectRowIDs : List ℕ) : Prop :=
  vectRowIDs ≠ [] ∧ ∀ id ∈ vectRowIDs, ∃ r ∈ (db t).rows, r.id = id ∧ r.mid = 0

instance (db : Db) (t : StoreTable) (ids : List ℕ) : Decidable (Selectable db t ids) :=
  inferInstanceAs (Decidable (_ ∧ _))

def next (s : State) : Label → Option State
  | .insert t r => some { s with db := s.db.insertRow t r }
  | .select t vectRowIDs =>
    if s.uploader t = .idle ∧ Selectable s.db t vectRowIDs then
      some (s.setUploader t (.selected vectRowIDs))
    else none
  | .publish t nMid =>
    match s.uploader t with
    | .selected vectRowIDs =>
      -- a mid that is not positive makes the uploader disconnect
      if nMid ≤ 0 then some (s.setUploader t .idle)
      else some { s.setUploader t (.published vectRowIDs nMid) with
        outstanding := ⟨nMid, vectRowIDs.map fun id => (t, id)⟩ :: s.outstanding }
    | _ => none
  | .publishFails t =>
    match s.uploader t with
    | .selected _ => some (s.setUploader t .idle)
    | _ => none
  | .updateMid t bResult =>
    match s.uploader t with
    | .published vectRowIDs nMid =>
      if bResult then
        some { s.setUploader t (.tagged nMid) with db := s.db.tagRows t vectRowIDs nMid }
      else some (s.setUploader t .idle)
    | _ => none
  | .setMidTable t nFails =>
    match s.uploader t with
    | .tagged nMid =>
      some { s.setUploader t .idle with handler := (s.handler.setMidTable nMid t nFails).2 }
    | _ => none
  | .publishOther nMid =>
    if 0 < nMid then some { s with outstanding := ⟨nMid, []⟩ :: s.outstanding } else none
  | .puback p nFails =>
    if p ∈ s.outstanding ∧ s.client = .idle then
      some { s with
        handler := (s.handler.processPublishedMid p.mid nFails).2
        outstanding := s.outstanding.erase p
        acknowledged := p.rows ++ s.acknowledged }
    else none
  | .workerTake =>
    match s.worker, s.handler.queMidTobeDeleted.take with
    | .idle, some (pMt, que) =>
      some { s with handler := { s.handler with queMidTobeDeleted := que }, worker := .deleting pMt }
    | _, _ => none
  | .workerDelete bBatchMode =>
    match s.worker with
    | .deleting pMt =>
      let gone := s.db.idsWhere pMt.strTable (Db.deletes bBatchMode pMt.strTable pMt.nMid)
      some { s with
        db := s.db.deleteEvents bBatchMode pMt.strTable pMt.nMid
        cleared := gone.map (fun id => (pMt.strTable, id)) ++ s.cleared
        worker := if pMt.strTable = .eventStore ∧ bBatchMode = true then .marking pMt else .idle }
    | _ => none
  | .workerMark =>
    match s.worker with
    | .marking pMt =>
      let kept := s.db.idsWhere pMt.strTable fun r => decide (r.mid = pMt.nMid)
      some { s with
        db := s.db.markUploaded pMt.strTable pMt.nMid
        cleared := kept.map (fun id => (pMt.strTable, id)) ++ s.cleared
        worker := .idle }
    | _ => none
  | .reconnect nFails =>
    if s.client = .idle then
      some { s with handler := s.handler.initMid nFails, outstanding := [], client := .resetAlerts }
    else none
  | .resetAlerts =>
    if s.client = .resetAlerts then
      some { s with db := s.db.resetMid .alertStore, client := .resetEvents }
    else none
  | .resetEvents =>
    if s.client = .resetEvents then
      some { s with db := s.db.resetMid .eventStore, client := .idle }
    else none

/-- The worker has deleted or marked rows only of acknowledged publishes. -/
def AcknowledgedOnly (s : State) : Prop := ∀ x ∈ s.cleared, x ∈ s.acknowledged

/-! ## Fresh mids -/

/-- Row `id` of table `t` carries the mid `m`, or is about to be tagged with it. -/
def Marked (s : State) (t : StoreTable) (m : ℤ) (id : ℕ) : Prop :=
  s.db.Tagged t m id ∨ ∃ ids, s.uploader t = .published ids m ∧ id ∈ ids

/-- Every row of table `t` that carries `m` has been acknowledged. -/
def Covered (s : State) (t : StoreTable) (m : ℤ) : Prop :=
  ∀ id, Marked s t m id → (t, id) ∈ s.acknowledged

/-- The entry `e` waits in the queue or is in the hands of the worker. -/
def Pending (s : State) (e : MidTable StoreTable) : Prop :=
  e ∈ s.handler.queued ∨ s.worker = .deleting e ∨ s.worker = .marking e

/-- Nothing in the client still refers to an earlier publish with the mid `m`:
no unacknowledged row carries it, it is not in the set of published mids, no
outstanding publish has it, and no entry `(m, t)` waits to be cleared. -/
structure FreshFor (s : State) (t : StoreTable) (m : ℤ) : Prop where
  covered : ∀ t', Covered s t' m
  notPublished : m ∉ s.handler.setPublishedMidSet
  notOutstanding : ∀ p ∈ s.outstanding, p.mid ≠ m
  notPending : ¬ Pending s ⟨m, t⟩

/-- The condition on a step: the broker client assigns a fresh mid. A publish
without rows only needs a mid that no unacknowledged row carries. -/
def MidFresh (s : State) : Label → Prop
  | .publish t nMid => 0 < nMid → FreshFor s t nMid
  | .publishOther nMid => ∀ t, Covered s t nMid
  | _ => True

/-! ## The invariant -/

structure ProtocolInv (s : State) : Prop where
  published_pos : ∀ t ids m, s.uploader t = .published ids m → 0 < m
  tagged_pos : ∀ t m, s.uploader t = .tagged m → 0 < m
  outstanding_pos : ∀ p ∈ s.outstanding, 0 < p.mid
  set_pos : ∀ m ∈ s.handler.setPublishedMidSet, 0 < m
  pending_pos : ∀ e, Pending s e → 0 < e.nMid
  outstanding_covered : ∀ p ∈ s.outstanding, ∀ t id, Marked s t p.mid id →
    (t, id) ∈ s.acknowledged ∨ (t, id) ∈ p.rows
  set_covered : ∀ m ∈ s.handler.setPublishedMidSet, ∀ t, Covered s t m
  pending_covered : ∀ e, Pending s e → Covered s e.strTable e.nMid
  safe : AcknowledgedOnly s

theorem protocolInv_init (db : Db) : ProtocolInv (init db) := by
  constructor
  · intro t ids m h
    cases h
  · intro t m h
    cases h
  · intro p hp
    cases hp
  · intro m hm
    cases hm
  · rintro e (he | he | he)
    · cases he
    · cases he
    · cases he
  · intro p hp
    cases hp
  · intro m hm
    cases hm
  · rintro e (he | he | he)
    · cases he
    · cases he
    · cases he
  · intro x hx
    cases hx

/-- A step after which no further row carries a mid and no acknowledgement is
forgotten. -/
structure Quiet (s s' : State) : Prop where
  marked : ∀ t m id, 0 < m → Marked s' t m id → Marked s t m id
  acknowledged : ∀ x ∈ s.acknowledged, x ∈ s'.acknowledged

theorem Covered.mono {s s' : State} {t : StoreTable} {m : ℤ} (hq : Quiet s s') (hm : 0 < m)
    (h : Covered s t m) : Covered s' t m :=
  fun id hid => hq.acknowledged _ (h id (hq.marked t m id hm hid))

/-- A quiet step keeps the invariant if what it adds to the containers is covered. -/
theorem ProtocolInv.of_quiet {s s' : State} (h : ProtocolInv s) (hq : Quiet s s')
    (hpub : ∀ t ids m, s'.uploader t = .published ids m → 0 < m)
    (htag : ∀ t m, s'.uploader t = .tagged m → 0 < m)
    (hout : ∀ p ∈ s'.outstanding, p ∈ s.outstanding)
    (hset : ∀ m ∈ s'.handler.setPublishedMidSet,
      m ∈ s.handler.setPublishedMidSet ∨ (0 < m ∧ ∀ t, Covered s' t m))
    (hpend : ∀ e, Pending s' e → Pending s e ∨ (0 < e.nMid ∧ Covered s' e.strTable e.nMid))
    (hsafe : AcknowledgedOnly s') : ProtocolInv s' := by
  constructor
  · exact hpub
  · exact htag
  · exact fun p hp => h.outstanding_pos p (hout p hp)
  · intro m hm
    rcases hset m hm with hold | ⟨hpos, _⟩
    · exact h.set_pos m hold
    · exact hpos
  · intro e he
    rcases hpend e he with hold | ⟨hpos, _⟩
    · exact h.pending_pos e hold
    · exact hpos
  · intro p hp t id hid
    have hp' := hout p hp
    rcases h.outstanding_covered p hp' t id
        (hq.marked t p.mid id (h.outstanding_pos p hp') hid) with hin | hin
    · exact Or.inl (hq.acknowledged _ hin)
    · exact Or.inr hin
  · intro m hm t
    rcases hset m hm with hold | ⟨_, hcov⟩
    · exact (h.set_covered m hold t).mono hq (h.set_pos m hold)
    · exact hcov t
  · intro e he
    rcases hpend e he with hold | ⟨_, hcov⟩
    · exact (h.pending_covered e hold).mono hq (h.pending_pos e hold)
    · exact hcov
  · exact hsafe

/-! ## Steps of the uploaders -/

/-- The uploader of one table goes to a state that marks nothing. -/
theorem marked_setUploader {s s' : State} {t : StoreTable} {u : Uploader}
    (hdb : ∀ t m id, 0 < m → s'.db.Tagged t m id → Marked s t m id)
    (hup : s'.uploader = Function.update s.uploader t u) (hu : ∀ ids m, u ≠ .published ids m) :
    ∀ t' m id, 0 < m → Marked s' t' m id → Marked s t' m id := by
  rintro t' m id hm (h | ⟨ids, hpub, hid⟩)
  · exact hdb t' m id hm h
  · rw [hup] at hpub
    by_cases ht : t' = t
    · subst ht
      rw [Function.update_self] at hpub
      exact absurd hpub (hu ids m)
    · rw [Function.update_of_ne ht] at hpub
      exact Or.inr ⟨ids, hpub, hid⟩

theorem published_pos_setUploader {s : State} (h : ProtocolInv s) {t : StoreTable} {u : Uploader}
    (hu : ∀ ids m, u = .published ids m → 0 < m) :
    ∀ t' ids m, Function.update s.uploader t u t' = .published ids m → 0 < m := by
  intro t' ids m hpub
  by_cases ht : t' = t
  · subst ht
    rw [Function.update_self] at hpub
    exact hu ids m hpub
  · rw [Function.update_of_ne ht] at hpub
    exact h.published_pos t' ids m hpub

theorem tagged_pos_setUploader {s : State} (h : ProtocolInv s) {t : StoreTable} {u : Uploader}
    (hu : ∀ m, u = .tagged m → 0 < m) :
    ∀ t' m, Function.update s.uploader t u t' = .tagged m → 0 < m := by
  intro t' m htag
  by_cases ht : t' = t
  · subst ht
    rw [Function.update_self] at htag
    exact hu m htag
  · rw [Function.update_of_ne ht] at htag
    exact h.tagged_pos t' m htag

/-- The uploader moves on and nothing else changes. -/
theorem protocolInv_setUploader {s : State} (h : ProtocolInv s) {t : StoreTable} {u : Uploader}
    (hpub : ∀ ids m, u ≠ .published ids m) (htag : ∀ m, u ≠ .tagged m) :
    ProtocolInv (s.setUploader t u) := by
  have hq : Quiet s (s.setUploader t u) :=
    ⟨marked_setUploader (fun t m id _ ht => Or.inl ht) rfl hpub, fun x hx => hx⟩
  exact h.of_quiet hq
    (published_pos_setUploader h fun ids m hu => absurd hu (hpub ids m))
    (tagged_pos_setUploader h fun m hu => absurd hu (htag m))
    (fun p hp => hp) (fun m hm => Or.inl hm) (fun e he => Or.inl he) h.safe

theorem protocolInv_insert {s : State} (h : ProtocolInv s) (t : StoreTable) (r : EventRow) :
    ProtocolInv { s with db := s.db.insertRow t r } := by
  have hq : Quiet s { s with db := s.db.insertRow t r } := by
    refine ⟨?_, fun x hx => hx⟩
    rintro t' m id hm (htag | hpub)
    · exact Or.inl (Db.tagged_insertRow (by omega) htag)
    · exact Or.inr hpub
  exact h.of_quiet hq h.published_pos h.tagged_pos (fun p hp => hp) (fun m hm => Or.inl hm)
    (fun e he => Or.inl he) h.safe

/-- A publish with a fresh mid. -/
theorem protocolInv_publish {s : State} (h : ProtocolInv s) {t : StoreTable} {ids : List ℕ} {m : ℤ}
    (hm : 0 < m) (hfresh : FreshFor s t m) :
    ProtocolInv { s.setUploader t (.published ids m) with
      outstanding := ⟨m, ids.map fun id => (t, id)⟩ :: s.outstanding } := by
  -- the new marks are the rows of this publish, under a mid nobody else uses
  have hmark : ∀ t' m' id,
      Marked { s.setUploader t (.published ids m) with
        outstanding := ⟨m, ids.map fun id => (t, id)⟩ :: s.outstanding } t' m' id →
      Marked s t' m' id ∨ (t' = t ∧ m' = m ∧ id ∈ ids) := by
    rintro t' m' id (htag | ⟨ids', hpub, hid⟩)
    · exact Or.inl (Or.inl htag)
    · change Function.update s.uploader t (.published ids m) t' = .published ids' m' at hpub
      by_cases ht : t' = t
      · subst ht
        rw [Function.update_self] at hpub
        injection hpub with hids hmm
        exact Or.inr ⟨rfl, hmm.symm, hids ▸ hid⟩
      · rw [Function.update_of_ne ht] at hpub
        exact Or.inl (Or.inr ⟨ids', hpub, hid⟩)
  constructor
  · apply published_pos_setUploader h
    intro ids' m' hu
    injection hu with _ hmm
    omega
  · apply tagged_pos_setUploader h
    intro m' hu
    cases hu
  · intro p hp
    rcases List.mem_cons.1 hp with rfl | hp
    · exact hm
    · exact h.outstanding_pos p hp
  · exact h.set_pos
  · exact h.pending_pos
  · intro p hp t' id hid
    rcases List.mem_cons.1 hp with rfl | hp
    · -- the new publish: what carried its mid before is acknowledged
      rcases hmark t' m id hid with hold | ⟨rfl, _, hin⟩
      · exact Or.inl (hfresh.covered t' id hold)
      · exact Or.inr (List.mem_map.2 ⟨id, hin, rfl⟩)
    · rcases hmark t' p.mid id hid with hold | ⟨_, hmm, _⟩
      · exact h.outstanding_covered p hp t' id hold
      · exact absurd hmm (hfresh.notOutstanding p hp)
  · intro m' hm' t' id hid
    rcases hmark t' m' id hid with hold | ⟨_, rfl, _⟩
    · exact h.set_covered m' hm' t' id hold
    · exact absurd hm' hfresh.notPublished
  · intro e he id hid
    rcases hmark e.strTable e.nMid id hid with hold | ⟨ht, hmm, _⟩
    · exact h.pending_covered e he id hold
    · have hee : e = ⟨m, t⟩ := by
        rw [← hmm, ← ht]
      exact absurd (hee ▸ he) hfresh.notPending
  · exact h.safe

theorem protocolInv_publishOther {s : State} (h : ProtocolInv s) {m : ℤ} (hm : 0 < m)
    (hcov : ∀ t, Covered s t m) :
    ProtocolInv { s with outstanding := ⟨m, []⟩ :: s.outstanding } := by
  constructor
  · exact h.published_pos
  · exact h.tagged_pos
  · intro p hp
    rcases List.mem_cons.1 hp with rfl | hp
    · exact hm
    · exact h.outstanding_pos p hp
  · exact h.set_pos
  · exact h.pending_pos
  · intro p hp t id hid
    rcases List.mem_cons.1 hp with rfl | hp
    · exact Or.inl (hcov t id hid)
    · exact h.outstanding_covered p hp t id hid
  · exact h.set_covered
  · exact h.pending_covered
  · exact h.safe

/-- `update_mid` turns rows about to be tagged into tagged rows. -/
theorem protocolInv_updateMid {s : State} (h : ProtocolInv s) {t : StoreTable} {ids : List ℕ}
    {m : ℤ} (hu : s.uploader t = .published ids m) :
    ProtocolInv { s.setUploader t (.tagged m) with db := s.db.tagRows t ids m } := by
  have hq : Quiet s { s.setUploader t (.tagged m) with db := s.db.tagRows t ids m } := by
    refine ⟨?_, fun x hx => hx⟩
    apply marked_setUploader ?_ rfl (fun ids' m' hne => by cases hne)
    intro t' m' id hm' htag
    rcases Db.tagged_updateMid htag with hold | ⟨rfl, rfl, r, hr, hin, rfl⟩
    · exact Or.inl hold
    · exact Or.inr ⟨ids, hu, of_decide_eq_true hin⟩
  apply h.of_quiet hq
  · exact published_pos_setUploader h fun ids' m' hne => by cases hne
  · apply tagged_pos_setUploader h
    intro m' hm'
    injection hm' with hmm
    exact hmm ▸ h.published_pos t ids m hu
  · exact fun p hp => hp
  · exact fun m' hm' => Or.inl hm'
  · exact fun e he => Or.inl he
  · exact h.safe

/-- `SetMidTable`: a mid found in the set of published mids is covered. -/
theorem protocolInv_setMidTable {s : State} (h : ProtocolInv s) {t : StoreTable} {m : ℤ}
    (hu : s.uploader t = .tagged m) (n : ℕ) :
    ProtocolInv { s.setUploader t .idle with handler := (s.handler.setMidTable m t n).2 } := by
  have hq : Quiet s { s.setUploader t .idle with handler := (s.handler.setMidTable m t n).2 } := by
    refine ⟨?_, fun x hx => hx⟩
    exact marked_setUploader (fun t m id _ ht => Or.inl ht) rfl (fun ids' m' hne => by cases hne)
  have hpos : 0 < m := h.tagged_pos t m hu
  apply h.of_quiet hq
  · exact published_pos_setUploader h fun ids' m' hne => by cases hne
  · exact tagged_pos_setUploader h fun m' hne => by cases hne
  · exact fun p hp => hp
  · exact fun m' hm' => Or.inl (MidHandler.mem_set_of_setMidTable hm')
  · rintro e (he | he)
    · rcases MidHandler.mem_queued_of_setMidTable he with hold | ⟨rfl, hmem⟩
      · exact Or.inl (Or.inl hold)
      · exact Or.inr ⟨hpos, (h.set_covered m hmem t).mono hq hpos⟩
    · exact Or.inl (Or.inr he)
  · exact h.safe

/-! ## Steps of the client thread -/

/-- An acknowledgement: its mid is carried by its own rows and acknowledged ones. -/
theorem protocolInv_puback {s : State} (h : ProtocolInv s) {p : Publication}
    (hp : p ∈ s.outstanding) (n : ℕ) :
    ProtocolInv { s with
      handler := (s.handler.processPublishedMid p.mid n).2
      outstanding := s.outstanding.erase p
      acknowledged := p.rows ++ s.acknowledged } := by
  have hq : Quiet s { s with
      handler := (s.handler.processPublishedMid p.mid n).2
      outstanding := s.outstanding.erase p
      acknowledged := p.rows ++ s.acknowledged } :=
    ⟨fun t m id _ hid => hid, fun x hx => List.mem_append_right p.rows hx⟩
  have hpos : 0 < p.mid := h.outstanding_pos p hp
  -- the rows under the mid are those of the publication, or were acknowledged
  have hcov : ∀ t id, Marked s t p.mid id → (t, id) ∈ p.rows ++ s.acknowledged := by
    intro t id hid
    rcases h.outstanding_covered p hp t id hid with hin | hin
    · exact List.mem_append_right p.rows hin
    · exact List.mem_append_left s.acknowledged hin
  apply h.of_quiet hq h.published_pos h.tagged_pos
  · exact fun p' hp' => List.mem_of_mem_erase hp'
  · intro m hm
    rcases MidHandler.mem_set_of_processPublishedMid hm with hold | rfl
    · exact Or.inl hold
    · exact Or.inr ⟨hpos, hcov⟩
  · rintro e (he | he)
    · -- what is queued now waits for the worker under this mid
      rcases MidHandler.mem_queued_of_processPublishedMid he with hold | hmid
      · exact Or.inl (Or.inl hold)
      · rw [hmid]
        exact Or.inr ⟨hpos, hcov e.strTable⟩
    · exact Or.inl (Or.inr he)
  · exact fun x hx => hq.acknowledged x (h.safe x hx)

/-- `InitMid` on the containers: what it enqueues was in the set of published
mids, and what is left in the queue is covered from before. -/
theorem protocolInv_reconnect {s : State} (h : ProtocolInv s) (nFails : ℤ → ℕ) :
    ProtocolInv { s with
      handler := s.handler.initMid nFails, outstanding := [], client := .resetAlerts } := by
  have hq : Quiet s { s with
      handler := s.handler.initMid nFails, outstanding := [], client := .resetAlerts } :=
    ⟨fun t m id _ hid => hid, fun x hx => hx⟩
  apply h.of_quiet hq h.published_pos h.tagged_pos
  · intro p hp
    cases hp
  · intro m hm
    exact absurd hm Lib.SortedSet.not_mem_empty
  · rintro e (he | he)
    · rcases MidHandler.mem_queued_of_initMid he with hold | hmem
      · exact Or.inl (Or.inl hold)
      · exact Or.inr ⟨h.set_pos _ hmem, h.set_covered _ hmem e.strTable⟩
    · exact Or.inl (Or.inr he)
  · exact h.safe

theorem protocolInv_resetMid {s : State} (h : ProtocolInv s) (t : StoreTable) (c : Client) :
    ProtocolInv { s with db := s.db.resetMid t, client := c } := by
  have hq : Quiet s { s with db := s.db.resetMid t, client := c } := by
    refine ⟨?_, fun x hx => hx⟩
    rintro t' m id hm (htag | hpub)
    · exact Or.inl (Db.tagged_resetMid (by omega) htag)
    · exact Or.inr hpub
  exact h.of_quiet hq h.published_pos h.tagged_pos (fun p hp => hp) (fun m hm => Or.inl hm)
    (fun e he => Or.inl he) h.safe

/-! ## Steps of the worker -/

theorem protocolInv_workerTake {s : State} (h : ProtocolInv s) {pMt : MidTable StoreTable}
    {que : ConcurrentQueue (MidTable StoreTable)}
    (htake : s.handler.queMidTobeDeleted.take = some (pMt, que)) :
    ProtocolInv { s with
      handler := { s.handler with queMidTobeDeleted := que }, worker := .deleting pMt } := by
  have hvals : s.handler.queued = pMt :: que.values := ConcurrentQueue.take_eq_some htake
  have hq : Quiet s { s with
      handler := { s.handler with queMidTobeDeleted := que }, worker := .deleting pMt } :=
    ⟨fun t m id _ hid => hid, fun x hx => hx⟩
  apply h.of_quiet hq h.published_pos h.tagged_pos
  · exact fun p hp => hp
  · exact fun m hm => Or.inl hm
  · -- the entry moves from the queue to the worker
    rintro e (he | he | he)
    · left; left
      rw [hvals]
      exact List.mem_cons_of_mem pMt he
    · left; left
      injection he with hee
      rw [hvals, hee]
      exact List.mem_cons_self
    · cases he
  · exact h.safe

/-- The worker clears rows that carry the mid of its entry. -/
theorem acknowledged_of_worker {s : State} (h : ProtocolInv s) {e : MidTable StoreTable}
    (he : Pending s e) {p : EventRow → Bool} (hp : ∀ r, p r = true → r.mid = e.nMid) :
    ∀ x ∈ (s.db.idsWhere e.strTable p).map (fun id => (e.strTable, id)) ++ s.cleared,
      x ∈ s.acknowledged := by
  intro x hx
  rcases List.mem_append.1 hx with hx | hx
  · rcases List.mem_map.1 hx with ⟨id, hid, rfl⟩
    exact h.pending_covered e he id (Or.inl (Db.tagged_of_mem_idsWhere hp hid))
  · exact h.safe x hx

theorem protocolInv_workerDelete {s : State} (h : ProtocolInv s) {e : MidTable StoreTable}
    (hw : s.worker = .deleting e) (b : Bool) :
    ProtocolInv { s with
      db := s.db.deleteEvents b e.strTable e.nMid
      cleared := (s.db.idsWhere e.strTable (Db.deletes b e.strTable e.nMid)).map
        (fun id => (e.strTable, id)) ++ s.cleared
      worker := if e.strTable = .eventStore ∧ b = true then .marking e else .idle } := by
  have he : Pending s e := Or.inr (Or.inl hw)
  have hq : Quiet s { s with
      db := s.db.deleteEvents b e.strTable e.nMid
      cleared := (s.db.idsWhere e.strTable (Db.deletes b e.strTable e.nMid)).map
        (fun id => (e.strTable, id)) ++ s.cleared
      worker := if e.strTable = .eventStore ∧ b = true then .marking e else .idle } := by
    refine ⟨?_, fun x hx => hx⟩
    rintro t m id _ (htag | hpub)
    · exact Or.inl (Db.tagged_remove htag)
    · exact Or.inr hpub
  apply h.of_quiet hq h.published_pos h.tagged_pos
  · exact fun p hp => hp
  · exact fun m hm => Or.inl hm
  · rintro e' (he' | he' | he')
    · exact Or.inl (Or.inl he')
    · -- the worker goes on to mark, it does not delete again
      change (if e.strTable = .eventStore ∧ b = true then Worker.marking e else Worker.idle) =
        .deleting e' at he'
      split at he' <;> cases he'
    · left
      change (if e.strTable = .eventStore ∧ b = true then Worker.marking e else Worker.idle) =
        .marking e' at he'
      split at he'
      · injection he' with hee
        exact hee ▸ he
      · cases he'
  · exact acknowledged_of_worker h he fun r hr => Db.deletes_mid hr

theorem protocolInv_workerMark {s : State} (h : ProtocolInv s) {e : MidTable StoreTable}
    (hw : s.worker = .marking e) :
    ProtocolInv { s with
      db := s.db.markUploaded e.strTable e.nMid
      cleared := (s.db.idsWhere e.strTable fun r => decide (r.mid = e.nMid)).map
        (fun id => (e.strTable, id)) ++ s.cleared
      worker := .idle } := by
  have he : Pending s e := Or.inr (Or.inr hw)
  have hq : Quiet s { s with
      db := s.db.markUploaded e.strTable e.nMid
      cleared := (s.db.idsWhere e.strTable fun r => decide (r.mid = e.nMid)).map
        (fun id => (e.strTable, id)) ++ s.cleared
      worker := .idle } := by
    refine ⟨?_, fun x hx => hx⟩
    rintro t m id _ (htag | hpub)
    · exact Or.inl (Db.tagged_updateStreamSupport htag)
    · exact Or.inr hpub
  apply h.of_quiet hq h.published_pos h.tagged_pos
  · exact fun p hp => hp
  · exact fun m hm => Or.inl hm
  · rintro e' (he' | he' | he')
    · exact Or.inl (Or.inl he')
    · cases he'
    · cases he'
  · exact acknowledged_of_worker h he fun r hr => of_decide_eq_true hr

/-! ## Runs -/

theorem protocolInv_step (s : State) (l : Label) (s' : State) (h : ProtocolInv s)
    (hok : MidFresh s l) (hstep : next s l = some s') : ProtocolInv s' := by
  -- one lemma for each label; the guard of the label is what it needs
  cases l with
  | insert t r =>
    cases hstep
    exact protocolInv_insert h t r
  | select t ids =>
    simp only [next] at hstep
    split at hstep
    · cases hstep
      exact protocolInv_setUploader h (fun ids' m hne => by cases hne) (fun m hne => by cases hne)
    · cases hstep
  | publish t m =>
    simp only [next] at hstep
    split at hstep
    · rename_i ids hu
      split at hstep
      · cases hstep
        exact protocolInv_setUploader h (fun ids' m' hne => by cases hne)
          (fun m' hne => by cases hne)
      · -- the mid of the broker is fresh
        rename_i hpos
        cases hstep
        exact protocolInv_publish h (by omega) (hok (by omega))
    · cases hstep
  | publishFails t =>
    simp only [next] at hstep
    split at hstep
    · cases hstep
      exact protocolInv_setUploader h (fun ids m hne => by cases hne) (fun m hne => by cases hne)
    · cases hstep
  | updateMid t bResult =>
    simp only [next] at hstep
    split at hstep
    · rename_i ids m hu
      split at hstep
      · cases hstep
        exact protocolInv_updateMid h hu
      · cases hstep
        exact protocolInv_setUploader h (fun ids' m' hne => by cases hne)
          (fun m' hne => by cases hne)
    · cases hstep
  | setMidTable t n =>
    simp only [next] at hstep
    split at hstep
    · rename_i m hu
      cases hstep
      exact protocolInv_setMidTable h hu n
    · cases hstep
  | publishOther m =>
    simp only [next] at hstep
    split at hstep
    · rename_i hpos
      cases hstep
      exact protocolInv_publishOther h hpos hok
    · cases hstep
  | puback p n =>
    simp only [next] at hstep
    split at hstep
    · rename_i hp
      cases hstep
      exact protocolInv_puback h hp.1 n
    · cases hstep
  | workerTake =>
    simp only [next] at hstep
    split at hstep
    · rename_i pMt que hw htake
      cases hstep
      exact protocolInv_workerTake h htake
    · cases hstep
  | workerDelete b =>
    simp only [next] at hstep
    split at hstep
    · rename_i e hw
      cases hstep
      exact protocolInv_workerDelete h hw b
    · cases hstep
  | workerMark =>
    simp only [next] at hstep
    split at hstep
    · rename_i e hw
      cases hstep
      exact protocolInv_workerMark h hw
    · cases hstep
  | reconnect nFails =>
    simp only [next] at hstep
    split at hstep
    · cases hstep
      exact protocolInv_reconnect h nFails
    · cases hstep
  | resetAlerts =>
    simp only [next] at hstep
    split at hstep
    · cases hstep
      exact protocolInv_resetMid h .alertStore .resetEvents
    · cases hstep
  | resetEvents =>
    simp only [next] at hstep
    split at hstep
    · cases hstep
      exact protocolInv_resetMid h .eventStore .idle
    · cases hstep

theorem protocolInv_run (db : Db) (labels : List Label) (s' : State)
    (hok : Lib.Along next MidFresh (init db) labels)
    (hrun : Lib.exec next (init db) labels = some s') : ProtocolInv s' :=
  Lib.exec_inv protocolInv_step labels (init db) s' (protocolInv_init db) hok hrun

/-- In every run whose publishes get fresh mids, the worker deletes or marks a
row only after the acknowledgement of a publish that carried it. -/
theorem acknowledgedOnly_of_fresh (db : Db) (labels : List Label) (s' : State)
    (hok : Lib.Along next MidFresh (init db) labels)
    (hrun : Lib.exec next (init db) labels = some s') : AcknowledgedOnly s' :=
  (protocolInv_run db labels s' hok hrun).safe

/-! ## Two runs -/

/-- A row of the stream upload; its id and mid are set on insertion. -/
def streamRow : EventRow where
  id := 0
  eventId := "Speed"
  timestamp := some 1
  timezone := 0
  size := 2
  hasAttach := 0
  events := "\x7b\x7d"
  topic := none
  mid := 0
  streamSupport := 1
  batchSupport := 0

/-- One upload from the insertion of its row to the deletion. -/
def uploadRun : List Label :=
  [.insert .eventStore streamRow, .select .eventStore [1], .publish .eventStore 1,
    .updateMid .eventStore true, .setMidTable .eventStore 0,
    .puback ⟨1, [(.eventStore, 1)]⟩ 0, .workerTake, .workerDelete false]

/-- The upload meets a reconnect before the worker runs. The row is sent again,
with a new one, under the same mid, and the worker then finds its old entry. -/
def staleRun : List Label :=
  [.insert .eventStore streamRow, .select .eventStore [1], .publish .eventStore 1,
    .updateMid .eventStore true, .setMidTable .eventStore 0,
    .puback ⟨1, [(.eventStore, 1)]⟩ 0,
    .reconnect fun _ => 0, .resetAlerts, .resetEvents,
    .insert .eventStore streamRow, .select .eventStore [1, 2], .publish .eventStore 1,
    .updateMid .eventStore true, .workerTake, .workerDelete false]

theorem acknowledgedOnly_uploadRun :
    ∃ s', Lib.exec next (init fun _ => Lib.Table.empty) uploadRun = some s' ∧
      s'.cleared = [(.eventStore, 1)] ∧ AcknowledgedOnly s' := by
  refine ⟨_, rfl, rfl, ?_⟩
  refine acknowledgedOnly_of_fresh (fun _ => Lib.Table.empty) uploadRun _ ?_ rfl
  refine Lib.along_cons rfl trivial ?_
  refine Lib.along_cons rfl trivial ?_
  refine Lib.along_cons rfl ?_ ?_
  · -- nothing refers to mid 1 yet
    intro _
    constructor
    · rintro t id (⟨r, hr, hm, _⟩ | ⟨ids, hu, _⟩)
      · cases t with
        | eventStore =>
          rcases List.mem_singleton.1 hr with rfl
          cases hm
        | alertStore => cases hr
      · cases t with
        | eventStore => cases hu
        | alertStore => cases hu
    · decide
    · intro p hp
      cases hp
    · rintro (he | he | he) <;> cases he
  · refine Lib.along_cons rfl trivial ?_
    refine Lib.along_cons rfl trivial ?_
    refine Lib.along_cons rfl trivial ?_
    refine Lib.along_cons rfl trivial ?_
    exact Lib.along_cons rfl trivial (Lib.along_nil _ _ _)

theorem not_acknowledgedOnly_stale_entry :
    ¬ ∀ (db : Db) (labels : List Label) (s' : State),
      Lib.exec next (init db) labels = some s' → AcknowledgedOnly s' := by
  intro hall
  have hcleared : ∃ s', Lib.exec next (init fun _ => Lib.Table.empty) staleRun = some s' ∧
      (.eventStore, 2) ∈ s'.cleared ∧ (.eventStore, 2) ∉ s'.acknowledged :=
    ⟨_, rfl, by decide, by decide⟩
  rcases hcleared with ⟨s', hrun, hin, hout⟩
  exact hout (hall _ staleRun s' hrun _ hin)

end MidProtocol

end DeviceClient
