import DeviceClient.Mqtt.Messages
import DeviceClient.Upload.MidProtocol

/-!
# Uploads over the client library

The uploaders, the mid handler and its worker, on top of the queue of the MQTT library: the
mids are those that `mosquitto_publish` assigns, and `on_publish` is called where the library
calls it, for an answer (QoS 1 and 2) or once a packet is written (QoS 0).

A mid is fresh for the client as long as a session takes fewer than 65536 of them and the
next one starts with nothing left of the last.

* `deliveryInv_run`: then every mid that the client knows was assigned in this session.
* `cleared_delivered_run`: so the worker clears only rows of messages that were answered.
-/

namespace DeviceClient

namespace MidDelivery

open Mqtt (MsgsOut MsgLabel Packet msgNext)
open MidProtocol (ProtocolInv Marked Covered FreshFor MidFresh)

/-! ## The two together -/

/-- The uploads and the library. The last two only observe: the rows of the messages that the
library accepted in this session, by the number of the call that made the mid, and the rows
of the messages that were answered (with QoS 0: written). -/
structure Delivery where
  up : MidProtocol.State
  lib : MsgsOut
  /-- The QoS 0 messages of `out_packet`, by their number and mid. -/
  unwritten : List (ℕ × ℕ)
  published : List (ℕ × List (StoreTable × ℕ))
  delivered : List (StoreTable × ℕ)

/-- The first `InitClient` on a given database, inside `InitMid`. -/
def init (db : Db) (inflight_maximum : ℕ) : Delivery where
  up := { MidProtocol.init db with client := .resetAlerts }
  lib := MsgsOut.init inflight_maximum
  unwritten := []
  published := []
  delivered := []

inductive Label where
  /-- A step that does not concern the library. -/
  | own (l : MidProtocol.Label)
  /-- The uploader of `t` publishes what it selected. -/
  | publish (t : StoreTable) (topic payload : List UInt8) (qos : ℕ) (retain : Bool)
  /-- It finds `m_bConnected` unset. -/
  | notConnected (t : StoreTable)
  /-- A publish outside the uploaders. -/
  | publishOther (topic payload : List UInt8) (qos : ℕ) (retain : Bool)
  /-- A SUBSCRIBE or an UNSUBSCRIBE takes a mid. -/
  | otherMid
  /-- A packet of the broker; each call of `ProcessPublishedMid` may fail to lock. -/
  | packet (p : Packet) (nFails : ℤ → ℕ)
  /-- The last byte of a QoS 0 message is written. -/
  | written (nFails : ℤ → ℕ)
  | lost
  | reconnectReset
  | socketConnect (connected : Bool)
  /-- `reinitialise`, and the containers part of `InitMid`. An attempt of `InitClient` that
  ends before `InitMid` is repeated, and only the last one shows. -/
  | initClient (inflight_maximum : ℕ) (nFails : ℤ → ℕ)

def Own : MidProtocol.Label → Bool
  | .insert .. | .select .. | .updateMid .. | .setMidTable .. | .workerTake | .workerDelete _
  | .workerMark | .resetAlerts | .resetEvents => true
  | _ => false

/-- `on_publish`, which calls `ProcessPublishedMid`: for a publish of an uploader, or for a
message that none of them published. -/
def processPublished (up : MidProtocol.State) (nMid : ℤ) (nFails : ℕ) :
    Option MidProtocol.State :=
  match up.outstanding.find? fun p => p.mid = nMid with
  | some p => MidProtocol.next up (.puback p nFails)
  | none =>
    (MidProtocol.next up (.publishOther nMid)).bind fun up =>
      MidProtocol.next up (.puback ⟨nMid, []⟩ nFails)

/-- The rows of the message with a given number. -/
def Delivery.rowsOf (s : Delivery) (n : ℕ) : List (StoreTable × ℕ) :=
  (s.published.filter fun x => x.1 = n).flatMap Prod.snd

def onPublish (nFails : ℤ → ℕ) (s : Delivery) (k : ℕ × ℕ) : Option Delivery :=
  (processPublished s.up k.2 (nFails k.2)).map fun up =>
    { s with up := up, delivered := s.rowsOf k.1 ++ s.delivered }

/-- The library after a call of `mosquitto_publish` that returned `rc`. -/
def Delivery.afterPublish (s : Delivery) (lib : MsgsOut) (qos : ℕ) (rc : MosqErr) :
    Delivery :=
  { s with
    lib := lib
    unwritten :=
      if qos = 0 ∧ rc = .success then s.unwritten ++ [(lib.generated, lib.last_mid)]
      else s.unwritten }

def next (s : Delivery) : Label → Option Delivery
  | .own l =>
    if Own l = true then (MidProtocol.next s.up l).map fun up => { s with up := up } else none
  | .publish t topic payload qos retain =>
    match s.up.uploader t with
    | .selected vectRowIDs =>
      let (lib, rc) := s.lib.publish topic payload qos retain
      if rc = .success then
        (MidProtocol.next s.up (.publish t lib.last_mid)).map fun up =>
          { s.afterPublish lib qos rc with
            up := up
            published := (lib.generated, vectRowIDs.map fun id => (t, id)) :: s.published }
      else
        (MidProtocol.next s.up (.publishFails t)).map fun up =>
          { s.afterPublish lib qos rc with up := up }
    | _ => none
  | .notConnected t =>
    (MidProtocol.next s.up (.publishFails t)).map fun up => { s with up := up }
  | .publishOther topic payload qos retain =>
    let (lib, rc) := s.lib.publish topic payload qos retain
    some (s.afterPublish lib qos rc)
  | .otherMid => some { s with lib := s.lib.midGenerate }
  | .packet p nFails =>
    -- the thread that is in `InitMid` reads no packet
    if s.up.client = .idle then
      (msgNext s.lib (.packet p)).bind fun lib =>
        Lib.exec (onPublish nFails) { s with lib := lib }
          (lib.completed.drop s.lib.completed.length)
    else none
  | .written nFails =>
    match s.unwritten with
    | k :: rest =>
      if s.up.client = .idle ∧ s.lib.connected = true then
        onPublish nFails { s with unwritten := rest } k
      else none
    | [] => none
  | .lost =>
    if s.up.client = .idle then (msgNext s.lib .lost).map fun lib => { s with lib := lib }
    else none
  | .reconnectReset =>
    if s.up.client = .idle then
      (msgNext s.lib .reconnectReset).map fun lib => { s with lib := lib, unwritten := [] }
    else none
  | .socketConnect connected =>
    if s.up.client = .idle then
      (msgNext s.lib (.socketConnect connected)).map fun lib => { s with lib := lib }
    else none
  | .initClient inflight_maximum nFails =>
    if 0 < inflight_maximum then
      (MidProtocol.next s.up (.reconnect nFails)).map fun up =>
        { up := up, lib := MsgsOut.init inflight_maximum, unwritten := [], published := [],
          delivered := s.delivered }
    else none

/-- The condition on a step: a session takes no more than 65535 mids, and the next one starts
when nothing waits for the worker and no uploader is between its publish and `SetMidTable`. -/
def Clean (s : Delivery) : Label → Prop
  | .publish .. | .publishOther .. | .otherMid => s.lib.generated < 65535
  | .initClient _ nFails =>
    (s.up.handler.initMid nFails).queued = [] ∧ s.up.worker = .idle ∧
      ∀ t, (∀ ids m, s.up.uploader t ≠ .published ids m) ∧ ∀ m, s.up.uploader t ≠ .tagged m
  | _ => True

/-! ## The mids that the client knows -/

/-- `InitMid` has untagged the table, or is not running. -/
def Live (s : MidProtocol.State) (t : StoreTable) : Prop :=
  s.client = .idle ∨ (s.client = .resetEvents ∧ t = .alertStore)

/-- `Marked`, but for the rows that `InitMid` is still to untag. -/
def LiveMarked (s : MidProtocol.State) (t : StoreTable) (m : ℤ) (id : ℕ) : Prop :=
  (Live s t ∧ s.db.Tagged t m id) ∨ ∃ ids, s.uploader t = .published ids m ∧ id ∈ ids

/-- Something in the client has the mid. -/
inductive Known (s : MidProtocol.State) (m : ℤ) : Prop where
  | marked (t : StoreTable) (id : ℕ) (h : LiveMarked s t m id)
  | published (t : StoreTable) (ids : List ℕ) (h : s.uploader t = .published ids m)
  | tagged (t : StoreTable) (h : s.uploader t = .tagged m)
  | outstanding (p : MidProtocol.Publication) (h : p ∈ s.outstanding) (hmid : p.mid = m)
  | set (h : m ∈ s.handler.setPublishedMidSet)
  | pending (e : MidTable StoreTable) (h : MidProtocol.Pending s e) (hmid : e.nMid = m)

theorem liveMarked_of_marked {s : MidProtocol.State} (hidle : s.client = .idle) {t : StoreTable}
    {m : ℤ} {id : ℕ} (h : Marked s t m id) : LiveMarked s t m id := by
  rcases h with htag | hpub
  · exact Or.inl ⟨Or.inl hidle, htag⟩
  · exact Or.inr hpub

theorem marked_of_liveMarked {s : MidProtocol.State} {t : StoreTable} {m : ℤ} {id : ℕ}
    (h : LiveMarked s t m id) : Marked s t m id := by
  rcases h with ⟨-, htag⟩ | hpub
  · exact Or.inl htag
  · exact Or.inr hpub

/-- A step after which the client knows no further mid and has the same publishes and
acknowledgements. -/
structure Fades (s s' : MidProtocol.State) : Prop where
  known : ∀ m, 0 < m → Known s' m → Known s m
  marked : ∀ t m id, 0 < m → LiveMarked s' t m id → LiveMarked s t m id
  outstanding : s'.outstanding = s.outstanding
  acknowledged : s'.acknowledged = s.acknowledged
  client : s'.client ≠ .idle → s.client ≠ .idle

/-- What there is to check of a step: the marks, the uploaders and the containers. -/
theorem Fades.of_parts {s s' : MidProtocol.State}
    (hmarked : ∀ t m id, 0 < m → LiveMarked s' t m id → LiveMarked s t m id)
    (hpublished : ∀ t ids m, s'.uploader t = .published ids m → s.uploader t = .published ids m)
    (htagged : ∀ t m, s'.uploader t = .tagged m → Known s m)
    (hset : ∀ m ∈ s'.handler.setPublishedMidSet, m ∈ s.handler.setPublishedMidSet)
    (hpending : ∀ e, MidProtocol.Pending s' e → MidProtocol.Pending s e ∨ Known s e.nMid)
    (houtstanding : s'.outstanding = s.outstanding)
    (hacknowledged : s'.acknowledged = s.acknowledged)
    (hclient : s'.client ≠ .idle → s.client ≠ .idle) : Fades s s' := by
  refine ⟨?_, hmarked, houtstanding, hacknowledged, hclient⟩
  intro m hm hknown
  cases hknown with
  | marked t id h => exact .marked t id (hmarked t m id hm h)
  | published t ids h => exact .published t ids (hpublished t ids m h)
  | tagged t h => exact htagged t m h
  | outstanding p h hmid => exact .outstanding p (houtstanding ▸ h) hmid
  | set h => exact .set (hset m h)
  | pending e h hmid =>
    rcases hpending e h with hold | hknown
    · exact .pending e hold hmid
    · exact hmid ▸ hknown

/-- The uploader of one table goes to a state without a mid. -/
theorem fades_setUploader {s : MidProtocol.State} {t : StoreTable} {u : MidProtocol.Uploader}
    (hpub : ∀ ids m, u ≠ .published ids m) (htag : ∀ m, u ≠ .tagged m) :
    Fades s (s.setUploader t u) := by
  have hup : ∀ t' v, (s.setUploader t u).uploader t' = v → s.uploader t' = v ∨ u = v := by
    intro t' v h
    change Function.update s.uploader t u t' = v at h
    by_cases ht : t' = t
    · subst ht
      rw [Function.update_self] at h
      exact Or.inr h
    · rw [Function.update_of_ne ht] at h
      exact Or.inl h
  have hpublished : ∀ t' ids m, (s.setUploader t u).uploader t' = .published ids m →
      s.uploader t' = .published ids m :=
    fun t' ids m h => (hup t' _ h).resolve_right (hpub ids m)
  refine Fades.of_parts ?_ hpublished ?_ (fun m hm => hm) (fun e he => Or.inl he) rfl rfl id
  · rintro t' m id - (hdb | ⟨ids, h, hid⟩)
    · exact Or.inl hdb
    · exact Or.inr ⟨ids, hpublished t' ids m h, hid⟩
  · exact fun t' m h => .tagged t' ((hup t' _ h).resolve_right (htag m))

/-- A step of the database and the worker: what is tagged was, and what the worker holds was
waiting. -/
theorem fades_of_db {s s' : MidProtocol.State}
    (hdb : ∀ t m id, 0 < m → Live s' t → s'.db.Tagged t m id → Live s t ∧ s.db.Tagged t m id)
    (hup : s'.uploader = s.uploader) (hset : s'.handler.setPublishedMidSet =
      s.handler.setPublishedMidSet)
    (hpending : ∀ e, MidProtocol.Pending s' e → MidProtocol.Pending s e)
    (houtstanding : s'.outstanding = s.outstanding)
    (hacknowledged : s'.acknowledged = s.acknowledged)
    (hclient : s'.client ≠ .idle → s.client ≠ .idle) : Fades s s' := by
  refine Fades.of_parts ?_ (fun t ids m h => hup ▸ h) (fun t m h => .tagged t (hup ▸ h))
    (fun m hm => hset ▸ hm) (fun e he => Or.inl (hpending e he)) houtstanding hacknowledged hclient
  rintro t m id hm (⟨hlive, htag⟩ | ⟨ids, h, hid⟩)
  · exact Or.inl (hdb t m id hm hlive htag)
  · exact Or.inr ⟨ids, hup ▸ h, hid⟩

/-- An update that untags what it touches. -/
theorem not_tagged_resetMid {db : Db} {t : StoreTable} {m : ℤ} (hm : 0 < m) {id : ℕ} :
    ¬(db.resetMid t).Tagged t m id := by
  rintro ⟨r, hr, hmid, -⟩
  unfold Db.resetMid Db.updateMid at hr
  rw [Function.update_self, Lib.Table.mem_update] at hr
  rcases hr with ⟨r₀, -, rfl⟩
  split at hmid
  · rw [← hmid] at hm
    exact absurd hm (lt_irrefl 0)
  · rename_i hzero
    have hzero' : r₀.mid = 0 := by simpa using hzero
    omega

theorem fades_own {s s' : MidProtocol.State} {l : MidProtocol.Label} (hown : Own l = true)
    (hstep : MidProtocol.next s l = some s') : Fades s s' := by
  cases l with
  | publish t m => cases hown
  | publishFails t => cases hown
  | publishOther m => cases hown
  | puback p n => cases hown
  | reconnect nFails => cases hown
  | insert t r =>
    cases hstep
    refine fades_of_db ?_ rfl rfl (fun e he => he) rfl rfl id
    exact fun t' m id hm hlive htag => ⟨hlive, Db.tagged_insertRow (by omega) htag⟩
  | select t ids =>
    simp only [MidProtocol.next] at hstep
    split at hstep <;> cases hstep
    exact fades_setUploader (fun _ _ hne => by cases hne) (fun _ hne => by cases hne)
  | updateMid t bResult =>
    simp only [MidProtocol.next] at hstep
    split at hstep
    · rename_i ids m hu
      split at hstep <;> cases hstep
      · -- the rows that are tagged now were about to be
        have hup : ∀ t' v, Function.update s.uploader t (.tagged m) t' = v →
            s.uploader t' = v ∨ v = .tagged m := by
          intro t' v h
          by_cases ht : t' = t
          · subst ht
            rw [Function.update_self] at h
            exact Or.inr h.symm
          · rw [Function.update_of_ne ht] at h
            exact Or.inl h
        have hpublished : ∀ t' ids' m', Function.update s.uploader t (.tagged m) t' =
            .published ids' m' → s.uploader t' = .published ids' m' :=
          fun t' ids' m' h => (hup t' _ h).resolve_right fun hne => by cases hne
        refine Fades.of_parts ?_ hpublished ?_ (fun m hm => hm) (fun e he => Or.inl he) rfl rfl id
        · rintro t' m' id hm (⟨hlive, htag⟩ | ⟨ids', h, hid⟩)
          · rcases Db.tagged_updateMid htag with hold | ⟨rfl, rfl, r, hr, hin, rfl⟩
            · exact Or.inl ⟨hlive, hold⟩
            · exact Or.inr ⟨ids, hu, of_decide_eq_true hin⟩
          · exact Or.inr ⟨ids', hpublished t' ids' m' h, hid⟩
        · intro t' m' h
          rcases hup t' _ h with hold | heq
          · exact .tagged t' hold
          · cases heq
            exact .published t ids hu
      · exact fades_setUploader (fun _ _ hne => by cases hne) (fun _ hne => by cases hne)
    · cases hstep
  | setMidTable t n =>
    simp only [MidProtocol.next] at hstep
    split at hstep
    · rename_i m hu
      cases hstep
      have hfades := @fades_setUploader s t .idle (fun _ _ hne => by cases hne)
        (fun _ hne => by cases hne)
      refine Fades.of_parts hfades.marked ?_ ?_ ?_ ?_ rfl rfl id
      · intro t' ids m' h
        by_cases ht : t' = t
        · subst ht
          exact absurd ((Function.update_self ..).symm.trans h) fun hne => by cases hne
        · exact (Function.update_of_ne ht ..).symm.trans h
      · intro t' m' h
        by_cases ht : t' = t
        · subst ht
          exact absurd ((Function.update_self ..).symm.trans h) fun hne => by cases hne
        · exact .tagged t' ((Function.update_of_ne ht ..).symm.trans h)
      · exact fun m' hm' => MidHandler.mem_set_of_setMidTable hm'
      · rintro e (he | he)
        · rcases MidHandler.mem_queued_of_setMidTable he with hold | ⟨rfl, -⟩
          · exact Or.inl (Or.inl hold)
          · exact Or.inr (.tagged t hu)
        · exact Or.inl (Or.inr he)
    · cases hstep
  | workerTake =>
    simp only [MidProtocol.next] at hstep
    split at hstep
    · rename_i pMt que hw htake
      cases hstep
      have hvals : s.handler.queued = pMt :: que.values := ConcurrentQueue.take_eq_some htake
      refine fades_of_db (fun t m id _ hlive htag => ⟨hlive, htag⟩) rfl rfl ?_ rfl rfl id
      rintro e (he | he | he)
      · left
        rw [hvals]
        exact List.mem_cons_of_mem pMt he
      · injection he with hee
        left
        rw [hvals, hee]
        exact List.mem_cons_self
      · cases he
    · cases hstep
  | workerDelete b =>
    simp only [MidProtocol.next] at hstep
    split at hstep
    · rename_i pMt hw
      cases hstep
      refine fades_of_db (fun t m id _ hlive htag => ⟨hlive, Db.tagged_remove htag⟩) rfl rfl ?_
        rfl rfl id
      rintro e (he | he | he)
      · exact Or.inl he
      · change (if pMt.strTable = .eventStore ∧ b = true then MidProtocol.Worker.marking pMt
          else .idle) = .deleting e at he
        split at he <;> cases he
      · change (if pMt.strTable = .eventStore ∧ b = true then MidProtocol.Worker.marking pMt
          else .idle) = .marking e at he
        split at he <;> cases he
        exact Or.inr (Or.inl hw)
    · cases hstep
  | workerMark =>
    simp only [MidProtocol.next] at hstep
    split at hstep
    · rename_i pMt hw
      cases hstep
      refine fades_of_db
        (fun t m id _ hlive htag => ⟨hlive, Db.tagged_updateStreamSupport htag⟩) rfl rfl ?_
        rfl rfl id
      rintro e (he | he | he)
      · exact Or.inl he
      · cases he
      · cases he
    · cases hstep
  | resetAlerts =>
    simp only [MidProtocol.next] at hstep
    split at hstep <;> cases hstep
    rename_i hclient
    refine fades_of_db ?_ rfl rfl (fun e he => he) rfl rfl (fun _ hidle => ?_)
    · rintro t m id hm (hlive | ⟨-, rfl⟩) htag
      · cases hlive
      · exact absurd htag (not_tagged_resetMid hm)
    · rw [hclient] at hidle
      cases hidle
  | resetEvents =>
    simp only [MidProtocol.next] at hstep
    split at hstep <;> cases hstep
    rename_i hclient
    refine fades_of_db ?_ rfl rfl (fun e he => he) rfl rfl (fun h => absurd rfl h)
    intro t m id hm _ htag
    cases t with
    | alertStore => exact ⟨Or.inr ⟨hclient, rfl⟩, Db.tagged_resetMid (by omega) htag⟩
    | eventStore => exact absurd htag (not_tagged_resetMid hm)

/-! ## The invariant -/

structure DeliveryInv (s : Delivery) : Prop where
  protocol : ProtocolInv s.up
  kept : Mqtt.Kept s.lib
  mids : Mqtt.Mids s.lib
  generated_le : s.lib.generated ≤ 65535
  unwritten : ∀ k ∈ s.unwritten, k.2 = k.1 ∧ 0 < k.1 ∧ k.1 ≤ s.lib.generated
  /-- Inside `InitMid` nothing can be sent. -/
  window : s.up.client ≠ .idle → s.lib.connected = false ∧ 0 < s.lib.inflight_quota
  known : ∀ m, 0 < m → Known s.up m → m ≤ (s.lib.generated : ℤ)
  underway : ∀ t m id, 0 < m → LiveMarked s.up t m id →
    (∃ p ∈ s.up.outstanding, p.mid = m) ∨ (t, id) ∈ s.up.acknowledged
  rows : ∀ p ∈ s.up.outstanding, ∃ n : ℕ, p.mid = n ∧ (n, p.rows) ∈ s.published
  delivered : ∀ x ∈ s.up.acknowledged, x ∈ s.delivered

/-- At the beginning of a session the client knows no mid. -/
theorem not_known_reset {s : MidProtocol.State} (hclient : s.client = .resetAlerts)
    (hpublished : ∀ t ids m, s.uploader t ≠ .published ids m)
    (htagged : ∀ t m, s.uploader t ≠ .tagged m) (houtstanding : s.outstanding = [])
    (hset : s.handler.setPublishedMidSet = Lib.SortedSet.empty) (hqueued : s.handler.queued = [])
    (hworker : s.worker = .idle) (m : ℤ) : ¬Known s m := by
  intro hknown
  cases hknown with
  | marked t id h =>
    rcases h with ⟨hidle | ⟨hevents, -⟩, -⟩ | ⟨ids, hpub, -⟩
    · rw [hclient] at hidle
      cases hidle
    · rw [hclient] at hevents
      cases hevents
    · exact hpublished t ids m hpub
  | published t ids h => exact hpublished t ids m h
  | tagged t h => exact htagged t m h
  | outstanding p h hmid =>
    rw [houtstanding] at h
    cases h
  | set h =>
    rw [hset] at h
    exact Lib.SortedSet.not_mem_empty h
  | pending e h hmid =>
    rcases h with h | h | h
    · rw [hqueued] at h
      cases h
    · rw [hworker] at h
      cases h
    · rw [hworker] at h
      cases h

/-- A new session: of the last one, only what was acknowledged is left. -/
theorem deliveryInv_session {up : MidProtocol.State} (h : ProtocolInv up)
    (hnone : ∀ m, ¬Known up m) (houtstanding : up.outstanding = []) {inflight_maximum : ℕ}
    (hmax : 0 < inflight_maximum) {delivered : List (StoreTable × ℕ)}
    (hdelivered : ∀ x ∈ up.acknowledged, x ∈ delivered) :
    DeliveryInv ⟨up, MsgsOut.init inflight_maximum, [], [], delivered⟩ where
  protocol := h
  kept := Mqtt.kept_init inflight_maximum
  mids := ⟨rfl, fun _ hk => absurd hk List.not_mem_nil, fun _ hk => absurd hk List.not_mem_nil⟩
  generated_le := Nat.zero_le _
  unwritten := fun _ hk => absurd hk List.not_mem_nil
  window := fun _ => ⟨rfl, hmax⟩
  known := fun m _ hm => absurd hm (hnone m)
  underway := fun t m id _ hid => absurd (Known.marked t id hid) (hnone m)
  rows := fun _ hp => absurd (houtstanding ▸ hp) List.not_mem_nil
  delivered := hdelivered

theorem deliveryInv_init (db : Db) {inflight_maximum : ℕ} (hmax : 0 < inflight_maximum) :
    DeliveryInv (init db inflight_maximum) := by
  refine deliveryInv_session ?_ ?_ rfl hmax (fun x hx => absurd hx List.not_mem_nil)
  · exact MidProtocol.protocolInv_reconnect (MidProtocol.protocolInv_init db) fun _ => 0
  · exact not_known_reset rfl (fun t ids m hne => by cases hne) (fun t m hne => by cases hne) rfl
      rfl rfl rfl

theorem DeliveryInv.fades {s : Delivery} (h : DeliveryInv s) {up : MidProtocol.State}
    (hfades : Fades s.up up) (hprotocol : ProtocolInv up) : DeliveryInv { s with up := up } where
  protocol := hprotocol
  kept := h.kept
  mids := h.mids
  generated_le := h.generated_le
  unwritten := h.unwritten
  window := fun hclient => h.window (hfades.client hclient)
  known := fun m hm hknown => h.known m hm (hfades.known m hm hknown)
  underway := by
    intro t m id hm hid
    change (∃ p ∈ up.outstanding, p.mid = m) ∨ (t, id) ∈ up.acknowledged
    rw [hfades.outstanding, hfades.acknowledged]
    exact h.underway t m id hm (hfades.marked t m id hm hid)
  rows := by
    intro p hp
    exact h.rows p (hfades.outstanding ▸ hp)
  delivered := by
    intro x hx
    exact h.delivered x (hfades.acknowledged ▸ hx)

/-- A step of the library alone. -/
theorem DeliveryInv.withLib {s : Delivery} (h : DeliveryInv s) {lib : MsgsOut}
    (hkept : Mqtt.Kept lib) (hmids : Mqtt.Mids lib) (hmore : s.lib.generated ≤ lib.generated)
    (hle : lib.generated ≤ 65535) {unwritten : List (ℕ × ℕ)}
    (hunwritten : ∀ k ∈ unwritten, k ∈ s.unwritten ∨
      k.2 = k.1 ∧ 0 < k.1 ∧ k.1 ≤ lib.generated)
    (hwindow : s.up.client ≠ .idle → lib.connected = false ∧ 0 < lib.inflight_quota) :
    DeliveryInv { s with lib := lib, unwritten := unwritten } where
  protocol := h.protocol
  kept := hkept
  mids := hmids
  generated_le := hle
  unwritten := by
    intro k hk
    rcases hunwritten k hk with hold | hnew
    · obtain ⟨hmid, hpos, hold⟩ := h.unwritten k hold
      exact ⟨hmid, hpos, hold.trans hmore⟩
    · exact hnew
  window := hwindow
  known := fun m hm hknown => (h.known m hm hknown).trans (by exact_mod_cast hmore)
  underway := h.underway
  rows := h.rows
  delivered := h.delivered

/-! ## Calls of the library -/

/-- What was never answered is not older than the session. -/
theorem DeliveryInv.recent {s : Delivery} (h : DeliveryInv s) (hclean : s.lib.generated < 65535) :
    ∀ m ∈ s.lib.inflight, s.lib.generated + 1 < m.serial + 65535 := by
  intro m hm
  have hpos : 0 < m.serial := (h.mids.key_eq m.key (List.mem_map_of_mem hm)).2
  omega

theorem deliveryInv_afterPublish {s : Delivery} (h : DeliveryInv s)
    (hclean : s.lib.generated < 65535) (topic payload : List UInt8) (qos : ℕ) (retain : Bool) :
    DeliveryInv (s.afterPublish (s.lib.publish topic payload qos retain).1 qos
      (s.lib.publish topic payload qos retain).2) := by
  have hkept := Mqtt.kept_step h.kept (.publish topic payload qos retain) rfl
  have hmids := Mqtt.mids_step h.mids (.publish topic payload qos retain) (h.recent hclean) rfl
  have hle := Mqtt.generated_publish_le s.lib topic payload qos retain
  have hmore : s.lib.generated ≤ (s.lib.publish topic payload qos retain).1.generated := by
    rcases Mqtt.publish_cases s.lib topic payload qos retain with hsame | hquiet | ⟨m, -, hquiet⟩
    · rw [hsame]
    · exact (Nat.le_succ _).trans (Nat.le_of_eq hquiet.generated.symm)
    · exact (Nat.le_succ _).trans (Nat.le_of_eq hquiet.generated.symm)
  refine h.withLib hkept hmids hmore (hle.trans hclean) ?_ ?_
  · intro k hk
    split_ifs at hk with hqos
    · rcases List.mem_append.1 hk with hold | hnew
      · exact Or.inl hold
      · -- the mid of the new message is its number
        right
        rw [List.mem_singleton.1 hnew]
        have hgenerated := Mqtt.publish_generated hqos.2
        refine ⟨?_, by omega, Nat.le_refl _⟩
        exact hmids.last_mid.trans (Mqtt.midOf_of_le (hle.trans hclean))
    · exact Or.inl hk
  · intro hclient
    obtain ⟨hdown, hquota⟩ := h.window hclient
    obtain ⟨-, hdown', hquota'⟩ := Mqtt.publish_down hdown hquota topic payload qos retain
    exact ⟨hdown', hquota'.symm ▸ hquota⟩

/-- A step that neither takes a mid nor adds to the packets. -/
theorem deliveryInv_quiet {s : Delivery} (h : DeliveryInv s) (hidle : s.up.client = .idle)
    {l : MsgLabel} {lib : MsgsOut} (hstep : msgNext s.lib l = some lib)
    (hquiet : Mqtt.Quiet s.lib lib) {unwritten : List (ℕ × ℕ)}
    (hunwritten : ∀ k ∈ unwritten, k ∈ s.unwritten) :
    DeliveryInv { s with lib := lib, unwritten := unwritten } := by
  have hgenerated := hquiet.generated
  refine h.withLib (Mqtt.kept_step h.kept l hstep) (h.mids.quiet hquiet) hgenerated.ge
    (hgenerated.le.trans h.generated_le) (fun k hk => Or.inl (hunwritten k hk))
    fun hclient => absurd hidle hclient

/-! ## Mids assigned and answered -/

/-- No mid that the client knows is as high as the next one. -/
theorem DeliveryInv.freshFor {up : MidProtocol.State} {n : ℕ} (hidle : up.client = .idle)
    (hknown : ∀ m, 0 < m → Known up m → m ≤ (n : ℤ)) (t : StoreTable) :
    FreshFor up t ((n + 1 : ℕ) : ℤ) := by
  have hnot : ¬Known up ((n + 1 : ℕ) : ℤ) := by
    intro h
    have hle := hknown _ (by omega) h
    omega
  refine ⟨?_, fun h => hnot (.set h), fun p hp hmid => hnot (.outstanding p hp hmid),
    fun h => hnot (.pending _ h rfl)⟩
  exact fun t' id hid => absurd (.marked t' id (liveMarked_of_marked hidle hid)) hnot

theorem known_publish {up : MidProtocol.State} {t : StoreTable} {ids : List ℕ} {m : ℤ}
    {p : MidProtocol.Publication} (hmid : p.mid = m) {m' : ℤ}
    (h : Known { up.setUploader t (.published ids m) with
      outstanding := p :: up.outstanding } m') : Known up m' ∨ m' = m := by
  have hup : ∀ t' v, Function.update up.uploader t (.published ids m) t' = v →
      up.uploader t' = v ∨ v = .published ids m := by
    intro t' v h
    by_cases ht : t' = t
    · subst ht
      rw [Function.update_self] at h
      exact Or.inr h.symm
    · rw [Function.update_of_ne ht] at h
      exact Or.inl h
  cases h with
  | marked t' id h =>
    rcases h with hdb | ⟨ids', hpub, hid⟩
    · exact Or.inl (.marked t' id (Or.inl hdb))
    · rcases hup t' _ hpub with hold | heq
      · exact Or.inl (.published t' ids' hold)
      · cases heq
        exact Or.inr rfl
  | published t' ids' h =>
    rcases hup t' _ h with hold | heq
    · exact Or.inl (.published t' ids' hold)
    · cases heq
      exact Or.inr rfl
  | tagged t' h =>
    rcases hup t' _ h with hold | heq
    · exact Or.inl (.tagged t' hold)
    · cases heq
  | outstanding p' h hmid' =>
    rcases List.mem_cons.1 h with rfl | hold
    · exact Or.inr (hmid'.symm.trans hmid)
    · exact Or.inl (.outstanding p' hold hmid')
  | set h => exact Or.inl (.set h)
  | pending e h hmid' => exact Or.inl (.pending e h hmid')

/-- The uploader's part of a publish, after the library's. -/
theorem deliveryInv_publish {s : Delivery} (h : DeliveryInv s) (hidle : s.up.client = .idle)
    {n : ℕ} (hgenerated : s.lib.generated = n + 1)
    (hknown : ∀ m, 0 < m → Known s.up m → m ≤ (n : ℤ)) {t : StoreTable} {ids : List ℕ}
    (hselected : s.up.uploader t = .selected ids) {up : MidProtocol.State}
    (hstep : MidProtocol.next s.up (.publish t ((n + 1 : ℕ) : ℤ)) = some up) :
    DeliveryInv { s with
      up := up, published := (n + 1, ids.map fun id => (t, id)) :: s.published } := by
  have hfresh : MidFresh s.up (.publish t ((n + 1 : ℕ) : ℤ)) :=
    fun _ => DeliveryInv.freshFor hidle hknown t
  have hprotocol := MidProtocol.protocolInv_step s.up _ up h.protocol hfresh hstep
  have hpos : ¬((n + 1 : ℕ) : ℤ) ≤ 0 := by omega
  simp only [MidProtocol.next, hselected, if_neg hpos] at hstep
  cases hstep
  have hsplit := @known_publish s.up t ids ((n + 1 : ℕ) : ℤ)
    ⟨((n + 1 : ℕ) : ℤ), ids.map fun id => (t, id)⟩ rfl
  constructor
  · exact hprotocol
  · exact h.kept
  · exact h.mids
  · exact h.generated_le
  · exact h.unwritten
  · exact fun hclient => absurd hidle hclient
  · intro m hm hm'
    change m ≤ (s.lib.generated : ℤ)
    rw [hgenerated]
    rcases hsplit hm' with hold | rfl
    · have hle := hknown m hm hold
      omega
    · exact le_refl _
  · intro t' m id hm hid
    rcases hsplit (.marked t' id hid) with hold | rfl
    · -- an earlier mid: its row was marked before
      have hne : m ≠ ((n + 1 : ℕ) : ℤ) := by
        have hle := hknown m hm hold
        omega
      have hbefore : LiveMarked s.up t' m id := by
        rcases hid with hdb | ⟨ids', hpub, hid⟩
        · exact Or.inl hdb
        · change Function.update s.up.uploader t _ t' = _ at hpub
          by_cases ht : t' = t
          · subst ht
            rw [Function.update_self] at hpub
            cases hpub
            exact absurd rfl hne
          · rw [Function.update_of_ne ht] at hpub
            exact Or.inr ⟨ids', hpub, hid⟩
      rcases h.underway t' m id hm hbefore with ⟨p, hp, hmid⟩ | hack
      · exact Or.inl ⟨p, List.mem_cons_of_mem _ hp, hmid⟩
      · exact Or.inr hack
    · exact Or.inl ⟨_, List.mem_cons_self, rfl⟩
  · intro p hp
    rcases List.mem_cons.1 hp with rfl | hold
    · exact ⟨n + 1, rfl, List.mem_cons_self⟩
    · obtain ⟨n', hmid, hin⟩ := h.rows p hold
      exact ⟨n', hmid, List.mem_cons_of_mem _ hin⟩
  · exact h.delivered

/-- An acknowledgement adds no mid but its own. -/
theorem known_puback {up : MidProtocol.State} {p : MidProtocol.Publication}
    {ps : List MidProtocol.Publication} (hps : ∀ p' ∈ ps, p' ∈ up.outstanding)
    {acknowledged : List (StoreTable × ℕ)} {nFails : ℕ} {m : ℤ}
    (h : Known { up with
      handler := (up.handler.processPublishedMid p.mid nFails).2
      outstanding := ps
      acknowledged := acknowledged } m) : Known up m ∨ m = p.mid := by
  cases h with
  | marked t id h => exact Or.inl (.marked t id h)
  | published t ids h => exact Or.inl (.published t ids h)
  | tagged t h => exact Or.inl (.tagged t h)
  | outstanding p' h hmid => exact Or.inl (.outstanding p' (hps p' h) hmid)
  | set h =>
    rcases MidHandler.mem_set_of_processPublishedMid h with hold | heq
    · exact Or.inl (.set hold)
    · exact Or.inr heq
  | pending e h hmid =>
    rcases h with hqueued | hworker
    · rcases MidHandler.mem_queued_of_processPublishedMid hqueued with hold | heq
      · exact Or.inl (.pending e (Or.inl hold) hmid)
      · exact Or.inr (hmid.symm.trans heq)
    · exact Or.inl (.pending e (Or.inr hworker) hmid)

/-- The answer to a message that an uploader published. -/
theorem deliveryInv_puback {s : Delivery} (h : DeliveryInv s) (hidle : s.up.client = .idle)
    {k : ℕ × ℕ} (hmid : k.2 = k.1) {p : MidProtocol.Publication} (hp : p ∈ s.up.outstanding)
    (hpmid : p.mid = (k.2 : ℤ)) {nFails : ℕ} {up : MidProtocol.State}
    (hstep : MidProtocol.next s.up (.puback p nFails) = some up) :
    DeliveryInv { s with up := up, delivered := s.rowsOf k.1 ++ s.delivered } := by
  have hprotocol := MidProtocol.protocolInv_step s.up (.puback p nFails) up h.protocol trivial hstep
  simp only [MidProtocol.next, if_pos (And.intro hp hidle)] at hstep
  cases hstep
  constructor
  · exact hprotocol
  · exact h.kept
  · exact h.mids
  · exact h.generated_le
  · exact h.unwritten
  · exact fun hclient => absurd hidle hclient
  · intro m hm hm'
    rcases known_puback (fun p' hp' => List.mem_of_mem_erase hp') hm' with hold | rfl
    · exact h.known m hm hold
    · exact h.known p.mid hm (.outstanding p hp rfl)
  · intro t m id hm hid
    have hbefore : LiveMarked s.up t m id := hid
    by_cases hpm : m = p.mid
    · -- whatever carries the mid is acknowledged now
      right
      subst hpm
      rcases h.protocol.outstanding_covered p hp t id (marked_of_liveMarked hbefore) with hack | hin
      · exact List.mem_append_right _ hack
      · exact List.mem_append_left _ hin
    · rcases h.underway t m id hm hbefore with ⟨p', hp', hmid'⟩ | hack
      · have hne : p' ≠ p := fun heq => hpm (hmid' ▸ heq ▸ rfl)
        exact Or.inl ⟨p', (List.mem_erase_of_ne hne).2 hp', hmid'⟩
      · exact Or.inr (List.mem_append_right _ hack)
  · exact fun p' hp' => h.rows p' (List.mem_of_mem_erase hp')
  · intro x hx
    rcases List.mem_append.1 hx with hin | hack
    · -- the publication was recorded under its mid, which is the number of the message
      obtain ⟨n, hn, hrecorded⟩ := h.rows p hp
      have hnk : n = k.1 := by omega
      refine List.mem_append_left _ (List.mem_flatMap.2 ⟨(n, p.rows), ?_, hin⟩)
      exact List.mem_filter.2 ⟨hrecorded, decide_eq_true hnk⟩
    · exact List.mem_append_right _ (h.delivered x hack)

/-- The answer to another message. -/
theorem deliveryInv_pubackOther {s : Delivery} (h : DeliveryInv s) (hidle : s.up.client = .idle)
    {k : ℕ × ℕ} (hmid : k.2 = k.1) (hpos : 0 < k.1) (hle : k.1 ≤ s.lib.generated)
    (hnone : ∀ p ∈ s.up.outstanding, p.mid ≠ (k.2 : ℤ)) {nFails : ℕ} {up : MidProtocol.State}
    (hstep : ((MidProtocol.next s.up (.publishOther k.2)).bind fun up =>
      MidProtocol.next up (.puback ⟨k.2, []⟩ nFails)) = some up) :
    DeliveryInv { s with up := up, delivered := s.rowsOf k.1 ++ s.delivered } := by
  obtain ⟨up1, hother, hstep⟩ := Option.bind_eq_some_iff.1 hstep
  -- no row that is not acknowledged carries the mid
  have hfresh : MidFresh s.up (.publishOther k.2) := by
    intro t id hid
    have hmidpos : (0 : ℤ) < k.2 := by omega
    rcases h.underway t k.2 id hmidpos (liveMarked_of_marked hidle hid) with ⟨p, hp, hpmid⟩ | hack
    · exact absurd hpmid (hnone p hp)
    · exact hack
  have hprotocol1 := MidProtocol.protocolInv_step s.up _ up1 h.protocol hfresh hother
  have hprotocol := MidProtocol.protocolInv_step up1 (.puback ⟨k.2, []⟩ nFails) up hprotocol1
    trivial hstep
  have hmidpos : (0 : ℤ) < k.2 := by omega
  simp only [MidProtocol.next, if_pos hmidpos] at hother
  cases hother
  simp only [MidProtocol.next, if_pos (And.intro List.mem_cons_self hidle),
    List.erase_cons_head, List.nil_append] at hstep
  cases hstep
  constructor
  · exact hprotocol
  · exact h.kept
  · exact h.mids
  · exact h.generated_le
  · exact h.unwritten
  · exact fun hclient => absurd hidle hclient
  · intro m hm hm'
    have hsplit := @known_puback s.up ⟨k.2, []⟩ s.up.outstanding (fun p' hp' => hp') _ _ m hm'
    rcases hsplit with hold | rfl
    · exact h.known m hm hold
    · change (k.2 : ℤ) ≤ (s.lib.generated : ℤ)
      omega
  · exact h.underway
  · exact h.rows
  · exact fun x hx => List.mem_append_right _ (h.delivered x hx)

theorem deliveryInv_onPublish {s s' : Delivery} (h : DeliveryInv s) (hidle : s.up.client = .idle)
    {k : ℕ × ℕ} (hmid : k.2 = k.1) (hpos : 0 < k.1) (hle : k.1 ≤ s.lib.generated)
    {nFails : ℤ → ℕ} (hstep : onPublish nFails s k = some s') : DeliveryInv s' := by
  obtain ⟨up, hup, rfl⟩ := Option.map_eq_some_iff.1 hstep
  unfold processPublished at hup
  split at hup
  · rename_i p hfind
    have hpmid : p.mid = (k.2 : ℤ) := by simpa using List.find?_some hfind
    exact deliveryInv_puback h hidle hmid (List.mem_of_find?_eq_some hfind) hpmid hup
  · rename_i hfind
    refine deliveryInv_pubackOther h hidle hmid hpos hle ?_ hup
    intro p hp hpmid
    exact absurd (decide_eq_true hpmid) (by simpa using List.find?_eq_none.1 hfind p hp)

theorem client_onPublish {s s' : Delivery} {k : ℕ × ℕ} {nFails : ℤ → ℕ}
    (hstep : onPublish nFails s k = some s') : s'.up.client = s.up.client := by
  obtain ⟨up, hup, rfl⟩ := Option.map_eq_some_iff.1 hstep
  unfold processPublished at hup
  split at hup
  · simp only [MidProtocol.next] at hup
    split at hup <;> cases hup
    rfl
  · obtain ⟨up1, hother, hstep⟩ := Option.bind_eq_some_iff.1 hup
    simp only [MidProtocol.next] at hother hstep
    split at hother <;> cases hother
    split at hstep <;> cases hstep
    rfl

/-- The messages that a packet answered: each was in the queue. -/
theorem keys_of_answered {s : Delivery} (h : DeliveryInv s) {p : Packet} {lib : MsgsOut}
    (hstep : msgNext s.lib (.packet p) = some lib) :
    ∀ k ∈ lib.completed.drop s.lib.completed.length,
      k.2 = k.1 ∧ 0 < k.1 ∧ k.1 ≤ lib.generated := by
  have hkept := Mqtt.kept_step h.kept (.packet p) hstep
  have hanswers := Mqtt.answers_packet hstep
  obtain ⟨new, hnew⟩ := hanswers.completed
  intro k hk
  rw [← hnew, List.drop_left] at hk
  have hqueued : k ∈ s.lib.inflight.map Mqtt.MessageAll.key := by
    have hperm := (hkept.perm.trans (hanswers.accepted ▸ h.kept.perm.symm))
    rw [← hnew, List.append_assoc] at hperm
    have hrest := (List.perm_append_left_iff s.lib.completed).1 hperm
    exact hrest.subset (List.mem_append_left _ hk)
  obtain ⟨hmid, hpos⟩ := h.mids.key_eq k hqueued
  have hle : k.1 ≤ lib.generated :=
    hkept.generated k
      (hkept.perm.subset (List.mem_append_left _ (hnew ▸ List.mem_append_right _ hk)))
  have hle' : k.1 ≤ s.lib.generated := h.kept.generated k (h.kept.order.subset hqueued)
  exact ⟨hmid.trans (Mqtt.midOf_of_le (hle'.trans h.generated_le)), hpos, hle⟩

/-! ## Steps -/

theorem midFresh_own {up : MidProtocol.State} {l : MidProtocol.Label} (hown : Own l = true) :
    MidFresh up l := by
  cases l <;> trivial

/-- The uploader gives up. -/
theorem deliveryInv_publishFails {s : Delivery} (h : DeliveryInv s) {t : StoreTable}
    {up : MidProtocol.State} (hstep : MidProtocol.next s.up (.publishFails t) = some up) :
    DeliveryInv { s with up := up } := by
  have hprotocol := MidProtocol.protocolInv_step s.up (.publishFails t) up h.protocol trivial hstep
  simp only [MidProtocol.next] at hstep
  split at hstep <;> cases hstep
  exact h.fades (fades_setUploader (fun _ _ hne => by cases hne) fun _ hne => by cases hne)
    hprotocol

theorem deliveryInv_publishLabel {s s' : Delivery} (h : DeliveryInv s)
    (hclean : s.lib.generated < 65535) {t : StoreTable} {topic payload : List UInt8} {qos : ℕ}
    {retain : Bool} (hstep : next s (.publish t topic payload qos retain) = some s') :
    DeliveryInv s' := by
  have hlib := deliveryInv_afterPublish h hclean topic payload qos retain
  simp only [next] at hstep
  split at hstep
  · rename_i ids hselected
    split_ifs at hstep with hrc
    · obtain ⟨up, hup, rfl⟩ := Option.map_eq_some_iff.1 hstep
      have hidle : s.up.client = .idle := by
        by_contra hclient
        obtain ⟨hdown, hquota⟩ := h.window hclient
        exact (Mqtt.publish_down hdown hquota topic payload qos retain).1 hrc
      have hgenerated := Mqtt.publish_generated hrc
      -- the mid is the number of the call
      have hmid : (s.lib.publish topic payload qos retain).1.last_mid = s.lib.generated + 1 :=
        (hlib.mids.last_mid.trans (Mqtt.midOf_of_le hlib.generated_le)).trans hgenerated
      rw [hmid] at hup
      have hresult := deliveryInv_publish hlib hidle hgenerated h.known hselected hup
      rw [← hgenerated] at hresult
      exact hresult
    · obtain ⟨up, hup, rfl⟩ := Option.map_eq_some_iff.1 hstep
      exact deliveryInv_publishFails hlib hup
  · cases hstep

theorem deliveryInv_packet {s s' : Delivery} (h : DeliveryInv s) {p : Packet} {nFails : ℤ → ℕ}
    (hstep : next s (.packet p nFails) = some s') : DeliveryInv s' := by
  simp only [next] at hstep
  split_ifs at hstep with hidle
  obtain ⟨lib, hlib, hrun⟩ := Option.bind_eq_some_iff.1 hstep
  have hquiet : Mqtt.Quiet s.lib lib := by
    rcases Mqtt.quiet_step (.packet p) hlib with hquiet | ⟨hne, -⟩ | ⟨_, _, _, _, hne, -⟩
    · exact hquiet
    · cases hne
    · cases hne
  have hkeys := keys_of_answered h hlib
  -- each call of `on_publish` keeps the invariant and leaves the library alone
  have hinv : DeliveryInv s' ∧ s'.lib = lib ∧ s'.up.client = .idle := by
    refine Lib.exec_inv (P := fun s => DeliveryInv s ∧ s.lib = lib ∧ s.up.client = .idle) ?_
      _ { s with lib := lib } s' ?_ (Lib.along_of_forall_mem (fun k hk _ => hkeys k hk) _) hrun
    · rintro s1 k s2 ⟨h1, hlib1, hidle1⟩ ⟨hmid, hpos, hle⟩ hstep1
      refine ⟨deliveryInv_onPublish h1 hidle1 hmid hpos (hlib1 ▸ hle) hstep1, ?_,
        (client_onPublish hstep1).trans hidle1⟩
      obtain ⟨up, -, rfl⟩ := Option.map_eq_some_iff.1 hstep1
      exact hlib1
    · exact ⟨deliveryInv_quiet h hidle hlib hquiet fun k hk => hk, rfl, hidle⟩
  exact hinv.1

theorem deliveryInv_written {s s' : Delivery} (h : DeliveryInv s) {nFails : ℤ → ℕ}
    (hstep : next s (.written nFails) = some s') : DeliveryInv s' := by
  simp only [next] at hstep
  split at hstep
  · rename_i k rest hwaiting
    split_ifs at hstep with hguard
    obtain ⟨hmid, hpos, hle⟩ := h.unwritten k (hwaiting ▸ List.mem_cons_self)
    have hrest : DeliveryInv { s with unwritten := rest } :=
      h.withLib h.kept h.mids (Nat.le_refl _) h.generated_le
        (fun k' hk' => Or.inl (hwaiting ▸ List.mem_cons_of_mem k hk')) h.window
    exact deliveryInv_onPublish hrest hguard.1 hmid hpos hle hstep
  · cases hstep

theorem deliveryInv_initClient {s s' : Delivery} (h : DeliveryInv s) {inflight_maximum : ℕ}
    {nFails : ℤ → ℕ} (hclean : Clean s (.initClient inflight_maximum nFails))
    (hstep : next s (.initClient inflight_maximum nFails) = some s') : DeliveryInv s' := by
  obtain ⟨hqueued, hworker, huploader⟩ := hclean
  simp only [next] at hstep
  split_ifs at hstep with hmax
  obtain ⟨up, hup, rfl⟩ := Option.map_eq_some_iff.1 hstep
  have hprotocol := MidProtocol.protocolInv_step s.up (.reconnect nFails) up h.protocol trivial hup
  simp only [MidProtocol.next] at hup
  split_ifs at hup
  cases hup
  refine deliveryInv_session hprotocol ?_ rfl hmax h.delivered
  exact not_known_reset rfl (fun t => (huploader t).1) (fun t => (huploader t).2) rfl rfl hqueued
    hworker

theorem deliveryInv_step (s : Delivery) (l : Label) (s' : Delivery) (h : DeliveryInv s)
    (hclean : Clean s l) (hstep : next s l = some s') : DeliveryInv s' := by
  cases l with
  | own l =>
    simp only [next] at hstep
    split_ifs at hstep with hown
    obtain ⟨up, hup, rfl⟩ := Option.map_eq_some_iff.1 hstep
    exact h.fades (fades_own hown hup)
      (MidProtocol.protocolInv_step s.up l up h.protocol (midFresh_own hown) hup)
  | publish t topic payload qos retain => exact deliveryInv_publishLabel h hclean hstep
  | notConnected t =>
    obtain ⟨up, hup, rfl⟩ := Option.map_eq_some_iff.1 hstep
    exact deliveryInv_publishFails h hup
  | publishOther topic payload qos retain =>
    cases hstep
    exact deliveryInv_afterPublish h hclean topic payload qos retain
  | otherMid =>
    cases hstep
    exact h.withLib (h.kept.same (Mqtt.same_midGenerate s.lib))
      (Mqtt.mids_midGenerate h.mids (h.recent hclean)) (Nat.le_succ _) hclean
      (fun k hk => Or.inl hk) h.window
  | packet p nFails => exact deliveryInv_packet h hstep
  | written nFails => exact deliveryInv_written h hstep
  | lost =>
    simp only [next] at hstep
    split_ifs at hstep with hidle
    cases hstep
    exact deliveryInv_quiet (l := .lost) h hidle rfl ⟨rfl, rfl, rfl, List.Sublist.refl _⟩
      fun k hk => hk
  | reconnectReset =>
    simp only [next] at hstep
    split_ifs at hstep with hidle
    cases hstep
    refine deliveryInv_quiet (l := .reconnectReset) h hidle rfl ?_
      fun k hk => absurd hk List.not_mem_nil
    have hreset := Mqtt.quiet_reconnectReset s.lib false
    exact ⟨hreset.maximum, hreset.last_mid, hreset.generated, hreset.keys⟩
  | socketConnect connected =>
    simp only [next] at hstep
    split_ifs at hstep with hidle
    obtain ⟨lib, hlib, rfl⟩ := Option.map_eq_some_iff.1 hstep
    refine deliveryInv_quiet h hidle hlib ?_ fun k hk => hk
    simp only [msgNext] at hlib
    split_ifs at hlib
    cases hlib
    exact ⟨rfl, rfl, rfl, List.Sublist.refl _⟩
  | initClient inflight_maximum nFails => exact deliveryInv_initClient h hclean hstep

/-! ## Runs -/

theorem deliveryInv_run {db : Db} {inflight_maximum : ℕ} (hmax : 0 < inflight_maximum)
    {ls : List Label} {s : Delivery} (hclean : Lib.Along next Clean (init db inflight_maximum) ls)
    (hrun : Lib.exec next (init db inflight_maximum) ls = some s) : DeliveryInv s :=
  Lib.exec_inv deliveryInv_step ls _ s (deliveryInv_init db hmax) hclean hrun

/-- In every run in which the sessions take fewer than 65536 mids each and start cleanly: the
worker deletes or marks only rows of messages that the broker answered (with QoS 0: that were
written), whatever else the library does with its mids. -/
theorem cleared_delivered_run {db : Db} {inflight_maximum : ℕ} (hmax : 0 < inflight_maximum)
    {ls : List Label} {s : Delivery} (hclean : Lib.Along next Clean (init db inflight_maximum) ls)
    (hrun : Lib.exec next (init db inflight_maximum) ls = some s) :
    ∀ x ∈ s.up.cleared, x ∈ s.delivered := by
  have hinv := deliveryInv_run hmax hclean hrun
  intro x hx
  exact hinv.delivered x (hinv.protocol.safe x hx)

/-- A row from its insertion to its deletion, over a connection that is lost and made anew
before the broker answers. -/
def resentRun : List Label :=
  [.own .resetAlerts, .own .resetEvents, .socketConnect true, .packet ⟨0x20, [0, 0]⟩ fun _ => 0,
    .own (.insert .eventStore MidProtocol.streamRow), .own (.select .eventStore [1]),
    .publish .eventStore [97] [1] 1 false, .own (.updateMid .eventStore true),
    .own (.setMidTable .eventStore 0), .lost, .reconnectReset, .socketConnect true,
    .packet ⟨0x20, [0, 0]⟩ fun _ => 0, .packet ⟨0x40, [0, 1]⟩ fun _ => 0,
    .own .workerTake, .own (.workerDelete false)]

theorem cleared_delivered_resent :
    ∃ s, Lib.exec next (init (fun _ => Lib.Table.empty) 20) resentRun = some s ∧
      s.up.cleared = [(.eventStore, 1)] ∧ ∀ x ∈ s.up.cleared, x ∈ s.delivered := by
  have hrun : ∃ s, Lib.exec next (init (fun _ => Lib.Table.empty) 20) resentRun = some s ∧
      s.up.cleared = [(.eventStore, 1)] := ⟨_, rfl, rfl⟩
  obtain ⟨s, hrun, hcleared⟩ := hrun
  refine ⟨s, hrun, hcleared, cleared_delivered_run (by decide) ?_ hrun⟩
  iterate 6 refine Lib.along_cons rfl trivial ?_
  -- the publish takes the first mid of the session
  refine Lib.along_cons rfl (show 0 < 65535 by decide) ?_
  iterate 9 refine Lib.along_cons rfl trivial ?_
  exact Lib.along_nil _ _ _

end MidDelivery

end DeviceClient
