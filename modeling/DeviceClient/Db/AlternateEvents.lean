import DeviceClient.Db.GranularityReduction
import DeviceClient.Lib.Sessions
import Mathlib.Algebra.Ring.Parity

/-!
# Every second event of a session

`PopulateEventsList` reads the rows of an event id and the session markers page
by page, and counts in one variable across the pages.

* `sessionRows`: what a single pass without a page limit would read.
* `populateEventsList_eq`: the pages together are that pass.
* `mem_setDeleteEvntIds`: the ids picked are those of the rows at an even
  position of their session.
* `AlternateSelection`: the selection as a whole.
-/

namespace DeviceClient

namespace GranularityReduction

/-- A session marker. -/
def isSessionMarker (r : GranularRow) : Bool := decide (r.eventId = clientLaunchedEvent)

/-- The rows of the event id and the markers in the closed time range above the
start id, in id order. -/
def sessionRows (t : GranularTable) (rstrEId : String) (rllStartTime rllEndTime : ℤ)
    (rllLastGRedId : ℕ) : List GranularRow :=
  (t.rows.filter (sessionSelection rstrEId rllStartTime rllEndTime)).filter fun r =>
    decide (rllLastGRedId < r.id)

/-- The variables before the first page. -/
def AlternateEvents.init (rllLastGRedId : ℕ) : AlternateEvents where
  llStartId := rllLastGRedId
  unEvntIndex := 0
  setDeleteEvntIds := []
  setDeleteFileList := []

/-- One turn of the loop of `PopulateEventsList`. -/
def alternateBody (h : GRHandler) (nLimit : ℕ) (t : GranularTable) (rstrEId : String)
    (rllStartTime rllEndTime : ℤ) : AlternateEvents → AlternateEvents ⊕ AlternateEvents :=
  Lib.pageBody GranularRow.key nLimit
    (t.rows.filter (sessionSelection rstrEId rllStartTime rllEndTime))
    AlternateEvents.llStartId fun page s => page.foldl (AlternateEvents.visit h) s

/-- `PopulateEventsList` picks the event's rows at an even position of their
session, as a pass without a page limit does, and never the first one; the loop
ends. -/
structure AlternateSelection (h : GRHandler) (nLimit : ℕ) (t : GranularTable) (rstrEId : String)
    (rllStartTime rllEndTime : ℤ) (rllLastGRedId : ℕ) : Prop where
  terminates : Lib.Returns (alternateBody h nLimit t rstrEId rllStartTime rllEndTime)
    (.init rllLastGRedId)
    (populateEventsList h nLimit t rstrEId rllStartTime rllEndTime rllLastGRedId)
  selected : ∀ id : ℤ,
    id ∈ (populateEventsList h nLimit t rstrEId rllStartTime rllEndTime
      rllLastGRedId).setDeleteEvntIds ↔
    ∃ r k, (r.id : ℤ) = id ∧ r.eventId = rstrEId ∧ Even k ∧
      Lib.StandsAt isSessionMarker
        (sessionRows t rstrEId rllStartTime rllEndTime rllLastGRedId) r k
  firstKept : ∀ r,
    Lib.StandsAt isSessionMarker
      (sessionRows t rstrEId rllStartTime rllEndTime rllLastGRedId) r 1 →
    (r.id : ℤ) ∉ (populateEventsList h nLimit t rstrEId rllStartTime rllEndTime
      rllLastGRedId).setDeleteEvntIds
  unpaged : populateEventsList h nLimit t rstrEId rllStartTime rllEndTime rllLastGRedId =
    populateEventsList h 0 t rstrEId rllStartTime rllEndTime rllLastGRedId

section Visit

variable {h : GRHandler}

theorem AlternateEvents.llStartId_visit (s : AlternateEvents) (r : GranularRow) :
    (s.visit h r).llStartId = r.key := by
  unfold AlternateEvents.visit
  split
  · rfl
  · split <;> rfl

theorem AlternateEvents.visit_marker (s : AlternateEvents) {r : GranularRow}
    (hr : isSessionMarker r = true) :
    s.visit h r = { s with llStartId := r.id, unEvntIndex := 0 } := by
  unfold AlternateEvents.visit
  exact if_pos (of_decide_eq_true hr)

/-- Any other row is counted, and picked if the count is even. -/
theorem AlternateEvents.visit_event (s : AlternateEvents) {r : GranularRow}
    (hr : isSessionMarker r = false) :
    (s.visit h r).unEvntIndex = s.unEvntIndex + 1 ∧
      ∀ id, id ∈ (s.visit h r).setDeleteEvntIds ↔
        id ∈ s.setDeleteEvntIds ∨ (r.id : ℤ) = id ∧ Even (s.unEvntIndex + 1) := by
  unfold AlternateEvents.visit
  rw [if_neg (of_decide_eq_false hr)]
  split
  · rename_i heven
    refine ⟨rfl, fun id => ?_⟩
    rw [List.mem_append, List.mem_singleton, eq_comm (a := id)]
    simp [Nat.even_iff.2 heven]
  · rename_i hodd
    refine ⟨rfl, fun id => ?_⟩
    simp [Nat.even_iff, hodd]

/-- One pass over rows: the count stands at the position in the session, and the
ids are those of the rows at an even position. -/
theorem AlternateEvents.foldl_visit (startId : ℕ) (rows : List GranularRow) :
    (rows.foldl (AlternateEvents.visit h) (.init startId)).unEvntIndex =
        (Lib.sinceMarker isSessionMarker rows).length ∧
      ∀ id, id ∈ (rows.foldl (AlternateEvents.visit h) (.init startId)).setDeleteEvntIds ↔
        ∃ r k, (r.id : ℤ) = id ∧ isSessionMarker r = false ∧ Even k ∧
          Lib.StandsAt isSessionMarker rows r k := by
  induction rows using List.reverseRecOn with
  | nil =>
    refine ⟨rfl, fun id => ⟨fun hid => absurd hid List.not_mem_nil, ?_⟩⟩
    rintro ⟨r, k, _, _, _, hat⟩
    exact absurd hat.mem List.not_mem_nil
  | append_singleton rows x ih =>
    rcases ih with ⟨hindex, hids⟩
    rw [List.foldl_append, List.foldl_cons, List.foldl_nil]
    cases hx : isSessionMarker x with
    | true =>
      rw [AlternateEvents.visit_marker _ hx, Lib.sinceMarker_concat_marker rows hx]
      refine ⟨rfl, fun id => (hids id).trans ?_⟩
      constructor
      · rintro ⟨r, k, hid, hr, hk, hat⟩
        exact ⟨r, k, hid, hr, hk, Lib.standsAt_concat.2 (Or.inl hat)⟩
      · rintro ⟨r, k, hid, hr, hk, hat⟩
        rcases Lib.standsAt_concat.1 hat with hat | ⟨rfl, _⟩
        · exact ⟨r, k, hid, hr, hk, hat⟩
        · rw [hx] at hr
          exact absurd hr (by decide)
    | false =>
      rcases AlternateEvents.visit_event (h := h)
        (rows.foldl (AlternateEvents.visit h) (.init startId)) hx with ⟨hcount, hpick⟩
      refine ⟨?_, fun id => ?_⟩
      · rw [hcount, hindex, Lib.sinceMarker_concat rows hx, List.length_append,
          List.length_singleton]
      · rw [hpick, hids, hindex]
        constructor
        · rintro (⟨r, k, hid, hr, hk, hat⟩ | ⟨hid, heven⟩)
          · exact ⟨r, k, hid, hr, hk, Lib.standsAt_concat.2 (Or.inl hat)⟩
          · exact ⟨x, _, hid, hx, heven, Lib.standsAt_concat.2 (Or.inr ⟨rfl, rfl⟩)⟩
        · rintro ⟨r, k, hid, hr, hk, hat⟩
          rcases Lib.standsAt_concat.1 hat with hat | ⟨rfl, rfl⟩
          · exact Or.inl ⟨r, k, hid, hr, hk, hat⟩
          · exact Or.inr ⟨hid, hk⟩

end Visit

section Selection

variable (h : GRHandler) (nLimit : ℕ) (t : GranularTable) (rstrEId : String)
  (rllStartTime rllEndTime : ℤ) (rllLastGRedId : ℕ)

theorem returns_populateEventsList :
    Lib.Returns (alternateBody h nLimit t rstrEId rllStartTime rllEndTime)
      (.init rllLastGRedId)
      (populateEventsList h nLimit t rstrEId rllStartTime rllEndTime rllLastGRedId) :=
  Lib.returns_readPages (t.sorted.filter _)
    (Lib.exists_mem_of_foldl AlternateEvents.llStartId_visit) (.init rllLastGRedId)

/-- The pages together are one pass over the rows. -/
theorem populateEventsList_eq :
    populateEventsList h nLimit t rstrEId rllStartTime rllEndTime rllLastGRedId =
      (sessionRows t rstrEId rllStartTime rllEndTime rllLastGRedId).foldl
        (AlternateEvents.visit h) (.init rllLastGRedId) :=
  Lib.returns_foldl (t.sorted.filter _) AlternateEvents.llStartId_visit
    (returns_populateEventsList h nLimit t rstrEId rllStartTime rllEndTime rllLastGRedId)

variable {h nLimit t rstrEId rllStartTime rllEndTime rllLastGRedId}

theorem mem_sessionRows {r : GranularRow} :
    r ∈ sessionRows t rstrEId rllStartTime rllEndTime rllLastGRedId ↔
      r ∈ t.rows ∧ inClosedTimeRange rllStartTime rllEndTime r = true ∧
        (r.eventId = rstrEId ∨ isSessionMarker r = true) ∧ rllLastGRedId < r.id := by
  unfold sessionRows sessionSelection isSessionMarker
  rw [List.mem_filter, List.mem_filter]
  simp only [Bool.and_eq_true, Bool.or_eq_true, decide_eq_true_eq]
  tauto

theorem nodup_sessionRows :
    (sessionRows t rstrEId rllStartTime rllEndTime rllLastGRedId).Nodup :=
  ((t.sorted.filter _).filter _).imp fun hlt heq => absurd (heq ▸ hlt) (lt_irrefl _)

/-- The rows of the event id at an even position are no markers; if the event id
is the marker's own, every row stands at position one. -/
theorem mem_setDeleteEvntIds {id : ℤ} :
    id ∈ (populateEventsList h nLimit t rstrEId rllStartTime rllEndTime
      rllLastGRedId).setDeleteEvntIds ↔
    ∃ r k, (r.id : ℤ) = id ∧ r.eventId = rstrEId ∧ Even k ∧
      Lib.StandsAt isSessionMarker
        (sessionRows t rstrEId rllStartTime rllEndTime rllLastGRedId) r k := by
  rw [populateEventsList_eq, (AlternateEvents.foldl_visit rllLastGRedId _).2]
  constructor
  · rintro ⟨r, k, hid, hr, hk, hat⟩
    rcases (mem_sessionRows.1 hat.mem).2.2.1 with he | hmark
    · exact ⟨r, k, hid, he, hk, hat⟩
    · rw [hr] at hmark
      exact absurd hmark (by decide)
  · rintro ⟨r, k, hid, he, hk, hat⟩
    refine ⟨r, k, hid, ?_, hk, hat⟩
    rw [← Bool.not_eq_true]
    intro hmark
    have hall : ∀ x ∈ sessionRows t rstrEId rllStartTime rllEndTime rllLastGRedId,
        isSessionMarker x = true := by
      intro x hx
      rcases (mem_sessionRows.1 hx).2.2.1 with hxe | hxmark
      · unfold isSessionMarker at hmark ⊢
        rwa [hxe, ← he]
      · exact hxmark
    rcases hat with ⟨before, after, hsplit, rfl⟩
    rw [Lib.sinceMarker_eq_nil fun x hx => hall x (by
      rw [hsplit]
      exact List.mem_append_left _ hx)] at hk
    exact absurd hk (by decide)

end Selection

end GranularityReduction

end DeviceClient
