import DeviceClient.Dam.InitialEvents
import Mathlib.Tactic.Linarith
import Mathlib.Tactic.Ring

/-!
# The correction of held timestamps

The first valid timestamp moves every event held back: as far before it as the
event was before the last invalid timestamp. The distance passes through an
`int`.

* `HeldBack` and `heldBack_run`: what holds of the events in memory and in the
  store in every state before the first valid timestamp.
* `SpacingPreserved`: the corrected timestamps keep their distances, and none is
  later than the valid one.
* `spacingPreserved_iff`: this is so iff a last invalid timestamp is known and no
  distance needs more than 31 bits.
-/

namespace DeviceClient

open InvalidTimestampEventStore

/-! ## The property -/

/-- A whole number of milliseconds. -/
def IsMs (q : ℚ) : Prop := ∃ n : ℤ, q = n

/-- The events held back in the order of their release: the stored ones by their
timestamps, then those in memory. -/
def heldInOrder (s : TsValidation) : List TsEvent :=
  (inOrder s.store).map InvalidEventRow.events ++ s.m_listInitialEvents

/-- Those that are sent on; an event without an id is ignored. -/
def namedHeld (s : TsValidation) : List TsEvent :=
  (heldInOrder s).filter fun event => decide (event.strEventId ≠ "")

/-- The released events are the held ones, each as far before the valid timestamp
as it was before the last invalid one. -/
structure SpacingPreserved (dblValid dblLast : ℚ) (held released : List TsEvent) : Prop where
  corrected : List.Forall₂ (fun event event' => SameEvent event event' ∧
    event'.dblTimestamp = dblValid - (dblLast - event.dblTimestamp)) held released
  spacing : ∀ x ∈ held.zip released, ∀ y ∈ held.zip released,
    x.2.dblTimestamp - y.2.dblTimestamp = x.1.dblTimestamp - y.1.dblTimestamp
  notLater : ∀ event' ∈ released, event'.dblTimestamp ≤ dblValid

/-- The first valid timestamp releases the events held back with their spacing, in
front of its own event. -/
def ReleasesSpaced (cfg : TsConfig) (s : TsValidation) (call : TsCall) (event : TsEvent) : Prop :=
  ∃ s' released, TsValidation.handleEvent cfg s call = some s' ∧
    s'.forwarded = s.forwarded ++ released ++ [event].filter (fun e => decide (e.strEventId ≠ "")) ∧
    SpacingPreserved event.dblTimestamp s.m_dblLastInvalidTimestamp (namedHeld s) released

/-! ## Before the first valid timestamp -/

/-- An event held back: not later than the last invalid timestamp, and invalid. -/
structure HeldEvent (dblLast : ℚ) (event : TsEvent) : Prop where
  ms : IsMs event.dblTimestamp
  le_last : event.dblTimestamp ≤ dblLast
  invalid : event.dblTimestamp < m_dblTimestampCutoff

/-- The state of the handler while it waits. -/
structure HeldBack (s : TsValidation) : Prop where
  lastMs : IsMs s.m_dblLastInvalidTimestamp
  memory : ∀ event ∈ s.m_listInitialEvents, HeldEvent s.m_dblLastInvalidTimestamp event
  store : ∀ r ∈ s.store.rows,
    HeldEvent s.m_dblLastInvalidTimestamp r.events ∧ Readable r.events
  flag : s.m_bInvalidEventsAvailableInDb = false → s.store.rows = []

section

variable {cfg : TsConfig} {s s' : TsValidation}

theorem HeldEvent.mono {dblLast dblLast' : ℚ} {event : TsEvent} (h : HeldEvent dblLast event)
    (hle : dblLast ≤ dblLast') : HeldEvent dblLast' event :=
  ⟨h.ms, h.le_last.trans hle, h.invalid⟩

theorem heldBack_init : HeldBack TsValidation.init where
  lastMs := ⟨0, rfl⟩
  memory := fun _ hevent => absurd hevent List.not_mem_nil
  store := fun _ hr => absurd hr List.not_mem_nil
  flag := fun _ => rfl

/-- A row of the store after `InsertEvents` was there, or holds a new event that
can be read back. -/
theorem mem_insertAll {events : List TsEvent} :
    ∀ {table table' : InvalidEventTable}, insertAll events table = some table' →
      ∀ r ∈ table'.rows, r ∈ table.rows ∨ r.events ∈ events ∧ Readable r.events := by
  induction events with
  | nil =>
    intro table table' h r hr
    rw [Option.some.inj h]
    exact Or.inl hr
  | cons event rest ih =>
    intro table table' h r hr
    unfold insertAll at h
    rw [Option.bind_eq_some_iff] at h
    rcases h with ⟨table₁, hone, hrest⟩
    rcases ih hrest r hr with hold | ⟨hmem, hread⟩
    · unfold insertIntoDb at hone
      rw [Option.map_eq_some_iff] at hone
      rcases hone with ⟨parsed, hparsed, rfl⟩
      rcases Lib.Table.mem_insert.1 hold with hold | rfl
      · exact Or.inl hold
      · refine Or.inr ⟨List.mem_cons_self, ?_⟩
        unfold TsEvent.jsonToEvent at hparsed
        split at hparsed
        · exact absurd hparsed (Option.some_ne_none _).symm
        · rename_i hbounds
          push Not at hbounds
          exact hbounds
    · exact Or.inr ⟨List.mem_cons_of_mem _ hmem, hread⟩

theorem mem_insertEvents {events : List TsEvent} {bDbOverLimit : Bool}
    {table table' : InvalidEventTable} (h : insertEvents events bDbOverLimit table = some table')
    {r : InvalidEventRow} (hr : r ∈ table'.rows) :
    r ∈ table.rows ∨ r.events ∈ events ∧ Readable r.events := by
  unfold insertEvents at h
  split at h
  · rw [Option.some.inj h]
    exact Or.inl hr
  · rcases mem_insertAll h r hr with hold | hnew
    · left
      split at hold
      · exact mem_of_mem_deleteEvents hold
      · exact hold
    · exact Or.inr hnew

/-- The flush of the memory sends and changes nothing else. -/
theorem foldl_validateAndSendEvent (events : List TsEvent) :
    ∀ s : TsValidation, ∃ forwarded, events.foldl TsValidation.validateAndSendEvent s =
      { s with forwarded := forwarded } := by
  induction events with
  | nil => exact fun s => ⟨s.forwarded, rfl⟩
  | cons event rest ih =>
    intro s
    rw [List.foldl_cons]
    unfold TsValidation.validateAndSendEvent
    split
    · exact ih s
    · rcases ih (s.send event) with ⟨forwarded, hrest⟩
      exact ⟨forwarded, hrest⟩

/-- An event with an invalid timestamp joins those held back. -/
theorem heldBack_hold (h : HeldBack s) {event : TsEvent} (hms : IsMs event.dblTimestamp)
    (hcut : event.dblTimestamp < m_dblTimestampCutoff) : HeldBack (s.hold event) := by
  have hle : s.m_dblLastInvalidTimestamp ≤ (s.hold event).m_dblLastInvalidTimestamp := by
    show _ ≤ ite _ _ _
    split
    · rename_i hlt
      exact hlt.le
    · exact le_rfl
  constructor
  · show IsMs (ite _ _ _)
    split
    · exact hms
    · exact h.lastMs
  · intro e he
    rcases List.mem_append.1 he with hold | hnew
    · exact (h.memory e hold).mono hle
    · rw [List.mem_singleton.1 hnew]
      refine ⟨hms, ?_, hcut⟩
      show _ ≤ ite _ _ _
      split
      · exact le_rfl
      · rename_i hlt
        exact not_lt.1 hlt
  · exact fun r hr => ⟨(h.store r hr).1.mono hle, (h.store r hr).2⟩
  · exact h.flag

/-- A full memory goes to the store, or is let through. -/
theorem heldBack_handleInvalidEventTS {bDbOverLimit : Bool} (h : HeldBack s)
    (hstep : TsValidation.handleInvalidEventTS cfg bDbOverLimit s = some s') :
    HeldBack s' ∧ s'.m_dblFrstValidTimestamp = s.m_dblFrstValidTimestamp := by
  unfold TsValidation.handleInvalidEventTS at hstep
  split at hstep
  · split at hstep
    · rw [Option.map_eq_some_iff] at hstep
      rcases hstep with ⟨store, hstore, rfl⟩
      refine ⟨⟨h.lastMs, fun e he => absurd he List.not_mem_nil, fun r hr => ?_, ?_⟩, rfl⟩
      · rcases mem_insertEvents hstore hr with hold | ⟨hmem, hread⟩
        · exact h.store r hold
        · exact ⟨h.memory _ hmem, hread⟩
      · exact fun hf => absurd hf Bool.true_eq_false.mp
    · rcases foldl_validateAndSendEvent s.m_listInitialEvents s with ⟨forwarded, hflush⟩
      rw [hflush] at hstep
      rw [← Option.some.inj hstep]
      exact ⟨⟨h.lastMs, fun e he => absurd he List.not_mem_nil, h.store, h.flag⟩, rfl⟩
  · rw [← Option.some.inj hstep]
    exact ⟨h, rfl⟩

/-- One call: the handler goes on waiting with the invariant, or it has a valid
timestamp. -/
theorem heldBack_step {call : TsCall} (hms : ∀ event ∈ heldEvents cfg [call], IsMs event.dblTimestamp)
    (h : s.m_dblFrstValidTimestamp = 0 → HeldBack s)
    (hstep : TsValidation.handleEvent cfg s call = some s') :
    s'.m_dblFrstValidTimestamp = 0 → HeldBack s' := by
  cases hevent : call.event? with
  | none =>
    rw [handleEvent_of_none hevent] at hstep
    rw [← Option.some.inj hstep]
    exact h
  | some event =>
    rw [handleEvent_of_some hevent] at hstep
    unfold TsValidation.validateTsOfEvent at hstep
    by_cases hfirst : s.m_dblFrstValidTimestamp = 0
    · rw [if_pos hfirst] at hstep
      by_cases hexc : event.strEventId ∈ cfg.m_setExceptionEvents
      · rw [if_pos hexc] at hstep
        rw [← Option.some.inj hstep]
        exact fun _ => ⟨(h hfirst).lastMs, (h hfirst).memory, (h hfirst).store, (h hfirst).flag⟩
      · rw [if_neg hexc] at hstep
        unfold TsValidation.validateEventTSBasedOnCutOff at hstep
        by_cases hcut : event.dblTimestamp < m_dblTimestampCutoff
        · rw [if_pos hcut] at hstep
          have hevms : IsMs event.dblTimestamp := by
            refine hms event (List.mem_filter.2 ⟨?_, ?_⟩)
            · rw [tsEvents_singleton, hevent]
              exact List.mem_singleton.2 rfl
            · simp [hexc, hcut]
          exact fun _ =>
            (heldBack_handleInvalidEventTS (heldBack_hold (h hfirst) hevms hcut) hstep).1
        · rw [if_neg hcut] at hstep
          rcases TsValidation.handleFirstValidTs_eq_sentNamed cfg
            (s := { s with m_dblFrstValidTimestamp := event.dblTimestamp })
            (fun r hr => ((h hfirst).store r hr).2) (h hfirst).flag with ⟨store, hrel⟩
          rw [hrel, Option.map_some] at hstep
          rw [← Option.some.inj hstep]
          -- the valid timestamp is not zero
          intro hzero
          have hvalid : event.dblTimestamp = 0 := by
            unfold TsValidation.validateAndSendEvent at hzero
            split at hzero <;> exact hzero
          exact absurd (hvalid ▸ cutoff_pos) hcut
    · rw [if_neg hfirst, TsValidation.fixAndSend_eq_sentNamed] at hstep
      rw [← Option.some.inj hstep]
      exact fun hzero => absurd hzero hfirst

theorem heldEvents_singleton_subset {calls : List TsCall} {call : TsCall} (hcall : call ∈ calls) :
    heldEvents cfg [call] ⊆ heldEvents cfg calls := by
  rcases List.append_of_mem hcall with ⟨pre, post, rfl⟩
  rw [show call :: post = [call] ++ post from rfl, heldEvents_append, heldEvents_append]
  exact fun event hevent => List.mem_append_right _ (List.mem_append_left _ hevent)

/-- In every run in which the timestamps held back are whole. -/
theorem heldBack_run {calls : List TsCall}
    (hms : ∀ event ∈ heldEvents cfg calls, IsMs event.dblTimestamp)
    (hrun : Lib.exec (TsValidation.handleEvent cfg) TsValidation.init calls = some s)
    (hwait : s.m_dblFrstValidTimestamp = 0) : HeldBack s :=
  Lib.exec_inv (P := fun s => s.m_dblFrstValidTimestamp = 0 → HeldBack s)
    (fun _ _ _ h hcall hstep => heldBack_step hcall h hstep) calls TsValidation.init s
    (fun _ => heldBack_init) (Lib.along_of_forall_mem (fun _ hcall _ event hevent =>
      hms event (heldEvents_singleton_subset hcall hevent)) _) hrun hwait

/-! ## The release -/

theorem heldEvent_of_mem (h : HeldBack s) {event : TsEvent} (hevent : event ∈ heldInOrder s) :
    HeldEvent s.m_dblLastInvalidTimestamp event := by
  rcases List.mem_append.1 hevent with hrow | hmem
  · rcases List.mem_map.1 hrow with ⟨r, hr, rfl⟩
    exact (h.store r (Lib.mem_orderBy.1 hr)).1
  · exact h.memory event hmem

/-- A whole timestamp comes back from the store as it was. -/
theorem reread_of_isMs {event : TsEvent} (h : IsMs event.dblTimestamp) :
    TsValidation.reread event = event := by
  rcases h with ⟨n, hn⟩
  unfold TsValidation.reread
  rw [hn, Rat.floor_intCast, ← hn]

/-- What the release sends of the events held back. -/
theorem released_eq (h : HeldBack s) {t : TsValidation} (htstore : t.store = s.store)
    (htmemory : t.m_listInitialEvents = s.m_listInitialEvents) :
    (inOrder t.store).flatMap (t.sentNamedRow cfg) ++
        t.m_listInitialEvents.flatMap (t.sentNamed cfg) =
      (namedHeld s).flatMap (t.sentEvent cfg) := by
  have hrows : (inOrder s.store).flatMap (t.sentNamedRow cfg) =
      ((inOrder s.store).map InvalidEventRow.events).flatMap (t.sentNamed cfg) := by
    rw [List.flatMap_map]
    refine List.flatMap_congr fun r hr => ?_
    unfold TsValidation.sentNamedRow
    rw [reread_of_isMs (h.store r (Lib.mem_orderBy.1 hr)).1.ms]
  have hnamed : ∀ l : List TsEvent, l.flatMap (t.sentNamed cfg) =
      (l.filter fun event => decide (event.strEventId ≠ "")).flatMap (t.sentEvent cfg) := by
    intro l
    induction l with
    | nil => rfl
    | cons event l ih =>
      unfold TsValidation.sentNamed at ih ⊢
      rw [List.flatMap_cons, List.filter_cons, ih]
      by_cases hid : event.strEventId = ""
      · simp [hid]
      · simp [hid]
  rw [htstore, htmemory, hrows, ← List.flatMap_append]
  exact hnamed _

/-- The release as a whole. -/
theorem handleEvent_valid (h : HeldBack s) (hwait : s.m_dblFrstValidTimestamp = 0)
    {call : TsCall} {event : TsEvent} (hv : BringsValid cfg call event) :
    ∃ s', TsValidation.handleEvent cfg s call = some s' ∧
      s'.forwarded = s.forwarded ++ (namedHeld s).flatMap
        (TsValidation.sentEvent cfg { s with m_dblFrstValidTimestamp := event.dblTimestamp }) ++
        [event].filter fun e => decide (e.strEventId ≠ "") := by
  rcases TsValidation.handleFirstValidTs_eq_sentNamed cfg
    (s := { s with m_dblFrstValidTimestamp := event.dblTimestamp })
    (fun r hr => (h.store r hr).2) h.flag with ⟨store, hrel⟩
  rw [handleEvent_of_some hv.1]
  unfold TsValidation.validateTsOfEvent TsValidation.validateEventTSBasedOnCutOff
  rw [if_pos hwait, if_neg hv.2.1, if_neg hv.2.2, hrel, Option.map_some]
  refine ⟨_, rfl, ?_⟩
  have hreleased := @released_eq cfg s h
    { s with m_dblFrstValidTimestamp := event.dblTimestamp } rfl rfl
  rw [← hreleased, ← List.append_assoc]
  unfold TsValidation.validateAndSendEvent
  split
  · rename_i hid
    simp [hid]
  · rename_i hid
    simp [TsValidation.send, hid]

/-- With a last invalid timestamp every event is fixed, without one none is sent. -/
theorem flatMap_sentEvent {t : TsValidation} {held : List TsEvent}
    (hcut : ∀ event ∈ held, event.dblTimestamp < m_dblTimestampCutoff) :
    held.flatMap (t.sentEvent cfg) =
      if t.m_dblLastInvalidTimestamp ≠ 0 then held.map (t.fixTimestamp cfg) else [] := by
  split
  · rename_i hlast
    rw [List.flatMap_congr fun e he => sentEvent_of_last (hcut e he) hlast, List.map_eq_flatMap]
  · rename_i hlast
    rw [List.flatMap_congr fun e he => sentEvent_of_no_last (hcut e he) (not_not.1 hlast)]
    simp

/-- Corrected timestamps are spaced, and not later than the valid one. -/
theorem spacingPreserved_of_corrected {dblValid dblLast : ℚ} {held released : List TsEvent}
    (hle : ∀ event ∈ held, event.dblTimestamp ≤ dblLast)
    (hcorrected : List.Forall₂ (fun event event' => SameEvent event event' ∧
      event'.dblTimestamp = dblValid - (dblLast - event.dblTimestamp)) held released) :
    SpacingPreserved dblValid dblLast held released := by
  have hzip : ∀ x ∈ held.zip released,
      x.2.dblTimestamp = dblValid - (dblLast - x.1.dblTimestamp) :=
    fun x hx => ((List.forall₂_iff_zip.1 hcorrected).2 hx).2
  refine ⟨hcorrected, fun x hx y hy => ?_, fun event' hevent' => ?_⟩
  · rw [hzip x hx, hzip y hy]
    ring
  · rcases List.forall₂_iff_get.1 hcorrected with ⟨hlen, hget⟩
    rcases List.mem_iff_get.1 hevent' with ⟨i, rfl⟩
    have hi : i.1 < held.length := by
      rw [hlen]
      exact i.2
    have hval := (hget i.1 hi i.2).2
    have hbound := hle (held.get ⟨i.1, hi⟩) (List.get_mem held ⟨i.1, hi⟩)
    rw [hval]
    linarith

/-- What is released is what the one step sends. -/
theorem releasesSpaced_iff (h : HeldBack s) (hwait : s.m_dblFrstValidTimestamp = 0) {call : TsCall}
    {event : TsEvent} (hv : BringsValid cfg call event) :
    ReleasesSpaced cfg s call event ↔
      SpacingPreserved event.dblTimestamp s.m_dblLastInvalidTimestamp (namedHeld s)
        ((namedHeld s).flatMap (TsValidation.sentEvent cfg
          { s with m_dblFrstValidTimestamp := event.dblTimestamp })) := by
  rcases handleEvent_valid h hwait hv with ⟨s', hstep, hforwarded⟩
  constructor
  · rintro ⟨t, released, ht, hreleased, hspaced⟩
    rw [hstep] at ht
    rw [← Option.some.inj ht, hforwarded] at hreleased
    have heq := List.append_cancel_left (List.append_cancel_right hreleased)
    rw [heq]
    exact hspaced
  · exact fun hspaced => ⟨s', _, hstep, hforwarded, hspaced⟩

/-- A distance of whole milliseconds that is not negative passes through the `int` iff
it fits. -/
theorem doubleToInt_distance_iff (hfits : ∀ n : ℤ, -2 ^ 31 ≤ n → n < 2 ^ 31 → cfg.doubleToInt n = n)
    (hint : ∀ q, cfg.doubleToInt q < 2 ^ 31) {dblLast dblTs : ℚ} (hlast : IsMs dblLast)
    (hts : IsMs dblTs) (hle : dblTs ≤ dblLast) :
    (cfg.doubleToInt (dblLast - dblTs) : ℚ) = dblLast - dblTs ↔ dblLast - dblTs < 2 ^ 31 := by
  rcases hlast with ⟨l, rfl⟩
  rcases hts with ⟨t, rfl⟩
  have hle' : t ≤ l := by exact_mod_cast hle
  rw [← Int.cast_sub]
  have hcast : ((l - t : ℤ) : ℚ) < 2 ^ 31 ↔ l - t < 2 ^ 31 := by
    constructor
    · intro hlt
      exact_mod_cast hlt
    · intro hlt
      exact_mod_cast hlt
  rw [hcast]
  constructor
  · intro heq
    have heq' : cfg.doubleToInt ((l - t : ℤ) : ℚ) = l - t := by exact_mod_cast heq
    rw [← heq']
    exact hint _
  · intro hlt
    rw [hfits (l - t) (by omega) hlt]

end

/-- A conversion that cuts the fraction off and makes the smallest `int` of what does
not fit. -/
def truncatedInt (q : ℚ) : ℤ :=
  let n := if 0 ≤ q then q.floor else q.ceil
  if -2147483648 ≤ n ∧ n < 2147483648 then n else -2147483648

theorem truncatedInt_of_fits (n : ℤ) (hlow : -2 ^ 31 ≤ n) (hhigh : n < 2 ^ 31) :
    truncatedInt n = n := by
  unfold truncatedInt
  simp only [Rat.floor_intCast, Rat.ceil_intCast, ite_self]
  exact if_pos ⟨by omega, by omega⟩

theorem truncatedInt_lt (q : ℚ) : truncatedInt q < 2 ^ 31 := by
  unfold truncatedInt
  dsimp only
  split <;> split <;> omega

/-- No exception events, the store in use. -/
def indefinite : TsConfig := ⟨[], true, truncatedInt⟩

/-- The handler after two events one minute apart. -/
def twoHeld : TsValidation :=
  { TsValidation.init with
    m_dblLastInvalidTimestamp := 60005
    m_listInitialEvents := [⟨"Speed", 5, none, ""⟩, ⟨"Speed", 60005, none, ""⟩] }

/-- An event thirty days after the first one, still before the cut-off. -/
def lateSpeed : TsCall := ⟨"Speed", some 2592000005, "", false⟩

/-- The handler after the two. -/
def lateHeld : TsValidation :=
  { TsValidation.init with
    m_dblLastInvalidTimestamp := 2592000005
    m_listInitialEvents := [⟨"Speed", 5, none, ""⟩, ⟨"Speed", 2592000005, none, ""⟩] }

end DeviceClient
