import DeviceClient.Dam.TimestampValidation
import Mathlib.Data.List.Forall2
import Mathlib.Data.List.Induction
import Mathlib.Data.List.Perm.Subperm
import Mathlib.Tactic.NormNum

/-!
# The initial events

What becomes of the events that are held back before the first valid timestamp:
the complete groups of `m_nInitialEventQueueLimit + 1` go to the store, the rest
stays in memory, and the first valid timestamp releases all of them, the stored
ones in the order of their timestamps.

Two kinds of timestamps break this. The last invalid timestamp starts at zero,
which also stands for "none", so events without a positive timestamp are thrown
out; and an event with a negative one cannot be stored.

* `Holding` and `holding_run`: the state before the first valid timestamp.
* `noInitialEventLost_iff`: no initial event is lost iff both are absent.
-/

namespace DeviceClient

open InvalidTimestampEventStore

/-! ## The property -/

/-- The event of a call, if it has a timestamp. -/
def TsCall.event? (call : TsCall) : Option TsEvent := call.timestamp.map call.event

/-- The events received, in order. -/
def tsEvents (calls : List TsCall) : List TsEvent := calls.filterMap TsCall.event?

section

variable (cfg : TsConfig)

/-- The events that pass without validation. -/
def passedEvents (calls : List TsCall) : List TsEvent :=
  (tsEvents calls).filter fun event => decide (event.strEventId ∈ cfg.m_setExceptionEvents)

/-- The events that are held back. -/
def heldEvents (calls : List TsCall) : List TsEvent :=
  (tsEvents calls).filter fun event =>
    !decide (event.strEventId ∈ cfg.m_setExceptionEvents) &&
      decide (event.dblTimestamp < m_dblTimestampCutoff)

/-- The call brings a valid timestamp. -/
def BringsValid (call : TsCall) (event : TsEvent) : Prop :=
  call.event? = some event ∧ event.strEventId ∉ cfg.m_setExceptionEvents ∧
    ¬ event.dblTimestamp < m_dblTimestampCutoff

/-- `v` is the first call with a valid timestamp. -/
structure FirstValid (calls pre : List TsCall) (v : TsCall) (event : TsEvent)
    (post : List TsCall) : Prop where
  split : calls = pre ++ v :: post
  valid : BringsValid cfg v event
  before : ∀ call ∈ pre, ∀ event, ¬ BringsValid cfg call event

/-- How many of `n` held events have gone to the store: the complete groups. -/
def spilledCount (n : ℕ) : ℕ :=
  n / (m_nInitialEventQueueLimit + 1) * (m_nInitialEventQueueLimit + 1)

/-- The same event, with its timestamp moved. -/
def SameEvent (event event' : TsEvent) : Prop :=
  event'.strEventId = event.strEventId ∧ event'.strData = event.strData

/-- `released` has every event of `held` once: first the stored ones by their
timestamps, then the others as they came. -/
def ReleasedOnce (held released : List TsEvent) : Prop :=
  ∃ stored : List TsEvent, stored.Perm (held.take (spilledCount held.length)) ∧
    stored.Pairwise (fun e e' => e.dblTimestamp.floor ≤ e'.dblTimestamp.floor) ∧
    List.Forall₂ SameEvent (stored ++ held.drop (spilledCount held.length)) released

/-- When the first valid timestamp arrives, the events held back are released in
front of it, once each; and nothing is ever forwarded twice. -/
structure NoInitialEventLost (calls : List TsCall) : Prop where
  released : ∀ pre v event post, FirstValid cfg calls pre v event post →
    ∃ s released, Lib.exec (TsValidation.handleEvent cfg) TsValidation.init (pre ++ [v]) = some s ∧
      ReleasedOnce (heldEvents cfg pre) released ∧
      s.forwarded = passedEvents cfg pre ++ released ++ [event]
  once : ∀ s, Lib.exec (TsValidation.handleEvent cfg) TsValidation.init calls = some s →
    ∃ origins : List TsEvent, origins.Subperm (tsEvents calls) ∧
      List.Forall₂ SameEvent origins s.forwarded

/-- No event that goes to the store has a negative timestamp. -/
def Storable (held : List TsEvent) : Prop :=
  ∀ event ∈ held.take (spilledCount held.length), 0 ≤ event.dblTimestamp

/-- What the handler needs to release the events that it holds back. -/
def Releasable (held : List TsEvent) : Prop :=
  Storable held ∧ (held = [] ∨ ∃ event ∈ held, 0 < event.dblTimestamp)

/-! ## Before the first valid timestamp -/

/-- The last invalid timestamp, zero if none is positive. -/
def lastInvalid (held : List TsEvent) : ℚ :=
  held.foldl (fun last event => if last < event.dblTimestamp then event.dblTimestamp else last) 0

/-- The state of the handler while it waits. -/
structure Holding (pre : List TsCall) (s : TsValidation) : Prop where
  first : s.m_dblFrstValidTimestamp = 0
  last : s.m_dblLastInvalidTimestamp = lastInvalid (heldEvents cfg pre)
  memory : s.m_listInitialEvents =
    (heldEvents cfg pre).drop (spilledCount (heldEvents cfg pre).length)
  flag : s.m_bInvalidEventsAvailableInDb = decide (0 < spilledCount (heldEvents cfg pre).length)
  store : Holds s.store ((heldEvents cfg pre).take (spilledCount (heldEvents cfg pre).length))
  forwarded : s.forwarded = passedEvents cfg pre

end

section

variable {cfg : TsConfig} {pre : List TsCall} {s : TsValidation}

theorem spilledCount_le (n : ℕ) : spilledCount n ≤ n := Nat.div_mul_le_self _ _

/-- A further event completes a group, or joins the ones in memory. -/
theorem spilledCount_succ (n : ℕ) :
    (m_nInitialEventQueueLimit < n - spilledCount n + 1 ∧ spilledCount (n + 1) = n + 1) ∨
    (n - spilledCount n + 1 ≤ m_nInitialEventQueueLimit ∧ spilledCount (n + 1) = spilledCount n) := by
  unfold spilledCount m_nInitialEventQueueLimit
  omega

theorem lastInvalid_append (held : List TsEvent) (event : TsEvent) :
    lastInvalid (held ++ [event]) =
      if lastInvalid held < event.dblTimestamp then event.dblTimestamp else lastInvalid held := by
  unfold lastInvalid
  rw [List.foldl_append]
  rfl

/-- The sentinel is told apart from a timestamp iff some timestamp is positive. -/
theorem lastInvalid_ne_zero_iff (held : List TsEvent) :
    0 ≤ lastInvalid held ∧
      (lastInvalid held ≠ 0 ↔ ∃ event ∈ held, 0 < event.dblTimestamp) := by
  induction held using List.reverseRecOn with
  | nil =>
    refine ⟨le_refl _, fun h => absurd rfl h, ?_⟩
    rintro ⟨event, hevent, _⟩
    cases hevent
  | append_singleton held event ih =>
    rcases ih with ⟨hnonneg, hiff⟩
    rw [lastInvalid_append]
    have hmem : (∃ e ∈ held ++ [event], 0 < e.dblTimestamp) ↔
        (∃ e ∈ held, 0 < e.dblTimestamp) ∨ 0 < event.dblTimestamp := by
      simp [or_and_right, exists_or]
    rw [hmem, ← hiff]
    by_cases hlt : lastInvalid held < event.dblTimestamp
    · have hpos : 0 < event.dblTimestamp := lt_of_le_of_lt hnonneg hlt
      rw [if_pos hlt]
      exact ⟨le_of_lt hpos, fun _ => Or.inr hpos, fun _ => ne_of_gt hpos⟩
    · rw [if_neg hlt]
      refine ⟨hnonneg, Or.inl, ?_⟩
      rintro (hne | hpos)
      · exact hne
      · exact ne_of_gt (lt_of_lt_of_le hpos (not_lt.1 hlt))

theorem tsEvents_append (pre post : List TsCall) :
    tsEvents (pre ++ post) = tsEvents pre ++ tsEvents post := List.filterMap_append

theorem tsEvents_singleton (call : TsCall) : tsEvents [call] = call.event?.toList := by
  unfold tsEvents
  cases h : call.event? <;> simp [h]

theorem heldEvents_append (pre post : List TsCall) :
    heldEvents cfg (pre ++ post) = heldEvents cfg pre ++ heldEvents cfg post := by
  unfold heldEvents
  rw [tsEvents_append, List.filter_append]

theorem passedEvents_append (pre post : List TsCall) :
    passedEvents cfg (pre ++ post) = passedEvents cfg pre ++ passedEvents cfg post := by
  unfold passedEvents
  rw [tsEvents_append, List.filter_append]

@[simp] theorem heldEvents_nil (cfg : TsConfig) : heldEvents cfg [] = [] := rfl

@[simp] theorem spilledCount_zero : spilledCount 0 = 0 := Nat.le_zero.1 (spilledCount_le 0)

theorem holding_init (cfg : TsConfig) : Holding cfg [] TsValidation.init where
  first := rfl
  last := rfl
  memory := by simp [TsValidation.init]
  flag := by simp [TsValidation.init]
  store := by simpa [TsValidation.init] using holds_empty
  forwarded := rfl

/-- With the same events held, only what has been forwarded may differ. -/
theorem Holding.transfer (h : Holding cfg pre s) {calls : List TsCall} (forwarded : List TsEvent)
    (hheld : heldEvents cfg calls = heldEvents cfg pre)
    (hforward : forwarded = passedEvents cfg calls) :
    Holding cfg calls { s with forwarded := forwarded } := by
  constructor
  · exact h.first
  · rw [hheld]
    exact h.last
  · rw [hheld]
    exact h.memory
  · rw [hheld]
    exact h.flag
  · rw [hheld]
    exact h.store
  · exact hforward

/-- Nothing held, nothing passed: the state stays. -/
theorem Holding.frame (h : Holding cfg pre s) {call : TsCall}
    (hheld : heldEvents cfg [call] = []) (hpassed : passedEvents cfg [call] = []) :
    Holding cfg (pre ++ [call]) s := by
  refine h.transfer s.forwarded ?_ ?_
  · rw [heldEvents_append, hheld, List.append_nil]
  · rw [passedEvents_append, hpassed, List.append_nil]
    exact h.forwarded

theorem heldEvents_lt {event : TsEvent} (h : event ∈ heldEvents cfg pre) :
    event.dblTimestamp < m_dblTimestampCutoff := by
  have hboth := (Bool.and_eq_true _ _).mp (List.mem_filter.1 h).2
  exact of_decide_eq_true hboth.2

/-- An invalid timestamp that is not negative can be stored. -/
theorem readable_of_lt {event : TsEvent} (hneg : 0 ≤ event.dblTimestamp)
    (hcut : event.dblTimestamp < m_dblTimestampCutoff) : Readable event := by
  have hbound : m_dblTimestampCutoff ≤ 2 ^ 64 - 1 := by
    unfold m_dblTimestampCutoff
    norm_num
  exact ⟨hneg, le_trans (le_of_lt hcut) hbound⟩

/-- `HandleInvalidEventTS` leaves an incomplete group in memory. -/
theorem handleInvalidEventTS_of_le {t : TsValidation}
    (hle : t.m_listInitialEvents.length ≤ m_nInitialEventQueueLimit) :
    TsValidation.handleInvalidEventTS cfg false t = some t := by
  unfold TsValidation.handleInvalidEventTS
  rw [if_neg (by omega)]

/-- `HandleInvalidEventTS` stores a complete group. -/
theorem handleInvalidEventTS_of_lt (hstore : cfg.bStoreInvalidEvents = true) {t : TsValidation}
    (hlt : m_nInitialEventQueueLimit < t.m_listInitialEvents.length) :
    TsValidation.handleInvalidEventTS cfg false t =
      (insertEvents t.m_listInitialEvents false t.store).map fun store =>
        { t with
          m_bInvalidEventsAvailableInDb := true
          m_listInitialEvents := []
          store := store } := by
  unfold TsValidation.handleInvalidEventTS
  rw [if_pos hlt, if_pos hstore]

/-- The handler with the latest event in memory, before it looks at the size of the
group. `k` events are in the store. -/
structure Pending (cfg : TsConfig) (calls : List TsCall) (k : ℕ) (s : TsValidation) : Prop where
  first : s.m_dblFrstValidTimestamp = 0
  last : s.m_dblLastInvalidTimestamp = lastInvalid (heldEvents cfg calls)
  memory : s.m_listInitialEvents = (heldEvents cfg calls).drop k
  flag : s.m_bInvalidEventsAvailableInDb = decide (0 < k)
  store : Holds s.store ((heldEvents cfg calls).take k)
  forwarded : s.forwarded = passedEvents cfg calls

/-- An event that is held back goes to the end of the memory. -/
theorem Holding.hold (h : Holding cfg pre s) {call : TsCall} {event : TsEvent}
    (hheld : heldEvents cfg [call] = [event]) (hpassed : passedEvents cfg [call] = []) :
    Pending cfg (pre ++ [call]) (spilledCount (heldEvents cfg pre).length) (s.hold event) := by
  have hsplit : heldEvents cfg (pre ++ [call]) = heldEvents cfg pre ++ [event] := by
    rw [heldEvents_append, hheld]
  have hk := spilledCount_le (heldEvents cfg pre).length
  constructor
  · exact h.first
  · rw [hsplit, lastInvalid_append, ← h.last]
    rfl
  · rw [hsplit, List.drop_append_of_le_length hk, ← h.memory]
    rfl
  · exact h.flag
  · rw [hsplit, List.take_append_of_le_length hk]
    exact h.store
  · rw [passedEvents_append, hpassed, List.append_nil]
    exact h.forwarded

/-- An incomplete group stays in memory. -/
theorem Pending.stay {calls : List TsCall}
    (h : Pending cfg calls (spilledCount (heldEvents cfg calls).length) s) :
    Holding cfg calls s where
  first := h.first
  last := h.last
  memory := h.memory
  flag := h.flag
  store := h.store
  forwarded := h.forwarded

/-- A complete group goes to the store, unless a timestamp in it is negative. -/
theorem Pending.spill {calls : List TsCall} {k : ℕ} (h : Pending cfg calls k s)
    (hpos : 0 < (heldEvents cfg calls).length)
    (hcount : spilledCount (heldEvents cfg calls).length = (heldEvents cfg calls).length) :
    (Storable (heldEvents cfg calls) →
      ∃ table, insertEvents s.m_listInitialEvents false s.store = some table ∧
        Holding cfg calls
          { s with
            m_bInvalidEventsAvailableInDb := true
            m_listInitialEvents := []
            store := table }) ∧
    (¬ Storable (heldEvents cfg calls) →
      insertEvents s.m_listInitialEvents false s.store = none) := by
  have hall : (heldEvents cfg calls).take (spilledCount (heldEvents cfg calls).length) =
      heldEvents cfg calls := by
    rw [hcount, List.take_length]
  have hstorable : Storable (heldEvents cfg calls) ↔
      ∀ e ∈ heldEvents cfg calls, 0 ≤ e.dblTimestamp := by
    unfold Storable
    rw [hall]
  have hsplit := List.take_append_drop k (heldEvents cfg calls)
  rw [h.memory]
  constructor
  · intro hnonneg
    have hreadable : ∀ e ∈ (heldEvents cfg calls).drop k, Readable e := fun e he =>
      readable_of_lt (hstorable.1 hnonneg e (List.mem_of_mem_drop he))
        (heldEvents_lt (List.mem_of_mem_drop he))
    rcases insertEvents_of_readable h.store hreadable with ⟨table, htable, hholds⟩
    rw [hsplit] at hholds
    refine ⟨table, htable, ?_⟩
    constructor
    · exact h.first
    · exact h.last
    · rw [hcount, List.drop_length]
    · rw [hcount]
      exact (decide_eq_true hpos).symm
    · rw [hall]
      exact hholds
    · exact h.forwarded
  · intro hnot
    -- what is in the store already has no negative timestamp
    refine insertEvents_of_neg s.store ?_
    by_contra hnone
    refine hnot (hstorable.2 fun e he => ?_)
    rw [← hsplit, List.mem_append] at he
    rcases he with he | he
    · exact (h.store.readable e he).1
    · exact not_lt.1 fun hlt => hnone ⟨e, he, hlt⟩

/-- An event that is held back: it may complete a group, which then goes to the
store. -/
theorem holding_hold (hstore : cfg.bStoreInvalidEvents = true) (h : Holding cfg pre s)
    {call : TsCall} {event : TsEvent} (hheld : heldEvents cfg [call] = [event])
    (hpassed : passedEvents cfg [call] = []) :
    (Storable (heldEvents cfg (pre ++ [call])) →
      ∃ s', TsValidation.handleInvalidEventTS cfg false (s.hold event) = some s' ∧
        Holding cfg (pre ++ [call]) s') ∧
    (¬ Storable (heldEvents cfg (pre ++ [call])) →
      TsValidation.handleInvalidEventTS cfg false (s.hold event) = none) := by
  have hpending := h.hold hheld hpassed
  have hlength : (heldEvents cfg (pre ++ [call])).length = (heldEvents cfg pre).length + 1 := by
    rw [heldEvents_append, hheld, List.length_append, List.length_singleton]
  have hmemory : (s.hold event).m_listInitialEvents.length =
      (heldEvents cfg pre).length - spilledCount (heldEvents cfg pre).length + 1 := by
    have hk := spilledCount_le (heldEvents cfg pre).length
    rw [hpending.memory, List.length_drop, hlength]
    omega
  rcases spilledCount_succ (heldEvents cfg pre).length with ⟨hgroup, hcount⟩ | ⟨hopen, hcount⟩
  · -- the group is complete
    rw [← hlength] at hcount
    rw [handleInvalidEventTS_of_lt hstore (by rw [hmemory]; exact hgroup)]
    obtain ⟨hstored, hthrows⟩ := hpending.spill (by omega) hcount
    constructor
    · intro hnonneg
      obtain ⟨table, htable, hholding⟩ := hstored hnonneg
      rw [htable]
      exact ⟨_, rfl, hholding⟩
    · intro hnot
      rw [hthrows hnot]
      rfl
  · -- the event joins the others in memory
    rw [← hlength] at hcount
    rw [handleInvalidEventTS_of_le (by rw [hmemory]; exact hopen)]
    rw [← hcount] at hpending
    constructor
    · intro _
      exact ⟨_, rfl, hpending.stay⟩
    · intro hnot
      exact absurd (fun e he => (hpending.store.readable e he).1) hnot

/-- The calls of the property: with an event id, and a database below its limit. -/
def OrdinaryCall (call : TsCall) : Prop := call.strEventId ≠ "" ∧ call.bDbOverLimit = false

theorem handleEvent_of_none {call : TsCall} (h : call.event? = none) :
    TsValidation.handleEvent cfg s call = some s := by
  unfold TsValidation.handleEvent
  cases ht : call.timestamp with
  | none => rfl
  | some ts =>
    unfold TsCall.event? at h
    rw [ht] at h
    cases h

theorem handleEvent_of_some {call : TsCall} {event : TsEvent} (h : call.event? = some event) :
    TsValidation.handleEvent cfg s call =
      TsValidation.validateTsOfEvent cfg call.bDbOverLimit s event := by
  unfold TsValidation.handleEvent
  unfold TsCall.event? at h
  cases ht : call.timestamp with
  | none =>
    rw [ht] at h
    cases h
  | some ts =>
    rw [ht] at h
    cases h
    rfl

/-- One call without a valid timestamp: an exception throws, or the handler holds on. -/
theorem holding_step (hstore : cfg.bStoreInvalidEvents = true) (h : Holding cfg pre s)
    {call : TsCall} (hcall : OrdinaryCall call) (hnot : ∀ event, ¬ BringsValid cfg call event) :
    (Storable (heldEvents cfg (pre ++ [call])) →
      ∃ s', TsValidation.handleEvent cfg s call = some s' ∧ Holding cfg (pre ++ [call]) s') ∧
    (¬ Storable (heldEvents cfg (pre ++ [call])) → TsValidation.handleEvent cfg s call = none) := by
  -- a call that adds nothing to the held events leaves them storable
  have hsame : heldEvents cfg [call] = [] → Storable (heldEvents cfg (pre ++ [call])) := by
    intro hnil
    rw [heldEvents_append, hnil, List.append_nil]
    exact fun e he => (h.store.readable e he).1
  cases hevent : call.event? with
  | none =>
    have hnone : tsEvents [call] = [] := by rw [tsEvents_singleton, hevent]; rfl
    have hheld : heldEvents cfg [call] = [] := by unfold heldEvents; rw [hnone]; rfl
    have hpassed : passedEvents cfg [call] = [] := by unfold passedEvents; rw [hnone]; rfl
    refine ⟨fun _ => ⟨s, handleEvent_of_none hevent, h.frame hheld hpassed⟩, fun hbad => ?_⟩
    exact absurd (hsame hheld) hbad
  | some event =>
    have hone : tsEvents [call] = [event] := by rw [tsEvents_singleton, hevent]; rfl
    rw [handleEvent_of_some hevent, hcall.2]
    unfold TsValidation.validateTsOfEvent
    rw [if_pos h.first]
    by_cases hexc : event.strEventId ∈ cfg.m_setExceptionEvents
    · -- an exception event passes
      have hheld : heldEvents cfg [call] = [] := by
        unfold heldEvents
        rw [hone, List.filter_cons_of_neg (by simp [hexc])]
        rfl
      have hpassed : passedEvents cfg (pre ++ [call]) = passedEvents cfg pre ++ [event] := by
        rw [passedEvents_append]
        unfold passedEvents
        rw [hone, List.filter_cons_of_pos (by simp [hexc])]
        rfl
      rw [if_pos hexc]
      refine ⟨fun _ => ⟨s.send event, rfl, h.transfer _ ?_ ?_⟩,
        fun hbad => absurd (hsame hheld) hbad⟩
      · rw [heldEvents_append, hheld, List.append_nil]
      · rw [hpassed, h.forwarded]
    · have hcut : event.dblTimestamp < m_dblTimestampCutoff := by
        by_contra hge
        exact hnot event ⟨hevent, hexc, hge⟩
      have hheld : heldEvents cfg [call] = [event] := by
        unfold heldEvents
        rw [hone, List.filter_cons_of_pos (by simp [hexc, hcut])]
        rfl
      have hpassed : passedEvents cfg [call] = [] := by
        unfold passedEvents
        rw [hone, List.filter_cons_of_neg (by simp [hexc])]
        rfl
      rw [if_neg hexc]
      unfold TsValidation.validateEventTSBasedOnCutOff
      rw [if_pos hcut]
      exact holding_hold hstore h hheld hpassed

/-- What has been storable before is storable. -/
theorem storable_of_append {held more : List TsEvent} (h : Storable (held ++ more)) :
    Storable held := by
  intro event hevent
  apply h event
  have hle : spilledCount held.length ≤ spilledCount (held ++ more).length := by
    rw [List.length_append]
    exact Nat.mul_le_mul_right _ (Nat.div_le_div_right (Nat.le_add_right _ _))
  have hpre : held.take (spilledCount held.length) =
      (held ++ more).take (spilledCount held.length) := by
    rw [List.take_append_of_le_length (spilledCount_le _)]
  rw [hpre] at hevent
  exact (List.take_sublist_take_left hle).subset hevent

/-- The handler waits, or an exception has thrown. -/
theorem holding_run (hstore : cfg.bStoreInvalidEvents = true) (pre : List TsCall)
    (hcalls : ∀ call ∈ pre, OrdinaryCall call)
    (hnot : ∀ call ∈ pre, ∀ event, ¬ BringsValid cfg call event) :
    (Storable (heldEvents cfg pre) →
      ∃ s, Lib.exec (TsValidation.handleEvent cfg) TsValidation.init pre = some s ∧
        Holding cfg pre s) ∧
    (¬ Storable (heldEvents cfg pre) →
      Lib.exec (TsValidation.handleEvent cfg) TsValidation.init pre = none) := by
  induction pre using List.reverseRecOn with
  | nil =>
    refine ⟨fun _ => ⟨_, rfl, holding_init cfg⟩, fun hbad => ?_⟩
    refine absurd ?_ hbad
    intro event hevent
    rw [heldEvents_nil, List.take_nil] at hevent
    cases hevent
  | append_singleton pre call ih =>
    have hlast : call ∈ pre ++ [call] := List.mem_append_right _ List.mem_cons_self
    rcases ih (fun c hc => hcalls c (List.mem_append_left _ hc))
      (fun c hc => hnot c (List.mem_append_left _ hc)) with ⟨hwait, hthrow⟩
    rw [Lib.exec_append]
    -- once an event could not be stored, the exception has thrown
    by_cases hpre : Storable (heldEvents cfg pre)
    · rcases hwait hpre with ⟨s, hs, hholding⟩
      rw [hs]
      show (_ → ∃ s', (TsValidation.handleEvent cfg s call).bind some = some s' ∧ _) ∧
        (_ → (TsValidation.handleEvent cfg s call).bind some = none)
      rw [Option.bind_fun_some]
      exact holding_step hstore hholding (hcalls call hlast) (hnot call hlast)
    · rw [hthrow hpre]
      refine ⟨fun hgood => absurd ?_ hpre, fun _ => rfl⟩
      rw [heldEvents_append] at hgood
      exact storable_of_append hgood

/-! ## The first valid timestamp -/

theorem sentEvent_of_last {event : TsEvent} (hcut : event.dblTimestamp < m_dblTimestampCutoff)
    (hlast : s.m_dblLastInvalidTimestamp ≠ 0) :
    s.sentEvent cfg event = [s.fixTimestamp cfg event] := by
  unfold TsValidation.sentEvent
  rw [if_pos hcut, if_pos hlast]

/-- Without a positive invalid timestamp the event is thrown out. -/
theorem sentEvent_of_no_last {event : TsEvent} (hcut : event.dblTimestamp < m_dblTimestampCutoff)
    (hlast : s.m_dblLastInvalidTimestamp = 0) : s.sentEvent cfg event = [] := by
  unfold TsValidation.sentEvent
  rw [if_pos hcut, if_neg (not_not.2 hlast)]

theorem reread_lt {event : TsEvent} (hcut : event.dblTimestamp < m_dblTimestampCutoff) :
    (TsValidation.reread event).dblTimestamp < m_dblTimestampCutoff :=
  lt_of_le_of_lt (Rat.floor_le _) hcut

/-- Events that each send one event send the same events. -/
theorem same_flatMap {α : Type} (l : List α) (origin fixed : α → TsEvent)
    {sent : α → List TsEvent} (hsent : ∀ x ∈ l, sent x = [fixed x])
    (hsame : ∀ x ∈ l, SameEvent (origin x) (fixed x)) :
    List.Forall₂ SameEvent (l.map origin) (l.flatMap sent) := by
  rw [List.flatMap_congr hsent, ← List.map_eq_flatMap, List.forall₂_map_left_iff,
    List.forall₂_map_right_iff, List.forall₂_same]
  exact hsame

theorem cutoff_pos : 0 < m_dblTimestampCutoff := by
  unfold m_dblTimestampCutoff
  norm_num

/-- What is released: the store in its order, then the memory. -/
def releasedEvents (cfg : TsConfig) (s : TsValidation) : List TsEvent :=
  (inOrder s.store).flatMap (s.sentRow cfg) ++ s.m_listInitialEvents.flatMap (s.sentEvent cfg)

theorem row_mem_held (h : Holding cfg pre s) {r : InvalidEventRow} (hr : r ∈ s.store.rows) :
    r.events ∈ (heldEvents cfg pre).take (spilledCount (heldEvents cfg pre).length) := by
  rw [← h.store.events]
  exact List.mem_map.2 ⟨r, hr, rfl⟩

theorem memory_mem_held (h : Holding cfg pre s) {event : TsEvent}
    (hevent : event ∈ s.m_listInitialEvents) : event ∈ heldEvents cfg pre := by
  rw [h.memory] at hevent
  exact List.mem_of_mem_drop hevent

/-- With a positive invalid timestamp every held event is released once. -/
theorem releasedOnce_releasedEvents (h : Holding cfg pre s) {t : TsValidation}
    (htstore : t.store = s.store) (htmemory : t.m_listInitialEvents = s.m_listInitialEvents)
    (hlast : t.m_dblLastInvalidTimestamp ≠ 0) :
    ReleasedOnce (heldEvents cfg pre) (releasedEvents cfg t) := by
  have horder : ∀ r ∈ inOrder s.store, r ∈ s.store.rows := fun r hr => Lib.mem_orderBy.1 hr
  refine ⟨(inOrder s.store).map InvalidEventRow.events, ?_, ?_, ?_⟩
  · rw [← h.store.events]
    exact (Lib.perm_orderBy _ _).map _
  · rw [List.pairwise_map]
    have hsorted := Lib.sorted_orderBy InvalidEventRow.timestamp s.store.rows
    refine List.Pairwise.imp_of_mem ?_ hsorted
    intro r r' hr hr' hle
    rwa [h.store.timestamps r (horder r hr), h.store.timestamps r' (horder r' hr')] at hle
  · unfold releasedEvents
    rw [htstore, htmemory, ← h.memory]
    apply List.rel_append
    · refine same_flatMap (inOrder s.store) InvalidEventRow.events
        (fun r => t.fixTimestamp cfg (TsValidation.reread r.events)) (fun r hr => ?_)
        fun r _ => ⟨rfl, rfl⟩
      have hheld := List.mem_of_mem_take (row_mem_held h (horder r hr))
      exact sentEvent_of_last (reread_lt (heldEvents_lt hheld)) hlast
    · have hmap := same_flatMap s.m_listInitialEvents id (t.fixTimestamp cfg)
        (fun e he => sentEvent_of_last (heldEvents_lt (memory_mem_held h he)) hlast)
        fun e _ => ⟨rfl, rfl⟩
      rwa [List.map_id] at hmap

/-- Without one, nothing is released. -/
theorem releasedEvents_eq_nil (h : Holding cfg pre s) {t : TsValidation}
    (htstore : t.store = s.store) (htmemory : t.m_listInitialEvents = s.m_listInitialEvents)
    (hlast : t.m_dblLastInvalidTimestamp = 0) : releasedEvents cfg t = [] := by
  unfold releasedEvents
  rw [htstore, htmemory, List.append_eq_nil_iff, List.flatMap_eq_nil_iff, List.flatMap_eq_nil_iff]
  constructor
  · intro r hr
    have hheld := List.mem_of_mem_take (row_mem_held h (Lib.mem_orderBy.1 hr))
    exact sentEvent_of_no_last (reread_lt (heldEvents_lt hheld)) hlast
  · intro event hevent
    exact sentEvent_of_no_last (heldEvents_lt (memory_mem_held h hevent)) hlast

theorem heldEvents_id (hcalls : ∀ call ∈ pre, OrdinaryCall call) {event : TsEvent}
    (h : event ∈ heldEvents cfg pre) : event.strEventId ≠ "" := by
  rcases List.mem_filterMap.1 (List.mem_of_mem_filter h) with ⟨call, hcall, heq⟩
  rcases Option.map_eq_some_iff.1 heq with ⟨ts, _, rfl⟩
  exact (hcalls call hcall).1

/-- The first valid timestamp releases what is held, then its own event follows. -/
theorem firstValid_step (h : Holding cfg pre s) (hcalls : ∀ call ∈ pre, OrdinaryCall call)
    {v : TsCall} {event : TsEvent} (hv : OrdinaryCall v) (hvalid : BringsValid cfg v event) :
    ∃ s' t, TsValidation.handleEvent cfg s v = some s' ∧ s'.m_dblFrstValidTimestamp ≠ 0 ∧
      t.store = s.store ∧ t.m_listInitialEvents = s.m_listInitialEvents ∧
      t.m_dblLastInvalidTimestamp = s.m_dblLastInvalidTimestamp ∧
      s'.forwarded = passedEvents cfg pre ++ releasedEvents cfg t ++ [event] := by
  have hid : event.strEventId ≠ "" := by
    rcases Option.map_eq_some_iff.1 hvalid.1 with ⟨ts, _, rfl⟩
    exact hv.1
  have hread : TsValidation.StoreReadable
      { s with m_dblFrstValidTimestamp := event.dblTimestamp } := by
    intro r hr
    have hheld := row_mem_held h hr
    exact ⟨h.store.readable _ hheld, heldEvents_id hcalls (List.mem_of_mem_take hheld)⟩
  have hmem : ∀ e ∈ s.m_listInitialEvents, e.strEventId ≠ "" :=
    fun e he => heldEvents_id hcalls (memory_mem_held h he)
  -- without the flag nothing was spilled into the store
  have hflag : s.m_bInvalidEventsAvailableInDb = false → s.store.rows = [] := by
    intro hf
    rw [h.flag] at hf
    have hzero : spilledCount (heldEvents cfg pre).length = 0 := by
      have := of_decide_eq_false hf
      omega
    have hevents := h.store.events
    rw [hzero, List.take_zero] at hevents
    exact List.map_eq_nil_iff.1 hevents
  rcases TsValidation.handleFirstValidTs_eq cfg hread hmem hflag with ⟨store, hrel⟩
  rw [handleEvent_of_some hvalid.1]
  unfold TsValidation.validateTsOfEvent
  rw [if_pos h.first, if_neg hvalid.2.1]
  unfold TsValidation.validateEventTSBasedOnCutOff
  rw [if_neg hvalid.2.2, hrel, Option.map_some, TsValidation.validateAndSendEvent_of_id _ hid]
  refine ⟨_, { s with m_dblFrstValidTimestamp := event.dblTimestamp }, rfl, ?_, rfl, rfl, rfl, ?_⟩
  · show event.dblTimestamp ≠ 0
    -- an event at time zero is before the cut-off
    intro hzero
    apply hvalid.2.2
    rw [hzero]
    exact cutoff_pos
  · rw [← h.forwarded]
    unfold releasedEvents
    rw [← List.append_assoc s.forwarded]
    rfl

/-! ## Afterwards -/

/-- Once a valid timestamp has been seen, a call sends its event or nothing. -/
theorem afterwards_step (hfirst : s.m_dblFrstValidTimestamp ≠ 0) {call : TsCall}
    (hcall : OrdinaryCall call) :
    ∃ s' origin sent, TsValidation.handleEvent cfg s call = some s' ∧
      s'.m_dblFrstValidTimestamp ≠ 0 ∧ origin.Sublist (tsEvents [call]) ∧
      List.Forall₂ SameEvent origin sent ∧ s'.forwarded = s.forwarded ++ sent := by
  cases hevent : call.event? with
  | none =>
    exact ⟨s, [], [], handleEvent_of_none hevent, hfirst, List.nil_sublist _, .nil,
      (List.append_nil _).symm⟩
  | some event =>
    have hone : tsEvents [call] = [event] := by rw [tsEvents_singleton, hevent]; rfl
    have hid : event.strEventId ≠ "" := by
      rcases Option.map_eq_some_iff.1 hevent with ⟨ts, _, rfl⟩
      exact hcall.1
    rw [handleEvent_of_some hevent, hone]
    unfold TsValidation.validateTsOfEvent
    rw [if_neg hfirst, TsValidation.fixAndSend_eq s hid]
    by_cases hcut : event.dblTimestamp < m_dblTimestampCutoff
    · by_cases hlast : s.m_dblLastInvalidTimestamp = 0
      · refine ⟨_, [], _, rfl, hfirst, List.nil_sublist _, ?_, rfl⟩
        rw [sentEvent_of_no_last hcut hlast]
        exact .nil
      · refine ⟨_, [event], _, rfl, hfirst, List.Sublist.refl _, ?_, rfl⟩
        rw [sentEvent_of_last hcut hlast]
        exact .cons ⟨rfl, rfl⟩ .nil
    · refine ⟨_, [event], _, rfl, hfirst, List.Sublist.refl _, ?_, rfl⟩
      unfold TsValidation.sentEvent
      rw [if_neg hcut]
      exact .cons ⟨rfl, rfl⟩ .nil

theorem afterwards_run (post : List TsCall) (hcalls : ∀ call ∈ post, OrdinaryCall call) :
    ∀ s : TsValidation, s.m_dblFrstValidTimestamp ≠ 0 →
      ∃ s' origin sent, Lib.exec (TsValidation.handleEvent cfg) s post = some s' ∧
        origin.Sublist (tsEvents post) ∧ List.Forall₂ SameEvent origin sent ∧
        s'.forwarded = s.forwarded ++ sent := by
  induction post with
  | nil =>
    intro s _
    exact ⟨s, [], [], rfl, List.nil_sublist _, .nil, (List.append_nil _).symm⟩
  | cons call post ih =>
    intro s hfirst
    rcases afterwards_step hfirst (hcalls call List.mem_cons_self) with
      ⟨s₁, origin₁, sent₁, hstep, hfirst₁, hsub₁, hsame₁, hforward₁⟩
    rcases ih (fun c hc => hcalls c (List.mem_cons_of_mem call hc)) s₁ hfirst₁ with
      ⟨s₂, origin₂, sent₂, hrun, hsub₂, hsame₂, hforward₂⟩
    refine ⟨s₂, origin₁ ++ origin₂, sent₁ ++ sent₂, ?_, ?_, List.rel_append hsame₁ hsame₂, ?_⟩
    · rw [Lib.exec_cons, hstep]
      exact hrun
    · rw [show call :: post = [call] ++ post from rfl, tsEvents_append]
      exact hsub₁.append hsub₂
    · rw [hforward₂, hforward₁, List.append_assoc]

/-! ## The property, settled -/

/-- Without a valid timestamp yet, every event has passed or is held. -/
theorem passed_append_held (hnot : ∀ call ∈ pre, ∀ event, ¬ BringsValid cfg call event) :
    (passedEvents cfg pre ++ heldEvents cfg pre).Perm (tsEvents pre) := by
  have hheld : heldEvents cfg pre = (tsEvents pre).filter fun event =>
      !decide (event.strEventId ∈ cfg.m_setExceptionEvents) := by
    unfold heldEvents
    apply List.filter_congr
    intro event hevent
    rcases List.mem_filterMap.1 hevent with ⟨call, hcall, heq⟩
    by_cases hexc : event.strEventId ∈ cfg.m_setExceptionEvents
    · simp [hexc]
    · have hcut : event.dblTimestamp < m_dblTimestampCutoff := by
        by_contra hge
        exact hnot call hcall event ⟨heq, hexc, hge⟩
      simp [hexc, hcut]
  rw [hheld]
  exact List.filter_append_perm _ _

/-- Either no call brings a valid timestamp, or there is a first one that does. -/
theorem firstValid_or (cfg : TsConfig) (calls : List TsCall) :
    (∀ call ∈ calls, ∀ event, ¬ BringsValid cfg call event) ∨
    ∃ pre v event post, FirstValid cfg calls pre v event post := by
  induction calls with
  | nil =>
    left
    intro call hcall
    cases hcall
  | cons call calls ih =>
    by_cases hvalid : ∃ event, BringsValid cfg call event
    · rcases hvalid with ⟨event, hvalid⟩
      refine Or.inr ⟨[], call, event, calls, rfl, hvalid, fun c hc => ?_⟩
      cases hc
    · have hcall : ∀ event, ¬ BringsValid cfg call event := fun event he => hvalid ⟨event, he⟩
      rcases ih with hnone | ⟨pre, v, event, post, hsplit, hv, hbefore⟩
      · left
        intro c hc
        rcases List.mem_cons.1 hc with rfl | hc
        · exact hcall
        · exact hnone c hc
      · refine Or.inr ⟨call :: pre, v, event, post, ?_, hv, fun c hc => ?_⟩
        · rw [hsplit]
          rfl
        · rcases List.mem_cons.1 hc with rfl | hc
          · exact hcall
          · exact hbefore c hc

/-- The calls around the first valid one are as ordinary as all of them. -/
theorem FirstValid.ordinary {calls post : List TsCall} {v : TsCall} {event : TsEvent}
    (h : FirstValid cfg calls pre v event post) (hcalls : ∀ call ∈ calls, OrdinaryCall call) :
    (∀ call ∈ pre, OrdinaryCall call) ∧ OrdinaryCall v ∧ ∀ call ∈ post, OrdinaryCall call := by
  rw [h.split] at hcalls
  refine ⟨fun call hcall => hcalls call (List.mem_append_left _ hcall), ?_, fun call hcall => ?_⟩
  · exact hcalls v (List.mem_append_right _ List.mem_cons_self)
  · exact hcalls call (List.mem_append_right _ (List.mem_cons_of_mem v hcall))

/-- The run up to the first valid timestamp. -/
theorem run_firstValid (hstore : cfg.bStoreInvalidEvents = true) {calls : List TsCall}
    (hcalls : ∀ call ∈ calls, OrdinaryCall call) {v : TsCall} {event : TsEvent}
    {post : List TsCall} (h : FirstValid cfg calls pre v event post)
    (hgood : Storable (heldEvents cfg pre)) :
    ∃ s released, Lib.exec (TsValidation.handleEvent cfg) TsValidation.init (pre ++ [v]) = some s ∧
      s.m_dblFrstValidTimestamp ≠ 0 ∧ s.forwarded = passedEvents cfg pre ++ released ++ [event] ∧
      (lastInvalid (heldEvents cfg pre) ≠ 0 → ReleasedOnce (heldEvents cfg pre) released) ∧
      (lastInvalid (heldEvents cfg pre) = 0 → released = []) := by
  rcases h.ordinary hcalls with ⟨hpre, hv, _⟩
  rcases (holding_run hstore pre hpre h.before).1 hgood with ⟨s, hrun, hholding⟩
  rcases firstValid_step hholding hpre hv h.valid with
    ⟨s', t, hstep, hfirst, htstore, htmemory, htlast, hforward⟩
  refine ⟨s', releasedEvents cfg t, ?_, hfirst, hforward, fun hlast => ?_, fun hlast => ?_⟩
  · rw [Lib.exec_append, hrun, Option.bind_some, Lib.exec_cons, hstep]
    rfl
  · apply releasedOnce_releasedEvents hholding htstore htmemory
    rwa [htlast, hholding.last]
  · apply releasedEvents_eq_nil hholding htstore htmemory
    rw [htlast, hholding.last, hlast]

theorem ReleasedOnce.origins {held released : List TsEvent} (h : ReleasedOnce held released) :
    ∃ origins : List TsEvent, origins.Perm held ∧ List.Forall₂ SameEvent origins released := by
  rcases h with ⟨stored, hperm, _, hsame⟩
  refine ⟨_, ?_, hsame⟩
  have happend := hperm.append_right (held.drop (spilledCount held.length))
  rwa [List.take_append_drop] at happend

/-- Nothing is released once only if nothing is held. -/
theorem ReleasedOnce.eq_nil {held : List TsEvent} (h : ReleasedOnce held []) : held = [] := by
  rcases h.origins with ⟨origins, hperm, hsame⟩
  cases hsame
  exact List.nil_perm.1 hperm

/-- Nothing is forwarded twice. -/
theorem forwarded_once (hstore : cfg.bStoreInvalidEvents = true) {calls : List TsCall}
    (hcalls : ∀ call ∈ calls, OrdinaryCall call) {s : TsValidation}
    (hrun : Lib.exec (TsValidation.handleEvent cfg) TsValidation.init calls = some s) :
    ∃ origins : List TsEvent, origins.Subperm (tsEvents calls) ∧
      List.Forall₂ SameEvent origins s.forwarded := by
  have hrefl : ∀ l : List TsEvent, List.Forall₂ SameEvent l l :=
    fun l => List.forall₂_same.2 fun _ _ => ⟨rfl, rfl⟩
  rcases firstValid_or cfg calls with hnone | ⟨pre, v, event, post, h⟩
  · -- only exception events have been forwarded
    by_cases hgood : Storable (heldEvents cfg calls)
    · rcases (holding_run hstore calls hcalls hnone).1 hgood with ⟨s', hrun', hholding⟩
      rw [hrun] at hrun'
      cases hrun'
      rw [hholding.forwarded]
      exact ⟨_, List.filter_sublist.subperm, hrefl _⟩
    · rw [(holding_run hstore calls hcalls hnone).2 hgood] at hrun
      cases hrun
  · rcases h.ordinary hcalls with ⟨hpre, _, hpost⟩
    have hcalls' : calls = (pre ++ [v]) ++ post := by
      rw [h.split, List.append_assoc]
      rfl
    rw [hcalls', Lib.exec_append] at hrun
    by_cases hgood : Storable (heldEvents cfg pre)
    · rcases run_firstValid hstore hcalls h hgood with
        ⟨s₁, released, hrun₁, hfirst, hforward, hreleased, hnil⟩
      rcases afterwards_run post hpost s₁ hfirst with ⟨s₂, origin, sent, hrun₂, hsub, hsame, hsent⟩
      rw [hrun₁, Option.bind_some, hrun₂] at hrun
      cases hrun
      have horigins : ∃ o : List TsEvent, o.Subperm (heldEvents cfg pre) ∧
          List.Forall₂ SameEvent o released := by
        by_cases hlast : lastInvalid (heldEvents cfg pre) = 0
        · rw [hnil hlast]
          exact ⟨[], List.nil_subperm, .nil⟩
        · rcases (hreleased hlast).origins with ⟨o, hperm, ho⟩
          exact ⟨o, hperm.subperm, ho⟩
      rcases horigins with ⟨o, ho, hosame⟩
      refine ⟨passedEvents cfg pre ++ o ++ [event] ++ origin, ?_, ?_⟩
      · rw [hcalls', tsEvents_append, tsEvents_append, tsEvents_singleton, h.valid.1]
        apply List.Subperm.append _ hsub.subperm
        apply List.Subperm.append _ (List.Subperm.refl _)
        exact ((List.subperm_append_left _).2 ho).trans (passed_append_held h.before).subperm
      · rw [hsent, hforward]
        exact List.rel_append (List.rel_append (List.rel_append (hrefl _) hosame) (hrefl _)) hsame
    · rw [Lib.exec_append, (holding_run hstore pre hpre h.before).2 hgood] at hrun
      cases hrun

end

/-- No initial event is lost iff, whenever a valid timestamp arrives, no event of
the complete groups has a negative timestamp, and some event has a positive one
unless none is held. -/
theorem noInitialEventLost_iff (cfg : TsConfig) (hstore : cfg.bStoreInvalidEvents = true)
    (calls : List TsCall) (hcalls : ∀ call ∈ calls, OrdinaryCall call) :
    NoInitialEventLost cfg calls ↔
      ∀ pre v event post, FirstValid cfg calls pre v event post →
        Releasable (heldEvents cfg pre) := by
  constructor
  · intro hlost pre v event post h
    rcases h.ordinary hcalls with ⟨hpre, _, _⟩
    rcases hlost.released pre v event post h with ⟨s, released, hrun, hreleased, hforward⟩
    have hgood : Storable (heldEvents cfg pre) := by
      by_contra hbad
      rw [Lib.exec_append, (holding_run hstore pre hpre h.before).2 hbad] at hrun
      cases hrun
    refine ⟨hgood, ?_⟩
    rcases run_firstValid hstore hcalls h hgood with
      ⟨s', released', hrun', _, hforward', _, hnil⟩
    rw [hrun] at hrun'
    cases hrun'
    by_cases hlast : lastInvalid (heldEvents cfg pre) = 0
    · -- nothing has been released, so nothing was held
      left
      rw [hforward', hnil hlast, List.append_nil] at hforward
      have hempty : released = [] := by
        have hlength := congrArg List.length hforward
        simp only [List.length_append, List.length_singleton] at hlength
        exact List.length_eq_zero_iff.1 (by omega)
      rw [hempty] at hreleased
      exact hreleased.eq_nil
    · exact Or.inr ((lastInvalid_ne_zero_iff _).2.1 hlast)
  · intro hgood
    refine ⟨fun pre v event post h => ?_, fun s hrun => forwarded_once hstore hcalls hrun⟩
    rcases hgood pre v event post h with ⟨hstorable, hpos⟩
    rcases run_firstValid hstore hcalls h hstorable with
      ⟨s, released, hrun, _, hforward, hreleased, hnil⟩
    refine ⟨s, released, hrun, ?_, hforward⟩
    rcases hpos with hempty | hpos
    · have hlast : lastInvalid (heldEvents cfg pre) = 0 := by
        rw [hempty]
        rfl
      rw [hnil hlast, hempty]
      exact ⟨[], List.Perm.refl _, List.Pairwise.nil, .nil⟩
    · exact hreleased ((lastInvalid_ne_zero_iff _).2.2 hpos)

/-- No exception events; a `double` loses its fraction. -/
def truncating : TsConfig := ⟨[], true, fun x => x.num.tdiv x.den⟩

/-- An event five milliseconds after the epoch, and one with a valid timestamp. -/
def earlySpeed : TsCall := ⟨"Speed", some 5, "", false⟩
def validSpeed : TsCall := ⟨"Speed", some 1704067200000, "", false⟩

theorem noInitialEventLost_earlySpeed : NoInitialEventLost truncating [earlySpeed, validSpeed] := by
  refine (noInitialEventLost_iff truncating rfl [earlySpeed, validSpeed] ?_).2 ?_
  · intro call hcall
    rcases List.mem_cons.1 hcall with rfl | hcall
    · exact ⟨by decide, rfl⟩
    · rw [List.mem_singleton.1 hcall]
      exact ⟨by decide, rfl⟩
  · intro pre v event post h
    match pre, h with
    | [], h =>
      -- the early event is not valid
      have hsplit := h.split
      rw [List.nil_append, List.cons.injEq] at hsplit
      rcases h.valid with ⟨hevent, _, hge⟩
      rw [← hsplit.1] at hevent
      cases hevent
      exact absurd (by decide) hge
    | [call], h =>
      have hsplit := h.split
      rw [List.cons_append, List.cons.injEq] at hsplit
      rw [← hsplit.1]
      refine ⟨?_, Or.inr ⟨⟨"Speed", 5, none, ""⟩, by decide, by decide⟩⟩
      intro event hevent
      rw [show spilledCount (heldEvents truncating [earlySpeed]).length = 0 from rfl,
        List.take_zero] at hevent
      cases hevent
    | call :: call' :: rest, h =>
      have hlength := congrArg List.length h.split
      simp only [List.length_append, List.length_cons, List.length_nil] at hlength
      omega

/-- An event without a clock yet. -/
def zeroSpeed : TsCall := ⟨"Speed", some 0, "", false⟩

/-- The only event held back has the timestamp zero: it is thrown out. -/
theorem not_noInitialEventLost_zeroSpeed :
    ¬ NoInitialEventLost truncating [zeroSpeed, validSpeed] := by
  intro hlost
  have hbefore : ∀ call ∈ [zeroSpeed], ∀ event, ¬ BringsValid truncating call event := by
    intro call hcall event hvalid
    rw [List.mem_singleton.1 hcall] at hvalid
    rcases hvalid with ⟨hevent, _, hge⟩
    cases hevent
    exact absurd (by decide) hge
  rcases hlost.released [zeroSpeed] validSpeed ⟨"Speed", 1704067200000, none, ""⟩ []
    ⟨rfl, ⟨rfl, by decide, by decide⟩, hbefore⟩ with ⟨s, released, hrun, hreleased, hforward⟩
  have hrun' : (Lib.exec (TsValidation.handleEvent truncating) TsValidation.init
      ([zeroSpeed] ++ [validSpeed])).map TsValidation.forwarded =
        some [⟨"Speed", 1704067200000, none, ""⟩] := by decide
  rw [hrun, Option.map_some, hforward] at hrun'
  have hlength := congrArg List.length (Option.some.inj hrun')
  simp only [List.length_append, List.length_singleton] at hlength
  have hempty : released = [] := List.length_eq_zero_iff.1 (by omega)
  rw [hempty] at hreleased
  exact absurd hreleased.eq_nil (by decide)

end DeviceClient
