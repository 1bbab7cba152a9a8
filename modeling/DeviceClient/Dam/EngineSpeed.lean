import DeviceClient.Dam.SessionStatus
import Mathlib.Data.Rat.Cast.Order
import Mathlib.Tactic.NormNum

/-!
# Ignition from the engine's speed

With the configuration for it, `CSessionStatusHandler` takes the engine as running
while its speed is above zero. Two event ids carry a speed, `RPM` and `EngineRPM`;
`GetRpmValue` reads it from the first only, and as an `int`.

* `handleEvent_m_eIgnState`: the state after an event.
* `getRpmValue_pos_iff`: when a speed above zero is read as one.
* `ignition_iff_speed`: the state follows the speed iff every speed is read right.
-/

namespace DeviceClient

namespace JsonValue

/-- A number, of any of the three types. -/
def numeric : JsonValue → Option ℚ
  | .int value => some value
  | .uint value => some value
  | .real value => some value
  | _ => none

end JsonValue

namespace SessionStatusHandler

/-! ## Speeds -/

/-- The speed that an event carries. -/
def engineSpeed (event : WrappedEvent) : Option ℚ :=
  if event.strEventId = ERPM_EV_ID ∨ event.strEventId = RPM_EV_ID then
    match event.jsonValue with
    | .object members => (members.lookup "value").bind JsonValue.numeric
    | _ => none
  else none

/-- The speed of the last event that carries one. -/
def lastSpeed (events : List WrappedEvent) : Option ℚ := (events.filterMap engineSpeed).getLast?

/-- The ignition is on iff the speed is above zero. -/
def FollowsSpeed (speed : Option ℚ) (h : SessionStatusHandler) : Prop :=
  h.m_eIgnState = .eIGNITION_ON ↔ ∃ v, speed = some v ∧ 0 < v

/-- A speed above zero comes with the id `RPM`, as an integer that an `int` holds. -/
def SpeedRead (event : WrappedEvent) : Prop :=
  ∀ v, engineSpeed event = some v →
    v ≤ 0 ∨ event.strEventId = RPM_EV_ID ∧ v.den = 1 ∧ v ≤ 2 ^ 31 - 1

/-- An event with a speed, or another event of which the handler can read its fields. -/
def SpeedOrOther (valueToString : ℚ → String) (cfg : SessionConfig) (event : WrappedEvent) : Prop :=
  (engineSpeed event).isSome = true ∨
    event.strEventId ≠ ERPM_EV_ID ∧ event.strEventId ≠ RPM_EV_ID ∧ Readable valueToString cfg event

/-! ## The state after an event -/

/-- The state for a speed that was read. -/
def speedState (nRpmValue : ℤ) : IgnitionState :=
  if 0 < nRpmValue then .eIGNITION_ON else .eIGNITION_OFF

theorem speedState_eq_on_iff (nRpmValue : ℤ) :
    speedState nRpmValue = .eIGNITION_ON ↔ 0 < nRpmValue := by
  unfold speedState
  by_cases hpos : 0 < nRpmValue
  · rw [if_pos hpos]
    exact iff_of_true rfl hpos
  · rw [if_neg hpos]
    exact iff_of_false (by simp) hpos

variable {valueToString : ℚ → String} {cfg : SessionConfig}

theorem sendIgnStatusEvent_m_eIgnState (h : SessionStatusHandler) (strState : String) :
    (h.sendIgnStatusEvent cfg strState).m_eIgnState = h.m_eIgnState := by
  unfold sendIgnStatusEvent
  split <;> rfl

/-- Whatever the state was, it is that of the speed. -/
theorem handleRpmValue_m_eIgnState (h : SessionStatusHandler) (nRpmValue : ℤ) :
    (h.handleRpmValue cfg nRpmValue).m_eIgnState = speedState nRpmValue := by
  unfold handleRpmValue speedState
  by_cases hpos : 0 < nRpmValue
  · rw [if_pos hpos, if_pos hpos]
    split
    · exact sendIgnStatusEvent_m_eIgnState _ _
    · next hon => exact not_not.1 hon
  · rw [if_neg hpos, if_neg hpos]
    split
    · exact sendIgnStatusEvent_m_eIgnState _ _
    · next hoff => exact not_not.1 hoff

theorem handleStatus_m_eIgnState {h h' : SessionStatusHandler} {event : WrappedEvent}
    (hstatus : h.handleStatus valueToString cfg event = some h') :
    h'.m_eIgnState = h.m_eIgnState := by
  have hign : ∀ strState, (h.handleIgnStatusEvent strState).m_eIgnState = h.m_eIgnState := by
    intro strState
    unfold handleIgnStatusEvent
    split
    · rfl
    · dsimp only
      split <;> rfl
  have hlaunched : ∀ strState,
      (h.handleIgniteClientLaunchedEvent strState).m_eIgnState = h.m_eIgnState := by
    intro strState
    unfold handleIgniteClientLaunchedEvent
    split
    · rfl
    · split <;> rfl
  unfold handleStatus at hstatus
  split at hstatus
  · obtain ⟨strState, -, rfl⟩ := Option.map_eq_some_iff.1 hstatus
    exact hlaunched strState
  · split at hstatus
    · obtain ⟨strState, -, rfl⟩ := Option.map_eq_some_iff.1 hstatus
      split
      · rfl
      · exact hign strState
    · split at hstatus
      · obtain ⟨strStatus, -, rfl⟩ := Option.map_eq_some_iff.1 hstatus
        dsimp only
        split <;> rfl
      · split at hstatus <;>
        · cases hstatus
          rfl

theorem isRpmEvent_iff (hself : cfg.strStartupType = STARTUP_SELF) (rstrEventID : String) :
    isRpmEvent cfg rstrEventID = true ↔ rstrEventID = ERPM_EV_ID ∨ rstrEventID = RPM_EV_ID := by
  unfold isRpmEvent
  simp [hself]

/-- The state after an event with one of the two ids is that of the speed read, after any
other event it is the state before. -/
theorem handleEvent_m_eIgnState (hself : cfg.strStartupType = STARTUP_SELF)
    (hused : isRpmUsedForIgnStatus cfg = true) {h h' : SessionStatusHandler}
    {event : WrappedEvent} (hstep : handleEvent valueToString cfg h event = some h') :
    if event.strEventId = ERPM_EV_ID ∨ event.strEventId = RPM_EV_ID then
      ∃ nRpmValue, getRpmValue event = some nRpmValue ∧ h'.m_eIgnState = speedState nRpmValue
    else h'.m_eIgnState = h.m_eIgnState := by
  obtain ⟨h₁, hrpm, hstatus⟩ := Option.bind_eq_some_iff.1 hstep
  have hkept := handleStatus_m_eIgnState hstatus
  unfold handleRpm at hrpm
  rw [hused, Bool.and_true] at hrpm
  split
  · next hid =>
    rw [if_pos ((isRpmEvent_iff hself _).2 hid)] at hrpm
    obtain ⟨nRpmValue, hread, rfl⟩ := Option.map_eq_some_iff.1 hrpm
    exact ⟨nRpmValue, hread, hkept.trans (handleRpmValue_m_eIgnState h nRpmValue)⟩
  · next hid =>
    rw [if_neg fun hrpm => hid ((isRpmEvent_iff hself _).1 hrpm)] at hrpm
    cases hrpm
    exact hkept

/-! ## Reading a speed -/

/-- A number is read as one above zero iff it is one and an `int` holds it. -/
theorem asIntOfInt_pos_iff {value : JsonValue} {v : ℚ} (hv : value.numeric = some v) :
    0 < value.asIntOfInt.getD 0 ↔ 0 < v ∧ v.den = 1 ∧ v ≤ 2 ^ 31 - 1 := by
  cases value with
  | int n =>
    cases hv
    unfold JsonValue.asIntOfInt
    have hcast : (0 : ℚ) < n ∧ (n : ℚ).den = 1 ∧ (n : ℚ) ≤ 2 ^ 31 - 1 ↔ 0 < n ∧ n ≤ 2 ^ 31 - 1 := by
      simp only [Int.cast_pos, Rat.den_intCast, true_and]
      norm_cast
    rw [hcast]
    dsimp only
    split
    · rw [Option.getD_some]
      omega
    · rw [Option.getD_none]
      omega
  | uint n =>
    cases hv
    unfold JsonValue.asIntOfInt
    have hcast : (0 : ℚ) < n ∧ (n : ℚ).den = 1 ∧ (n : ℚ) ≤ 2 ^ 31 - 1 ↔
        0 < (n : ℤ) ∧ (n : ℤ) ≤ 2 ^ 31 - 1 := by
      simp only [Nat.cast_pos, Rat.den_natCast, true_and]
      norm_cast
    rw [hcast]
    dsimp only
    split
    · rw [Option.getD_some]
      omega
    · rw [Option.getD_none]
      omega
  | real q =>
    cases hv
    unfold JsonValue.asIntOfInt
    dsimp only
    split
    · next hint =>
      rw [Option.getD_some, Rat.num_pos]
      exact ⟨fun hpos => ⟨hpos, hint.2.2, hint.2.1⟩, fun h => h.1⟩
    · next hnot =>
      rw [Option.getD_none]
      refine iff_of_false (lt_irrefl 0) ?_
      rintro ⟨hpos, hden, hle⟩
      have hlow : (-2 ^ 31 : ℚ) ≤ 0 := by norm_num
      exact hnot ⟨hlow.trans hpos.le, hle, hden⟩
  | _ => cases hv

/-- A speed above zero is read as one iff it comes with the id `RPM` and an `int` holds it. -/
theorem getRpmValue_pos_iff {event : WrappedEvent} {v : ℚ} {nRpmValue : ℤ}
    (hv : engineSpeed event = some v) (hread : getRpmValue event = some nRpmValue) :
    0 < nRpmValue ↔ event.strEventId = RPM_EV_ID ∧ 0 < v ∧ v.den = 1 ∧ v ≤ 2 ^ 31 - 1 := by
  unfold engineSpeed at hv
  unfold getRpmValue at hread
  split at hv
  · by_cases hid : event.strEventId = RPM_EV_ID
    · rw [if_pos hid] at hread
      unfold WrappedEvent.getInt at hread
      cases hdata : event.jsonValue with
      | object members =>
        rw [hdata] at hv hread
        obtain ⟨value, hvalue, hnumeric⟩ := Option.bind_eq_some_iff.1 hv
        dsimp only at hread
        rw [hvalue] at hread
        cases hread
        rw [asIntOfInt_pos_iff hnumeric]
        exact ⟨fun h => ⟨hid, h⟩, fun h => h.2⟩
      | _ =>
        rw [hdata] at hv
        cases hv
    · -- the value of the other id is not read
      rw [if_neg hid] at hread
      cases hread
      exact iff_of_false (lt_irrefl 0) fun h => hid h.1
  · cases hv

/-! ## Runs -/

/-- The values read follow the speeds above zero, event by event. -/
theorem followsSpeed_step (hself : cfg.strStartupType = STARTUP_SELF)
    (hused : isRpmUsedForIgnStatus cfg = true) {h h' : SessionStatusHandler}
    {event : WrappedEvent} (hevent : SpeedOrOther valueToString cfg event)
    (hfollows : FollowsSpeed (lastSpeed (h.passed.map Prod.fst)) h)
    (hstep : handleEvent valueToString cfg h event = some h') :
    FollowsSpeed (lastSpeed (h'.passed.map Prod.fst)) h' ↔ SpeedRead event := by
  have hstate := handleEvent_m_eIgnState hself hused hstep
  rw [passed_of_handled (handled_of_handleEvent hself hstep)]
  unfold lastSpeed at hfollows ⊢
  rw [filterMap_push]
  rcases hevent with hspeed | ⟨herpm, hrpm, -⟩
  · obtain ⟨v, hv⟩ := Option.isSome_iff_exists.1 hspeed
    have hid : event.strEventId = ERPM_EV_ID ∨ event.strEventId = RPM_EV_ID := by
      by_contra hnot
      rw [engineSpeed, if_neg hnot] at hv
      cases hv
    rw [if_pos hid] at hstate
    obtain ⟨nRpmValue, hread, hstate⟩ := hstate
    rw [hv, Option.toList_some, List.getLast?_concat, FollowsSpeed, hstate, speedState_eq_on_iff,
      getRpmValue_pos_iff hv hread]
    have hlast : (∃ w, some v = some w ∧ 0 < w) ↔ 0 < v := by simp
    have hsplit : SpeedRead event ↔
        (v ≤ 0 ∨ event.strEventId = RPM_EV_ID ∧ v.den = 1 ∧ v ≤ 2 ^ 31 - 1) := by
      unfold SpeedRead
      simp [hv]
    rw [hlast, hsplit]
    constructor
    · intro hiff
      by_cases hpos : 0 < v
      · have hread := hiff.2 hpos
        exact Or.inr ⟨hread.1, hread.2.2⟩
      · exact Or.inl (not_lt.1 hpos)
    · rintro (hle | ⟨hrpm, hden, hmax⟩)
      · exact iff_of_false (fun h => absurd h.2.1 (not_lt.2 hle)) (not_lt.2 hle)
      · exact ⟨fun h => h.2.1, fun hpos => ⟨hrpm, hpos, hden, hmax⟩⟩
  · -- another event leaves both the state and the last speed
    have hnone : engineSpeed event = none := if_neg (not_or.2 ⟨herpm, hrpm⟩)
    rw [if_neg (not_or.2 ⟨herpm, hrpm⟩)] at hstate
    rw [hnone, Option.toList_none, List.append_nil, FollowsSpeed, hstate]
    refine iff_of_true hfollows fun v hv => ?_
    rw [hnone] at hv
    cases hv

theorem readable_of_speedOrOther {event : WrappedEvent}
    (hevent : SpeedOrOther valueToString cfg event) : Readable valueToString cfg event := by
  rcases hevent with hspeed | ⟨-, -, hread⟩
  · obtain ⟨v, hv⟩ := Option.isSome_iff_exists.1 hspeed
    unfold engineSpeed at hv
    split at hv
    · next hid =>
      cases hdata : event.jsonValue with
      | object members =>
        refine ⟨fun _ _ => ?_, fun hign => ?_, fun hses => ?_⟩
        · unfold WrappedEvent.getInt
          rw [hdata]
          dsimp only
          split <;> rfl
        · rw [hign] at hid
          exact absurd hid (by decide)
        · rw [hses] at hid
          exact absurd hid (by decide)
      | _ =>
        rw [hdata] at hv
        cases hv
    · cases hv
  · exact hread

/-- Where the speed decides about the ignition, it is on iff the last speed is above zero, all
the way through a run, iff every speed above zero comes with the id `RPM` as an integer that
an `int` holds. -/
theorem ignition_iff_speed (valueToString : ℚ → String) {cfg : SessionConfig}
    (hself : cfg.strStartupType = STARTUP_SELF) (hused : isRpmUsedForIgnStatus cfg = true)
    {events : List WrappedEvent} (hevents : ∀ event ∈ events, SpeedOrOther valueToString cfg event) :
    (∀ before, before <+: events →
      ∃ h, Lib.exec (handleEvent valueToString cfg) init before = some h ∧
        FollowsSpeed (lastSpeed before) h) ↔
      ∀ event ∈ events, SpeedRead event := by
  have hruns : ∀ before, before <+: events →
      ∃ h, Lib.exec (handleEvent valueToString cfg) init before = some h := by
    intro before hbefore
    refine Option.isSome_iff_exists.1 ((Lib.exec_isSome_iff
      (fun h event => handleEvent_isSome valueToString hself h event) init before).2 ?_)
    exact fun event hevent => readable_of_speedOrOther (hevents event (hbefore.subset hevent))
  obtain ⟨h', hrun⟩ := hruns events List.prefix_rfl
  -- the events passed on are those of the run so far
  have hpassed : ∀ before h, Lib.exec (handleEvent valueToString cfg) init before = some h →
      h.passed.map Prod.fst = before :=
    fun before h hbefore => (sessionFiltered_of_run hself inv_init hbefore).1
  have hinit : FollowsSpeed (lastSpeed (init.passed.map Prod.fst)) init := by
    refine iff_of_false (by simp [init]) ?_
    rintro ⟨v, hv, -⟩
    cases hv
  have hiff := @Lib.along_iff_of _ _ (handleEvent valueToString cfg)
    (fun _ event => SpeedRead event)
    (fun h => FollowsSpeed (lastSpeed (h.passed.map Prod.fst)) h) (fun _ => True)
    (SpeedOrOther valueToString cfg)
    (fun h event h' hevent _ hfollows hstep =>
      ⟨trivial, followsSpeed_step hself hused hevent hfollows hstep⟩)
    events init h' hevents trivial hinit hrun
  constructor
  · intro hall
    refine Lib.forall_mem_of_along hrun (hiff.2 fun before hbefore h hh => ?_)
    obtain ⟨h₁, hrun₁, hfollows⟩ := hall before hbefore
    rw [hrun₁] at hh
    cases hh
    rw [hpassed before _ hrun₁]
    exact hfollows
  · intro hread before hbefore
    obtain ⟨h, hh⟩ := hruns before hbefore
    have hfollows := hiff.1 (Lib.along_of_forall_mem (fun event hevent _ => hread event hevent) init)
      before hbefore h hh
    rw [hpassed before h hh] at hfollows
    exact ⟨h, hh, hfollows⟩

/-- An event with a speed. -/
def speedEvent (strEventId : String) (value : JsonValue) : WrappedEvent :=
  ⟨strEventId, 1649851984309, .object [("value", value)]⟩

/-- The engine starts and stops, told by the id `RPM`. -/
theorem ignition_iff_speed_sample :
    ∃ h, Lib.exec (handleEvent (fun _ => "") selfConfig) init
        [speedEvent RPM_EV_ID (.int 800), speedEvent ERPM_EV_ID (.int 0)] = some h ∧
      FollowsSpeed (lastSpeed [speedEvent RPM_EV_ID (.int 800), speedEvent ERPM_EV_ID (.int 0)]) h :=
  (@ignition_iff_speed (fun _ => "") selfConfig rfl rfl
    [speedEvent RPM_EV_ID (.int 800), speedEvent ERPM_EV_ID (.int 0)]
    (by
      intro event hevent
      simp only [List.mem_cons, List.not_mem_nil, or_false] at hevent
      rcases hevent with rfl | rfl
      · exact Or.inl rfl
      · exact Or.inl rfl)).2
    (by
      intro event hevent v hv
      simp only [List.mem_cons, List.not_mem_nil, or_false] at hevent
      rcases hevent with rfl | rfl
      · have h800 : v = 800 := (Option.some.inj hv).symm
        rw [h800]
        exact Or.inr ⟨rfl, by norm_num, by norm_num⟩
      · have h0 : v = 0 := (Option.some.inj hv).symm
        exact Or.inl h0.le)
    _ List.prefix_rfl

/-- A speed above zero with the id `EngineRPM` turns the ignition off. -/
theorem not_ignition_of_engineRpm :
    ∃ h, Lib.exec (handleEvent (fun _ => "") selfConfig) init
        [speedEvent ERPM_EV_ID (.int 1000)] = some h ∧
      lastSpeed [speedEvent ERPM_EV_ID (.int 1000)] = some 1000 ∧
      h.m_eIgnState = .eIGNITION_OFF :=
  ⟨_, rfl, rfl, rfl⟩

end SessionStatusHandler

end DeviceClient
