import DeviceClient.Lib.Int32
import DeviceClient.Lib.Noninterference
import DeviceClient.Util.JsonNumbers
import Mathlib.Algebra.Order.Ring.Cast

/-!
# The interval between two events

`CEventIntervalValidator` turns an event away that comes too soon after the last one
of its id that it let through. The intervals are read from the configuration as
integers of 64 bits and kept as an `int`.

* `populate_apply`: the intervals that are kept, from those that are configured.
* `spaced_accepted`: the events that are let through keep the interval that is kept.
* `blind_id`: the events of the other ids do not matter.
* `keepsIntervals_iff`: when the configured intervals are kept.
-/

namespace DeviceClient

namespace JsonValue

/-- What an iterator goes over: the key and the value of each member. -/
def iterated : JsonValue → List (String × JsonValue)
  | .array values => values.zipIdx.map fun p => (toString p.2, p.1)
  | .object members => members
  | _ => []

/-- The number that a value is read as, before a fraction is cut off. -/
def number : JsonValue → Option ℚ
  | .null => some 0
  | .boolean value => some (if value then 1 else 0)
  | .int value => some value
  | .uint value => some value
  | .real value => some value
  | _ => none

end JsonValue

/-! ## The validator -/

/-- `DAM.Database.validateInterval` and `DAM.Database.IntervalList`. -/
structure IntervalConfig where
  validateInterval : Bool
  jsonIntervalList : JsonValue

/-- `CEventIntervalValidator`: for an id its interval and the time of the last event. -/
structure EventIntervalValidator where
  m_bValidateInterval : Bool
  m_mapEventInterval : String → Option (ℤ × ℤ)

namespace EventIntervalValidator

/-- One entry of the list; `asInt64` may throw, and `nIntvl` is an `int`. -/
def addInterval (mapEventInterval : String → Option (ℤ × ℤ)) (entry : String × JsonValue) :
    Option (String → Option (ℤ × ℤ)) :=
  entry.2.asInt64.map fun nIntvl =>
    Function.update mapEventInterval entry.1 (some (Lib.toInt32 nIntvl, 0))

/-- `PopulateEventIntervalFromConfig`; `none` if an exception leaves it. -/
def populateEventIntervalFromConfig (jsonIntervalList : JsonValue) :
    Option (String → Option (ℤ × ℤ)) :=
  jsonIntervalList.iterated.foldlM addInterval fun _ => none

/-- The constructor. -/
def init (cfg : IntervalConfig) : Option EventIntervalValidator :=
  (populateEventIntervalFromConfig cfg.jsonIntervalList).map fun mapEventInterval =>
    { m_bValidateInterval := cfg.validateInterval, m_mapEventInterval := mapEventInterval }

/-- `ValidateInterval`: `difftime` of the two against the interval. -/
def validateInterval (llCurTimestamp llPrevTimestamp nInterval : ℤ) : Bool :=
  if llCurTimestamp - llPrevTimestamp < nInterval then false else true

/-- The event of an id with its interval: the time kept afterwards, and the verdict. -/
def judge (pairEntry : ℤ × ℤ) (llTimestamp : ℤ) : (ℤ × ℤ) × Bool :=
  if pairEntry.1 = -1 then (pairEntry, false)
  else if pairEntry.2 = 0 then ((pairEntry.1, llTimestamp), true)
  else if validateInterval llTimestamp pairEntry.2 pairEntry.1 then
    ((pairEntry.1, llTimestamp), true)
  else (pairEntry, false)

/-- `IsValidInterval`. -/
def isValidInterval (v : EventIntervalValidator) (strEventId : String) (llTimestamp : ℤ) :
    EventIntervalValidator × Bool :=
  if v.m_bValidateInterval then
    match v.m_mapEventInterval strEventId with
    | none => (v, true)
    | some pairEntry =>
      ({ v with
          m_mapEventInterval :=
            Function.update v.m_mapEventInterval strEventId
              (some (judge pairEntry llTimestamp).1) }, (judge pairEntry llTimestamp).2)
  else (v, true)

/-! ## Runs -/

/-- The verdict on an event. -/
structure Verdict where
  strEventId : String
  llTimestamp : ℤ
  accepted : Bool
deriving DecidableEq

/-- One event, of an id and with a time. -/
def step (v : EventIntervalValidator) (event : String × ℤ) :
    EventIntervalValidator × List Verdict :=
  ((v.isValidInterval event.1 event.2).1,
    [⟨event.1, event.2, (v.isValidInterval event.1 event.2).2⟩])

/-- The verdicts on the events of a run. -/
def verdicts (v : EventIntervalValidator) (events : List (String × ℤ)) : List Verdict :=
  Lib.outputs step v events

/-- The times of the events of an id that were let through. -/
def accepted (v : EventIntervalValidator) (strEventId : String) (events : List (String × ℤ)) :
    List ℤ :=
  ((v.verdicts events).filter fun o => o.strEventId = strEventId ∧ o.accepted = true).map
    Verdict.llTimestamp

/-- Each time is at least `interval` behind the one before. -/
def Spaced (interval : ℚ) (times : List ℤ) : Prop :=
  times.IsChain fun t t' : ℤ => interval ≤ ((t' - t : ℤ) : ℚ)

end EventIntervalValidator

namespace IntervalConfig

/-- The number of a key in a list; a later entry replaces an earlier one. -/
def lastNumber (strEventId : String) : List (String × JsonValue) → Option ℚ
  | [] => none
  | (key, value) :: rest =>
    (lastNumber strEventId rest).or (if key = strEventId then value.number else none)

/-- The interval that is configured for an id; without the validation there is none. -/
def interval (cfg : IntervalConfig) (strEventId : String) : Option ℚ :=
  if cfg.validateInterval then lastNumber strEventId cfg.jsonIntervalList.iterated else none

/-- The `int` that is made of an interval. -/
def asStored (interval : ℚ) : ℤ :=
  Lib.toInt32 (if 0 ≤ interval then interval.floor else interval.ceil)

theorem asStored_intCast (n : ℤ) : asStored n = Lib.toInt32 n := by
  rw [asStored, Rat.floor_intCast, Rat.ceil_intCast, ite_self]

end IntervalConfig

namespace EventIntervalValidator

/-! ## The intervals that are kept -/

/-- What `asInt64` reads is a number, and this is what is kept for it. -/
theorem asInt64_number {value : JsonValue} {n : ℤ} (h : value.asInt64 = some n) :
    ∃ q, value.number = some q ∧ Lib.toInt32 n = IntervalConfig.asStored q := by
  cases value with
  | null => exact ⟨0, rfl, by cases h; rfl⟩
  | boolean b =>
    refine ⟨if b then 1 else 0, rfl, ?_⟩
    cases h
    cases b <;> rfl
  | int z =>
    cases h
    exact ⟨n, rfl, (IntervalConfig.asStored_intCast n).symm⟩
  | uint z =>
    have hz := (Option.ite_none_right_eq_some.1 h).2
    cases hz
    exact ⟨_, rfl, (IntervalConfig.asStored_intCast z).symm⟩
  | real q =>
    obtain ⟨-, hq⟩ := Option.ite_none_right_eq_some.1 h
    exact ⟨q, rfl, (congrArg Lib.toInt32 (Option.some.inj hq)).symm⟩
  | string _ => cases h
  | array _ => cases h
  | object _ => cases h

theorem foldlM_addInterval {entries : List (String × JsonValue)}
    {before after : String → Option (ℤ × ℤ)}
    (h : entries.foldlM addInterval before = some after) (strEventId : String) :
    after strEventId =
      ((IntervalConfig.lastNumber strEventId entries).map fun q =>
        (IntervalConfig.asStored q, 0)).or (before strEventId) := by
  induction entries generalizing before with
  | nil =>
    rw [List.foldlM_nil] at h
    cases h
    rfl
  | cons entry rest ih =>
    obtain ⟨key, value⟩ := entry
    rw [List.foldlM_cons] at h
    obtain ⟨mid, hmid, hrest⟩ := Option.bind_eq_some_iff.1 h
    obtain ⟨n, hn, rfl⟩ := Option.map_eq_some_iff.1 hmid
    obtain ⟨q, hq, hstored⟩ := asInt64_number hn
    rw [ih hrest, IntervalConfig.lastNumber, Option.map_or, Option.or_assoc]
    congr 1
    by_cases hkey : key = strEventId
    · rw [if_pos hkey, ← hkey, Function.update_self, hq, hstored]
      rfl
    · rw [if_neg hkey, Function.update_of_ne (Ne.symm hkey)]
      rfl

/-- Before the first event. -/
theorem init_apply {cfg : IntervalConfig} {v : EventIntervalValidator} (h : init cfg = some v)
    (strEventId : String) :
    v.m_mapEventInterval strEventId =
      (IntervalConfig.lastNumber strEventId cfg.jsonIntervalList.iterated).map fun q =>
        (IntervalConfig.asStored q, 0) := by
  obtain ⟨mapEventInterval, hmap, rfl⟩ := Option.map_eq_some_iff.1 h
  exact (foldlM_addInterval hmap strEventId).trans Option.or_none

theorem init_m_bValidateInterval {cfg : IntervalConfig} {v : EventIntervalValidator}
    (h : init cfg = some v) : v.m_bValidateInterval = cfg.validateInterval := by
  obtain ⟨mapEventInterval, -, rfl⟩ := Option.map_eq_some_iff.1 h
  rfl

/-! ## One event -/

theorem step_m_bValidateInterval (v : EventIntervalValidator) (event : String × ℤ) :
    (step v event).1.m_bValidateInterval = v.m_bValidateInterval := by
  unfold step isValidInterval
  by_cases hon : v.m_bValidateInterval = true
  · rw [if_pos hon]
    cases v.m_mapEventInterval event.1 <;> rfl
  · rw [if_neg hon]

/-- An event changes the entry of its id only. -/
theorem step_of_ne (v : EventIntervalValidator) {event : String × ℤ} {strEventId : String}
    (hne : event.1 ≠ strEventId) :
    (step v event).1.m_mapEventInterval strEventId = v.m_mapEventInterval strEventId := by
  unfold step isValidInterval
  by_cases hon : v.m_bValidateInterval = true
  · rw [if_pos hon]
    cases v.m_mapEventInterval event.1 with
    | none => rfl
    | some pairEntry => exact Function.update_of_ne hne.symm _ _
  · rw [if_neg hon]

/-- An event of an id with an interval. -/
theorem isValidInterval_of_entry {v : EventIntervalValidator} (hon : v.m_bValidateInterval = true)
    {strEventId : String} {pairEntry : ℤ × ℤ}
    (hentry : v.m_mapEventInterval strEventId = some pairEntry) (llTimestamp : ℤ) :
    (v.isValidInterval strEventId llTimestamp).1.m_mapEventInterval strEventId =
        some (judge pairEntry llTimestamp).1 ∧
      (v.isValidInterval strEventId llTimestamp).2 = (judge pairEntry llTimestamp).2 := by
  unfold isValidInterval
  rw [if_pos hon, hentry]
  exact ⟨Function.update_self .., rfl⟩

theorem accepted_cons_of_ne (v : EventIntervalValidator) {event : String × ℤ}
    {strEventId : String} (hne : event.1 ≠ strEventId) (events : List (String × ℤ)) :
    v.accepted strEventId (event :: events) = (step v event).1.accepted strEventId events := by
  unfold accepted verdicts
  rw [Lib.outputs, List.filter_append, step]
  rw [List.filter_cons_of_neg (by simp [hne]), List.filter_nil, List.nil_append]

theorem accepted_cons_self (v : EventIntervalValidator) (strEventId : String) (llTimestamp : ℤ)
    (events : List (String × ℤ)) :
    v.accepted strEventId ((strEventId, llTimestamp) :: events) =
      (if (v.isValidInterval strEventId llTimestamp).2 = true then [llTimestamp] else []) ++
        (step v (strEventId, llTimestamp)).1.accepted strEventId events := by
  unfold accepted verdicts
  rw [Lib.outputs, List.filter_append, List.map_append, step]
  congr 1
  by_cases hv : (v.isValidInterval strEventId llTimestamp).2 = true
  · rw [if_pos hv, List.filter_cons_of_pos (by simp [hv])]
    rfl
  · rw [if_neg hv, List.filter_cons_of_neg (by simp [hv])]
    rfl

/-! ## The distance between two events -/

/-- The time that an entry holds, if it holds one. -/
def heldTime (llTimestamp : ℤ) : List ℤ := if llTimestamp = 0 then [] else [llTimestamp]

theorem spaced_accepted {v : EventIntervalValidator} (hon : v.m_bValidateInterval = true)
    {strEventId : String} {n held : ℤ} (hentry : v.m_mapEventInterval strEventId = some (n, held))
    (hn : n ≠ -1) {events : List (String × ℤ)} (hpos : ∀ event ∈ events, 0 < event.2) :
    (heldTime held ++ v.accepted strEventId events).IsChain fun t t' => n ≤ t' - t := by
  induction events generalizing v held with
  | nil =>
    unfold heldTime
    by_cases hheld : held = 0
    · rw [if_pos hheld]
      exact List.IsChain.nil
    · rw [if_neg hheld]
      exact List.IsChain.singleton _
  | cons event events ih =>
    obtain ⟨key, t⟩ := event
    have hrest : ∀ event ∈ events, 0 < event.2 := fun e he => hpos e (List.mem_cons_of_mem _ he)
    have hnext := (step_m_bValidateInterval v (key, t)).trans hon
    by_cases hkey : key = strEventId
    · subst hkey
      have ht : t ≠ 0 := (hpos _ List.mem_cons_self).ne'
      obtain ⟨hafter, hverdict⟩ := isValidInterval_of_entry hon hentry t
      rw [accepted_cons_self, hverdict]
      unfold judge at hafter ⊢
      rw [if_neg hn] at hafter ⊢
      by_cases hheld : held = 0
      · -- the first event: there is nothing to compare it with
        rw [if_pos hheld] at hafter ⊢
        have hchain := ih hnext hafter hrest
        rw [heldTime, if_neg ht] at hchain
        rw [heldTime, if_pos hheld]
        exact hchain
      · rw [if_neg hheld] at hafter ⊢
        by_cases hvalid : validateInterval t held n = true
        · rw [if_pos hvalid] at hafter ⊢
          have hchain := ih hnext hafter hrest
          rw [heldTime, if_neg ht] at hchain
          rw [heldTime, if_neg hheld]
          refine List.isChain_cons_cons.2 ⟨?_, hchain⟩
          unfold validateInterval at hvalid
          by_contra hlt
          rw [if_pos (not_le.1 hlt)] at hvalid
          cases hvalid
        · rw [if_neg hvalid] at hafter ⊢
          exact ih hnext hafter hrest
    · rw [accepted_cons_of_ne v hkey]
      exact ih hnext ((step_of_ne v hkey).trans hentry) hrest

/-- Of an id with the interval -1 no event is let through. -/
theorem accepted_never {v : EventIntervalValidator} (hon : v.m_bValidateInterval = true)
    {strEventId : String} {held : ℤ} (hentry : v.m_mapEventInterval strEventId = some (-1, held))
    (events : List (String × ℤ)) : v.accepted strEventId events = [] := by
  induction events generalizing v with
  | nil => rfl
  | cons event events ih =>
    obtain ⟨key, t⟩ := event
    have hnext := (step_m_bValidateInterval v (key, t)).trans hon
    by_cases hkey : key = strEventId
    · subst hkey
      obtain ⟨hafter, hverdict⟩ := isValidInterval_of_entry hon hentry t
      rw [accepted_cons_self, hverdict]
      exact ih hnext hafter
    · rw [accepted_cons_of_ne v hkey]
      exact ih hnext ((step_of_ne v hkey).trans hentry)

/-! ## The events of other ids -/

/-- What an event of an id does is in the entry of the id. -/
theorem isValidInterval_congr {v w : EventIntervalValidator} {strEventId : String}
    (hflag : v.m_bValidateInterval = w.m_bValidateInterval)
    (hentry : v.m_mapEventInterval strEventId = w.m_mapEventInterval strEventId)
    (llTimestamp : ℤ) :
    (v.isValidInterval strEventId llTimestamp).1.m_mapEventInterval strEventId =
        (w.isValidInterval strEventId llTimestamp).1.m_mapEventInterval strEventId ∧
      (v.isValidInterval strEventId llTimestamp).2 =
        (w.isValidInterval strEventId llTimestamp).2 := by
  by_cases hon : w.m_bValidateInterval = true
  · cases hw : w.m_mapEventInterval strEventId with
    | none =>
      unfold isValidInterval
      rw [hflag, hentry, if_pos hon, if_pos hon, hw]
      exact ⟨hentry, rfl⟩
    | some pairEntry =>
      obtain ⟨hv, hvv⟩ := isValidInterval_of_entry (hflag.trans hon) (hentry.trans hw) llTimestamp
      obtain ⟨hw, hwv⟩ := isValidInterval_of_entry hon hw llTimestamp
      exact ⟨hv.trans hw.symm, hvv.trans hwv.symm⟩
  · unfold isValidInterval
    rw [hflag, if_neg hon, if_neg hon]
    exact ⟨hentry, rfl⟩

/-- One id: its entry, its events and the verdicts on them. -/
theorem blind_id (strEventId : String) :
    Lib.Blind step
      (fun v : EventIntervalValidator => (v.m_bValidateInterval, v.m_mapEventInterval strEventId))
      (fun event => event.1 = strEventId) (fun o : Verdict => o.strEventId = strEventId) where
  view_step v w event hview := by
    obtain ⟨hflag, hentry⟩ := Prod.mk.inj hview
    refine Prod.ext ?_ ?_
    · exact (step_m_bValidateInterval v event).trans
        (hflag.trans (step_m_bValidateInterval w event).symm)
    · by_cases hid : event.1 = strEventId
      · subst hid
        exact (isValidInterval_congr hflag hentry event.2).1
      · exact (step_of_ne v hid).trans (hentry.trans (step_of_ne w hid).symm)
  shows_step v w event hview := by
    obtain ⟨hflag, hentry⟩ := Prod.mk.inj hview
    by_cases hid : event.1 = strEventId
    · subst hid
      rw [step, step, (isValidInterval_congr hflag hentry event.2).2]
    · rw [step, step, List.filter_cons_of_neg (by simpa using hid),
        List.filter_cons_of_neg (by simpa using hid)]
  view_idle v event hsees := by
    have hne : event.1 ≠ strEventId := of_decide_eq_false hsees
    exact Prod.ext (step_m_bValidateInterval v event) (step_of_ne v hne)
  shows_idle v event hsees := by
    have hne : event.1 ≠ strEventId := of_decide_eq_false hsees
    exact List.filter_cons_of_neg (by simpa [step] using hne)

/-- The verdicts on the events of an id, alone or among others. -/
theorem verdicts_filter (v : EventIntervalValidator) (strEventId : String)
    (events : List (String × ℤ)) :
    (v.verdicts events).filter (fun o => o.strEventId = strEventId) =
      v.verdicts (events.filter fun event => event.1 = strEventId) := by
  refine ((blind_id strEventId).filter_outputs rfl events).trans (List.filter_eq_self.2 ?_)
  have hids : ∀ (w : EventIntervalValidator) (l : List (String × ℤ)), ∀ o ∈ w.verdicts l,
      ∃ event ∈ l, o.strEventId = event.1 := by
    intro w l
    induction l generalizing w with
    | nil => exact fun o ho => absurd ho List.not_mem_nil
    | cons event l ih =>
      intro o ho
      rcases List.mem_append.1 ho with hhead | htail
      · rw [List.mem_singleton.1 hhead]
        exact ⟨event, List.mem_cons_self, rfl⟩
      · obtain ⟨event', hmem, heq⟩ := ih _ o htail
        exact ⟨event', List.mem_cons_of_mem _ hmem, heq⟩
  intro o ho
  obtain ⟨event, hmem, heq⟩ := hids v _ o ho
  rw [heq]
  exact (List.mem_filter.1 hmem).2

/-! ## The configured intervals -/

/-- The events of an id keep the interval that is configured for it, none is let through
of an id with the interval -1, and the verdicts on the events of an id do not depend on
the others. -/
structure KeepsIntervals (cfg : IntervalConfig) (v : EventIntervalValidator) : Prop where
  spaced : ∀ strEventId interval, cfg.interval strEventId = some interval →
    ∀ events, (∀ event ∈ events, 0 < event.2) → Spaced interval (v.accepted strEventId events)
  never : ∀ strEventId, cfg.interval strEventId = some (-1) →
    ∀ events, (∀ event ∈ events, 0 < event.2) → v.accepted strEventId events = []
  alone : ∀ strEventId events, (∀ event ∈ events, 0 < event.2) →
    (v.verdicts events).filter (fun o => o.strEventId = strEventId) =
      v.verdicts (events.filter fun event => event.1 = strEventId)

/-- The entry of an id with an interval. -/
theorem entry_of_interval {cfg : IntervalConfig} {v : EventIntervalValidator}
    (h : init cfg = some v) {strEventId : String} {interval : ℚ}
    (hinterval : cfg.interval strEventId = some interval) :
    v.m_bValidateInterval = true ∧
      v.m_mapEventInterval strEventId = some (IntervalConfig.asStored interval, 0) := by
  obtain ⟨hon, hnumber⟩ := Option.ite_none_right_eq_some.1 hinterval
  exact ⟨(init_m_bValidateInterval h).trans hon, by rw [init_apply h, hnumber]; rfl⟩

/-- Two events whose distance is the interval that is kept for their id. -/
theorem accepted_pair {v : EventIntervalValidator} (hon : v.m_bValidateInterval = true)
    {strEventId : String} {n t : ℤ} (hentry : v.m_mapEventInterval strEventId = some (n, 0))
    (hn : n ≠ -1) (ht : t ≠ 0) :
    v.accepted strEventId [(strEventId, t), (strEventId, t + n)] = [t, t + n] := by
  obtain ⟨hafter, hverdict⟩ := isValidInterval_of_entry hon hentry t
  have hfirst : judge (n, 0) t = ((n, t), true) := by
    unfold judge
    rw [if_neg hn, if_pos rfl]
  have hvalid : validateInterval (t + n) t n = true := if_neg (by omega)
  have hsecond : judge (n, t) (t + n) = ((n, t + n), true) := by
    unfold judge
    rw [if_neg hn, if_neg ht, if_pos hvalid]
  rw [hfirst] at hafter hverdict
  obtain ⟨-, hverdict'⟩ :=
    isValidInterval_of_entry ((step_m_bValidateInterval v (strEventId, t)).trans hon) hafter (t + n)
  rw [hsecond] at hverdict'
  rw [accepted_cons_self, hverdict, if_pos rfl, accepted_cons_self]
  exact congrArg (fun b : Bool => [t] ++ ((if b = true then [t + n] else []) ++ [])) hverdict'

/-- The intervals are kept iff each that is stored is no shorter than the one configured. -/
theorem keepsIntervals_iff {cfg : IntervalConfig} {v : EventIntervalValidator}
    (h : init cfg = some v) :
    KeepsIntervals cfg v ↔
      ∀ strEventId interval, cfg.interval strEventId = some interval →
        IntervalConfig.asStored interval = -1 ∨
          interval ≤ ((IntervalConfig.asStored interval : ℤ) : ℚ) := by
  constructor
  · intro hkeeps strEventId interval hinterval
    obtain ⟨hon, hentry⟩ := entry_of_interval h hinterval
    by_contra hcon
    obtain ⟨hn, hlt⟩ := not_or.1 hcon
    generalize IntervalConfig.asStored interval = n at hentry hn hlt
    have hspaced := hkeeps.spaced strEventId interval hinterval
      [(strEventId, 1 + max 0 (-n)), (strEventId, 1 + max 0 (-n) + n)] (by
        intro event hevent
        rcases List.mem_cons.1 hevent with rfl | hrest
        · change 0 < 1 + max 0 (-n)
          omega
        · rw [List.mem_singleton.1 hrest]
          change 0 < 1 + max 0 (-n) + n
          omega)
    rw [accepted_pair hon hentry hn (by omega)] at hspaced
    have hle := (List.isChain_cons_cons.1 hspaced).1
    rw [add_sub_cancel_left] at hle
    exact hlt hle
  · intro hstored
    refine ⟨fun strEventId interval hinterval events hpos => ?_,
      fun strEventId hinterval events _ => ?_, fun strEventId events _ =>
        verdicts_filter v strEventId events⟩
    · obtain ⟨hon, hentry⟩ := entry_of_interval h hinterval
      by_cases hn : IntervalConfig.asStored interval = -1
      · rw [hn] at hentry
        rw [accepted_never hon hentry]
        exact List.IsChain.nil
      · have hle := (hstored strEventId interval hinterval).resolve_left hn
        have hchain := spaced_accepted hon hentry hn hpos
        rw [heldTime, if_pos rfl, List.nil_append] at hchain
        exact hchain.imp fun t t' htt' => hle.trans (Int.cast_le.2 htt')
    · obtain ⟨hon, hentry⟩ := entry_of_interval h hinterval
      have hnever : IntervalConfig.asStored (-1) = -1 := IntervalConfig.asStored_intCast (-1)
      rw [hnever] at hentry
      exact accepted_never hon hentry events

/-- Three seconds between two events are kept. -/
theorem keepsIntervals_speed :
    ∃ v, init ⟨true, .object [("Speed", .int 3000)]⟩ = some v ∧
      KeepsIntervals ⟨true, .object [("Speed", .int 3000)]⟩ v := by
  refine ⟨_, rfl, (keepsIntervals_iff rfl).2 fun strEventId interval hinterval => Or.inr ?_⟩
  obtain ⟨-, hnumber⟩ := Option.ite_none_right_eq_some.1 hinterval
  cases (Option.ite_none_right_eq_some.1 hnumber).2
  exact Int.cast_le.2 (IntervalConfig.asStored_intCast 3000).ge

/-- An interval of `2 ^ 32` milliseconds is kept as zero: two events of one moment are both
let through. -/
theorem not_keepsIntervals_wrapped :
    ∃ v, init ⟨true, .object [("Speed", .int (2 ^ 32))]⟩ = some v ∧
      v.accepted "Speed" [("Speed", 1000), ("Speed", 1000)] = [1000, 1000] ∧
      ¬ KeepsIntervals ⟨true, .object [("Speed", .int (2 ^ 32))]⟩ v := by
  refine ⟨_, rfl, by decide, fun hkeeps => ?_⟩
  have hspaced := hkeeps.spaced "Speed" ((2 ^ 32 : ℤ) : ℚ) rfl
    [("Speed", 1000), ("Speed", 1000)] (by decide)
  have haccepted : accepted
      ⟨true, Function.update (fun _ => none) "Speed" (some (Lib.toInt32 (2 ^ 32), 0))⟩ "Speed"
      [("Speed", 1000), ("Speed", 1000)] = [1000, 1000] := by decide
  rw [haccepted] at hspaced
  exact absurd (Int.cast_le.1 (List.isChain_cons_cons.1 hspaced).1) (by decide)

end EventIntervalValidator

end DeviceClient
