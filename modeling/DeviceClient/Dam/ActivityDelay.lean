import DeviceClient.Lib.KeyedList
import DeviceClient.Util.JsonNumbers
import DeviceClient.Util.JsonPath
import Mathlib.Data.List.Induction
import Mathlib.Order.Bounds.Basic

/-!
# The delay of an upload

`CActivityDelay` keeps the time of the last event of each configured id. An upload waits
until each of them is as long ago as its timeout says.

* `lookup_run`: the time that is kept is the one of the last event.
* `isLeast_foldl`: the loop over the kept times finds the least bound of what they need.
* `isLeast_computeDeferUpload`: the least delay after which no timeout runs.
-/

namespace DeviceClient

/-- `CActivityDelay`. -/
structure ActivityDelay where
  m_mapDefervent : List (String × ℤ)
  m_mapEventConfigData : List (String × ℤ)

namespace ActivityDelay

/-! ## Configuration -/

/-- One element of `DAM.UploadEventConfig`: `eventID` and `timeoutSec`. -/
def eventConfig (valueToString : ℚ → String) (jsonConfigVal : JsonValue) : Option (String × ℤ) :=
  jsonConfigVal.objectMembers.bind fun members =>
    (((members.lookup "eventID").getD .null).asString valueToString).bind fun strEventId =>
      ((members.lookup "timeoutSec").getD .null).asInt.map fun nTimeout => (strEventId, nTimeout)

/-- The elements of `DAM.UploadEventConfig`; an object that is not empty has no element 0. -/
def uploadEventConfig (valueToString : ℚ → String) : JsonValue → Option (List (String × ℤ))
  | .array values => values.mapM (eventConfig valueToString)
  | .object members => if members.isEmpty then some [] else none
  | _ => some []

/-- The map of the timeouts; `insert` leaves an entry that is there. -/
def insertAll (entries : List (String × ℤ)) : List (String × ℤ) :=
  entries.foldl (fun map entry => Lib.insertKey entry.1 entry.2 map) []

/-- The constructor; `none` if an exception leaves it. -/
def init (valueToString : ℚ → String) (jsonUploadEventConfigValue : JsonValue) :
    Option ActivityDelay :=
  (uploadEventConfig valueToString jsonUploadEventConfigValue).map fun entries =>
    { m_mapDefervent := [], m_mapEventConfigData := insertAll entries }

/-- The timeout of an id: the first that is configured. -/
def timeout (valueToString : ℚ → String) (jsonUploadEventConfigValue : JsonValue)
    (strEventId : String) : Option ℤ :=
  (uploadEventConfig valueToString jsonUploadEventConfigValue).bind fun entries =>
    entries.lookup strEventId

/-! ## Events and the delay -/

/-- `HandleEvent`, at a time of the monotonic clock; the event goes to the next handler
in every case. -/
def handleEvent (d : ActivityDelay) (strEventID : String) (llCurrentTime : ℤ) : ActivityDelay :=
  if (d.m_mapEventConfigData.lookup strEventID).isSome then
    { d with m_mapDefervent := Lib.setKey strEventID llCurrentTime d.m_mapDefervent }
  else d

/-- `TIME_DIFFERNCE_IN_SECONDS`. -/
def timeDiffernceInSeconds (x y : ℤ) : ℤ := (x - y).tdiv 1000

/-- `m_mapEventConfigData[strEventID]`. -/
def eventTimeout (d : ActivityDelay) (strEventID : String) : ℤ :=
  (d.m_mapEventConfigData.lookup strEventID).getD 0

/-- The loop's body: `nDefertime` after one of the kept times. -/
def deferStep (d : ActivityDelay) (llCurrentTime nDefertime : ℤ) (entry : String × ℤ) : ℤ :=
  if d.eventTimeout entry.1 ≤ timeDiffernceInSeconds llCurrentTime entry.2 then nDefertime
  else if nDefertime < d.eventTimeout entry.1 - timeDiffernceInSeconds llCurrentTime entry.2 then
    d.eventTimeout entry.1 - timeDiffernceInSeconds llCurrentTime entry.2
  else nDefertime

/-- `ComputeDeferUpload`. -/
def computeDeferUpload (d : ActivityDelay) (llCurrentTime : ℤ) : ℤ :=
  d.m_mapDefervent.foldl (d.deferStep llCurrentTime) 0

/-- The events of a run, each with the time at which it is handled. -/
def run (d : ActivityDelay) (events : List (String × ℤ)) : ActivityDelay :=
  events.foldl (fun d event => d.handleEvent event.1 event.2) d

/-- The time of the last event of an id. -/
def lastSeen (strEventId : String) (events : List (String × ℤ)) : Option ℤ :=
  events.reverse.lookup strEventId

/-- In `s` seconds every event that was seen is as long ago as its timeout says, in whole
seconds. -/
def Elapsed (timeout : String → Option ℤ) (events : List (String × ℤ)) (llCurrentTime s : ℤ) :
    Prop :=
  ∀ strEventId nTimeout llLast, timeout strEventId = some nTimeout →
    lastSeen strEventId events = some llLast → nTimeout ≤ (llCurrentTime + 1000 * s - llLast) / 1000

/-! ## The loop -/

theorem deferStep_eq_max (d : ActivityDelay) (llCurrentTime : ℤ) {nDefertime : ℤ}
    (h : 0 ≤ nDefertime) (entry : String × ℤ) :
    d.deferStep llCurrentTime nDefertime entry =
      max nDefertime (d.eventTimeout entry.1 - timeDiffernceInSeconds llCurrentTime entry.2) := by
  unfold deferStep
  split_ifs <;> omega

theorem isLeast_foldl (d : ActivityDelay) (llCurrentTime : ℤ) {nDefertime : ℤ}
    (h : 0 ≤ nDefertime) (entries : List (String × ℤ)) :
    IsLeast {s | nDefertime ≤ s ∧ ∀ entry ∈ entries,
        d.eventTimeout entry.1 - timeDiffernceInSeconds llCurrentTime entry.2 ≤ s}
      (entries.foldl (d.deferStep llCurrentTime) nDefertime) := by
  induction entries generalizing nDefertime with
  | nil => exact ⟨⟨le_rfl, fun _ hmem => absurd hmem List.not_mem_nil⟩, fun s hs => hs.1⟩
  | cons entry entries ih =>
    rw [List.foldl_cons, deferStep_eq_max d llCurrentTime h]
    obtain ⟨⟨hmax, hrest⟩, hleast⟩ := ih (h.trans (le_max_left _ _))
    refine ⟨⟨(le_max_left _ _).trans hmax, fun e he => ?_⟩, fun s hs => ?_⟩
    · rcases List.mem_cons.1 he with rfl | he
      · exact (le_max_right _ _).trans hmax
      · exact hrest e he
    · exact hleast ⟨max_le hs.1 (hs.2 entry List.mem_cons_self),
        fun e he => hs.2 e (List.mem_cons_of_mem _ he)⟩

/-! ## The kept times -/

theorem lookup_insertAll (entries : List (String × ℤ)) (strEventId : String) :
    (insertAll entries).lookup strEventId = entries.lookup strEventId := by
  have hfold : ∀ map : List (String × ℤ),
      (entries.foldl (fun map entry => Lib.insertKey entry.1 entry.2 map) map).lookup strEventId =
        (map.lookup strEventId).or (entries.lookup strEventId) := by
    induction entries with
    | nil => exact fun map => Option.or_none.symm
    | cons entry entries ih =>
      intro map
      obtain ⟨key, n⟩ := entry
      rw [List.foldl_cons, ih, Lib.lookup_insertKey, Lib.lookup_cons_ite]
      by_cases hkey : strEventId = key
      · subst hkey
        rw [if_pos rfl, if_pos rfl]
        cases map.lookup strEventId <;> rfl
      · rw [if_neg hkey, if_neg hkey]
  exact hfold []

theorem handleEvent_m_mapEventConfigData (d : ActivityDelay) (strEventID : String)
    (llCurrentTime : ℤ) :
    (d.handleEvent strEventID llCurrentTime).m_mapEventConfigData = d.m_mapEventConfigData := by
  unfold handleEvent
  split <;> rfl

theorem lookup_handleEvent (d : ActivityDelay) {strEventId : String} {nTimeout : ℤ}
    (hconfig : d.m_mapEventConfigData.lookup strEventId = some nTimeout) (event : String × ℤ) :
    (d.handleEvent event.1 event.2).m_mapDefervent.lookup strEventId =
      if strEventId = event.1 then some event.2 else d.m_mapDefervent.lookup strEventId := by
  unfold handleEvent
  by_cases hid : strEventId = event.1
  · rw [if_pos hid, if_pos (by rw [← hid, hconfig]; rfl)]
    exact (Lib.lookup_setKey _ _ _ _).trans (if_pos hid)
  · rw [if_neg hid]
    split
    · exact (Lib.lookup_setKey _ _ _ _).trans (if_neg hid)
    · rfl

theorem run_append_singleton (d : ActivityDelay) (events : List (String × ℤ))
    (event : String × ℤ) : d.run (events ++ [event]) = (d.run events).handleEvent event.1 event.2 :=
  List.foldl_concat ..

theorem lastSeen_append_singleton (strEventId : String) (events : List (String × ℤ))
    (event : String × ℤ) : lastSeen strEventId (events ++ [event]) =
      if strEventId = event.1 then some event.2 else lastSeen strEventId events := by
  unfold lastSeen
  rw [List.reverse_append]
  exact Lib.lookup_cons_ite strEventId event.1 event.2 events.reverse

/-- What a run keeps: the configuration, the order of the times, and for a configured id
the time of its last event. -/
structure Tracks (d : ActivityDelay) (events : List (String × ℤ)) (d' : ActivityDelay) :
    Prop where
  config : d'.m_mapEventConfigData = d.m_mapEventConfigData
  ascending : Lib.Ascending d'.m_mapDefervent
  configured : ∀ p ∈ d'.m_mapDefervent, ∃ nTimeout, d.m_mapEventConfigData.lookup p.1 = some nTimeout
  last : ∀ strEventId nTimeout, d.m_mapEventConfigData.lookup strEventId = some nTimeout →
    d'.m_mapDefervent.lookup strEventId = lastSeen strEventId events

theorem tracks_run {d : ActivityDelay} (hempty : d.m_mapDefervent = [])
    (events : List (String × ℤ)) : Tracks d events (d.run events) := by
  induction events using List.reverseRecOn with
  | nil =>
    have hrun : d.run [] = d := rfl
    rw [hrun]
    exact ⟨rfl, by rw [hempty]; exact Lib.ascending_nil,
      fun p hp => absurd (hempty ▸ hp) List.not_mem_nil, fun _ _ _ => by rw [hempty]; rfl⟩
  | append_singleton events event ih =>
    rw [run_append_singleton]
    refine ⟨(handleEvent_m_mapEventConfigData ..).trans ih.config, ?_, ?_, ?_⟩
    · unfold handleEvent
      split
      · exact Lib.ascending_setKey _ _ ih.ascending
      · exact ih.ascending
    · unfold handleEvent
      split
      · rename_i hconfig
        intro p hp
        rcases Lib.mem_setKey hp with rfl | hold
        · rw [ih.config] at hconfig
          exact Option.isSome_iff_exists.1 hconfig
        · exact ih.configured p hold
      · exact ih.configured
    · intro strEventId nTimeout hconfig
      rw [lookup_handleEvent _ ((congrArg (List.lookup strEventId) ih.config).trans hconfig),
        lastSeen_append_singleton, ih.last strEventId nTimeout hconfig]

/-! ## The delay -/

theorem init_m_mapDefervent {valueToString : ℚ → String} {json : JsonValue} {d : ActivityDelay}
    (h : init valueToString json = some d) : d.m_mapDefervent = [] := by
  obtain ⟨entries, -, rfl⟩ := Option.map_eq_some_iff.1 h
  rfl

theorem init_lookup {valueToString : ℚ → String} {json : JsonValue} {d : ActivityDelay}
    (h : init valueToString json = some d) (strEventId : String) :
    d.m_mapEventConfigData.lookup strEventId = timeout valueToString json strEventId := by
  obtain ⟨entries, hentries, rfl⟩ := Option.map_eq_some_iff.1 h
  rw [timeout, hentries]
  exact lookup_insertAll entries strEventId

theorem lastSeen_le {events : List (String × ℤ)} {llCurrentTime : ℤ}
    (hlater : ∀ event ∈ events, event.2 ≤ llCurrentTime) {strEventId : String} {llLast : ℤ}
    (hlast : lastSeen strEventId events = some llLast) : llLast ≤ llCurrentTime :=
  hlater _ (List.mem_reverse.1 (Lib.mem_of_lookup hlast))

/-- A later second is a whole second more. -/
theorem le_elapsed_iff {llCurrentTime llLast : ℤ} (hle : llLast ≤ llCurrentTime) (nTimeout s : ℤ) :
    nTimeout ≤ (llCurrentTime + 1000 * s - llLast) / 1000 ↔
      nTimeout - timeDiffernceInSeconds llCurrentTime llLast ≤ s := by
  rw [timeDiffernceInSeconds, Int.tdiv_eq_ediv_of_nonneg (by omega)]
  omega

/-- `ComputeDeferUpload` is the least number of seconds after which every configured event
that was seen is as long ago as its timeout says. -/
theorem isLeast_computeDeferUpload {valueToString : ℚ → String}
    {jsonUploadEventConfigValue : JsonValue} {d : ActivityDelay}
    (h : init valueToString jsonUploadEventConfigValue = some d) (events : List (String × ℤ))
    {llCurrentTime : ℤ} (hlater : ∀ event ∈ events, event.2 ≤ llCurrentTime) :
    IsLeast
      {s | 0 ≤ s ∧
        Elapsed (timeout valueToString jsonUploadEventConfigValue) events llCurrentTime s}
      ((d.run events).computeDeferUpload llCurrentTime) := by
  have htracks := tracks_run (init_m_mapDefervent h) events
  have hset : {s | 0 ≤ s ∧
      Elapsed (timeout valueToString jsonUploadEventConfigValue) events llCurrentTime s} =
      {s | 0 ≤ s ∧ ∀ entry ∈ (d.run events).m_mapDefervent, (d.run events).eventTimeout entry.1 -
        timeDiffernceInSeconds llCurrentTime entry.2 ≤ s} := by
    ext s
    refine and_congr_right fun _ => ⟨fun helapsed entry hentry => ?_,
      fun hneeds strEventId nTimeout llLast hconfig hlast => ?_⟩
    · obtain ⟨nTimeout, hconfig⟩ := htracks.configured entry hentry
      have hlast := htracks.last entry.1 nTimeout hconfig
      rw [htracks.ascending.lookup_of_mem hentry] at hlast
      rw [eventTimeout, htracks.config, hconfig]
      rw [init_lookup h] at hconfig
      exact (le_elapsed_iff (lastSeen_le hlater hlast.symm) nTimeout s).1
        (helapsed entry.1 nTimeout entry.2 hconfig hlast.symm)
    · rw [← init_lookup h] at hconfig
      have hkept := (htracks.last strEventId nTimeout hconfig).trans hlast
      have hneed := hneeds (strEventId, llLast) (Lib.mem_of_lookup hkept)
      rw [eventTimeout, htracks.config, hconfig] at hneed
      exact (le_elapsed_iff (lastSeen_le hlater hlast) nTimeout s).2 hneed
  rw [hset]
  exact isLeast_foldl (d.run events) llCurrentTime le_rfl _

/-- Ten seconds for `UI`, which was seen two and a half seconds ago: eight seconds. -/
theorem isLeast_computeDeferUpload_ui :
    ∃ d, init (fun _ => "")
        (.array [.object [("eventID", .string "UI"), ("timeoutSec", .int 10)]]) = some d ∧
      IsLeast
        {s | 0 ≤ s ∧
          Elapsed
            (timeout (fun _ => "")
              (.array [.object [("eventID", .string "UI"), ("timeoutSec", .int 10)]]))
            [("UI", 5000)] 7500 s}
        ((d.run [("UI", 5000)]).computeDeferUpload 7500) ∧
      (d.run [("UI", 5000)]).computeDeferUpload 7500 = 8 :=
  ⟨_, rfl, isLeast_computeDeferUpload rfl [("UI", 5000)] (by decide), by decide⟩

end ActivityDelay

end DeviceClient
