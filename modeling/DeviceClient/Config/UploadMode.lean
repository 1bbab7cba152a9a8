import Mathlib.Logic.Function.Basic

/-!
# The upload mode

`CUploadMode`: which of stream and batch upload the configuration supports, for
the client and for each event id.

* `wellFormed_init`: the modes of an event are modes of the client.
-/

namespace DeviceClient

/-- A `std::bitset<2>` over the modes `eSTREAM` and `eBATCH`. -/
structure ModeSet where
  stream : Bool
  batch : Bool
deriving DecidableEq, Repr

/-- The members of `CUploadMode` that decide about an event. -/
structure UploadMode where
  configuredModes : ModeSet
  defaultMode : ModeSet
  mapEventModeMap : String → Option ModeSet

namespace UploadMode

/-- The modes of an event id: its own entry, else the default. -/
def eventMode (m : UploadMode) (rstrEventId : String) : ModeSet :=
  (m.mapEventModeMap rstrEventId).getD m.defaultMode

/-- `IsEventSupportedForBatch`. -/
def isEventSupportedForBatch (m : UploadMode) (rstrEventId : String) : Bool :=
  (m.eventMode rstrEventId).batch

/-- `IsEventSupportedForStream`. -/
def isEventSupportedForStream (m : UploadMode) (rstrEventId : String) : Bool :=
  (m.eventMode rstrEventId).stream

/-- `IsBatchModeSupported`. -/
def isBatchModeSupported (m : UploadMode) : Bool := m.configuredModes.batch

/-- `IsStreamModeSupported`. -/
def isStreamModeSupported (m : UploadMode) : Bool := m.configuredModes.stream

/-- `GetStreamModeEventList`, as the test for an id of the list: the entries of
the mode map that name the stream mode. -/
def streamModeEventList (m : UploadMode) (rstrEventId : String) : Bool :=
  (m.mapEventModeMap rstrEventId).any fun modes => modes.stream

/-- `GetBatchModeEventList`. -/
def batchModeEventList (m : UploadMode) (rstrEventId : String) : Bool :=
  (m.mapEventModeMap rstrEventId).any fun modes => modes.batch

/-- `IsStreamModeSupportedAsDefault`. -/
def isStreamModeSupportedAsDefault (m : UploadMode) : Bool := m.defaultMode.stream

/-- `IsBatchModeSupportedAsDefault`. -/
def isBatchModeSupportedAsDefault (m : UploadMode) : Bool := m.defaultMode.batch

end UploadMode

/-! ## Reading the configuration -/

namespace ModeSet

def none : ModeSet := ⟨false, false⟩

/-- `|=`. -/
def union (a b : ModeSet) : ModeSet := ⟨a.stream || b.stream, a.batch || b.batch⟩

/-- `&=`. -/
def inter (a b : ModeSet) : ModeSet := ⟨a.stream && b.stream, a.batch && b.batch⟩

/-- The modes of one set are in the other. -/
def Le (a b : ModeSet) : Prop :=
  (a.stream = true → b.stream = true) ∧ (a.batch = true → b.batch = true)

instance (a b : ModeSet) : Decidable (a.Le b) := inferInstanceAs (Decidable (_ ∧ _))

theorem le_refl (a : ModeSet) : a.Le a := ⟨id, id⟩

theorem Le.trans {a b c : ModeSet} (hab : a.Le b) (hbc : b.Le c) : a.Le c :=
  ⟨fun h => hbc.1 (hab.1 h), fun h => hbc.2 (hab.2 h)⟩

theorem none_le (a : ModeSet) : none.Le a := ⟨nofun, nofun⟩

theorem le_union_left (a b : ModeSet) : a.Le (a.union b) := by
  constructor
  · intro h
    simp [union, h]
  · intro h
    simp [union, h]

theorem le_union_right (a b : ModeSet) : b.Le (a.union b) := by
  constructor
  · intro h
    simp [union, h]
  · intro h
    simp [union, h]

theorem union_le {a b c : ModeSet} (ha : a.Le c) (hb : b.Le c) : (a.union b).Le c := by
  constructor
  · intro h
    rcases (Bool.or_eq_true _ _).mp h with h | h
    · exact ha.1 h
    · exact hb.1 h
  · intro h
    rcases (Bool.or_eq_true _ _).mp h with h | h
    · exact ha.2 h
    · exact hb.2 h

theorem inter_le_right (a b : ModeSet) : (a.inter b).Le b := by
  constructor
  · intro h
    exact ((Bool.and_eq_true _ _).mp h).2
  · intro h
    exact ((Bool.and_eq_true _ _).mp h).2

end ModeSet

/-- The section `uploadMode.events`: the mode of events without an own one, and the events
of each mode. -/
structure UploadEvents where
  default : Option String
  lists : String → List String

/-- The section `uploadMode`, as far as it is about events. -/
structure UploadConfig where
  supported : Option (List String)
  events : Option UploadEvents

namespace UploadMode

/-- `GetModeBitSet`. The second test for `all` is behind the first one. -/
def getModeBitSet (rstrMode : String) (defaultBitset : ModeSet) : ModeSet :=
  if rstrMode = "stream" ∨ rstrMode = "all" then ⟨true, false⟩
  else if rstrMode = "batch" ∨ rstrMode = "all" then ⟨false, true⟩
  else if rstrMode ≠ "none" then defaultBitset
  else .none

/-- `FillEventModeMap`: the mode is added to those of its events. -/
def fillEventModeMap (rjsonEventList : UploadEvents) (rstrMode : String)
    (map : String → Option ModeSet) : String → Option ModeSet :=
  (rjsonEventList.lists rstrMode).foldl (fun map strEvent =>
    Function.update map strEvent
      (some (((map strEvent).getD .none).union (getModeBitSet rstrMode .none)))) map

/-- The body of the loop of `ReadSupportedModes`. -/
def readSupportedMode (events : Option UploadEvents) (r : ModeSet × (String → Option ModeSet))
    (strMode : String) : ModeSet × (String → Option ModeSet) :=
  (r.1.union (getModeBitSet strMode .none),
    match events with
    | none => r.2
    | some events => fillEventModeMap events strMode r.2)

/-- `ReadSupportedModes`. -/
def readSupportedModes (supported : List String) (events : Option UploadEvents) :
    ModeSet × (String → Option ModeSet) :=
  supported.foldl (readSupportedMode events) (.none, fun _ => none)

/-- `Init`; without the section, stream is the only mode. -/
def init : Option UploadConfig → UploadMode
  | none => ⟨⟨true, false⟩, ⟨true, false⟩, fun _ => none⟩
  | some config =>
    let r := readSupportedModes (config.supported.getD ["stream"]) config.events
    { configuredModes := r.1
      defaultMode := match config.events.bind UploadEvents.default with
        | some strMode => (getModeBitSet strMode r.1).inter r.1
        | none => r.1
      mapEventModeMap := r.2 }

/-- The modes of events are modes of the client. -/
structure WellFormed (m : UploadMode) : Prop where
  default : m.defaultMode.Le m.configuredModes
  events : ∀ id modes, m.mapEventModeMap id = some modes → modes.Le m.configuredModes

theorem fillEventModeMap_le {events : UploadEvents} {strMode : String}
    {map : String → Option ModeSet} {bound : ModeSet}
    (hmode : (getModeBitSet strMode .none).Le bound)
    (h : ∀ id modes, map id = some modes → modes.Le bound) :
    ∀ id modes, fillEventModeMap events strMode map id = some modes → modes.Le bound := by
  unfold fillEventModeMap
  induction events.lists strMode generalizing map with
  | nil => exact h
  | cons strEvent rest ih =>
    apply ih
    intro id modes hmodes
    dsimp only at hmodes
    by_cases hid : id = strEvent
    · rw [hid, Function.update_self] at hmodes
      cases hmodes
      apply ModeSet.union_le ?_ hmode
      cases hentry : map strEvent with
      | none => exact ModeSet.none_le bound
      | some old => exact h strEvent old hentry
    · rw [Function.update_of_ne hid] at hmodes
      exact h id modes hmodes

theorem readSupportedModes_le (supported : List String) (events : Option UploadEvents) :
    ∀ id modes, (readSupportedModes supported events).2 id = some modes →
      modes.Le (readSupportedModes supported events).1 := by
  have hloop : ∀ (supported : List String) (r : ModeSet × (String → Option ModeSet)),
      (∀ id modes, r.2 id = some modes → modes.Le r.1) →
      ∀ id modes, (supported.foldl (readSupportedMode events) r).2 id = some modes →
        modes.Le (supported.foldl (readSupportedMode events) r).1 := by
    intro supported
    induction supported with
    | nil => exact fun r h => h
    | cons strMode rest ih =>
      intro r h
      apply ih
      unfold readSupportedMode
      have hbound : ∀ id modes, r.2 id = some modes →
          modes.Le (r.1.union (getModeBitSet strMode .none)) :=
        fun id modes hmodes => (h id modes hmodes).trans (ModeSet.le_union_left _ _)
      cases events with
      | none => exact hbound
      | some events => exact fillEventModeMap_le (ModeSet.le_union_right _ _) hbound
  exact hloop supported _ fun id modes hmodes => by cases hmodes

theorem wellFormed_init (config : Option UploadConfig) : (init config).WellFormed := by
  cases config with
  | none =>
    constructor
    · exact ModeSet.le_refl _
    · intro id modes hmodes
      cases hmodes
  | some config =>
    constructor
    · show ModeSet.Le (match config.events.bind UploadEvents.default with
        | some strMode => _
        | none => _) _
      split
      · exact ModeSet.inter_le_right _ _
      · exact ModeSet.le_refl _
    · exact readSupportedModes_le _ _

end UploadMode

end DeviceClient
