import DeviceClient.Config.UploadMode
import Mathlib.Data.Fintype.EquivFin

/-!
# The modes of an event

What `CUploadMode` answers for an event against what the configuration says: the
supported modes, the events of each mode, and the mode of the events without an own one.

* `readSupportedModes_names`: the sets that the loops over modes and lists fold up.
* `supports_iff`: for which modes an event is supported.
* `classifies_iff`: when that is what the configuration says.
-/

namespace DeviceClient

/-- `SupportedModes`. -/
inductive SupportedMode
  | eSTREAM
  | eBATCH
deriving DecidableEq

namespace SupportedMode

/-- The name of a mode in the configuration. -/
def name : SupportedMode → String
  | .eSTREAM => "stream"
  | .eBATCH => "batch"

theorem name_injective : Function.Injective name := by
  intro m m' h
  cases m <;> cases m' <;> first | rfl | exact absurd h (by decide)

end SupportedMode

/-- `test`. -/
def ModeSet.has (s : ModeSet) : SupportedMode → Bool
  | .eSTREAM => s.stream
  | .eBATCH => s.batch

/-! ## Configurations -/

/-- The default mode, and the events that are listed for each mode. -/
structure ModeEvents where
  default : Option String
  lists : SupportedMode → List String

/-- The supported modes, and the events. -/
structure ModeConfig where
  supported : Option (List SupportedMode)
  events : Option ModeEvents

/-- The events as the client reads them. -/
def ModeEvents.render (events : ModeEvents) : UploadEvents where
  default := events.default
  lists strMode :=
    if strMode = "stream" then events.lists .eSTREAM
    else if strMode = "batch" then events.lists .eBATCH
    else []

namespace ModeConfig

/-- The section as the client reads it. -/
def render (config : ModeConfig) : UploadConfig where
  supported := config.supported.map fun modes => modes.map SupportedMode.name
  events := config.events.map ModeEvents.render

/-- The configured modes; stream where none are given. -/
def modes : Option ModeConfig → List SupportedMode
  | none => [.eSTREAM]
  | some config => config.supported.getD [.eSTREAM]

/-- The list of a mode. -/
def eventList (events : Option ModeEvents) (mode : SupportedMode) : List String :=
  events.elim [] fun events => events.lists mode

/-- The events that are listed for a mode. -/
def listed (config : Option ModeConfig) (mode : SupportedMode) : List String :=
  eventList (config.bind ModeConfig.events) mode

/-- The default mode that is given. -/
def defaultName (config : Option ModeConfig) : Option String :=
  (config.bind ModeConfig.events).bind ModeEvents.default

/-- A default mode includes a mode: the one that it names, with `none` no mode, and every
mode with `all`. A name that is none of a mode, or no default, stands for every mode too. -/
def Names (strDefault : Option String) (mode : SupportedMode) : Prop :=
  strDefault ≠ some "none" ∧ ∀ other, strDefault = some (SupportedMode.name other) → mode = other

/-- The default includes a configured mode. -/
def DefaultIncludes (config : Option ModeConfig) (mode : SupportedMode) : Prop :=
  mode ∈ modes config ∧ Names (defaultName config) mode

/-- What the configuration says, where the lists of the modes `counts` are counted: the
mode is configured and the event listed for it, or the event is listed for no mode and the
default includes the mode. -/
def Specified (counts : SupportedMode → Prop) (config : Option ModeConfig) (strEventId : String)
    (mode : SupportedMode) : Prop :=
  mode ∈ modes config ∧ strEventId ∈ listed config mode ∨
    (∀ other, counts other → strEventId ∉ listed config other) ∧ DefaultIncludes config mode

end ModeConfig

namespace UploadMode

/-- `IsEventSupportedForStream` and `IsEventSupportedForBatch`. -/
def supports (m : UploadMode) (strEventId : String) : SupportedMode → Bool
  | .eSTREAM => m.isEventSupportedForStream strEventId
  | .eBATCH => m.isEventSupportedForBatch strEventId

/-- The answers for every event and mode are what the configuration says. -/
def Classifies (counts : SupportedMode → Prop) (config : Option ModeConfig) : Prop :=
  ∀ strEventId mode, (init (config.map ModeConfig.render)).supports strEventId mode = true ↔
    ModeConfig.Specified counts config strEventId mode

/-! ## The sets of modes -/

theorem supports_eq (m : UploadMode) (strEventId : String) (mode : SupportedMode) :
    m.supports strEventId mode = (m.eventMode strEventId).has mode := by
  cases mode <;> rfl

theorem has_union (s t : ModeSet) (mode : SupportedMode) :
    (s.union t).has mode = (s.has mode || t.has mode) := by
  cases mode <;> rfl

theorem has_inter (s t : ModeSet) (mode : SupportedMode) :
    (s.inter t).has mode = (s.has mode && t.has mode) := by
  cases mode <;> rfl

theorem has_none (mode : SupportedMode) : ModeSet.none.has mode = false := by
  cases mode <;> rfl

/-- The set of a mode has the mode. -/
theorem has_getModeBitSet_name (named mode : SupportedMode) (defaultBitset : ModeSet) :
    (getModeBitSet named.name defaultBitset).has mode = decide (mode = named) := by
  cases named <;> cases mode <;> rfl

theorem lists_render (events : ModeEvents) (mode : SupportedMode) :
    events.render.lists mode.name = events.lists mode := by
  cases mode <;> rfl

/-! ## The loops -/

/-- The set of a mode is added once to what an event has. -/
theorem fillEventModeMap_apply (events : UploadEvents) (strMode : String)
    (map : String → Option ModeSet) (strEventId : String) :
    fillEventModeMap events strMode map strEventId =
      if strEventId ∈ events.lists strMode then
        some (((map strEventId).getD .none).union (getModeBitSet strMode .none))
      else map strEventId := by
  unfold fillEventModeMap
  generalize getModeBitSet strMode .none = bits
  have htwice : ∀ s : ModeSet, (s.union bits).union bits = s.union bits := by
    intro s
    simp [ModeSet.union]
  induction events.lists strMode generalizing map with
  | nil => exact (if_neg List.not_mem_nil).symm
  | cons strEvent rest ih =>
    rw [List.foldl_cons, ih]
    by_cases hid : strEventId = strEvent
    · rw [if_pos (List.mem_cons.2 (Or.inl hid)), hid, Function.update_self, Option.getD_some,
        htwice, ite_self]
    · rw [Function.update_of_ne hid]
      by_cases hrest : strEventId ∈ rest
      · rw [if_pos hrest, if_pos (List.mem_cons_of_mem _ hrest)]
      · rw [if_neg hrest, if_neg (by simp [hid, hrest])]

/-- What the loops over some modes have folded up. -/
structure Folded (events : Option ModeEvents) (modes : List SupportedMode)
    (r : ModeSet × (String → Option ModeSet)) : Prop where
  configured : ∀ mode, r.1.has mode = true ↔ mode ∈ modes
  entry : ∀ strEventId, (r.2 strEventId).isSome = true ↔
    ∃ mode ∈ modes, strEventId ∈ ModeConfig.eventList events mode
  bits : ∀ strEventId mode, ((r.2 strEventId).getD .none).has mode = true ↔
    mode ∈ modes ∧ strEventId ∈ ModeConfig.eventList events mode

theorem readSupportedMode_snd (events : Option ModeEvents) (mode : SupportedMode)
    (r : ModeSet × (String → Option ModeSet)) (strEventId : String) :
    (readSupportedMode (events.map ModeEvents.render) r mode.name).2 strEventId =
      if strEventId ∈ ModeConfig.eventList events mode then
        some (((r.2 strEventId).getD .none).union (getModeBitSet mode.name .none))
      else r.2 strEventId := by
  cases events with
  | none => exact (if_neg List.not_mem_nil).symm
  | some events =>
    refine (fillEventModeMap_apply events.render mode.name r.2 strEventId).trans ?_
    rw [lists_render]
    rfl

/-- The loop over one mode more. -/
theorem folded_readSupportedMode {events : Option ModeEvents} {modes : List SupportedMode}
    {r : ModeSet × (String → Option ModeSet)} (h : Folded events modes r) (mode : SupportedMode) :
    Folded events (modes ++ [mode])
      (readSupportedMode (events.map ModeEvents.render) r mode.name) := by
  refine ⟨fun other => ?_, fun strEventId => ?_, fun strEventId other => ?_⟩
  · change (r.1.union (getModeBitSet mode.name .none)).has other = true ↔ _
    rw [has_union, Bool.or_eq_true, h.configured, has_getModeBitSet_name,
      decide_eq_true_iff, List.mem_append, List.mem_singleton]
  · rw [readSupportedMode_snd]
    by_cases hlist : strEventId ∈ ModeConfig.eventList events mode
    · rw [if_pos hlist]
      exact iff_of_true rfl ⟨mode, by simp, hlist⟩
    · rw [if_neg hlist, h.entry]
      simp [or_and_right, exists_or, hlist]
  · rw [readSupportedMode_snd]
    by_cases hlist : strEventId ∈ ModeConfig.eventList events mode
    · rw [if_pos hlist, Option.getD_some, has_union, Bool.or_eq_true, h.bits,
        has_getModeBitSet_name, decide_eq_true_iff, List.mem_append, List.mem_singleton]
      constructor
      · rintro (⟨hmem, hother⟩ | rfl)
        · exact ⟨Or.inl hmem, hother⟩
        · exact ⟨Or.inr rfl, hlist⟩
      · rintro ⟨hmem | rfl, hother⟩
        · exact Or.inl ⟨hmem, hother⟩
        · exact Or.inr rfl
    · rw [if_neg hlist, h.bits, List.mem_append, List.mem_singleton]
      constructor
      · rintro ⟨hmem, hother⟩
        exact ⟨Or.inl hmem, hother⟩
      · rintro ⟨hmem | rfl, hother⟩
        · exact ⟨hmem, hother⟩
        · exact absurd hother hlist

theorem readSupportedModes_names (events : Option ModeEvents) (modes : List SupportedMode) :
    Folded events modes
      (readSupportedModes (modes.map SupportedMode.name) (events.map ModeEvents.render)) := by
  induction modes using List.reverseRecOn with
  | nil =>
    change Folded events [] (.none, fun _ => none)
    refine ⟨fun mode => ?_, fun strEventId => ?_, fun strEventId mode => ?_⟩
    · exact iff_of_false (by simp [has_none]) List.not_mem_nil
    · exact iff_of_false (by simp) (by simp)
    · exact iff_of_false (by simp [has_none]) (by simp)
  | append_singleton modes mode ih =>
    have hstep : readSupportedModes ((modes ++ [mode]).map SupportedMode.name)
        (events.map ModeEvents.render) =
        readSupportedMode (events.map ModeEvents.render)
          (readSupportedModes (modes.map SupportedMode.name) (events.map ModeEvents.render))
          mode.name := by
      rw [List.map_append]
      exact List.foldl_concat ..
    rw [hstep]
    exact folded_readSupportedMode ih mode

/-! ## The answers -/

/-- The modes that the client reads a default mode as: those it names, and stream alone for
`all`. -/
def Read (strDefault : Option String) (mode : SupportedMode) : Prop :=
  ModeConfig.Names strDefault mode ∧ (strDefault = some "all" → mode = .eSTREAM)

/-- The name of a mode is read as that mode. -/
theorem read_name_iff (named mode : SupportedMode) : Read (some named.name) mode ↔ mode = named := by
  constructor
  · exact fun h => h.1.2 named rfl
  · rintro rfl
    refine ⟨⟨?_, fun other h => SupportedMode.name_injective (Option.some.inj h)⟩, fun h => ?_⟩
    · cases mode <;> decide
    · cases mode <;> exact absurd h (by decide)

theorem has_getModeBitSet (strMode : String) {defaultBitset : ModeSet} {mode : SupportedMode}
    (hdefault : defaultBitset.has mode = true) :
    (getModeBitSet strMode defaultBitset).has mode = true ↔ Read (some strMode) mode := by
  by_cases hstream : strMode = "stream"
  · rw [hstream]
    refine (iff_of_eq (congrArg (· = true) (has_getModeBitSet_name .eSTREAM mode _))).trans ?_
    rw [decide_eq_true_iff]
    exact (read_name_iff .eSTREAM mode).symm
  by_cases hbatch : strMode = "batch"
  · rw [hbatch]
    refine (iff_of_eq (congrArg (· = true) (has_getModeBitSet_name .eBATCH mode _))).trans ?_
    rw [decide_eq_true_iff]
    exact (read_name_iff .eBATCH mode).symm
  have hother : ∀ other : SupportedMode, some strMode ≠ some other.name := by
    intro other h
    cases other with
    | eSTREAM => exact hstream (Option.some.inj h)
    | eBATCH => exact hbatch (Option.some.inj h)
  unfold getModeBitSet
  by_cases hall : strMode = "all"
  · -- the test for `all` in the second branch is not reached
    rw [if_pos (Or.inr hall)]
    constructor
    · intro hmode
      refine ⟨⟨by rw [hall]; decide, fun other h => absurd h (hother other)⟩, fun _ => ?_⟩
      cases mode with
      | eSTREAM => rfl
      | eBATCH => cases hmode
    · intro h
      rw [h.2 (congrArg some hall)]
      rfl
  · rw [if_neg (not_or.2 ⟨hstream, hall⟩), if_neg (not_or.2 ⟨hbatch, hall⟩)]
    by_cases hnone : strMode = "none"
    · rw [if_neg (not_not.2 hnone), has_none]
      exact iff_of_false Bool.false_ne_true fun h => h.1.1 (congrArg some hnone)
    · rw [if_pos hnone]
      exact iff_of_true hdefault
        ⟨⟨fun h => hnone (Option.some.inj h), fun other h => absurd h (hother other)⟩,
          fun h => absurd (Option.some.inj h) hall⟩

/-- What `Init` keeps of the modes and the lists. -/
theorem folded_init (config : ModeConfig) :
    Folded config.events (ModeConfig.modes (some config))
      ((init (some config.render)).configuredModes,
        (init (some config.render)).mapEventModeMap) := by
  have hmodes : config.render.supported.getD ["stream"] =
      (ModeConfig.modes (some config)).map SupportedMode.name := by
    obtain ⟨supported, events⟩ := config
    cases supported <;> rfl
  have hfold := readSupportedModes_names config.events (ModeConfig.modes (some config))
  rw [← hmodes] at hfold
  exact hfold

theorem defaultMode_init (config : ModeConfig) :
    (init (some config.render)).defaultMode =
      (config.events.bind ModeEvents.default).elim (init (some config.render)).configuredModes
        fun strMode => (getModeBitSet strMode (init (some config.render)).configuredModes).inter
          (init (some config.render)).configuredModes := by
  unfold init ModeConfig.render
  cases config.events with
  | none => rfl
  | some events =>
    obtain ⟨default, lists⟩ := events
    cases default <;> rfl

/-- The default mode that is kept. -/
theorem has_defaultMode (config : Option ModeConfig) (mode : SupportedMode) :
    (init (config.map ModeConfig.render)).defaultMode.has mode = true ↔
      mode ∈ ModeConfig.modes config ∧ Read (ModeConfig.defaultName config) mode := by
  cases config with
  | none =>
    have hread : Read none mode :=
      ⟨⟨by decide, fun _ h => by cases h⟩, fun h => by cases h⟩
    rw [ModeConfig.modes, List.mem_singleton]
    cases mode with
    | eSTREAM => exact iff_of_true rfl ⟨rfl, hread⟩
    | eBATCH => exact iff_of_false Bool.false_ne_true fun h => by cases h.1
  | some config =>
    have hconfigured := (folded_init config).configured mode
    change (init (some config.render)).defaultMode.has mode = true ↔ _
    rw [defaultMode_init]
    change _ ↔ _ ∧ Read (config.events.bind ModeEvents.default) mode
    cases config.events.bind ModeEvents.default with
    | none =>
      exact hconfigured.trans (and_iff_left
        ⟨⟨by decide, fun _ h => by cases h⟩, fun h => by cases h⟩).symm
    | some strMode =>
      rw [Option.elim_some, has_inter, Bool.and_eq_true, ← hconfigured, and_comm]
      exact and_congr_right fun hmode => has_getModeBitSet strMode hmode

/-- For which modes an event is supported. -/
theorem supports_iff (config : Option ModeConfig) (strEventId : String) (mode : SupportedMode) :
    (init (config.map ModeConfig.render)).supports strEventId mode = true ↔
      mode ∈ ModeConfig.modes config ∧ strEventId ∈ ModeConfig.listed config mode ∨
      (∀ other ∈ ModeConfig.modes config, strEventId ∉ ModeConfig.listed config other) ∧
        mode ∈ ModeConfig.modes config ∧ Read (ModeConfig.defaultName config) mode := by
  rw [← has_defaultMode, supports_eq, eventMode]
  cases config with
  | none =>
    refine ⟨fun h => Or.inr ⟨fun _ _ hmem => absurd hmem List.not_mem_nil, h⟩, ?_⟩
    rintro (⟨-, hmem⟩ | ⟨-, h⟩)
    · exact absurd hmem List.not_mem_nil
    · exact h
  | some config =>
    have hfolded := folded_init config
    change (((init (some config.render)).mapEventModeMap strEventId).getD
      (init (some config.render)).defaultMode).has mode = true ↔
      mode ∈ ModeConfig.modes (some config) ∧ strEventId ∈ ModeConfig.eventList config.events mode ∨
      (∀ other ∈ ModeConfig.modes (some config),
        strEventId ∉ ModeConfig.eventList config.events other) ∧
        (init (some config.render)).defaultMode.has mode = true
    have hentry : ((init (some config.render)).mapEventModeMap strEventId).isSome = true ↔ _ :=
      hfolded.entry strEventId
    have hbits : (((init (some config.render)).mapEventModeMap strEventId).getD .none).has mode =
        true ↔ _ := hfolded.bits strEventId mode
    cases hmap : (init (some config.render)).mapEventModeMap strEventId with
    | none =>
      have hunlisted : ∀ other ∈ ModeConfig.modes (some config),
          strEventId ∉ ModeConfig.eventList config.events other := by
        intro other hother hlist
        have hsome := hentry.2 ⟨other, hother, hlist⟩
        rw [hmap] at hsome
        cases hsome
      refine ⟨fun h => Or.inr ⟨hunlisted, h⟩, ?_⟩
      rintro (⟨hmode, hlist⟩ | ⟨-, h⟩)
      · exact absurd hlist (hunlisted mode hmode)
      · exact h
    | some bits =>
      rw [hmap] at hbits hentry
      obtain ⟨other, hother, hlist⟩ := hentry.1 rfl
      refine ⟨fun h => Or.inl (hbits.1 h), ?_⟩
      rintro (h | ⟨hunlisted, -⟩)
      · exact hbits.2 h
      · exact absurd hlist (hunlisted other hother)

/-! ## What the configuration says -/

/-- The default is not `all` where batch is a configured mode. -/
def DefaultRead (config : Option ModeConfig) : Prop :=
  ModeConfig.defaultName config ≠ some "all" ∨ .eBATCH ∉ ModeConfig.modes config

/-- An event that is listed is listed for a configured mode, or the default includes no mode. -/
def ListsCount (config : Option ModeConfig) : Prop :=
  (∀ strEventId mode, strEventId ∈ ModeConfig.listed config mode →
    ∃ other ∈ ModeConfig.modes config, strEventId ∈ ModeConfig.listed config other) ∨
  ∀ mode, ¬ ModeConfig.DefaultIncludes config mode

theorem includes_iff_read {config : Option ModeConfig} (h : DefaultRead config)
    (mode : SupportedMode) :
    ModeConfig.DefaultIncludes config mode ↔
      mode ∈ ModeConfig.modes config ∧ Read (ModeConfig.defaultName config) mode := by
  refine and_congr_right fun hmode => ⟨fun hnames => ⟨hnames, fun hall => ?_⟩, And.left⟩
  cases mode with
  | eSTREAM => rfl
  | eBATCH => exact absurd hmode (h.resolve_left (not_not.2 hall))

/-- An event that no list has. -/
theorem exists_unlisted (config : Option ModeConfig) :
    ∃ strEventId, ∀ mode, strEventId ∉ ModeConfig.listed config mode := by
  obtain ⟨strEventId, hfresh⟩ := Infinite.exists_notMem_finset
    (ModeConfig.listed config .eSTREAM ++ ModeConfig.listed config .eBATCH).toFinset
  rw [List.mem_toFinset, List.mem_append, not_or] at hfresh
  refine ⟨strEventId, fun mode => ?_⟩
  cases mode with
  | eSTREAM => exact hfresh.1
  | eBATCH => exact hfresh.2

/-- Whichever lists are counted: with `all` the client leaves batch out. -/
theorem defaultRead_of_classifies {counts : SupportedMode → Prop} {config : Option ModeConfig}
    (h : Classifies counts config) : DefaultRead config := by
  by_contra hread
  obtain ⟨hall, hbatch⟩ := not_or.1 hread
  rw [not_not] at hall hbatch
  obtain ⟨strEventId, hfresh⟩ := exists_unlisted config
  have hnames : ModeConfig.Names (ModeConfig.defaultName config) .eBATCH := by
    rw [hall]
    refine ⟨by decide, fun other hother => ?_⟩
    cases other with
    | eSTREAM => exact absurd hother (by decide)
    | eBATCH => rfl
  have hspec := (h strEventId .eBATCH).2 (Or.inr ⟨fun other _ => hfresh other, hbatch, hnames⟩)
  rcases (supports_iff config strEventId .eBATCH).1 hspec with ⟨-, hlist⟩ | ⟨-, -, hcode⟩
  · exact hfresh .eBATCH hlist
  · cases hcode.2 hall

/-- The answers are what the configuration says iff the default is not `all` with batch
configured; where the list of a mode that is not configured counts too, iff moreover the
default includes no mode or no event stands in such lists only. -/
theorem classifies_iff (config : Option ModeConfig) :
    (Classifies (fun mode => mode ∈ ModeConfig.modes config) config ↔ DefaultRead config) ∧
      (Classifies (fun _ => True) config ↔ DefaultRead config ∧ ListsCount config) := by
  refine ⟨⟨defaultRead_of_classifies, fun hread strEventId mode => ?_⟩,
    ⟨fun h => ⟨defaultRead_of_classifies h, ?_⟩, ?_⟩⟩
  · rw [supports_iff, ← includes_iff_read hread]
    rfl
  · by_contra hcount
    obtain ⟨hlists, hdefault⟩ := not_or.1 hcount
    simp only [not_forall, not_not] at hlists hdefault
    obtain ⟨strEventId, mode, hlist, hunlisted⟩ := hlists
    obtain ⟨included, hincluded⟩ := hdefault
    have hnone : ∀ other ∈ ModeConfig.modes config,
        strEventId ∉ ModeConfig.listed config other :=
      fun other hother hmem => hunlisted ⟨other, hother, hmem⟩
    have hread := (includes_iff_read (defaultRead_of_classifies h) included).1 hincluded
    have hcode := (supports_iff config strEventId included).2 (Or.inr ⟨hnone, hread⟩)
    rcases (h strEventId included).1 hcode with ⟨hmode, hmem⟩ | ⟨hfree, -⟩
    · exact hnone included hmode hmem
    · exact hfree mode trivial hlist
  · rintro ⟨hread, hcount⟩ strEventId mode
    rw [supports_iff, ← includes_iff_read hread]
    refine or_congr_right ⟨fun ⟨hnone, hincludes⟩ => ⟨fun other _ hmem => ?_, hincludes⟩,
      fun ⟨hfree, hincludes⟩ => ⟨fun other _ => hfree other trivial, hincludes⟩⟩
    rcases hcount with hlists | hdefault
    · obtain ⟨configured, hmode, hlist⟩ := hlists strEventId other hmem
      exact hnone configured hmode hlist
    · exact hdefault mode hincludes

/-- Both modes, and `all` as the default: no event is supported for batch. -/
theorem not_classifies_all :
    (∀ strEventId, (init (some (ModeConfig.render
      ⟨some [.eSTREAM, .eBATCH], some ⟨some "all", fun _ => []⟩⟩))).supports strEventId .eBATCH =
        false) ∧
      ¬ Classifies
        (fun mode => mode ∈ ModeConfig.modes
          (some ⟨some [.eSTREAM, .eBATCH], some ⟨some "all", fun _ => []⟩⟩))
        (some ⟨some [.eSTREAM, .eBATCH], some ⟨some "all", fun _ => []⟩⟩) ∧
      ¬ Classifies (fun _ => True)
        (some ⟨some [.eSTREAM, .eBATCH], some ⟨some "all", fun _ => []⟩⟩) := by
  have hread : ¬ DefaultRead (some ⟨some [.eSTREAM, .eBATCH], some ⟨some "all", fun _ => []⟩⟩) :=
    fun h => h.elim (fun hall => hall rfl) fun hbatch => hbatch (by decide)
  exact ⟨fun _ => rfl, fun h => hread (defaultRead_of_classifies h),
    fun h => hread (defaultRead_of_classifies h)⟩

end UploadMode

end DeviceClient
