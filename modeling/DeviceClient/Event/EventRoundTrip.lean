import DeviceClient.Event.IgniteEvent

/-!
# Reading an event back

Events as the constructors and setters build them, written and read into a fresh
event. The header, the PII fields and the data come back, the numbers in them as the
numbers they are. Of the attachments come back the first and those that were
accepted; the others have become members of the data.

* `WellBuilt`: what every setter keeps.
* `eventKept_of_built`: what is read back, and that it is written as before.
-/

namespace DeviceClient

open JsonText JsonValue Lib

namespace IgniteEvent

/-! ## What is kept -/

/-- The two events agree, but for the kinds of numbers. -/
structure SameEvent (event event' : IgniteEvent) : Prop where
  head : ∀ tag ∈ headTags,
    (event.m_jsonEventFields.lookup tag).map byValue =
      (event'.m_jsonEventFields.lookup tag).map byValue
  data : event.m_jsonValue.byValue = event'.m_jsonValue.byValue
  pii : event.m_jsonPiiFields.byValue = event'.m_jsonPiiFields.byValue
  attachments : event.m_vectAttachment = event'.m_vectAttachment

/-- The event is written, what is read into `fresh` is `expected`, and it is written
with the same text. -/
def EventKept (dbl : DoubleText) (bBenchMode : Bool) (fresh event expected : IgniteEvent) : Prop :=
  ∃ json written read,
    event.eventToJson dbl bBenchMode = some (json, written) ∧
    fresh.jsonToEvent dbl json = some read ∧
    SameEvent read expected ∧
    ∃ written', read.eventToJson dbl bBenchMode = some (json, written')

/-- The data with a rejected attachment as a member. -/
def withRejected : JsonValue → String → JsonValue
  | .object members, name => .object (setKey (strFileName name) (.string (fileError name)) members)
  | value, _ => value

/-- The data with those of the names that are no uploads. -/
def withRejections (data : JsonValue) (names : List String) : JsonValue :=
  (names.filter fun name => !isUploadName name).foldl withRejected data

/-- The event with its rejected attachments, but for the first, in the data. -/
def settled (event : IgniteEvent) : IgniteEvent :=
  match event.m_vectAttachment with
  | [] => event
  | first :: names =>
    { event with
      m_vectAttachment := first :: names.filter isUploadName
      m_jsonValue := withRejections event.m_jsonValue names }

/-! ## Built events -/

variable (dbl : DoubleText)

/-- The levels that are left for a member of the data. -/
def dataLevels : ℕ := 998

/-- A timestamp that the text of a double and `asUInt64` keep. -/
def IntegralTimestamp (q : ℚ) : Prop :=
  dbl.Printed q ∧ ∃ t : ℕ, q = t ∧ t < 10 ^ 17

/-- What is asked of the arguments of a constructor. -/
def Constructor.Fits : Constructor → Prop
  | .plain | .versioned _ _ => True
  | .timed _ _ dblTimestamp => IntegralTimestamp dbl dblTimestamp

/-- What is asked of the arguments of a setter: values of the library, an integral
timestamp, and no header of the event for the name of a device id. -/
def Setter.Fits : Setter → Prop
  | .setTimestamp dblTimestamp => IntegralTimestamp dbl dblTimestamp
  | .addDeviceId rstrName _ => rstrName ∉ headTags
  | .addField _ value | .addPiiField _ value => Held dbl dataLevels value
  | _ => True

/-- The event has an id and a version. -/
def Named (event : IgniteEvent) : Prop :=
  (event.m_jsonEventFields.lookup eventIdTag).isSome ∧
    (event.m_jsonEventFields.lookup versionTag).isSome

/-- An object that can be a member of the root. -/
def IsData (value : JsonValue) : Prop :=
  ∃ members, value = .object members ∧ Ascending members ∧
    ∀ m ∈ members, Held dbl dataLevels m.2

/-- A timestamp, from the clock or set. -/
def IsTimestamp (value : JsonValue) : Prop :=
  ∃ t : ℕ, t < 2 ^ 64 ∧
    (value = .uint t ∨ value = .real t ∧ dbl.Printed t ∧ t < 10 ^ 17)

/-- What the setters keep. -/
structure WellBuilt (event : IgniteEvent) : Prop where
  data : IsData dbl event.m_jsonValue
  pii : IsData dbl event.m_jsonPiiFields
  texts : ∀ tag ∈ [eventIdTag, versionTag, bizTrancId, msgId, corId], ∀ value,
    event.m_jsonEventFields.lookup tag = some value → ∃ text, value = .string text
  timestamp : ∃ value, event.m_jsonEventFields.lookup timestampTag = some value ∧
    IsTimestamp dbl value
  timezone : ∃ n : ℤ, event.m_jsonEventFields.lookup timezoneTag = some (.int n) ∧
    -2 ^ 31 ≤ n ∧ n < 2 ^ 31
  attachments : ∀ name ∈ event.m_vectAttachment, isUploadName name = true ∨ '_' ∈ name.toList

/-! ## Setters keep it -/

theorem isData_nil : IsData dbl (.object []) :=
  ⟨[], rfl, ascending_nil, fun m hm => by cases hm⟩

theorem isData_setKey {members : List (String × JsonValue)} (h : IsData dbl (.object members))
    (name : String) {value : JsonValue} (hvalue : Held dbl dataLevels value) :
    IsData dbl (.object (setKey name value members)) := by
  obtain ⟨_, heq, hasc, hheld⟩ := h
  cases heq
  refine ⟨_, rfl, ascending_setKey name value hasc, ?_⟩
  intro m hm
  rcases mem_setKey hm with rfl | hm
  · exact hvalue
  · exact hheld m hm

theorem isData_eraseKey {members : List (String × JsonValue)} (h : IsData dbl (.object members))
    (name : String) : IsData dbl (.object (eraseKey name members)) := by
  obtain ⟨_, heq, hasc, hheld⟩ := h
  cases heq
  refine ⟨_, rfl, ?_, fun m hm => hheld m (List.mem_of_mem_filter hm)⟩
  exact List.Pairwise.sublist (List.filter_sublist.map Prod.fst) hasc

theorem isData_withRejected {value : JsonValue} (h : IsData dbl value) (name : String) :
    IsData dbl (withRejected value name) := by
  have hdata := h
  obtain ⟨members, rfl, -, -⟩ := hdata
  exact isData_setKey dbl h (strFileName name) trivial

variable {dbl}

/-- A header with a text. -/
theorem WellBuilt.setText {event : IgniteEvent} (h : WellBuilt dbl event) {tag : String}
    (htimestamp : timestampTag ≠ tag) (htimezone : timezoneTag ≠ tag) (text : String) :
    WellBuilt dbl (event.setField tag (.string text)) := by
  refine ⟨h.data, h.pii, ?_, ?_, ?_, h.attachments⟩
  · intro k hk value hvalue
    rw [lookup_setField] at hvalue
    by_cases hkey : k = tag
    · rw [if_pos hkey] at hvalue
      exact ⟨text, (Option.some.inj hvalue).symm⟩
    · rw [if_neg hkey] at hvalue
      exact h.texts k hk value hvalue
  · rw [lookup_setField, if_neg htimestamp]
    exact h.timestamp
  · rw [lookup_setField, if_neg htimezone]
    exact h.timezone

theorem WellBuilt.setTimestampField {event : IgniteEvent} (h : WellBuilt dbl event)
    {value : JsonValue} (hvalue : IsTimestamp dbl value) :
    WellBuilt dbl (event.setField timestampTag value) := by
  refine ⟨h.data, h.pii, ?_, ?_, ?_, h.attachments⟩
  · intro k hk w hw
    have hkey : k ≠ timestampTag := by
      rintro rfl
      revert hk
      decide
    rw [lookup_setField, if_neg hkey] at hw
    exact h.texts k hk w hw
  · rw [lookup_setField, if_pos rfl]
    exact ⟨value, rfl, hvalue⟩
  · rw [lookup_setField, if_neg (by decide)]
    exact h.timezone

theorem WellBuilt.setTimezoneField {event : IgniteEvent} (h : WellBuilt dbl event) {n : ℤ}
    (hlow : -2 ^ 31 ≤ n) (hhigh : n < 2 ^ 31) :
    WellBuilt dbl (event.setField timezoneTag (.int n)) := by
  refine ⟨h.data, h.pii, ?_, ?_, ?_, h.attachments⟩
  · intro k hk w hw
    have hkey : k ≠ timezoneTag := by
      rintro rfl
      revert hk
      decide
    rw [lookup_setField, if_neg hkey] at hw
    exact h.texts k hk w hw
  · rw [lookup_setField, if_neg (by decide)]
    exact h.timestamp
  · rw [lookup_setField, if_pos rfl]
    exact ⟨n, rfl, hlow, hhigh⟩

theorem isTimestamp_of_integral {q : ℚ} (h : IntegralTimestamp dbl q) :
    IsTimestamp dbl (.real q) := by
  obtain ⟨hprinted, t, rfl, ht⟩ := h
  exact ⟨t, lt_trans ht (by decide), Or.inr ⟨rfl, hprinted, ht⟩⟩

/-- Names that are pushed say why, or are the names of uploads. -/
theorem upload_or_underscore (attached : Attached) :
    isUploadName attached.strOutFileName = true ∨ '_' ∈ attached.strOutFileName.toList := by
  cases attached with
  | accepted rest =>
    left
    unfold isUploadName Attached.strOutFileName
    rw [List.isPrefixOf_iff_prefix, String.toList_append]
    exact List.prefix_append _ _
  | rejected rstrPath error =>
    right
    unfold Attached.strOutFileName
    rw [String.toList_append, List.mem_append]
    right
    cases error <;> decide

/-- One setter. -/
theorem WellBuilt.apply {event event' : IgniteEvent} {setter : Setter} (h : WellBuilt dbl event)
    (hfits : setter.Fits dbl) (hevent : event.apply setter = some event') :
    WellBuilt dbl event' := by
  -- a setter touches the head, the data, the PII fields or the attachments
  cases setter with
  | setEventId strId =>
    cases hevent
    exact h.setText (by decide) (by decide) strId
  | setVersion rstrVersion =>
    cases hevent
    exact h.setText (by decide) (by decide) rstrVersion
  | setTimestamp dblTimestamp =>
    cases hevent
    exact h.setTimestampField (isTimestamp_of_integral hfits)
  | setTimezone nTzoffset =>
    cases hevent
    unfold setTimezone
    by_cases hzone : -720 ≤ nTzoffset ∧ nTzoffset ≤ 840
    · rw [if_pos hzone]
      exact h.setTimezoneField (by omega) (by omega)
    · -- a zone out of range is not set
      rw [if_neg hzone]
      exact h
  | addBizTransaction rstrVal =>
    cases hevent
    exact h.setText (by decide) (by decide) rstrVal
  | addMessageId rstrVal =>
    cases hevent
    exact h.setText (by decide) (by decide) rstrVal
  | addCorrelationId rstrVal =>
    cases hevent
    exact h.setText (by decide) (by decide) rstrVal
  | addDeviceId rstrName rstrVal =>
    cases hevent
    have hname : rstrName ∉ headTags := hfits
    refine h.setText ?_ ?_ rstrVal
    · rintro rfl
      exact hname (by decide)
    · rintro rfl
      exact hname (by decide)
  | addField rstrName value =>
    obtain ⟨members, hmembers, -⟩ := h.data
    have hdata := h.data
    rw [hmembers] at hdata
    rw [IgniteEvent.apply, addField_object hmembers] at hevent
    cases hevent
    exact ⟨isData_setKey dbl hdata rstrName hfits, h.pii, h.texts, h.timestamp, h.timezone,
      h.attachments⟩
  | removeField rstrFieldName =>
    obtain ⟨members, hmembers, -⟩ := h.data
    have hdata := h.data
    rw [hmembers] at hdata
    unfold IgniteEvent.apply removeField JsonValue.removeMember at hevent
    rw [hmembers] at hevent
    cases hevent
    exact ⟨isData_eraseKey dbl hdata _, h.pii, h.texts, h.timestamp, h.timezone, h.attachments⟩
  | addPiiField rstrName value =>
    obtain ⟨members, hmembers, -⟩ := h.pii
    have hpii := h.pii
    rw [hmembers] at hpii
    unfold IgniteEvent.apply addPiiField JsonValue.withMember at hevent
    rw [hmembers] at hevent
    cases hevent
    exact ⟨h.data, isData_setKey dbl hpii rstrName hfits, h.texts, h.timestamp, h.timezone,
      h.attachments⟩
  | acceptAttach attached =>
    cases hevent
    refine ⟨h.data, h.pii, h.texts, h.timestamp, h.timezone, ?_⟩
    intro name hname
    rcases List.mem_append.mp hname with hname | hname
    · exact h.attachments name hname
    · rw [List.mem_singleton.mp hname]
      exact upload_or_underscore attached
  | removeAttachments =>
    cases hevent
    exact ⟨h.data, h.pii, h.texts, h.timestamp, h.timezone, fun name hname => by cases hname⟩

/-- An event without attachments, stamped with a time and a zone. -/
theorem wellBuilt_stamped {event : IgniteEvent} (hdata : event.m_jsonValue = .object [])
    (hpii : event.m_jsonPiiFields = .object []) (hattachments : event.m_vectAttachment = [])
    (htexts : ∀ tag ∈ [eventIdTag, versionTag, bizTrancId, msgId, corId], ∀ value,
      event.m_jsonEventFields.lookup tag = some value → ∃ text, value = .string text)
    {value : JsonValue} (hvalue : IsTimestamp dbl value) {n : ℤ} (hlow : -2 ^ 31 ≤ n)
    (hhigh : n < 2 ^ 31) :
    WellBuilt dbl ((event.setField timestampTag value).setField timezoneTag (.int n)) := by
  refine ⟨?_, ?_, ?_, ?_, ?_, ?_⟩
  · show IsData dbl event.m_jsonValue
    rw [hdata]
    exact isData_nil dbl
  · show IsData dbl event.m_jsonPiiFields
    rw [hpii]
    exact isData_nil dbl
  · intro tag htag w hw
    have htimezone : tag ≠ timezoneTag := by
      rintro rfl
      revert htag
      decide
    have htimestamp : tag ≠ timestampTag := by
      rintro rfl
      revert htag
      decide
    rw [lookup_setField, if_neg htimezone, lookup_setField, if_neg htimestamp] at hw
    exact htexts tag htag w hw
  · rw [lookup_setField, if_neg (by decide), lookup_setField, if_pos rfl]
    exact ⟨value, rfl, hvalue⟩
  · rw [lookup_setField, if_pos rfl]
    exact ⟨n, rfl, hlow, hhigh⟩
  · show ∀ name ∈ event.m_vectAttachment, _
    rw [hattachments]
    intro name hname
    cases hname

theorem wellBuilt_constructor {c : Constructor} (hfits : c.Fits dbl) {currentTimeMs : ℕ}
    (htime : currentTimeMs < 2 ^ 64) {timeZoneOffsetMinutes : ℤ}
    (hlow : -2 ^ 31 ≤ timeZoneOffsetMinutes) (hhigh : timeZoneOffsetMinutes < 2 ^ 31) :
    WellBuilt dbl (c.event currentTimeMs timeZoneOffsetMinutes) := by
  have hclock : IsTimestamp dbl (.uint currentTimeMs) := ⟨currentTimeMs, htime, Or.inl rfl⟩
  have hnamed : ∀ strVersion strId, ∀ tag ∈ [eventIdTag, versionTag, bizTrancId, msgId, corId],
      ∀ value, ((blank.setField eventIdTag (.string strId)).setField versionTag
        (.string strVersion)).m_jsonEventFields.lookup tag = some value →
          ∃ text, value = .string text := by
    intro strVersion strId tag _ value hvalue
    rw [lookup_setField, lookup_setField] at hvalue
    split at hvalue
    · exact ⟨strVersion, (Option.some.inj hvalue).symm⟩
    · split at hvalue
      · exact ⟨strId, (Option.some.inj hvalue).symm⟩
      · cases hvalue
  cases c with
  | plain =>
    apply wellBuilt_stamped rfl rfl rfl ?_ hclock hlow hhigh
    intro tag _ value hvalue
    cases hvalue
  | versioned rstrVersion rstrEventId =>
    exact wellBuilt_stamped rfl rfl rfl (hnamed rstrVersion rstrEventId) hclock hlow hhigh
  | timed rstrVersion rstrEventId dblTimestamp =>
    exact wellBuilt_stamped rfl rfl rfl (hnamed rstrVersion rstrEventId)
      (isTimestamp_of_integral hfits) hlow hhigh

/-- And so does a run of setters. -/
theorem WellBuilt.exec {event event' : IgniteEvent} {setters : List Setter}
    (h : WellBuilt dbl event) (hfits : ∀ setter ∈ setters, setter.Fits dbl)
    (hrun : exec IgniteEvent.apply event setters = some event') : WellBuilt dbl event' := by
  have hstep : ∀ s (a : Setter) s', WellBuilt dbl s → a.Fits dbl → s.apply a = some s' →
      WellBuilt dbl s' :=
    fun s a s' hs ha hs' => hs.apply ha hs'
  exact exec_inv hstep setters event event' h
    (along_of_forall_mem (fun setter hsetter _ => hfits setter hsetter) event) hrun

/-! ## Attachments -/

/-- The array of the names. -/
def namesArray : List String → Option JsonValue
  | [] => none
  | names => some (.array (names.map .string))

/-- What the loop does: uploads go to the array, the others to the data. -/
theorem writeAttachments_eq {names : List String} {event : IgniteEvent}
    (hnames : ∀ name ∈ names, isUploadName name = true ∨ '_' ∈ name.toList)
    (hdata : ∃ members, event.m_jsonValue = .object members) (jsonFileArray : List JsonValue) :
    writeAttachments names jsonFileArray event =
      some (jsonFileArray ++ (names.filter isUploadName).map .string,
        { event with m_jsonValue := withRejections event.m_jsonValue names }) := by
  unfold withRejections
  induction names generalizing event jsonFileArray with
  | nil => simp [writeAttachments]
  | cons name names ih =>
    have hrest := fun n hn => hnames n (List.mem_cons_of_mem name hn)
    rw [writeAttachments]
    by_cases hupload : isUploadName name = true
    · rw [if_pos hupload, ih hrest hdata, List.filter_cons_of_pos hupload,
        List.filter_cons_of_neg (by simpa using hupload), List.map_cons, List.append_assoc]
      rfl
    · -- a rejected file: `ExtractName` takes it out
      have hunderscore : '_' ∈ name.toList :=
        (hnames name List.mem_cons_self).resolve_left hupload
      obtain ⟨members, hmembers⟩ := hdata
      rw [if_neg hupload, extractName, if_pos hunderscore, addField_object hmembers,
        Option.bind_some, ih hrest ⟨_, rfl⟩, List.filter_cons_of_neg hupload,
        List.filter_cons_of_pos (by simpa using hupload), List.foldl_cons, hmembers]
      rfl

/-- The event that is left has its data settled, and the names still. -/
theorem fileArray_eq {event : IgniteEvent}
    (hnames : ∀ name ∈ event.m_vectAttachment, isUploadName name = true ∨ '_' ∈ name.toList)
    (hdata : ∃ members, event.m_jsonValue = .object members) :
    event.fileArray = some (namesArray event.settled.m_vectAttachment,
      { event.settled with m_vectAttachment := event.m_vectAttachment }) := by
  obtain ⟨data, fields, pii, attachments⟩ := event
  unfold fileArray settled
  cases attachments with
  | nil => rfl
  | cons first names =>
    have hrest := fun name hname => hnames name (List.mem_cons_of_mem first hname)
    dsimp only
    rw [writeAttachments_eq hrest hdata]
    rfl

/-- Behind the first, an event that is settled has uploads only. -/
theorem settled_of_uploads {event : IgniteEvent}
    (h : ∀ name ∈ event.m_vectAttachment.tail, isUploadName name = true) :
    event.settled = event := by
  obtain ⟨data, fields, pii, attachments⟩ := event
  unfold settled
  cases attachments with
  | nil => rfl
  | cons first names =>
    have hall : names.filter isUploadName = names := List.filter_eq_self.mpr h
    have hnone : (names.filter fun name => !isUploadName name) = [] := by
      rw [List.filter_eq_nil_iff]
      intro name hname
      simpa using h name hname
    unfold withRejections
    dsimp only
    rw [hall, hnone]
    rfl

theorem uploads_settled (event : IgniteEvent) :
    ∀ name ∈ event.settled.m_vectAttachment.tail, isUploadName name = true := by
  unfold settled
  cases hattachments : event.m_vectAttachment with
  | nil =>
    intro name hname
    rw [hattachments] at hname
    cases hname
  | cons first names =>
    intro name hname
    exact (List.mem_filter.mp hname).2

theorem WellBuilt.settled {event : IgniteEvent} (h : WellBuilt dbl event) :
    WellBuilt dbl event.settled := by
  unfold IgniteEvent.settled
  cases hattachments : event.m_vectAttachment with
  | nil => exact h
  | cons first names =>
    refine ⟨?_, h.pii, h.texts, h.timestamp, h.timezone, ?_⟩
    · unfold withRejections
      dsimp only
      generalize names.filter (fun name => !isUploadName name) = rejected
      have hdata := h.data
      revert hdata
      generalize event.m_jsonValue = data
      induction rejected generalizing data with
      | nil => exact fun hdata => hdata
      | cons name rejected ih => exact fun hdata => ih _ (isData_withRejected dbl hdata name)
    · have hnames := h.attachments
      rw [hattachments] at hnames
      intro name hname
      rcases List.mem_cons.mp hname with rfl | hname
      · exact hnames _ List.mem_cons_self
      · exact hnames name (List.mem_cons_of_mem _ (List.mem_of_mem_filter hname))

/-- Settling leaves the header alone. -/
theorem lookup_settled (event : IgniteEvent) :
    event.settled.m_jsonEventFields = event.m_jsonEventFields := by
  unfold settled
  split <;> rfl

/-! ## The root -/

theorem nodup_rootEntries (bBenchMode : Bool) (jsonFileArray : Option JsonValue)
    (event : IgniteEvent) :
    ((rootEntries bBenchMode jsonFileArray event).map Prod.fst).Nodup := by
  show [eventIdTag, versionTag, modeTag, timestampTag, fileAttachmentTag, valueTag, piiTag,
    timezoneTag, bizTrancId, msgId, corId].Nodup
  decide

/-- The members that are read. -/
def readRoot (bBenchMode : Bool) (jsonFileArray : Option JsonValue) (event : IgniteEvent) :
    List (String × JsonValue) :=
  readMembers (assigned (rootEntries bBenchMode jsonFileArray event) [])

theorem lookup_readRoot (bBenchMode : Bool) (jsonFileArray : Option JsonValue)
    (event : IgniteEvent) (tag : String) :
    (readRoot bBenchMode jsonFileArray event).lookup tag =
      ((rootEntries bBenchMode jsonFileArray event).lookup tag).join.map readKind := by
  unfold readRoot
  rw [readMembers_eq_map, lookup_mapValues,
    lookup_assigned (nodup_rootEntries bBenchMode jsonFileArray event), List.lookup_nil,
    Option.or_none]

theorem held_of_isData {value : JsonValue} (h : IsData dbl value) :
    Held dbl (dataLevels + 1) value := by
  obtain ⟨members, rfl, hasc, hheld⟩ := h
  exact ⟨hasc, hheld⟩

theorem held_of_isTimestamp {value : JsonValue} (h : IsTimestamp dbl value) :
    Held dbl (dataLevels + 1) value := by
  obtain ⟨t, ht, rfl | ⟨rfl, hprinted, -⟩⟩ := h
  · exact ht
  · exact hprinted

/-- The root of an event can be written and read if its parts can. -/
theorem held_rootEntries {event : IgniteEvent} (hdata : IsData dbl event.m_jsonValue)
    (hpii : IsData dbl event.m_jsonPiiFields)
    (hhead : ∀ tag ∈ headTags, ∀ value, event.m_jsonEventFields.lookup tag = some value →
      Held dbl (dataLevels + 1) value)
    (bBenchMode : Bool) (names : List String) :
    Held dbl stackLimit
      (.object (assigned (rootEntries bBenchMode (namesArray names) event) [])) := by
  show Held dbl (dataLevels + 1 + 1) _
  have hfield : ∀ tag ∈ headTags, Held dbl (dataLevels + 1) (event.field tag) := by
    intro tag htag
    unfold field
    cases hvalue : event.m_jsonEventFields.lookup tag with
    | none => trivial
    | some value => exact hhead tag htag value hvalue
  refine ⟨ascending_assigned _ ascending_nil, ?_⟩
  intro m hm
  have hentry := (mem_assigned hm).resolve_left (by simp)
  obtain ⟨tag, value⟩ := m
  simp only [rootEntries, List.mem_cons, Prod.mk.injEq, List.not_mem_nil, or_false] at hentry
  rcases hentry with ⟨-, hv⟩ | ⟨-, hv⟩ | ⟨-, hv⟩ | ⟨-, hv⟩ | ⟨-, hv⟩ | ⟨-, hv⟩ | ⟨-, hv⟩ |
    ⟨-, hv⟩ | ⟨-, hv⟩ | ⟨-, hv⟩ | ⟨-, hv⟩
  · cases hv
    exact hfield eventIdTag (by decide)
  · cases hv
    exact hfield versionTag (by decide)
  · split at hv
    · cases hv
      show -2 ^ 63 ≤ (1 : ℤ) ∧ (1 : ℤ) < 2 ^ 63
      decide
    · cases hv
  · cases hv
    exact hfield timestampTag (by decide)
  · -- the names of the attachments
    cases names with
    | nil => cases hv
    | cons name names =>
      cases hv
      intro value hvalue
      obtain ⟨name', -, rfl⟩ := List.mem_map.mp hvalue
      trivial
  · cases hv
    exact held_of_isData hdata
  · split at hv
    · cases hv
    · cases hv
      exact held_of_isData hpii
  · cases hv
    exact hfield timezoneTag (by decide)
  · exact hhead bizTrancId (by decide) value hv.symm
  · exact hhead msgId (by decide) value hv.symm
  · exact hhead corId (by decide) value hv.symm

theorem held_root {event : IgniteEvent} (h : WellBuilt dbl event) (bBenchMode : Bool)
    (names : List String) :
    Held dbl stackLimit
      (.object (assigned (rootEntries bBenchMode (namesArray names) event) [])) := by
  apply held_rootEntries h.data h.pii
  intro tag htag value hvalue
  by_cases htimestamp : tag = timestampTag
  · obtain ⟨timestamp, hlookup, hstamp⟩ := h.timestamp
    rw [htimestamp, hlookup] at hvalue
    cases hvalue
    exact held_of_isTimestamp hstamp
  by_cases htimezone : tag = timezoneTag
  · obtain ⟨n, hlookup, hlow, hhigh⟩ := h.timezone
    rw [htimezone, hlookup] at hvalue
    cases hvalue
    show -2 ^ 63 ≤ n ∧ n < 2 ^ 63
    omega
  · have htext : tag ∈ [eventIdTag, versionTag, bizTrancId, msgId, corId] := by
      simp only [headTags, List.mem_cons, List.not_mem_nil, or_false] at htag ⊢
      tauto
    obtain ⟨text, rfl⟩ := h.texts tag htext value hvalue
    trivial

/-! ## Reading -/

/-- A header, if there is one. -/
def setOptional (tag : String) (value : Option JsonValue) (event : IgniteEvent) : IgniteEvent :=
  match value with
  | none => event
  | some value => event.setField tag value

theorem setOptional_data (tag : String) (value : Option JsonValue) (event : IgniteEvent) :
    (event.setOptional tag value).m_jsonValue = event.m_jsonValue := by
  cases value <;> rfl

theorem setOptional_pii (tag : String) (value : Option JsonValue) (event : IgniteEvent) :
    (event.setOptional tag value).m_jsonPiiFields = event.m_jsonPiiFields := by
  cases value <;> rfl

theorem setOptional_attachments (tag : String) (value : Option JsonValue) (event : IgniteEvent) :
    (event.setOptional tag value).m_vectAttachment = event.m_vectAttachment := by
  cases value <;> rfl

theorem lookup_setOptional (tag : String) (value : Option JsonValue) (event : IgniteEvent)
    (k : String) :
    (event.setOptional tag value).m_jsonEventFields.lookup k =
      if k = tag then value.or (event.m_jsonEventFields.lookup k)
      else event.m_jsonEventFields.lookup k := by
  unfold setOptional
  cases value with
  | none => simp
  | some value => exact lookup_setField tag value event k

theorem readField_text {jsonRoot : List (String × JsonValue)} {tag text : String}
    (h : jsonRoot.lookup tag = some (.string text)) (event : IgniteEvent) :
    readField (asStringValue dbl) jsonRoot tag event = some (event.setField tag (.string text)) := by
  unfold readField
  rw [h]
  rfl

theorem readField_timestamp {jsonRoot : List (String × JsonValue)} {value : JsonValue} {t : ℕ}
    (h : jsonRoot.lookup timestampTag = some (readKind value))
    (hread : (readKind value).asUInt64 = some t) (event : IgniteEvent) :
    readField asUInt64Value jsonRoot timestampTag event =
      some (event.setField timestampTag (.uint t)) := by
  unfold readField asUInt64Value
  rw [h, Option.getD_some, hread]
  rfl

theorem readMember_timezone {jsonRoot : List (String × JsonValue)} {n : ℤ}
    (h : jsonRoot.lookup timezoneTag = some (readKind (.int n))) (hlow : -2 ^ 31 ≤ n)
    (hhigh : n < 2 ^ 31) (event : IgniteEvent) :
    readMember asIntValue jsonRoot timezoneTag event =
      some (event.setField timezoneTag (.int n)) := by
  have hsmall : readKind (.int n) = .int n := by
    rw [readKind, readInt, if_pos hhigh]
  unfold readMember readField asIntValue
  rw [h, Option.isSome_some, if_pos rfl, Option.getD_some, hsmall, JsonValue.asInt,
    if_pos ⟨hlow, hhigh⟩]
  rfl

/-- The texts of the header that may be missing. -/
theorem readMember_text {jsonRoot : List (String × JsonValue)} {tag : String}
    {value : Option JsonValue} (h : jsonRoot.lookup tag = value.map readKind)
    (htext : ∀ v, value = some v → ∃ text, v = .string text) (event : IgniteEvent) :
    readMember (asStringValue dbl) jsonRoot tag event = some (event.setOptional tag value) := by
  unfold readMember
  cases value with
  | none =>
    rw [h]
    rfl
  | some v =>
    obtain ⟨text, rfl⟩ := htext v rfl
    rw [if_pos (by rw [h]; rfl)]
    exact readField_text h event

/-- A timestamp is read as the number it is. -/
theorem asUInt64_readKind {value : JsonValue} (h : IsTimestamp dbl value) :
    ∃ t : ℕ, (readKind value).asUInt64 = some t ∧ byValue value = .real t ∧
      writeValue dbl value = uintToString t := by
  obtain ⟨t, ht, hvalue⟩ := h
  have hread : (readInt t).asUInt64 = some t := by
    unfold readInt
    split
    · show (if (0 : ℤ) ≤ t then some (t : ℤ).toNat else none) = some t
      rw [if_pos (by omega), Int.toNat_natCast]
    · show some (t : ℤ).toNat = some t
      rw [Int.toNat_natCast]
  refine ⟨t, ?_⟩
  rcases hvalue with rfl | ⟨rfl, hprinted, hlt⟩
  · exact ⟨hread, rfl, rfl⟩
  · -- a double whose text is its digits
    have hdigits : ((t : ℚ).den = 1 ∧ (t : ℚ).num.natAbs < 10 ^ 17) := ⟨rfl, hlt⟩
    unfold DoubleText.Printed at hprinted
    rw [if_pos hdigits] at hprinted
    refine ⟨?_, rfl, ?_⟩
    · rw [readKind, if_pos hdigits]
      exact hread
    · rw [writeValue, hprinted]
      exact intToString_natCast t

theorem field_of_lookup {event : IgniteEvent} {tag : String} {value : JsonValue}
    (h : event.m_jsonEventFields.lookup tag = some value) : event.field tag = value := by
  unfold field
  rw [h]
  rfl

/-- What is read of an event whose timestamp is read as `t`. -/
structure ReadFrom (event : IgniteEvent) (t : ℕ) (read : IgniteEvent) : Prop where
  data : read.m_jsonValue = readKind event.m_jsonValue
  pii : read.m_jsonPiiFields = readKind event.m_jsonPiiFields
  attachments : read.m_vectAttachment = event.m_vectAttachment
  timestamp : read.m_jsonEventFields.lookup timestampTag = some (.uint t)
  head : ∀ tag ∈ headTags, tag ≠ timestampTag →
    read.m_jsonEventFields.lookup tag = event.m_jsonEventFields.lookup tag

theorem readAttachments_namesArray {jsonRoot : List (String × JsonValue)} {names : List String}
    (h : jsonRoot.lookup fileAttachmentTag = (namesArray names).map readKind)
    {event : IgniteEvent} (hnone : event.m_vectAttachment = []) :
    readAttachments dbl jsonRoot event = some { event with m_vectAttachment := names } := by
  have htexts : ∀ names : List String,
      ((names.map JsonValue.string).map readKind).mapM (JsonValue.asString dbl.valueToString) =
        some names := by
    intro names
    induction names with
    | nil => rfl
    | cons name names ih =>
      rw [List.map_cons, List.map_cons, List.mapM_cons, ih]
      rfl
  obtain ⟨data, fields, pii, attachments⟩ := event
  have hnil : attachments = [] := hnone
  unfold readAttachments
  rw [h]
  cases names with
  | nil =>
    rw [hnil]
    rfl
  | cons name names =>
    show (((readKinds ((name :: names).map JsonValue.string)).mapM
      (JsonValue.asString dbl.valueToString)).map fun names =>
        (⟨data, fields, pii, attachments ++ names⟩ : IgniteEvent)) = _
    rw [readKinds_eq_map, htexts (name :: names), hnil]
    rfl

/-- The members of the root, read into a fresh event. -/
theorem fromRoot_readRoot {event : IgniteEvent} {t : ℕ} {n : ℤ}
    (hobject : ∃ members, event.m_jsonPiiFields = .object members)
    (htexts : ∀ tag ∈ [eventIdTag, versionTag, bizTrancId, msgId, corId], ∀ value,
      event.m_jsonEventFields.lookup tag = some value → ∃ text, value = .string text)
    (hread : (readKind (event.field timestampTag)).asUInt64 = some t)
    (htimezone : event.m_jsonEventFields.lookup timezoneTag = some (.int n))
    (hlow : -2 ^ 31 ≤ n) (hhigh : n < 2 ^ 31) (hnamed : Named event)
    (bBenchMode : Bool) (currentTimeMs : ℕ) (timeZoneOffsetMinutes : ℤ) :
    ∃ read, fromRoot dbl (readRoot bBenchMode (namesArray event.m_vectAttachment) event)
        (Constructor.plain.event currentTimeMs timeZoneOffsetMinutes) = some read ∧
      ReadFrom event t read := by
  have hroot := lookup_readRoot bBenchMode (namesArray event.m_vectAttachment) event
  obtain ⟨id, hid⟩ := Option.isSome_iff_exists.mp hnamed.1
  obtain ⟨version, hversion⟩ := Option.isSome_iff_exists.mp hnamed.2
  obtain ⟨strId, rfl⟩ := htexts eventIdTag (by decide) id hid
  obtain ⟨strVersion, rfl⟩ := htexts versionTag (by decide) version hversion
  -- the members of the root
  have hrootVersion := hroot versionTag
  have hrootId := hroot eventIdTag
  have hrootTimestamp := hroot timestampTag
  have hrootTimezone := hroot timezoneTag
  have hrootFiles := hroot fileAttachmentTag
  have hrootData := hroot valueTag
  have hrootPii := hroot piiTag
  have hrootBiz := hroot bizTrancId
  have hrootCor := hroot corId
  have hrootMsg := hroot msgId
  generalize readRoot bBenchMode (namesArray event.m_vectAttachment) event = jsonRoot at *
  change _ = some (readKind (event.field versionTag)) at hrootVersion
  change _ = some (readKind (event.field eventIdTag)) at hrootId
  change _ = some (readKind (event.field timestampTag)) at hrootTimestamp
  change _ = some (readKind (event.field timezoneTag)) at hrootTimezone
  change _ = (namesArray event.m_vectAttachment).map readKind at hrootFiles
  change _ = some (readKind event.m_jsonValue) at hrootData
  change _ = (if event.m_jsonPiiFields.empty then none
    else some event.m_jsonPiiFields).map readKind at hrootPii
  change _ = (event.m_jsonEventFields.lookup bizTrancId).map readKind at hrootBiz
  change _ = (event.m_jsonEventFields.lookup corId).map readKind at hrootCor
  change _ = (event.m_jsonEventFields.lookup msgId).map readKind at hrootMsg
  rw [field_of_lookup hversion] at hrootVersion
  rw [field_of_lookup hid] at hrootId
  rw [field_of_lookup htimezone] at hrootTimezone
  have hpii : (jsonRoot.lookup piiTag).getD (.object []) = readKind event.m_jsonPiiFields := by
    obtain ⟨members, hmembers⟩ := hobject
    rw [hrootPii, hmembers]
    cases members with
    | nil => rfl
    | cons m members => rfl
  unfold fromRoot
  rw [readField_text hrootVersion, Option.bind_eq_bind, Option.bind_some,
    readField_text hrootId, Option.bind_some, readField_timestamp hrootTimestamp hread,
    Option.bind_some, readMember_timezone hrootTimezone hlow hhigh, Option.bind_some,
    readAttachments_namesArray hrootFiles rfl, Option.bind_some]
  dsimp only
  rw [readMember_text hrootBiz (htexts bizTrancId (by decide)), Option.bind_some,
    readMember_text hrootCor (htexts corId (by decide)), Option.bind_some,
    readMember_text hrootMsg (htexts msgId (by decide))]
  refine ⟨_, rfl, ?_⟩
  constructor
  · rw [setOptional_data, setOptional_data, setOptional_data]
    show (jsonRoot.lookup valueTag).getD .null = _
    rw [hrootData]
    rfl
  · rw [setOptional_pii, setOptional_pii, setOptional_pii]
    exact hpii
  · rw [setOptional_attachments, setOptional_attachments, setOptional_attachments]
    rfl
  · rw [lookup_setOptional, if_neg (by decide), lookup_setOptional, if_neg (by decide),
      lookup_setOptional, if_neg (by decide)]
    rfl
  · intro tag htag hne
    rw [lookup_setOptional, lookup_setOptional, lookup_setOptional]
    simp only [headTags, List.mem_cons, List.not_mem_nil, or_false] at htag
    rcases htag with rfl | rfl | rfl | rfl | rfl | rfl | rfl
    · rw [if_neg (by decide), if_neg (by decide), if_neg (by decide), hid]
      rfl
    · rw [if_neg (by decide), if_neg (by decide), if_neg (by decide), hversion]
      rfl
    · exact absurd rfl hne
    · rw [if_neg (by decide), if_neg (by decide), if_neg (by decide), htimezone]
      rfl
    · rw [if_neg (by decide), if_neg (by decide), if_pos rfl]
      exact Option.or_none
    · rw [if_pos rfl, if_neg (by decide), if_neg (by decide)]
      exact Option.or_none
    · rw [if_neg (by decide), if_pos rfl, if_neg (by decide)]
      exact Option.or_none

/-! ## The event that is read -/

theorem sameEvent_of_readFrom {event read : IgniteEvent} {t : ℕ} (h : ReadFrom event t read)
    {timestamp : JsonValue}
    (htimestamp : event.m_jsonEventFields.lookup timestampTag = some timestamp)
    (hvalue : byValue timestamp = .real t) : SameEvent read event := by
  refine ⟨?_, ?_, ?_, h.attachments⟩
  · intro tag htag
    by_cases hne : tag = timestampTag
    · rw [hne, h.timestamp, htimestamp, Option.map_some, Option.map_some, hvalue]
      rfl
    · rw [h.head tag htag hne]
  · rw [h.data, byValue_readKind]
  · rw [h.pii, byValue_readKind]

/-- What is read is written with the same text. -/
theorem eventToJson_of_readFrom {event read : IgniteEvent} {t : ℕ} (hevent : WellBuilt dbl event)
    (hsettled : ∀ name ∈ event.m_vectAttachment.tail, isUploadName name = true)
    (h : ReadFrom event t read)
    (htext : writeValue dbl (event.field timestampTag) = uintToString t) (bBenchMode : Bool) :
    ∃ written', read.eventToJson dbl bBenchMode =
      some (write dbl (.object
        (assigned (rootEntries bBenchMode (namesArray event.m_vectAttachment) event) [])),
          written') := by
  obtain ⟨data, hdata, hasc, hheld⟩ := hevent.data
  obtain ⟨pii, hpii, -, -⟩ := hevent.pii
  have hnames : ∀ name ∈ read.m_vectAttachment, isUploadName name = true ∨ '_' ∈ name.toList := by
    rw [h.attachments]
    exact hevent.attachments
  have hreadData : ∃ members, read.m_jsonValue = .object members := by
    rw [h.data, hdata]
    exact ⟨readMembers data, rfl⟩
  have hreadSettled : read.settled = read := by
    apply settled_of_uploads
    rw [h.attachments]
    exact hsettled
  have hfield : ∀ tag ∈ headTags, tag ≠ timestampTag → read.field tag = event.field tag := by
    intro tag htag hne
    unfold field
    rw [h.head tag htag hne]
  have hempty : read.m_jsonPiiFields.empty = event.m_jsonPiiFields.empty := by
    rw [h.pii, hpii]
    cases pii <;> rfl
  -- each member has the text that it had
  have htexts : (rootEntries bBenchMode (namesArray event.m_vectAttachment) read).map
        (fun e => (e.1, e.2.map (writeValue dbl))) =
      (rootEntries bBenchMode (namesArray event.m_vectAttachment) event).map
        fun e => (e.1, e.2.map (writeValue dbl)) := by
    have htimestamp : writeValue dbl (read.field timestampTag) =
        writeValue dbl (event.field timestampTag) := by
      rw [field_of_lookup h.timestamp, htext, writeValue]
    have hdataText : writeValue dbl read.m_jsonValue = writeValue dbl event.m_jsonValue := by
      rw [h.data, writeValue_readKind dbl (held_of_isData hevent.data)]
    have hpiiText : writeValue dbl read.m_jsonPiiFields =
        writeValue dbl event.m_jsonPiiFields := by
      rw [h.pii, writeValue_readKind dbl (held_of_isData hevent.pii)]
    have hpiiEntry : (if event.m_jsonPiiFields.empty then none
          else some read.m_jsonPiiFields).map (writeValue dbl) =
        (if event.m_jsonPiiFields.empty then none
          else some event.m_jsonPiiFields).map (writeValue dbl) := by
      split
      · rfl
      · rw [Option.map_some, Option.map_some, hpiiText]
    unfold rootEntries
    simp only [List.map_cons, List.map_nil, Option.map_some]
    rw [hfield eventIdTag (by decide) (by decide), hfield versionTag (by decide) (by decide),
      hfield timezoneTag (by decide) (by decide), htimestamp, hdataText, hempty, hpiiEntry,
      h.head bizTrancId (by decide) (by decide), h.head msgId (by decide) (by decide),
      h.head corId (by decide) (by decide)]
  have hobject : writeMembers dbl
        (assigned (rootEntries bBenchMode (namesArray event.m_vectAttachment) read) []) =
      writeMembers dbl
        (assigned (rootEntries bBenchMode (namesArray event.m_vectAttachment) event) []) := by
    apply writeMembers_of_texts
    rw [assigned_mapValues, assigned_mapValues, htexts]
  have hjson : write dbl (.object
        (assigned (rootEntries bBenchMode (namesArray event.m_vectAttachment) read) [])) =
      write dbl (.object
        (assigned (rootEntries bBenchMode (namesArray event.m_vectAttachment) event) [])) := by
    unfold write
    rw [writeValue, writeValue, hobject]
  refine ⟨{ read with m_vectAttachment := event.m_vectAttachment }, ?_⟩
  unfold eventToJson
  rw [fileArray_eq hnames hreadData, hreadSettled, h.attachments, Option.map_some, ← hjson]
  rfl

/-- A well-built event with an id and a version is kept. -/
theorem WellBuilt.eventKept {event : IgniteEvent} (h : WellBuilt dbl event) (hnamed : Named event)
    (bBenchMode : Bool) (currentTimeMs : ℕ) (timeZoneOffsetMinutes : ℤ) :
    EventKept dbl bBenchMode (Constructor.plain.event currentTimeMs timeZoneOffsetMinutes) event
      event.settled := by
  -- what is written is the event without the attachments that were not accepted
  have hsettled := h.settled
  have hnamedSettled : Named event.settled := by
    unfold Named
    rw [lookup_settled]
    exact hnamed
  obtain ⟨members, hmembers, -⟩ := h.data
  obtain ⟨timestamp, htimestamp, hstamp⟩ := hsettled.timestamp
  obtain ⟨n, htimezone, hlow, hhigh⟩ := hsettled.timezone
  obtain ⟨pii, hpii, -⟩ := hsettled.pii
  obtain ⟨t, hasUInt64, hvalue, htext⟩ := asUInt64_readKind hstamp
  have hfield := field_of_lookup htimestamp
  rw [← hfield] at hasUInt64 htext
  obtain ⟨read, hread, hfrom⟩ : ∃ read, fromRoot dbl
      (readRoot bBenchMode (namesArray event.settled.m_vectAttachment) event.settled)
      (Constructor.plain.event currentTimeMs timeZoneOffsetMinutes) = some read ∧
        ReadFrom event.settled t read :=
    fromRoot_readRoot ⟨pii, hpii⟩ hsettled.texts hasUInt64 htimezone hlow hhigh hnamedSettled
      bBenchMode currentTimeMs timeZoneOffsetMinutes
  refine ⟨_, { event.settled with m_vectAttachment := event.m_vectAttachment }, read, ?_, ?_,
    sameEvent_of_readFrom hfrom htimestamp hvalue,
    eventToJson_of_readFrom hsettled (uploads_settled event) hfrom htext bBenchMode⟩
  · unfold eventToJson
    rw [fileArray_eq h.attachments ⟨members, hmembers⟩]
    rfl
  · unfold jsonToEvent
    rw [parse_write_readKind dbl (held_root hsettled bBenchMode _)]
    exact hread

/-- Events as the constructors and setters build them are read back and written again as
they were: the header, the data and the PII fields, the first attachment and the accepted
ones; the rejected ones behind the first are members of the data. -/
theorem eventKept_of_built {c : Constructor} {setters : List Setter} {nowMs freshMs : ℕ}
    {zone freshZone : ℤ} {event : IgniteEvent} (bBenchMode : Bool)
    (hc : c.Fits dbl) (hfits : ∀ setter ∈ setters, setter.Fits dbl) (hnow : nowMs < 2 ^ 64)
    (hlow : -2 ^ 31 ≤ zone) (hhigh : zone < 2 ^ 31)
    (hrun : exec IgniteEvent.apply (c.event nowMs zone) setters = some event)
    (hnamed : Named event) :
    EventKept dbl bBenchMode (Constructor.plain.event freshMs freshZone) event event.settled := by
  have hbuilt : WellBuilt dbl event :=
    (wellBuilt_constructor hc hnow hlow hhigh).exec hfits hrun
  exact hbuilt.eventKept hnamed bBenchMode freshMs freshZone

/-- A value of each header, an upload, a rejected file and another upload. -/
def pingSetters : List Setter :=
  [.addField "speed" (.int 5), .addPiiField "vin" (.string "V1"), .setTimezone (-300),
    .addBizTransaction "b", .addMessageId "m", .addCorrelationId "c", .addDeviceId "vin" "V1",
    .acceptAttach (.accepted "a"), .acceptAttach (.rejected "/tmp/x" .noFile),
    .acceptAttach (.accepted "b")]

/-- Doubles whose texts are those of `%.17g` on integers up to `10^17`. -/
def integralText : DoubleText where
  valueToString q :=
    if q.den = 1 ∧ q.num.natAbs < 10 ^ 17 then String.ofList (intToString q.num) else "1e+17"
  stringToDouble _ := some 100000000000000000

theorem printed_integralText {q : ℚ} (h : q.den = 1 ∧ q.num.natAbs < 10 ^ 17) :
    integralText.Printed q := by
  unfold DoubleText.Printed integralText
  rw [if_pos h]
  dsimp only
  rw [if_pos h, String.toList_ofList]

theorem eventKept_pingSetters :
    ∃ event, exec IgniteEvent.apply
        ((Constructor.timed "1.0" "Ping" 1719916966000).event 0 60) pingSetters = some event ∧
      EventKept integralText false (Constructor.plain.event 7 0) event event.settled := by
  obtain ⟨event, hrun⟩ : ∃ event, exec IgniteEvent.apply
      ((Constructor.timed "1.0" "Ping" 1719916966000).event 0 60) pingSetters = some event :=
    ⟨_, rfl⟩
  have hnamed : Named event := by
    cases hrun
    exact ⟨rfl, rfl⟩
  refine ⟨event, hrun, eventKept_of_built false ?_ ?_ ?_ ?_ ?_ hrun hnamed⟩
  · exact ⟨printed_integralText ⟨rfl, by decide⟩, 1719916966000, rfl, by decide⟩
  · unfold pingSetters
    simp [Setter.Fits, Held, dataLevels, headTags]
    decide
  all_goals decide

/-! ## What is not kept -/

/-- An event that is kept whatever the setters. -/
def KeptAfter (setters : List Setter) : Prop :=
  ∀ event, exec IgniteEvent.apply ((Constructor.versioned "1.0" "Ping").event 1 0) setters =
    some event →
      EventKept integralText false (Constructor.plain.event 2 0) event event

/-- A rejected file behind an accepted one is not among the attachments that are read. -/
theorem not_keptAfter_rejected :
    ¬ KeptAfter [.acceptAttach (.accepted "a"), .acceptAttach (.rejected "/tmp/x" .noFile)] := by
  intro h
  obtain ⟨event, hrun⟩ : ∃ event, exec IgniteEvent.apply
      ((Constructor.versioned "1.0" "Ping").event 1 0)
      [.acceptAttach (.accepted "a"), .acceptAttach (.rejected "/tmp/x" .noFile)] = some event :=
    ⟨_, rfl⟩
  have hwell : WellBuilt integralText event := by
    have hclock : WellBuilt integralText ((Constructor.versioned "1.0" "Ping").event 1 0) := by
      apply wellBuilt_constructor
      · trivial
      all_goals decide
    apply hclock.exec ?_ hrun
    intro setter hsetter
    rcases List.mem_cons.mp hsetter with rfl | hsetter
    · trivial
    · rw [List.mem_singleton.mp hsetter]
      trivial
  have hnamed : Named event := by
    cases hrun
    exact ⟨rfl, rfl⟩
  obtain ⟨json, _, read, hjson, hread, hsame, -⟩ := h event hrun
  obtain ⟨json', _, read', hjson', hread', hsame', -⟩ := hwell.eventKept hnamed false 2 0
  -- the same text is read into the same event
  rw [hjson] at hjson'
  cases hjson'
  rw [hread] at hread'
  cases hread'
  have hattachments := hsame.attachments.symm.trans hsame'.attachments
  cases hrun
  revert hattachments
  decide

section

variable {event : IgniteEvent}

theorem eventToJson_of_nil (hnone : event.m_vectAttachment = []) :
    event.eventToJson integralText false =
      some (write integralText (.object (assigned (rootEntries false (namesArray []) event) [])),
        event) := by
  unfold eventToJson fileArray
  rw [hnone]
  rfl

/-- An event without attachments, whose parts can be written and read. -/
theorem jsonToEvent_of_nil (hdata : IsData integralText event.m_jsonValue)
    (hpii : IsData integralText event.m_jsonPiiFields)
    (hhead : ∀ tag ∈ headTags, ∀ value, event.m_jsonEventFields.lookup tag = some value →
      Held integralText (dataLevels + 1) value) (fresh : IgniteEvent) :
    fresh.jsonToEvent integralText
        (write integralText (.object (assigned (rootEntries false (namesArray []) event) []))) =
      fromRoot integralText (readRoot false (namesArray []) event) fresh := by
  unfold jsonToEvent
  rw [parse_write_readKind integralText (held_rootEntries hdata hpii hhead false [])]
  rfl

end

/-- The event with a timestamp. -/
def pingAt (timestamp : JsonValue) : IgniteEvent :=
  ((Constructor.versioned "1.0" "Ping").event 1 0).setField timestampTag timestamp

theorem held_pingAt {timestamp : JsonValue} (h : Held integralText (dataLevels + 1) timestamp) :
    ∀ tag ∈ headTags, ∀ value, (pingAt timestamp).m_jsonEventFields.lookup tag = some value →
      Held integralText (dataLevels + 1) value := by
  intro tag htag value hvalue
  simp only [headTags, List.mem_cons, List.not_mem_nil, or_false] at htag
  rcases htag with rfl | rfl | rfl | rfl | rfl | rfl | rfl
  · cases hvalue
    trivial
  · cases hvalue
    trivial
  · cases hvalue
    exact h
  · cases hvalue
    show -2 ^ 63 ≤ (0 : ℤ) ∧ (0 : ℤ) < 2 ^ 63
    decide
  · cases hvalue
  · cases hvalue
  · cases hvalue

/-- A negative timestamp is not read. -/
theorem not_keptAfter_negative : ¬ KeptAfter [.setTimestamp (-1)] := by
  intro h
  have hprinted : Held integralText (dataLevels + 1) (.real (-1)) :=
    printed_integralText ⟨rfl, by decide⟩
  obtain ⟨json, _, read, hjson, hread, -⟩ := h (pingAt (.real (-1))) rfl
  rw [eventToJson_of_nil rfl] at hjson
  cases hjson
  rw [jsonToEvent_of_nil (isData_nil _) (isData_nil _) (held_pingAt hprinted)] at hread
  cases hread

/-- The event with a timestamp that is read as another value is not written again with the
same text. -/
theorem not_kept_pingAt {timestamp : JsonValue} {t : ℕ}
    (hheld : Held integralText (dataLevels + 1) timestamp) (ht : t < 2 ^ 64)
    (hread : (readKind timestamp).asUInt64 = some t)
    (hne : readKind timestamp ≠ readKind (.uint t)) :
    ¬ EventKept integralText false (Constructor.plain.event 2 0) (pingAt timestamp)
      (pingAt timestamp) := by
  rintro ⟨json, _, read, hjson, hjsonRead, -, _, hagain⟩
  have hdigits : Held integralText (dataLevels + 1) (.uint t) := ht
  have htexts : ∀ tag ∈ [eventIdTag, versionTag, bizTrancId, msgId, corId], ∀ value,
      (pingAt timestamp).m_jsonEventFields.lookup tag = some value →
        ∃ text, value = .string text := by
    intro tag htag value hvalue
    simp only [List.mem_cons, List.not_mem_nil, or_false] at htag
    rcases htag with rfl | rfl | rfl | rfl | rfl
    · exact ⟨"Ping", (Option.some.inj hvalue).symm⟩
    · exact ⟨"1.0", (Option.some.inj hvalue).symm⟩
    · cases hvalue
    · cases hvalue
    · cases hvalue
  have hfield : (readKind ((pingAt timestamp).field timestampTag)).asUInt64 = some t := hread
  obtain ⟨read', hread', hfrom⟩ : ∃ read, fromRoot integralText
      (readRoot false (namesArray []) (pingAt timestamp)) (Constructor.plain.event 2 0) =
        some read ∧ ReadFrom (pingAt timestamp) t read :=
    fromRoot_readRoot ⟨[], rfl⟩ htexts hfield rfl (by decide) (by decide) ⟨rfl, rfl⟩ false 2 0
  rw [eventToJson_of_nil rfl] at hjson
  cases hjson
  rw [jsonToEvent_of_nil (isData_nil _) (isData_nil _) (held_pingAt hheld)] at hjsonRead
  have hsame : read' = read := Option.some.inj (hread'.symm.trans hjsonRead)
  rw [hsame] at hfrom
  -- what is read has the entries of the event with the other timestamp
  have hentries : rootEntries false (namesArray []) read =
      rootEntries false (namesArray []) (pingAt (.uint t)) := by
    have hhead : ∀ tag ∈ headTags, tag ≠ timestampTag →
        read.field tag = (pingAt timestamp).field tag := by
      intro tag htag htagNe
      unfold field
      rw [hfrom.head tag htag htagNe]
    unfold rootEntries
    rw [hhead eventIdTag (by decide) (by decide), hhead versionTag (by decide) (by decide),
      hhead timezoneTag (by decide) (by decide), field_of_lookup hfrom.timestamp, hfrom.data,
      hfrom.pii, hfrom.head bizTrancId (by decide) (by decide),
      hfrom.head msgId (by decide) (by decide), hfrom.head corId (by decide) (by decide)]
    rfl
  rw [eventToJson_of_nil hfrom.attachments, hentries] at hagain
  have hjson := congrArg Prod.fst (Option.some.inj hagain)
  have hroot := held_rootEntries (isData_nil integralText) (isData_nil integralText)
    (held_pingAt hheld) false []
  have hroot' := held_rootEntries (isData_nil integralText) (isData_nil integralText)
    (held_pingAt hdigits) false []
  have hparse := congrArg (parse integralText) hjson
  dsimp only at hparse
  rw [parse_write_readKind _ hroot', parse_write_readKind _ hroot] at hparse
  have hmembers : readRoot false (namesArray []) (pingAt (.uint t)) =
      readRoot false (namesArray []) (pingAt timestamp) :=
    JsonValue.object.inj (Except.ok.inj hparse)
  have hlookup := congrArg (List.lookup timestampTag) hmembers
  rw [lookup_readRoot, lookup_readRoot] at hlookup
  exact hne (Option.some.inj hlookup).symm

/-- A timestamp that `%.17g` writes with an exponent is written as digits when it has been
read. -/
theorem not_keptAfter_exponent : ¬ KeptAfter [.setTimestamp 100000000000000000] := by
  intro h
  have hprinted : Held integralText (dataLevels + 1) (.real 100000000000000000) := by
    show integralText.Printed 100000000000000000
    unfold DoubleText.Printed
    rw [if_neg (by decide)]
    exact ⟨⟨'1', "e+17".toList, rfl, Or.inl rfl, rfl⟩, ⟨'e', by decide, rfl⟩, rfl⟩
  have hread : (readKind (.real 100000000000000000)).asUInt64 = some 100000000000000000 := rfl
  have hne : readKind (.real 100000000000000000) ≠ readKind (.uint 100000000000000000) := by
    decide
  exact not_kept_pingAt hprinted (by decide) hread hne
    (h (pingAt (.real 100000000000000000)) rfl)

/-- Data that is nested deeper than the stack of the reader is not read. -/
theorem not_keptAfter_deep : ¬ KeptAfter [.addField "a" (deep 999)] := by
  intro h
  obtain ⟨brackets, hbrackets⟩ := writeValue_deep integralText 999
  generalize deep 999 = value at h hbrackets
  obtain ⟨json, _, read, hjson, hread, -⟩ := h
    { (Constructor.versioned "1.0" "Ping").event 1 0 with m_jsonValue := .object [("a", value)] }
    rfl
  rw [eventToJson_of_nil rfl] at hjson
  cases hjson
  obtain ⟨members, hmembers⟩ : ∃ members, assigned (rootEntries false (namesArray [])
      { (Constructor.versioned "1.0" "Ping").event 1 0 with
        m_jsonValue := .object [("a", value)] }) [] =
      ("Data", .object [("a", value)]) :: members := ⟨_, rfl⟩
  obtain ⟨rest, hrest⟩ := exists_writeMembers integralText ("Data", .object [("a", value)]) members
  obtain ⟨rest', hrest'⟩ := exists_writeMembers integralText ("a", value) []
  -- the brackets stand behind the names of the first members
  have hvalue : ∀ n rest, Refused (readValue integralText n 2 (List.replicate 999 '[' ++ rest)) :=
    fun n rest => refused_brackets integralText (by decide) rest
  have hdata : ∀ n, Refused (readValue integralText n 1
      (writeValue integralText (.object [("a", value)]) ++ (rest ++ ['\x7d', '\n']))) := by
    intro n
    rw [writeValue, hrest', hbrackets]
    simp only [List.cons_append, List.append_assoc]
    exact refused_object integralText fun n => hvalue n _
  obtain ⟨e, he⟩ : Refused (readValue integralText
      (2 * (write integralText (.object (("Data", .object [("a", value)]) :: members))).toList.length
        + 2) 0
      (write integralText (.object (("Data", .object [("a", value)]) :: members))).toList) := by
    generalize 2 * _ + 2 = n
    unfold write
    rw [String.toList_ofList, writeValue, hrest]
    have hroot := @refused_object integralText n 0 "Data" _ hdata
    simpa using hroot
  rw [hmembers] at hread
  unfold jsonToEvent parse at hread
  rw [he] at hread
  cases hread

/-- A rejected file, a negative timestamp, one that is written with an exponent, and data
that are nested too deep: events that are not kept as they are. -/
theorem not_eventKept_asBuilt :
    ¬ KeptAfter [.acceptAttach (.accepted "a"), .acceptAttach (.rejected "/tmp/x" .noFile)] ∧
    ¬ KeptAfter [.setTimestamp (-1)] ∧
    ¬ KeptAfter [.setTimestamp 100000000000000000] ∧
    ¬ KeptAfter [.addField "a" (deep 999)] :=
  ⟨not_keptAfter_rejected, not_keptAfter_negative, not_keptAfter_exponent, not_keptAfter_deep⟩

end IgniteEvent

end DeviceClient
