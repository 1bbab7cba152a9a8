import DeviceClient.Event.IgniteEvent

/-!
# Writing an event that was read

An event that `JsonToEvent` has read holds the attachment names and the data of the
text, whatever they are. `EventToJson` cuts the names behind the first at their first
underscore, unless they begin with `v3_`, and makes the two parts a member of the data.

* `exists_eventToJson_iff`: which events can be written.
* `serialises_iff`: which texts are read as such an event.
-/

namespace DeviceClient

open JsonText

namespace IgniteEvent

/-- The names can be written in front of the data: each is an upload's, or has an
underscore and data that take a member. -/
def Writable (names : List String) (data : JsonValue) : Prop :=
  ∀ strName ∈ names,
    isUploadName strName = true ∨ '_' ∈ strName.toList ∧ data.objectMembers.isSome = true

/-! ## Writing -/

theorem writable_nil (data : JsonValue) : Writable [] data :=
  fun _ h => absurd h List.not_mem_nil

theorem writable_cons {strName : String} {names : List String} {data : JsonValue} :
    Writable (strName :: names) data ↔
      (isUploadName strName = true ∨
        '_' ∈ strName.toList ∧ data.objectMembers.isSome = true) ∧ Writable names data :=
  List.forall_mem_cons

/-- Names do not care which members the data have. -/
theorem Writable.of_members {names : List String} {data data' : JsonValue}
    (h : data.objectMembers.isSome = data'.objectMembers.isSome) :
    Writable names data ↔ Writable names data' := by
  unfold Writable
  rw [h]

/-- A rejected name is extracted iff it has an underscore and the data take a member; the
data are an object then. -/
theorem extractName_eq_some_iff {strName : String} {event event' : IgniteEvent} :
    extractName strName event = some event' ↔
      '_' ∈ strName.toList ∧ ∃ members, event.m_jsonValue.objectMembers = some members ∧
        event' = { event with
          m_jsonValue := .object (Lib.setKey (strFileName strName) (.string (fileError strName))
            members) } := by
  unfold extractName addField JsonValue.withMember
  by_cases hname : '_' ∈ strName.toList
  · rw [if_pos hname]
    cases event.m_jsonValue.objectMembers with
    | none => simp
    | some members => simp [hname, eq_comm]
  · rw [if_neg hname]
    simp [hname]

/-- The loop gets to its end iff the names are writable. -/
theorem exists_writeAttachments_iff (names : List String) (jsonFileArray : List JsonValue)
    (event : IgniteEvent) :
    (∃ r, writeAttachments names jsonFileArray event = some r) ↔
      Writable names event.m_jsonValue := by
  induction names generalizing jsonFileArray event with
  | nil =>
    constructor
    · intro _
      exact writable_nil _
    · intro _
      exact ⟨_, rfl⟩
  | cons strName names ih =>
    rw [writeAttachments, writable_cons]
    by_cases hupload : isUploadName strName = true
    · rw [if_pos hupload, ih]
      simp [hupload]
    · rw [if_neg hupload]
      constructor
      · rintro ⟨r, hr⟩
        obtain ⟨event', hextract, hrest⟩ := Option.bind_eq_some_iff.1 hr
        obtain ⟨hname, members, hmembers, rfl⟩ := extractName_eq_some_iff.1 hextract
        have hnames := (ih _ _).1 ⟨r, hrest⟩
        refine ⟨Or.inr ⟨hname, by rw [hmembers]; rfl⟩, (Writable.of_members ?_).1 hnames⟩
        rw [hmembers]
        rfl
      · rintro ⟨hhead, hnames⟩
        obtain ⟨hname, hsome⟩ := hhead.resolve_left hupload
        obtain ⟨members, hmembers⟩ := Option.isSome_iff_exists.1 hsome
        rw [extractName_eq_some_iff.2 ⟨hname, members, hmembers, rfl⟩, Option.bind_some, ih]
        refine (Writable.of_members ?_).1 hnames
        rw [hmembers]
        rfl

variable (dbl : DoubleText)

/-- An event is written iff the names behind its first attachment are writable. -/
theorem exists_eventToJson_iff (bBenchMode : Bool) (event : IgniteEvent) :
    (∃ r, eventToJson dbl bBenchMode event = some r) ↔
      Writable event.m_vectAttachment.tail event.m_jsonValue := by
  unfold eventToJson fileArray
  cases event.m_vectAttachment with
  | nil =>
    constructor
    · intro _
      exact writable_nil _
    · intro _
      exact ⟨_, rfl⟩
  | cons strName names =>
    rw [List.tail_cons, ← exists_writeAttachments_iff names [.string strName] event]
    dsimp only
    cases writeAttachments names [.string strName] event with
    | none => simp
    | some r => simp

/-! ## Reading -/

/-- The names of the attachments of a root. -/
def uploadIds (jsonRoot : List (String × JsonValue)) : List String :=
  match jsonRoot.lookup fileAttachmentTag with
  | some (.array values) => values.filterMap (JsonValue.asString dbl.valueToString)
  | _ => []

/-- The data of a root. -/
def rootData (jsonRoot : List (String × JsonValue)) : JsonValue :=
  (jsonRoot.lookup valueTag).getD .null

variable {dbl}

theorem readField_body {as : JsonValue → Option JsonValue}
    {jsonRoot : List (String × JsonValue)} {tag : String} {event event' : IgniteEvent}
    (h : readField as jsonRoot tag event = some event') :
    event'.m_vectAttachment = event.m_vectAttachment ∧ event'.m_jsonValue = event.m_jsonValue := by
  obtain ⟨value, -, rfl⟩ := Option.map_eq_some_iff.1 h
  exact ⟨rfl, rfl⟩

theorem readMember_body {as : JsonValue → Option JsonValue}
    {jsonRoot : List (String × JsonValue)} {tag : String} {event event' : IgniteEvent}
    (h : readMember as jsonRoot tag event = some event') :
    event'.m_vectAttachment = event.m_vectAttachment ∧ event'.m_jsonValue = event.m_jsonValue := by
  unfold readMember at h
  split at h
  · exact readField_body h
  · cases h
    exact ⟨rfl, rfl⟩

theorem filterMap_of_mapM {α β : Type} {f : α → Option β} {l : List α} {l' : List β}
    (h : l.mapM f = some l') : l.filterMap f = l' := by
  induction l generalizing l' with
  | nil =>
    cases h
    rfl
  | cons a l ih =>
    rw [List.mapM_cons] at h
    obtain ⟨b, hb, h⟩ := Option.bind_eq_some_iff.1 h
    obtain ⟨bs, hbs, h⟩ := Option.bind_eq_some_iff.1 h
    cases h
    rw [List.filterMap_cons_some hb, ih hbs]

theorem readAttachments_body {jsonRoot : List (String × JsonValue)} {event event' : IgniteEvent}
    (h : readAttachments dbl jsonRoot event = some event') :
    event'.m_vectAttachment = event.m_vectAttachment ++ uploadIds dbl jsonRoot := by
  have hother : some event = some event' →
      event'.m_vectAttachment = event.m_vectAttachment ++ [] := by
    intro heq
    rw [Option.some.inj heq, List.append_nil]
  unfold readAttachments at h
  unfold uploadIds
  generalize jsonRoot.lookup fileAttachmentTag = found at h ⊢
  cases found with
  | none => exact hother h
  | some value =>
    cases value with
    | array values =>
      obtain ⟨names, hnames, rfl⟩ := Option.map_eq_some_iff.1 h
      dsimp only
      rw [filterMap_of_mapM hnames]
    | _ => exact hother h

/-- What is read has the attachments of the event and then those of the root, and the data
of the root. -/
theorem fromRoot_body {jsonRoot : List (String × JsonValue)} {event read : IgniteEvent}
    (h : fromRoot dbl jsonRoot event = some read) :
    read.m_vectAttachment = event.m_vectAttachment ++ uploadIds dbl jsonRoot ∧
      read.m_jsonValue = rootData jsonRoot := by
  unfold fromRoot at h
  simp only [Option.bind_eq_bind, Option.bind_eq_some_iff] at h
  obtain ⟨e₁, h₁, e₂, h₂, e₃, h₃, e₄, h₄, e₅, h₅, e₆, h₆, e₇, h₇, h₈⟩ := h
  have hattachments : e₅.m_vectAttachment = event.m_vectAttachment ++ uploadIds dbl jsonRoot := by
    rw [readAttachments_body h₅, (readMember_body h₄).1, (readField_body h₃).1,
      (readField_body h₂).1, (readField_body h₁).1]
  constructor
  · rw [(readMember_body h₈).1, (readMember_body h₇).1, (readMember_body h₆).1]
    exact hattachments
  · rw [(readMember_body h₈).2, (readMember_body h₇).2, (readMember_body h₆).2]
    rfl

/-! ## Reading and writing -/

variable (dbl)

/-- The members of the root of a text. -/
def rootMembers (rstrJsonEvent : String) : List (String × JsonValue) :=
  match parse dbl rstrJsonEvent with
  | .error _ => []
  | .ok jsonRoot => jsonRoot.objectMembers.getD []

/-- What `JsonToEvent` makes of the text in an event can be written again. -/
def Serialises (bBenchMode : Bool) (rstrJsonEvent : String) (event : IgniteEvent) : Prop :=
  ∀ read, jsonToEvent dbl rstrJsonEvent event = some read →
    ∃ r, eventToJson dbl bBenchMode read = some r

theorem jsonToEvent_body {rstrJsonEvent : String} {event read : IgniteEvent}
    (h : jsonToEvent dbl rstrJsonEvent event = some read) :
    read.m_vectAttachment =
        event.m_vectAttachment ++ uploadIds dbl (rootMembers dbl rstrJsonEvent) ∧
      read.m_jsonValue = rootData (rootMembers dbl rstrJsonEvent) := by
  unfold jsonToEvent at h
  unfold rootMembers
  cases hparse : parse dbl rstrJsonEvent with
  | error e =>
    rw [hparse] at h
    cases h
  | ok jsonRoot =>
    rw [hparse] at h
    obtain ⟨members, hmembers, hread⟩ := Option.bind_eq_some_iff.1 h
    dsimp only
    rw [hmembers]
    exact fromRoot_body hread

/-- A text that is read is read as an event that can be written iff its names behind the
first are writable with its data. -/
theorem serialises_iff (bBenchMode : Bool) (rstrJsonEvent : String) (event : IgniteEvent) :
    Serialises dbl bBenchMode rstrJsonEvent event ↔
      ((jsonToEvent dbl rstrJsonEvent event).isSome = true →
        Writable (event.m_vectAttachment ++ uploadIds dbl (rootMembers dbl rstrJsonEvent)).tail
          (rootData (rootMembers dbl rstrJsonEvent))) := by
  unfold Serialises
  cases hread : jsonToEvent dbl rstrJsonEvent event with
  | none => simp
  | some read =>
    obtain ⟨hattachments, hdata⟩ := jsonToEvent_body dbl hread
    rw [← hattachments, ← hdata, ← exists_eventToJson_iff dbl bBenchMode]
    simp

/-- An event with two attachments, the second of which has no underscore. -/
def photoJson : String :=
  "\x7b\"Data\":\x7b\x7d,\"EventID\":\"Photo\",\"Timestamp\":1," ++
    "\"UploadId\":[\"v3_a\",\"b.jpg\"],\"Version\":\"1.0\"\x7d"

/-- It is read, and cannot be written. -/
theorem not_serialises_photoJson :
    ¬ Serialises ⟨fun _ => "", fun _ => none⟩ false photoJson (Constructor.plain.event 1 0) := by
  intro h
  have hread : ((jsonToEvent ⟨fun _ => "", fun _ => none⟩ photoJson
      (Constructor.plain.event 1 0)).any fun read =>
        (eventToJson ⟨fun _ => "", fun _ => none⟩ false read).isNone) = true := by
    decide +kernel
  obtain ⟨read, hsome, hnone⟩ := (Option.any_eq_true _ _).1 hread
  obtain ⟨r, hr⟩ := h read hsome
  rw [hr] at hnone
  cases hnone

end IgniteEvent

end DeviceClient
