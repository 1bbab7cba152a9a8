import DeviceClient.Lib.Run
import DeviceClient.Util.JsonNumbers
import DeviceClient.Util.JsonPath

/-!
# Events and their JSON

`CIgniteEvent`, with what its wrapper in the core adds to it: an event is the members
that head it, the object of its data, the object of its PII fields and the names of
its attachments.

`EventToJson` writes the first attachment whatever its name. A later one that was not
accepted for the upload is taken out: `ExtractName` makes it a member of the data.
-/

namespace DeviceClient

open JsonText

namespace JsonValue

/-- `removeMember`, whose overload for strings passes `c_str()` on. -/
def removeMember (key : String) : JsonValue → Option JsonValue
  | .null => some .null
  | .object members =>
    some (.object (Lib.eraseKey (String.ofList (key.toList.takeWhile (· ≠ '\x00'))) members))
  | _ => none

end JsonValue

/-- An event. What the setters throw is `none` below. -/
structure IgniteEvent where
  m_jsonValue : JsonValue
  m_jsonEventFields : List (String × JsonValue)
  m_jsonPiiFields : JsonValue
  m_vectAttachment : List String

namespace IgniteEvent

/-! ## Tags -/

def eventIdTag : String := "EventID"
def modeTag : String := "BenchMode"
def timestampTag : String := "Timestamp"
def timezoneTag : String := "Timezone"
def valueTag : String := "Data"
def versionTag : String := "Version"
def fileAttachmentTag : String := "UploadId"
def piiTag : String := "pii"
def bizTrancId : String := "BizTransactionId"
def msgId : String := "MessageId"
def corId : String := "CorrelationId"

/-- The tags of the members that head an event. -/
def headTags : List String :=
  [eventIdTag, versionTag, timestampTag, timezoneTag, bizTrancId, msgId, corId]

/-! ## Setters -/

/-- `m_jsonEventFields[tag]`. -/
def field (event : IgniteEvent) (tag : String) : JsonValue :=
  (event.m_jsonEventFields.lookup tag).getD .null

def setField (tag : String) (value : JsonValue) (event : IgniteEvent) : IgniteEvent :=
  { event with m_jsonEventFields := Lib.setKey tag value event.m_jsonEventFields }

/-- `AddField`; each of its overloads makes a JSON value of what it is given. -/
def addField (rstrName : String) (value : JsonValue) (event : IgniteEvent) : Option IgniteEvent :=
  (event.m_jsonValue.withMember rstrName fun _ => some value).map fun data =>
    { event with m_jsonValue := data }

/-- `RemoveField`. -/
def removeField (rstrFieldName : String) (event : IgniteEvent) : Option IgniteEvent :=
  (event.m_jsonValue.removeMember rstrFieldName).map fun data =>
    { event with m_jsonValue := data }

/-- `AddPiiField`. -/
def addPiiField (rstrName : String) (value : JsonValue) (event : IgniteEvent) :
    Option IgniteEvent :=
  (event.m_jsonPiiFields.withMember rstrName fun _ => some value).map fun fields =>
    { event with m_jsonPiiFields := fields }

/-- `SetTimezone`: from UTC-12 to UTC+14. -/
def setTimezone (nTzoffset : ℤ) (event : IgniteEvent) : IgniteEvent :=
  if -720 ≤ nTzoffset ∧ nTzoffset ≤ 840 then event.setField timezoneTag (.int nTzoffset)
  else event

/-- Why `AcceptAttach` rejects a file. -/
inductive AttachError where
  | attachLimit
  | noConfig
  | noDeviceId
  | fileTooLarge
  | totalOverLimit
  | underscoreRejected
  | noFileName
  | noFile
  | fileLengthLimit
deriving DecidableEq, Repr

/-- What is put behind the path of a rejected file. -/
def AttachError.suffix : AttachError → String
  | .attachLimit => "_ATTACHLIMIT"
  | .noConfig => "_NOCONFIG"
  | .noDeviceId => "_NODEVICEID"
  | .fileTooLarge => "_FILETOOLARGE"
  | .totalOverLimit => "_TOTALOVERLIMIT"
  | .underscoreRejected => "_UNDERSCOREREJECTED"
  | .noFileName => "_NOFILENAME"
  | .noFile => "_NOFILE"
  | .fileLengthLimit => "_FILELENGTHLIMIT"

/-- What comes of a request to attach a file: the name that it is uploaded with, which
begins with `v3_`, or an error. -/
inductive Attached where
  | accepted (rest : String)
  | rejected (rstrPath : String) (error : AttachError)
deriving DecidableEq, Repr

/-- The name that `AcceptAttach` pushes. -/
def Attached.strOutFileName : Attached → String
  | .accepted rest => "v3_" ++ rest
  | .rejected rstrPath error => rstrPath ++ error.suffix

/-- The constructors. -/
inductive Constructor where
  | plain
  | versioned (rstrVersion rstrEventId : String)
  | timed (rstrVersion rstrEventId : String) (dblTimestamp : ℚ)

/-- The event before any header is set. -/
def blank : IgniteEvent := ⟨.object [], [], .object [], []⟩

/-- The event that a constructor makes at the time and in the zone of the clock. -/
def Constructor.event (currentTimeMs : ℕ) (timeZoneOffsetMinutes : ℤ) : Constructor → IgniteEvent
  | .plain =>
    (blank.setField timestampTag (.uint currentTimeMs)).setField timezoneTag
      (.int timeZoneOffsetMinutes)
  | .versioned rstrVersion rstrEventId =>
    (((blank.setField eventIdTag (.string rstrEventId)).setField versionTag
      (.string rstrVersion)).setField timestampTag (.uint currentTimeMs)).setField timezoneTag
        (.int timeZoneOffsetMinutes)
  | .timed rstrVersion rstrEventId dblTimestamp =>
    (((blank.setField eventIdTag (.string rstrEventId)).setField versionTag
      (.string rstrVersion)).setField timestampTag (.real dblTimestamp)).setField timezoneTag
        (.int timeZoneOffsetMinutes)

/-- The setters. -/
inductive Setter where
  | setEventId (strId : String)
  | setVersion (rstrVersion : String)
  | setTimestamp (dblTimestamp : ℚ)
  | setTimezone (nTzoffset : ℤ)
  | addBizTransaction (rstrVal : String)
  | addMessageId (rstrVal : String)
  | addCorrelationId (rstrVal : String)
  | addDeviceId (rstrName rstrVal : String)
  | addField (rstrName : String) (value : JsonValue)
  | removeField (rstrFieldName : String)
  | addPiiField (rstrName : String) (value : JsonValue)
  | acceptAttach (attached : Attached)
  | removeAttachments

/-- The event after a setter. -/
def apply (event : IgniteEvent) : Setter → Option IgniteEvent
  | .setEventId strId => some (event.setField eventIdTag (.string strId))
  | .setVersion rstrVersion => some (event.setField versionTag (.string rstrVersion))
  | .setTimestamp dblTimestamp => some (event.setField timestampTag (.real dblTimestamp))
  | .setTimezone nTzoffset => some (event.setTimezone nTzoffset)
  | .addBizTransaction rstrVal => some (event.setField bizTrancId (.string rstrVal))
  | .addMessageId rstrVal => some (event.setField msgId (.string rstrVal))
  | .addCorrelationId rstrVal => some (event.setField corId (.string rstrVal))
  | .addDeviceId rstrName rstrVal => some (event.setField rstrName (.string rstrVal))
  | .addField rstrName value => event.addField rstrName value
  | .removeField rstrFieldName => event.removeField rstrFieldName
  | .addPiiField rstrName value => event.addPiiField rstrName value
  | .acceptAttach attached =>
    some { event with m_vectAttachment := event.m_vectAttachment ++ [attached.strOutFileName] }
  | .removeAttachments => some { event with m_vectAttachment := [] }

/-! ## Writing -/

/-- The part of a name in front of its first underscore. -/
def strFileName (name : String) : String := String.ofList (name.toList.takeWhile (· ≠ '_'))

/-- The rest of the name, from the underscore on. -/
def fileError (name : String) : String := String.ofList (name.toList.dropWhile (· ≠ '_'))

/-- `ExtractName`; `substr` throws at a name without an underscore. -/
def extractName (rstrExtractName : String) (event : IgniteEvent) : Option IgniteEvent :=
  if '_' ∈ rstrExtractName.toList then
    event.addField (strFileName rstrExtractName) (.string (fileError rstrExtractName))
  else none

/-- `strName.find("v3_") == 0`. -/
def isUploadName (strName : String) : Bool := "v3_".toList.isPrefixOf strName.toList

/-- The loop over the attachments behind the first, with the array so far. -/
def writeAttachments : List String → List JsonValue → IgniteEvent →
    Option (List JsonValue × IgniteEvent)
  | [], jsonFileArray, event => some (jsonFileArray, event)
  | strName :: names, jsonFileArray, event =>
    if isUploadName strName then
      writeAttachments names (jsonFileArray ++ [.string strName]) event
    else
      (extractName strName event).bind fun event => writeAttachments names jsonFileArray event

/-- The array of attachments, if there is one, and the event that is left. -/
def fileArray (event : IgniteEvent) : Option (Option JsonValue × IgniteEvent) :=
  match event.m_vectAttachment with
  | [] => some (none, event)
  | strName :: names =>
    (writeAttachments names [.string strName] event).map fun r => (some (.array r.1), r.2)

/-- Assignments to the members of an object, in order. -/
def assigned {ν : Type} : List (String × Option ν) → List (String × ν) → List (String × ν)
  | [], members => members
  | (_, none) :: rest, members => assigned rest members
  | (tag, some value) :: rest, members => assigned rest (Lib.setKey tag value members)

/-- What `EventToJson` assigns to its root; `none` where it skips a member. -/
def rootEntries (bBenchMode : Bool) (jsonFileArray : Option JsonValue) (event : IgniteEvent) :
    List (String × Option JsonValue) :=
  [(eventIdTag, some (event.field eventIdTag)),
   (versionTag, some (event.field versionTag)),
   (modeTag, if bBenchMode then some (.int 1) else none),
   (timestampTag, some (event.field timestampTag)),
   (fileAttachmentTag, jsonFileArray),
   (valueTag, some event.m_jsonValue),
   (piiTag, if event.m_jsonPiiFields.empty then none else some event.m_jsonPiiFields),
   (timezoneTag, some (event.field timezoneTag)),
   (bizTrancId, event.m_jsonEventFields.lookup bizTrancId),
   (msgId, event.m_jsonEventFields.lookup msgId),
   (corId, event.m_jsonEventFields.lookup corId)]

variable (dbl : DoubleText)

/-- `EventToJson`: the text that it appends, and the event afterwards. -/
def eventToJson (bBenchMode : Bool) (event : IgniteEvent) : Option (String × IgniteEvent) :=
  event.fileArray.map fun r =>
    (write dbl (.object (assigned (rootEntries bBenchMode r.1 r.2) [])), r.2)

/-! ## Reading -/

def asStringValue (value : JsonValue) : Option JsonValue :=
  (value.asString dbl.valueToString).map .string

def asUInt64Value (value : JsonValue) : Option JsonValue := value.asUInt64.map .uint

def asIntValue (value : JsonValue) : Option JsonValue := value.asInt.map .int

/-- `m_jsonEventFields[tag] = jsonRoot[tag].as…()`. -/
def readField (as : JsonValue → Option JsonValue) (jsonRoot : List (String × JsonValue))
    (tag : String) (event : IgniteEvent) : Option IgniteEvent :=
  (as ((jsonRoot.lookup tag).getD .null)).map fun value => event.setField tag value

/-- The same, where the root has the member. -/
def readMember (as : JsonValue → Option JsonValue) (jsonRoot : List (String × JsonValue))
    (tag : String) (event : IgniteEvent) : Option IgniteEvent :=
  if (jsonRoot.lookup tag).isSome then readField as jsonRoot tag event else some event

/-- The loop over the attachments of the root. -/
def readAttachments (jsonRoot : List (String × JsonValue)) (event : IgniteEvent) :
    Option IgniteEvent :=
  match jsonRoot.lookup fileAttachmentTag with
  | some (.array values) =>
    (values.mapM (JsonValue.asString dbl.valueToString)).map fun names =>
      { event with m_vectAttachment := event.m_vectAttachment ++ names }
  | _ => some event

/-- `m_jsonValue`, which is assigned in any case, and `m_jsonPiiFields`. -/
def readObjects (jsonRoot : List (String × JsonValue)) (event : IgniteEvent) : IgniteEvent :=
  { event with
    m_jsonValue := (jsonRoot.lookup valueTag).getD .null
    m_jsonPiiFields := (jsonRoot.lookup piiTag).getD event.m_jsonPiiFields }

/-- What `JsonToEvent` does with the members of the root. -/
def fromRoot (jsonRoot : List (String × JsonValue)) (event : IgniteEvent) :
    Option IgniteEvent := do
  let event ← readField (asStringValue dbl) jsonRoot versionTag event
  let event ← readField (asStringValue dbl) jsonRoot eventIdTag event
  let event ← readField asUInt64Value jsonRoot timestampTag event
  let event ← readMember asIntValue jsonRoot timezoneTag event
  let event ← readAttachments dbl jsonRoot event
  let event := readObjects jsonRoot event
  let event ← readMember (asStringValue dbl) jsonRoot bizTrancId event
  let event ← readMember (asStringValue dbl) jsonRoot corId event
  readMember (asStringValue dbl) jsonRoot msgId event

/-- `JsonToEvent` of a text that the reader accepts; what it leaves of another is not
modelled. -/
def jsonToEvent (rstrJsonEvent : String) (event : IgniteEvent) : Option IgniteEvent :=
  match parse dbl rstrJsonEvent with
  | .error _ => none
  | .ok jsonRoot => jsonRoot.objectMembers.bind fun members => fromRoot dbl members event

/-! ## Fields -/

theorem lookup_setField (tag : String) (value : JsonValue) (event : IgniteEvent) (k : String) :
    (event.setField tag value).m_jsonEventFields.lookup k =
      if k = tag then some value else event.m_jsonEventFields.lookup k :=
  Lib.lookup_setKey tag value event.m_jsonEventFields k

theorem addField_object {event : IgniteEvent} {members : List (String × JsonValue)}
    (h : event.m_jsonValue = .object members) (rstrName : String) (value : JsonValue) :
    event.addField rstrName value =
      some { event with m_jsonValue := .object (Lib.setKey rstrName value members) } := by
  unfold addField JsonValue.withMember
  rw [h]
  rfl

/-! ## Assignments -/

section

variable {ν : Type}

/-- The last assignment to a tag counts. -/
theorem lookup_assigned {entries : List (String × Option ν)}
    (hnodup : (entries.map Prod.fst).Nodup) (members : List (String × ν)) (tag : String) :
    (assigned entries members).lookup tag =
      ((entries.lookup tag).join).or (members.lookup tag) := by
  induction entries generalizing members with
  | nil => rfl
  | cons entry rest ih =>
    obtain ⟨tag', value⟩ := entry
    rw [List.map_cons, List.nodup_cons] at hnodup
    rw [Lib.lookup_cons_ite]
    have hrest := fun members => ih hnodup.2 members
    have hnone : tag = tag' → rest.lookup tag = none := by
      rintro rfl
      rw [Option.eq_none_iff_forall_ne_some]
      intro value hvalue
      exact hnodup.1 (Lib.mem_keys_of_lookup hvalue)
    cases value with
    | none =>
      rw [assigned, hrest]
      by_cases htag : tag = tag'
      · rw [if_pos htag, hnone htag]
        rfl
      · rw [if_neg htag]
    | some value =>
      rw [assigned, hrest, Lib.lookup_setKey]
      by_cases htag : tag = tag'
      · rw [if_pos htag, if_pos htag, hnone htag]
        rfl
      · rw [if_neg htag, if_neg htag]

/-- The members ascend. -/
theorem ascending_assigned (entries : List (String × Option ν)) {members : List (String × ν)}
    (h : Lib.Ascending members) : Lib.Ascending (assigned entries members) := by
  induction entries generalizing members with
  | nil => exact h
  | cons entry rest ih =>
    obtain ⟨tag, value⟩ := entry
    cases value with
    | none => exact ih h
    | some value => exact ih (Lib.ascending_setKey tag value h)

/-- Every member is one that was there or that is assigned. -/
theorem mem_assigned {entries : List (String × Option ν)} {members : List (String × ν)}
    {m : String × ν} (h : m ∈ assigned entries members) :
    m ∈ members ∨ (m.1, some m.2) ∈ entries := by
  induction entries generalizing members with
  | nil => exact Or.inl h
  | cons entry rest ih =>
    obtain ⟨tag, value⟩ := entry
    cases value with
    | none =>
      rcases ih h with h | h
      · exact Or.inl h
      · exact Or.inr (List.mem_cons_of_mem _ h)
    | some value =>
      rcases ih h with h | h
      · rcases Lib.mem_setKey h with rfl | h
        · exact Or.inr List.mem_cons_self
        · exact Or.inl h
      · exact Or.inr (List.mem_cons_of_mem _ h)

/-- The values may be mapped before or after. -/
theorem assigned_mapValues {μ : Type} (f : ν → μ) (entries : List (String × Option ν))
    (members : List (String × ν)) :
    (assigned entries members).map (fun m => (m.1, f m.2)) =
      assigned (entries.map fun e => (e.1, e.2.map f)) (members.map fun m => (m.1, f m.2)) := by
  induction entries generalizing members with
  | nil => rfl
  | cons entry rest ih =>
    obtain ⟨tag, value⟩ := entry
    cases value with
    | none => exact ih members
    | some value =>
      rw [assigned, ih, Lib.setKey_mapValues]
      rfl

end

end IgniteEvent

end DeviceClient
