import DeviceClient.Event.IgniteEvent

/-!
# Names of accepted attachments

An accepted attachment is stored under a name put together from the device id, the type
of the attachment, the id of the event, its timestamp, the number of the attachment and
the name of the file. `AcceptAttach` shortens a name that is too long in four stages: the
extension, the file name, the type and the id of the event. What is still too long is an
error.

A name is the list of its characters; an `int` holds every length.

* `outputFileName_cases`: what the stages leave.
* `namedRight_iff`: where the name is put together from prefixes of its parts. The third
  stage puts the device id in the place of the event's.
-/

namespace DeviceClient

namespace AttachmentName

open IgniteEvent

/-- `MAX_ATTACHMENT_FINAL_FILE_LEN`: three characters are left for `.gz`. -/
def maxAttachmentFinalFileLen : ℕ := 90 - 3

/-- `TRUNCATE_MIN_LEN`. -/
def truncateMinLen : ℕ := 16

/-- The parts of a name. By then `ValidateOutFileName` has rejected an underscore in the
type or the id of the event. -/
structure NameParts where
  m_strDeviceId : List Char
  rstrFileType : List Char
  strEventId : List Char
  strTimeConvert : List Char
  strAttachCountConvert : List Char
  strFileName : List Char
  strFileExtension : List Char
  typePlain : '_' ∉ rstrFileType
  eventPlain : '_' ∉ strEventId

/-! ## Composition -/

/-- `AddExtnToOutFileName`. -/
def addExtnToOutFileName (rstrFileExtension rstrOutputFileName : List Char) : List Char :=
  if rstrFileExtension = [] then rstrOutputFileName
  else rstrOutputFileName ++ '.' :: rstrFileExtension

/-- `"v3_" + … + "_" + …`, in front of the extension. -/
def baseName (deviceId fileType eventId timeConvert attachCount fileName : List Char) :
    List Char :=
  "v3_".toList ++ (deviceId ++ '_' :: (fileType ++ '_' :: (eventId ++ '_' ::
    (timeConvert ++ '_' :: (attachCount ++ '_' :: fileName)))))

/-! ## The stages -/

/-- `TruncateFileByExtn`: the name and the extension. -/
def truncateFileByExtn (rstrOutputFileName rstrFileExtension : List Char) :
    List Char × List Char :=
  if rstrOutputFileName.length > maxAttachmentFinalFileLen ∧ rstrFileExtension.length > 3 then
    (rstrOutputFileName.take (rstrOutputFileName.length - rstrFileExtension.length + 3),
      rstrFileExtension.take 3)
  else (rstrOutputFileName, rstrFileExtension)

/-- A part that is longer than `minLen`, shortened by `nOverBy`, but not below. -/
def shorten (minLen nOverBy : ℕ) (part : List Char) : List Char :=
  if part.length > minLen then part.take (max minLen (part.length - nOverBy)) else part

/-- `TruncateFileByFileName`: the name and the shortened file name. -/
def truncateFileByFileName (rstrOutputFileName rstrTruncFileName rstrFileExtension rstrDeviceId
    rstrFileType rstrEventId rstrTimeConvert attachCount : List Char) : List Char × List Char :=
  if rstrOutputFileName.length > maxAttachmentFinalFileLen then
    let nOverBy := rstrOutputFileName.length - maxAttachmentFinalFileLen
    let truncFileName := shorten (truncateMinLen - 1) nOverBy rstrTruncFileName
    (addExtnToOutFileName rstrFileExtension
      (baseName rstrDeviceId rstrFileType rstrEventId rstrTimeConvert attachCount truncFileName),
      truncFileName)
  else (rstrOutputFileName, rstrTruncFileName)

/-- `TruncateFileByFileType`, which is not given the id of the event. -/
def truncateFileByFileType (rstrOutputFileName rstrTruncFileType rstrTruncFileName
    rstrFileExtension rstrDeviceId rstrTimeConvert attachCount : List Char) :
    List Char × List Char :=
  if rstrOutputFileName.length > maxAttachmentFinalFileLen then
    let nOverBy := rstrOutputFileName.length - maxAttachmentFinalFileLen
    let truncFileType := shorten truncateMinLen nOverBy rstrTruncFileType
    (addExtnToOutFileName rstrFileExtension
      (baseName rstrDeviceId truncFileType rstrDeviceId rstrTimeConvert attachCount
        rstrTruncFileName), truncFileType)
  else (rstrOutputFileName, rstrTruncFileType)

/-- `TruncateFileByEventName`. -/
def truncateFileByEventName (m_strDeviceId rstrOutputFileName rstrTruncEventName
    rstrTruncFileName rstrFileExtension rstrTruncfileType rstrTimeConvert attachCount :
    List Char) : List Char × List Char :=
  if rstrOutputFileName.length > maxAttachmentFinalFileLen then
    let nOverBy := rstrOutputFileName.length - maxAttachmentFinalFileLen
    let truncEventName := shorten truncateMinLen nOverBy rstrTruncEventName
    (addExtnToOutFileName rstrFileExtension
      (baseName m_strDeviceId rstrTruncfileType truncEventName rstrTimeConvert attachCount
        rstrTruncFileName), truncEventName)
  else (rstrOutputFileName, rstrTruncEventName)

/-- The name that `AcceptAttach` passes to `FinalizeOutFileName`. -/
def outputFileName (p : NameParts) : List Char :=
  let byExtn := truncateFileByExtn
    (addExtnToOutFileName p.strFileExtension (baseName p.m_strDeviceId p.rstrFileType
      p.strEventId p.strTimeConvert p.strAttachCountConvert p.strFileName)) p.strFileExtension
  let byFileName := truncateFileByFileName byExtn.1 p.strFileName byExtn.2 p.m_strDeviceId
    p.rstrFileType p.strEventId p.strTimeConvert p.strAttachCountConvert
  let byFileType := truncateFileByFileType byFileName.1 p.rstrFileType byFileName.2 byExtn.2
    p.m_strDeviceId p.strTimeConvert p.strAttachCountConvert
  let byEventName := truncateFileByEventName p.m_strDeviceId byFileType.1 p.strEventId
    byFileName.2 byExtn.2 byFileType.2 p.strTimeConvert p.strAttachCountConvert
  byEventName.1

/-- The name that `FinalizeOutFileName` accepts, or its error. -/
def acceptedName (p : NameParts) : Except AttachError (List Char) :=
  if (outputFileName p).length ≤ maxAttachmentFinalFileLen then .ok (outputFileName p)
  else .error .fileLengthLimit

/-! ## What a name is to be -/

/-- A prefix that is everything or has at least `minLen` characters. -/
def CutTo (minLen : ℕ) (cut full : List Char) : Prop :=
  cut <+: full ∧ min minLen full.length ≤ cut.length

namespace NameParts

variable (p : NameParts)

/-- The name with these in the places of the type, the event's id, the file name and the
extension. -/
def nameWith (fileType eventId fileName fileExtension : List Char) : List Char :=
  addExtnToOutFileName fileExtension (baseName p.m_strDeviceId fileType eventId
    p.strTimeConvert p.strAttachCountConvert fileName)

/-- The name is put together from prefixes of its parts. -/
def Composed (name : List Char) : Prop :=
  ∃ fileType eventId fileName fileExtension,
    CutTo truncateMinLen fileType p.rstrFileType ∧ CutTo truncateMinLen eventId p.strEventId ∧
    CutTo (truncateMinLen - 1) fileName p.strFileName ∧ CutTo 3 fileExtension p.strFileExtension ∧
    name = p.nameWith fileType eventId fileName fileExtension

end NameParts

/-- An accepted name is put together from prefixes of its parts and short enough; where no
such name is short enough, there is an error. -/
structure NamedRight (p : NameParts) : Prop where
  composed : ∀ name, acceptedName p = .ok name → p.Composed name
  short : ∀ name, acceptedName p = .ok name → name.length ≤ maxAttachmentFinalFileLen
  reported : (∀ name, p.Composed name → maxAttachmentFinalFileLen < name.length) →
    acceptedName p = .error .fileLengthLimit

/-! ## Lengths -/

/-- What an extension adds to a name. -/
def extnLength (n : ℕ) : ℕ := if n = 0 then 0 else n + 1

/-- The length of a name with these lengths in the places of the type, the event's id, the
file name and the extension. -/
def NameParts.lengthWith (p : NameParts) (fileType eventId fileName fileExtension : ℕ) : ℕ :=
  p.m_strDeviceId.length + fileType + eventId + p.strTimeConvert.length +
    p.strAttachCountConvert.length + fileName + extnLength fileExtension + 8

theorem length_addExtnToOutFileName (rstrFileExtension rstrOutputFileName : List Char) :
    (addExtnToOutFileName rstrFileExtension rstrOutputFileName).length =
      rstrOutputFileName.length + extnLength rstrFileExtension.length := by
  unfold addExtnToOutFileName extnLength
  by_cases h : rstrFileExtension = []
  · rw [if_pos h, if_pos (by rw [h]; rfl)]
    rfl
  · rw [if_neg h, if_neg (by simpa using h), List.length_append, List.length_cons]

theorem length_nameWith (p : NameParts) (fileType eventId fileName fileExtension : List Char) :
    (p.nameWith fileType eventId fileName fileExtension).length =
      p.lengthWith fileType.length eventId.length fileName.length fileExtension.length := by
  have hprefix : "v3_".toList.length = 3 := rfl
  unfold NameParts.nameWith NameParts.lengthWith
  rw [length_addExtnToOutFileName]
  unfold baseName
  simp only [List.length_append, List.length_cons, hprefix]
  omega

theorem extnLength_mono {m n : ℕ} (h : m ≤ n) : extnLength m ≤ extnLength n := by
  unfold extnLength
  split <;> split <;> omega

/-! ## Prefixes -/

theorem cutTo_self (minLen : ℕ) (full : List Char) : CutTo minLen full full :=
  ⟨List.prefix_rfl, Nat.min_le_right _ _⟩

theorem cutTo_take {minLen n : ℕ} (h : minLen ≤ n) (full : List Char) :
    CutTo minLen (full.take n) full := by
  refine ⟨List.take_prefix n full, ?_⟩
  rw [List.length_take]
  omega

theorem length_shorten (minLen nOverBy : ℕ) (part : List Char) :
    (shorten minLen nOverBy part).length = max (min minLen part.length) (part.length - nOverBy) := by
  unfold shorten
  split
  · rw [List.length_take]
    omega
  · omega

theorem cutTo_shorten (minLen nOverBy : ℕ) (part : List Char) :
    CutTo minLen (shorten minLen nOverBy part) part := by
  unfold shorten
  split
  · exact cutTo_take (Nat.le_max_left _ _) part
  · exact cutTo_self minLen part

/-- Where that is not enough, a part is as short as it gets. -/
theorem shorten_eq_take {minLen nOverBy : ℕ} {part : List Char}
    (h : part.length - nOverBy ≤ minLen) : shorten minLen nOverBy part = part.take minLen := by
  unfold shorten
  split
  · rw [Nat.max_eq_left h]
  · rw [List.take_of_length_le (by omega)]

/-! ## The stages in turn -/

section

variable (p : NameParts)

/-- The extension is cut off the end of the name. -/
theorem truncateFileByExtn_eq :
    truncateFileByExtn (p.nameWith p.rstrFileType p.strEventId p.strFileName p.strFileExtension)
        p.strFileExtension =
      if (p.nameWith p.rstrFileType p.strEventId p.strFileName p.strFileExtension).length >
          maxAttachmentFinalFileLen then
        (p.nameWith p.rstrFileType p.strEventId p.strFileName (p.strFileExtension.take 3),
          p.strFileExtension.take 3)
      else (p.nameWith p.rstrFileType p.strEventId p.strFileName p.strFileExtension,
        p.strFileExtension) := by
  unfold truncateFileByExtn
  by_cases hlong : (p.nameWith p.rstrFileType p.strEventId p.strFileName
      p.strFileExtension).length > maxAttachmentFinalFileLen
  · rw [if_pos hlong]
    by_cases hext : p.strFileExtension.length > 3
    · rw [if_pos ⟨hlong, hext⟩]
      have hne : p.strFileExtension ≠ [] := by
        rintro hnil
        rw [hnil] at hext
        cases hext
      have hne' : p.strFileExtension.take 3 ≠ [] := by
        intro hnil
        rw [List.take_eq_nil_iff] at hnil
        rcases hnil with h | h
        · cases h
        · exact hne h
      -- the last characters of the name are those of the extension
      have htake : ∀ name : List Char,
          (name ++ '.' :: p.strFileExtension).take
              ((name ++ '.' :: p.strFileExtension).length - p.strFileExtension.length + 3) =
            name ++ '.' :: p.strFileExtension.take 3 := by
        intro name
        rw [List.length_append, List.length_cons,
          show name.length + (p.strFileExtension.length + 1) - p.strFileExtension.length + 3 =
            name.length + 4 by omega, List.take_length_add_append, List.take_succ_cons]
      unfold NameParts.nameWith addExtnToOutFileName
      rw [if_neg hne, if_neg hne', htake]
    · rw [if_neg fun h => hext h.2, List.take_of_length_le (by omega)]
  · rw [if_neg fun h => hlong h.1, if_neg hlong]

/-- By how much the name is too long with the file name and the extension as short as they
get. -/
def NameParts.overBy : ℕ :=
  p.lengthWith p.rstrFileType.length p.strEventId.length
      (min (truncateMinLen - 1) p.strFileName.length) (min 3 p.strFileExtension.length) -
    maxAttachmentFinalFileLen

/-- The length of the name that the third stage builds, with the device id in the place of
the event's. -/
def NameParts.deviceLength : ℕ :=
  p.lengthWith (max (min truncateMinLen p.rstrFileType.length) (p.rstrFileType.length - p.overBy))
    p.m_strDeviceId.length (min (truncateMinLen - 1) p.strFileName.length)
    (min 3 p.strFileExtension.length)

/-- No prefixes of the file name and the extension make the name shorter. -/
theorem overBy_le {fileName fileExtension : List Char}
    (hname : CutTo (truncateMinLen - 1) fileName p.strFileName)
    (hextn : CutTo 3 fileExtension p.strFileExtension) :
    p.overBy ≤ (p.nameWith p.rstrFileType p.strEventId fileName fileExtension).length -
      maxAttachmentFinalFileLen := by
  have hmono := extnLength_mono hextn.2
  have hmin := hname.2
  have hlength := length_nameWith p p.rstrFileType p.strEventId fileName fileExtension
  unfold NameParts.lengthWith at hlength
  unfold NameParts.overBy NameParts.lengthWith
  omega

theorem overBy_eq_zero {fileName fileExtension : List Char}
    (hname : CutTo (truncateMinLen - 1) fileName p.strFileName)
    (hextn : CutTo 3 fileExtension p.strFileExtension)
    (hshort : (p.nameWith p.rstrFileType p.strEventId fileName fileExtension).length ≤
      maxAttachmentFinalFileLen) : p.overBy = 0 := by
  have hle := overBy_le p hname hextn
  rw [Nat.sub_eq_zero_of_le hshort] at hle
  exact Nat.le_zero.1 hle

/-- A file name that is cut by what is too long makes the name short enough, or is as short as
it gets. -/
theorem shorten_fileName {nOverBy : ℕ}
    (hover : (p.nameWith p.rstrFileType p.strEventId p.strFileName
      (p.strFileExtension.take 3)).length - maxAttachmentFinalFileLen = nOverBy) :
    (p.overBy = 0 ∧ (p.nameWith p.rstrFileType p.strEventId
        (shorten (truncateMinLen - 1) nOverBy p.strFileName) (p.strFileExtension.take 3)).length ≤
          maxAttachmentFinalFileLen) ∨
      (0 < p.overBy ∧ shorten (truncateMinLen - 1) nOverBy p.strFileName =
        p.strFileName.take (truncateMinLen - 1)) := by
  have hlength := length_nameWith p p.rstrFileType p.strEventId p.strFileName
    (p.strFileExtension.take 3)
  have hcut := length_nameWith p p.rstrFileType p.strEventId
    (shorten (truncateMinLen - 1) nOverBy p.strFileName) (p.strFileExtension.take 3)
  rw [List.length_take] at hlength
  rw [length_shorten, List.length_take] at hcut
  unfold NameParts.lengthWith at hlength hcut
  by_cases hzero : p.overBy = 0
  · refine Or.inl ⟨hzero, ?_⟩
    unfold NameParts.overBy NameParts.lengthWith at hzero
    omega
  · refine Or.inr ⟨Nat.pos_of_ne_zero hzero, shorten_eq_take ?_⟩
    unfold NameParts.overBy NameParts.lengthWith at hzero
    omega

/-- After the second stage the name is short enough, or the file name and the extension are
as short as they get. -/
theorem fileName_stage {byExtn byFileName : List Char × List Char}
    (hbyExtn : truncateFileByExtn
      (p.nameWith p.rstrFileType p.strEventId p.strFileName p.strFileExtension)
      p.strFileExtension = byExtn)
    (hbyFileName : truncateFileByFileName byExtn.1 p.strFileName byExtn.2 p.m_strDeviceId
      p.rstrFileType p.strEventId p.strTimeConvert p.strAttachCountConvert = byFileName) :
    (p.overBy = 0 ∧ byFileName.1.length ≤ maxAttachmentFinalFileLen ∧
      p.Composed byFileName.1) ∨
    (0 < p.overBy ∧ byExtn.2 = p.strFileExtension.take 3 ∧
      byFileName = (p.nameWith p.rstrFileType p.strEventId
        (p.strFileName.take (truncateMinLen - 1)) (p.strFileExtension.take 3),
        p.strFileName.take (truncateMinLen - 1))) := by
  have htype := cutTo_self truncateMinLen p.rstrFileType
  have hevent := cutTo_self truncateMinLen p.strEventId
  have hname := cutTo_self (truncateMinLen - 1) p.strFileName
  have hextn := cutTo_self 3 p.strFileExtension
  have hcut : CutTo 3 (p.strFileExtension.take 3) p.strFileExtension :=
    cutTo_take (Nat.le_refl 3) _
  rw [truncateFileByExtn_eq] at hbyExtn
  unfold truncateFileByFileName at hbyFileName
  by_cases hwhole : (p.nameWith p.rstrFileType p.strEventId p.strFileName
      p.strFileExtension).length > maxAttachmentFinalFileLen
  · rw [if_pos hwhole] at hbyExtn
    subst hbyExtn
    dsimp only at hbyFileName
    by_cases hlong : (p.nameWith p.rstrFileType p.strEventId p.strFileName
        (p.strFileExtension.take 3)).length > maxAttachmentFinalFileLen
    · rw [if_pos hlong] at hbyFileName
      subst hbyFileName
      rcases shorten_fileName p rfl with ⟨hover, hshort⟩ | ⟨hover, htake⟩
      · exact Or.inl ⟨hover, hshort, _, _, _, _, htype, hevent, cutTo_shorten _ _ _, hcut, rfl⟩
      · refine Or.inr ⟨hover, rfl, ?_⟩
        rw [htake]
        rfl
    · rw [if_neg hlong] at hbyFileName
      subst hbyFileName
      have hshort := Nat.le_of_not_lt hlong
      exact Or.inl ⟨overBy_eq_zero p hname hcut hshort, hshort, _, _, _, _, htype, hevent, hname,
        hcut, rfl⟩
  · rw [if_neg hwhole] at hbyExtn
    subst hbyExtn
    rw [if_neg hwhole] at hbyFileName
    subst hbyFileName
    have hshort := Nat.le_of_not_lt hwhole
    exact Or.inl ⟨overBy_eq_zero p hname hextn hshort, hshort, _, _, _, _, htype, hevent, hname,
      hextn, rfl⟩

/-- The name that the third stage builds. -/
def NameParts.deviceName : List Char :=
  p.nameWith (shorten truncateMinLen p.overBy p.rstrFileType) p.m_strDeviceId
    (p.strFileName.take (truncateMinLen - 1)) (p.strFileExtension.take 3)

theorem length_deviceName : p.deviceName.length = p.deviceLength := by
  unfold NameParts.deviceName NameParts.deviceLength
  rw [length_nameWith, length_shorten, List.length_take, List.length_take]

/-- A name that is too long by `overBy` still is what the third stage builds. -/
theorem fileType_stage (hover : 0 < p.overBy) :
    truncateFileByFileType (p.nameWith p.rstrFileType p.strEventId
        (p.strFileName.take (truncateMinLen - 1)) (p.strFileExtension.take 3)) p.rstrFileType
        (p.strFileName.take (truncateMinLen - 1)) (p.strFileExtension.take 3) p.m_strDeviceId
        p.strTimeConvert p.strAttachCountConvert =
      (p.deviceName, shorten truncateMinLen p.overBy p.rstrFileType) := by
  have hlength := length_nameWith p p.rstrFileType p.strEventId
    (p.strFileName.take (truncateMinLen - 1)) (p.strFileExtension.take 3)
  rw [List.length_take, List.length_take] at hlength
  have hoverBy : (p.nameWith p.rstrFileType p.strEventId
      (p.strFileName.take (truncateMinLen - 1)) (p.strFileExtension.take 3)).length -
      maxAttachmentFinalFileLen = p.overBy := by
    rw [hlength]
    rfl
  unfold truncateFileByFileType
  rw [if_pos (by omega), hoverBy]
  rfl

/-- What the stages leave: the name of the second stage, that of the third, which has the
device id in the place of the event's, or that of the fourth. -/
theorem outputFileName_cases :
    (p.overBy = 0 ∧ (outputFileName p).length ≤ maxAttachmentFinalFileLen ∧
      p.Composed (outputFileName p)) ∨
    (0 < p.overBy ∧ p.deviceLength ≤ maxAttachmentFinalFileLen ∧
      outputFileName p = p.deviceName) ∨
    (0 < p.overBy ∧ maxAttachmentFinalFileLen < p.deviceLength ∧
      p.Composed (outputFileName p)) := by
  obtain ⟨byExtn, hbyExtn⟩ : ∃ r, truncateFileByExtn
    (p.nameWith p.rstrFileType p.strEventId p.strFileName p.strFileExtension)
    p.strFileExtension = r := ⟨_, rfl⟩
  obtain ⟨byFileName, hbyFileName⟩ : ∃ r, truncateFileByFileName byExtn.1 p.strFileName byExtn.2
    p.m_strDeviceId p.rstrFileType p.strEventId p.strTimeConvert p.strAttachCountConvert = r :=
    ⟨_, rfl⟩
  have hout : outputFileName p = (truncateFileByEventName p.m_strDeviceId
      (truncateFileByFileType byFileName.1 p.rstrFileType byFileName.2 byExtn.2 p.m_strDeviceId
        p.strTimeConvert p.strAttachCountConvert).1 p.strEventId byFileName.2 byExtn.2
      (truncateFileByFileType byFileName.1 p.rstrFileType byFileName.2 byExtn.2 p.m_strDeviceId
        p.strTimeConvert p.strAttachCountConvert).2 p.strTimeConvert p.strAttachCountConvert).1 := by
    subst hbyFileName
    subst hbyExtn
    rfl
  rcases fileName_stage p hbyExtn hbyFileName with ⟨hover, hshort, hcomposed⟩ | ⟨hover, hextn, hname⟩
  · left
    have hstay : outputFileName p = byFileName.1 := by
      rw [hout]
      unfold truncateFileByFileType
      rw [if_neg (Nat.not_lt.2 hshort)]
      unfold truncateFileByEventName
      rw [if_neg (Nat.not_lt.2 hshort)]
    rw [hstay]
    exact ⟨hover, hshort, hcomposed⟩
  · right
    rw [hname, hextn, fileType_stage p hover] at hout
    unfold truncateFileByEventName at hout
    dsimp only at hout
    rw [length_deviceName] at hout
    by_cases hdevice : p.deviceLength > maxAttachmentFinalFileLen
    · rw [if_pos hdevice] at hout
      exact Or.inr ⟨hover, hdevice, _, _, _, _, cutTo_shorten _ _ _, cutTo_shorten _ _ _,
        cutTo_take (Nat.le_refl _) _, cutTo_take (Nat.le_refl _) _, hout⟩
    · rw [if_neg hdevice] at hout
      exact Or.inl ⟨hover, Nat.le_of_not_lt hdevice, hout⟩

end

/-! ## Where the name is right -/

/-- What stands behind the event's id in a name. -/
def NameParts.behindEvent (p : NameParts) (fileName fileExtension : List Char) : List Char :=
  p.strTimeConvert ++ '_' :: (p.strAttachCountConvert ++ '_' ::
    addExtnToOutFileName fileExtension fileName)

/-- The device id, with what stands behind the event's id in the name of the third stage,
reads as a prefix of the event's id with what is to stand behind it. -/
def NameParts.DeviceReadsAsEvent (p : NameParts) : Prop :=
  ∃ eventId fileName fileExtension,
    CutTo truncateMinLen eventId p.strEventId ∧
    CutTo (truncateMinLen - 1) fileName p.strFileName ∧ CutTo 3 fileExtension p.strFileExtension ∧
    p.m_strDeviceId ++ '_' :: p.behindEvent (p.strFileName.take (truncateMinLen - 1))
        (p.strFileExtension.take 3) =
      eventId ++ '_' :: p.behindEvent fileName fileExtension

/-- What stands in front of the first separator is known. -/
theorem append_separator_inj {a b c d : List Char} (ha : '_' ∉ a) (hb : '_' ∉ b) :
    a ++ '_' :: c = b ++ '_' :: d ↔ a = b ∧ c = d := by
  constructor
  · intro h
    induction a generalizing b with
    | nil =>
      cases b with
      | nil => exact ⟨rfl, List.tail_eq_of_cons_eq h⟩
      | cons x b =>
        rw [List.nil_append, List.cons_append, List.cons.injEq] at h
        exact absurd (h.1 ▸ List.mem_cons_self) hb
    | cons y a ih =>
      cases b with
      | nil =>
        rw [List.nil_append, List.cons_append, List.cons.injEq] at h
        exact absurd (h.1 ▸ List.mem_cons_self) ha
      | cons x b =>
        rw [List.cons_append, List.cons_append, List.cons.injEq] at h
        obtain ⟨hab, hcd⟩ := ih (fun hm => ha (List.mem_cons_of_mem _ hm))
          (fun hm => hb (List.mem_cons_of_mem _ hm)) h.2
        exact ⟨by rw [h.1, hab], hcd⟩
  · rintro ⟨rfl, rfl⟩
    rfl

theorem nameWith_eq (p : NameParts) (fileType eventId fileName fileExtension : List Char) :
    p.nameWith fileType eventId fileName fileExtension =
      "v3_".toList ++ (p.m_strDeviceId ++ '_' :: (fileType ++ '_' ::
        (eventId ++ '_' :: p.behindEvent fileName fileExtension))) := by
  unfold NameParts.nameWith NameParts.behindEvent addExtnToOutFileName baseName
  split <;> simp

/-- The name of the third stage is put together from prefixes only by accident. -/
theorem composed_deviceName_iff (p : NameParts) :
    p.Composed p.deviceName ↔ p.DeviceReadsAsEvent := by
  have htypeCut := cutTo_shorten truncateMinLen p.overBy p.rstrFileType
  have htypePlain : '_' ∉ shorten truncateMinLen p.overBy p.rstrFileType :=
    fun h => p.typePlain (htypeCut.1.subset h)
  unfold NameParts.Composed NameParts.DeviceReadsAsEvent NameParts.deviceName
  simp only [nameWith_eq, List.append_cancel_left_eq, List.cons.injEq, true_and]
  constructor
  · rintro ⟨fileType, eventId, fileName, fileExtension, htype, hevent, hfile, hextn, hname⟩
    have hplain : '_' ∉ fileType := fun h => p.typePlain (htype.1.subset h)
    exact ⟨eventId, fileName, fileExtension, hevent, hfile, hextn,
      ((append_separator_inj htypePlain hplain).1 hname).2⟩
  · rintro ⟨eventId, fileName, fileExtension, hevent, hfile, hextn, hname⟩
    exact ⟨_, eventId, fileName, fileExtension, htypeCut, hevent, hfile, hextn, by rw [hname]⟩

/-- A device id without a separator would have to be such a prefix itself. -/
theorem deviceReadsAsEvent_iff_of_plain {p : NameParts} (h : '_' ∉ p.m_strDeviceId) :
    p.DeviceReadsAsEvent ↔ CutTo truncateMinLen p.m_strDeviceId p.strEventId := by
  constructor
  · rintro ⟨eventId, fileName, fileExtension, hevent, -, -, heq⟩
    have hplain : '_' ∉ eventId := fun hm => p.eventPlain (hevent.1.subset hm)
    rw [((append_separator_inj h hplain).1 heq).1]
    exact hevent
  · intro hevent
    exact ⟨_, _, _, hevent, cutTo_take (Nat.le_refl _) _, cutTo_take (Nat.le_refl _) _, rfl⟩

/-- A name is right iff the second stage leaves it short enough, or the third leaves it too
long, so that the fourth builds it with the id of the event, or the device id happens to read
as that. -/
theorem namedRight_iff (p : NameParts) :
    NamedRight p ↔ p.overBy = 0 ∨ maxAttachmentFinalFileLen < p.deviceLength ∨
      p.DeviceReadsAsEvent := by
  constructor
  · intro h
    rcases outputFileName_cases p with ⟨hover, -, -⟩ | ⟨-, hdevice, hout⟩ | ⟨-, hdevice, -⟩
    · exact Or.inl hover
    · right
      right
      rw [← composed_deviceName_iff, ← hout]
      refine h.composed _ ?_
      unfold acceptedName
      rw [if_pos]
      rw [hout, length_deviceName]
      exact hdevice
    · exact Or.inr (Or.inl hdevice)
  · intro h
    have hcomposed : p.Composed (outputFileName p) := by
      rcases outputFileName_cases p with ⟨-, -, hout⟩ | ⟨hover, hdevice, hout⟩ | ⟨-, -, hout⟩
      · exact hout
      · rw [hout, composed_deviceName_iff]
        rcases h with h | h | h
        · omega
        · omega
        · exact h
      · exact hout
    have haccepted : ∀ name, acceptedName p = .ok name →
        name = outputFileName p ∧ name.length ≤ maxAttachmentFinalFileLen := by
      intro name hname
      unfold acceptedName at hname
      split at hname
      · rename_i hshort
        cases hname
        exact ⟨rfl, hshort⟩
      · cases hname
    refine ⟨fun name hname => ?_, fun name hname => (haccepted name hname).2, fun hlong => ?_⟩
    · rw [(haccepted name hname).1]
      exact hcomposed
    · unfold acceptedName
      rw [if_neg (Nat.not_le.2 (hlong _ hcomposed))]

/-- A video of a crash, whose name is six characters too long when the file name is as short
as it gets. -/
def crashVideo : NameParts where
  m_strDeviceId := "HCP1234567890".toList
  rstrFileType := "CrashVideo".toList
  strEventId := "VehicleCrashDetectedNotification".toList
  strTimeConvert := "1700000000000".toList
  strAttachCountConvert := "0".toList
  strFileName := "front_camera".toList
  strFileExtension := "mp4".toList
  typePlain := by decide
  eventPlain := by decide

/-- It is accepted without the id of its event. -/
theorem not_namedRight_crashVideo : ¬ NamedRight crashVideo := by
  intro h
  have hout : outputFileName crashVideo = crashVideo.deviceName := by decide +kernel
  have hshort : crashVideo.deviceName.length ≤ maxAttachmentFinalFileLen := by decide +kernel
  have hcomposed := h.composed crashVideo.deviceName (by
    unfold acceptedName
    rw [hout, if_pos hshort])
  rw [composed_deviceName_iff, deviceReadsAsEvent_iff_of_plain (by decide)] at hcomposed
  exact absurd hcomposed.1 (by decide)

end AttachmentName

end DeviceClient
