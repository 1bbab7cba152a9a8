import DeviceClient.Event.AttachmentName
import DeviceClient.Util.FileOperations

/-!
# Accepting an attachment

`AcceptAttach` checks a file, compresses it if asked to, copies it into the directory of
the attachments under the name of `outputFileName` and deletes the source if the caller
and the configuration say so. `FinalizeOutFileName` is given the path of the compressed
file where it takes the setting, and the setting where it takes the path.

* `acceptAttach_ok`: what an accepted attachment leaves.
* `acceptedRight_iff`: where that is the content of the source.
-/

namespace DeviceClient

namespace AcceptAttach

open IgniteEvent AttachmentName FileUtils

/-! ## Paths -/

/-- The characters behind the last `c`. -/
def afterLast (c : Char) (chars : List Char) : List Char :=
  (chars.reverse.takeWhile (· ≠ c)).reverse

/-- The characters in front of the last `c`. -/
def beforeLast (c : Char) (chars : List Char) : List Char :=
  (chars.reverse.dropWhile (· ≠ c)).tail.reverse

/-- `GetFileNameAndExtension`: the name and the extension, both empty without a slash. The
last dot of the path may stand in front of the last slash; the name is everything behind the
slash then. -/
def getFileNameAndExtension (rstrPath : List Char) : List Char × List Char :=
  if '/' ∈ rstrPath then
    let base := afterLast '/' rstrPath
    if '.' ∈ rstrPath then
      (if '.' ∈ base then beforeLast '.' base else base, afterLast '.' rstrPath)
    else (base, [])
  else ([], [])

/-- `SetupFileAttachmentPath`, which makes the directory if there is none. -/
def setupFileAttachmentPath (rstrAttachTempPath : String) : String :=
  if rstrAttachTempPath = "" then "/tmp" else rstrAttachTempPath

/-- `SetupCompressedFilePath`. -/
def setupCompressedFilePath (rstrAttachTempPath : String)
    (rstrFileName rstrFileExtension : List Char) : String :=
  if rstrFileExtension ≠ [] then
    rstrAttachTempPath ++ "/" ++ String.ofList rstrFileName ++ "." ++
      String.ofList rstrFileExtension ++ ".gz"
  else rstrAttachTempPath ++ "/" ++ String.ofList rstrFileName ++ ".gz"

/-! ## The call -/

/-- What the configuration answers; the limits are what `atoi` makes of the texts. -/
structure AttachConfig where
  fileAttachmentPath : String
  fileAttachmentTempPath : String
  fileSizeLimit : ℤ
  totalSizeLimit : ℤ
  deleteSrcAttachmentFileAfterAccept : String
  deviceId : String

/-- What the event knows. -/
structure AttachEvent where
  strEventId : String
  strTimeConvert : String
  m_nAttachmentCount : ℕ
  m_vectAttachment : List String
  m_strFileAttachmentPath : String

structure AttachCall where
  rstrFileType : String
  rstrPath : String
  bCompressFile : Bool
  bDeleteAttachment : Bool

/-- How the operations on files go. -/
structure AttachFaults where
  copy : CopyFaults
  compress : CompressFaults
  unremovable : String → Bool

/-- A call's error code, `none` for `ATTACHMENT_OK`, and what it leaves. -/
structure AttachOutcome where
  nErrorCode : Option AttachError
  event : AttachEvent
  disk : Disk

variable (gzip : Content → Content) (config : AttachConfig) (faults : AttachFaults)

/-! ## Steps -/

/-- What compressing leaves. -/
structure Prepared where
  bIsCompressed : Bool
  nNewAttachSize : ℤ
  disk : Disk

/-- `CompressFile`: a file that gets longer is not compressed. -/
def compressFile (rbCompressFile : Bool) (rstrPath strCompressedPath : String) (disk : Disk) :
    Prepared :=
  if rbCompressFile then
    let r := compress gzip faults.unremovable faults.compress rstrPath strCompressedPath disk
    if r.1 then
      if getSize strCompressedPath r.2 > getSize rstrPath r.2 then
        ⟨false, getSize rstrPath r.2, remove faults.unremovable strCompressedPath r.2⟩
      else ⟨true, getSize strCompressedPath r.2, r.2⟩
    else ⟨false, getSize rstrPath r.2, r.2⟩
  else ⟨false, getSize rstrPath disk, disk⟩

/-- `GetExistingAttachmentSize`. -/
def getExistingAttachmentSize (rnstrFileAttachmentPath : String) (disk : Disk) : ℤ :=
  (listFiles rnstrFileAttachmentPath disk).foldl
    (fun n name => Lib.toInt32 (n + getSize (rnstrFileAttachmentPath ++ "/" ++ name) disk)) 0

/-- `ValidateOutFileName`: the first reason to reject the file. -/
def validateOutFileName (event : AttachEvent) (rnNewAttachSize rnExistingAttachSize : ℤ)
    (rstrFileType : String) : Option AttachError :=
  if event.m_nAttachmentCount > 99 then some .attachLimit
  else if event.m_strFileAttachmentPath = "" then some .noConfig
  else if config.deviceId = "" then some .noDeviceId
  else if rnNewAttachSize > config.fileSizeLimit then some .fileTooLarge
  else if Lib.toInt32 (rnNewAttachSize + rnExistingAttachSize) > config.totalSizeLimit then
    some .totalOverLimit
  else if '_' ∈ rstrFileType.toList ∨ '_' ∈ event.strEventId.toList then some .underscoreRejected
  else none

theorem plain_of_validateOutFileName {event : AttachEvent} {n m : ℤ} {rstrFileType : String}
    (h : validateOutFileName config event n m rstrFileType = none) :
    '_' ∉ rstrFileType.toList ∧ '_' ∉ event.strEventId.toList := by
  unfold validateOutFileName at h
  split_ifs at h with h₁ h₂ h₃ h₄ h₅ h₆
  exact not_or.1 h₆

/-- What `FinalizeOutFileName` leaves. -/
structure Finalized where
  nErrorCode : Option AttachError
  rstrFinalOutFileName : String
  m_nAttachmentCount : ℕ
  disk : Disk

/-- `FinalizeOutFileName`. The result of the copy only decides whether the source is
deleted. -/
def finalizeOutFileName (rstrOutputFileName : List Char) (rstrFinalOutFileName : String)
    (rbIsCompressed : Bool)
    (rstrCfgDeleteAttachment rstrCompressedPath rstrFileAttachmentPath : String)
    (rbDeleteAttachment : Bool) (rstrPath : String) (m_nAttachmentCount : ℕ) (disk : Disk) :
    Finalized :=
  if rstrOutputFileName.length ≤ maxAttachmentFinalFileLen then
    let name := String.ofList rstrOutputFileName ++ if rbIsCompressed then ".gz" else ""
    let r := copy faults.copy (if rbIsCompressed then rstrCompressedPath else rstrPath)
      (rstrFileAttachmentPath ++ "/" ++ name) disk
    ⟨none, name, m_nAttachmentCount + 1,
      if rstrCfgDeleteAttachment = "yes" ∧ rbDeleteAttachment = true ∧ r.1 = 0 then
        remove faults.unremovable rstrPath r.2
      else r.2⟩
  else ⟨some .fileLengthLimit, rstrFinalOutFileName ++ "_FILELENGTHLIMIT", m_nAttachmentCount, disk⟩

/-- The directory of the attachments, which the event keeps once it is configured. -/
def attachDir (event : AttachEvent) : String :=
  if event.m_strFileAttachmentPath = "" then config.fileAttachmentPath
  else event.m_strFileAttachmentPath

/-- Where the file is compressed to. -/
def AttachConfig.compressedPath (call : AttachCall) : String :=
  setupCompressedFilePath (setupFileAttachmentPath config.fileAttachmentTempPath)
    (getFileNameAndExtension call.rstrPath.toList).1 (getFileNameAndExtension call.rstrPath.toList).2

/-- The parts of the name of a file that is not rejected. -/
def nameParts (event : AttachEvent) (call : AttachCall)
    (h : '_' ∉ call.rstrFileType.toList ∧ '_' ∉ event.strEventId.toList) : NameParts where
  m_strDeviceId := config.deviceId.toList
  rstrFileType := call.rstrFileType.toList
  strEventId := event.strEventId.toList
  strTimeConvert := event.strTimeConvert.toList
  strAttachCountConvert := (toString event.m_nAttachmentCount).toList
  strFileName := (getFileNameAndExtension call.rstrPath.toList).1
  strFileExtension := (getFileNameAndExtension call.rstrPath.toList).2
  typePlain := h.1
  eventPlain := h.2

/-- The event with one more name among its attachments. -/
def AttachEvent.push (event : AttachEvent) (name : String) : AttachEvent :=
  { event with m_vectAttachment := event.m_vectAttachment ++ [name] }

/-- What compressing leaves for the call. -/
def prepared (call : AttachCall) (disk : Disk) : Prepared :=
  compressFile gzip faults call.bCompressFile call.rstrPath (config.compressedPath call) disk

/-- The compressed file is deleted at the end, if there is one. -/
def removeCompressed (call : AttachCall) (bIsCompressed : Bool) (disk : Disk) : Disk :=
  if bIsCompressed then remove faults.unremovable (config.compressedPath call) disk else disk

/-- The call of `FinalizeOutFileName`, with the two texts in the order of that call. -/
def finalized (call : AttachCall) (event : AttachEvent)
    (h : '_' ∉ call.rstrFileType.toList ∧ '_' ∉ event.strEventId.toList) (prepared : Prepared) :
    Finalized :=
  finalizeOutFileName faults (outputFileName (nameParts config event call h)) call.rstrPath
    prepared.bIsCompressed (config.compressedPath call) config.deleteSrcAttachmentFileAfterAccept
    event.m_strFileAttachmentPath call.bDeleteAttachment call.rstrPath event.m_nAttachmentCount
    prepared.disk

/-- `AcceptAttach` of a file that is there, from the compression on. -/
def acceptFile (call : AttachCall) (event : AttachEvent) (prepared : Prepared) : AttachOutcome :=
  match h : validateOutFileName config event prepared.nNewAttachSize
      (getExistingAttachmentSize event.m_strFileAttachmentPath prepared.disk)
      call.rstrFileType with
  | some e =>
    ⟨some e, event.push (call.rstrPath ++ e.suffix),
      removeCompressed config faults call prepared.bIsCompressed prepared.disk⟩
  | none =>
    let r := finalized config faults call event (plain_of_validateOutFileName config h) prepared
    ⟨r.nErrorCode,
      { event.push r.rstrFinalOutFileName with m_nAttachmentCount := r.m_nAttachmentCount },
      removeCompressed config faults call prepared.bIsCompressed r.disk⟩

/-- `AcceptAttach`. -/
def acceptAttach (call : AttachCall) (event : AttachEvent) (disk : Disk) : AttachOutcome :=
  if fileExists call.rstrPath disk then
    let event := { event with m_strFileAttachmentPath := attachDir config event }
    -- returns without a name for the file
    if event.m_strFileAttachmentPath = "" then ⟨some .noConfig, event, disk⟩
    else if (getFileNameAndExtension call.rstrPath.toList).1 = [] then
      ⟨some .noFileName, event.push (call.rstrPath ++ AttachError.noFileName.suffix), disk⟩
    else acceptFile config faults call event (prepared gzip config faults call disk)
  else ⟨some .noFile, event.push (call.rstrPath ++ AttachError.noFile.suffix), disk⟩

/-! ## Paths, proved -/

theorem afterLast_append {c : Char} {b : List Char} (hb : c ∉ b) (a : List Char) :
    afterLast c (a ++ c :: b) = b := by
  unfold afterLast
  have hall : ∀ x ∈ b.reverse, decide (x ≠ c) = true := by
    intro x hx
    have hne : x ≠ c := fun h => hb (h ▸ List.mem_reverse.1 hx)
    simpa using hne
  rw [List.reverse_append, List.reverse_cons, List.append_assoc,
    List.takeWhile_append_of_pos hall, List.singleton_append,
    List.takeWhile_cons_of_neg (by simp), List.append_nil, List.reverse_reverse]

theorem beforeLast_append {c : Char} {b : List Char} (hb : c ∉ b) (a : List Char) :
    beforeLast c (a ++ c :: b) = a := by
  unfold beforeLast
  have hall : ∀ x ∈ b.reverse, decide (x ≠ c) = true := by
    intro x hx
    have hne : x ≠ c := fun h => hb (h ▸ List.mem_reverse.1 hx)
    simpa using hne
  rw [List.reverse_append, List.reverse_cons, List.append_assoc,
    List.dropWhile_append_of_pos hall, List.singleton_append,
    List.dropWhile_cons_of_neg (by simp), List.tail_cons, List.reverse_reverse]

theorem not_mem_afterLast (c : Char) (l : List Char) : c ∉ afterLast c l := by
  intro h
  unfold afterLast at h
  simpa using List.mem_takeWhile_imp (List.mem_reverse.1 h)

theorem mem_of_mem_beforeLast {c x : Char} {l : List Char} (h : x ∈ beforeLast c l) : x ∈ l := by
  unfold beforeLast at h
  exact List.mem_reverse.1
    ((List.dropWhile_sublist _).subset (List.mem_of_mem_tail (List.mem_reverse.1 h)))

theorem setupCompressedFilePath_toList (rstrAttachTempPath : String)
    (rstrFileName rstrFileExtension : List Char) :
    ∃ mid, (setupCompressedFilePath rstrAttachTempPath rstrFileName rstrFileExtension).toList =
        rstrAttachTempPath.toList ++ '/' :: (rstrFileName ++ mid ++ ".gz".toList) ∧
      mid = if rstrFileExtension = [] then [] else '.' :: rstrFileExtension := by
  have hslash : "/".toList = ['/'] := rfl
  have hdot : ".".toList = ['.'] := rfl
  refine ⟨_, ?_, rfl⟩
  unfold setupCompressedFilePath
  by_cases h : rstrFileExtension = []
  · rw [if_neg (not_not.2 h), if_pos h]
    simp only [String.toList_append, String.toList_ofList, hslash, List.append_assoc,
      List.cons_append, List.nil_append]
  · rw [if_pos h, if_neg h]
    simp only [String.toList_append, String.toList_ofList, hslash, hdot, List.append_assoc,
      List.cons_append, List.nil_append]

/-- The setting that deletes the source is no path of a compressed file. -/
theorem compressedPath_ne_yes (call : AttachCall) : config.compressedPath call ≠ "yes" := by
  intro h
  obtain ⟨mid, htoList, -⟩ := setupCompressedFilePath_toList
    (setupFileAttachmentPath config.fileAttachmentTempPath)
    (getFileNameAndExtension call.rstrPath.toList).1 (getFileNameAndExtension call.rstrPath.toList).2
  unfold AttachConfig.compressedPath at h
  rw [h] at htoList
  have hmem : '/' ∈ "yes".toList := by
    rw [htoList]
    simp
  exact absurd hmem (by decide)

theorem getFileNameAndExtension_snd {b : List Char} (hb : '.' ∉ b) (front name : List Char) :
    (getFileNameAndExtension (front ++ '/' :: (name ++ '.' :: b))).2 = b := by
  unfold getFileNameAndExtension
  rw [if_pos (by simp)]
  dsimp only
  rw [if_pos (by simp)]
  dsimp only
  rw [← List.cons_append, ← List.append_assoc]
  exact afterLast_append hb _

theorem getFileNameAndExtension_fst {name b : List Char} (hb : '.' ∉ b)
    (hslash : '/' ∉ name ++ '.' :: b) (front : List Char) :
    (getFileNameAndExtension (front ++ '/' :: (name ++ '.' :: b))).1 = name := by
  unfold getFileNameAndExtension
  rw [if_pos (by simp)]
  dsimp only
  rw [if_pos (by simp), afterLast_append hslash]
  dsimp only
  rw [if_pos (by simp), beforeLast_append hb]

theorem slash_not_mem_fileName (path : List Char) : '/' ∉ (getFileNameAndExtension path).1 := by
  unfold getFileNameAndExtension
  split
  · dsimp only
    split
    · dsimp only
      split
      · exact fun h => not_mem_afterLast '/' path (mem_of_mem_beforeLast h)
      · exact not_mem_afterLast '/' path
    · exact not_mem_afterLast '/' path
  · exact List.not_mem_nil

/-- A file is not compressed to its own path. -/
theorem ne_compressedPath (call : AttachCall) : call.rstrPath ≠ config.compressedPath call := by
  intro h
  obtain ⟨mid, htoList, hmid⟩ := setupCompressedFilePath_toList
    (setupFileAttachmentPath config.fileAttachmentTempPath)
    (getFileNameAndExtension call.rstrPath.toList).1 (getFileNameAndExtension call.rstrPath.toList).2
  change (config.compressedPath call).toList = _ at htoList
  rw [← h] at htoList
  have hslash := slash_not_mem_fileName call.rstrPath.toList
  have hgz : ".gz".toList = ['.', 'g', 'z'] := rfl
  rw [hgz] at htoList
  generalize call.rstrPath.toList = path at *
  generalize (setupFileAttachmentPath config.fileAttachmentTempPath).toList = temp at *
  -- the path ends in `.gz`, so that is its extension, and its name has one `.gz` the less
  have hextn : (getFileNameAndExtension path).2 = ['g', 'z'] := by
    rw [htoList]
    exact getFileNameAndExtension_snd (by decide) temp _
  rw [hextn, if_neg (List.cons_ne_nil _ _)] at hmid
  subst hmid
  have hname : (getFileNameAndExtension path).1 =
      (getFileNameAndExtension path).1 ++ ['.', 'g', 'z'] := by
    conv_lhs => rw [htoList]
    exact getFileNameAndExtension_fst (by decide) (by simp [hslash]) temp
  have hlength := congrArg List.length hname
  rw [List.length_append, List.length_cons] at hlength
  omega

/-! ## What an accepted attachment leaves -/

/-- The name that is recorded for an accepted file. -/
def recordedName (event : AttachEvent) (call : AttachCall) (bIsCompressed : Bool) : String :=
  if h : '_' ∉ call.rstrFileType.toList ∧ '_' ∉ event.strEventId.toList then
    String.ofList (outputFileName (nameParts config event call h)) ++
      if bIsCompressed then ".gz" else ""
  else ""

/-- Where the file of the call is copied from, and to. -/
def copySource (call : AttachCall) (disk : Disk) : String :=
  if (prepared gzip config faults call disk).bIsCompressed then
    config.deleteSrcAttachmentFileAfterAccept
  else call.rstrPath

def copyTarget (call : AttachCall) (event : AttachEvent) (disk : Disk) : String :=
  attachDir config event ++ "/" ++
    recordedName config event call (prepared gzip config faults call disk).bIsCompressed

/-- What the copy leaves, without the compressed file if there was one. -/
def afterCopy (call : AttachCall) (event : AttachEvent) (disk : Disk) : Disk :=
  removeCompressed config faults call (prepared gzip config faults call disk).bIsCompressed
    (copy faults.copy (copySource gzip config faults call disk)
      (copyTarget gzip config faults call event disk)
      (prepared gzip config faults call disk).disk).2

theorem finalizeOutFileName_ok {out : List Char} {final cfg compressedPath dir path : String}
    {bIsCompressed bDelete : Bool} {count : ℕ} {disk : Disk} (hcfg : cfg ≠ "yes")
    (h : (finalizeOutFileName faults out final bIsCompressed cfg compressedPath dir bDelete path
      count disk).nErrorCode = none) :
    finalizeOutFileName faults out final bIsCompressed cfg compressedPath dir bDelete path count
        disk =
      ⟨none, String.ofList out ++ if bIsCompressed then ".gz" else "", count + 1,
        (copy faults.copy (if bIsCompressed then compressedPath else path)
          (dir ++ "/" ++ (String.ofList out ++ if bIsCompressed then ".gz" else "")) disk).2⟩ := by
  unfold finalizeOutFileName at h ⊢
  split at h
  · rename_i hlength
    rw [if_pos hlength]
    simp only [hcfg, false_and, if_false]
  · cases h

/-- The setting is compared with a path, so the source is not deleted. -/
theorem finalized_ok {call : AttachCall} {event : AttachEvent}
    {hplain : '_' ∉ call.rstrFileType.toList ∧ '_' ∉ event.strEventId.toList} {prepared : Prepared}
    (h : (finalized config faults call event hplain prepared).nErrorCode = none) :
    (finalized config faults call event hplain prepared).rstrFinalOutFileName =
      recordedName config event call prepared.bIsCompressed ∧
    (finalized config faults call event hplain prepared).disk =
      (copy faults.copy
        (if prepared.bIsCompressed then config.deleteSrcAttachmentFileAfterAccept
          else call.rstrPath)
        (event.m_strFileAttachmentPath ++ "/" ++
          recordedName config event call prepared.bIsCompressed) prepared.disk).2 := by
  unfold finalized at h ⊢
  unfold recordedName
  rw [dif_pos hplain]
  generalize outputFileName (nameParts config event call hplain) = out at *
  rw [finalizeOutFileName_ok faults (compressedPath_ne_yes config call) h]
  exact ⟨rfl, rfl⟩

theorem acceptFile_ok {call : AttachCall} {event : AttachEvent} {prepared : Prepared}
    (h : (acceptFile config faults call event prepared).nErrorCode = none) :
    (acceptFile config faults call event prepared).event.m_strFileAttachmentPath =
      event.m_strFileAttachmentPath ∧
    (acceptFile config faults call event prepared).event.m_vectAttachment =
      event.m_vectAttachment ++ [recordedName config event call prepared.bIsCompressed] ∧
    (acceptFile config faults call event prepared).disk =
      removeCompressed config faults call prepared.bIsCompressed
        (copy faults.copy
          (if prepared.bIsCompressed then config.deleteSrcAttachmentFileAfterAccept
            else call.rstrPath)
          (event.m_strFileAttachmentPath ++ "/" ++
            recordedName config event call prepared.bIsCompressed) prepared.disk).2 := by
  revert h
  unfold acceptFile
  split
  · intro h
    cases h
  · intro h
    dsimp only at h ⊢
    obtain ⟨hname, hdisk⟩ := finalized_ok config faults h
    rw [hname, hdisk]
    exact ⟨rfl, rfl, rfl⟩

/-- An accepted file was there; its name is recorded, and the disk is as the copy leaves
it. -/
theorem acceptAttach_ok {call : AttachCall} {event : AttachEvent} {disk : Disk}
    (h : (acceptAttach gzip config faults call event disk).nErrorCode = none) :
    (disk.read call.rstrPath).isSome = true ∧
    (acceptAttach gzip config faults call event disk).event.m_strFileAttachmentPath =
      attachDir config event ∧
    (acceptAttach gzip config faults call event disk).event.m_vectAttachment =
      event.m_vectAttachment ++
        [recordedName config event call (prepared gzip config faults call disk).bIsCompressed] ∧
    (acceptAttach gzip config faults call event disk).disk =
      afterCopy gzip config faults call event disk := by
  unfold acceptAttach at h ⊢
  split at h
  · rename_i hexists
    rw [if_pos hexists]
    dsimp only at h ⊢
    split at h
    · cases h
    · rename_i hdir
      rw [if_neg hdir]
      split at h
      · cases h
      · rename_i hname
        rw [if_neg hname]
        exact ⟨hexists, acceptFile_ok config faults h⟩
  · cases h

/-! ## Where it is right -/

/-- The content of the source, or what compressing makes of it if that was asked for. -/
def PossiblyCompressed (call : AttachCall) (content stored : Content) : Prop :=
  stored = content ∨ call.bCompressFile = true ∧ stored = gzip content

/-- The file with the recorded name has the content of the source, and the source is gone
only if the caller asked for that. -/
structure AcceptedRight (call : AttachCall) (event : AttachEvent) (disk : Disk)
    (outcome : AttachOutcome) : Prop where
  stored : ∃ content name stored, disk.read call.rstrPath = some content ∧
    outcome.event.m_vectAttachment = event.m_vectAttachment ++ [name] ∧
    outcome.disk.read (outcome.event.m_strFileAttachmentPath ++ "/" ++ name) = some stored ∧
    PossiblyCompressed gzip call content stored
  source : outcome.disk.read call.rstrPath = none → call.bDeleteAttachment = true

/-- The copy leaves the content of the source at its target, and the target is not the
compressed file, which is deleted at the end. -/
structure Delivers (call : AttachCall) (event : AttachEvent) (disk : Disk) : Prop where
  delivered : ∃ content stored, disk.read call.rstrPath = some content ∧
    copied faults.copy (copySource gzip config faults call disk)
      (copyTarget gzip config faults call event disk) (prepared gzip config faults call disk).disk =
        some stored ∧
    PossiblyCompressed gzip call content stored
  kept : (prepared gzip config faults call disk).bIsCompressed = true →
    copyTarget gzip config faults call event disk = config.compressedPath call →
      faults.unremovable (config.compressedPath call) = true

theorem read_compressFile_of_ne {p strCompressedPath : String} (h : p ≠ strCompressedPath)
    (rbCompressFile : Bool) (rstrPath : String) (disk : Disk) :
    (compressFile gzip faults rbCompressFile rstrPath strCompressedPath disk).disk.read p =
      disk.read p := by
  unfold compressFile
  split
  · dsimp only
    split
    · split
      · dsimp only
        rw [read_remove, if_neg fun hp => h hp.1, read_compress_of_ne h]
      · exact read_compress_of_ne h ..
    · exact read_compress_of_ne h ..
  · rfl

theorem read_removeCompressed (call : AttachCall) (bIsCompressed : Bool) (disk : Disk)
    (p : String) :
    (removeCompressed config faults call bIsCompressed disk).read p =
      if bIsCompressed = true ∧ p = config.compressedPath call ∧
          faults.unremovable (config.compressedPath call) = false then none
      else disk.read p := by
  unfold removeCompressed
  cases bIsCompressed with
  | false => simp
  | true =>
    rw [if_pos rfl, read_remove]
    simp

/-- The source is there at the end, whatever was asked for. -/
theorem isSome_read_afterCopy {call : AttachCall} {disk : Disk}
    (h : (disk.read call.rstrPath).isSome = true) (event : AttachEvent) :
    ((afterCopy gzip config faults call event disk).read call.rstrPath).isSome = true := by
  unfold afterCopy
  rw [read_removeCompressed, if_neg fun hp => ne_compressedPath config call hp.2.1]
  refine isSome_read_copy ?_ _ _ _
  unfold prepared
  rw [read_compressFile_of_ne gzip faults (ne_compressedPath config call)]
  exact h

theorem read_afterCopy_target (call : AttachCall) (event : AttachEvent) (disk : Disk) :
    (afterCopy gzip config faults call event disk).read
        (copyTarget gzip config faults call event disk) =
      if (prepared gzip config faults call disk).bIsCompressed = true ∧
          copyTarget gzip config faults call event disk = config.compressedPath call ∧
          faults.unremovable (config.compressedPath call) = false then none
      else copied faults.copy (copySource gzip config faults call disk)
        (copyTarget gzip config faults call event disk)
        (prepared gzip config faults call disk).disk := by
  unfold afterCopy
  rw [read_removeCompressed, read_copy]

/-- A file that was not compressed is delivered if the copy goes well and is none to
itself. -/
theorem delivers_of_not_compressed {call : AttachCall} {event : AttachEvent} {disk : Disk}
    {content : Content} (hcontent : disk.read call.rstrPath = some content)
    (hraw : (prepared gzip config faults call disk).bIsCompressed = false)
    (hcopy : faults.copy = ⟨true, true, none⟩)
    (htarget : call.rstrPath ≠ copyTarget gzip config faults call event disk) :
    Delivers gzip config faults call event disk := by
  have hsource : copySource gzip config faults call disk = call.rstrPath := by
    unfold copySource
    rw [hraw, if_neg Bool.false_ne_true]
  have hread : (prepared gzip config faults call disk).disk.read call.rstrPath = some content := by
    unfold prepared
    rw [read_compressFile_of_ne gzip faults (ne_compressedPath config call), hcontent]
  refine ⟨⟨content, content, hcontent, ?_, Or.inl rfl⟩, fun hcompressed => ?_⟩
  · rw [hcopy, hsource]
    unfold copied
    rw [if_pos rfl, hread]
    dsimp only
    rw [if_pos ⟨rfl, htarget⟩]
    rfl
  · rw [hraw] at hcompressed
    cases hcompressed

/-- A file that was compressed is not, unless the text of the setting is the path of a file:
the new file is empty. -/
theorem not_delivers_of_compressed {call : AttachCall} {event : AttachEvent} {disk : Disk}
    {content : Content} (hcontent : disk.read call.rstrPath = some content)
    (hcompressed : (prepared gzip config faults call disk).bIsCompressed = true)
    (hsetting : (prepared gzip config faults call disk).disk.read
      config.deleteSrcAttachmentFileAfterAccept = none)
    (hopens : faults.copy.opensTarget = true) (hne : content ≠ []) (hgzip : gzip content ≠ []) :
    ¬ Delivers gzip config faults call event disk := by
  rintro ⟨⟨content', stored, hcontent', hcopied, hright⟩, -⟩
  rw [hcontent] at hcontent'
  cases hcontent'
  unfold copySource at hcopied
  rw [hcompressed, if_pos rfl] at hcopied
  unfold copied at hcopied
  rw [if_pos hopens, hsetting] at hcopied
  cases hcopied
  rcases hright with h | ⟨-, h⟩
  · exact hne h.symm
  · exact hgzip h.symm

/-! ## A log file -/

def logConfig : AttachConfig := ⟨"/att", "/tmp", 1000000, 1000000, "yes", "D1"⟩

def crashEvent : AttachEvent := ⟨"Crash", "1700000000000", 0, [], ""⟩

def logDisk : Disk := ⟨[("/data/a.log", List.replicate 64 65)]⟩

def noFaults : AttachFaults := ⟨⟨true, true, none⟩, ⟨true, true, true, true, none⟩, fun _ => false⟩

/-- The library on the content of the log. -/
def logGzip (content : Content) : Content :=
  if content = List.replicate 64 65 then
    [31, 139, 8, 0, 0, 0, 0, 0, 0, 3, 115, 116, 164, 12, 0, 0, 60, 98, 76, 65, 64, 0, 0, 0]
  else content

end AcceptAttach

end DeviceClient
