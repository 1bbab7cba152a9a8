import DeviceClient.Lib.Run
import DeviceClient.Util.FileOperations

/-!
# The log file

`CIgniteLog` with its stream `m_of`, the count `m_atomicFileSize`, and the files. What the
system does in a call (which files can be moved or removed, how compressing goes) and the
texts of lines come with the call; opening a file succeeds.

* `logLine`, `truncateFile`, `setFileOutputPath`, `moveToUpload`, `updateFilePath`: the code.
* `Inv`: the stream is open on the log file, and the count is right.
* `LineOk`, `MoveOk`, `UpdateOk`: the calls that keep it.
* `accounted_of_run`: so it holds in every run of such calls.
-/

namespace DeviceClient

/-- `LogLevel`. -/
inductive LogLevel
  | none | fatal | critical | error | warning | info | debug | trace
deriving DecidableEq

def LogLevel.value : LogLevel → ℕ
  | .none => 0
  | .fatal => 1
  | .critical => 2
  | .error => 3
  | .warning => 4
  | .info => 5
  | .debug => 6
  | .trace => 7

/-- What the system does in a call, and what `LogStatus` prints then. -/
structure LogShell where
  moves : String → String → Bool
  unremovable : String → Bool
  status : Content

/-- A log line, with its end of line. -/
structure LogText where
  text : Content
  shell : LogShell

/-- `m_of` when it is open: the file it was opened on; without `good`, writes are dropped. -/
structure LogStream where
  path : String
  good : Bool
deriving DecidableEq

/-- The static members, and the files. `openedSize` is the size of the log file when it was
opened, `lineBytes` the bytes of the log lines written to it since. -/
structure LogFile where
  m_eFileOutputLevel : LogLevel
  m_bTruncateLog : Bool
  m_ulTruncateFileSize : ℕ
  m_strFilePath : String
  m_atomicFileSize : ℕ
  m_of : Option LogStream
  disk : Disk
  openedSize : ℕ
  lineBytes : ℕ

namespace LogFile

def setCount (m_atomicFileSize : ℕ) (s : LogFile) : LogFile :=
  { s with m_atomicFileSize := m_atomicFileSize }

def setDisk (disk : Disk) (s : LogFile) : LogFile := { s with disk := disk }

/-! ## The stream -/

def isOpen (s : LogFile) : Bool := s.m_of.isSome

/-- The bytes of a file. -/
def sizeOf (path : String) (disk : Disk) : ℕ := ((disk.read path).getD []).length

/-- `m_of << content`. -/
def write (content : Content) (s : LogFile) : LogFile :=
  match s.m_of with
  | some ⟨path, true⟩ =>
    match s.disk.read path with
    | some old => s.setDisk (s.disk.write path (old ++ content))
    | none => s
  | _ => s

/-- `m_of.close()`. -/
def close (s : LogFile) : LogFile := { s with m_of := none }

/-- `m_of.open(path, std::ios::app)`; a stream that is open fails, and stays open. -/
def openAt (path : String) (s : LogFile) : LogFile :=
  match s.m_of with
  | some stream => { s with m_of := some { stream with good := false } }
  | none => { s with
      m_of := some ⟨path, true⟩
      disk := if (s.disk.read path).isSome then s.disk else s.disk.write path []
      openedSize := sizeOf path s.disk
      lineBytes := 0 }

/-- `LogStatus`. -/
def logStatus (shell : LogShell) (s : LogFile) : LogFile :=
  if s.isOpen then s.write shell.status else s

/-! ## Lines and truncation -/

/-- `CIgniteFileUtils::Move`. -/
def move (moves : String → String → Bool) (src dest : String) (disk : Disk) : Bool × Disk :=
  match disk.read src with
  | none => (false, disk)
  | some content =>
    if moves src dest ∧ src ≠ dest then (true, (disk.write dest content).erase src)
    else (false, disk)

def truncatingText : Content := "\nTRUNCATING FILE \n".toList.map Char.toUInt8

/-- What `TruncateFile` does with the files. -/
def rotate (shell : LogShell) (path : String) (disk : Disk) : Disk :=
  let disk := if FileUtils.fileExists (path ++ ".bak2") disk then
    FileUtils.remove shell.unremovable (path ++ ".bak2") disk else disk
  let disk := if FileUtils.fileExists path disk then
    FileUtils.remove shell.unremovable (path ++ ".bak") disk else disk
  (move shell.moves path (path ++ ".bak") disk).2

/-- `TruncateFile` up to where the file is opened again. -/
def moveAway (shell : LogShell) (s : LogFile) : LogFile :=
  if s.isOpen then
    (s.write truncatingText).close.setDisk
      (rotate shell s.m_strFilePath (s.write truncatingText).disk)
  else s

/-- `TruncateFile`. -/
def truncateFile (shell : LogShell) (s : LogFile) : LogFile :=
  (((s.moveAway shell).setCount 0).openAt s.m_strFilePath).logStatus shell

/-- `TruncateIfRequired`; nobody else is truncating. -/
def truncateIfRequired (shell : LogShell) (s : LogFile) : LogFile :=
  if s.m_bTruncateLog ∧ s.m_atomicFileSize > s.m_ulTruncateFileSize then s.truncateFile shell
  else s

/-- A log line goes to the stream, and is counted as one that was written. -/
def writeLine (text : Content) (s : LogFile) : LogFile :=
  match s.m_of with
  | some ⟨_, true⟩ => { s.write text with lineBytes := s.lineBytes + text.length }
  | _ => s

/-- `~CIgniteLog` of a line with `m_eLogLevel` and `m_bIsLast`, as far as the file goes. -/
def logLine (eLevel : LogLevel) (bIsLast : Bool) (line : LogText) (s : LogFile) : LogFile :=
  if eLevel.value ≤ s.m_eFileOutputLevel.value ∧ s.isOpen then
    let s := s.setCount ((s.m_atomicFileSize + line.text.length) % 2 ^ 64)
    let s := (s.writeLine line.text).truncateIfRequired line.shell
    if bIsLast ∧ s.isOpen then s.close else s
  else s

/-- `HCPLOG`. -/
def hcplog (eLevel : LogLevel) (line : LogText) (s : LogFile) : LogFile :=
  if eLevel = .none then s else s.logLine eLevel false line

/-! ## Paths -/

/-- What a call of `SetFileOutputPath` or `UpdateFilePath` comes with: whether the directory is
there, and the lines of `Exists` and `MakeDirectory`. -/
structure PathCall where
  rstrPath : String
  directoryThere : Bool
  existsLine : LogText
  makeDirectoryLine : LogText
  criticalLine : LogText
  errorLine : LogText
  shell : LogShell

/-- `substr(0, find_last_of("/"))`. -/
def parentDir (path : String) : String :=
  if '/' ∈ path.toList then
    String.ofList ((path.toList.reverse.dropWhile (· ≠ '/')).drop 1).reverse
  else path

/-- `Exists` and `MakeDirectory` of the directory. -/
def makeParentDir (call : PathCall) (s : LogFile) : LogFile :=
  let s := s.hcplog .trace call.existsLine
  if call.directoryThere then s else s.hcplog .trace call.makeDirectoryLine

/-- `SetFileOutputPath` up to `GetSize`: the members are set, the stream is closed. -/
def prepare (call : PathCall) (nTruncateFileSize : ℤ) (s : LogFile) : LogFile :=
  let s := { s with
    m_strFilePath := call.rstrPath
    m_atomicFileSize := 0
    m_ulTruncateFileSize := (nTruncateFileSize % 2 ^ 64).toNat }
  if call.rstrPath ≠ "" then (s.makeParentDir call).close else s

/-- `SetFileOutputPath`. From where the stream is closed no line is written. -/
def setFileOutputPath (call : PathCall) (nTruncateFileSize : ℤ) (s : LogFile) : LogFile :=
  let s := s.prepare call nTruncateFileSize
  if call.rstrPath ≠ "" then
    (s.setCount (FileUtils.getSize call.rstrPath s.disk % 2 ^ 64).toNat).openAt call.rstrPath
  else s

/-- `MoveLogFilesToNewPath`. -/
def moveLogFilesToNewPath (shell : LogShell) (path rstrNewPath : String) (disk : Disk) : Disk :=
  let strSrcbakfile := path ++ ".bak"
  if FileUtils.fileExists rstrNewPath disk then
    let strDestbakfile :=
      if FileUtils.fileExists strSrcbakfile disk then rstrNewPath ++ ".bak2" else ""
    let disk := (move shell.moves rstrNewPath (rstrNewPath ++ ".bak") disk).2
    let disk := if FileUtils.fileExists strSrcbakfile disk then
      (move shell.moves strSrcbakfile strDestbakfile disk).2 else disk
    (move shell.moves path rstrNewPath disk).2
  else
    let disk := if FileUtils.fileExists strSrcbakfile disk then
      (move shell.moves strSrcbakfile (rstrNewPath ++ ".bak") disk).2 else disk
    (move shell.moves path rstrNewPath disk).2

/-- The moves of `UpdateFilePath`. -/
def moveLog (shell : LogShell) (path rstrNewPath : String) (disk : Disk) : Disk :=
  if parentDir path ≠ parentDir rstrNewPath then moveLogFilesToNewPath shell path rstrNewPath disk
  else (move shell.moves path rstrNewPath disk).2

/-- `UpdateFilePath` up to `SetFileOutputPath`: the stream is closed, the files are moved. -/
def movedLog (call : PathCall) (s : LogFile) : LogFile :=
  let s := ((s.hcplog .critical call.criticalLine).makeParentDir call).close
  s.setDisk (moveLog call.shell s.m_strFilePath call.rstrPath s.disk)

/-- `UpdateFilePath`. The truncation size goes through an `int`. -/
def updateFilePath (call : PathCall) (s : LogFile) : Bool × LogFile :=
  if call.rstrPath ≠ "" ∧ call.rstrPath ≠ s.m_strFilePath then
    let s := s.movedLog call
    (true, s.setFileOutputPath call (Lib.toInt32 s.m_ulTruncateFileSize))
  else (false, s.hcplog .error call.errorLine)

/-! ## Uploads -/

/-- What a call of `MoveToUpload` comes with. -/
structure UploadCall where
  strUploadPath : String
  rbCompress : Bool
  existsLine : LogText
  errorLine : LogText
  markerLine : LogText
  /-- the lines that `Compress` logs, with their levels -/
  compressLines : List (LogLevel × LogText)
  gzip : Content → Content
  faults : FileUtils.CompressFaults
  shell : LogShell

/-- `Compress` of the log file. -/
def UploadCall.compressed (call : UploadCall) (strLogPath : String) (disk : Disk) : Bool × Disk :=
  FileUtils.compress call.gzip call.shell.unremovable call.faults strLogPath call.strUploadPath
    disk

/-- Lines in order. -/
def hcplogs (lines : List (LogLevel × LogText)) (s : LogFile) : LogFile :=
  lines.foldl (fun s line => s.hcplog line.1 line.2) s

/-- The marker line, which closes the file. -/
def logMarker (call : UploadCall) (s : LogFile) : LogFile :=
  if s.isOpen then s.logLine .info true call.markerLine else s

/-- The part of `MoveToUpload` behind the marker. `Remove` and `Move` log at the trace level,
with the stream closed or at a file level below `info`. -/
def upload (call : UploadCall) (strLogPath : String) (s : LogFile) : Bool × LogFile :=
  if call.rbCompress then
    let compressed := call.compressed strLogPath s.disk
    let s := (s.setDisk compressed.2).hcplogs call.compressLines
    if compressed.1 then
      let s := s.setDisk (FileUtils.remove call.shell.unremovable strLogPath s.disk)
      (true, (s.openAt strLogPath).logStatus call.shell)
    else (false, s)
  else
    let moved := move call.shell.moves strLogPath call.strUploadPath s.disk
    (moved.1, ((s.setDisk moved.2).openAt strLogPath).logStatus call.shell)

/-- `MoveToUpload`. -/
def moveToUpload (call : UploadCall) (strLogPath : String) (s : LogFile) : Bool × LogFile :=
  let s := s.hcplog .trace call.existsLine
  if FileUtils.fileExists strLogPath s.disk then (s.logMarker call).upload call strLogPath
  else (false, s.hcplog .error call.errorLine)

/-! ## Runs -/

inductive LogOp
  | log (eLevel : LogLevel) (line : LogText)
  /-- of the current log file -/
  | moveToUpload (call : UploadCall)
  | updateFilePath (call : PathCall)

def step (s : LogFile) : LogOp → LogFile
  | .log eLevel line => s.hcplog eLevel line
  | .moveToUpload call => (s.moveToUpload call s.m_strFilePath).2
  | .updateFilePath call => (s.updateFilePath call).2

def next (s : LogFile) (op : LogOp) : Option LogFile := some (s.step op)

/-- The stream is open, and the count is the size of the file when it was opened and the bytes
of the log lines since. -/
def Accounted (s : LogFile) : Prop :=
  s.isOpen = true ∧ s.m_atomicFileSize = s.openedSize + s.lineBytes

instance (s : LogFile) : Decidable s.Accounted := inferInstanceAs (Decidable (_ ∧ _))

/-! ## The calls that keep the account -/

/-- The line makes the file too long. -/
def Truncates (s : LogFile) (line : LogText) : Prop :=
  s.m_bTruncateLog = true ∧ s.m_ulTruncateFileSize < s.m_atomicFileSize + line.text.length

instance (s : LogFile) (line : LogText) : Decidable (s.Truncates line) :=
  inferInstanceAs (Decidable (_ ∧ _))

/-- The line fits the counter, and a file that it truncates can be moved away. -/
def Fits (s : LogFile) (line : LogText) : Prop :=
  s.m_atomicFileSize + line.text.length < 2 ^ 64 ∧
    (s.Truncates line → line.shell.moves s.m_strFilePath (s.m_strFilePath ++ ".bak") = true)

instance (s : LogFile) (line : LogText) : Decidable (s.Fits line) :=
  inferInstanceAs (Decidable (_ ∧ _))

/-- Lines of the level go to the file. -/
def Logs (s : LogFile) (eLevel : LogLevel) : Prop := eLevel.value ≤ s.m_eFileOutputLevel.value

instance (s : LogFile) (eLevel : LogLevel) : Decidable (s.Logs eLevel) :=
  inferInstanceAs (Decidable (_ ≤ _))

def LineOk (s : LogFile) (eLevel : LogLevel) (line : LogText) : Prop :=
  s.Logs eLevel → s.Fits line

instance (s : LogFile) (eLevel : LogLevel) (line : LogText) : Decidable (s.LineOk eLevel line) :=
  inferInstanceAs (Decidable (_ → _))

/-- The same for lines in order. -/
def LinesOk (s : LogFile) (lines : List (LogLevel × LogText)) : Prop :=
  Lib.Along (fun s line => some (s.hcplog line.1 line.2)) (fun s line => s.LineOk line.1 line.2)
    s lines

instance (s : LogFile) (lines : List (LogLevel × LogText)) : Decidable (s.LinesOk lines) :=
  Lib.decidableAlong _ _ s lines

/-- The log file is there. -/
def There (s : LogFile) : Prop := (s.disk.read s.m_strFilePath).isSome = true

instance (s : LogFile) : Decidable s.There := inferInstanceAs (Decidable (_ = _))

/-- Each byte of the log file is counted: none of a status. -/
def Counted (s : LogFile) : Prop := sizeOf s.m_strFilePath s.disk = s.m_atomicFileSize

instance (s : LogFile) : Decidable s.Counted := inferInstanceAs (Decidable (_ = _))

namespace UploadCall

/-- `Compress` returns `Z_OK` for a file that is there. -/
def compresses (call : UploadCall) : Bool :=
  call.faults.opensSource && call.faults.opensTarget && call.faults.starts && call.faults.ends

/-- The log file is uploaded, and is gone. -/
def Gone (call : UploadCall) (path : String) : Prop :=
  (call.rbCompress = true ∧ call.compresses = true ∧ call.shell.unremovable path = false) ∨
    (call.rbCompress = false ∧ call.shell.moves path call.strUploadPath = true ∧
      path ≠ call.strUploadPath)

/-- The log file is left as it is, to be opened again. -/
def Stays (call : UploadCall) (path : String) : Prop :=
  (call.rbCompress = true ∧ call.compresses = true ∧ call.shell.unremovable path = true ∧
      path ≠ call.strUploadPath) ∨
    (call.rbCompress = false ∧ ¬(call.shell.moves path call.strUploadPath = true ∧
      path ≠ call.strUploadPath))

instance (call : UploadCall) (path : String) : Decidable (call.Gone path) :=
  inferInstanceAs (Decidable (_ ∨ _))

instance (call : UploadCall) (path : String) : Decidable (call.Stays path) :=
  inferInstanceAs (Decidable (_ ∨ _))

end UploadCall

/-- In the state in which the marker is written: it closes the stream, and either the file stays
with each byte counted, or the marker has just reset the count and the file goes; or the marker
is not written, and the file is not opened again since it is not compressed. -/
def UploadOk (call : UploadCall) (s : LogFile) : Prop :=
  (s.Logs .info ∧ s.Fits call.markerLine ∧
    ((¬s.Truncates call.markerLine ∧ s.Counted ∧ call.Stays s.m_strFilePath) ∨
      (s.Truncates call.markerLine ∧ call.Gone s.m_strFilePath))) ∨
  (¬s.Logs .info ∧ call.rbCompress = true ∧ call.compresses = false ∧
    (s.setDisk (call.compressed s.m_strFilePath s.disk).2).LinesOk call.compressLines)

/-- The same behind `Exists`, if the log file is there. -/
def FoundOk (call : UploadCall) (s : LogFile) : Prop :=
  (s.There ∧ s.UploadOk call) ∨ (¬s.There ∧ s.LineOk .error call.errorLine)

def MoveOk (call : UploadCall) (s : LogFile) : Prop :=
  s.LineOk .trace call.existsLine ∧ (s.hcplog .trace call.existsLine).FoundOk call

/-- The file whose size is read is there, and shorter than 2^31 bytes. -/
def Sized (path : String) (disk : Disk) : Prop :=
  (disk.read path).isSome = true ∧ sizeOf path disk < 2 ^ 31

def PathOk (call : PathCall) (nTruncateFileSize : ℤ) (s : LogFile) : Prop :=
  call.rstrPath ≠ "" ∧ Sized call.rstrPath (s.prepare call nTruncateFileSize).disk

/-- `UpdateFilePath` has something to do. -/
def IsNewPath (s : LogFile) (rstrNewPath : String) : Prop :=
  rstrNewPath ≠ "" ∧ rstrNewPath ≠ s.m_strFilePath

instance (s : LogFile) (rstrNewPath : String) : Decidable (s.IsNewPath rstrNewPath) :=
  inferInstanceAs (Decidable (_ ∧ _))

def UpdateOk (call : PathCall) (s : LogFile) : Prop :=
  (s.IsNewPath call.rstrPath ∧ Sized call.rstrPath (s.movedLog call).disk) ∨
    (¬s.IsNewPath call.rstrPath ∧ s.LineOk .error call.errorLine)

def OpOk (s : LogFile) : LogOp → Prop
  | .log eLevel line => s.LineOk eLevel line
  | .moveToUpload call => s.MoveOk call
  | .updateFilePath call => s.UpdateOk call

instance (call : UploadCall) (s : LogFile) : Decidable (s.UploadOk call) :=
  inferInstanceAs (Decidable (_ ∨ _))

instance (call : UploadCall) (s : LogFile) : Decidable (s.FoundOk call) :=
  inferInstanceAs (Decidable (_ ∨ _))

instance (call : UploadCall) (s : LogFile) : Decidable (s.MoveOk call) :=
  inferInstanceAs (Decidable (_ ∧ _))

instance (path : String) (disk : Disk) : Decidable (Sized path disk) :=
  inferInstanceAs (Decidable (_ ∧ _))

instance (call : PathCall) (nTruncateFileSize : ℤ) (s : LogFile) :
    Decidable (s.PathOk call nTruncateFileSize) :=
  inferInstanceAs (Decidable (_ ∧ _))

instance (call : PathCall) (s : LogFile) : Decidable (s.UpdateOk call) :=
  inferInstanceAs (Decidable (_ ∨ _))

instance (s : LogFile) : DecidablePred s.OpOk
  | .log eLevel line => inferInstanceAs (Decidable (s.LineOk eLevel line))
  | .moveToUpload call => inferInstanceAs (Decidable (s.MoveOk call))
  | .updateFilePath call => inferInstanceAs (Decidable (s.UpdateOk call))

/-! ## What the operations leave alone -/

/-- Writing changes files, and removes none. -/
theorem write_eq (content : Content) (s : LogFile) :
    ∃ disk, s.write content = { s with disk := disk } ∧
      ∀ p, (s.disk.read p).isSome = true → (disk.read p).isSome = true := by
  unfold write
  split
  · rename_i path _
    split
    · refine ⟨_, rfl, fun p hp => ?_⟩
      rw [Disk.read_write]
      split
      · rfl
      · exact hp
    · exact ⟨_, rfl, fun p hp => hp⟩
  · exact ⟨_, rfl, fun p hp => hp⟩

theorem logStatus_eq (shell : LogShell) (s : LogFile) :
    ∃ disk, s.logStatus shell = { s with disk := disk } ∧
      ∀ p, (s.disk.read p).isSome = true → (disk.read p).isSome = true := by
  unfold logStatus
  split
  · exact write_eq shell.status s
  · exact ⟨_, rfl, fun p hp => hp⟩

theorem openAt_of_closed {s : LogFile} (hclosed : s.m_of = none) (path : String) :
    s.openAt path = { s with
      m_of := some ⟨path, true⟩
      disk := if (s.disk.read path).isSome then s.disk else s.disk.write path []
      openedSize := sizeOf path s.disk
      lineBytes := 0 } := by
  unfold openAt
  rw [hclosed]

/-- The log path and the level that the file has are kept by a line. -/
structure SameSettings (s s' : LogFile) : Prop where
  path : s'.m_strFilePath = s.m_strFilePath
  level : s'.m_eFileOutputLevel = s.m_eFileOutputLevel

theorem SameSettings.trans {s t u : LogFile} (h : SameSettings s t) (h' : SameSettings t u) :
    SameSettings s u :=
  ⟨h'.path.trans h.path, h'.level.trans h.level⟩

theorem sameSettings_write (content : Content) (s : LogFile) :
    SameSettings s (s.write content) := by
  obtain ⟨disk, heq, _⟩ := write_eq content s
  rw [heq]
  exact ⟨rfl, rfl⟩

theorem sameSettings_openAt (path : String) (s : LogFile) : SameSettings s (s.openAt path) := by
  unfold openAt
  split <;> exact ⟨rfl, rfl⟩

theorem sameSettings_logStatus (shell : LogShell) (s : LogFile) :
    SameSettings s (s.logStatus shell) := by
  obtain ⟨disk, heq, _⟩ := logStatus_eq shell s
  rw [heq]
  exact ⟨rfl, rfl⟩

theorem sameSettings_moveAway (shell : LogShell) (s : LogFile) :
    SameSettings s (s.moveAway shell) := by
  have hwrite := sameSettings_write truncatingText s
  unfold moveAway
  split
  · exact ⟨hwrite.path, hwrite.level⟩
  · exact ⟨rfl, rfl⟩

theorem sameSettings_truncateFile (shell : LogShell) (s : LogFile) :
    SameSettings s (s.truncateFile shell) := by
  have haway := sameSettings_moveAway shell s
  have hcount : SameSettings s ((s.moveAway shell).setCount 0) := ⟨haway.path, haway.level⟩
  exact (hcount.trans (sameSettings_openAt s.m_strFilePath _)).trans
    (sameSettings_logStatus shell _)

theorem sameSettings_truncateIfRequired (shell : LogShell) (s : LogFile) :
    SameSettings s (s.truncateIfRequired shell) := by
  unfold truncateIfRequired
  split
  · exact sameSettings_truncateFile shell s
  · exact ⟨rfl, rfl⟩

theorem sameSettings_writeLine (text : Content) (s : LogFile) :
    SameSettings s (s.writeLine text) := by
  have hwrite := sameSettings_write text s
  unfold writeLine
  split
  · exact ⟨hwrite.path, hwrite.level⟩
  · exact ⟨rfl, rfl⟩

theorem sameSettings_logLine (eLevel : LogLevel) (bIsLast : Bool) (line : LogText)
    (s : LogFile) : SameSettings s (s.logLine eLevel bIsLast line) := by
  unfold logLine
  split
  · have hcount : SameSettings s
        (s.setCount ((s.m_atomicFileSize + line.text.length) % 2 ^ 64)) := ⟨rfl, rfl⟩
    have hline := (hcount.trans (sameSettings_writeLine line.text _)).trans
      (sameSettings_truncateIfRequired line.shell _)
    dsimp only
    split
    · exact ⟨hline.path, hline.level⟩
    · exact hline
  · exact ⟨rfl, rfl⟩

theorem sameSettings_hcplog (eLevel : LogLevel) (line : LogText) (s : LogFile) :
    SameSettings s (s.hcplog eLevel line) := by
  unfold hcplog
  split
  · exact ⟨rfl, rfl⟩
  · exact sameSettings_logLine eLevel false line s

/-- With the stream closed no line is written. -/
theorem hcplog_of_closed {s : LogFile} (hclosed : s.m_of = none) (eLevel : LogLevel)
    (line : LogText) : s.hcplog eLevel line = s := by
  unfold hcplog logLine isOpen
  rw [hclosed]
  simp

theorem hcplogs_of_closed {s : LogFile} (hclosed : s.m_of = none)
    (lines : List (LogLevel × LogText)) : s.hcplogs lines = s := by
  unfold hcplogs
  induction lines with
  | nil => rfl
  | cons line lines ih =>
    rw [List.foldl_cons, hcplog_of_closed hclosed]
    exact ih

theorem makeParentDir_of_closed {s : LogFile} (hclosed : s.m_of = none) (call : PathCall) :
    s.makeParentDir call = s := by
  unfold makeParentDir
  dsimp only
  rw [hcplog_of_closed hclosed, hcplog_of_closed hclosed, ite_self]

theorem sameSettings_makeParentDir (call : PathCall) (s : LogFile) :
    SameSettings s (s.makeParentDir call) := by
  unfold makeParentDir
  have hexists := sameSettings_hcplog .trace call.existsLine s
  split
  · exact hexists
  · exact hexists.trans (sameSettings_hcplog .trace call.makeDirectoryLine _)

/-! ## The account -/

/-- The stream is open on the log file, and the count is right. -/
structure Inv (s : LogFile) : Prop where
  stream : s.m_of = some ⟨s.m_strFilePath, true⟩
  count : s.m_atomicFileSize = s.openedSize + s.lineBytes

theorem Inv.isOpen {s : LogFile} (h : s.Inv) : s.isOpen = true := by
  unfold LogFile.isOpen
  rw [h.stream]
  rfl

theorem Inv.accounted {s : LogFile} (h : s.Inv) : s.Accounted := ⟨h.isOpen, h.count⟩

theorem inv_logStatus {s : LogFile} (h : s.Inv) (shell : LogShell) : (s.logStatus shell).Inv := by
  obtain ⟨disk, heq, _⟩ := logStatus_eq shell s
  rw [heq]
  exact ⟨h.stream, h.count⟩

theorem there_logStatus {s : LogFile} (h : s.There) (shell : LogShell) :
    (s.logStatus shell).There := by
  obtain ⟨disk, heq, hthere⟩ := logStatus_eq shell s
  rw [heq]
  exact hthere _ h

/-- A file is opened with the count of its bytes. -/
theorem inv_openAt {s : LogFile} (hclosed : s.m_of = none)
    (hcount : s.m_atomicFileSize = sizeOf s.m_strFilePath s.disk) :
    (s.openAt s.m_strFilePath).Inv := by
  rw [openAt_of_closed hclosed]
  exact ⟨rfl, hcount⟩

theorem there_openAt {s : LogFile} (hclosed : s.m_of = none) :
    (s.openAt s.m_strFilePath).There := by
  rw [openAt_of_closed hclosed]
  unfold There
  dsimp only
  split
  · assumption
  · rw [Disk.read_write, if_pos rfl]
    rfl

theorem append_ne_self (path : String) {suffix : String} (h : suffix ≠ "") :
    path ++ suffix ≠ path := by
  intro heq
  have hlen := congrArg String.length heq
  rw [String.length_append] at hlen
  exact h (String.length_eq_zero_iff.1 (by omega))

/-- A file that can be moved away is gone. -/
theorem read_move {moves : String → String → Bool} {src dest : String}
    (hmoves : moves src dest = true) (hne : src ≠ dest) (disk : Disk) :
    (move moves src dest disk).2.read src = none := by
  unfold move
  cases hread : disk.read src with
  | none => exact hread
  | some content =>
    dsimp only
    rw [if_pos ⟨hmoves, hne⟩, Disk.read_erase, if_pos rfl]

theorem read_rotate {shell : LogShell} {path : String}
    (hmoves : shell.moves path (path ++ ".bak") = true) (disk : Disk) :
    (rotate shell path disk).read path = none :=
  read_move hmoves (append_ne_self path (by decide)).symm _

/-- Truncation begins the account anew, with a new file. -/
theorem inv_truncateFile {s : LogFile} {shell : LogShell} (hopen : s.isOpen = true)
    (hmoves : shell.moves s.m_strFilePath (s.m_strFilePath ++ ".bak") = true) :
    (s.truncateFile shell).Inv ∧ (s.truncateFile shell).There ∧
      (s.truncateFile shell).m_atomicFileSize = 0 := by
  have hpath := (sameSettings_moveAway shell s).path
  have hclosed : ((s.moveAway shell).setCount 0).m_of = none := by
    unfold moveAway
    rw [if_pos hopen]
    rfl
  have hgone : (s.moveAway shell).disk.read s.m_strFilePath = none := by
    unfold moveAway
    rw [if_pos hopen]
    exact read_rotate hmoves _
  have hcount : 0 = sizeOf (s.moveAway shell).m_strFilePath (s.moveAway shell).disk := by
    unfold sizeOf
    rw [hpath, hgone]
    rfl
  have hinv := inv_openAt hclosed hcount
  have hthere := there_openAt hclosed
  change Inv (LogFile.openAt (s.moveAway shell).m_strFilePath _) at hinv
  change There (LogFile.openAt (s.moveAway shell).m_strFilePath _) at hthere
  rw [hpath] at hinv hthere
  unfold truncateFile
  refine ⟨inv_logStatus hinv shell, there_logStatus hthere shell, ?_⟩
  obtain ⟨disk, heq, _⟩ := logStatus_eq shell
    (((s.moveAway shell).setCount 0).openAt s.m_strFilePath)
  rw [heq, openAt_of_closed hclosed]
  rfl

/-! ## Lines -/

/-- The state in which a line has been written to the open file. -/
def written (s : LogFile) (line : LogText) : LogFile :=
  (s.setCount ((s.m_atomicFileSize + line.text.length) % 2 ^ 64)).writeLine line.text

theorem written_eq {s : LogFile} (h : s.Inv) {line : LogText}
    (hfits : s.m_atomicFileSize + line.text.length < 2 ^ 64) :
    ∃ disk, s.written line = { s with
        m_atomicFileSize := s.m_atomicFileSize + line.text.length
        disk := disk
        lineBytes := s.lineBytes + line.text.length } ∧
      (s.There → (disk.read s.m_strFilePath).isSome = true ∧
        sizeOf s.m_strFilePath disk = sizeOf s.m_strFilePath s.disk + line.text.length) := by
  unfold written writeLine
  rw [Nat.mod_eq_of_lt hfits]
  have hstream : (s.setCount (s.m_atomicFileSize + line.text.length)).m_of =
      some ⟨s.m_strFilePath, true⟩ := h.stream
  rw [hstream]
  unfold write
  dsimp only
  rw [hstream]
  dsimp only
  unfold There sizeOf
  cases hread : (s.setCount (s.m_atomicFileSize + line.text.length)).disk.read
      s.m_strFilePath with
  | none =>
    refine ⟨s.disk, rfl, fun hthere => ?_⟩
    rw [show s.disk.read s.m_strFilePath = none from hread] at hthere
    cases hthere
  | some old =>
    refine ⟨s.disk.write s.m_strFilePath (old ++ line.text), rfl, fun _ => ?_⟩
    rw [Disk.read_write, if_pos rfl, show s.disk.read s.m_strFilePath = some old from hread]
    exact ⟨rfl, List.length_append⟩

theorem inv_written {s : LogFile} (h : s.Inv) {line : LogText}
    (hfits : s.m_atomicFileSize + line.text.length < 2 ^ 64) : (s.written line).Inv := by
  obtain ⟨disk, heq, _⟩ := written_eq h hfits
  rw [heq]
  refine ⟨h.stream, ?_⟩
  show s.m_atomicFileSize + line.text.length = s.openedSize + (s.lineBytes + line.text.length)
  rw [h.count, Nat.add_assoc]

/-- A line is written, and truncates the file if that is too long. -/
theorem truncateIfRequired_written {s : LogFile} (h : s.Inv) {line : LogText}
    (hfits : s.m_atomicFileSize + line.text.length < 2 ^ 64) :
    (s.written line).truncateIfRequired line.shell =
      if s.Truncates line then (s.written line).truncateFile line.shell else s.written line := by
  unfold truncateIfRequired
  refine if_congr ?_ rfl rfl
  obtain ⟨disk, heq, _⟩ := written_eq h hfits
  rw [heq]
  exact Iff.rfl

theorem inv_truncated {s : LogFile} (h : s.Inv) {line : LogText} (hfits : s.Fits line)
    (htruncates : s.Truncates line) :
    ((s.written line).truncateFile line.shell).Inv ∧
      ((s.written line).truncateFile line.shell).There ∧
      ((s.written line).truncateFile line.shell).m_atomicFileSize = 0 := by
  have hpath : (s.written line).m_strFilePath = s.m_strFilePath :=
    (sameSettings_writeLine line.text _).path
  refine inv_truncateFile (inv_written h hfits.1).isOpen ?_
  rw [hpath]
  exact hfits.2 htruncates

theorem inv_logged {s : LogFile} (h : s.Inv) {line : LogText} (hfits : s.Fits line) :
    ((s.written line).truncateIfRequired line.shell).Inv := by
  rw [truncateIfRequired_written h hfits.1]
  split
  · exact (inv_truncated h hfits ‹_›).1
  · exact inv_written h hfits.1

theorem inv_hcplog {s : LogFile} (h : s.Inv) {eLevel : LogLevel} {line : LogText}
    (hok : s.LineOk eLevel line) : (s.hcplog eLevel line).Inv := by
  unfold hcplog logLine
  split
  · exact h
  · split
    · rename_i _ hlogs
      dsimp only
      rw [if_neg fun hlast => Bool.false_ne_true hlast.1]
      exact inv_logged h (hok hlogs.1)
    · exact h

theorem inv_hcplogs {s : LogFile} (h : s.Inv) {lines : List (LogLevel × LogText)}
    (hok : s.LinesOk lines) : (s.hcplogs lines).Inv :=
  Lib.exec_inv (fun _ _ _ hs hline hnext => Option.some.inj hnext ▸ inv_hcplog hs hline) lines s _
    h hok (Lib.exec_some s lines)

/-! ## Uploads -/

/-- The marker closes the stream. -/
theorem logMarker_of_logs {call : UploadCall} {s : LogFile} (h : s.Inv) (hlogs : s.Logs .info)
    (hfits : s.Fits call.markerLine) :
    s.logMarker call =
      ((s.written call.markerLine).truncateIfRequired call.markerLine.shell).close := by
  unfold logMarker logLine
  rw [if_pos h.isOpen, if_pos ⟨hlogs, h.isOpen⟩]
  exact if_pos ⟨rfl, (inv_logged h hfits).isOpen⟩

/-- Below the level of the marker it is not written. -/
theorem logMarker_of_not_logs {call : UploadCall} {s : LogFile} (hlogs : ¬s.Logs .info) :
    s.logMarker call = s := by
  unfold logMarker logLine
  split
  · exact if_neg fun h => hlogs h.1
  · rfl

theorem compressed_fst (call : UploadCall) (path : String) (disk : Disk) :
    (call.compressed path disk).1 = ((disk.read path).isSome && call.compresses) := by
  unfold UploadCall.compressed FileUtils.compress UploadCall.compresses
  cases (disk.read path).isSome <;> cases call.faults.opensSource <;>
    cases call.faults.opensTarget <;> cases call.faults.starts <;> cases call.faults.ends <;> rfl

/-- The log file as `upload` finds it when it opens it again. -/
def leftBehind (call : UploadCall) (path : String) (disk : Disk) : Disk :=
  if call.rbCompress then
    FileUtils.remove call.shell.unremovable path (call.compressed path disk).2
  else (move call.shell.moves path call.strUploadPath disk).2

theorem upload_of_closed {call : UploadCall} {s : LogFile} (hclosed : s.m_of = none)
    (hthere : s.There) (hends : call.rbCompress = true → call.compresses = true) :
    (s.upload call s.m_strFilePath).2 =
      (((s.setDisk (leftBehind call s.m_strFilePath s.disk)).openAt
        s.m_strFilePath).logStatus call.shell) := by
  unfold upload leftBehind
  cases hcompress : call.rbCompress with
  | true =>
    have hdone := compressed_fst call s.m_strFilePath s.disk
    rw [hends hcompress, hthere] at hdone
    rw [if_pos rfl, if_pos rfl]
    dsimp only
    rw [hdone, if_pos (by rfl), hcplogs_of_closed (by exact hclosed)]
    rfl
  | false => rfl

theorem sizeOf_leftBehind_of_gone {call : UploadCall} {path : String} (h : call.Gone path)
    (disk : Disk) : sizeOf path (leftBehind call path disk) = 0 := by
  have hnone : (leftBehind call path disk).read path = none := by
    unfold leftBehind
    rcases h with ⟨hcompress, _, hremovable⟩ | ⟨hcompress, hmoves, hne⟩
    · rw [if_pos hcompress, FileUtils.read_remove, if_pos ⟨rfl, hremovable⟩]
    · rw [if_neg (by simp [hcompress])]
      exact read_move hmoves hne disk
  unfold sizeOf
  rw [hnone]
  rfl

theorem sizeOf_leftBehind_of_stays {call : UploadCall} {path : String} (h : call.Stays path)
    (disk : Disk) : sizeOf path (leftBehind call path disk) = sizeOf path disk := by
  have hsame : (leftBehind call path disk).read path = disk.read path := by
    unfold leftBehind
    rcases h with ⟨hcompress, _, hunremovable, hne⟩ | ⟨hcompress, hmoves⟩
    · rw [if_pos hcompress, FileUtils.read_remove, if_neg (by simp [hunremovable]),
        show (call.compressed path disk).2.read path = _ from
          FileUtils.read_compress_of_ne hne _ _ _ _ _]
    · rw [if_neg (by simp [hcompress])]
      unfold move
      cases hread : disk.read path with
      | none => exact hread
      | some content =>
        dsimp only
        rw [if_neg hmoves]
        exact hread
  unfold sizeOf
  rw [hsame]

/-- Behind a marker that has closed the stream. -/
theorem inv_upload_of_closed {call : UploadCall} {s : LogFile} (hclosed : s.m_of = none)
    (hthere : s.There)
    (hok : (call.Gone s.m_strFilePath ∧ s.m_atomicFileSize = 0) ∨
      (call.Stays s.m_strFilePath ∧ s.m_atomicFileSize = sizeOf s.m_strFilePath s.disk)) :
    (s.upload call s.m_strFilePath).2.Inv := by
  have hends : call.rbCompress = true → call.compresses = true := by
    intro hcompress
    rcases hok with ⟨hgone, _⟩ | ⟨hstays, _⟩
    · rcases hgone with hgone | hgone
      · exact hgone.2.1
      · exact absurd hcompress (by simp [hgone.1])
    · rcases hstays with hstays | hstays
      · exact hstays.2.1
      · exact absurd hcompress (by simp [hstays.1])
  have hcount : s.m_atomicFileSize =
      sizeOf s.m_strFilePath (leftBehind call s.m_strFilePath s.disk) := by
    rcases hok with ⟨hgone, hzero⟩ | ⟨hstays, hsize⟩
    · rw [sizeOf_leftBehind_of_gone hgone, hzero]
    · rw [sizeOf_leftBehind_of_stays hstays, hsize]
  rw [upload_of_closed hclosed hthere hends]
  exact inv_logStatus
    (@inv_openAt (s.setDisk (leftBehind call s.m_strFilePath s.disk)) hclosed hcount) call.shell

theorem inv_upload {call : UploadCall} {s : LogFile} (h : s.Inv) (hthere : s.There)
    (hok : s.UploadOk call) : ((s.logMarker call).upload call s.m_strFilePath).2.Inv := by
  rcases hok with ⟨hlogs, hfits, hcase⟩ | ⟨hlogs, hcompress, hfails, hlines⟩
  · rw [logMarker_of_logs h hlogs hfits, truncateIfRequired_written h hfits.1]
    rcases hcase with ⟨hshort, hcounted, hstays⟩ | ⟨htruncates, hgone⟩
    · -- the file stays, with the marker in it
      rw [if_neg hshort]
      obtain ⟨disk, heq, hsize⟩ := written_eq h hfits.1
      rw [heq]
      obtain ⟨hread, hsize⟩ := hsize hthere
      refine @inv_upload_of_closed call (LogFile.close { s with
        m_atomicFileSize := s.m_atomicFileSize + call.markerLine.text.length
        disk := disk
        lineBytes := s.lineBytes + call.markerLine.text.length }) rfl hread
        (Or.inr ⟨hstays, ?_⟩)
      show s.m_atomicFileSize + _ = sizeOf s.m_strFilePath disk
      rw [hsize, hcounted]
    · -- the marker has truncated the file: nothing is counted
      rw [if_pos htruncates]
      have hpath : ((s.written call.markerLine).truncateFile
          call.markerLine.shell).m_strFilePath = s.m_strFilePath :=
        (sameSettings_truncateFile call.markerLine.shell _).path.trans
          (sameSettings_writeLine call.markerLine.text _).path
      obtain ⟨_, hnew, hzero⟩ := inv_truncated h hfits htruncates
      generalize (s.written call.markerLine).truncateFile call.markerLine.shell = t at *
      rw [← hpath]
      refine @inv_upload_of_closed call t.close rfl hnew (Or.inl ⟨?_, hzero⟩)
      show call.Gone t.m_strFilePath
      rw [hpath]
      exact hgone
  · -- the stream is still open, and the file is not opened again
    rw [logMarker_of_not_logs hlogs]
    have hfailed := compressed_fst call s.m_strFilePath s.disk
    rw [hfails, Bool.and_false] at hfailed
    have hdisk : (s.setDisk (call.compressed s.m_strFilePath s.disk).2).Inv := ⟨h.stream, h.count⟩
    unfold upload
    rw [if_pos hcompress]
    dsimp only
    rw [hfailed, if_neg Bool.false_ne_true]
    exact inv_hcplogs hdisk hlines

theorem inv_moveToUpload {call : UploadCall} {s : LogFile} (h : s.Inv) (hok : s.MoveOk call) :
    (s.moveToUpload call s.m_strFilePath).2.Inv := by
  have hpath := (sameSettings_hcplog .trace call.existsLine s).path
  have hinv := inv_hcplog h hok.1
  unfold moveToUpload
  dsimp only
  rw [← hpath]
  rcases hok.2 with ⟨hthere, hupload⟩ | ⟨habsent, hline⟩
  · rw [if_pos (by exact hthere)]
    exact inv_upload hinv hthere hupload
  · rw [if_neg (by exact habsent)]
    exact inv_hcplog hinv hline

/-! ## Paths -/

theorem closed_prepare {call : PathCall} (hpath : call.rstrPath ≠ "") (nTruncateFileSize : ℤ)
    (s : LogFile) : (s.prepare call nTruncateFileSize).m_of = none := by
  unfold prepare
  dsimp only
  rw [if_pos hpath]
  rfl

theorem path_prepare (call : PathCall) (nTruncateFileSize : ℤ) (s : LogFile) :
    (s.prepare call nTruncateFileSize).m_strFilePath = call.rstrPath := by
  unfold prepare
  dsimp only
  split
  · exact (sameSettings_makeParentDir call _).path
  · rfl

/-- A size below 2^31 comes through `GetSize`. -/
theorem getSize_of_sized {path : String} {disk : Disk} (h : Sized path disk) :
    (FileUtils.getSize path disk % 2 ^ 64).toNat = sizeOf path disk := by
  obtain ⟨hthere, hlt⟩ := h
  unfold sizeOf at hlt ⊢
  unfold FileUtils.getSize
  obtain ⟨content, hread⟩ := Option.isSome_iff_exists.1 hthere
  rw [hread, Option.getD_some] at hlt
  rw [hread, Option.getD_some]
  dsimp only
  rw [Lib.toInt32_of_fits (by omega) (by exact_mod_cast hlt)]
  omega

/-- The path is set, and the file is opened with its size. -/
theorem inv_setFileOutputPath {call : PathCall} {nTruncateFileSize : ℤ} {s : LogFile}
    (h : s.PathOk call nTruncateFileSize) : (s.setFileOutputPath call nTruncateFileSize).Inv := by
  obtain ⟨hne, hsized⟩ := h
  have hpath := path_prepare call nTruncateFileSize s
  have hclosed := closed_prepare hne nTruncateFileSize s
  unfold setFileOutputPath
  dsimp only
  rw [if_pos hne, getSize_of_sized hsized]
  generalize s.prepare call nTruncateFileSize = t at *
  rw [← hpath]
  exact @inv_openAt (t.setCount _) hclosed rfl

theorem inv_updateFilePath {call : PathCall} {s : LogFile} (h : s.Inv) (hok : s.UpdateOk call) :
    (s.updateFilePath call).2.Inv := by
  unfold updateFilePath
  rcases hok with ⟨hnew, hsized⟩ | ⟨hold, hline⟩
  · rw [if_pos (by exact hnew)]
    refine inv_setFileOutputPath ⟨hnew.1, ?_⟩
    have hsame : ((s.movedLog call).prepare call
        (Lib.toInt32 (s.movedLog call).m_ulTruncateFileSize)).disk = (s.movedLog call).disk := by
      unfold prepare
      dsimp only
      rw [if_pos hnew.1, makeParentDir_of_closed rfl]
      rfl
    rw [hsame]
    exact hsized
  · rw [if_neg (by exact hold)]
    exact inv_hcplog h hline

/-! ## Runs -/

theorem inv_step {s : LogFile} (h : s.Inv) {op : LogOp} (hok : s.OpOk op) : (s.step op).Inv := by
  cases op with
  | log eLevel line => exact inv_hcplog h hok
  | moveToUpload call => exact inv_moveToUpload h hok
  | updateFilePath call => exact inv_updateFilePath h hok

/-- From where `SetFileOutputPath` has opened a file, in every run of such calls the stream is
open and the count is right. -/
theorem accounted_of_run {s t : LogFile} {call : PathCall} {nTruncateFileSize : ℤ}
    (hstart : s.PathOk call nTruncateFileSize) {ops : List LogOp}
    (hok : Lib.Along next OpOk (s.setFileOutputPath call nTruncateFileSize) ops)
    (hrun : Lib.exec next (s.setFileOutputPath call nTruncateFileSize) ops = some t) :
    t.Accounted := by
  have hinv : t.Inv :=
    Lib.exec_inv (fun _ _ _ hs hop hnext => Option.some.inj hnext ▸ inv_step hs hop) ops _ t
      (inv_setFileOutputPath hstart) hok hrun
  exact hinv.accounted

def asciiContent (text : String) : Content := text.toList.map Char.toUInt8

def quietShell : LogShell := ⟨fun _ _ => true, fun _ => false, asciiContent "****"⟩

def logText (text : String) : LogText := ⟨asciiContent text, quietShell⟩

def pathCall (rstrPath : String) : PathCall :=
  ⟨rstrPath, true, logText "E", logText "M", logText "C", logText "R", quietShell⟩

/-- Nothing is open; there is a log file of three bytes. -/
def beforeLogging : LogFile :=
  ⟨.info, true, 0, "", 0, none, ⟨[("/log/ic.log", asciiContent "old")]⟩, 0, 0⟩

/-- Lines, one of which truncates the file, and a new path. -/
def loggedRun : List LogOp :=
  [.log .info (logText "a line\n"), .log .debug (logText "not written\n"),
    .log .error (logText "a second line\n"), .updateFilePath (pathCall "/log/new.log"),
    .log .info (logText "more\n")]

theorem accounted_of_run_lines :
    ∃ t, Lib.exec next (beforeLogging.setFileOutputPath (pathCall "/log/ic.log") 20) loggedRun =
        some t ∧ t.m_atomicFileSize = 10 ∧ t.Accounted := by
  have hstart : beforeLogging.PathOk (pathCall "/log/ic.log") 20 := by decide +kernel
  have hok : Lib.Along next OpOk (beforeLogging.setFileOutputPath (pathCall "/log/ic.log") 20)
      loggedRun := by decide +kernel
  have hend : (Lib.exec next (beforeLogging.setFileOutputPath (pathCall "/log/ic.log") 20)
      loggedRun).map m_atomicFileSize = some 10 := by decide +kernel
  obtain ⟨t, hrun, hcount⟩ := Option.map_eq_some_iff.1 hend
  exact ⟨t, hrun, hcount, accounted_of_run hstart hok hrun⟩

def uploadCall (rbCompress ends : Bool) : UploadCall :=
  ⟨"/up/ic.log", rbCompress, logText "E", logText "R", logText "Log moving\n", [],
    fun content => content, ⟨true, true, true, ends, none⟩, quietShell⟩

/-- A failed compression leaves the stream closed; a move leaves the old count; and the size of
a file that is not there is read as -1. -/
theorem not_accounted :
    ¬((beforeLogging.setFileOutputPath (pathCall "/log/ic.log") 100).step
        (.moveToUpload (uploadCall true false))).Accounted ∧
      ¬((beforeLogging.setFileOutputPath (pathCall "/log/ic.log") 100).step
        (.moveToUpload (uploadCall false true))).Accounted ∧
      ¬(beforeLogging.setFileOutputPath (pathCall "/log/none.log") 100).Accounted := by
  refine ⟨?_, ?_, ?_⟩ <;> decide +kernel

end LogFile

end DeviceClient
