import DeviceClient.Lib.Int32
import DeviceClient.Lib.KeyedList
import Mathlib.Data.String.Basic

/-!
# Files

`CIgniteFileUtils` on a disk, which is the list of its files: copy, compress, remove, size
and listing. What can go wrong in a call is an argument of it, since the code does not
look at all of it: a copy counts as done when both files could be opened.

* `read_copy`, `read_copy_of_ne`: the files after a copy.
* `read_compress_of_ne`: compressing changes its target only.
-/

namespace DeviceClient

/-- The bytes of a file. -/
abbrev Content := List UInt8

/-- The files, by their paths. -/
structure Disk where
  files : List (String × Content)

namespace Disk

def read (disk : Disk) (path : String) : Option Content := disk.files.lookup path

def write (disk : Disk) (path : String) (content : Content) : Disk :=
  ⟨Lib.setKey path content disk.files⟩

def erase (disk : Disk) (path : String) : Disk := ⟨Lib.eraseKey path disk.files⟩

theorem read_write (disk : Disk) (path : String) (content : Content) (p : String) :
    (disk.write path content).read p = if p = path then some content else disk.read p :=
  Lib.lookup_setKey path content disk.files p

theorem read_erase (disk : Disk) (path p : String) :
    (disk.erase path).read p = if p = path then none else disk.read p :=
  Lib.lookup_eraseKey path disk.files p

theorem read_write_of_ne {path p : String} (h : p ≠ path) (disk : Disk) (content : Content) :
    (disk.write path content).read p = disk.read p := by
  rw [read_write, if_neg h]

end Disk

namespace FileUtils

/-- The bytes that reach the disk: all, or the first of them. -/
def written (limit : Option ℕ) (content : Content) : Content :=
  match limit with
  | none => content
  | some n => content.take n

/-! ## Copy -/

/-- How a copy goes: which of the files can be opened, and how much is written. -/
structure CopyFaults where
  opensSource : Bool
  opensTarget : Bool
  limit : Option ℕ

/-- `Copy`. Opening the target empties it, and what `<<` does is not looked at. -/
def copy (faults : CopyFaults) (rstrFrom rstrTo : String) (disk : Disk) : ℤ × Disk :=
  let disk' := if faults.opensTarget then disk.write rstrTo [] else disk
  if (faults.opensSource && (disk.read rstrFrom).isSome) && faults.opensTarget then
    (0, disk'.write rstrTo (written faults.limit ((disk'.read rstrFrom).getD [])))
  else (-1, disk')

/-- What a copy leaves at its target. -/
def copied (faults : CopyFaults) (rstrFrom rstrTo : String) (disk : Disk) : Option Content :=
  if faults.opensTarget then
    match disk.read rstrFrom with
    | none => some []
    | some content =>
      if faults.opensSource ∧ rstrFrom ≠ rstrTo then some (written faults.limit content)
      else some []
  else disk.read rstrTo

theorem written_nil (limit : Option ℕ) : written limit [] = [] := by
  cases limit with
  | none => rfl
  | some n => exact List.take_nil

theorem read_copy (faults : CopyFaults) (rstrFrom rstrTo : String) (disk : Disk) :
    (copy faults rstrFrom rstrTo disk).2.read rstrTo = copied faults rstrFrom rstrTo disk := by
  unfold copy copied
  cases faults.opensTarget with
  | false => simp
  | true =>
    cases hread : disk.read rstrFrom with
    | none => simp [Disk.read_write]
    | some content =>
      cases faults.opensSource with
      | false => simp [Disk.read_write]
      | true =>
        by_cases hsame : rstrFrom = rstrTo
        · simp [Disk.read_write, hsame, written_nil]
        · simp [Disk.read_write, hsame, hread]

theorem read_copy_of_ne {rstrTo p : String} (h : p ≠ rstrTo) (faults : CopyFaults)
    (rstrFrom : String) (disk : Disk) :
    (copy faults rstrFrom rstrTo disk).2.read p = disk.read p := by
  unfold copy
  cases faults.opensTarget with
  | false => simp
  | true =>
    dsimp only
    split <;> simp only [if_true, Disk.read_write_of_ne h]

/-- A file that was there is there after a copy. -/
theorem isSome_read_copy {p : String} {disk : Disk} (h : (disk.read p).isSome = true)
    (faults : CopyFaults) (rstrFrom rstrTo : String) :
    ((copy faults rstrFrom rstrTo disk).2.read p).isSome = true := by
  by_cases hp : p = rstrTo
  · rw [hp, read_copy]
    rw [hp] at h
    unfold copied
    split
    · split
      · rfl
      · split <;> rfl
    · exact h
  · rw [read_copy_of_ne hp]
    exact h

/-! ## Remove, sizes, listings -/

/-- `Remove`; some files cannot be removed. -/
def remove (unremovable : String → Bool) (rstrFilename : String) (disk : Disk) : Disk :=
  if unremovable rstrFilename then disk else disk.erase rstrFilename

theorem read_remove (unremovable : String → Bool) (rstrFilename p : String) (disk : Disk) :
    (remove unremovable rstrFilename disk).read p =
      if p = rstrFilename ∧ unremovable rstrFilename = false then none else disk.read p := by
  unfold remove
  cases unremovable rstrFilename with
  | true => simp
  | false =>
    rw [if_neg Bool.false_ne_true, Disk.read_erase]
    simp

/-- `Exists`. -/
def fileExists (rstrFilename : String) (disk : Disk) : Bool := (disk.read rstrFilename).isSome

/-- `GetSize`, in a variable of 32 bits. -/
def getSize (rstrFilename : String) (disk : Disk) : ℤ :=
  match disk.read rstrFilename with
  | none => -1
  | some content => Lib.toInt32 content.length

/-- The name of a file of the directory that `ListFiles` returns: none that begins with a
dot. -/
def listedName (rstrDirName path : String) : Option String :=
  let dir := rstrDirName.toList ++ ['/']
  let name := path.toList.drop dir.length
  if dir.isPrefixOf path.toList && !name.contains '/' && name.head? != some '.' then
    some (String.ofList name)
  else none

/-- `ListFiles`. -/
def listFiles (rstrDirName : String) (disk : Disk) : List String :=
  disk.files.filterMap fun file => listedName rstrDirName file.1

/-! ## Compress -/

/-- How compressing goes: which of the files can be opened, whether the library can be
started and gets to its end, and how much is written. -/
structure CompressFaults where
  opensSource : Bool
  opensTarget : Bool
  starts : Bool
  ends : Bool
  limit : Option ℕ

/-- `Compress`: whether it returns `Z_OK`. `gzip` is what the library makes of a file. -/
def compress (gzip : Content → Content) (unremovable : String → Bool) (faults : CompressFaults)
    (rstrSrcPath rstrDestPath : String) (disk : Disk) : Bool × Disk :=
  if !((disk.read rstrSrcPath).isSome && faults.opensSource) then (false, disk)
  else if !faults.opensTarget then (false, disk)
  else
    let disk' := disk.write rstrDestPath []
    if !faults.starts then (false, disk')
    else if faults.ends then
      (true, disk'.write rstrDestPath
        (written faults.limit (gzip ((disk'.read rstrSrcPath).getD []))))
    else (false, remove unremovable rstrDestPath disk')

theorem read_compress_of_ne {rstrDestPath p : String} (h : p ≠ rstrDestPath)
    (gzip : Content → Content) (unremovable : String → Bool) (faults : CompressFaults)
    (rstrSrcPath : String) (disk : Disk) :
    (compress gzip unremovable faults rstrSrcPath rstrDestPath disk).2.read p = disk.read p := by
  unfold compress
  split
  · rfl
  · split
    · rfl
    · dsimp only
      split
      · rw [Disk.read_write_of_ne h]
      · split
        · simp only [Disk.read_write_of_ne h]
        · rw [read_remove, if_neg fun hp => h hp.1, Disk.read_write_of_ne h]

end FileUtils

end DeviceClient
