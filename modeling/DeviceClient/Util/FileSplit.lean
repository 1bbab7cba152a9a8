import DeviceClient.Lib.Chunks
import DeviceClient.Lib.Decimal
import DeviceClient.Util.FileOperations
import Mathlib.Algebra.Order.BigOperators.Group.List
import Mathlib.Algebra.Order.Ring.Int

/-!
# Splitting a file

`CIgniteFileUtils::Split` writes the chunks of a file to files of their own. The size comes
from `GetSize`, an `int`, and is divided by the size of a chunk in unsigned arithmetic of 64
bits; the number of chunks is an `int` again. Files can be opened, read and written.

* `splitLoop_spec`: what the loop writes.
* `sum_chunkSizes_iff`: when the chunks add up to the file.
* `splitsFile_iff`: when a file is split right.
-/

namespace DeviceClient

namespace FileUtils

open Lib (toInt32)

/-! ## The code -/

/-- A `long long` as `size_t`. -/
def asSize (n : ℤ) : ℕ := (n % 2 ^ 64).toNat

/-- The greatest size of a `std::vector<char>`; the constructor throws behind it. -/
def MAX_VECTOR_SIZE : ℕ := 2 ^ 63 - 1

/-- The number of chunks. -/
def nNoOfChunks (nTotalFileSize : ℤ) (nChunkSize : ℕ) : ℤ :=
  if asSize nTotalFileSize % nChunkSize ≠ 0 then
    toInt32 (toInt32 (asSize nTotalFileSize / nChunkSize : ℕ) + 1)
  else toInt32 (asSize nTotalFileSize / nChunkSize : ℕ)

def nSizeOfLastChunk (nTotalFileSize : ℤ) (nChunkSize : ℕ) : ℕ :=
  if asSize nTotalFileSize % nChunkSize ≠ 0 then asSize nTotalFileSize % nChunkSize
  else nChunkSize

def nCurrentChunkSize (nTotalFileSize : ℤ) (nChunkSize nChunk : ℕ) : ℕ :=
  if (nChunk : ℤ) = nNoOfChunks nTotalFileSize nChunkSize - 1 then
    nSizeOfLastChunk nTotalFileSize nChunkSize
  else nChunkSize

def strOutFileName (rstrFile : String) (nChunk : ℕ) : String :=
  rstrFile ++ "." ++ toString (nChunk + 1)

/-- The variables of the loop. -/
structure SplitState where
  fileInStream : Content
  disk : Disk
  rvectorFileList : List String

/-- The body of the loop; `none` is an exception. -/
def splitChunk (rstrFile : String) (nSize nChunk : ℕ) (s : SplitState) : Option SplitState :=
  if nSize ≤ MAX_VECTOR_SIZE then
    some {
      fileInStream := s.fileInStream.drop nSize
      disk := s.disk.write (strOutFileName rstrFile nChunk) (Lib.fill 0 nSize s.fileInStream)
      rvectorFileList := s.rvectorFileList ++ [strOutFileName rstrFile nChunk] }
  else none

/-- The loop from `nChunk` on, with the given number of turns. -/
def splitLoop (rstrFile : String) (nTotalFileSize : ℤ) (nChunkSize : ℕ) :
    ℕ → ℕ → SplitState → Option SplitState
  | 0, _, s => some s
  | turns + 1, nChunk, s =>
    (splitChunk rstrFile (nCurrentChunkSize nTotalFileSize nChunkSize nChunk) nChunk s).bind
      (splitLoop rstrFile nTotalFileSize nChunkSize turns (nChunk + 1))

/-- `Split`. -/
def split (rstrFile : String) (nChunkSize : ℕ) (rvectorFileList : List String) (disk : Disk) :
    Option (Bool × Disk × List String) :=
  match disk.read rstrFile with
  | none => some (false, disk, rvectorFileList)
  | some content =>
    (splitLoop rstrFile (getSize rstrFile disk) nChunkSize
        (nNoOfChunks (getSize rstrFile disk) nChunkSize).toNat 0
        ⟨content, disk, rvectorFileList⟩).map fun s => (true, s.disk, s.rvectorFileList)

/-- The chunks are the content in order: all but the last have the size of a chunk, and the
last is neither empty nor longer. -/
structure SplitsInto (content : Content) (nChunkSize : ℕ) (chunks : List Content) : Prop where
  concat : chunks.flatten = content
  full : ∀ chunk ∈ chunks.dropLast, chunk.length = nChunkSize
  last : ∀ chunk, chunks.getLast? = some chunk → 1 ≤ chunk.length ∧ chunk.length ≤ nChunkSize
  empty : content = [] → chunks = []

/-- If the call returns true, the files that it lists hold the chunks of the file. -/
def SplitsFile (rstrFile : String) (nChunkSize : ℕ) (rvectorFileList : List String) (disk : Disk)
    (content : Content) : Prop :=
  ∀ disk' files, split rstrFile nChunkSize rvectorFileList disk = some (true, disk', files) →
    ∃ listed chunks, files = rvectorFileList ++ listed ∧
      listed.map disk'.read = chunks.map some ∧ SplitsInto content nChunkSize chunks

/-- The length is one of an `int`. Or it comes as a negative one, so that what is divided is too
great by a multiple of `2 ^ 32`: then no vector has the size of a chunk, or the number of chunks
is one of an `int` and the factor is a multiple of the size of a chunk. -/
def SizeFits (nLength nChunkSize : ℕ) : Prop :=
  nLength < 2 ^ 31 ∨
    2 ^ 31 ≤ nLength % 2 ^ 32 ∧
      (2 ^ 63 ≤ nChunkSize ∨
        nLength ≤ (2 ^ 31 - 1) * nChunkSize ∧
          ∃ k, k * nChunkSize + (nLength / 2 ^ 32 + 1) = 2 ^ 32)

/-! ## The files -/

theorem strOutFileName_injective {rstrFile : String} {m n : ℕ}
    (h : strOutFileName rstrFile m = strOutFileName rstrFile n) : m = n := by
  unfold strOutFileName at h
  have hnumber : m + 1 = n + 1 := Lib.toString_injective ((String.append_right_inj _).1 h)
  omega

/-- The sizes of the chunks from one on. -/
def chunkSizes (nTotalFileSize : ℤ) (nChunkSize nChunk turns : ℕ) : List ℕ :=
  (List.range' nChunk turns).map (nCurrentChunkSize nTotalFileSize nChunkSize)

def chunkNames (rstrFile : String) (nChunk turns : ℕ) : List String :=
  (List.range' nChunk turns).map (strOutFileName rstrFile)

theorem chunkSizes_succ (nTotalFileSize : ℤ) (nChunkSize nChunk turns : ℕ) :
    chunkSizes nTotalFileSize nChunkSize nChunk (turns + 1) =
      nCurrentChunkSize nTotalFileSize nChunkSize nChunk ::
        chunkSizes nTotalFileSize nChunkSize (nChunk + 1) turns := rfl

theorem chunkNames_succ (rstrFile : String) (nChunk turns : ℕ) :
    chunkNames rstrFile nChunk (turns + 1) =
      strOutFileName rstrFile nChunk :: chunkNames rstrFile (nChunk + 1) turns := rfl

/-- The files behind a chunk have other names. -/
theorem strOutFileName_notMem (rstrFile : String) (nChunk turns : ℕ) :
    strOutFileName rstrFile nChunk ∉ chunkNames rstrFile (nChunk + 1) turns := by
  unfold chunkNames
  rw [List.mem_map]
  rintro ⟨n, hmem, heq⟩
  have hlow := (List.mem_range'_1.1 hmem).1
  have hsame := strOutFileName_injective heq
  omega

/-- What the loop leaves behind it. -/
structure Written (rstrFile : String) (nChunk turns : ℕ) (sizes : List ℕ) (s t : SplitState) :
    Prop where
  list : t.rvectorFileList = s.rvectorFileList ++ chunkNames rstrFile nChunk turns
  chunks : (chunkNames rstrFile nChunk turns).map t.disk.read =
    (Lib.fillAll 0 sizes s.fileInStream).map some
  others : ∀ path, path ∉ chunkNames rstrFile nChunk turns → t.disk.read path = s.disk.read path

theorem splitLoop_spec (rstrFile : String) (nTotalFileSize : ℤ) (nChunkSize turns : ℕ)
    {nChunk : ℕ} {s : SplitState}
    (hsizes : ∀ size ∈ chunkSizes nTotalFileSize nChunkSize nChunk turns, size ≤ MAX_VECTOR_SIZE) :
    ∃ t, splitLoop rstrFile nTotalFileSize nChunkSize turns nChunk s = some t ∧
      Written rstrFile nChunk turns (chunkSizes nTotalFileSize nChunkSize nChunk turns) s t := by
  induction turns generalizing nChunk s with
  | zero => exact ⟨s, rfl, (List.append_nil _).symm, rfl, fun _ _ => rfl⟩
  | succ turns ih =>
    rw [chunkSizes_succ] at hsizes ⊢
    obtain ⟨hsize, hrest⟩ := List.forall_mem_cons.1 hsizes
    generalize hn : nCurrentChunkSize nTotalFileSize nChunkSize nChunk = nSize at hsize ⊢
    obtain ⟨t, hloop, hlist, hchunks, hothers⟩ := @ih (nChunk + 1)
      { fileInStream := s.fileInStream.drop nSize
        disk := s.disk.write (strOutFileName rstrFile nChunk) (Lib.fill 0 nSize s.fileInStream)
        rvectorFileList := s.rvectorFileList ++ [strOutFileName rstrFile nChunk] } hrest
    refine ⟨t, ?_, ?_, ?_, fun path hpath => ?_⟩
    · rw [splitLoop, hn, splitChunk, if_pos hsize, Option.bind_some]
      exact hloop
    · rw [hlist, chunkNames_succ, List.append_assoc]
      rfl
    · -- the files behind this one do not change it
      have hkept := hothers _ (strOutFileName_notMem rstrFile nChunk turns)
      rw [Disk.read_write, if_pos rfl] at hkept
      rw [chunkNames_succ, List.map_cons, hkept, hchunks]
      rfl
    · rw [chunkNames_succ, List.mem_cons, not_or] at hpath
      rw [hothers path hpath.2, Disk.read_write_of_ne hpath.1]

/-- A chunk that is too great ends the loop. -/
theorem splitLoop_eq_none (rstrFile : String) (nTotalFileSize : ℤ) (nChunkSize turns : ℕ)
    {nChunk : ℕ} {s : SplitState}
    (hgreat : ∃ size ∈ chunkSizes nTotalFileSize nChunkSize nChunk turns, MAX_VECTOR_SIZE < size) :
    splitLoop rstrFile nTotalFileSize nChunkSize turns nChunk s = none := by
  induction turns generalizing nChunk s with
  | zero =>
    obtain ⟨_, hmem, _⟩ := hgreat
    exact absurd hmem List.not_mem_nil
  | succ turns ih =>
    rw [chunkSizes_succ] at hgreat
    obtain ⟨size, hmem, hsize⟩ := hgreat
    rw [splitLoop]
    unfold splitChunk
    by_cases hfirst : nCurrentChunkSize nTotalFileSize nChunkSize nChunk ≤ MAX_VECTOR_SIZE
    · rw [if_pos hfirst, Option.bind_some]
      refine ih ⟨size, (List.mem_cons.1 hmem).resolve_left fun h => ?_, hsize⟩
      omega
    · rw [if_neg hfirst]
      rfl

/-! ## The sizes -/

section Sizes

variable {nTotalFileSize : ℤ} {nChunkSize : ℕ}

/-- The sizes of all chunks. -/
def allSizes (nTotalFileSize : ℤ) (nChunkSize : ℕ) : List ℕ :=
  chunkSizes nTotalFileSize nChunkSize 0 (nNoOfChunks nTotalFileSize nChunkSize).toNat

theorem allSizes_of_nonpos (h : nNoOfChunks nTotalFileSize nChunkSize ≤ 0) :
    allSizes nTotalFileSize nChunkSize = [] := by
  unfold allSizes
  rw [Int.toNat_of_nonpos h]
  rfl

/-- The last chunk has a size of its own. -/
theorem allSizes_of_succ {m : ℕ} (h : nNoOfChunks nTotalFileSize nChunkSize = m + 1) :
    allSizes nTotalFileSize nChunkSize =
      List.replicate m nChunkSize ++ [nSizeOfLastChunk nTotalFileSize nChunkSize] := by
  have hlast : nCurrentChunkSize nTotalFileSize nChunkSize m =
      nSizeOfLastChunk nTotalFileSize nChunkSize := by
    unfold nCurrentChunkSize
    rw [if_pos (by omega)]
  have hfull : chunkSizes nTotalFileSize nChunkSize 0 m = List.replicate m nChunkSize := by
    refine List.eq_replicate_iff.2 ⟨by simp [chunkSizes], fun size hsize => ?_⟩
    obtain ⟨nChunk, hmem, rfl⟩ := List.mem_map.1 hsize
    have hlt := (List.mem_range'_1.1 hmem).2
    unfold nCurrentChunkSize
    rw [if_neg (by omega)]
  have hturns : (nNoOfChunks nTotalFileSize nChunkSize).toNat = m + 1 := by omega
  unfold allSizes
  rw [hturns, ← hfull, ← hlast]
  unfold chunkSizes
  rw [List.range'_1_concat, List.map_append, Nat.zero_add]
  rfl

theorem allSizes_cases (nTotalFileSize : ℤ) (nChunkSize : ℕ) :
    allSizes nTotalFileSize nChunkSize = [] ∨
      ∃ m, allSizes nTotalFileSize nChunkSize =
        List.replicate m nChunkSize ++ [nSizeOfLastChunk nTotalFileSize nChunkSize] := by
  by_cases hnone : nNoOfChunks nTotalFileSize nChunkSize ≤ 0
  · exact Or.inl (allSizes_of_nonpos hnone)
  · obtain ⟨m, hm⟩ := Int.eq_succ_of_zero_lt (not_le.1 hnone)
    exact Or.inr ⟨m, allSizes_of_succ hm⟩

theorem nSizeOfLastChunk_spec (nTotalFileSize : ℤ) (hpos : 0 < nChunkSize) :
    1 ≤ nSizeOfLastChunk nTotalFileSize nChunkSize ∧
      nSizeOfLastChunk nTotalFileSize nChunkSize ≤ nChunkSize := by
  have hlt := Nat.mod_lt (asSize nTotalFileSize) hpos
  unfold nSizeOfLastChunk
  split_ifs <;> omega

/-- What is read in these sizes are the chunks of the content iff they add up to its length. -/
theorem splitsInto_fillAll_iff (hpos : 0 < nChunkSize) (content : Content) :
    SplitsInto content nChunkSize
        (Lib.fillAll 0 (allSizes nTotalFileSize nChunkSize) content) ↔
      (allSizes nTotalFileSize nChunkSize).sum = content.length := by
  refine ⟨fun h => (Lib.flatten_fillAll_iff 0 _ content).1 h.concat, fun hsum => ?_⟩
  have hconcat := (Lib.flatten_fillAll_iff (0 : UInt8) _ content).2 hsum
  have hlengths := Lib.map_length_fillAll (0 : UInt8) (allSizes nTotalFileSize nChunkSize) content
  obtain ⟨hlow, hhigh⟩ := nSizeOfLastChunk_spec nTotalFileSize hpos
  generalize Lib.fillAll (0 : UInt8) (allSizes nTotalFileSize nChunkSize) content = chunks at *
  rcases allSizes_cases nTotalFileSize nChunkSize with hnone | ⟨m, hsizes⟩
  · rw [hnone, List.map_eq_nil_iff] at hlengths
    rw [hlengths] at hconcat ⊢
    exact ⟨hconcat, fun _ hmem => absurd hmem List.not_mem_nil, fun _ hlast => (by cases hlast),
      fun _ => rfl⟩
  · rw [hsizes] at hlengths
    have hlast : ∀ chunk, chunks.getLast? = some chunk →
        chunk.length = nSizeOfLastChunk nTotalFileSize nChunkSize := by
      intro chunk hchunk
      have hsize := congrArg List.getLast? hlengths
      rw [List.getLast?_map, hchunk, List.getLast?_concat] at hsize
      exact Option.some.inj hsize
    refine ⟨hconcat, fun chunk hmem => ?_, fun chunk hchunk => ?_, fun hempty => ?_⟩
    · have hfull := congrArg List.dropLast hlengths
      rw [← List.map_dropLast, List.dropLast_concat] at hfull
      exact List.eq_of_mem_replicate (hfull ▸ List.mem_map_of_mem hmem)
    · rw [hlast chunk hchunk]
      exact ⟨hlow, hhigh⟩
    · -- the last chunk would not be empty
      cases hchunk : chunks.getLast? with
      | none => exact List.getLast?_eq_none_iff.1 hchunk
      | some chunk =>
        rw [hempty, List.flatten_eq_nil_iff] at hconcat
        have hnil := congrArg List.length (hconcat chunk (List.mem_of_getLast? hchunk))
        have hsize := hlast chunk hchunk
        rw [hnil, List.length_nil] at hsize
        omega

end Sizes

theorem getSize_of_read {rstrFile : String} {disk : Disk} {content : Content}
    (hread : disk.read rstrFile = some content) :
    getSize rstrFile disk = toInt32 content.length := by
  unfold getSize
  rw [hread]

/-- A file is split right iff a chunk is too great, or the chunks add up to it. -/
theorem splitsFile_iff_sum {rstrFile : String} {disk : Disk} {content : Content}
    (hread : disk.read rstrFile = some content) {nChunkSize : ℕ} (hpos : 0 < nChunkSize)
    (rvectorFileList : List String) :
    SplitsFile rstrFile nChunkSize rvectorFileList disk content ↔
      (∃ size ∈ allSizes (toInt32 content.length) nChunkSize, MAX_VECTOR_SIZE < size) ∨
        (allSizes (toInt32 content.length) nChunkSize).sum = content.length := by
  unfold SplitsFile split
  rw [hread]
  dsimp only
  rw [getSize_of_read hread]
  generalize htotal : toInt32 (content.length : ℤ) = nTotalFileSize
  by_cases hgreat : ∃ size ∈ allSizes nTotalFileSize nChunkSize, MAX_VECTOR_SIZE < size
  · refine iff_of_true (fun disk' files hsplit => ?_) (Or.inl hgreat)
    rw [splitLoop_eq_none rstrFile nTotalFileSize nChunkSize _ hgreat] at hsplit
    cases hsplit
  · have hsizes : ∀ size ∈ allSizes nTotalFileSize nChunkSize, size ≤ MAX_VECTOR_SIZE :=
      fun size hmem => not_lt.1 fun hlt => hgreat ⟨size, hmem, hlt⟩
    rw [or_iff_right hgreat, ← splitsInto_fillAll_iff hpos content]
    obtain ⟨t, hloop, hlist, hchunks, -⟩ := @splitLoop_spec rstrFile nTotalFileSize nChunkSize
      (nNoOfChunks nTotalFileSize nChunkSize).toNat 0 ⟨content, disk, rvectorFileList⟩ hsizes
    rw [hloop, Option.map_some]
    constructor
    · intro h
      obtain ⟨listed, chunks, hfiles, hheld, hinto⟩ := h t.disk t.rvectorFileList rfl
      rw [hlist] at hfiles
      rw [← List.append_cancel_left hfiles, hchunks] at hheld
      rw [← (List.map_injective_iff.2 (Option.some_injective Content)) hheld] at hinto
      exact hinto
    · intro hinto disk' files hsplit
      cases hsplit
      exact ⟨_, _, hlist, hchunks, hinto⟩

/-! ## Arithmetic -/

theorem asSize_toInt32 (n : ℕ) :
    asSize (toInt32 n) =
      if n % 2 ^ 32 < 2 ^ 31 then n % 2 ^ 32 else 2 ^ 64 - 2 ^ 32 + n % 2 ^ 32 := by
  unfold asSize toInt32
  rw [Int.bmod_def]
  split_ifs <;> omega

/-- So many whole chunks and a rest are at most `m` chunks. -/
theorem mul_add_le_mul_iff {q r m size : ℕ} (hr : r < size) :
    q * size + r ≤ m * size ↔ q < m ∨ q = m ∧ r = 0 := by
  constructor
  · intro h
    have hle : q ≤ m := by
      by_contra hlt
      have hmul := Nat.mul_le_mul_right size (not_le.1 hlt)
      rw [Nat.succ_mul] at hmul
      omega
    refine hle.lt_or_eq.imp_right fun heq => ⟨heq, ?_⟩
    rw [heq] at h
    omega
  · rintro (hlt | ⟨rfl, rfl⟩)
    · have hmul := Nat.mul_le_mul_right size (Nat.succ_le_of_lt hlt)
      rw [Nat.succ_mul] at hmul
      omega
    · exact le_refl _

theorem lt_intMax {q : ℕ} (h : q < 2 ^ 31 - 1) : (q : ℤ) < 2 ^ 31 - 1 := by omega

section Sum

variable (nTotalFileSize : ℤ) (nChunkSize : ℕ)

/-- The chunks add up to what is divided, with the quotient as an `int`; a negative number of
chunks is none. -/
theorem sum_allSizes {nQuotient : ℤ}
    (hquotient : toInt32 (asSize nTotalFileSize / nChunkSize : ℕ) = nQuotient) :
    (allSizes nTotalFileSize nChunkSize).sum =
      if 0 ≤ nQuotient ∧ (asSize nTotalFileSize % nChunkSize = 0 ∨ nQuotient < 2 ^ 31 - 1) then
        nQuotient.toNat * nChunkSize + asSize nTotalFileSize % nChunkSize
      else 0 := by
  have hlow := Lib.neg_le_toInt32 (asSize nTotalFileSize / nChunkSize : ℕ)
  have hhigh := Lib.toInt32_lt (asSize nTotalFileSize / nChunkSize : ℕ)
  rw [hquotient] at hlow hhigh
  by_cases hexact : asSize nTotalFileSize % nChunkSize = 0
  · have hnumber : nNoOfChunks nTotalFileSize nChunkSize = nQuotient := by
      unfold nNoOfChunks
      rw [if_neg (not_not.2 hexact), hquotient]
    have hlast : nSizeOfLastChunk nTotalFileSize nChunkSize = nChunkSize :=
      if_neg (not_not.2 hexact)
    rw [hexact]
    by_cases hpos : 0 < nQuotient
    · obtain ⟨m, hm⟩ := Int.eq_succ_of_zero_lt hpos
      have hturns : nQuotient.toNat = m + 1 := by omega
      rw [allSizes_of_succ (hnumber.trans hm), hlast, if_pos ⟨hpos.le, Or.inl rfl⟩, hturns,
        List.sum_append, List.sum_replicate_nat, List.sum_singleton, Nat.succ_mul]
      rfl
    · rw [allSizes_of_nonpos (hnumber.trans_le (not_lt.1 hpos))]
      split_ifs with hnonneg
      · have hzero : nQuotient.toNat = 0 := by omega
        rw [hzero, Nat.zero_mul]
        rfl
      · rfl
  · have hnumber : nNoOfChunks nTotalFileSize nChunkSize = toInt32 (nQuotient + 1) := by
      unfold nNoOfChunks
      rw [if_pos hexact, hquotient]
    have hlast : nSizeOfLastChunk nTotalFileSize nChunkSize =
        asSize nTotalFileSize % nChunkSize := if_pos hexact
    by_cases hfits : nQuotient < 2 ^ 31 - 1
    · rw [Lib.toInt32_of_fits (by omega) (by omega)] at hnumber
      by_cases hnonneg : 0 ≤ nQuotient
      · obtain ⟨m, rfl⟩ := Int.eq_ofNat_of_zero_le hnonneg
        rw [allSizes_of_succ hnumber, hlast, if_pos ⟨hnonneg, Or.inr hfits⟩, List.sum_append,
          List.sum_replicate_nat, List.sum_singleton]
        rfl
      · rw [allSizes_of_nonpos (by omega), if_neg fun h => hnonneg h.1]
        rfl
    · -- the number of chunks wraps
      have hmax : nQuotient = 2 ^ 31 - 1 := by omega
      rw [hmax] at hnumber
      rw [allSizes_of_nonpos (hnumber.trans_le (by decide)),
        if_neg fun h => (h.2.elim hexact hfits)]
      rfl

variable {nTotalFileSize nChunkSize}

/-- No chunk is longer than the size of a chunk. -/
theorem le_of_mem_allSizes (hpos : 0 < nChunkSize) {size : ℕ}
    (hmem : size ∈ allSizes nTotalFileSize nChunkSize) : size ≤ nChunkSize := by
  rcases allSizes_cases nTotalFileSize nChunkSize with hnone | ⟨m, hsizes⟩
  · rw [hnone] at hmem
    exact absurd hmem List.not_mem_nil
  · rw [hsizes] at hmem
    rcases List.mem_append.1 hmem with hfull | hlast
    · exact (List.eq_of_mem_replicate hfull).le
    · rw [List.mem_singleton.1 hlast]
      exact (nSizeOfLastChunk_spec nTotalFileSize hpos).2

/-- The chunks are at most what is divided. -/
theorem sum_allSizes_le (nTotalFileSize : ℤ) (nChunkSize : ℕ) :
    (allSizes nTotalFileSize nChunkSize).sum ≤ asSize nTotalFileSize := by
  have hle := Lib.toInt32_le (Int.natCast_nonneg (asSize nTotalFileSize / nChunkSize))
  have hdiv := Nat.div_add_mod' (asSize nTotalFileSize) nChunkSize
  rw [sum_allSizes nTotalFileSize nChunkSize rfl]
  split_ifs
  · have hmul := Nat.mul_le_mul_right nChunkSize (Int.toNat_le.2 hle)
    omega
  · exact Nat.zero_le _

theorem sum_eq_of_small {n : ℕ} (hpos : 0 < nChunkSize) (hn : n < 2 ^ 31) :
    (allSizes (toInt32 n) nChunkSize).sum = n := by
  have hsize : asSize (toInt32 n) = n := by
    rw [asSize_toInt32]
    split_ifs <;> omega
  have hdiv := Nat.div_add_mod' n nChunkSize
  have hle : n / nChunkSize ≤ n / nChunkSize * nChunkSize := Nat.le_mul_of_pos_right _ hpos
  rw [sum_allSizes _ _ rfl, hsize]
  generalize n / nChunkSize = nQuotient at *
  rw [Lib.toInt32_of_fits (by omega) (by omega), Int.toNat_natCast,
    if_pos ⟨by omega, by omega⟩, hdiv]

/-- A file behind 4 GiB whose length comes as a number that is not negative. -/
theorem sum_lt_of_wrapped {n : ℕ} (hgreat : 2 ^ 31 ≤ n) (hn : n % 2 ^ 32 < 2 ^ 31) :
    (allSizes (toInt32 n) nChunkSize).sum < 2 ^ 31 ∧
      (allSizes (toInt32 n) nChunkSize).sum < n := by
  have hle := sum_allSizes_le (toInt32 n) nChunkSize
  rw [asSize_toInt32, if_pos hn] at hle
  omega

/-- What is divided of a file whose length comes as a negative number. -/
theorem asSize_of_negative {n : ℕ} (hn : 2 ^ 31 ≤ n % 2 ^ 32) :
    asSize (toInt32 n) = 2 ^ 64 - 2 ^ 32 + n % 2 ^ 32 := by
  rw [asSize_toInt32, if_neg (not_lt.2 hn)]

/-- If the chunks add up to such a file, its quotient is an `int`, and what the dividend is too
great by is divided away. -/
theorem fits_of_sum_eq {n : ℕ} (hpos : 0 < nChunkSize) (hn : 2 ^ 31 ≤ n % 2 ^ 32)
    (hsum : (allSizes (toInt32 n) nChunkSize).sum = n) :
    n ≤ (2 ^ 31 - 1) * nChunkSize ∧ ∃ k, k * nChunkSize + (n / 2 ^ 32 + 1) = 2 ^ 32 := by
  rw [sum_allSizes (toInt32 n) nChunkSize rfl, asSize_of_negative hn] at hsum
  generalize htotal : 2 ^ 64 - 2 ^ 32 + n % 2 ^ 32 = nTotal at hsum
  split_ifs at hsum with hfits
  · obtain ⟨hnonneg, hlast⟩ := hfits
    have hlow : toInt32 (nTotal / nChunkSize : ℕ) = (nTotal / nChunkSize % 2 ^ 32 : ℕ) := by
      unfold toInt32 at hnonneg ⊢
      rw [Int.bmod_def] at hnonneg ⊢
      split_ifs at hnonneg ⊢ <;> omega
    have hlt := Nat.mod_lt nTotal hpos
    have hdiv := Nat.div_add_mod' nTotal nChunkSize
    have hhigh := Lib.toInt32_lt (nTotal / nChunkSize : ℕ)
    rw [hlow] at hsum hlast hhigh
    rw [Int.toNat_natCast] at hsum
    -- what the quotient loses is lost from the sum
    have hsplit : nTotal / nChunkSize * nChunkSize =
        nTotal / nChunkSize % 2 ^ 32 * nChunkSize +
          2 ^ 32 * (nTotal / nChunkSize / 2 ^ 32 * nChunkSize) := by
      rw [← Nat.mul_assoc, ← Nat.add_mul, Nat.mod_add_div]
    generalize nTotal / nChunkSize % 2 ^ 32 = nQuotient at *
    refine ⟨?_, nTotal / nChunkSize / 2 ^ 32, by omega⟩
    exact hsum.symm.trans_le ((mul_add_le_mul_iff hlt).2 (by omega))
  · omega

theorem sum_eq_of_fits {n k : ℕ} (hpos : 0 < nChunkSize) (hn : 2 ^ 31 ≤ n % 2 ^ 32)
    (hfew : n ≤ (2 ^ 31 - 1) * nChunkSize) (hk : k * nChunkSize + (n / 2 ^ 32 + 1) = 2 ^ 32) :
    (allSizes (toInt32 n) nChunkSize).sum = n := by
  have hmore : 2 ^ 64 - 2 ^ 32 + n % 2 ^ 32 = n + 2 ^ 32 * k * nChunkSize := by
    rw [Nat.mul_assoc]
    omega
  have hdiv := Nat.div_add_mod' n nChunkSize
  have hquotient : (n + 2 ^ 32 * k * nChunkSize) / nChunkSize = n / nChunkSize + 2 ^ 32 * k :=
    Nat.add_mul_div_right _ _ hpos
  have hle : n / nChunkSize ≤ 2 ^ 31 - 1 := Nat.div_le_of_le_mul (by rwa [Nat.mul_comm])
  rw [sum_allSizes (toInt32 n) nChunkSize rfl, asSize_of_negative hn, hmore, hquotient,
    Nat.add_mul_mod_self_right]
  generalize n / nChunkSize = nQuotient at *
  have hlow : toInt32 (nQuotient + 2 ^ 32 * k : ℕ) = nQuotient := by
    unfold toInt32
    rw [Int.bmod_def]
    split_ifs <;> omega
  have hlast := (mul_add_le_mul_iff (Nat.mod_lt n hpos)).1 (hdiv.trans_le hfew)
  rw [hlow, Int.toNat_natCast,
    if_pos ⟨Int.natCast_nonneg _, hlast.symm.imp And.right lt_intMax⟩, hdiv]

/-- A file whose length comes as a negative number. -/
theorem sum_eq_iff_of_negative {n : ℕ} (hpos : 0 < nChunkSize) (hn : 2 ^ 31 ≤ n % 2 ^ 32) :
    (allSizes (toInt32 n) nChunkSize).sum = n ↔
      n ≤ (2 ^ 31 - 1) * nChunkSize ∧ ∃ k, k * nChunkSize + (n / 2 ^ 32 + 1) = 2 ^ 32 := by
  constructor
  · exact fits_of_sum_eq hpos hn
  · rintro ⟨hfew, k, hk⟩
    exact sum_eq_of_fits hpos hn hfew hk

/-- A size that no vector has: the first chunk is too great. -/
theorem exists_great {n : ℕ} (hn : 2 ^ 31 ≤ n % 2 ^ 32) (hsize : nChunkSize < 2 ^ 64)
    (hgreat : 2 ^ 63 ≤ nChunkSize) :
    ∃ size ∈ allSizes (toInt32 n) nChunkSize, MAX_VECTOR_SIZE < size := by
  have htotal := asSize_of_negative hn
  have hmax : MAX_VECTOR_SIZE = 2 ^ 63 - 1 := rfl
  by_cases hone : asSize (toInt32 n) < nChunkSize
  · have hmod : asSize (toInt32 n) % nChunkSize = asSize (toInt32 n) := Nat.mod_eq_of_lt hone
    have hnumber : nNoOfChunks (toInt32 n) nChunkSize = ((0 : ℕ) : ℤ) + 1 := by
      unfold nNoOfChunks
      rw [if_pos (by omega), Nat.div_eq_of_lt hone]
      rfl
    have hlast : nSizeOfLastChunk (toInt32 n) nChunkSize = asSize (toInt32 n) := by
      unfold nSizeOfLastChunk
      rw [if_pos (by omega), hmod]
    rw [allSizes_of_succ hnumber, hlast]
    exact ⟨_, List.mem_singleton.2 rfl, by omega⟩
  · have hquotient : asSize (toInt32 n) / nChunkSize = 1 := by
      refine Nat.div_eq_of_lt_le ?_ ?_ <;> omega
    by_cases hexact : asSize (toInt32 n) % nChunkSize = 0
    · have hnumber : nNoOfChunks (toInt32 n) nChunkSize = ((0 : ℕ) : ℤ) + 1 := by
        unfold nNoOfChunks
        rw [if_neg (not_not.2 hexact), hquotient]
        rfl
      have hlast : nSizeOfLastChunk (toInt32 n) nChunkSize = nChunkSize :=
        if_neg (not_not.2 hexact)
      rw [allSizes_of_succ hnumber, hlast]
      exact ⟨_, List.mem_singleton.2 rfl, by omega⟩
    · have hnumber : nNoOfChunks (toInt32 n) nChunkSize = ((1 : ℕ) : ℤ) + 1 := by
        unfold nNoOfChunks
        rw [if_pos hexact, hquotient]
        rfl
      rw [allSizes_of_succ hnumber]
      exact ⟨nChunkSize, List.mem_cons_self, by omega⟩

end Sum

/-- A file is split right iff its size is one that the arithmetic is right for. -/
theorem splitsFile_iff {rstrFile : String} {disk : Disk} {content : Content}
    (hread : disk.read rstrFile = some content) {nChunkSize : ℕ} (hpos : 0 < nChunkSize)
    (hsize : nChunkSize < 2 ^ 64) (rvectorFileList : List String) :
    SplitsFile rstrFile nChunkSize rvectorFileList disk content ↔
      SizeFits content.length nChunkSize := by
  rw [splitsFile_iff_sum hread hpos]
  unfold SizeFits
  generalize content.length = n
  have hmax : MAX_VECTOR_SIZE = 2 ^ 63 - 1 := rfl
  by_cases hsmall : n < 2 ^ 31
  · exact iff_of_true (Or.inr (sum_eq_of_small hpos hsmall)) (Or.inl hsmall)
  · rw [or_iff_right hsmall]
    by_cases hneg : 2 ^ 31 ≤ n % 2 ^ 32
    · rw [and_iff_right hneg, sum_eq_iff_of_negative hpos hneg]
      refine or_congr ⟨?_, exists_great hneg hsize⟩ Iff.rfl
      rintro ⟨size, hmem, hgreat⟩
      have hle := le_of_mem_allSizes hpos hmem
      omega
    · obtain ⟨hlow, hless⟩ := @sum_lt_of_wrapped nChunkSize n (not_lt.1 hsmall) (not_le.1 hneg)
      refine iff_of_false ?_ fun h => hneg h.1
      rintro (⟨size, hmem, hgreat⟩ | hsum)
      · have hle := List.single_le_sum (fun _ _ => Nat.zero_le _) size hmem
        omega
      · omega

/-- A disk with one file. -/
def logDisk (content : Content) : Disk := ⟨[("log", content)]⟩

theorem read_logDisk (content : Content) : (logDisk content).read "log" = some content := rfl

theorem splitsFile_iff_log :
    SplitsFile "log" 128 [] (logDisk (List.replicate 300 7)) (List.replicate 300 7) :=
  (splitsFile_iff (read_logDisk _) (by decide) (by decide) []).2
    (Or.inl (by rw [List.length_replicate]; decide))

/-- A file of 2 GiB is split into nothing. -/
theorem not_splitsFile_log :
    split "log" 4096 [] (logDisk (List.replicate (2 ^ 31) 0)) =
        some (true, logDisk (List.replicate (2 ^ 31) 0), []) ∧
      ¬ SplitsFile "log" 4096 [] (logDisk (List.replicate (2 ^ 31) 0))
        (List.replicate (2 ^ 31) 0) := by
  have hlength : (List.replicate (2 ^ 31) (0 : UInt8)).length = 2 ^ 31 := List.length_replicate
  have hread := read_logDisk (List.replicate (2 ^ 31) 0)
  have hsize := getSize_of_read hread
  generalize List.replicate (2 ^ 31) (0 : UInt8) = content at *
  rw [hlength] at hsize
  have hnumber : (nNoOfChunks (toInt32 (2 ^ 31 : ℕ)) 4096).toNat = 0 := by decide
  have hsplit : split "log" 4096 [] (logDisk content) = some (true, logDisk content, []) := by
    unfold split
    rw [hread, hsize, hnumber]
    rfl
  refine ⟨hsplit, fun h => ?_⟩
  obtain ⟨listed, chunks, hlisted, hheld, hinto⟩ := h _ _ hsplit
  rw [← List.nil_append listed, ← hlisted, List.map_nil] at hheld
  have hnil := hinto.concat
  rw [List.map_eq_nil_iff.1 hheld.symm] at hnil
  rw [← hnil] at hlength
  exact absurd hlength (by decide)

end FileUtils

end DeviceClient
