import DeviceClient.Lib.Int32
import DeviceClient.Lib.Run

/-!
# The diagnostic header

`CIgniteLog` keeps the last messages for the head of the log, at most as many as
`MAX_DIAG_ENTRIES` says, which can be set between 5 and 30.

* `copyFrom_eq`: the loop that copies the end of a vector.
* `bounded_update_iff`: an update keeps the bound, and does not bring it back.
* `held_of_room`: one call.
* `held_of_run`: the runs in which the header is the end of the messages, and bounded.
-/

namespace DeviceClient

open Lib (toInt32)

/-- The two static variables. -/
structure DiagHeader where
  g_vectorDiagHeader : List String
  MAX_DIAG_ENTRIES : ℕ
deriving DecidableEq

namespace DiagHeader

def MAX_DIAG_ENTRIES_UPPER_LIMIT : ℕ := 30

def MAX_DIAG_ENTRIES_LOWER_LIMIT : ℕ := 5

/-! ## The code -/

/-- The loop over an `int`, with the entries that are left. In the comparison with `size()` a
negative number is a great one. -/
def copyFrom : ℤ → List String → List String
  | _, [] => []
  | nJ, strEntry :: rest => if nJ < 0 then [] else strEntry :: copyFrom (toInt32 (nJ + 1)) rest

/-- The first number of the loop. -/
def firstEntry (rvectorDiagHeaderInfo : List String) (h : DiagHeader) : ℤ :=
  toInt32 (rvectorDiagHeaderInfo.length - h.MAX_DIAG_ENTRIES)

/-- `InitDiagHeader`. -/
def initDiagHeader (rvectorDiagHeaderInfo : List String) (h : DiagHeader) : Bool × DiagHeader :=
  if rvectorDiagHeaderInfo = [] then (false, h)
  else if h.MAX_DIAG_ENTRIES < rvectorDiagHeaderInfo.length then
    (true, { h with
      g_vectorDiagHeader := copyFrom (h.firstEntry rvectorDiagHeaderInfo)
        (rvectorDiagHeaderInfo.drop (h.firstEntry rvectorDiagHeaderInfo).toNat) })
  else (true, { h with g_vectorDiagHeader := copyFrom 0 rvectorDiagHeaderInfo })

/-- `UpdateDiagHeader`. -/
def updateDiagHeader (rDiagString : String) (h : DiagHeader) : Bool × DiagHeader :=
  if rDiagString = "" then (false, h)
  else if h.g_vectorDiagHeader ≠ [] ∧ h.MAX_DIAG_ENTRIES ≤ h.g_vectorDiagHeader.length then
    (true, { h with g_vectorDiagHeader := h.g_vectorDiagHeader.tail ++ [rDiagString] })
  else (true, { h with g_vectorDiagHeader := h.g_vectorDiagHeader ++ [rDiagString] })

/-- `SetMaxDiagEntryValue`. -/
def setMaxDiagEntryValue (rnMaxEntries : ℕ) (h : DiagHeader) : Bool × DiagHeader :=
  if MAX_DIAG_ENTRIES_LOWER_LIMIT ≤ rnMaxEntries ∧ rnMaxEntries ≤ MAX_DIAG_ENTRIES_UPPER_LIMIT then
    (true, { h with MAX_DIAG_ENTRIES := rnMaxEntries })
  else (false, h)

/-- `ResetDiagHeader`. -/
def resetDiagHeader (h : DiagHeader) : DiagHeader := { h with g_vectorDiagHeader := [] }

end DiagHeader

/-! ## Runs -/

inductive DiagCall
  | init (rvectorDiagHeaderInfo : List String)
  | update (rDiagString : String)
  | setMax (rnMaxEntries : ℕ)
  | reset
deriving DecidableEq

/-- The header, and the messages given since the last `InitDiagHeader` or `ResetDiagHeader` that
was accepted. -/
structure DiagLog where
  header : DiagHeader
  given : List String
deriving DecidableEq

namespace DiagLog

open DiagHeader

/-- A message counts as given if the call returns true. -/
def after (s : DiagLog) : DiagCall → DiagLog
  | .init rvectorDiagHeaderInfo =>
    ⟨(s.header.initDiagHeader rvectorDiagHeaderInfo).2,
      if (s.header.initDiagHeader rvectorDiagHeaderInfo).1 then rvectorDiagHeaderInfo else s.given⟩
  | .update rDiagString =>
    ⟨(s.header.updateDiagHeader rDiagString).2,
      if (s.header.updateDiagHeader rDiagString).1 then s.given ++ [rDiagString] else s.given⟩
  | .setMax rnMaxEntries => ⟨(s.header.setMaxDiagEntryValue rnMaxEntries).2, s.given⟩
  | .reset => ⟨s.header.resetDiagHeader, []⟩

def next (s : DiagLog) (call : DiagCall) : Option DiagLog := some (s.after call)

def start : DiagLog := ⟨⟨[], 20⟩, []⟩

/-- The header has at most as many entries as it may have. -/
def Bounded (s : DiagLog) : Prop :=
  s.header.g_vectorDiagHeader.length ≤ s.header.MAX_DIAG_ENTRIES

/-- The header is the end of the messages. -/
def IsEnd (s : DiagLog) : Prop := s.header.g_vectorDiagHeader <:+ s.given

/-- The call is one of those that add messages. -/
def Adds : DiagCall → Prop
  | .init _ => True
  | .update _ => True
  | .setMax _ => False
  | .reset => False

/-- Behind the call the header is the end of the messages, and if the call is one that adds
messages, the header is bounded. -/
def Held (s : DiagLog) (call : DiagCall) : Prop :=
  (s.after call).IsEnd ∧ (Adds call → (s.after call).Bounded)

/-- A call that is to add to the header finds it bounded; a vector that replaces it is not so
long that the number of the loop is a wrong one. -/
def Room (s : DiagLog) : DiagCall → Prop
  | .init rvectorDiagHeaderInfo =>
    rvectorDiagHeaderInfo = [] ∧ s.Bounded ∨
      rvectorDiagHeaderInfo ≠ [] ∧
        (rvectorDiagHeaderInfo.length ≤ 2 ^ 31 ∨ s.header.firstEntry rvectorDiagHeaderInfo < 0)
  | .update _ => s.Bounded
  | .setMax _ => True
  | .reset => True

/-! ## Copies -/

/-- As far as the number does not leave the range of `int`, all entries are copied. -/
theorem copyFrom_eq {nJ : ℤ} {rest : List String} (hlow : 0 ≤ nJ)
    (hhigh : nJ + rest.length ≤ 2 ^ 31) : copyFrom nJ rest = rest := by
  induction rest generalizing nJ with
  | nil => rfl
  | cons strEntry rest ih =>
    rw [List.length_cons] at hhigh
    rw [copyFrom, if_neg (not_lt.2 hlow)]
    congr 1
    cases rest with
    | nil => rfl
    | cons strNext rest =>
      rw [List.length_cons] at hhigh
      have hfits : toInt32 (nJ + 1) = nJ + 1 := Lib.toInt32_of_fits (by omega) (by omega)
      rw [hfits]
      exact ih (by omega) (by rw [List.length_cons]; omega)

theorem copyFrom_of_neg {nJ : ℤ} (hneg : nJ < 0) (rest : List String) : copyFrom nJ rest = [] := by
  cases rest with
  | nil => rfl
  | cons strEntry rest => exact if_pos hneg

/-- What can be set. -/
def InLimits (s : DiagLog) : Prop :=
  MAX_DIAG_ENTRIES_LOWER_LIMIT ≤ s.header.MAX_DIAG_ENTRIES ∧
    s.header.MAX_DIAG_ENTRIES ≤ MAX_DIAG_ENTRIES_UPPER_LIMIT

/-! ## One call -/

theorem initDiagHeader_of_ne {info : List String} (hne : info ≠ []) (h : DiagHeader) :
    (h.initDiagHeader info).1 = true ∧
      (h.initDiagHeader info).2.MAX_DIAG_ENTRIES = h.MAX_DIAG_ENTRIES := by
  unfold initDiagHeader
  rw [if_neg hne]
  split_ifs <;> exact ⟨rfl, rfl⟩

/-- The last entries are taken over, or none. -/
theorem initDiagHeader_spec {info : List String} (hne : info ≠ []) {h : DiagHeader}
    (hmax : 1 ≤ h.MAX_DIAG_ENTRIES) (hfew : h.MAX_DIAG_ENTRIES ≤ 2 ^ 31)
    (hroom : info.length ≤ 2 ^ 31 ∨ h.firstEntry info < 0) :
    (h.initDiagHeader info).2.g_vectorDiagHeader <:+ info ∧
      (h.initDiagHeader info).2.g_vectorDiagHeader.length ≤ h.MAX_DIAG_ENTRIES := by
  unfold initDiagHeader
  rw [if_neg hne]
  by_cases hlong : h.MAX_DIAG_ENTRIES < info.length
  · rw [if_pos hlong]
    dsimp only
    rcases hroom with hlength | hneg
    · have hfirst : h.firstEntry info = (info.length - h.MAX_DIAG_ENTRIES : ℕ) := by
        unfold firstEntry
        rw [Lib.toInt32_of_fits (by omega) (by omega)]
        omega
      have hlen := List.length_drop (i := info.length - h.MAX_DIAG_ENTRIES) (l := info)
      rw [hfirst, Int.toNat_natCast, copyFrom_eq (by omega) (by omega)]
      exact ⟨List.drop_suffix _ _, by omega⟩
    · rw [copyFrom_of_neg hneg]
      exact ⟨List.nil_suffix, Nat.zero_le _⟩
  · rw [if_neg hlong]
    dsimp only
    rw [copyFrom_eq (le_refl 0) (by omega)]
    exact ⟨List.suffix_rfl, not_lt.1 hlong⟩

variable {s : DiagLog}

theorem after_init_nil : s.after (.init []) = s := rfl

theorem after_init_of_ne {info : List String} (hne : info ≠ []) :
    s.after (.init info) = ⟨(s.header.initDiagHeader info).2, info⟩ := by
  unfold after
  dsimp only
  rw [if_pos (initDiagHeader_of_ne hne s.header).1]

/-- The header has as many entries as it may have, or more. -/
def Full (s : DiagLog) : Prop :=
  s.header.g_vectorDiagHeader ≠ [] ∧
    s.header.MAX_DIAG_ENTRIES ≤ s.header.g_vectorDiagHeader.length

/-- An update does nothing, or adds a message, in the place of the first one in a full header. -/
theorem after_update_cases (rDiagString : String) :
    s.after (.update rDiagString) = s ∨
      (s.Full ∧ s.after (.update rDiagString) =
        ⟨⟨s.header.g_vectorDiagHeader.tail ++ [rDiagString], s.header.MAX_DIAG_ENTRIES⟩,
          s.given ++ [rDiagString]⟩) ∨
      (¬ s.Full ∧ s.after (.update rDiagString) =
        ⟨⟨s.header.g_vectorDiagHeader ++ [rDiagString], s.header.MAX_DIAG_ENTRIES⟩,
          s.given ++ [rDiagString]⟩) := by
  unfold Full after
  dsimp only
  unfold updateDiagHeader
  by_cases hempty : rDiagString = ""
  · left
    rw [if_pos hempty]
    rfl
  · right
    rw [if_neg hempty]
    by_cases hfull : s.header.g_vectorDiagHeader ≠ [] ∧
        s.header.MAX_DIAG_ENTRIES ≤ s.header.g_vectorDiagHeader.length
    · exact Or.inl ⟨hfull, by rw [if_pos hfull]; rfl⟩
    · exact Or.inr ⟨hfull, by rw [if_neg hfull]; rfl⟩

/-- An update drops one entry at most: the header is bounded behind it iff it was before. -/
theorem bounded_update_iff (hlimits : s.InLimits) (rDiagString : String) :
    (s.after (.update rDiagString)).Bounded ↔ s.Bounded := by
  have hmax : 5 ≤ s.header.MAX_DIAG_ENTRIES := hlimits.1
  unfold Bounded
  rcases @after_update_cases s rDiagString with hsame | ⟨hfull, hafter⟩ | ⟨hfull, hafter⟩
  · rw [hsame]
  · have hpos := List.length_pos_iff.2 hfull.1
    rw [hafter]
    dsimp only
    rw [List.length_append, List.length_tail, List.length_singleton, Nat.sub_add_cancel hpos]
  · have hless : s.header.g_vectorDiagHeader.length < s.header.MAX_DIAG_ENTRIES := by
      by_contra hmany
      have hlong := not_lt.1 hmany
      exact hfull ⟨List.length_pos_iff.1 (by omega), hlong⟩
    rw [hafter]
    dsimp only
    rw [List.length_append, List.length_singleton]
    exact iff_of_true hless hless.le

theorem isEnd_update (hend : s.IsEnd) (rDiagString : String) :
    (s.after (.update rDiagString)).IsEnd := by
  have hadd : ∀ entries : List String, entries <:+ s.given →
      entries ++ [rDiagString] <:+ s.given ++ [rDiagString] := by
    rintro entries ⟨before, hbefore⟩
    exact ⟨before, by rw [← List.append_assoc, hbefore]⟩
  unfold IsEnd
  rcases @after_update_cases s rDiagString with hsame | ⟨-, hafter⟩ | ⟨-, hafter⟩
  · rw [hsame]
    exact hend
  · rw [hafter]
    exact hadd _ ((List.tail_suffix _).trans hend)
  · rw [hafter]
    exact hadd _ hend

/-- The maximum changes within its limits only. -/
theorem inLimits_after (hlimits : s.InLimits) (call : DiagCall) : (s.after call).InLimits := by
  cases call with
  | init info =>
    by_cases hempty : info = []
    · rw [hempty, after_init_nil]
      exact hlimits
    · unfold InLimits
      rw [after_init_of_ne hempty]
      dsimp only
      rw [(initDiagHeader_of_ne hempty s.header).2]
      exact hlimits
  | update rDiagString =>
    rcases @after_update_cases s rDiagString with hsame | ⟨-, hafter⟩ | ⟨-, hafter⟩
    · rw [hsame]
      exact hlimits
    · rw [hafter]
      exact hlimits
    · rw [hafter]
      exact hlimits
  | setMax rnMaxEntries =>
    unfold after
    dsimp only
    unfold setMaxDiagEntryValue
    split_ifs with hset
    · exact hset
    · exact hlimits
  | reset => exact hlimits

theorem held_of_room (hlimits : s.InLimits) (hend : s.IsEnd) {call : DiagCall}
    (hroom : s.Room call) : s.Held call := by
  cases call with
  | init info =>
    rcases hroom with ⟨rfl, hbounded⟩ | ⟨hempty, hroom⟩
    · exact ⟨hend, fun _ => hbounded⟩
    · have hlow : 5 ≤ s.header.MAX_DIAG_ENTRIES := hlimits.1
      have hhigh : s.header.MAX_DIAG_ENTRIES ≤ 30 := hlimits.2
      obtain ⟨hsuffix, hlength⟩ := initDiagHeader_spec hempty (by omega) (by omega) hroom
      unfold Held IsEnd Bounded
      rw [after_init_of_ne hempty]
      dsimp only
      rw [(initDiagHeader_of_ne hempty s.header).2]
      exact ⟨hsuffix, fun _ => hlength⟩
  | update rDiagString =>
    exact ⟨isEnd_update hend rDiagString, fun _ => (bounded_update_iff hlimits rDiagString).2 hroom⟩
  | setMax rnMaxEntries =>
    refine ⟨?_, False.elim⟩
    unfold IsEnd after
    dsimp only
    unfold setMaxDiagEntryValue
    split_ifs <;> exact hend
  | reset => exact ⟨List.nil_suffix, False.elim⟩

/-- An `int` can count the vector. -/
def Short : DiagCall → Prop
  | .init rvectorDiagHeaderInfo => rvectorDiagHeaderInfo.length ≤ 2 ^ 31
  | .update _ => True
  | .setMax _ => True
  | .reset => True

theorem room_of_held (hlimits : s.InLimits) {call : DiagCall} (hshort : Short call)
    (hheld : s.Held call) : s.Room call := by
  cases call with
  | init info =>
    by_cases hempty : info = []
    · have hbounded := hheld.2 trivial
      rw [hempty, after_init_nil] at hbounded
      exact Or.inl ⟨hempty, hbounded⟩
    · exact Or.inr ⟨hempty, Or.inl hshort⟩
  | update rDiagString => exact (bounded_update_iff hlimits rDiagString).1 (hheld.2 trivial)
  | setMax _ => trivial
  | reset => trivial

/-! ## Every run -/

/-- In a run whose calls find room the header is always the end of the messages, and bounded
behind every call that adds some. Where an `int` can count the vectors, in no other run. -/
theorem held_of_run (calls : List DiagCall) :
    (Lib.Along next Room start calls → Lib.Along next Held start calls) ∧
      ((∀ call ∈ calls, Short call) → Lib.Along next Held start calls →
        Lib.Along next Room start calls) := by
  have hlimits : start.InLimits := by
    unfold InLimits
    decide
  constructor
  · refine Lib.Along.imp_inv (P := fun s => s.InLimits ∧ s.IsEnd) ?_
      (fun s call hs hroom => held_of_room hs.1 hs.2 hroom) ⟨hlimits, List.nil_suffix⟩
    rintro s call _ ⟨hlimits, hend⟩ hroom ⟨⟩
    exact ⟨inLimits_after hlimits call, (held_of_room hlimits hend hroom).1⟩
  · intro hshort hheld
    have hboth := hheld.and (Lib.along_of_forall_mem (fun call hcall _ => hshort call hcall) start)
    refine Lib.Along.imp_inv (P := InLimits) ?_
      (fun s call hlimits hboth => room_of_held hlimits hboth.2 hboth.1) hlimits hboth
    rintro s call _ hlimits - ⟨⟩
    exact inLimits_after hlimits call

instance (s : DiagLog) : Decidable s.Bounded := inferInstanceAs (Decidable (_ ≤ _))

/-- Twenty messages are held when five are allowed, and one more is given. -/
def shrunk : List DiagCall :=
  [.init (List.replicate 20 "restart"), .setMax 5, .update "shutdown"]

theorem not_held_shrunk :
    (shrunk.foldl after start).header =
        ⟨List.replicate 19 "restart" ++ ["shutdown"], 5⟩ ∧
      ¬ Lib.Along next Held start shrunk := by
  refine ⟨by decide, fun halong => ?_⟩
  have hheld := ((halong.2 _ rfl).2 _ rfl).1
  exact absurd (hheld.2 trivial) (by decide)

end DiagLog

end DeviceClient
