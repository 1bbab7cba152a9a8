import Mathlib.Algebra.Order.Ring.Int
import Mathlib.Data.List.Basic
import Mathlib.Data.List.Induction

/-!
# How many uploads are logged

`CMQTTUploader` reads two numbers of `FileLogger.uploadEventLogging`, once when it starts
and again at every update of the configuration, by two functions.

* `start_limits`: the limits after a start.
* `held_counts`, `held_summary`: the limits after any updates.
* `held_eq_start_iff`: when they are those of a start with the last configuration.
-/

namespace DeviceClient

/-- The members of `FileLogger.uploadEventLogging`, if they are there and `isInt`. -/
structure UploadLogConfig where
  count : Option ℤ
  summaryLogIterCount : Option ℤ
deriving DecidableEq

/-- The limits of the uploader, and the one that it sets in the MQTT client. -/
@[ext] structure UploadLogging where
  m_nEvntUploadLogIterCount : ℤ
  m_nEvntUploadSummaryIterCount : ℤ
  m_nPUBACKLogMaxCnt : ℤ
deriving DecidableEq

namespace UploadLogging

def DEF_UPLOAD_EVENT_SUMMARY_CNT : ℤ := 20

/-! ## The start -/

/-- `SetPUBACKLogStatus` of the MQTT client. -/
def setPUBACKLogStatus (u : UploadLogging) (nMaxcnt : ℤ) : UploadLogging :=
  { u with m_nPUBACKLogMaxCnt := nMaxcnt }

/-- `SetUploadEvntLogCount`. -/
def setUploadEvntLogCount (u : UploadLogging) (rCnt : ℤ) : UploadLogging × Bool :=
  if 0 < rCnt then ({ u with m_nEvntUploadLogIterCount := rCnt }, true) else (u, false)

/-- `SetSummaryLogIterCount`. -/
def setSummaryLogIterCount (u : UploadLogging) (rCnt : ℤ) : UploadLogging × Bool :=
  if 0 < rCnt then ({ u with m_nEvntUploadSummaryIterCount := rCnt }, true) else (u, false)

/-- `InitConfigBasedLogging` behind `SetUploadEvntLogCount`; the summary's limit is set to the
count. -/
def initSummary (u : UploadLogging) (cfg : UploadLogConfig) (count : ℤ) : UploadLogging :=
  if cfg.summaryLogIterCount.isSome then (u.setSummaryLogIterCount count).1 else u

/-- `InitConfigBasedLogging`. -/
def initConfigBasedLogging (u : UploadLogging) (cfg : UploadLogConfig) : UploadLogging :=
  let u := { u with
    m_nEvntUploadLogIterCount := -1
    m_nEvntUploadSummaryIterCount := DEF_UPLOAD_EVENT_SUMMARY_CNT }
  match cfg.count with
  | none => u
  | some count =>
    let r := u.setUploadEvntLogCount count
    if r.2 then (r.1.setPUBACKLogStatus r.1.m_nEvntUploadLogIterCount).initSummary cfg count
    else r.1

/-- A fresh start; the client's limit begins with -1. -/
def start (cfg : UploadLogConfig) : UploadLogging :=
  initConfigBasedLogging ⟨-1, DEF_UPLOAD_EVENT_SUMMARY_CNT, -1⟩ cfg

/-! ## Updates -/

/-- The first half of `NotifyConfigUpdate`. -/
def updateCount (u : UploadLogging) (cfg : UploadLogConfig) : UploadLogging :=
  match cfg.count with
  | none => u
  | some nEventUploadLogIterCount =>
    if nEventUploadLogIterCount ≠ u.m_nEvntUploadLogIterCount then
      { u with m_nEvntUploadLogIterCount := nEventUploadLogIterCount }.setPUBACKLogStatus
        nEventUploadLogIterCount
    else u

/-- `NotifyConfigUpdate`. -/
def notifyConfigUpdate (u : UploadLogging) (cfg : UploadLogConfig) : UploadLogging :=
  match cfg.summaryLogIterCount with
  | none =>
    { u.updateCount cfg with m_nEvntUploadSummaryIterCount := DEF_UPLOAD_EVENT_SUMMARY_CNT }
  | some evntUploadSummaryIterCount =>
    if evntUploadSummaryIterCount ≠ (u.updateCount cfg).m_nEvntUploadSummaryIterCount then
      { u.updateCount cfg with m_nEvntUploadSummaryIterCount := evntUploadSummaryIterCount }
    else u.updateCount cfg

/-- The limits after a start and some updates. -/
def held (first : UploadLogConfig) (later : List UploadLogConfig) : UploadLogging :=
  later.foldl notifyConfigUpdate (start first)

/-! ## The limits after a start -/

theorem start_of_pos {cfg : UploadLogConfig} {n : ℤ} (hcount : cfg.count = some n) (hn : 0 < n) :
    start cfg =
      ⟨n, if cfg.summaryLogIterCount.isSome then n else DEF_UPLOAD_EVENT_SUMMARY_CNT, n⟩ := by
  unfold start initConfigBasedLogging
  rw [hcount]
  simp only [setUploadEvntLogCount, if_pos hn, setPUBACKLogStatus, initSummary,
    setSummaryLogIterCount]
  cases cfg.summaryLogIterCount <;> rfl

theorem start_of_not_pos {cfg : UploadLogConfig} (hcount : ∀ n, cfg.count = some n → ¬ 0 < n) :
    start cfg = ⟨-1, DEF_UPLOAD_EVENT_SUMMARY_CNT, -1⟩ := by
  unfold start initConfigBasedLogging
  cases hc : cfg.count with
  | none => rfl
  | some n => simp only [setUploadEvntLogCount, if_neg (hcount n hc), Bool.false_eq_true, if_false]

/-- The count that a start takes over. -/
def startCount (cfg : UploadLogConfig) : ℤ :=
  match cfg.count with
  | none => -1
  | some n => if 0 < n then n else -1

theorem start_limits (cfg : UploadLogConfig) :
    (start cfg).m_nEvntUploadLogIterCount = startCount cfg ∧
      (start cfg).m_nPUBACKLogMaxCnt = startCount cfg ∧
      (start cfg).m_nEvntUploadSummaryIterCount =
        if 0 < startCount cfg ∧ cfg.summaryLogIterCount.isSome then startCount cfg
        else DEF_UPLOAD_EVENT_SUMMARY_CNT := by
  unfold startCount
  cases hc : cfg.count with
  | none =>
    rw [start_of_not_pos fun n hn => by rw [hc] at hn; cases hn]
    exact ⟨rfl, rfl, rfl⟩
  | some n =>
    by_cases hn : 0 < n
    · rw [start_of_pos hc hn]
      simp [hn]
    · have hno : ∀ m, cfg.count = some m → ¬ 0 < m := by
        intro m hm
        rw [hc] at hm
        cases hm
        exact hn
      rw [start_of_not_pos hno]
      simp [hn]

/-! ## The limits after updates -/

theorem held_append_singleton (first : UploadLogConfig) (later : List UploadLogConfig)
    (cfg : UploadLogConfig) :
    held first (later ++ [cfg]) = (held first later).notifyConfigUpdate cfg :=
  List.foldl_concat ..

theorem updateCount_limits (u : UploadLogging) (cfg : UploadLogConfig)
    (hsame : u.m_nPUBACKLogMaxCnt = u.m_nEvntUploadLogIterCount) :
    (u.updateCount cfg).m_nEvntUploadLogIterCount =
        cfg.count.getD u.m_nEvntUploadLogIterCount ∧
      (u.updateCount cfg).m_nPUBACKLogMaxCnt = cfg.count.getD u.m_nEvntUploadLogIterCount := by
  unfold updateCount
  cases cfg.count with
  | none => exact ⟨rfl, hsame⟩
  | some n =>
    by_cases hn : n = u.m_nEvntUploadLogIterCount
    · -- an equal count is not set again
      simp only [ne_eq, hn, not_true_eq_false, if_false, Option.getD_some]
      exact ⟨trivial, hsame⟩
    · simp only [ne_eq, hn, not_false_eq_true, if_true, Option.getD_some]
      exact ⟨rfl, rfl⟩

/-- What an update does to the limits. -/
theorem notifyConfigUpdate_limits (u : UploadLogging) (cfg : UploadLogConfig)
    (hsame : u.m_nPUBACKLogMaxCnt = u.m_nEvntUploadLogIterCount) :
    (u.notifyConfigUpdate cfg).m_nEvntUploadLogIterCount =
        cfg.count.getD u.m_nEvntUploadLogIterCount ∧
      (u.notifyConfigUpdate cfg).m_nPUBACKLogMaxCnt =
        cfg.count.getD u.m_nEvntUploadLogIterCount ∧
      (u.notifyConfigUpdate cfg).m_nEvntUploadSummaryIterCount =
        cfg.summaryLogIterCount.getD DEF_UPLOAD_EVENT_SUMMARY_CNT := by
  obtain ⟨hlog, hpuback⟩ := updateCount_limits u cfg hsame
  unfold notifyConfigUpdate
  cases cfg.summaryLogIterCount with
  | none => exact ⟨hlog, hpuback, rfl⟩
  | some n =>
    by_cases hn : n = (u.updateCount cfg).m_nEvntUploadSummaryIterCount
    · simp only [ne_eq, hn, not_true_eq_false, if_false]
      exact ⟨hlog, hpuback, rfl⟩
    · simp only [ne_eq, hn, not_false_eq_true, if_true]
      exact ⟨hlog, hpuback, rfl⟩

/-- The last count that an update brought, else the one of the start. -/
def lastCount (first : UploadLogConfig) (later : List UploadLogConfig) : ℤ :=
  ((later.filterMap UploadLogConfig.count).getLast?).getD (startCount first)

theorem lastCount_append_singleton (first : UploadLogConfig) (later : List UploadLogConfig)
    (cfg : UploadLogConfig) :
    lastCount first (later ++ [cfg]) = cfg.count.getD (lastCount first later) := by
  unfold lastCount
  rw [List.filterMap_append]
  cases hc : cfg.count with
  | none => simp [hc]
  | some n => simp [hc]

/-- The limit of the uploads and the one of the client are always the last count. -/
theorem held_counts (first : UploadLogConfig) (later : List UploadLogConfig) :
    (held first later).m_nEvntUploadLogIterCount = lastCount first later ∧
      (held first later).m_nPUBACKLogMaxCnt = lastCount first later := by
  induction later using List.reverseRecOn with
  | nil => exact ⟨(start_limits first).1, (start_limits first).2.1⟩
  | append_singleton later cfg ih =>
    obtain ⟨hlog, hpuback, -⟩ :=
      notifyConfigUpdate_limits (held first later) cfg (ih.2.trans ih.1.symm)
    rw [held_append_singleton, lastCount_append_singleton, hlog, hpuback, ih.1]
    exact ⟨rfl, rfl⟩

/-- The limit of the summaries is the one of the last update, or the default. -/
theorem held_summary (first : UploadLogConfig) (later : List UploadLogConfig)
    (cfg : UploadLogConfig) :
    (held first (later ++ [cfg])).m_nEvntUploadSummaryIterCount =
      cfg.summaryLogIterCount.getD DEF_UPLOAD_EVENT_SUMMARY_CNT := by
  obtain ⟨hlog, hpuback⟩ := held_counts first later
  rw [held_append_singleton]
  exact (notifyConfigUpdate_limits _ cfg (hpuback.trans hlog.symm)).2.2

/-! ## Updates against a start -/

/-- The last configuration is one that a start reads as the updates do: its count is positive
or -1; without a count, -1 is still in force; and its limit of the summaries is what a start
makes of it, the count if that is positive and the default else. -/
structure ReadAlike (first : UploadLogConfig) (later : List UploadLogConfig)
    (last : UploadLogConfig) : Prop where
  count : ∀ n, last.count = some n → 0 < n ∨ n = -1
  noCount : last.count = none → lastCount first later = -1
  summary : ∀ n, last.summaryLogIterCount = some n →
    n = if 0 < last.count.getD (-1) then last.count.getD (-1) else DEF_UPLOAD_EVENT_SUMMARY_CNT

/-- After a start and updates the limits are those of a start with the last configuration iff
there is no update, or the last one is read alike by both. -/
theorem held_eq_start_iff (first : UploadLogConfig) (later : List UploadLogConfig) :
    held first later = start (later.getLastD first) ↔
      ∀ last, later.getLast? = some last → ReadAlike first later last := by
  rcases List.eq_nil_or_concat later with rfl | ⟨earlier, cfg, rfl⟩
  · exact iff_of_true rfl fun last hlast => by cases hlast
  · rw [List.concat_eq_append]
    have hlast : (∀ last, (earlier ++ [cfg]).getLast? = some last →
        ReadAlike first (earlier ++ [cfg]) last) ↔ ReadAlike first (earlier ++ [cfg]) cfg := by
      simp
    obtain ⟨hlog, hpuback⟩ := held_counts first (earlier ++ [cfg])
    obtain ⟨hstartLog, hstartPuback, hstartSummary⟩ := start_limits cfg
    rw [hlast, List.getLastD_concat, UploadLogging.ext_iff, hlog, hpuback, held_summary,
      hstartLog, hstartPuback, hstartSummary]
    have hfields : ReadAlike first (earlier ++ [cfg]) cfg ↔ _ ∧ _ ∧ _ :=
      ⟨fun h => ⟨h.count, h.noCount, h.summary⟩, fun h => ⟨h.1, h.2.1, h.2.2⟩⟩
    rw [hfields, lastCount_append_singleton, startCount]
    generalize lastCount first earlier = before
    obtain ⟨count, summaryLogIterCount⟩ := cfg
    cases count with
    | none =>
      cases summaryLogIterCount with
      | none => simp
      | some m => simp +contextual
    | some n =>
      by_cases hn : 0 < n
      · cases summaryLogIterCount with
        | none => simp [hn]
        | some m => simp [hn]
      · cases summaryLogIterCount with
        | none => simp [hn]
        | some m => simp +contextual [hn]

/-- The same configuration again: the start sets the limit of the summaries to the count, the
update sets it to what the configuration says. -/
theorem held_ne_start_same :
    held ⟨some 5, some 20⟩ [⟨some 5, some 20⟩] = ⟨5, 20, 5⟩ ∧
      start ([⟨some 5, some 20⟩].getLastD ⟨some 5, some 20⟩) = ⟨5, 5, 5⟩ ∧
      held ⟨some 5, some 20⟩ [⟨some 5, some 20⟩] ≠
        start ([⟨some 5, some 20⟩].getLastD ⟨some 5, some 20⟩) := by
  decide

end UploadLogging

end DeviceClient
