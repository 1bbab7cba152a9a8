import DeviceClient.Lib.Run
import Mathlib.Data.Fintype.Basic
import Mathlib.Logic.Function.Basic

/-!
# Suspended uploads

The client suspends and resumes the uploads on demand, and the granularity reduction
suspends them while it runs. Both go through `CUploadController`, which has one flag for
itself and one in the uploader, and remembers nobody.

Any threads call `SuspendAnalytics` and `ResumeAnalytics`; the reduction runs in the database
thread. Every access to a flag or to the status is a step. The Insight Engine is left out.

* `next`: the next statement of a thread.
* `Inv`: who has set each flag, and will clear it.
* `respected_of_run`: where nobody clears the flag that the other one needs, it is set while
  somebody needs it, and cleared afterwards.
-/

namespace DeviceClient

namespace UploadSuspension

variable {κ : Type}

/-! ## Data -/

inductive ClientStatus where
  | eUNKNOWN
  | eSTARTING
  | eRUNNING
  | eSUSPENDED
  | eSTOPPED
deriving DecidableEq

/-- `SuspendUploadController`, with `SuspendDirectUploaders`. -/
inductive SuspendPc where
  | controller
  | uploader
deriving DecidableEq

/-- `ResumeUploadController`, with `ResumeDirectUploaders`. -/
inductive ResumePc where
  | controller
  | check
  | uploader
deriving DecidableEq

/-- Where a thread is in `SuspendAnalytics` or `ResumeAnalytics`. -/
inductive ClientPc where
  | outside
  | checkRunning
  | suspend (pc : SuspendPc)
  | setSuspended
  | checkSuspended
  | resume (pc : ResumePc)
  | setRunning
deriving DecidableEq

/-- Where the database thread is in `PerformGranularityReduction`. -/
inductive ReductionPc where
  | outside
  | suspend (pc : SuspendPc)
  | reducing
  | resume (pc : ResumePc)
deriving DecidableEq

/-- `m_bIsUploadersSuspended` of the controller and `m_bUploadSuspended` of the uploader. -/
structure SuspendFlags where
  m_bIsUploadersSuspended : Bool
  m_bUploadSuspended : Bool
deriving DecidableEq

structure State (κ : Type) where
  m_nClientStatus : ClientStatus
  flags : SuspendFlags
  client : κ → ClientPc
  reduction : ReductionPc

inductive Act (κ : Type) where
  /-- `StartAnalytics` has come to its end. -/
  | started
  | suspendAnalytics (t : κ)
  | resumeAnalytics (t : κ)
  | performGranularityReduction
  /-- The next statement of the client's call. -/
  | client (t : κ)
  /-- The next statement of the reduction. -/
  | reduction

def init : State κ := ⟨.eUNKNOWN, ⟨false, false⟩, fun _ => .outside, .outside⟩

/-! ## The steps -/

/-- `SuspendUploadController`: the flags, and the next statement. -/
def stepSuspend (flags : SuspendFlags) : SuspendPc → SuspendFlags × Option SuspendPc
  | .controller => ({ flags with m_bIsUploadersSuspended := true }, some .uploader)
  | .uploader => ({ flags with m_bUploadSuspended := true }, none)

/-- `ResumeUploadController`. -/
def stepResume (flags : SuspendFlags) : ResumePc → SuspendFlags × Option ResumePc
  | .controller => ({ flags with m_bIsUploadersSuspended := false }, some .check)
  | .check => (flags, if flags.m_bIsUploadersSuspended then none else some .uploader)
  | .uploader => ({ flags with m_bUploadSuspended := false }, none)

section Steps

variable [DecidableEq κ]

def State.goto (s : State κ) (t : κ) (pc : ClientPc) : State κ :=
  { s with client := Function.update s.client t pc }

/-- `SuspendAnalytics` and `ResumeAnalytics`. -/
def stepClient (s : State κ) (t : κ) : Option (State κ) :=
  match s.client t with
  | .outside => none
  | .checkRunning =>
    some (s.goto t (if s.m_nClientStatus = .eRUNNING then .suspend .controller else .outside))
  | .suspend pc =>
    some { s.goto t ((stepSuspend s.flags pc).2.elim .setSuspended .suspend) with
      flags := (stepSuspend s.flags pc).1 }
  | .setSuspended => some { s.goto t .outside with m_nClientStatus := .eSUSPENDED }
  | .checkSuspended =>
    some (s.goto t (if s.m_nClientStatus = .eSUSPENDED then .resume .controller else .outside))
  | .resume pc =>
    some { s.goto t ((stepResume s.flags pc).2.elim .setRunning .resume) with
      flags := (stepResume s.flags pc).1 }
  | .setRunning => some { s.goto t .outside with m_nClientStatus := .eRUNNING }

/-- `PerformGranularityReduction`. -/
def stepReduction (s : State κ) : Option (State κ) :=
  match s.reduction with
  | .outside => none
  | .suspend pc =>
    some { s with
      flags := (stepSuspend s.flags pc).1
      reduction := (stepSuspend s.flags pc).2.elim .reducing .suspend }
  | .reducing => some { s with reduction := .resume .controller }
  | .resume pc =>
    some { s with
      flags := (stepResume s.flags pc).1
      reduction := (stepResume s.flags pc).2.elim .outside .resume }

def next (s : State κ) : Act κ → Option (State κ)
  | .started =>
    if s.m_nClientStatus = .eUNKNOWN then some { s with m_nClientStatus := .eRUNNING } else none
  | .suspendAnalytics t =>
    match s.client t with
    | .outside => some (s.goto t .checkRunning)
    | _ => none
  | .resumeAnalytics t =>
    match s.client t with
    | .outside => some (s.goto t .checkSuspended)
    | _ => none
  | .performGranularityReduction =>
    match s.reduction with
    | .outside => some { s with reduction := .suspend .controller }
    | _ => none
  | .client t => stepClient s t
  | .reduction => stepReduction s

end Steps

/-! ## Who needs the suspension -/

/-- `SuspendAnalytics` has found the client running. -/
def ClientPc.suspends : ClientPc → Bool
  | .suspend _ | .setSuspended => true
  | _ => false

/-- `ResumeAnalytics` has found the client suspended. -/
def ClientPc.resumes : ClientPc → Bool
  | .resume _ | .setRunning => true
  | _ => false

/-- The client is suspended, and no call is about to end that. -/
def State.ClientSuspended (s : State κ) : Prop :=
  s.m_nClientStatus = .eSUSPENDED ∧ ∀ t, (s.client t).resumes = false

/-- Neither is the client suspended nor does the reduction run, and no call is under way. -/
def State.Quiet (s : State κ) : Prop :=
  s.m_nClientStatus ≠ .eSUSPENDED ∧ s.reduction = .outside ∧
    ∀ t, (s.client t).suspends = false ∧ (s.client t).resumes = false

/-- Every requester is respected. -/
def Respected (s : State κ) : Prop :=
  (s.ClientSuspended ∨ s.reduction = .reducing → s.flags.m_bUploadSuspended = true) ∧
    (s.Quiet → s.flags.m_bUploadSuspended = false)

/-- No one clears the flag of the uploader while the other requester needs it, and the client
is not suspended and resumed at the same time. -/
def Apart (s : State κ) : Act κ → Prop
  | .client t =>
    match s.client t with
    | .checkRunning => s.m_nClientStatus = .eRUNNING → ∀ u, (s.client u).resumes = false
    | .checkSuspended => s.m_nClientStatus = .eSUSPENDED → ∀ u, (s.client u).suspends = false
    | .resume .uploader => s.reduction ≠ .reducing
    | _ => True
  | .reduction =>
    s.reduction = .resume .uploader →
      ¬ s.ClientSuspended ∧ ∀ t, s.client t ≠ .setSuspended
  | _ => True

section Decide

variable [Fintype κ]

instance (s : State κ) : Decidable s.ClientSuspended :=
  inferInstanceAs (Decidable (_ ∧ _))

instance (s : State κ) : Decidable s.Quiet :=
  inferInstanceAs (Decidable (_ ∧ _ ∧ _))

instance (s : State κ) : Decidable (Respected s) :=
  inferInstanceAs (Decidable ((_ ∨ _ → _) ∧ (_ → _)))

instance (s : State κ) (a : Act κ) : Decidable (Apart s a) := by
  unfold Apart
  split
  · split <;> infer_instance
  · infer_instance
  · infer_instance

end Decide

/-! ## The flags -/

/-- The call has set the flag of the controller, and the client is not yet suspended. -/
def ClientPc.hasSet : ClientPc → Bool
  | .suspend .uploader | .setSuspended => true
  | _ => false

/-- The call has cleared the flag of the controller. -/
def ClientPc.hasCleared : ClientPc → Bool
  | .resume .check | .resume .uploader | .setRunning => true
  | _ => false

/-- The client has set the flags, and will clear them. -/
def State.ClientOwns (s : State κ) : Prop :=
  (∃ t, (s.client t).hasSet = true) ∨
    s.m_nClientStatus = .eSUSPENDED ∧ ∀ t, (s.client t).hasCleared = false

/-- The reduction has set the flag of the controller, and will clear it. -/
def ReductionPc.ownsController : ReductionPc → Bool
  | .suspend .uploader | .reducing | .resume .controller => true
  | _ => false

/-- The reduction has set the flag of the uploader or is about to, and has not yet let it be. -/
def ReductionPc.ownsUploader : ReductionPc → Bool
  | .suspend .uploader | .reducing | .resume _ => true
  | _ => false

structure Inv (s : State κ) : Prop where
  apart : ∀ t u, (s.client t).suspends = true → (s.client u).resumes = false
  suspended : s.ClientSuspended → s.flags.m_bUploadSuspended = true
  setting : ∀ t, s.client t = .setSuspended → s.flags.m_bUploadSuspended = true
  reducing : s.reduction = .reducing → s.flags.m_bUploadSuspended = true
  controller : s.flags.m_bIsUploadersSuspended = true →
    s.reduction.ownsController = true ∨ s.ClientOwns
  uploader : s.flags.m_bUploadSuspended = true →
    s.reduction.ownsUploader = true ∨ s.ClientOwns ∨
      ∃ t, s.client t = .resume .check ∨ s.client t = .resume .uploader

theorem inv_init : Inv (init : State κ) where
  apart := nofun
  suspended := nofun
  setting := nofun
  reducing := nofun
  controller := nofun
  uploader := nofun

variable {s s' : State κ}

theorem Inv.respected (h : Inv s) : Respected s := by
  constructor
  · rintro (hsuspended | hreducing)
    · exact h.suspended hsuspended
    · exact h.reducing hreducing
  · rintro ⟨hstatus, hreduction, hcalls⟩
    refine Bool.eq_false_iff.2 fun hset => ?_
    rcases h.uploader hset with howns | (⟨t, ht⟩ | ⟨hsuspended, -⟩) | ⟨t, ht⟩
    · rw [hreduction] at howns
      exact nomatch howns
    · -- a call that has set the flag is under way
      have hnone := (hcalls t).1
      generalize s.client t = pc at ht hnone
      cases pc with
      | suspend pc => exact nomatch hnone
      | setSuspended => exact nomatch hnone
      | outside => exact nomatch ht
      | checkRunning => exact nomatch ht
      | checkSuspended => exact nomatch ht
      | resume pc => cases pc <;> exact nomatch ht
      | setRunning => exact nomatch ht
    · exact hstatus hsuspended
    · have hnone := (hcalls t).2
      rcases ht with ht | ht
      · rw [ht] at hnone
        exact nomatch hnone
      · rw [ht] at hnone
        exact nomatch hnone

theorem not_hasCleared_of_not_resumes {pc : ClientPc} (h : pc.resumes = false) :
    pc.hasCleared = false := by
  cases pc with
  | resume pc => exact nomatch h
  | setRunning => exact nomatch h
  | _ => rfl

theorem ownsUploader_of_ownsController {pc : ReductionPc} (h : pc.ownsController = true) :
    pc.ownsUploader = true := by
  cases pc with
  | suspend pc => cases pc <;> first | rfl | exact nomatch h
  | reducing => rfl
  | resume pc => rfl
  | outside => exact nomatch h

section Client

variable [DecidableEq κ]

theorem client_goto_self (t : κ) (pc : ClientPc) : (s.goto t pc).client t = pc := by
  simp [State.goto]

theorem client_goto_of_ne {t u : κ} (pc : ClientPc) (h : u ≠ t) :
    (s.goto t pc).client u = s.client u := by
  simp [State.goto, h]

/-- What a step of one call does not change is as before for all. -/
theorem goto_same (p : ClientPc → Bool) {t : κ} {pc : ClientPc} (h : p pc = p (s.client t))
    (u : κ) : p ((s.goto t pc).client u) = p (s.client u) := by
  by_cases hut : u = t
  · rw [hut, client_goto_self, h]
  · rw [client_goto_of_ne pc hut]

/-- What a step of one call at most ends was so before. -/
theorem goto_imp (p : ClientPc → Bool) {t u : κ} {pc : ClientPc} (h : p pc = false)
    (hu : p ((s.goto t pc).client u) = true) : p (s.client u) = true := by
  by_cases hut : u = t
  · rw [hut, client_goto_self, h] at hu
    exact nomatch hu
  · rw [client_goto_of_ne pc hut] at hu
    exact hu

theorem clientOwns_goto {t : κ} {pc : ClientPc} (hset : pc.hasSet = (s.client t).hasSet)
    (hcleared : pc.hasCleared = (s.client t).hasCleared) (h : s.ClientOwns) :
    (s.goto t pc).ClientOwns := by
  rcases h with ⟨u, hu⟩ | ⟨hstatus, hnone⟩
  · exact Or.inl ⟨u, (goto_same ClientPc.hasSet hset u).trans hu⟩
  · exact Or.inr ⟨hstatus, fun u => (goto_same ClientPc.hasCleared hcleared u).trans (hnone u)⟩

/-- A statement that changes nothing but where the call is. -/
theorem inv_goto (h : Inv s) {t : κ} {pc : ClientPc}
    (hset : pc.hasSet = (s.client t).hasSet)
    (hcleared : pc.hasCleared = (s.client t).hasCleared) (hpc : pc ≠ .setSuspended)
    (hapart : ∀ u v, ((s.goto t pc).client u).suspends = true →
      ((s.goto t pc).client v).resumes = false)
    (hresumes : pc.resumes = false → (s.client t).resumes = false)
    (hclears : (s.client t = .resume .check ∨ s.client t = .resume .uploader) →
      pc = .resume .check ∨ pc = .resume .uploader) : Inv (s.goto t pc) where
  apart := hapart
  suspended := by
    rintro ⟨hstatus, hnone⟩
    refine h.suspended ⟨hstatus, fun u => ?_⟩
    by_cases hut : u = t
    · have hnew := hnone t
      rw [client_goto_self] at hnew
      rw [hut]
      exact hresumes hnew
    · have hold := hnone u
      rw [client_goto_of_ne pc hut] at hold
      exact hold
  setting := by
    intro u hu
    by_cases hut : u = t
    · rw [hut, client_goto_self] at hu
      exact absurd hu hpc
    · rw [client_goto_of_ne pc hut] at hu
      exact h.setting u hu
  reducing := h.reducing
  controller hc := (h.controller hc).imp_right (clientOwns_goto hset hcleared)
  uploader hu := by
    rcases h.uploader hu with howns | howns | ⟨u, hclearing⟩
    · exact Or.inl howns
    · exact Or.inr (Or.inl (clientOwns_goto hset hcleared howns))
    · refine Or.inr (Or.inr ⟨u, ?_⟩)
      by_cases hut : u = t
      · rw [hut, client_goto_self]
        exact hclears (hut ▸ hclearing)
      · rw [client_goto_of_ne pc hut]
        exact hclearing

/-- A call begins, or finds nothing to do. -/
theorem inv_begin (h : Inv s) {t : κ} {pc : ClientPc}
    (hold : (s.client t).suspends = false ∧ (s.client t).resumes = false)
    (hnew : pc.suspends = false ∧ pc.resumes = false) : Inv (s.goto t pc) := by
  have hplain : ∀ {pc : ClientPc}, pc.suspends = false ∧ pc.resumes = false →
      pc.hasSet = false ∧ pc.hasCleared = false ∧ pc ≠ .setSuspended ∧
        ¬(pc = .resume .check ∨ pc = .resume .uploader) := by
    rintro pc ⟨hsuspends, hresumes⟩
    cases pc with
    | suspend pc => exact nomatch hsuspends
    | setSuspended => exact nomatch hsuspends
    | resume pc => exact nomatch hresumes
    | setRunning => exact nomatch hresumes
    | _ => exact ⟨rfl, rfl, nofun, by rintro (h | h) <;> exact nomatch h⟩
  obtain ⟨hset, hcleared, hpc, -⟩ := hplain hnew
  obtain ⟨hset', hcleared', -, hclears⟩ := hplain hold
  refine inv_goto h (hset.trans hset'.symm) (hcleared.trans hcleared'.symm) hpc
    (fun u v hu => ?_) (fun _ => hold.2) fun hclearing => absurd hclearing hclears
  rw [goto_same ClientPc.suspends (hnew.1.trans hold.1.symm)] at hu
  rw [goto_same ClientPc.resumes (hnew.2.trans hold.2.symm)]
  exact h.apart u v hu

/-- The client suspends: it sets the flag of the controller, then that of the uploader. -/
theorem inv_suspend (h : Inv s) {t : κ} {pc : SuspendPc} (hpc : s.client t = .suspend pc) :
    Inv { s.goto t ((stepSuspend s.flags pc).2.elim .setSuspended .suspend) with
      flags := (stepSuspend s.flags pc).1 } := by
  have hnew : ∀ pc' : ClientPc, pc'.suspends = true → pc'.resumes = false →
      ∀ u v, ((s.goto t pc').client u).suspends = true →
        ((s.goto t pc').client v).resumes = false := by
    intro pc' hsuspends hresumes u v hu
    rw [goto_same ClientPc.suspends (hsuspends.trans (by rw [hpc]; rfl))] at hu
    rw [goto_same ClientPc.resumes (hresumes.trans (by rw [hpc]; rfl))]
    exact h.apart u v hu
  have howns : ∀ pc' : ClientPc, pc'.hasSet = true → (s.goto t pc').ClientOwns := by
    intro pc' hset
    exact Or.inl ⟨t, by rw [client_goto_self]; exact hset⟩
  cases pc with
  | controller =>
    have hbefore : (s.goto t (.suspend .uploader)).ClientSuspended → s.ClientSuspended := by
      rintro ⟨hstatus, hnone⟩
      refine ⟨hstatus, fun u => ?_⟩
      have hsame := @goto_same _ s _ ClientPc.resumes t (.suspend .uploader) (by rw [hpc]; rfl) u
      exact hsame.symm.trans (hnone u)
    refine ⟨hnew (.suspend .uploader) rfl rfl, fun hs => h.suspended (hbefore hs),
      fun u hu => h.setting u ?_, h.reducing, fun _ => Or.inr (howns (.suspend .uploader) rfl),
      fun _ => Or.inr (Or.inl (howns (.suspend .uploader) rfl))⟩
    have hsetting := @goto_imp _ s _ (fun pc' => decide (pc' = .setSuspended)) t u
      (.suspend .uploader) rfl (decide_eq_true hu)
    exact of_decide_eq_true hsetting
  | uploader =>
    exact ⟨hnew .setSuspended rfl rfl, fun _ => rfl, fun _ _ => rfl, fun _ => rfl,
      fun _ => Or.inr (howns .setSuspended rfl), fun _ => Or.inr (Or.inl (howns .setSuspended rfl))⟩

/-- The client is suspended, with the flag of the uploader set. -/
theorem inv_setSuspended (h : Inv s) {t : κ} (hpc : s.client t = .setSuspended) :
    Inv { s.goto t .outside with m_nClientStatus := .eSUSPENDED } := by
  have hset := h.setting t hpc
  have hnone : ∀ u, (s.client u).resumes = false := fun u => h.apart t u (by rw [hpc]; rfl)
  have hnone' : ∀ u, ((s.goto t .outside).client u).resumes = false := by
    intro u
    rw [goto_same ClientPc.resumes (by rw [hpc]; rfl)]
    exact hnone u
  have howns : State.ClientOwns { s.goto t .outside with m_nClientStatus := .eSUSPENDED } :=
    Or.inr ⟨rfl, fun u => not_hasCleared_of_not_resumes (hnone' u)⟩
  exact ⟨fun u v _ => hnone' v, fun _ => hset, fun _ _ => hset, fun _ => hset,
    fun _ => Or.inr howns, fun _ => Or.inr (Or.inl howns)⟩

omit [DecidableEq κ] in
/-- A call that resumes is alone with others that do. -/
theorem apart_of_resumes (h : Inv s) {t : κ} (hpc : (s.client t).resumes = true) (u : κ) :
    (s.client u).suspends = false := by
  refine Bool.eq_false_iff.2 fun hu => ?_
  exact Bool.false_ne_true ((h.apart u t hu).symm.trans hpc)

/-- The client resumes, and clears no flag that the reduction needs. -/
theorem inv_resume (h : Inv s) {t : κ} {pc : ResumePc} (hpc : s.client t = .resume pc)
    (happart : pc = .uploader → s.reduction ≠ .reducing) :
    Inv { s.goto t ((stepResume s.flags pc).2.elim .setRunning .resume) with
      flags := (stepResume s.flags pc).1 } := by
  have hresumes : (s.client t).resumes = true := by
    rw [hpc]
    rfl
  have hnone : ∀ (pc' : ClientPc) (u : κ), pc'.suspends = false →
      ((s.goto t pc').client u).suspends = false := by
    intro pc' u hpc'
    rw [goto_same ClientPc.suspends (by rw [hpc', apart_of_resumes h hresumes t])]
    exact apart_of_resumes h hresumes u
  -- while the call is under way the client does not count as suspended
  have hnot : ∀ pc' : ClientPc, pc'.resumes = true → ¬ ∀ u,
      ((s.goto t pc').client u).resumes = false := by
    intro pc' hpc' hall
    have ht := hall t
    rw [client_goto_self, hpc'] at ht
    exact Bool.false_ne_true ht.symm
  have hsetting : ∀ (pc' : ClientPc) (u : κ), pc'.suspends = false →
      (s.goto t pc').client u ≠ .setSuspended := by
    intro pc' u hpc' hu
    have hfalse := hnone pc' u hpc'
    rw [hu] at hfalse
    exact absurd hfalse (by decide)
  cases pc with
  | controller =>
    exact ⟨fun u v hu => absurd ((hnone (.resume .check) u rfl).symm.trans hu) Bool.false_ne_true,
      fun hs => absurd hs.2 (hnot (.resume .check) rfl),
      fun u hu => absurd hu (hsetting (.resume .check) u rfl), h.reducing,
      fun hc => absurd hc Bool.false_ne_true,
      fun _ => Or.inr (Or.inr ⟨t, Or.inl (client_goto_self t _)⟩)⟩
  | check =>
    cases hflag : s.flags.m_bIsUploadersSuspended with
    | false =>
      have hstep : stepResume s.flags .check = (s.flags, some .uploader) := by
        unfold stepResume
        rw [hflag, if_neg Bool.false_ne_true]
      rw [hstep]
      refine ⟨fun u v hu => absurd ((hnone (.resume .uploader) u rfl).symm.trans hu)
          Bool.false_ne_true, fun hs => absurd hs.2 (hnot (.resume .uploader) rfl),
        fun u hu => absurd hu (hsetting (.resume .uploader) u rfl), h.reducing,
        fun hc => absurd (hflag.symm.trans hc) Bool.false_ne_true,
        fun _ => Or.inr (Or.inr ⟨t, Or.inr (client_goto_self t _)⟩)⟩
    | true =>
      -- somebody has set the flag since, and will clear both
      have hstep : stepResume s.flags .check = (s.flags, none) := by
        unfold stepResume
        rw [hflag, if_pos rfl]
      rw [hstep]
      have howner : s.reduction.ownsController = true ∨ (s.goto t .setRunning).ClientOwns :=
        (h.controller hflag).imp_right
          (clientOwns_goto (by rw [hpc]; rfl) (by rw [hpc]; rfl))
      refine ⟨fun u v hu => absurd ((hnone .setRunning u rfl).symm.trans hu) Bool.false_ne_true,
        fun hs => absurd hs.2 (hnot .setRunning rfl),
        fun u hu => absurd hu (hsetting .setRunning u rfl), h.reducing, fun _ => howner,
        fun _ => howner.imp ownsUploader_of_ownsController Or.inl⟩
  | uploader =>
    refine ⟨fun u v hu => absurd ((hnone .setRunning u rfl).symm.trans hu) Bool.false_ne_true,
      fun hs => absurd hs.2 (hnot .setRunning rfl),
      fun u hu => absurd hu (hsetting .setRunning u rfl),
      fun hreducing => absurd hreducing (happart rfl), fun hc => ?_,
      fun hu => absurd hu Bool.false_ne_true⟩
    exact (h.controller hc).imp_right (clientOwns_goto (by rw [hpc]; rfl) (by rw [hpc]; rfl))

/-- The client runs again. -/
theorem inv_setRunning (h : Inv s) {t : κ} (hpc : s.client t = .setRunning) :
    Inv { s.goto t .outside with m_nClientStatus := .eRUNNING } := by
  have hresumes : (s.client t).resumes = true := by
    rw [hpc]
    rfl
  have hnone : ∀ u, ((s.goto t .outside).client u).suspends = false := by
    intro u
    rw [goto_same ClientPc.suspends (by rw [hpc]; rfl)]
    exact apart_of_resumes h hresumes u
  -- who has set a flag is not the one that resumes
  have howns : s.ClientOwns →
      State.ClientOwns { s.goto t .outside with m_nClientStatus := .eRUNNING } := by
    rintro (⟨u, hu⟩ | ⟨-, hcleared⟩)
    · exact Or.inl ⟨u, (goto_same ClientPc.hasSet (by rw [hpc]; rfl) u).trans hu⟩
    · have ht := hcleared t
      rw [hpc] at ht
      exact nomatch ht
  refine ⟨fun u v hu => absurd ((hnone u).symm.trans hu) Bool.false_ne_true, nofun,
    fun u hu => ?_, h.reducing, fun hc => (h.controller hc).imp_right howns, fun hu => ?_⟩
  · have hfalse := hnone u
    rw [show (s.goto t .outside).client u = .setSuspended from hu] at hfalse
    exact nomatch hfalse
  · rcases h.uploader hu with hown | hown | ⟨u, hclearing⟩
    · exact Or.inl hown
    · exact Or.inr (Or.inl (howns hown))
    · refine Or.inr (Or.inr ⟨u, ?_⟩)
      have hut : u ≠ t := by
        rintro rfl
        rw [hpc] at hclearing
        rcases hclearing with hclearing | hclearing <;> exact nomatch hclearing
      show (s.goto t .outside).client u = _ ∨ (s.goto t .outside).client u = _
      rw [client_goto_of_ne .outside hut]
      exact hclearing

theorem inv_stepClient (h : Inv s) {t : κ} (happart : Apart s (.client t))
    (hnext : stepClient s t = some s') : Inv s' := by
  unfold stepClient at hnext
  unfold Apart at happart
  dsimp only at happart
  split at hnext
  · exact nomatch hnext
  · rename_i hpc
    rw [hpc] at happart
    cases hnext
    by_cases hstatus : s.m_nClientStatus = .eRUNNING
    · -- no call resumes meanwhile
      rw [if_pos hstatus]
      refine inv_goto h (by rw [hpc]; rfl) (by rw [hpc]; rfl) nofun (fun u v _ => ?_)
        (fun _ => by rw [hpc]; rfl) (by rw [hpc]; rintro (h | h) <;> exact nomatch h)
      rw [goto_same ClientPc.resumes (by rw [hpc]; rfl)]
      exact happart hstatus v
    · rw [if_neg hstatus]
      exact inv_begin h (by rw [hpc]; exact ⟨rfl, rfl⟩) ⟨rfl, rfl⟩
  · rename_i pc hpc
    cases hnext
    exact inv_suspend h hpc
  · rename_i hpc
    cases hnext
    exact inv_setSuspended h hpc
  · rename_i hpc
    rw [hpc] at happart
    cases hnext
    by_cases hstatus : s.m_nClientStatus = .eSUSPENDED
    · -- no call suspends meanwhile
      rw [if_pos hstatus]
      refine inv_goto h (by rw [hpc]; rfl) (by rw [hpc]; rfl) nofun (fun u v hu => ?_) nofun
        (by rw [hpc]; rintro (h | h) <;> exact nomatch h)
      rw [goto_same ClientPc.suspends (by rw [hpc]; rfl)] at hu
      exact absurd ((happart hstatus u).symm.trans hu) Bool.false_ne_true
    · rw [if_neg hstatus]
      exact inv_begin h (by rw [hpc]; exact ⟨rfl, rfl⟩) ⟨rfl, rfl⟩
  · rename_i pc hpc
    rw [hpc] at happart
    cases hnext
    refine inv_resume h hpc ?_
    rintro rfl
    exact happart
  · rename_i hpc
    cases hnext
    exact inv_setRunning h hpc

end Client

/-! ## The reduction -/

/-- The reduction suspends the uploads. -/
theorem inv_reductionSuspend (h : Inv s) {pc : SuspendPc} (hpc : s.reduction = .suspend pc) :
    Inv { s with
      flags := (stepSuspend s.flags pc).1
      reduction := (stepSuspend s.flags pc).2.elim .reducing .suspend } := by
  cases pc with
  | controller =>
    exact ⟨h.apart, h.suspended, h.setting, nofun, fun _ => Or.inl rfl, fun _ => Or.inl rfl⟩
  | uploader =>
    exact ⟨h.apart, fun _ => rfl, fun _ _ => rfl, fun _ => rfl, fun _ => Or.inl rfl,
      fun _ => Or.inl rfl⟩

/-- The reduction resumes the uploads, and clears no flag that the client needs. -/
theorem inv_reductionResume (h : Inv s) {pc : ResumePc} (hpc : s.reduction = .resume pc)
    (happart : pc = .uploader → ¬ s.ClientSuspended ∧ ∀ t, s.client t ≠ .setSuspended) :
    Inv { s with
      flags := (stepResume s.flags pc).1
      reduction := (stepResume s.flags pc).2.elim .outside .resume } := by
  cases pc with
  | controller =>
    exact ⟨h.apart, h.suspended, h.setting, nofun, nofun, fun _ => Or.inl rfl⟩
  | check =>
    cases hflag : s.flags.m_bIsUploadersSuspended with
    | false =>
      have hstep : stepResume s.flags .check = (s.flags, some .uploader) := by
        unfold stepResume
        rw [hflag, if_neg Bool.false_ne_true]
      rw [hstep]
      exact ⟨h.apart, h.suspended, h.setting, nofun,
        fun hc => absurd (hflag.symm.trans hc) Bool.false_ne_true, fun _ => Or.inl rfl⟩
    | true =>
      -- the client has set the flag since, and will clear both
      have hstep : stepResume s.flags .check = (s.flags, none) := by
        unfold stepResume
        rw [hflag, if_pos rfl]
      rw [hstep]
      have howner : s.ClientOwns := by
        rcases h.controller hflag with howns | howns
        · rw [hpc] at howns
          exact nomatch howns
        · exact howns
      exact ⟨h.apart, h.suspended, h.setting, nofun, fun _ => Or.inr howner,
        fun _ => Or.inr (Or.inl howner)⟩
  | uploader =>
    rcases happart rfl with ⟨hclient, hsetting⟩
    refine ⟨h.apart, fun hs => absurd hs hclient, fun t ht => absurd ht (hsetting t), nofun,
      fun hc => Or.inr ?_, nofun⟩
    rcases h.controller hc with howns | howns
    · rw [hpc] at howns
      exact nomatch howns
    · exact howns

/-! ## Runs -/

theorem inv_next [DecidableEq κ] (h : Inv s) {a : Act κ} (happart : Apart s a)
    (hnext : next s a = some s') : Inv s' := by
  cases a with
  | started =>
    unfold next at hnext
    dsimp only at hnext
    by_cases hstatus : s.m_nClientStatus = .eUNKNOWN
    · rw [if_pos hstatus] at hnext
      cases hnext
      -- the client is not suspended before the start
      have howns : s.ClientOwns →
          State.ClientOwns { s with m_nClientStatus := .eRUNNING } := by
        rintro (hset | ⟨hsuspended, -⟩)
        · exact Or.inl hset
        · exact absurd (hstatus.symm.trans hsuspended) nofun
      exact ⟨h.apart, nofun, h.setting, h.reducing, fun hc => (h.controller hc).imp_right howns,
        fun hu => (h.uploader hu).imp_right (Or.imp_left howns)⟩
    · rw [if_neg hstatus] at hnext
      exact nomatch hnext
  | suspendAnalytics t =>
    unfold next at hnext
    dsimp only at hnext
    split at hnext
    · rename_i hpc
      cases hnext
      exact inv_begin h (by rw [hpc]; exact ⟨rfl, rfl⟩) ⟨rfl, rfl⟩
    · exact nomatch hnext
  | resumeAnalytics t =>
    unfold next at hnext
    dsimp only at hnext
    split at hnext
    · rename_i hpc
      cases hnext
      exact inv_begin h (by rw [hpc]; exact ⟨rfl, rfl⟩) ⟨rfl, rfl⟩
    · exact nomatch hnext
  | performGranularityReduction =>
    unfold next at hnext
    dsimp only at hnext
    split at hnext
    · rename_i hpc
      cases hnext
      refine ⟨h.apart, h.suspended, h.setting, nofun, fun hc => ?_, fun hu => ?_⟩
      · exact (h.controller hc).imp_left fun howns => by rw [hpc] at howns; exact nomatch howns
      · exact (h.uploader hu).imp_left fun howns => by rw [hpc] at howns; exact nomatch howns
    · exact nomatch hnext
  | client t => exact inv_stepClient h happart hnext
  | reduction =>
    unfold next stepReduction at hnext
    dsimp only at hnext
    split at hnext
    · exact nomatch hnext
    · rename_i pc hpc
      cases hnext
      exact inv_reductionSuspend h hpc
    · rename_i hpc
      cases hnext
      refine ⟨h.apart, h.suspended, h.setting, nofun, fun hc => ?_, fun _ => Or.inl rfl⟩
      exact (h.controller hc).imp_left fun _ => rfl
    · rename_i pc hpc
      cases hnext
      refine inv_reductionResume h hpc ?_
      rintro rfl
      exact happart hpc

/-- Where no one clears the flag that the other one needs, the uploads are suspended while the
client is or the reduction runs, and not for longer. -/
theorem respected_of_run [DecidableEq κ] (run : List (Act κ)) (s : State κ)
    (halong : Lib.Along next Apart init run) (hrun : Lib.exec next init run = some s) :
    Respected s :=
  (Lib.exec_inv (fun _ _ _ h happart hnext => inv_next h happart hnext) run init s inv_init
    halong hrun).respected

/-- One call of the client after the other, and the reduction apart from them. -/
theorem respected_of_run_oneByOne :
    ∃ s, Lib.exec next init
      (.started :: .suspendAnalytics true :: List.replicate 4 (.client true) ++
        .resumeAnalytics true :: List.replicate 5 (.client true) ++
        .performGranularityReduction :: List.replicate 2 .reduction) = some s ∧
      s.reduction = .reducing ∧ Respected s := by
  refine ⟨_, rfl, rfl, respected_of_run
    (.started :: .suspendAnalytics true :: List.replicate 4 (.client true) ++
      .resumeAnalytics true :: List.replicate 5 (.client true) ++
      .performGranularityReduction :: List.replicate 2 .reduction) _ ?_ rfl⟩
  decide +kernel

/-- The reduction resumes while the client is suspended, and the other way round. -/
theorem not_respected :
    (∃ s, Lib.exec next init
      (.started :: .suspendAnalytics true :: List.replicate 4 (.client true) ++
        .performGranularityReduction :: List.replicate 6 .reduction) = some s ∧
      s.ClientSuspended ∧ ¬ Respected s) ∧
    ∃ s, Lib.exec next init
      (.started :: .suspendAnalytics true :: List.replicate 4 (.client true) ++
        .performGranularityReduction :: List.replicate 2 .reduction ++
        .resumeAnalytics true :: List.replicate 4 (.client true)) = some s ∧
      s.reduction = .reducing ∧ ¬ Respected s :=
  ⟨⟨_, rfl, by decide +kernel⟩, ⟨_, rfl, by decide +kernel⟩⟩

end UploadSuspension

end DeviceClient
