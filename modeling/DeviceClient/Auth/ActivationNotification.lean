import DeviceClient.Auth.TokenManager
import DeviceClient.Lib.Run

/-!
# The activation state that the device is told

`SetActivationState` sends an `ActivationStateRequest` event and then changes the two fields;
`CDeviceActivationHandler` reads the fields when the event comes to it and delivers them. Every
access to a field is a step, and the steps of the call and of the handler interleave.

* `Fresh`: the device has the current state.
* `right_next_iff`: the reads that break what the device will be told.
* `fresh_runs_iff`: the runs after which it has the current state.
-/

namespace DeviceClient

/-- Where a call of `SetActivationState` is. -/
inductive SetterPc where
  | idle
  /-- In `UpdateActivationStateChanged`. -/
  | send (bState : Bool) (eNotActivationReason : ActivationFailureError)
  | writeReason (bState : Bool) (eNotActivationReason : ActivationFailureError)
  | writeState (bState : Bool) (eNotActivationReason : ActivationFailureError)
deriving DecidableEq

/-- Where `UpdateActivationStatusChanged` is, with what it has read. -/
inductive ActivationHandlerPc where
  | idle
  | readState
  | readReason (bState : Bool)
  | deliver (bState : Bool) (nReason : ActivationFailureError)
deriving DecidableEq

/-- The fields, the call, the events that are not taken yet, the handler and what it delivered
last. -/
structure ActivationNotification where
  fields : ActivationState
  setter : SetterPc
  events : ℕ
  handler : ActivationHandlerPc
  delivered : Option (Bool × ActivationFailureError)
  /-- An event was sent at some time. -/
  bSent : Bool
deriving DecidableEq

inductive ActivationStep where
  | setActivationState (bState : Bool) (eNotActivationReason : ActivationFailureError)
  /-- The next statement of the call. -/
  | setter
  /-- `ProcessEvent`. -/
  | processEvent
  /-- The next statement of the handler. -/
  | handler
deriving DecidableEq

namespace ActivationNotification

/-- After the constructor. -/
def init : ActivationNotification := ⟨⟨false, .eNO_ERROR, ""⟩, .idle, 0, .idle, none, false⟩

/-- `SetActivationState`, up to the comparison. -/
def call (s : ActivationNotification) (bState : Bool)
    (eNotActivationReason : ActivationFailureError) : Option ActivationNotification :=
  if s.setter = .idle then
    if s.fields.bActivationState ≠ bState ∨ s.fields.eNotActivationReason ≠ eNotActivationReason then
      some { s with setter := .send bState eNotActivationReason }
    else some s
  else none

def stepSetter (s : ActivationNotification) : Option ActivationNotification :=
  match s.setter with
  | .idle => none
  | .send bState eReason =>
    -- the event is on its way before a field is written
    some { s with setter := .writeReason bState eReason, events := s.events + 1, bSent := true }
  | .writeReason bState eReason =>
    some { s with
      setter := .writeState bState eReason
      fields := { s.fields with eNotActivationReason := eReason } }
  | .writeState bState _ =>
    some { s with setter := .idle, fields := { s.fields with bActivationState := bState } }

def stepHandler (s : ActivationNotification) : Option ActivationNotification :=
  match s.handler with
  | .idle => none
  | .readState => some { s with handler := .readReason s.fields.bActivationState }
  | .readReason bState => some { s with handler := .deliver bState s.fields.eNotActivationReason }
  | .deliver bState nReason => some { s with handler := .idle, delivered := some (bState, nReason) }

def next (s : ActivationNotification) : ActivationStep → Option ActivationNotification
  | .setActivationState bState eReason => s.call bState eReason
  | .setter => s.stepSetter
  | .processEvent =>
    if s.events ≠ 0 ∧ s.handler = .idle then
      some { s with events := s.events - 1, handler := .readState }
    else none
  | .handler => s.stepHandler

/-! ## What the device is told -/

/-- No call is in progress, and all sent events have been processed. -/
def Quiet (s : ActivationNotification) : Prop :=
  s.setter = .idle ∧ s.events = 0 ∧ s.handler = .idle

def current (s : ActivationNotification) : Bool × ActivationFailureError :=
  (s.fields.bActivationState, s.fields.eNotActivationReason)

/-- What was delivered last is current. -/
def Fresh (s : ActivationNotification) : Prop := s.bSent = true → s.delivered = some s.current

/-- The state that the call in progress leaves. -/
def target (s : ActivationNotification) : Bool × ActivationFailureError :=
  match s.setter with
  | .writeReason bState eReason => (bState, eReason)
  | .writeState bState eReason => (bState, eReason)
  | _ => s.current

/-- No event is waiting, and none is about to be sent. -/
def NoEvent (s : ActivationNotification) : Prop :=
  s.events = 0 ∧ ∀ bState eReason, s.setter ≠ .send bState eReason

/-- A field that the handler reads, with no event to follow, is not changed by the call in
progress. -/
def ReadOk (s : ActivationNotification) : ActivationStep → Prop
  | .handler =>
    match s.handler with
    | .readState => s.NoEvent → s.fields.bActivationState = s.target.1
    | .readReason _ => s.NoEvent → s.fields.eNotActivationReason = s.target.2
    | _ => True
  | _ => True

instance (s : ActivationNotification) : Decidable s.NoEvent :=
  match hpc : s.setter with
  | .send bState eReason => .isFalse fun hnone => hnone.2 bState eReason hpc
  | .idle | .writeReason _ _ | .writeState _ _ =>
    decidable_of_iff (s.events = 0) ⟨fun h => ⟨h, by rw [hpc]; exact nofun⟩, And.left⟩

instance (s : ActivationNotification) : ∀ a, Decidable (s.ReadOk a)
  | .setActivationState _ _ | .setter | .processEvent => .isTrue trivial
  | .handler =>
    match hpc : s.handler with
    | .idle | .deliver _ _ => .isTrue (by unfold ReadOk; rw [hpc]; trivial)
    | .readState =>
      decidable_of_iff (s.NoEvent → s.fields.bActivationState = s.target.1)
        (by unfold ReadOk; rw [hpc])
    | .readReason _ =>
      decidable_of_iff (s.NoEvent → s.fields.eNotActivationReason = s.target.2)
        (by unfold ReadOk; rw [hpc])

/-! ## Invariants -/

/-- A call that writes the state has written the reason, and an event that is waiting or processed
was sent. -/
structure Inv (s : ActivationNotification) : Prop where
  reason : ∀ bState eReason, s.setter = .writeState bState eReason →
    s.fields.eNotActivationReason = eReason
  sent : s.events ≠ 0 ∨ s.handler ≠ .idle → s.bSent = true

/-- With no event to follow, the handler has read what the call leaves. -/
def Right (s : ActivationNotification) : Prop :=
  s.NoEvent → match s.handler with
    | .idle => s.bSent = true → s.delivered = some s.target
    | .readState => True
    | .readReason bState => bState = s.target.1
    | .deliver bState nReason => (bState, nReason) = s.target

theorem inv_init : init.Inv := ⟨nofun, by decide⟩

theorem right_init : init.Right := fun _ => nofun

theorem inv_next {s s' : ActivationNotification} {a : ActivationStep} (hs : s.Inv)
    (hnext : s.next a = some s') : s'.Inv := by
  cases a with
  | setActivationState bState eReason =>
    simp only [next, call] at hnext
    split_ifs at hnext with hidle
    · cases hnext
      exact ⟨nofun, hs.sent⟩
    · cases hnext
      exact hs
  | setter =>
    simp only [next, stepSetter] at hnext
    cases hpc : s.setter with
    | idle =>
      rw [hpc] at hnext
      cases hnext
    | send bState eReason =>
      rw [hpc] at hnext
      cases hnext
      exact ⟨nofun, fun _ => rfl⟩
    | writeReason bState eReason =>
      rw [hpc] at hnext
      cases hnext
      refine ⟨fun bState' eReason' hsame => ?_, hs.sent⟩
      cases hsame
      rfl
    | writeState bState eReason =>
      rw [hpc] at hnext
      cases hnext
      exact ⟨nofun, hs.sent⟩
  | processEvent =>
    simp only [next] at hnext
    split_ifs at hnext with hguard
    cases hnext
    -- the event that is taken was sent
    exact ⟨hs.reason, fun _ => hs.sent (Or.inl hguard.1)⟩
  | handler =>
    simp only [next, stepHandler] at hnext
    cases hpc : s.handler with
    | idle =>
      rw [hpc] at hnext
      cases hnext
    | readState | readReason _ =>
      rw [hpc] at hnext
      cases hnext
      exact ⟨hs.reason, fun _ => hs.sent (Or.inr (by simp [hpc]))⟩
    | deliver bState nReason =>
      rw [hpc] at hnext
      cases hnext
      exact ⟨hs.reason, fun _ => hs.sent (Or.inr (by simp [hpc]))⟩

/-- The handler, the events and what the call leaves are as they were. -/
theorem Right.congr {s s' : ActivationNotification} (hright : s.Right)
    (hevent : s'.NoEvent → s.NoEvent) (hhandler : s'.handler = s.handler)
    (htarget : s'.target = s.target) (hsent : s'.bSent = s.bSent)
    (hdelivered : s'.delivered = s.delivered) : s'.Right := by
  intro hnone
  rw [hhandler, htarget, hsent, hdelivered]
  exact hright (hevent hnone)

/-- The call keeps it: an event goes before the fields. -/
theorem right_setter {s s' : ActivationNotification} (hs : s.Inv) (hright : s.Right)
    (hnext : s.stepSetter = some s') : s'.Right := by
  unfold stepSetter at hnext
  cases hpc : s.setter with
  | idle =>
    rw [hpc] at hnext
    cases hnext
  | send bState eReason =>
    rw [hpc] at hnext
    cases hnext
    -- the event that was just sent follows
    exact fun hnone => absurd hnone.1 (Nat.succ_ne_zero _)
  | writeReason bState eReason =>
    rw [hpc] at hnext
    cases hnext
    -- the field is written, and what the call leaves is the same
    refine hright.congr (fun hnone => ⟨hnone.1, ?_⟩) rfl ?_ rfl rfl
    · rw [hpc]
      exact nofun
    · unfold target
      rw [hpc]
  | writeState bState eReason =>
    rw [hpc] at hnext
    cases hnext
    refine hright.congr (fun hnone => ⟨hnone.1, ?_⟩) rfl ?_ rfl rfl
    · rw [hpc]
      exact nofun
    · unfold target current
      rw [hpc, hs.reason bState eReason hpc]

/-- The reads decide what the device will be told. -/
theorem right_handler_iff {s s' : ActivationNotification} (hright : s.Right)
    (hnext : s.stepHandler = some s') : s'.Right ↔ s.ReadOk .handler := by
  unfold stepHandler at hnext
  unfold ReadOk
  cases hpc : s.handler with
  | idle =>
    rw [hpc] at hnext
    cases hnext
  | readState =>
    rw [hpc] at hnext
    cases hnext
    exact Iff.rfl
  | readReason bState =>
    rw [hpc] at hnext
    cases hnext
    show (s.NoEvent → (bState, s.fields.eNotActivationReason) = s.target) ↔
      (s.NoEvent → s.fields.eNotActivationReason = s.target.2)
    constructor
    · intro h hnone
      rw [← h hnone]
    · intro h hnone
      have hstate := hright hnone
      rw [hpc] at hstate
      -- the state was read rightly before, the reason is read now
      exact Prod.ext hstate (h hnone)
  | deliver bState nReason =>
    rw [hpc] at hnext
    cases hnext
    refine iff_of_true (fun hnone _ => ?_) trivial
    have hread := hright hnone
    rw [hpc] at hread
    exact congrArg some hread

theorem right_next_iff {s s' : ActivationNotification} {a : ActivationStep} (hs : s.Inv)
    (hright : s.Right) (hnext : s.next a = some s') : s'.Right ↔ s.ReadOk a := by
  cases a with
  | setActivationState bState eReason =>
    refine iff_of_true ?_ trivial
    simp only [next, call] at hnext
    split_ifs at hnext
    · cases hnext
      -- the call is about to send its event
      exact fun hnone => absurd rfl (hnone.2 bState eReason)
    · cases hnext
      exact hright
  | setter => exact iff_of_true (right_setter hs hright hnext) trivial
  | processEvent =>
    refine iff_of_true ?_ trivial
    simp only [next] at hnext
    split_ifs at hnext
    cases hnext
    exact fun _ => trivial
  | handler => exact right_handler_iff hright hnext

/-! ## Completions -/

/-- The call comes to its end, and then the processing in progress. -/
def completion (i j : ℕ) : List ActivationStep :=
  List.replicate i .setter ++ List.replicate j .handler

/-- However far the call and the processing go, the device has the current state once nothing is
left. -/
def Told (s : ActivationNotification) : Prop :=
  ∀ i j s', Lib.exec next s (completion i j) = some s' → s'.Quiet → s'.Fresh

theorem Right.fresh {s : ActivationNotification} (hright : s.Right) (hquiet : s.Quiet) :
    s.Fresh := by
  rcases hquiet with ⟨hsetter, hevents, hhandler⟩
  have hnone : s.NoEvent := ⟨hevents, by rw [hsetter]; exact nofun⟩
  have htold := hright hnone
  rw [hhandler] at htold
  have htarget : s.target = s.current := by
    unfold target
    rw [hsetter]
  rw [htarget] at htold
  exact htold

theorem setter_of_handler {s s' : ActivationNotification} (hnext : s.next .handler = some s') :
    s'.setter = s.setter := by
  simp only [next, stepHandler] at hnext
  cases hpc : s.handler with
  | idle =>
    rw [hpc] at hnext
    cases hnext
  | readState | readReason _ =>
    rw [hpc] at hnext
    cases hnext
    rfl
  | deliver _ _ =>
    rw [hpc] at hnext
    cases hnext
    rfl

/-- Behind the call every read is of what it leaves. -/
theorem readOk_of_idle {s : ActivationNotification} (hidle : s.setter = .idle)
    (a : ActivationStep) : s.ReadOk a := by
  have htarget : s.target = s.current := by
    unfold target
    rw [hidle]
  cases a with
  | setActivationState _ _ | setter | processEvent => trivial
  | handler =>
    unfold ReadOk
    rw [htarget]
    cases s.handler with
    | idle | deliver _ _ => trivial
    | readState | readReason _ => exact fun _ => rfl

theorem told_of_right {s : ActivationNotification} (hs : s.Inv) (hright : s.Right) : s.Told := by
  intro i j s' hrun hquiet
  unfold completion at hrun
  rw [Lib.exec_append, Option.bind_eq_some_iff] at hrun
  rcases hrun with ⟨t, hcall, hprocess⟩
  have hsetter : Lib.Along next (fun _ a => a = .setter) s (List.replicate i .setter) :=
    Lib.along_of_forall_mem (fun a ha _ => List.eq_of_mem_replicate ha) s
  have hafter : t.Inv ∧ t.Right := by
    refine Lib.exec_inv (P := fun u => u.Inv ∧ u.Right) ?_ _ s t ⟨hs, hright⟩ hsetter hcall
    rintro u a u' ⟨hinv, hu⟩ rfl hnext
    exact ⟨inv_next hinv hnext, right_setter hinv hu hnext⟩
  have halong : Lib.Along next (fun _ a => a = .handler) t (List.replicate j .handler) :=
    Lib.along_of_forall_mem (fun a ha _ => List.eq_of_mem_replicate ha) t
  -- the call is over before the handler goes on
  have hidle : t.setter = .idle := by
    have hsame : s'.setter = t.setter := by
      refine Lib.exec_inv (P := fun u => u.setter = t.setter) ?_ _ t s' rfl halong hprocess
      rintro u a u' hu rfl hnext
      exact (setter_of_handler hnext).trans hu
    rw [← hsame]
    exact hquiet.1
  have hend : (s'.Inv ∧ s'.Right) ∧ s'.setter = .idle := by
    refine Lib.exec_inv (P := fun u => (u.Inv ∧ u.Right) ∧ u.setter = .idle) ?_ _ t s'
      ⟨hafter, hidle⟩ halong hprocess
    rintro u a u' ⟨⟨hinv, hu⟩, hsetter⟩ rfl hnext
    refine ⟨⟨inv_next hinv hnext, ?_⟩, (setter_of_handler hnext).trans hsetter⟩
    exact (right_handler_iff hu hnext).2 (readOk_of_idle hsetter _)
  exact hend.1.2.fresh hquiet

/-- What the call in progress leaves behind. -/
theorem exists_setter_completion {s : ActivationNotification} (hs : s.Inv) (hnone : s.NoEvent) :
    ∃ i t, Lib.exec next s (List.replicate i .setter) = some t ∧ t.setter = .idle ∧
      t.events = 0 ∧ t.handler = s.handler ∧ t.current = s.target ∧ t.bSent = s.bSent ∧
      t.delivered = s.delivered := by
  cases hpc : s.setter with
  | idle =>
    refine ⟨0, s, rfl, hpc, hnone.1, rfl, ?_, rfl, rfl⟩
    unfold target
    rw [hpc]
  | send bState eReason => exact absurd hpc (hnone.2 bState eReason)
  | writeReason bState eReason =>
    let t : ActivationNotification := { s with
      setter := .idle
      fields := ⟨bState, eReason, s.fields.strToken⟩ }
    have hrun : Lib.exec next s (List.replicate 2 .setter) = some t := by
      show (s.stepSetter.bind fun u => u.stepSetter.bind some) = some t
      unfold stepSetter
      rw [hpc]
      rfl
    refine ⟨2, t, hrun, rfl, hnone.1, rfl, ?_, rfl, rfl⟩
    unfold target
    rw [hpc]
    rfl
  | writeState bState eReason =>
    let t : ActivationNotification := { s with
      setter := .idle
      fields := { s.fields with bActivationState := bState } }
    have hrun : Lib.exec next s (List.replicate 1 .setter) = some t := by
      show (s.stepSetter.bind some) = some t
      unfold stepSetter
      rw [hpc]
      rfl
    refine ⟨1, t, hrun, rfl, hnone.1, rfl, ?_, rfl, rfl⟩
    unfold target
    rw [hpc]
    show (bState, s.fields.eNotActivationReason) = (bState, eReason)
    rw [hs.reason bState eReason hpc]

/-- The processing in progress comes to its end. -/
theorem fresh_of_told {s t : ActivationNotification} (htold : s.Told) {i : ℕ}
    (hcall : Lib.exec next s (List.replicate i .setter) = some t) {j : ℕ}
    {u : ActivationNotification} (hprocess : Lib.exec next t (List.replicate j .handler) = some u)
    (hquiet : u.Quiet) : u.Fresh := by
  refine htold i j u ?_ hquiet
  unfold completion
  rw [Lib.exec_append, hcall]
  exact hprocess

/-- What the device will be told is right only if the handler has read what the call leaves. -/
theorem right_of_told {s : ActivationNotification} (hs : s.Inv) (htold : s.Told) : s.Right := by
  intro hnone
  rcases exists_setter_completion hs hnone with
    ⟨i, t, hcall, hsetter, hevents, hhandler, hcurrent, hsent, hdelivered⟩
  cases hpc : s.handler with
  | idle =>
    have hfresh : t.Fresh :=
      fresh_of_told htold hcall (j := 0) rfl ⟨hsetter, hevents, hhandler.trans hpc⟩
    unfold Fresh at hfresh
    rw [hsent, hdelivered, hcurrent] at hfresh
    exact hfresh
  | readState => trivial
  | readReason bState =>
    let u : ActivationNotification := { t with
      handler := .idle
      delivered := some (bState, t.fields.eNotActivationReason) }
    have hprocess : Lib.exec next t (List.replicate 2 .handler) = some u := by
      show (t.stepHandler.bind fun v => v.stepHandler.bind some) = some u
      unfold stepHandler
      rw [hhandler, hpc]
      rfl
    have hfresh : u.Fresh := fresh_of_told htold hcall hprocess ⟨hsetter, hevents, rfl⟩
    have hread := Option.some.inj (hfresh (hsent.trans (hs.sent (Or.inr (by simp [hpc])))))
    rw [← hcurrent]
    exact congrArg Prod.fst hread
  | deliver bState nReason =>
    let u : ActivationNotification := { t with
      handler := .idle
      delivered := some (bState, nReason) }
    have hprocess : Lib.exec next t (List.replicate 1 .handler) = some u := by
      show (t.stepHandler.bind some) = some u
      unfold stepHandler
      rw [hhandler, hpc]
      rfl
    have hfresh : u.Fresh := fresh_of_told htold hcall hprocess ⟨hsetter, hevents, rfl⟩
    have hread := Option.some.inj (hfresh (hsent.trans (hs.sent (Or.inr (by simp [hpc])))))
    exact hread.trans hcurrent

/-! ## Runs -/

theorem inv_exec {run : List ActivationStep} {s : ActivationNotification}
    (hrun : Lib.exec next init run = some s) : s.Inv :=
  Lib.exec_inv_all (P := Inv) (fun _ _ _ hs hnext => inv_next hs hnext) inv_init hrun

/-- However the calls and the processing of their events interleave: whenever all sent events have
been processed the device has the current state, and this is so wherever the run is left and what
is in progress comes to its end, iff no read of the handler, with no event to follow, is of a field
that the call in progress still changes. -/
theorem fresh_runs_iff {run : List ActivationStep} {s : ActivationNotification}
    (hrun : Lib.exec next init run = some s) :
    (∀ pre, pre <+: run → ∀ t, Lib.exec next init pre = some t →
        ∀ i j u, Lib.exec next t (completion i j) = some u → u.Quiet → u.Fresh) ↔
      Lib.Along next ReadOk init run := by
  have hstep : ∀ t a t', (t.Inv ∧ t.Right) → next t a = some t' →
      ((t'.Inv ∧ t'.Right) ↔ t.ReadOk a) := by
    rintro t a t' ⟨hinv, hright⟩ hnext
    rw [← right_next_iff hinv hright hnext]
    exact ⟨fun hboth => hboth.2, fun hr => ⟨inv_next hinv hnext, hr⟩⟩
  rw [Lib.along_iff hstep run init s ⟨inv_init, right_init⟩ hrun]
  constructor
  · intro htold pre hpre t ht
    exact ⟨inv_exec ht, right_of_told (inv_exec ht) (htold pre hpre t ht)⟩
  · intro hall pre hpre t ht
    exact told_of_right (inv_exec ht) (hall pre hpre t ht).2

/-- Two changes; the first event is processed while the second call is in progress. -/
def twoChanges : List ActivationStep :=
  [.setActivationState true .eNO_ERROR, .setter, .setter, .setter,
    .setActivationState false .eNETWORK_ERROR, .setter, .processEvent, .handler, .setter, .handler,
    .handler, .setter, .processEvent, .handler, .handler, .handler]

theorem fresh_runs_iff_twoChanges : ∃ s, Lib.exec next init twoChanges = some s ∧ s.Quiet ∧
    s.delivered = some (false, .eNETWORK_ERROR) ∧
    ∀ pre, pre <+: twoChanges → ∀ t, Lib.exec next init pre = some t →
      ∀ i j u, Lib.exec next t (completion i j) = some u → u.Quiet → u.Fresh := by
  refine ⟨_, rfl, ⟨rfl, rfl, rfl⟩, rfl, (fresh_runs_iff rfl).2 ?_⟩
  decide +kernel

/-- The event is processed between its sending and the change of the fields. -/
theorem not_fresh_early : ∃ s, Lib.exec next init [.setActivationState true .eNO_ERROR, .setter,
      .processEvent, .handler, .handler, .handler, .setter, .setter] = some s ∧
    s.Quiet ∧ s.delivered = some (false, .eNO_ERROR) ∧ s.current = (true, .eNO_ERROR) ∧
    ¬ s.Fresh := by
  refine ⟨_, rfl, ⟨rfl, rfl, rfl⟩, rfl, rfl, fun hfresh => ?_⟩
  have hstale := hfresh rfl
  cases hstale

end ActivationNotification

end DeviceClient
