import DeviceClient.Net.SessionReuse
import DeviceClient.Lib.Run
import Mathlib.Algebra.Order.Ring.Nat
import Mathlib.Data.Finset.Card
import Mathlib.Data.Finset.Range

/-!
# The pool of sessions

`CHttpSessionManager`: slots with a session and a mark, the count of the marks, and the
mutex. A session is its address, by which the pool finds it, and a serial number of its
own: an address is used again when its session is deleted.

* `along_poolKept`: a run keeps the pool in order if no session fails to be created and the
  resources are released only while no slot is marked.
-/

namespace DeviceClient

/-- A session that was created. -/
structure PooledSession where
  address : ℕ
  serial : ℕ
deriving DecidableEq

/-- `CHttpSessionManager`, with the sessions that callers hold and the number of sessions
so far. -/
structure HttpSessionManager where
  pSession : ℕ → Option PooledSession
  bSessionAcquired : ℕ → Bool
  unNumSessionsAcquired : ℕ
  unSessionWarningSentAt : ℕ
  sessionMutexLocked : Bool
  held : List PooledSession
  created : ℕ

inductive SessionCall where
  /-- `AcquireSession`, with the address that a new session gets; `none` is null. -/
  | acquireSession (address : Option ℕ)
  | releaseSession (session : PooledSession) (eLastError : HttpErrorCode)
  | setLocalPortRange
  | releaseResources

namespace HttpSessionManager

def init : HttpSessionManager := ⟨fun _ => none, fun _ => false, 0, 0, false, [], 0⟩

/-! ## The calls -/

/-- The first slot that is not marked. -/
def freeSlot (s : HttpSessionManager) : Option ℕ :=
  (List.range maxSessions).find? fun nI => !s.bSessionAcquired nI

/-- `CreateSession`. -/
def createSession (address : Option ℕ) (nIndex : ℕ) (s : HttpSessionManager) :
    HttpSessionManager :=
  match s.pSession nIndex, address with
  | none, some address =>
    { s with
      pSession := Function.update s.pSession nIndex (some ⟨address, s.created⟩)
      created := s.created + 1 }
  | _, _ => s

/-- `CheckForSessionThresholdWarning`. -/
def checkForSessionThresholdWarning (s : HttpSessionManager) : HttpSessionManager :=
  if maxSessions - 2 ≤ s.unNumSessionsAcquired ∧
      s.unSessionWarningSentAt < s.unNumSessionsAcquired then
    { s with unSessionWarningSentAt := s.unNumSessionsAcquired }
  else s

/-- `AcquireSession`. -/
def acquireSession (address : Option ℕ) (s : HttpSessionManager) : HttpSessionManager :=
  let s := { s with sessionMutexLocked := true }
  match s.freeSlot with
  | none => ({ s with sessionMutexLocked := false }).checkForSessionThresholdWarning
  | some nI =>
    let s := s.createSession address nI
    match s.pSession nI with
    -- the return behind the failure leaves the mutex as it is
    | none => s
    | some session =>
      let s := { s with
        bSessionAcquired := Function.update s.bSessionAcquired nI true
        unNumSessionsAcquired := (s.unNumSessionsAcquired + 1) % 2 ^ 32
        held := session :: s.held }
      ({ s with sessionMutexLocked := false }).checkForSessionThresholdWarning

/-- One pass of the loop of `ReleaseSession`. -/
def releaseSlot (address : ℕ) (eLastError : HttpErrorCode) (s : HttpSessionManager) (nI : ℕ) :
    HttpSessionManager :=
  if (s.pSession nI).map PooledSession.address = some address then
    { s with
      pSession := if eLastError = .eERR_OK then s.pSession
        else Function.update s.pSession nI none
      bSessionAcquired := Function.update s.bSessionAcquired nI false
      unNumSessionsAcquired := (s.unNumSessionsAcquired + 2 ^ 32 - 1) % 2 ^ 32 }
  else s

/-- `ReleaseSession`. -/
def releaseSession (session : PooledSession) (eLastError : HttpErrorCode)
    (s : HttpSessionManager) : HttpSessionManager :=
  let s := (List.range maxSessions).foldl (releaseSlot session.address eLastError) s
  { s with held := s.held.erase session }

/-- `ReleaseResources`, without the mutex. -/
def releaseResources (s : HttpSessionManager) : HttpSessionManager :=
  { s with pSession := fun nI => if nI < maxSessions then none else s.pSession nI }

/-- A call. One that locks the mutex waits while it is locked, a caller releases what it
holds, and a new session has an address that no other has. A range of ports for a null
pointer has no result. -/
def next (s : HttpSessionManager) : SessionCall → Option HttpSessionManager
  | .acquireSession address =>
    if !s.sessionMutexLocked ∧ ∀ nI < maxSessions, ∀ session ∈ s.pSession nI,
        address ≠ some session.address then
      some (s.acquireSession address)
    else none
  | .releaseSession session eLastError =>
    if !s.sessionMutexLocked ∧ session ∈ s.held then some (s.releaseSession session eLastError)
    else none
  | .setLocalPortRange =>
    if !s.sessionMutexLocked ∧
        ∀ nI < maxSessions, s.bSessionAcquired nI = true → s.pSession nI ≠ none then some s
    else none
  | .releaseResources => some s.releaseResources

/-! ## The order of the pool -/

/-- The slots that are marked. -/
def acquiredSlots (s : HttpSessionManager) : Finset ℕ :=
  (Finset.range maxSessions).filter fun nI => s.bSessionAcquired nI = true

/-- No session is held twice, the count is that of the marks, a marked slot has a session,
and one that somebody holds, so that a slot whose session is released can be acquired
again, and the mutex is free. -/
structure PoolKept (s : HttpSessionManager) : Prop where
  heldOnce : (s.held.map PooledSession.serial).Nodup
  count : s.unNumSessionsAcquired = s.acquiredSlots.card
  live : ∀ nI < maxSessions, s.bSessionAcquired nI = true → s.pSession nI ≠ none
  reusable : ∀ nI < maxSessions, s.bSessionAcquired nI = true →
    ∃ session ∈ s.held, s.pSession nI = some session
  unlocked : s.sessionMutexLocked = false

/-- A session is created where one is needed, and the resources are released while no slot
is marked. -/
def Careful (s : HttpSessionManager) : SessionCall → Prop
  | .acquireSession address =>
    ∀ nI ∈ s.freeSlot, s.pSession nI = none → address ≠ none
  | .releaseResources => ∀ nI < maxSessions, s.bSessionAcquired nI = false
  | _ => True

/-! ## Every run -/

/-- The order of the pool, and what it rests on: sessions differ from slot to slot, and
callers hold those of the marked slots. -/
structure PoolInv (s : HttpSessionManager) : Prop extends PoolKept s where
  serialBelow : ∀ nI < maxSessions, ∀ session ∈ s.pSession nI, session.serial < s.created
  addressOnce : ∀ nI < maxSessions, ∀ nJ < maxSessions, ∀ session ∈ s.pSession nI,
    ∀ session' ∈ s.pSession nJ, session.address = session'.address → nI = nJ
  serialOnce : ∀ nI < maxSessions, ∀ nJ < maxSessions, ∀ session ∈ s.pSession nI,
    ∀ session' ∈ s.pSession nJ, session.serial = session'.serial → nI = nJ
  heldMarked : ∀ session ∈ s.held, ∃ nI < maxSessions,
    s.bSessionAcquired nI = true ∧ s.pSession nI = some session

theorem poolInv_init : PoolInv init := by
  constructor
  · constructor
    · exact List.nodup_nil
    · rfl
    · intro nI _ hmarked
      cases hmarked
    · intro nI _ hmarked
      cases hmarked
    · rfl
  · intro nI _ session hsession
    cases hsession
  · intro nI _ nJ _ session hsession
    cases hsession
  · intro nI _ nJ _ session hsession
    cases hsession
  · intro session hheld
    cases hheld

theorem checkForSessionThresholdWarning_inv {s : HttpSessionManager} (h : PoolInv s) :
    PoolInv s.checkForSessionThresholdWarning := by
  unfold checkForSessionThresholdWarning
  split
  · obtain ⟨⟨heldOnce, count, live, reusable, unlocked⟩, below, address, serial, marked⟩ := h
    exact ⟨⟨heldOnce, count, live, reusable, unlocked⟩, below, address, serial, marked⟩
  · exact h

theorem freeSlot_spec {s : HttpSessionManager} {nI : ℕ} (h : s.freeSlot = some nI) :
    nI < maxSessions ∧ s.bSessionAcquired nI = false := by
  unfold freeSlot at h
  have hmem := List.mem_of_find?_eq_some h
  have hfree := List.find?_some h
  simp only [Bool.not_eq_true'] at hfree
  exact ⟨List.mem_range.1 hmem, hfree⟩

/-- No two slots have sessions that `key` does not tell apart. -/
def DifferBy (key : PooledSession → ℕ) (pSession : ℕ → Option PooledSession) : Prop :=
  ∀ nI < maxSessions, ∀ nJ < maxSessions, ∀ session ∈ pSession nI,
    ∀ session' ∈ pSession nJ, key session = key session' → nI = nJ

section Pool

variable {key : PooledSession → ℕ} {pSession pSession' : ℕ → Option PooledSession} {nI nJ : ℕ}
  {created session : PooledSession}

/-- A slot of the new pool holds the new session, or what it held before. -/
theorem update_pool_cases (h : session ∈ Function.update pSession nI (some created) nJ) :
    (nJ = nI ∧ session = created) ∨ (nJ ≠ nI ∧ session ∈ pSession nJ) := by
  by_cases hJ : nJ = nI
  · rw [hJ, Function.update_self] at h
    exact Or.inl ⟨hJ, (Option.some.inj h).symm⟩
  · rw [Function.update_of_ne hJ] at h
    exact Or.inr ⟨hJ, h⟩

theorem DifferBy.update (h : DifferBy key pSession)
    (hnew : ∀ nJ < maxSessions, ∀ session ∈ pSession nJ, key session ≠ key created) :
    DifferBy key (Function.update pSession nI (some created)) := by
  intro nJ hJ nK hK session hsession session' hsession' heq
  rcases update_pool_cases hsession with ⟨rfl, rfl⟩ | ⟨_, hold⟩
  · rcases update_pool_cases hsession' with ⟨rfl, _⟩ | ⟨_, hold'⟩
    · rfl
    · exact absurd heq.symm (hnew nK hK session' hold')
  · rcases update_pool_cases hsession' with ⟨rfl, rfl⟩ | ⟨_, hold'⟩
    · exact absurd heq (hnew nJ hJ session hold)
    · exact h nJ hJ nK hK session hold session' hold' heq

/-- Emptying slots leaves the others apart. -/
theorem DifferBy.mono (h : DifferBy key pSession)
    (hbefore : ∀ nJ, ∀ session ∈ pSession' nJ, pSession nJ = some session) :
    DifferBy key pSession' := by
  intro nJ hJ nK hK session hsession session' hsession'
  exact h nJ hJ nK hK session (hbefore nJ session hsession) session'
    (hbefore nK session' hsession')

end Pool

/-- A new session is in no other slot. -/
theorem createSession_inv {s : HttpSessionManager} {address : Option ℕ} {nI : ℕ} (h : PoolInv s)
    (hfree : s.bSessionAcquired nI = false)
    (haddress : ∀ nJ < maxSessions, ∀ session ∈ s.pSession nJ, address ≠ some session.address) :
    PoolInv (s.createSession address nI) := by
  unfold createSession
  split
  · rename_i address hnone
    obtain ⟨⟨heldOnce, count, live, reusable, unlocked⟩, below, hdistinct, hserial, marked⟩ := h
    have hkept : ∀ nJ, s.bSessionAcquired nJ = true →
        Function.update s.pSession nI (some ⟨address, s.created⟩) nJ = s.pSession nJ := by
      intro nJ hmarked
      apply Function.update_of_ne
      rintro rfl
      rw [hfree] at hmarked
      cases hmarked
    constructor
    · constructor
      · exact heldOnce
      · exact count
      · intro nJ hJ hmarked
        show Function.update s.pSession nI _ nJ ≠ none
        rw [hkept nJ hmarked]
        exact live nJ hJ hmarked
      · intro nJ hJ hmarked
        show ∃ session ∈ s.held, Function.update s.pSession nI _ nJ = some session
        rw [hkept nJ hmarked]
        exact reusable nJ hJ hmarked
      · exact unlocked
    · intro nJ hJ session hsession
      show session.serial < s.created + 1
      rcases update_pool_cases hsession with ⟨_, rfl⟩ | ⟨_, hold⟩
      · exact Nat.lt_succ_self _
      · exact Nat.lt_succ_of_lt (below nJ hJ session hold)
    · refine DifferBy.update hdistinct fun nJ hJ session hsession heq => ?_
      exact haddress nJ hJ session hsession (congrArg some heq.symm)
    · refine DifferBy.update hserial fun nJ hJ session hsession => ?_
      exact Nat.ne_of_lt (below nJ hJ session hsession)
    · intro session hheld
      obtain ⟨nJ, hJ, hmarked, hsession⟩ := marked session hheld
      refine ⟨nJ, hJ, hmarked, ?_⟩
      show Function.update s.pSession nI _ nJ = some session
      rw [hkept nJ hmarked]
      exact hsession
  · exact h

/-- The marks behind a new one. -/
theorem acquiredSlots_insert (s : HttpSessionManager) {nI : ℕ} (hI : nI < maxSessions) :
    ((Finset.range maxSessions).filter fun nJ =>
      Function.update s.bSessionAcquired nI true nJ = true) = insert nI s.acquiredSlots := by
  ext nJ
  unfold acquiredSlots
  simp only [Finset.mem_filter, Finset.mem_range, Finset.mem_insert, Function.update_apply]
  by_cases hJ : nJ = nI
  · subst hJ
    simp [hI]
  · simp [hJ]

/-- The marks behind one that is taken away. -/
theorem acquiredSlots_erase (s : HttpSessionManager) (nI : ℕ) :
    ((Finset.range maxSessions).filter fun nJ =>
      Function.update s.bSessionAcquired nI false nJ = true) = s.acquiredSlots.erase nI := by
  ext nJ
  unfold acquiredSlots
  simp only [Finset.mem_filter, Finset.mem_range, Finset.mem_erase, Function.update_apply]
  by_cases hJ : nJ = nI
  · simp [hJ]
  · simp [hJ]

theorem card_acquiredSlots_le (s : HttpSessionManager) : s.acquiredSlots.card ≤ maxSessions :=
  (Finset.card_filter_le _ _).trans (Finset.card_range maxSessions).le

/-- Marking a free slot with a session. -/
theorem mark_inv {s : HttpSessionManager} {nI : ℕ} {session : PooledSession} (h : PoolInv s)
    (hI : nI < maxSessions) (hfree : s.bSessionAcquired nI = false)
    (hsession : s.pSession nI = some session) :
    PoolInv { s with
      bSessionAcquired := Function.update s.bSessionAcquired nI true
      unNumSessionsAcquired := (s.unNumSessionsAcquired + 1) % 2 ^ 32
      held := session :: s.held } := by
  obtain ⟨⟨heldOnce, count, live, reusable, unlocked⟩, below, hdistinct, hserial, marked⟩ := h
  -- a session that is held has a marked slot, and each session one slot only
  have hnotHeld : session.serial ∉ s.held.map PooledSession.serial := by
    intro hmem
    obtain ⟨session', hheld, heq⟩ := List.mem_map.1 hmem
    obtain ⟨nJ, hJ, hmarked, hsession'⟩ := marked session' hheld
    have hsame := hserial nJ hJ nI hI session' hsession' session hsession heq
    rw [hsame, hfree] at hmarked
    cases hmarked
  have hnotMarked : nI ∉ s.acquiredSlots := by
    unfold acquiredSlots
    simp [hfree]
  have hle := card_acquiredSlots_le s
  have hmax : maxSessions = 8 := rfl
  have hkept : ∀ nJ, nJ ≠ nI → Function.update s.bSessionAcquired nI true nJ = true →
      s.bSessionAcquired nJ = true := by
    intro nJ hne hmarked
    rwa [Function.update_of_ne hne] at hmarked
  constructor
  · constructor
    · exact List.nodup_cons.2 ⟨hnotHeld, heldOnce⟩
    · -- at most eight slots are marked, so the count does not wrap
      show (s.unNumSessionsAcquired + 1) % 2 ^ 32 = Finset.card (Finset.filter _ _)
      rw [acquiredSlots_insert s hI, Finset.card_insert_of_notMem hnotMarked, count]
      omega
    · intro nJ hJ hmarked
      by_cases hsame : nJ = nI
      · rw [hsame]
        show s.pSession nI ≠ none
        rw [hsession]
        nofun
      · exact live nJ hJ (hkept nJ hsame hmarked)
    · intro nJ hJ hmarked
      by_cases hsame : nJ = nI
      · rw [hsame]
        exact ⟨session, List.mem_cons_self, hsession⟩
      · obtain ⟨session', hheld, hsession'⟩ := reusable nJ hJ
          (hkept nJ hsame hmarked)
        exact ⟨session', List.mem_cons_of_mem _ hheld, hsession'⟩
    · exact unlocked
  · exact below
  · exact hdistinct
  · exact hserial
  · intro session' hheld
    rcases List.mem_cons.1 hheld with rfl | hheld
    · exact ⟨nI, hI, Function.update_self _ _ _, hsession⟩
    · obtain ⟨nJ, hJ, hmarked, hsession'⟩ := marked session' hheld
      refine ⟨nJ, hJ, ?_, hsession'⟩
      show Function.update s.bSessionAcquired nI true nJ = true
      rw [Function.update_apply]
      split
      · rfl
      · exact hmarked

theorem createSession_locked (s : HttpSessionManager) (address : Option ℕ) (nI : ℕ)
    (locked : Bool) : createSession address nI { s with sessionMutexLocked := locked } =
      { createSession address nI s with sessionMutexLocked := locked } := by
  unfold createSession
  dsimp only
  split <;> rfl

/-- Behind `CreateSession` the slot has a session, unless the creation failed. -/
theorem createSession_isSome {s : HttpSessionManager} {address : Option ℕ} {nI : ℕ}
    (h : s.pSession nI = none → address ≠ none) :
    ∃ session, (s.createSession address nI).pSession nI = some session := by
  unfold createSession
  cases hslot : s.pSession nI with
  | some session => exact ⟨session, hslot⟩
  | none =>
    obtain ⟨address', rfl⟩ := Option.ne_none_iff_exists'.1 (h hslot)
    exact ⟨_, Function.update_self _ _ _⟩

theorem createSession_marks (s : HttpSessionManager) (address : Option ℕ) (nI : ℕ) :
    (s.createSession address nI).bSessionAcquired = s.bSessionAcquired := by
  unfold createSession
  split <;> rfl

theorem acquireSession_inv {s : HttpSessionManager} {address : Option ℕ} (h : PoolInv s)
    (haddress : ∀ nI < maxSessions, ∀ session ∈ s.pSession nI, address ≠ some session.address)
    (hcareful : Careful s (.acquireSession address)) : PoolInv (s.acquireSession address) := by
  have hfreeSlot : freeSlot { s with sessionMutexLocked := true } = s.freeSlot := rfl
  unfold acquireSession
  dsimp only
  rw [hfreeSlot]
  cases hslot : s.freeSlot with
  | none =>
    have hunlocked : { s with sessionMutexLocked := false } = s := by rw [← h.unlocked]
    dsimp only
    rw [hunlocked]
    exact checkForSessionThresholdWarning_inv h
  | some nI =>
    obtain ⟨hI, hfree⟩ := freeSlot_spec hslot
    have hcreated := createSession_inv h hfree haddress
    obtain ⟨session, hsession⟩ := createSession_isSome (hcareful nI hslot)
    have hmarks := createSession_marks s address nI
    dsimp only
    rw [createSession_locked]
    generalize s.createSession address nI = t at hcreated hsession hmarks
    dsimp only
    rw [hsession]
    dsimp only
    apply checkForSessionThresholdWarning_inv
    rw [← hcreated.unlocked]
    exact mark_inv hcreated hI (hmarks ▸ hfree) hsession

/-! ## Releases -/

/-- The loop of `ReleaseSession` finds one slot. -/
theorem releaseLoop_eq {s : HttpSessionManager} {address nI : ℕ} {eLastError : HttpErrorCode}
    (n : ℕ) (hn : n ≤ maxSessions)
    (hfound : (s.pSession nI).map PooledSession.address = some address)
    (honly : ∀ nJ < maxSessions, (s.pSession nJ).map PooledSession.address = some address →
      nJ = nI) :
    (List.range n).foldl (releaseSlot address eLastError) s =
      if nI < n then releaseSlot address eLastError s nI else s := by
  induction n with
  | zero => rfl
  | succ n ih =>
    rw [List.range_succ, List.foldl_append, ih (by omega), List.foldl_cons, List.foldl_nil]
    by_cases hbelow : nI < n
    · -- the slot lies behind, and no other has the address
      rw [if_pos hbelow, if_pos (by omega)]
      have hother : ((releaseSlot address eLastError s nI).pSession n).map PooledSession.address ≠
          some address := by
        intro heq
        have hsame : (releaseSlot address eLastError s nI).pSession n = s.pSession n := by
          unfold releaseSlot
          rw [if_pos hfound]
          dsimp only
          split
          · rfl
          · exact Function.update_of_ne (by omega) _ _
        rw [hsame] at heq
        have hn' := honly n (by omega) heq
        omega
      rw [releaseSlot, if_neg hother]
    · rw [if_neg hbelow]
      by_cases hlast : nI = n
      · subst hlast
        rw [if_pos (Nat.lt_succ_self _)]
      · rw [if_neg (by omega)]
        have hother : (s.pSession n).map PooledSession.address ≠ some address := by
          intro heq
          exact hlast (honly n (by omega) heq).symm
        rw [releaseSlot, if_neg hother]

/-- The marks behind a release; the slot of the session is emptied or not, and the other slots
keep theirs. -/
theorem unmark_inv {s : HttpSessionManager} {nI : ℕ} {session : PooledSession}
    {pSession : ℕ → Option PooledSession} (h : PoolInv s) (hI : nI < maxSessions)
    (hmarkedI : s.bSessionAcquired nI = true) (hsession : s.pSession nI = some session)
    (hbehind : ∀ nJ, nJ ≠ nI → pSession nJ = s.pSession nJ)
    (hbefore : ∀ nJ, ∀ session' ∈ pSession nJ, s.pSession nJ = some session') :
    PoolInv { s with
      pSession := pSession
      bSessionAcquired := Function.update s.bSessionAcquired nI false
      unNumSessionsAcquired := (s.unNumSessionsAcquired + 2 ^ 32 - 1) % 2 ^ 32
      held := s.held.erase session } := by
  obtain ⟨⟨heldOnce, count, live, reusable, unlocked⟩, below, hdistinct, hserial, marked⟩ := h
  have hkept : ∀ nJ, Function.update s.bSessionAcquired nI false nJ = true →
      nJ ≠ nI ∧ s.bSessionAcquired nJ = true := by
    intro nJ hmarked
    rw [Function.update_apply] at hmarked
    split at hmarked
    · cases hmarked
    · rename_i hne
      exact ⟨hne, hmarked⟩
  have hmarkedSlot : nI ∈ s.acquiredSlots := by
    unfold acquiredSlots
    simp [hI, hmarkedI]
  have hpositive := Finset.card_pos.2 ⟨nI, hmarkedSlot⟩
  have hle := card_acquiredSlots_le s
  have hmax : maxSessions = 8 := rfl
  constructor
  · constructor
    · exact heldOnce.sublist (List.erase_sublist.map _)
    · -- the slot was marked, so the count was positive
      show (s.unNumSessionsAcquired + 2 ^ 32 - 1) % 2 ^ 32 = Finset.card (Finset.filter _ _)
      rw [acquiredSlots_erase, Finset.card_erase_of_mem hmarkedSlot, count]
      omega
    · intro nJ hJ hmarked
      obtain ⟨hne, hmarked⟩ := hkept nJ hmarked
      dsimp only
      rw [hbehind nJ hne]
      exact live nJ hJ hmarked
    · intro nJ hJ hmarked
      obtain ⟨hne, hmarked⟩ := hkept nJ hmarked
      obtain ⟨session', hheld', hsession'⟩ := reusable nJ hJ hmarked
      have hother : session' ≠ session := by
        rintro rfl
        exact hne (hserial nJ hJ nI hI session' hsession' session' hsession rfl)
      refine ⟨session', (List.mem_erase_of_ne hother).2 hheld', ?_⟩
      dsimp only
      rw [hbehind nJ hne]
      exact hsession'
    · exact unlocked
  · intro nJ hJ session' hsession'
    exact below nJ hJ session' (hbefore nJ session' hsession')
  · exact DifferBy.mono hdistinct hbefore
  · exact DifferBy.mono hserial hbefore
  · intro session' hheld'
    obtain ⟨hother, hheld'⟩ := (List.Nodup.of_map _ heldOnce).mem_erase_iff.1 hheld'
    obtain ⟨nJ, hJ, hmarked, hsession'⟩ := marked session' hheld'
    have hne : nJ ≠ nI := by
      rintro rfl
      rw [hsession'] at hsession
      exact hother (Option.some.inj hsession)
    refine ⟨nJ, hJ, ?_, ?_⟩
    · show Function.update s.bSessionAcquired nI false nJ = true
      rw [Function.update_of_ne hne]
      exact hmarked
    · dsimp only
      rw [hbehind nJ hne]
      exact hsession'

theorem releaseSession_inv {s : HttpSessionManager} {session : PooledSession}
    (eLastError : HttpErrorCode) (h : PoolInv s) (hheld : session ∈ s.held) :
    PoolInv (s.releaseSession session eLastError) := by
  obtain ⟨nI, hI, hmarkedI, hsession⟩ := h.heldMarked session hheld
  have hfound : (s.pSession nI).map PooledSession.address = some session.address := by
    rw [hsession]
    rfl
  -- the loop releases the slot of the session only: addresses in the pool differ
  have honly : ∀ nJ < maxSessions,
      (s.pSession nJ).map PooledSession.address = some session.address → nJ = nI := by
    intro nJ hJ heq
    obtain ⟨session', hsession', haddress⟩ := Option.map_eq_some_iff.1 heq
    exact h.addressOnce nJ hJ nI hI session' hsession' session hsession haddress
  have hloop := @releaseLoop_eq s session.address nI eLastError maxSessions (Nat.le_refl _)
    hfound honly
  rw [if_pos hI, releaseSlot, if_pos hfound] at hloop
  unfold releaseSession
  dsimp only
  rw [hloop]
  dsimp only
  refine unmark_inv h hI hmarkedI hsession ?_ ?_
  · intro nJ hne
    split
    · rfl
    · exact Function.update_of_ne hne _ _
  · intro nJ session' hsession'
    split at hsession'
    · exact hsession'
    · by_cases hsame : nJ = nI
      · subst hsame
        rw [Function.update_self] at hsession'
        cases hsession'
      · rwa [Function.update_of_ne hsame] at hsession'

/-- The resources are released while nobody holds a session. -/
theorem releaseResources_inv {s : HttpSessionManager} (h : PoolInv s)
    (hfree : ∀ nI < maxSessions, s.bSessionAcquired nI = false) : PoolInv s.releaseResources := by
  obtain ⟨⟨heldOnce, count, live, reusable, unlocked⟩, below, hdistinct, hserial, marked⟩ := h
  have hnone : ∀ nI < maxSessions, s.releaseResources.pSession nI = none :=
    fun nI hI => if_pos hI
  constructor
  · constructor
    · exact heldOnce
    · exact count
    · intro nI hI hmarked
      exact absurd hmarked (Bool.eq_false_iff.1 (hfree nI hI))
    · intro nI hI hmarked
      exact absurd hmarked (Bool.eq_false_iff.1 (hfree nI hI))
    · exact unlocked
  · intro nI hI session hsession
    rw [hnone nI hI] at hsession
    cases hsession
  · intro nI hI nJ _ session hsession
    rw [hnone nI hI] at hsession
    cases hsession
  · intro nI hI nJ _ session hsession
    rw [hnone nI hI] at hsession
    cases hsession
  · intro session hheld
    obtain ⟨nI, hI, hmarked, _⟩ := marked session hheld
    exact absurd hmarked (Bool.eq_false_iff.1 (hfree nI hI))

/-! ## The run -/

theorem poolInv_next {s s' : HttpSessionManager} {call : SessionCall} (h : PoolInv s)
    (hcareful : Careful s call) (hnext : next s call = some s') : PoolInv s' := by
  cases call with
  | acquireSession address =>
    unfold next at hnext
    dsimp only at hnext
    split at hnext
    · rename_i hguard
      cases hnext
      exact acquireSession_inv h hguard.2 hcareful
    · cases hnext
  | releaseSession session eLastError =>
    unfold next at hnext
    dsimp only at hnext
    split at hnext
    · rename_i hguard
      cases hnext
      exact releaseSession_inv eLastError h hguard.2
    · cases hnext
  | setLocalPortRange =>
    unfold next at hnext
    dsimp only at hnext
    split at hnext
    · cases hnext
      exact h
    · cases hnext
  | releaseResources =>
    cases hnext
    exact releaseResources_inv h hcareful

/-- A run in which every needed session is created, and the resources are released only
while no slot is marked, keeps the pool in order. -/
theorem along_poolKept {calls : List SessionCall} {s : HttpSessionManager}
    (hcareful : Lib.Along next Careful init calls) (hrun : Lib.exec next init calls = some s) :
    PoolKept s :=
  (Lib.exec_inv (fun _ _ _ h hcareful hnext => poolInv_next h hcareful hnext) calls init s
    poolInv_init hcareful hrun).toPoolKept

/-- Two sessions at once, one of which fails and is deleted. -/
theorem along_poolKept_example : ∃ s, Lib.exec next init [.releaseResources,
    .acquireSession (some 1), .acquireSession (some 2), .setLocalPortRange,
    .releaseSession ⟨1, 0⟩ .eERR_NETWORK, .releaseSession ⟨2, 1⟩ .eERR_OK] = some s ∧
    PoolKept s := by
  obtain ⟨s, hrun⟩ := Option.isSome_iff_exists.1 (show (Lib.exec next init [.releaseResources,
    .acquireSession (some 1), .acquireSession (some 2), .setLocalPortRange,
    .releaseSession ⟨1, 0⟩ .eERR_NETWORK, .releaseSession ⟨2, 1⟩ .eERR_OK]).isSome = true
    by decide +kernel)
  have hcreated : ∀ address s, Careful s (.acquireSession (some address)) :=
    fun address s nI _ _ => Option.some_ne_none address
  refine ⟨s, hrun, @along_poolKept _ _ ?_ hrun⟩
  refine ⟨fun _ _ => rfl, fun _ _ => ?_⟩
  apply Lib.along_of_forall_mem
  intro call hcall s
  simp only [List.mem_cons, List.not_mem_nil, or_false] at hcall
  rcases hcall with rfl | rfl | rfl | rfl | rfl
  · exact hcreated 1 s
  · exact hcreated 2 s
  · trivial
  · trivial
  · trivial

/-- A session that is not created leaves the mutex locked. -/
theorem not_poolKept_null : ¬∀ calls s, Lib.exec next init calls = some s → PoolKept s := by
  intro hall
  have hkept := hall [.acquireSession none] _ rfl
  exact absurd hkept.unlocked (by decide)

end HttpSessionManager

end DeviceClient
