import DeviceClient.Dam.HandOver

/-!
# The two transports at a shutdown

Events go from `CCacheTransport::Send` through the queue of the event receiver, the chain of
handlers and the queue of the database transport into the database. Two threads move them,
and each leaves its loop when it sees its own shutdown flag; the monitor sets the flag of
`CDBTransport` after the event receiver has completed, or where that is not registered.
`FlushCache` of either, which empties its queue, is called by nobody.

What the handlers make of an event is an input, and so is what the database does. An event
keeps its text; `Put` numbers it. A wait may end at any time.

* `next`: a statement of a call of `Send`, of a thread or of the monitor.
* `Inv`: each event accepted is somewhere between `Send` and the database.
* `delivered_of_run`: where no thread leaves an event behind, each is inserted or dropped.
-/

namespace DeviceClient

namespace OrderlyShutdown

variable {κ : Type}

/-! ## Data -/

structure SentEvent where
  nPut : ℕ
  text : String
deriving DecidableEq

/-- Where a thread is in `Send`. -/
inductive SendPc where
  | outside
  | checkShutdown (rstrSerialized : String)
  | checkSize (rstrSerialized : String)
  | put (rstrSerialized : String)
  /-- Before the start of the worker, or the broadcast; `Send` returns true then. -/
  | notify (event : SentEvent)
deriving DecidableEq

/-- Where the event receiver is in `CCacheTransport::Run`. -/
inductive CachePc where
  | notStarted
  | register
  | head
  | take
  | handle (event : SentEvent)
  | checkShutdown
  | waiting
  | ready
deriving DecidableEq

/-- Where the database thread is in `CDBTransport::Run`. -/
inductive DbPc where
  | head
  | checkSize
  | processQueueData (unMaxLimit unInsertCntr : ℕ)
  | ready
deriving DecidableEq

/-- What the chain of handlers does with an event: a filter drops it, the validation of
timestamps holds it back or stores it, or it is put into the queue of the database transport,
which misses its lock so often. -/
inductive Fate where
  | drop
  | hold
  | store
  | pass (nFails : ℕ)
deriving DecidableEq

/-- What `ProcessMessage` does with an event. -/
inductive InsertResult where
  | inserted
  | notSupported
  | failed
deriving DecidableEq

structure State (κ : Type) where
  m_eventQueue : List SentEvent
  /-- `m_bIsShutdownInitiated` of `CCacheTransport`. -/
  bCacheShutdown : Bool
  cache : CachePc
  m_listInitialEvents : List SentEvent
  m_queEvent : List SentEvent
  /-- `m_bIsShutdownInitiated` of `CDBTransport`. -/
  bDbShutdown : Bool
  db : DbPc
  send : κ → SendPc
  /-- The monitor has begun. -/
  initiated : Bool
  nPuts : ℕ
  /-- Events whose `Send` returned true before. -/
  accepted : List SentEvent
  inserted : List SentEvent
  dropped : List SentEvent

inductive Act (κ : Type) where
  | send (t : κ) (rstrSerialized : String)
  /-- The next statement of `Send`; `Put` misses its lock so often. -/
  | call (t : κ) (nFails : ℕ)
  | cache
  /-- The event receiver hands the event it has taken to the handlers. -/
  | handle (fate : Fate)
  /-- Meanwhile an event that was held back goes on. -/
  | release (fate : Fate)
  | db (result : InsertResult)
  | initiate
  | notifyCache
  | notifyDb

def init : State κ where
  m_eventQueue := []
  bCacheShutdown := false
  cache := .notStarted
  m_listInitialEvents := []
  m_queEvent := []
  bDbShutdown := false
  db := .head
  send := fun _ => .outside
  initiated := false
  nPuts := 0
  accepted := []
  inserted := []
  dropped := []

/-- `Size` of a queue. -/
def queueSize (queue : List SentEvent) : ℕ := (queue.map fun e => e.text.utf8ByteSize).sum

/-- `Put` of a queue. -/
def putEvent (queue : List SentEvent) (event : SentEvent) (nFails : ℕ) : List SentEvent :=
  if lockRetry 0 nFails then queue ++ [event] else queue

/-! ## The steps -/

section Steps

variable [DecidableEq κ]

def State.goto (s : State κ) (t : κ) (pc : SendPc) : State κ :=
  { s with send := Function.update s.send t pc }

/-- `Send` starts the worker with the first event. -/
def CachePc.start : CachePc → CachePc
  | .notStarted => .register
  | pc => pc

/-- `CCacheTransport::Send`. -/
def stepSend (s : State κ) (t : κ) (nFails : ℕ) : Option (State κ) :=
  match s.send t with
  | .outside => none
  | .checkShutdown rstrSerialized =>
    some (s.goto t (if s.bCacheShutdown then .outside else .checkSize rstrSerialized))
  | .checkSize rstrSerialized =>
    some (s.goto t (if queueSize s.m_eventQueue < MAX_QUEUE_SIZE then .put rstrSerialized
      else .outside))
  | .put rstrSerialized =>
    some { s.goto t (.notify ⟨s.nPuts, rstrSerialized⟩) with
      m_eventQueue := putEvent s.m_eventQueue ⟨s.nPuts, rstrSerialized⟩ nFails
      nPuts := s.nPuts + 1 }
  | .notify event =>
    some { s.goto t .outside with
      cache := s.cache.start
      accepted := if s.initiated then s.accepted else s.accepted ++ [event] }

/-- `CCacheTransport::Run`. -/
def stepCache (s : State κ) : Option (State κ) :=
  match s.cache with
  | .notStarted | .handle _ | .ready => none
  | .register => some { s with cache := .head }
  | .head => some { s with cache := if s.bCacheShutdown then .ready else .take }
  | .take =>
    match s.m_eventQueue with
    | [] => some { s with cache := .checkShutdown }
    | event :: rest => some { s with m_eventQueue := rest, cache := .handle event }
  | .checkShutdown => some { s with cache := if s.bCacheShutdown then .head else .waiting }
  | .waiting => some { s with cache := .head }

/-- What the handlers do with an event. -/
def State.dispose (s : State κ) (event : SentEvent) : Fate → State κ
  | .drop => { s with dropped := s.dropped ++ [event] }
  | .hold => { s with m_listInitialEvents := s.m_listInitialEvents ++ [event] }
  | .store => { s with inserted := s.inserted ++ [event] }
  | .pass nFails => { s with m_queEvent := putEvent s.m_queEvent event nFails }

/-- `CDBTransport::Run`. An event that is not supported is not stored. -/
def stepDb (cfg : TransportConfig) (s : State κ) (result : InsertResult) : Option (State κ) :=
  match s.db with
  | .head => some { s with db := if s.bDbShutdown then .ready else .checkSize }
  | .checkSize =>
    some { s with
      db :=
        if queueSize s.m_queEvent = 0 then .head
        else .processQueueData
          (DBTransport.getMaxEventToInsertInOneTxn cfg (queueSize s.m_queEvent)) 1 }
  | .processQueueData unMaxLimit unInsertCntr =>
    if unInsertCntr ≤ unMaxLimit then
      match s.m_queEvent with
      | [] => some { s with db := .head }
      | event :: rest =>
        some { s with
          m_queEvent := rest
          db := .processQueueData unMaxLimit ((unInsertCntr + 1) % 2 ^ 16)
          inserted := if result = .inserted then s.inserted ++ [event] else s.inserted
          dropped := if result = .notSupported then s.dropped ++ [event] else s.dropped }
    else some { s with db := .head }
  | .ready => none

/-- The event receiver is registered for the notification. -/
def CachePc.registered : CachePc → Bool
  | .notStarted | .register => false
  | _ => true

def next (cfg : TransportConfig) (s : State κ) : Act κ → Option (State κ)
  | .send t rstrSerialized =>
    match s.send t with
    | .outside => some (s.goto t (.checkShutdown rstrSerialized))
    | _ => none
  | .call t nFails => stepSend s t nFails
  | .cache => stepCache s
  | .handle fate =>
    match s.cache with
    | .handle event => some { s.dispose event fate with cache := .take }
    | _ => none
  | .release fate =>
    match s.cache, s.m_listInitialEvents with
    | .handle _, event :: rest =>
      some ({ s with m_listInitialEvents := rest }.dispose event fate)
    | _, _ => none
  | .db result => stepDb cfg s result
  | .initiate => some { s with initiated := true }
  | .notifyCache =>
    if s.initiated && s.cache.registered then some { s with bCacheShutdown := true } else none
  | .notifyDb =>
    if s.initiated && (!s.cache.registered || decide (s.cache = .ready)) then
      some { s with bDbShutdown := true }
    else none

end Steps

/-! ## Nothing is left behind -/

/-- The call of `Send` is at its `Put`. -/
def SendPc.isPut : SendPc → Bool
  | .put _ => true
  | _ => false

/-- No event is lost in the step: a `Put` gets its lock, the database takes what it is given,
and a thread does not leave its loop while events that were accepted are still before it. -/
def LeavesNothing (s : State κ) : Act κ → Prop
  | .call t nFails => (s.send t).isPut = true → lockRetry 0 nFails = true
  | .cache =>
    s.cache = .head ∧ s.bCacheShutdown = true →
      ∀ e ∈ s.accepted, e ∉ s.m_eventQueue ∧ e ∉ s.m_listInitialEvents
  | .handle (.pass nFails) | .release (.pass nFails) => lockRetry 0 nFails = true
  | .db result =>
    result ≠ .failed ∧ (s.db = .head ∧ s.bDbShutdown = true →
      s.cache = .ready ∧ ∀ e ∈ s.accepted, e ∉ s.m_queEvent)
  | _ => True

instance (s : State κ) (a : Act κ) : Decidable (LeavesNothing s a) := by
  unfold LeavesNothing
  split <;> infer_instance

/-- The event that the event receiver has in its hand. -/
def CachePc.inHand : CachePc → List SentEvent
  | .handle event => [event]
  | _ => []

/-- The handlers have had the event. -/
def State.Handled (s : State κ) (e : SentEvent) : Prop :=
  e ∈ s.m_listInitialEvents ∨ e ∈ s.m_queEvent ∨ e ∈ s.inserted ∨ e ∈ s.dropped

/-- Where an event can be after `Put`. -/
def State.Somewhere (s : State κ) (e : SentEvent) : Prop :=
  e ∈ s.m_eventQueue ∨ e ∈ s.cache.inHand ∨ s.Handled e

structure Inv (s : State κ) : Prop where
  old : ∀ e ∈ s.accepted, e.nPut < s.nPuts
  notifying : ∀ t e, s.send t = .notify e → e.nPut < s.nPuts ∧ s.Somewhere e
  accepted : ∀ e ∈ s.accepted, s.Somewhere e
  flags : s.bCacheShutdown = true ∨ s.bDbShutdown = true → s.initiated = true
  cacheReady : s.cache = .ready → s.bCacheShutdown = true ∧
    ∀ e ∈ s.accepted, e ∉ s.m_eventQueue ∧ e ∉ s.m_listInitialEvents
  dbReady : s.db = .ready → s.bDbShutdown = true ∧ s.cache = .ready ∧
    ∀ e ∈ s.accepted, e ∉ s.m_queEvent

theorem inv_init : Inv (init : State κ) where
  old := nofun
  notifying := nofun
  accepted := nofun
  flags := nofun
  cacheReady := nofun
  dbReady := nofun

variable {s s' : State κ}

/-- A step of a thread that moves events: no call of `Send` goes on. -/
theorem Inv.move (h : Inv s) (hsend : s'.send = s.send) (hnPuts : s'.nPuts = s.nPuts)
    (haccepted : s'.accepted = s.accepted) (hplaces : ∀ e, s.Somewhere e → s'.Somewhere e)
    (hflags : s'.bCacheShutdown = true ∨ s'.bDbShutdown = true → s'.initiated = true)
    (hcache : s'.cache = .ready → s'.bCacheShutdown = true ∧
      ∀ e ∈ s.accepted, e ∉ s'.m_eventQueue ∧ e ∉ s'.m_listInitialEvents)
    (hdb : s'.db = .ready → s'.bDbShutdown = true ∧ s'.cache = .ready ∧
      ∀ e ∈ s.accepted, e ∉ s'.m_queEvent) : Inv s' where
  old := by
    rw [haccepted, hnPuts]
    exact h.old
  notifying := by
    intro t e hpc
    rw [hsend] at hpc
    rw [hnPuts]
    exact ⟨(h.notifying t e hpc).1, hplaces e (h.notifying t e hpc).2⟩
  accepted := by
    rw [haccepted]
    exact fun e he => hplaces e (h.accepted e he)
  flags := hflags
  cacheReady := by
    rw [haccepted]
    exact hcache
  dbReady := by
    rw [haccepted]
    exact hdb

theorem mem_putEvent {queue : List SentEvent} {event e : SentEvent} {nFails : ℕ} :
    e ∈ putEvent queue event nFails ↔
      e ∈ queue ∨ (lockRetry 0 nFails = true ∧ e = event) := by
  unfold putEvent
  split_ifs with hlock
  · rw [List.mem_append, List.mem_singleton]
    simp [hlock]
  · simp [hlock]

/-! ## The threads -/

theorem db_ne_ready (h : Inv s) (hcache : s.cache ≠ .ready) : s.db ≠ .ready :=
  fun hdb => hcache (h.dbReady hdb).2.1

/-- The event receiver goes on with nothing in its hand. -/
theorem inv_cachePc (h : Inv s) {pc : CachePc} (hcache : s.cache ≠ .ready)
    (hfrom : s.cache.inHand = []) (hto : pc.inHand = [])
    (hready : pc = .ready → s.bCacheShutdown = true ∧
      ∀ e ∈ s.accepted, e ∉ s.m_eventQueue ∧ e ∉ s.m_listInitialEvents) :
    Inv { s with cache := pc } := by
  have hdb := db_ne_ready h hcache
  refine h.move rfl rfl rfl (fun e he => ?_) h.flags hready fun hready => absurd hready hdb
  unfold State.Somewhere at he ⊢
  rw [hfrom] at he
  dsimp only
  rw [hto]
  exact he

theorem inv_stepCache (h : Inv s) (hleaves : LeavesNothing s .cache)
    (hnext : stepCache s = some s') : Inv s' := by
  unfold stepCache at hnext
  split at hnext
  · exact nomatch hnext
  · exact nomatch hnext
  · exact nomatch hnext
  · rename_i hpc
    cases hnext
    exact inv_cachePc h (by rw [hpc]; exact nofun) (by rw [hpc]; rfl) rfl nofun
  · rename_i hpc
    cases hnext
    refine inv_cachePc h (by rw [hpc]; exact nofun) (by rw [hpc]; rfl) ?_ fun hready => ?_
    · split_ifs <;> rfl
    · -- the event receiver leaves its loop
      by_cases hflag : s.bCacheShutdown = true
      · exact ⟨hflag, hleaves ⟨hpc, hflag⟩⟩
      · rw [if_neg hflag] at hready
        exact nomatch hready
  · rename_i hpc
    split at hnext
    · cases hnext
      exact inv_cachePc h (by rw [hpc]; exact nofun) (by rw [hpc]; rfl) rfl nofun
    · rename_i event rest hqueue
      cases hnext
      have hdb := db_ne_ready h (by rw [hpc]; exact nofun)
      refine h.move rfl rfl rfl (fun e he => ?_) h.flags nofun fun hready => absurd hready hdb
      unfold State.Somewhere at he
      rw [hqueue, hpc] at he
      rcases he with hin | hhand | hrest
      · rcases List.mem_cons.1 hin with rfl | hin
        · exact Or.inr (Or.inl (List.mem_singleton_self _))
        · exact Or.inl hin
      · exact nomatch hhand
      · exact Or.inr (Or.inr hrest)
  · rename_i hpc
    cases hnext
    refine inv_cachePc h (by rw [hpc]; exact nofun) (by rw [hpc]; rfl) ?_ fun hready => ?_
    · split_ifs <;> rfl
    · split_ifs at hready
  · rename_i hpc
    cases hnext
    exact inv_cachePc h (by rw [hpc]; exact nofun) (by rw [hpc]; rfl) rfl nofun

/-- What the handlers do with an event keeps it, and the others. -/
theorem handled_dispose {event e : SentEvent} {fate : Fate}
    (hput : ∀ nFails, fate = .pass nFails → lockRetry 0 nFails = true)
    (h : s.Handled e ∨ e = event) : (s.dispose event fate).Handled e := by
  unfold State.Handled State.dispose at *
  cases fate with
  | drop =>
    simp only [List.mem_append, List.mem_singleton]
    tauto
  | hold =>
    simp only [List.mem_append, List.mem_singleton]
    tauto
  | store =>
    simp only [List.mem_append, List.mem_singleton]
    tauto
  | pass nFails =>
    have hlock := hput nFails rfl
    simp only [mem_putEvent]
    tauto

/-- The other fields are left as they are. -/
theorem dispose_frame (event : SentEvent) (fate : Fate) :
    (s.dispose event fate).m_eventQueue = s.m_eventQueue ∧
      (s.dispose event fate).cache = s.cache ∧ (s.dispose event fate).db = s.db ∧
      (s.dispose event fate).send = s.send ∧ (s.dispose event fate).nPuts = s.nPuts ∧
      (s.dispose event fate).accepted = s.accepted ∧
      (s.dispose event fate).bCacheShutdown = s.bCacheShutdown ∧
      (s.dispose event fate).bDbShutdown = s.bDbShutdown ∧
      (s.dispose event fate).initiated = s.initiated := by
  cases fate <;> exact ⟨rfl, rfl, rfl, rfl, rfl, rfl, rfl, rfl, rfl⟩

theorem inv_handle (h : Inv s) {event : SentEvent} {fate : Fate}
    (hput : ∀ nFails, fate = .pass nFails → lockRetry 0 nFails = true)
    (hpc : s.cache = .handle event) : Inv { s.dispose event fate with cache := .take } := by
  have hdb := db_ne_ready h (by rw [hpc]; exact nofun)
  obtain ⟨hqueue, -, hdb', hsend, hnPuts, haccepted, hcflag, hdflag, hinit⟩ :=
    @dispose_frame _ s event fate
  refine h.move hsend hnPuts haccepted (fun e he => ?_) ?_ nofun
    fun hready => absurd (hdb'.symm.trans hready) hdb
  · rcases he with hin | hhand | hhandled
    · exact Or.inl (by rw [← hqueue] at hin; exact hin)
    · rw [hpc] at hhand
      exact Or.inr (Or.inr (handled_dispose hput (Or.inr (List.mem_singleton.1 hhand))))
    · exact Or.inr (Or.inr (handled_dispose hput (Or.inl hhandled)))
  · dsimp only
    rw [hcflag, hdflag, hinit]
    exact h.flags

theorem inv_release (h : Inv s) {event held : SentEvent} {rest : List SentEvent} {fate : Fate}
    (hput : ∀ nFails, fate = .pass nFails → lockRetry 0 nFails = true)
    (hpc : s.cache = .handle event) (hheld : s.m_listInitialEvents = held :: rest) :
    Inv ({ s with m_listInitialEvents := rest }.dispose held fate) := by
  have hdb := db_ne_ready h (by rw [hpc]; exact nofun)
  obtain ⟨hqueue, hcache, hdb', hsend, hnPuts, haccepted, hcflag, hdflag, hinit⟩ :=
    @dispose_frame _ { s with m_listInitialEvents := rest } held fate
  refine h.move hsend hnPuts haccepted (fun e he => ?_) ?_ (fun hready => ?_)
    fun hready => absurd (hdb'.symm.trans hready) hdb
  · rcases he with hin | hhand | hhandled
    · exact Or.inl (by rw [hqueue]; exact hin)
    · exact Or.inr (Or.inl (by rw [hcache]; exact hhand))
    · -- the one that goes on, or another one
      refine Or.inr (Or.inr (handled_dispose hput ?_))
      rcases hhandled with hlist | hpast
      · rw [hheld, List.mem_cons] at hlist
        exact hlist.symm.imp Or.inl id
      · exact Or.inl (Or.inr hpast)
  · rw [hcflag, hdflag, hinit]
    exact h.flags
  · rw [hcache] at hready
    exact absurd (hpc.symm.trans hready) nofun

theorem inv_stepDb (h : Inv s) {cfg : TransportConfig} {result : InsertResult}
    (hleaves : LeavesNothing s (.db result)) (hnext : stepDb cfg s result = some s') :
    Inv s' := by
  unfold stepDb at hnext
  split at hnext
  · rename_i hpc
    cases hnext
    refine h.move rfl rfl rfl (fun _ he => he) h.flags h.cacheReady fun hready => ?_
    -- the database thread leaves its loop
    by_cases hflag : s.bDbShutdown = true
    · exact ⟨hflag, hleaves.2 ⟨hpc, hflag⟩⟩
    · dsimp only at hready
      rw [if_neg hflag] at hready
      exact nomatch hready
  · cases hnext
    refine h.move rfl rfl rfl (fun _ he => he) h.flags h.cacheReady fun hready => ?_
    dsimp only at hready
    split_ifs at hready
  · rename_i unMaxLimit unInsertCntr hpc
    by_cases hmore : unInsertCntr ≤ unMaxLimit
    · rw [if_pos hmore] at hnext
      split at hnext
      · cases hnext
        exact h.move rfl rfl rfl (fun _ he => he) h.flags h.cacheReady nofun
      · rename_i event rest hqueue
        cases hnext
        refine h.move rfl rfl rfl (fun e he => ?_) h.flags h.cacheReady nofun
        rcases he with hin | hhand | hlist | hin | hpast
        · exact Or.inl hin
        · exact Or.inr (Or.inl hhand)
        · exact Or.inr (Or.inr (Or.inl hlist))
        · rw [hqueue] at hin
          rcases List.mem_cons.1 hin with rfl | hin
          · -- what has been taken is inserted, or is not supported
            refine Or.inr (Or.inr (Or.inr (Or.inr ?_)))
            cases result with
            | inserted => exact Or.inl (List.mem_append_right _ (List.mem_singleton_self _))
            | notSupported => exact Or.inr (List.mem_append_right _ (List.mem_singleton_self _))
            | failed => exact absurd rfl hleaves.1
          · exact Or.inr (Or.inr (Or.inr (Or.inl hin)))
        · have hkeep : ∀ (l : List SentEvent) (r : InsertResult), e ∈ l →
              e ∈ (if result = r then l ++ [event] else l) := by
            intro l r hl
            split_ifs
            · exact List.mem_append_left _ hl
            · exact hl
          exact Or.inr (Or.inr (Or.inr (Or.inr (hpast.imp (hkeep _ _) (hkeep _ _)))))
    · rw [if_neg hmore] at hnext
      cases hnext
      exact h.move rfl rfl rfl (fun _ he => he) h.flags h.cacheReady nofun
  · exact nomatch hnext

/-! ## `Send` -/

variable [DecidableEq κ]

theorem send_goto (t : κ) (pc : SendPc) : (s.goto t pc).send t = pc := by
  simp [State.goto]

theorem send_goto_of_ne {t u : κ} (pc : SendPc) (h : u ≠ t) :
    (s.goto t pc).send u = s.send u := by
  simp [State.goto, h]

/-- A statement of `Send` before `Put`, or one that returns false. -/
theorem inv_goto (h : Inv s) {t : κ} {pc : SendPc} (hpc : ∀ e, pc ≠ .notify e) :
    Inv (s.goto t pc) where
  old := h.old
  notifying := by
    intro u e hu
    by_cases hut : u = t
    · subst hut
      rw [send_goto] at hu
      exact absurd hu (hpc e)
    · rw [send_goto_of_ne pc hut] at hu
      exact h.notifying u e hu
  accepted := h.accepted
  flags := h.flags
  cacheReady := h.cacheReady
  dbReady := h.dbReady

/-- The event gets a number that no event has. -/
theorem inv_put (h : Inv s) {t : κ} {nFails : ℕ} (rstrSerialized : String)
    (hlock : lockRetry 0 nFails = true) :
    Inv { s.goto t (.notify ⟨s.nPuts, rstrSerialized⟩) with
      m_eventQueue := putEvent s.m_eventQueue ⟨s.nPuts, rstrSerialized⟩ nFails
      nPuts := s.nPuts + 1 } := by
  have hplaces : ∀ e, s.Somewhere e → State.Somewhere
      { s.goto t (.notify ⟨s.nPuts, rstrSerialized⟩) with
        m_eventQueue := putEvent s.m_eventQueue ⟨s.nPuts, rstrSerialized⟩ nFails
        nPuts := s.nPuts + 1 } e := by
    intro e he
    rcases he with hin | hrest
    · exact Or.inl (mem_putEvent.2 (Or.inl hin))
    · exact Or.inr hrest
  refine ⟨fun e he => Nat.lt_succ_of_lt (h.old e he), ?_, fun e he => hplaces e (h.accepted e he),
    h.flags, fun hready => ⟨(h.cacheReady hready).1, fun e he => ?_⟩, h.dbReady⟩
  · intro u e hu
    dsimp only at hu
    by_cases hut : u = t
    · subst hut
      rw [send_goto] at hu
      cases hu
      exact ⟨Nat.lt_succ_self _, Or.inl (mem_putEvent.2 (Or.inr ⟨hlock, rfl⟩))⟩
    · rw [send_goto_of_ne _ hut] at hu
      exact ⟨Nat.lt_succ_of_lt (h.notifying u e hu).1, hplaces e (h.notifying u e hu).2⟩
  · refine ⟨fun hin => ?_, ((h.cacheReady hready).2 e he).2⟩
    rcases mem_putEvent.1 hin with hin | ⟨-, rfl⟩
    · exact ((h.cacheReady hready).2 e he).1 hin
    · exact Nat.lt_irrefl _ (h.old _ he)

theorem inHand_start (pc : CachePc) : pc.start.inHand = pc.inHand := by
  cases pc <;> rfl

theorem ready_of_start {pc : CachePc} (h : pc.start = .ready) : pc = .ready := by
  cases pc <;> first | rfl | exact nomatch h

/-- `Send` returns true. -/
theorem inv_accept (h : Inv s) {t : κ} {event : SentEvent} (hpc : s.send t = .notify event) :
    Inv { s.goto t .outside with
      cache := s.cache.start
      accepted := if s.initiated then s.accepted else s.accepted ++ [event] } := by
  have hnew := h.notifying t event hpc
  have hplaces : ∀ e, s.Somewhere e → State.Somewhere
      { s.goto t .outside with
        cache := s.cache.start
        accepted := if s.initiated then s.accepted else s.accepted ++ [event] } e := by
    intro e he
    unfold State.Somewhere at he ⊢
    dsimp only
    rw [inHand_start]
    exact he
  have haccepted : ∀ e, e ∈ (if s.initiated then s.accepted else s.accepted ++ [event]) →
      e ∈ s.accepted ∨ e = event := by
    intro e he
    by_cases hinit : s.initiated = true
    · rw [if_pos hinit] at he
      exact Or.inl he
    · rw [if_neg hinit, List.mem_append, List.mem_singleton] at he
      exact he
  -- after the shutdown has begun no event is accepted
  have hdone : s.initiated = true → ∀ e,
      e ∈ (if s.initiated then s.accepted else s.accepted ++ [event]) → e ∈ s.accepted := by
    intro hinit e he
    rw [if_pos hinit] at he
    exact he
  refine ⟨fun e he => ?_, fun u e hu => ?_, fun e he => ?_, h.flags, fun hcache => ?_,
    fun hdb => ?_⟩
  · rcases haccepted e he with hold | rfl
    · exact h.old e hold
    · exact hnew.1
  · by_cases hut : u = t
    · subst hut
      dsimp only at hu
      rw [send_goto] at hu
      exact nomatch hu
    · dsimp only at hu
      rw [send_goto_of_ne .outside hut] at hu
      exact ⟨(h.notifying u e hu).1, hplaces e (h.notifying u e hu).2⟩
  · rcases haccepted e he with hold | rfl
    · exact hplaces e (h.accepted e hold)
    · exact hplaces _ hnew.2
  · have hleft := h.cacheReady (ready_of_start hcache)
    exact ⟨hleft.1, fun e he => hleft.2 e (hdone (h.flags (Or.inl hleft.1)) e he)⟩
  · have hleft := h.dbReady hdb
    refine ⟨hleft.1, ?_, fun e he =>
      hleft.2.2 e (hdone (h.flags (Or.inr hleft.1)) e he)⟩
    show s.cache.start = .ready
    rw [hleft.2.1]
    rfl

theorem inv_stepSend (h : Inv s) {t : κ} {nFails : ℕ}
    (hleaves : LeavesNothing s (.call t nFails)) (hnext : stepSend s t nFails = some s') :
    Inv s' := by
  unfold stepSend at hnext
  split at hnext
  · exact nomatch hnext
  · cases hnext
    refine inv_goto h fun e => ?_
    split_ifs <;> exact nofun
  · cases hnext
    refine inv_goto h fun e => ?_
    split_ifs <;> exact nofun
  · rename_i rstrSerialized hpc
    cases hnext
    exact inv_put h rstrSerialized (hleaves (by rw [hpc]; rfl))
  · rename_i event hpc
    cases hnext
    exact inv_accept h hpc

/-! ## Runs -/

theorem inv_next {cfg : TransportConfig} (h : Inv s) {a : Act κ} (hleaves : LeavesNothing s a)
    (hnext : next cfg s a = some s') : Inv s' := by
  -- an event that is passed on gets into the queue
  have hput : ∀ fate : Fate, LeavesNothing s (.handle fate) →
      ∀ nFails, fate = .pass nFails → lockRetry 0 nFails = true := by
    rintro fate hfate nFails rfl
    exact hfate
  cases a with
  | send t rstrSerialized =>
    unfold next at hnext
    dsimp only at hnext
    split at hnext
    · cases hnext
      exact inv_goto h nofun
    · exact nomatch hnext
  | call t nFails => exact inv_stepSend h hleaves hnext
  | cache => exact inv_stepCache h hleaves hnext
  | handle fate =>
    unfold next at hnext
    dsimp only at hnext
    split at hnext
    · rename_i event hpc
      cases hnext
      exact inv_handle h (hput fate hleaves) hpc
    · exact nomatch hnext
  | release fate =>
    unfold next at hnext
    dsimp only at hnext
    split at hnext
    · rename_i event held rest hpc hheld
      cases hnext
      refine inv_release h ?_ hpc hheld
      rintro nFails rfl
      exact hleaves
    · exact nomatch hnext
  | db result => exact inv_stepDb h hleaves hnext
  | initiate =>
    cases hnext
    exact h.move rfl rfl rfl (fun _ he => he) (fun _ => rfl) h.cacheReady h.dbReady
  | notifyCache =>
    unfold next at hnext
    dsimp only at hnext
    split at hnext
    · -- the shutdown has begun when the flag of a thread is set
      rename_i hbegun
      cases hnext
      rw [Bool.and_eq_true] at hbegun
      exact h.move rfl rfl rfl (fun _ he => he) (fun _ => hbegun.1)
        (fun hready => ⟨rfl, (h.cacheReady hready).2⟩) h.dbReady
    · exact nomatch hnext
  | notifyDb =>
    unfold next at hnext
    dsimp only at hnext
    split at hnext
    · rename_i hbegun
      cases hnext
      rw [Bool.and_eq_true] at hbegun
      exact h.move rfl rfl rfl (fun _ he => he) (fun _ => hbegun.1) h.cacheReady
        (fun hready => ⟨rfl, (h.dbReady hready).2⟩)
    · exact nomatch hnext

/-- Both threads have completed: an event accepted before is in no queue, and has been
inserted or dropped. -/
def Delivered (s : State κ) : Prop :=
  s.cache = .ready → s.db = .ready → ∀ e ∈ s.accepted,
    (e ∈ s.inserted ∨ e ∈ s.dropped) ∧ e ∉ s.m_eventQueue ∧ e ∉ s.m_queEvent

instance (s : State κ) : Decidable (Delivered s) :=
  inferInstanceAs (Decidable (_ → _ → _))

omit [DecidableEq κ] in
theorem Inv.delivered (h : Inv s) : Delivered s := by
  intro hcache hdb e he
  have hout := (h.cacheReady hcache).2 e he
  have hout' := (h.dbReady hdb).2.2 e he
  refine ⟨?_, hout.1, hout'⟩
  rcases h.accepted e he with hin | hhand | hlist | hin | hpast
  · exact absurd hin hout.1
  · rw [hcache] at hhand
    exact nomatch hhand
  · exact absurd hlist hout.2
  · exact absurd hin hout'
  · exact hpast

/-- No event that `Send` has accepted is lost at a shutdown, where no step leaves one behind. -/
theorem delivered_of_run (cfg : TransportConfig) (run : List (Act κ)) (s : State κ)
    (halong : Lib.Along (next cfg) LeavesNothing init run)
    (hrun : Lib.exec (next cfg) init run = some s) : Delivered s :=
  (Lib.exec_inv (fun _ _ _ h hleaves hnext => inv_next h hleaves hnext) run init s inv_init halong
    hrun).delivered

/-! ### Two shutdowns -/

def defaultConfig : TransportConfig :=
  .ofIgniteConfig 1048576 104858 200 100 false []

/-- One event goes to the handlers, and the event receiver waits for the next one. -/
def firstEvent (fate : Fate) : List (Act Bool) :=
  .send true "a" :: List.replicate 4 (.call true 0) ++ List.replicate 3 .cache ++ .handle fate ::
    List.replicate 2 .cache

/-- The monitor notifies both threads, and they leave their loops. -/
def shutdown : List (Act Bool) :=
  [.initiate, .notifyCache, .cache, .cache, .notifyDb, .db .inserted]

/-- The database thread has stored the event before. -/
theorem delivered_of_run_stored :
    ∃ s, Lib.exec (next defaultConfig) init
      (firstEvent (.pass 0) ++ List.replicate 4 (.db .inserted) ++ shutdown) = some s ∧
      s.cache = .ready ∧ s.db = .ready ∧ s.accepted ≠ [] ∧ Delivered s := by
  refine ⟨_, rfl, rfl, rfl, nofun, delivered_of_run defaultConfig
    (firstEvent (.pass 0) ++ List.replicate 4 (.db .inserted) ++ shutdown) _ ?_ rfl⟩
  decide +kernel

/-- An event is accepted while the event receiver waits, or is in the queue of the database
transport when that is notified. -/
theorem not_delivered :
    (∃ s, Lib.exec (next defaultConfig) init
      (firstEvent .drop ++ .send true "b" :: List.replicate 4 (.call true 0) ++ shutdown) =
        some s ∧ ¬ Delivered s) ∧
    ∃ s, Lib.exec (next defaultConfig) init (firstEvent (.pass 0) ++ shutdown) = some s ∧
      ¬ Delivered s :=
  ⟨⟨_, rfl, by decide +kernel⟩, ⟨_, rfl, by decide +kernel⟩⟩

end OrderlyShutdown

end DeviceClient
