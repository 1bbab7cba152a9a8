import DeviceClient.Core.ClientOnOff
import Mathlib.Data.List.TakeWhile

/-!
# The shutdown loop

`CClientOnOff::Run` notifies the receivers group by group and checks their
statuses until all have completed. It takes no lock: the calls `Unregister` and
`ReadyForShutdown` of other threads, and of the notified receivers themselves,
come between any two of its accesses to the maps. So each access of the loop is
a step, the status it has read is in the program counter, and a notified
receiver is written back with the detail that was read.

`notified` only observes: the receivers notified so far, in order.

* `shutdownInv_run`: the loop inspects a group only when the earlier ones are
  done, and what it has notified is no longer subscribed.
* `orderly_iff`: the shutdown is in order exactly where every predefined
  receiver that is not done belongs to a group.
-/

namespace DeviceClient

namespace Shutdown

open ClientOnOff

variable {ρ : Type}

/-- Where the loop stands: before the next receiver of a function, with those
that follow, or between its read and its write of a subscribed one. -/
inductive RunPc (ρ : Type) where
  | notifyNonDefined (names : List String)
  | writeNonDefined (strRcvrName : String) (recvrDetail : ReceiverDetail ρ) (names : List String)
  | notifyPreDefined (codes : List NotifReceiverCode) (bCanNotifyNext : Bool)
      (groups : List (List NotifReceiverCode))
  | writePreDefined (eNotifCode : NotifReceiverCode) (recvrDetail : ReceiverDetail ρ)
      (codes : List NotifReceiverCode) (groups : List (List NotifReceiverCode))
  | checkNonDefined (names : List String) (bIsShutdownComplete : Bool)
  | checkPreDefined (codes : List NotifReceiverCode) (bIsNDShutdownComplete : Bool)
      (bIsShutdownComplete : Bool)
  | finished
deriving DecidableEq, Repr

structure State (ρ : Type) where
  onoff : ClientOnOff ρ
  pc : RunPc ρ
  notified : List (ReceiverKey × ρ)

/-- The keys of `m_mapNonDefinedReceivers`, in the order of its iterator. -/
def names (onoff : ClientOnOff ρ) : List String :=
  onoff.m_mapNonDefinedReceivers.map Prod.fst

/-- `Run` begins. -/
def start (onoff : ClientOnOff ρ) : State ρ where
  onoff := onoff
  pc := .notifyNonDefined (names onoff)
  notified := []

def State.goto (s : State ρ) (pc : RunPc ρ) : State ρ := { s with pc := pc }

/-- The entry goes to `eS_NOTIFIED`, then the receiver is notified. -/
def State.notify (s : State ρ) (key : ReceiverKey) (recvrDetail : ReceiverDetail ρ)
    (pc : RunPc ρ) : State ρ where
  onoff := s.onoff.assignEntry (recvrDetail.withStatus .notified) key
  pc := pc
  notified := s.notified ++ [(key, recvrDetail.pRcvrRef)]

/-! ## Steps of the loop -/

/-- The loop over the groups goes on, or `NotifyPreDefinedOnOffRcvrs` returns. -/
def enterGroup (onoff : ClientOnOff ρ) : List (List NotifReceiverCode) → RunPc ρ
  | [] => .checkNonDefined (names onoff) true
  | group :: groups => .notifyPreDefined group true groups

/-- The next receiver in `NotifyNonDefinedOnOffRcvrs`. -/
def notifyNonDefined (order : List (List NotifReceiverCode)) (onoff : ClientOnOff ρ) :
    List String → RunPc ρ
  | [] => enterGroup onoff order
  | name :: names =>
    match onoff.entry (.nonDefined name) with
    | none => .notifyNonDefined names
    | some recvrDetail =>
      if recvrDetail.eStatus = .subscribed then .writeNonDefined name recvrDetail names
      else .notifyNonDefined names

/-- The next receiver of the group in `NotifyPreDefinedOnOffRcvrs`. -/
def notifyPreDefined (onoff : ClientOnOff ρ) (bCanNotifyNext : Bool)
    (groups : List (List NotifReceiverCode)) : List NotifReceiverCode → RunPc ρ
  -- the groups behind one that is not done are not looked at in this turn
  | [] => if bCanNotifyNext then enterGroup onoff groups
    else .checkNonDefined (names onoff) true
  | eNotifCode :: codes =>
    match onoff.entry (.predefined eNotifCode) with
    | none => .notifyPreDefined codes bCanNotifyNext groups
    | some recvrDetail =>
      if recvrDetail.eStatus = .subscribed then
        .writePreDefined eNotifCode recvrDetail codes groups
      -- notified and not completed: the next group has to wait
      else if recvrDetail.eStatus = .notified then .notifyPreDefined codes false groups
      else .notifyPreDefined codes bCanNotifyNext groups

/-- The flag of a status check after one more entry. -/
def checkEntry (onoff : ClientOnOff ρ) (key : ReceiverKey) (bIsShutdownComplete : Bool) : Bool :=
  match onoff.entry key with
  | none => bIsShutdownComplete
  | some recvrDetail => if recvrDetail.IsDone then bIsShutdownComplete else false

/-- The next receiver in `CheckStatusOfNonDefinedRcvrs`; the check of the predefined
ones runs through all groups. -/
def checkNonDefined (order : List (List NotifReceiverCode)) (onoff : ClientOnOff ρ)
    (bIsShutdownComplete : Bool) : List String → RunPc ρ
  | [] => .checkPreDefined order.flatten bIsShutdownComplete true
  | name :: names =>
    .checkNonDefined names (checkEntry onoff (.nonDefined name) bIsShutdownComplete)

/-- The next receiver in `CheckStatusOfPreDefinedRcvrs`, and the test of `Run` on the
two results. -/
def checkPreDefined (onoff : ClientOnOff ρ) (bIsNDShutdownComplete bIsShutdownComplete : Bool) :
    List NotifReceiverCode → RunPc ρ
  | [] =>
    -- otherwise the loop begins again with the named receivers
    if bIsNDShutdownComplete && bIsShutdownComplete then .finished
    else .notifyNonDefined (names onoff)
  | eNotifCode :: codes =>
    .checkPreDefined codes bIsNDShutdownComplete
      (checkEntry onoff (.predefined eNotifCode) bIsShutdownComplete)

/-- One step of `Run`. -/
def runStep (order : List (List NotifReceiverCode)) (s : State ρ) : Option (State ρ) :=
  match s.pc with
  | .notifyNonDefined names => some (s.goto (notifyNonDefined order s.onoff names))
  | .writeNonDefined name recvrDetail names =>
    some (s.notify (.nonDefined name) recvrDetail (.notifyNonDefined names))
  | .notifyPreDefined codes bCanNotifyNext groups =>
    some (s.goto (notifyPreDefined s.onoff bCanNotifyNext groups codes))
  | .writePreDefined eNotifCode recvrDetail codes groups =>
    some (s.notify (.predefined eNotifCode) recvrDetail (.notifyPreDefined codes false groups))
  | .checkNonDefined names bIsShutdownComplete =>
    some (s.goto (checkNonDefined order s.onoff bIsShutdownComplete names))
  | .checkPreDefined codes bIsNDShutdownComplete bIsShutdownComplete =>
    some (s.goto (checkPreDefined s.onoff bIsNDShutdownComplete bIsShutdownComplete codes))
  | .finished => none

/-- A step of the loop, or a call of another thread. -/
inductive Label where
  | run
  | unregister (eRcvrCode : NotifReceiverCode) (strRcvrName : String)
  | ready (eRcvrCode : NotifReceiverCode) (strRcvrName : String)
deriving DecidableEq, Repr

def State.setOnoff (s : State ρ) (onoff : ClientOnOff ρ) : State ρ := { s with onoff := onoff }

def next (order : List (List NotifReceiverCode)) (s : State ρ) : Label → Option (State ρ)
  | .run => runStep order s
  | .unregister eRcvrCode strRcvrName =>
    some (s.setOnoff (s.onoff.unregisterForShutdownNotification eRcvrCode strRcvrName).2)
  | .ready eRcvrCode strRcvrName =>
    some (s.setOnoff (s.onoff.readyForShutdown eRcvrCode strRcvrName).2)

/-! ## What is to hold -/

/-- A receiver that is still registered under the key has completed. -/
def DoneAt (onoff : ClientOnOff ρ) (key : ReceiverKey) : Prop :=
  ∀ recvrDetail, onoff.entry key = some recvrDetail → recvrDetail.IsDone

/-- The groups before the one of `eNotifCode`. -/
def earlierGroups (order : List (List NotifReceiverCode)) (eNotifCode : NotifReceiverCode) :
    List (List NotifReceiverCode) :=
  order.takeWhile fun group => eNotifCode ∉ group

/-- In every state of the shutdown: a predefined receiver that is notified next has
every earlier group done, no receiver has been notified twice, and at the end all
have completed. -/
structure InOrder (order : List (List NotifReceiverCode)) (s : State ρ) : Prop where
  earlier_done : ∀ s' eNotifCode pRcvrRef, next order s .run = some s' →
    s'.notified = s.notified ++ [(.predefined eNotifCode, pRcvrRef)] →
    ∀ c ∈ (earlierGroups order eNotifCode).flatten, DoneAt s.onoff (.predefined c)
  notified_once : (s.notified.map Prod.fst).Nodup
  finished_done : s.pc = .finished → ∀ key, DoneAt s.onoff key

/-- Every interleaving of the shutdown with the calls of others is in order. -/
def Orderly (order : List (List NotifReceiverCode)) (onoff : ClientOnOff ρ) : Prop :=
  ∀ labels s, Lib.exec (next order) (start onoff) labels = some s → InOrder order s

/-! ## Done entries stay done -/

/-- All receivers with these codes are done. -/
def AllDone (onoff : ClientOnOff ρ) (codes : List NotifReceiverCode) : Prop :=
  ∀ c ∈ codes, DoneAt onoff (.predefined c)

theorem doneAt_of_entry_none {onoff : ClientOnOff ρ} {key : ReceiverKey}
    (h : onoff.entry key = none) : DoneAt onoff key := by
  intro d hd
  rw [h] at hd
  cases hd

theorem doneAt_of_isDone {onoff : ClientOnOff ρ} {key : ReceiverKey} {d : ReceiverDetail ρ}
    (h : onoff.entry key = some d) (hd : d.IsDone) : DoneAt onoff key := by
  intro d' hd'
  rw [h] at hd'
  cases hd'
  exact hd

/-- A completion or an unregistration leaves the done entries done. -/
theorem DoneAt.setStatus {onoff : ClientOnOff ρ} {key : ReceiverKey} (h : DoneAt onoff key)
    {eStatus : SubscribeStatus} (he : ∀ d : ReceiverDetail ρ, (d.withStatus eStatus).IsDone)
    (k : ReceiverKey) : DoneAt (onoff.setStatus eStatus k).2 key := by
  intro d hd
  rw [entry_setStatus] at hd
  by_cases hk : key = k
  · rw [if_pos hk, Option.map_eq_some_iff] at hd
    obtain ⟨d₀, _, rfl⟩ := hd
    exact he d₀
  · rw [if_neg hk] at hd
    exact h d hd

theorem DoneAt.assignEntry {onoff : ClientOnOff ρ} {key : ReceiverKey} (h : DoneAt onoff key)
    (d : ReceiverDetail ρ) {k : ReceiverKey} (hk : key ≠ k) :
    DoneAt (onoff.assignEntry d k) key := by
  intro d' hd'
  rw [entry_assignEntry, if_neg hk] at hd'
  exact h d' hd'

theorem checkEntry_eq_true {onoff : ClientOnOff ρ} {key : ReceiverKey} {b : Bool}
    (h : checkEntry onoff key b = true) : b = true ∧ DoneAt onoff key := by
  unfold checkEntry at h
  cases hentry : onoff.entry key with
  | none =>
    rw [hentry] at h
    exact ⟨h, doneAt_of_entry_none hentry⟩
  | some d =>
    rw [hentry] at h
    dsimp only at h
    by_cases hd : d.IsDone
    · rw [if_pos hd] at h
      exact ⟨h, doneAt_of_isDone hentry hd⟩
    · rw [if_neg hd] at h
      cases h

/-- A name that is not in the map has no entry. -/
theorem doneAt_of_not_mem_names {onoff : ClientOnOff ρ} {name : String}
    (h : name ∉ names onoff) : DoneAt onoff (.nonDefined name) := by
  cases hentry : onoff.entry (.nonDefined name) with
  | none => exact doneAt_of_entry_none hentry
  | some d => exact absurd (Lib.mem_keys_of_lookup hentry) h

/-! ## The invariant -/

/-- The key has been notified. -/
def State.Notified (s : State ρ) (key : ReceiverKey) : Prop := key ∈ s.notified.map Prod.fst

/-- The entry under the key is the receiver of this detail, whatever its status. -/
def Refers (onoff : ClientOnOff ρ) (key : ReceiverKey) (recvrDetail : ReceiverDetail ρ) : Prop :=
  ∃ d, onoff.entry key = some d ∧ d.pRcvrRef = recvrDetail.pRcvrRef

/-- The group at hand in the order: `before` are the earlier groups and `seen` the
codes of its own that have been visited. -/
def AtGroup (order : List (List NotifReceiverCode)) (onoff : ClientOnOff ρ)
    (codes : List NotifReceiverCode) (groups : List (List NotifReceiverCode))
    (bCanNotifyNext : Bool) : Prop :=
  ∃ before seen, order = before ++ (seen ++ codes) :: groups ∧ AllDone onoff before.flatten ∧
    (bCanNotifyNext = true → AllDone onoff seen)

/-- What holds where the loop stands. -/
def PcInv (order : List (List NotifReceiverCode)) (s : State ρ) : RunPc ρ → Prop
  | .notifyNonDefined _ => True
  | .writeNonDefined name recvrDetail _ =>
    ¬ s.Notified (.nonDefined name) ∧ Refers s.onoff (.nonDefined name) recvrDetail
  | .notifyPreDefined codes bCanNotifyNext groups =>
    AtGroup order s.onoff codes groups bCanNotifyNext
  | .writePreDefined eNotifCode recvrDetail codes groups =>
    (¬ s.Notified (.predefined eNotifCode) ∧
      Refers s.onoff (.predefined eNotifCode) recvrDetail) ∧
      ∃ before seen, order = before ++ (seen ++ eNotifCode :: codes) :: groups ∧
        AllDone s.onoff before.flatten ∧ eNotifCode ∉ before.flatten
  | .checkNonDefined names bIsShutdownComplete =>
    bIsShutdownComplete = true → ∀ name, name ∈ names ∨ DoneAt s.onoff (.nonDefined name)
  | .checkPreDefined codes bIsNDShutdownComplete bIsShutdownComplete =>
    (bIsNDShutdownComplete = true → ∀ name, DoneAt s.onoff (.nonDefined name)) ∧
      (bIsShutdownComplete = true → ∀ c ∈ order.flatten, c ∈ codes ∨ DoneAt s.onoff (.predefined c))
  | .finished => (∀ name, DoneAt s.onoff (.nonDefined name)) ∧ AllDone s.onoff order.flatten

structure ShutdownInv (order : List (List NotifReceiverCode)) (s : State ρ) : Prop where
  pc : PcInv order s s.pc
  once : (s.notified.map Prod.fst).Nodup
  unsubscribed : ∀ key, s.Notified key → ∀ d, s.onoff.entry key = some d →
    d.eStatus ≠ .subscribed

theorem shutdownInv_start (order : List (List NotifReceiverCode)) (onoff : ClientOnOff ρ) :
    ShutdownInv order (start onoff) := by
  constructor
  · trivial
  · exact List.nodup_nil
  · intro key hkey
    cases hkey

theorem Refers.setStatus {onoff : ClientOnOff ρ} {key : ReceiverKey} {d : ReceiverDetail ρ}
    (h : Refers onoff key d) (eStatus : SubscribeStatus) (k : ReceiverKey) :
    Refers (onoff.setStatus eStatus k).2 key d := by
  obtain ⟨d₀, hentry, href⟩ := h
  unfold Refers
  rw [entry_setStatus]
  by_cases hk : key = k
  · rw [if_pos hk, ← hk, hentry]
    exact ⟨d₀.withStatus eStatus, rfl, href⟩
  · rw [if_neg hk]
    exact ⟨d₀, hentry, href⟩

/-- What the invariant says of the program counter rests on the notified keys, on the
receivers and on which entries are done. -/
theorem PcInv.mono {order : List (List NotifReceiverCode)} {s s' : State ρ} {pc : RunPc ρ}
    (h : PcInv order s pc) (hnotified : s'.notified = s.notified)
    (hrefers : ∀ key d, Refers s.onoff key d → Refers s'.onoff key d)
    (hdone : ∀ key, DoneAt s.onoff key → DoneAt s'.onoff key) : PcInv order s' pc := by
  have hkeys : ∀ key, s'.Notified key ↔ s.Notified key := by
    intro key
    unfold State.Notified
    rw [hnotified]
  have hall : ∀ codes, AllDone s.onoff codes → AllDone s'.onoff codes :=
    fun codes h c hc => hdone _ (h c hc)
  -- each position speaks of these three only
  cases pc with
  | notifyNonDefined names => trivial
  | writeNonDefined name d names => exact ⟨fun hn => h.1 ((hkeys _).1 hn), hrefers _ _ h.2⟩
  | notifyPreDefined codes b groups =>
    obtain ⟨before, seen, horder, hbefore, hseen⟩ := h
    exact ⟨before, seen, horder, hall _ hbefore, fun hb => hall _ (hseen hb)⟩
  | writePreDefined c d codes groups =>
    obtain ⟨⟨hnot, href⟩, before, seen, horder, hbefore, hc⟩ := h
    exact ⟨⟨fun hn => hnot ((hkeys _).1 hn), hrefers _ _ href⟩, before, seen, horder,
      hall _ hbefore, hc⟩
  | checkNonDefined names b =>
    intro hb name
    rcases h hb name with hmem | hd
    · exact Or.inl hmem
    · exact Or.inr (hdone _ hd)
  | checkPreDefined codes bND b =>
    refine ⟨fun hND name => hdone _ (h.1 hND name), fun hb c hc => ?_⟩
    rcases h.2 hb c hc with hmem | hd
    · exact Or.inl hmem
    · exact Or.inr (hdone _ hd)
  | finished => exact ⟨fun name => hdone _ (h.1 name), hall _ h.2⟩

/-- A call of another thread. -/
theorem shutdownInv_setStatus {order : List (List NotifReceiverCode)} {s : State ρ}
    (h : ShutdownInv order s) {eStatus : SubscribeStatus}
    (he : ∀ d : ReceiverDetail ρ, (d.withStatus eStatus).IsDone) (key : ReceiverKey) :
    ShutdownInv order (s.setOnoff (s.onoff.setStatus eStatus key).2) := by
  constructor
  · have hdone : ∀ k, DoneAt s.onoff k → DoneAt (s.onoff.setStatus eStatus key).2 k :=
      fun k hk => hk.setStatus he key
    exact h.pc.mono rfl (fun _ _ hr => hr.setStatus eStatus key) hdone
  · exact h.once
  · intro k hk d hd
    change (s.onoff.setStatus eStatus key).2.entry k = some d at hd
    rw [entry_setStatus] at hd
    by_cases hkk : k = key
    · rw [if_pos hkk, Option.map_eq_some_iff] at hd
      obtain ⟨d₀, _, rfl⟩ := hd
      exact fun hsub => ReceiverDetail.not_isDone_of_subscribed hsub (he d₀)
    · rw [if_neg hkk] at hd
      exact h.unsubscribed k hk d hd

/-- The loop moves on without a write. -/
theorem shutdownInv_goto {order : List (List NotifReceiverCode)} {s : State ρ}
    (h : ShutdownInv order s) {pc : RunPc ρ} (hpc : PcInv order s pc) :
    ShutdownInv order (s.goto pc) := by
  constructor
  · exact hpc.mono rfl (fun _ _ hr => hr) fun _ hk => hk
  · exact h.once
  · exact h.unsubscribed

/-- The loop notifies a receiver that was not notified before. -/
theorem shutdownInv_notify {order : List (List NotifReceiverCode)} {s : State ρ}
    (h : ShutdownInv order s) {key : ReceiverKey} {d : ReceiverDetail ρ} {pc : RunPc ρ}
    (hkey : ¬ s.Notified key) (hpc : PcInv order (s.notify key d pc) pc) :
    ShutdownInv order (s.notify key d pc) := by
  have hkeys : (s.notify key d pc).notified.map Prod.fst = s.notified.map Prod.fst ++ [key] := by
    show (s.notified ++ [(key, d.pRcvrRef)]).map Prod.fst = _
    rw [List.map_append]
    rfl
  constructor
  · exact hpc
  · rw [hkeys]
    exact List.nodup_append.2 ⟨h.once, by simp, fun k hk k' hk' heq =>
      hkey (by rwa [← List.mem_singleton.1 hk', ← heq])⟩
  · intro k hk d' hd'
    change (s.onoff.assignEntry (d.withStatus .notified) key).entry k = some d' at hd'
    rw [entry_assignEntry] at hd'
    by_cases hkk : k = key
    · rw [if_pos hkk, Option.map_eq_some_iff] at hd'
      obtain ⟨_, _, rfl⟩ := hd'
      simp
    · rw [if_neg hkk] at hd'
      unfold State.Notified at hk
      rw [hkeys, List.mem_append, List.mem_singleton] at hk
      exact h.unsubscribed k (hk.resolve_right hkk) d' hd'

/-! ## The loop keeps the invariant -/

section Loop

variable {order : List (List NotifReceiverCode)} {s : State ρ}

/-- A check of the names may begin in any state. -/
theorem pcInv_checkNames : PcInv order s (.checkNonDefined (names s.onoff) true) := by
  intro _ name
  by_cases hname : name ∈ names s.onoff
  · exact Or.inl hname
  · exact Or.inr (doneAt_of_not_mem_names hname)

/-- The loop enters a group only behind groups that are done. -/
theorem pcInv_enterGroup {before groups : List (List NotifReceiverCode)}
    (horder : order = before ++ groups) (hbefore : AllDone s.onoff before.flatten) :
    PcInv order s (enterGroup s.onoff groups) := by
  cases groups with
  | nil => exact pcInv_checkNames
  | cons group groups =>
    refine ⟨before, [], horder, hbefore, fun _ c hc => ?_⟩
    cases hc

theorem pcInv_notifyNonDefined (h : ShutdownInv order s) (names : List String) :
    PcInv order s (notifyNonDefined order s.onoff names) := by
  cases names with
  | nil =>
    have horder : order = [] ++ order := rfl
    refine pcInv_enterGroup horder fun c hc => ?_
    cases hc
  | cons name names =>
    cases hentry : s.onoff.entry (.nonDefined name) with
    | none =>
      simp only [notifyNonDefined, hentry]
      trivial
    | some d =>
      simp only [notifyNonDefined, hentry]
      by_cases hd : d.eStatus = .subscribed
      · rw [if_pos hd]
        exact ⟨fun hn => h.unsubscribed _ hn d hentry hd, d, hentry, rfl⟩
      · rw [if_neg hd]
        trivial

theorem pcInv_notifyPreDefined (h : ShutdownInv order s) {codes : List NotifReceiverCode}
    {b : Bool} {groups : List (List NotifReceiverCode)} (hat : AtGroup order s.onoff codes groups b) :
    PcInv order s (notifyPreDefined s.onoff b groups codes) := by
  obtain ⟨before, seen, horder, hbefore, hseen⟩ := hat
  cases codes with
  | nil =>
    unfold notifyPreDefined
    cases b with
    | false => exact pcInv_checkNames
    | true =>
      -- the whole group is done, so it joins the earlier ones
      have horder' : order = (before ++ [seen]) ++ groups := by
        rw [horder]
        simp
      refine pcInv_enterGroup horder' fun c hc => ?_
      rw [List.flatten_append, List.flatten_singleton, List.mem_append] at hc
      rcases hc with hc | hc
      · exact hbefore c hc
      · exact hseen rfl c hc
  | cons c codes =>
    have horder' : order = before ++ (seen ++ [c] ++ codes) :: groups := by
      rw [horder]
      simp
    -- a visited code joins `seen`, done if the flag is to stay
    have hvisited : ∀ b' : Bool, (b' = true → b = true ∧ DoneAt s.onoff (.predefined c)) →
        PcInv order s (.notifyPreDefined codes b' groups) := by
      intro b' hb'
      refine ⟨before, seen ++ [c], horder', hbefore, fun htrue => ?_⟩
      obtain ⟨hb, hc⟩ := hb' htrue
      intro c' hc'
      rw [List.mem_append, List.mem_singleton] at hc'
      rcases hc' with hc' | rfl
      · exact hseen hb c' hc'
      · exact hc
    cases hentry : s.onoff.entry (.predefined c) with
    | none =>
      simp only [notifyPreDefined, hentry]
      exact hvisited b fun hb => ⟨hb, doneAt_of_entry_none hentry⟩
    | some d =>
      simp only [notifyPreDefined, hentry]
      by_cases hsub : d.eStatus = .subscribed
      · rw [if_pos hsub]
        refine ⟨⟨fun hn => h.unsubscribed _ hn d hentry hsub, d, hentry, rfl⟩, before, seen,
          horder, hbefore, ?_⟩
        exact fun hc => ReceiverDetail.not_isDone_of_subscribed hsub (hbefore c hc d hentry)
      · rw [if_neg hsub]
        by_cases hnot : d.eStatus = .notified
        · rw [if_pos hnot]
          exact hvisited false fun hb => by cases hb
        · rw [if_neg hnot]
          have hd : d.IsDone := by
            unfold ReceiverDetail.IsDone
            cases he : d.eStatus with
            | subscribed => exact absurd he hsub
            | notified => exact absurd he hnot
            | shutdownCompleted => exact Or.inl rfl
            | unsubscribed => exact Or.inr rfl
          exact hvisited b fun hb => ⟨hb, doneAt_of_isDone hentry hd⟩

theorem pcInv_checkNonDefined {names : List String} {b : Bool}
    (h : PcInv order s (.checkNonDefined names b)) :
    PcInv order s (checkNonDefined order s.onoff b names) := by
  cases names with
  | nil =>
    refine ⟨fun hb name => ?_, fun _ c hc => Or.inl hc⟩
    rcases h hb name with hmem | hd
    · cases hmem
    · exact hd
  | cons name names =>
    intro hb name'
    obtain ⟨hb', hname⟩ := checkEntry_eq_true hb
    rcases h hb' name' with hmem | hd
    · rcases List.mem_cons.1 hmem with rfl | hmem
      · exact Or.inr hname
      · exact Or.inl hmem
    · exact Or.inr hd

theorem pcInv_checkPreDefined {codes : List NotifReceiverCode} {bND b : Bool}
    (h : PcInv order s (.checkPreDefined codes bND b)) :
    PcInv order s (checkPreDefined s.onoff bND b codes) := by
  cases codes with
  | nil =>
    unfold checkPreDefined
    by_cases hb : (bND && b) = true
    · rw [if_pos hb]
      rw [Bool.and_eq_true] at hb
      refine ⟨h.1 hb.1, fun c hc => ?_⟩
      rcases h.2 hb.2 c hc with hmem | hd
      · cases hmem
      · exact hd
    · rw [if_neg hb]
      trivial
  | cons c codes =>
    refine ⟨h.1, fun hb c' hc' => ?_⟩
    obtain ⟨hb', hc⟩ := checkEntry_eq_true hb
    rcases h.2 hb' c' hc' with hmem | hd
    · rcases List.mem_cons.1 hmem with rfl | hmem
      · exact Or.inr hc
      · exact Or.inl hmem
    · exact Or.inr hd

/-- What a step of the loop does: it moves on, or it notifies a receiver behind
groups that are done. -/
inductive RunMove (order : List (List NotifReceiverCode)) (s : State ρ) : State ρ → Prop where
  | goto (pc : RunPc ρ) (hpc : PcInv order s pc) : RunMove order s (s.goto pc)
  | notifyNonDefined (name : String) (d : ReceiverDetail ρ) (names : List String)
      (hat : s.pc = .writeNonDefined name d names) :
      RunMove order s (s.notify (.nonDefined name) d (.notifyNonDefined names))
  | notifyPreDefined (c : NotifReceiverCode) (d : ReceiverDetail ρ)
      (codes : List NotifReceiverCode) (groups : List (List NotifReceiverCode))
      (hat : s.pc = .writePreDefined c d codes groups) :
      RunMove order s (s.notify (.predefined c) d (.notifyPreDefined codes false groups))

theorem runStep_cases (h : ShutdownInv order s) {s' : State ρ} (hstep : runStep order s = some s') :
    RunMove order s s' := by
  have hpc := h.pc
  unfold runStep at hstep
  cases hat : s.pc with
  | notifyNonDefined names =>
    rw [hat] at hstep
    cases hstep
    exact .goto _ (pcInv_notifyNonDefined h names)
  | writeNonDefined name d names =>
    rw [hat] at hstep
    cases hstep
    exact .notifyNonDefined name d names hat
  | notifyPreDefined codes b groups =>
    rw [hat] at hstep hpc
    cases hstep
    exact .goto _ (pcInv_notifyPreDefined h hpc)
  | writePreDefined c d codes groups =>
    rw [hat] at hstep
    cases hstep
    exact .notifyPreDefined c d codes groups hat
  | checkNonDefined names b =>
    rw [hat] at hstep hpc
    cases hstep
    exact .goto _ (pcInv_checkNonDefined hpc)
  | checkPreDefined codes bND b =>
    rw [hat] at hstep hpc
    cases hstep
    exact .goto _ (pcInv_checkPreDefined hpc)
  | finished =>
    rw [hat] at hstep
    cases hstep

theorem shutdownInv_runStep (h : ShutdownInv order s) {s' : State ρ}
    (hstep : runStep order s = some s') : ShutdownInv order s' := by
  have hpc := h.pc
  rcases runStep_cases h hstep with ⟨pc, hpc'⟩ | ⟨name, d, names, hat⟩ | ⟨c, d, codes, groups, hat⟩
  · exact shutdownInv_goto h hpc'
  · rw [hat] at hpc
    exact shutdownInv_notify h hpc.1 trivial
  · rw [hat] at hpc
    obtain ⟨⟨hnot, _⟩, before, seen, horder, hbefore, hc⟩ := hpc
    refine shutdownInv_notify h hnot ⟨before, seen ++ [c], ?_, ?_, fun hb => by cases hb⟩
    · rw [horder]
      simp
    · -- the receiver written back is in none of the earlier groups
      intro c' hc'
      have hne : ReceiverKey.predefined c' ≠ .predefined c := by
        intro heq
        injection heq with heq
        exact hc (heq ▸ hc')
      exact (hbefore c' hc').assignEntry _ hne

end Loop

theorem shutdownInv_next {order : List (List NotifReceiverCode)} {s s' : State ρ} {l : Label}
    (h : ShutdownInv order s) (hnext : next order s l = some s') : ShutdownInv order s' := by
  cases l with
  | run => exact shutdownInv_runStep h hnext
  | unregister c n =>
    cases hnext
    exact shutdownInv_setStatus h (fun _ => Or.inr rfl) _
  | ready c n =>
    cases hnext
    exact shutdownInv_setStatus h (fun _ => Or.inl rfl) _

theorem shutdownInv_run {order : List (List NotifReceiverCode)} {onoff : ClientOnOff ρ}
    {labels : List Label} {s : State ρ}
    (hrun : Lib.exec (next order) (start onoff) labels = some s) : ShutdownInv order s :=
  Lib.exec_inv_all (fun _ _ _ h hnext => shutdownInv_next h hnext)
    (shutdownInv_start order onoff) hrun

/-! ## The order of the notifications -/

/-- The groups before the first with `c`. -/
theorem earlierGroups_append {before : List (List NotifReceiverCode)} {c : NotifReceiverCode}
    (hbefore : c ∉ before.flatten) {group : List NotifReceiverCode} (hc : c ∈ group)
    (groups : List (List NotifReceiverCode)) :
    earlierGroups (before ++ group :: groups) c = before := by
  unfold earlierGroups
  rw [List.takeWhile_append_of_pos, List.takeWhile_cons_of_neg (by simpa using hc),
    List.append_nil]
  intro g hg
  have hnot : c ∉ g := fun hcg => hbefore (List.mem_flatten.2 ⟨g, hg, hcg⟩)
  simpa using hnot

/-- A predefined receiver is notified behind done groups. -/
theorem earlier_done_of_inv {order : List (List NotifReceiverCode)} {s s' : State ρ}
    (h : ShutdownInv order s) (hstep : runStep order s = some s') {c : NotifReceiverCode} {p : ρ}
    (hnotified : s'.notified = s.notified ++ [(.predefined c, p)]) :
    AllDone s.onoff (earlierGroups order c).flatten := by
  have hpc := h.pc
  rcases runStep_cases h hstep with ⟨pc, _⟩ | ⟨name, d, names, hat⟩ | ⟨c', d, codes, groups, hat⟩
  · exact absurd (List.self_eq_append_right.1 hnotified) (by simp)
  · have hlast := List.append_cancel_left hnotified
    simp at hlast
  · have hlast := List.append_cancel_left hnotified
    simp only [List.cons.injEq, Prod.mk.injEq, ReceiverKey.predefined.injEq, and_true] at hlast
    rw [hat] at hpc
    obtain ⟨_, before, seen, horder, hbefore, hc⟩ := hpc
    have hearlier : earlierGroups order c' = before := by
      rw [horder]
      exact earlierGroups_append hc (by simp) groups
    rw [← hlast.1, hearlier]
    exact hbefore

/-! ## Runs to the end -/

/-- The loop alone gets from one state to the other. -/
def Reaches (order : List (List NotifReceiverCode)) (s t : State ρ) : Prop :=
  ∃ n, Lib.exec (next order) s (List.replicate n .run) = some t

theorem Reaches.refl (order : List (List NotifReceiverCode)) (s : State ρ) : Reaches order s s :=
  ⟨0, rfl⟩

theorem Reaches.head {order : List (List NotifReceiverCode)} {s s' t : State ρ}
    (hstep : runStep order s = some s') (h : Reaches order s' t) : Reaches order s t := by
  obtain ⟨n, hn⟩ := h
  refine ⟨n + 1, ?_⟩
  rw [List.replicate_succ, Lib.exec_cons]
  show (runStep order s).bind _ = some t
  rw [hstep, Option.bind_some, hn]

theorem checkEntry_of_doneAt {onoff : ClientOnOff ρ} {key : ReceiverKey} (h : DoneAt onoff key)
    (b : Bool) : checkEntry onoff key b = b := by
  unfold checkEntry
  cases hentry : onoff.entry key with
  | none => rfl
  | some d => exact if_pos (h d hentry)

section Settled

variable {order : List (List NotifReceiverCode)} {s : State ρ}

/-- The check of the predefined receivers ends the loop. -/
theorem reaches_checkPreDefined {codes : List NotifReceiverCode} (hcodes : AllDone s.onoff codes) :
    Reaches order (s.goto (.checkPreDefined codes true true)) (s.goto .finished) := by
  induction codes with
  | nil => exact .head rfl (.refl order _)
  | cons c codes ih =>
    have hflag : checkEntry s.onoff (.predefined c) true = true :=
      checkEntry_of_doneAt (hcodes c List.mem_cons_self) true
    have hstep : runStep order (s.goto (.checkPreDefined (c :: codes) true true)) =
        some (s.goto (.checkPreDefined codes true true)) := by
      show some (s.goto (.checkPreDefined codes true (checkEntry s.onoff _ true))) = _
      rw [hflag]
    exact .head hstep (ih fun c' hc' => hcodes c' (List.mem_cons_of_mem c hc'))

variable (hnames : ∀ name, DoneAt s.onoff (.nonDefined name))
  (hcodes : AllDone s.onoff order.flatten)

include hnames hcodes

theorem reaches_checkNonDefined (names : List String) :
    Reaches order (s.goto (.checkNonDefined names true)) (s.goto .finished) := by
  induction names with
  | nil => exact .head rfl (reaches_checkPreDefined hcodes)
  | cons name names ih =>
    have hstep : runStep order (s.goto (.checkNonDefined (name :: names) true)) =
        some (s.goto (.checkNonDefined names true)) := by
      show some (s.goto (.checkNonDefined names (checkEntry s.onoff _ true))) = _
      rw [checkEntry_of_doneAt (hnames name)]
    exact .head hstep ih

/-- The groups from one on are passed when all their receivers are done. -/
theorem reaches_enterGroup {groups : List (List NotifReceiverCode)}
    (hgroups : AllDone s.onoff groups.flatten) :
    Reaches order (s.goto (enterGroup s.onoff groups)) (s.goto .finished) := by
  induction groups with
  | nil => exact reaches_checkNonDefined hnames hcodes _
  | cons group groups ih =>
    have hrest : AllDone s.onoff groups.flatten := by
      intro c hc
      exact hgroups c (by rw [List.flatten_cons]; exact List.mem_append_right group hc)
    have hgroup : AllDone s.onoff group := by
      intro c hc
      exact hgroups c (by rw [List.flatten_cons]; exact List.mem_append_left _ hc)
    show Reaches order (s.goto (.notifyPreDefined group true groups)) _
    clear hgroups
    -- within a group each receiver that is done is passed
    induction group with
    | nil => exact .head rfl (ih hrest)
    | cons c codes ihcodes =>
      have hpc : notifyPreDefined s.onoff true groups (c :: codes) =
          .notifyPreDefined codes true groups := by
        cases hentry : s.onoff.entry (.predefined c) with
        | none => simp only [notifyPreDefined, hentry]
        | some d =>
          have hd : d.IsDone := hgroup c List.mem_cons_self d hentry
          have hsub : d.eStatus ≠ .subscribed :=
            fun hs => ReceiverDetail.not_isDone_of_subscribed hs hd
          have hnot : d.eStatus ≠ .notified :=
            fun hs => ReceiverDetail.not_isDone_of_notified hs hd
          simp only [notifyPreDefined, hentry]
          rw [if_neg hsub, if_neg hnot]
      have hstep : runStep order (s.goto (.notifyPreDefined (c :: codes) true groups)) =
          some (s.goto (.notifyPreDefined codes true groups)) := congrArg (some ∘ s.goto) hpc
      exact .head hstep (ihcodes fun c' hc' => hgroup c' (List.mem_cons_of_mem c hc'))

/-- Where all are done, the loop ends without notifying anybody. -/
theorem reaches_finished (names : List String) :
    Reaches order (s.goto (.notifyNonDefined names)) (s.goto .finished) := by
  induction names with
  | nil => exact .head rfl (reaches_enterGroup hnames hcodes hcodes)
  | cons name names ih =>
    have hpc : notifyNonDefined order s.onoff (name :: names) = .notifyNonDefined names := by
      cases hentry : s.onoff.entry (.nonDefined name) with
      | none => simp only [notifyNonDefined, hentry]
      | some d =>
        have hsub : d.eStatus ≠ .subscribed :=
          fun hs => ReceiverDetail.not_isDone_of_subscribed hs (hnames name d hentry)
        simp only [notifyNonDefined, hentry]
        rw [if_neg hsub]
    have hstep : runStep order (s.goto (.notifyNonDefined (name :: names))) =
        some (s.goto (.notifyNonDefined names)) := congrArg (some ∘ s.goto) hpc
    exact .head hstep ih

end Settled

/-- The call is about the receiver under the key. -/
def Label.Concerns (key : ReceiverKey) : Label → Prop
  | .run => False
  | .unregister eRcvrCode strRcvrName => receiverKey eRcvrCode strRcvrName = key
  | .ready eRcvrCode strRcvrName => receiverKey eRcvrCode strRcvrName = key

/-- The receivers under some keys complete, one after the other. -/
theorem exists_ready_run (order : List (List NotifReceiverCode)) (keys : List ReceiverKey)
    (hkeys : ∀ k ∈ keys, k ≠ .predefined .other) (s : State ρ) :
    ∃ labels onoff, Lib.exec (next order) s labels = some (s.setOnoff onoff) ∧
      (∀ k ∈ keys, DoneAt onoff k) ∧ (∀ k, DoneAt s.onoff k → DoneAt onoff k) ∧
      ∀ k ∉ keys, onoff.entry k = s.onoff.entry k ∧ ∀ l ∈ labels, ¬ l.Concerns k := by
  -- a key that is done stays so while the ones behind it complete
  induction keys generalizing s with
  | nil =>
    refine ⟨[], s.onoff, rfl, fun k hk => ?_, fun k hk => hk, fun k _ => ⟨rfl, fun l hl => ?_⟩⟩
    · cases hk
    · cases hl
  | cons key keys ih =>
    obtain ⟨code, name, hkey⟩ := exists_receiverKey (hkeys key List.mem_cons_self)
    have hready : ∀ d : ReceiverDetail ρ, (d.withStatus .shutdownCompleted).IsDone :=
      fun _ => Or.inl rfl
    obtain ⟨labels, onoff, hrun, hdone, hmono, hother⟩ :=
      ih (fun k hk => hkeys k (List.mem_cons_of_mem key hk))
        (s.setOnoff (s.onoff.setStatus .shutdownCompleted key).2)
    refine ⟨.ready code name :: labels, onoff, ?_, ?_, ?_, ?_⟩
    · rw [Lib.exec_cons]
      show Lib.exec _ (s.setOnoff (s.onoff.setStatus _ (receiverKey code name)).2) labels = _
      rw [hkey]
      exact hrun
    · intro k hk
      rcases List.mem_cons.1 hk with rfl | hk
      · refine hmono k fun d hd => ?_
        change (s.onoff.setStatus .shutdownCompleted k).2.entry k = some d at hd
        rw [entry_setStatus, if_pos rfl, Option.map_eq_some_iff] at hd
        obtain ⟨d₀, _, rfl⟩ := hd
        exact hready d₀
      · exact hdone k hk
    · exact fun k hk => hmono k (hk.setStatus hready key)
    · intro k hk
      have hne : k ≠ key := fun h => hk (h ▸ List.mem_cons_self)
      obtain ⟨hentry, hquiet⟩ := hother k fun h => hk (List.mem_cons_of_mem key h)
      constructor
      · rw [hentry]
        show (s.onoff.setStatus .shutdownCompleted key).2.entry k = _
        rw [entry_setStatus, if_neg hne]
      · intro l hl
        rcases List.mem_cons.1 hl with rfl | hl
        · exact fun h => hne (h.symm.trans hkey)
        · exact hquiet l hl

/-- A shutdown that passes over a code of no group: all others complete before they
are notified. -/
theorem exists_run_past {order : List (List NotifReceiverCode)} {onoff : ClientOnOff ρ}
    (hother : onoff.entry (.predefined .other) = none) {c : NotifReceiverCode}
    (hc : c ∉ order.flatten) :
    ∃ labels t, Lib.exec (next order) (start onoff) labels = some t ∧ t.pc = .finished ∧
      t.notified = [] ∧ t.onoff.entry (.predefined c) = onoff.entry (.predefined c) ∧
      ∀ l ∈ labels, ¬ l.Concerns (.predefined c) := by
  let keys := (names onoff).map ReceiverKey.nonDefined ++
    (order.flatten.filter (· ≠ .other)).map ReceiverKey.predefined
  have hkeys : ∀ k ∈ keys, k ≠ .predefined .other := by
    intro k hk
    rcases List.mem_append.1 hk with hk | hk
    · obtain ⟨n, _, rfl⟩ := List.mem_map.1 hk
      simp
    · obtain ⟨c', hc', rfl⟩ := List.mem_map.1 hk
      simpa using (List.mem_filter.1 hc').2
  have hnot : ReceiverKey.predefined c ∉ keys := by
    intro hk
    rcases List.mem_append.1 hk with hk | hk
    · obtain ⟨n, _, hn⟩ := List.mem_map.1 hk
      cases hn
    · obtain ⟨c', hc', heq⟩ := List.mem_map.1 hk
      injection heq with heq
      exact hc (heq ▸ (List.mem_filter.1 hc').1)
  obtain ⟨labels, onoff', hrun, hdone, hmono, hrest⟩ :=
    exists_ready_run order keys hkeys (start onoff)
  -- now all names and all codes of the groups are done
  have hnames : ∀ name, DoneAt onoff' (.nonDefined name) := by
    intro name
    by_cases hname : name ∈ names onoff
    · exact hdone _ (List.mem_append_left _ (List.mem_map_of_mem hname))
    · exact hmono _ (doneAt_of_not_mem_names hname)
  have hcodes : AllDone onoff' order.flatten := by
    intro c' hc'
    by_cases hc'' : c' = .other
    · rw [hc'']
      exact hmono _ (doneAt_of_entry_none hother)
    · have hmem : c' ∈ order.flatten.filter (· ≠ .other) :=
        List.mem_filter.2 ⟨hc', by simpa using hc''⟩
      exact hdone _ (List.mem_append_right _ (List.mem_map_of_mem hmem))
  obtain ⟨n, hfinish⟩ := reaches_finished (s := (start onoff).setOnoff onoff') hnames hcodes
    (names onoff)
  refine ⟨labels ++ List.replicate n .run, ((start onoff).setOnoff onoff').goto .finished,
    ?_, rfl, rfl, (hrest _ hnot).1, ?_⟩
  · rw [Lib.exec_append, hrun, Option.bind_some]
    exact hfinish
  · intro l hl
    rcases List.mem_append.1 hl with hl | hl
    · exact (hrest _ hnot).2 l hl
    · rw [(List.mem_replicate.1 hl).2]
      exact fun h => h

/-- A code of no group that is done stays so. -/
theorem doneAt_next {order : List (List NotifReceiverCode)} {s s' : State ρ} {l : Label}
    (h : ShutdownInv order s) {c : NotifReceiverCode} (hc : c ∉ order.flatten)
    (hdone : DoneAt s.onoff (.predefined c)) (hnext : next order s l = some s') :
    DoneAt s'.onoff (.predefined c) := by
  cases l with
  | run =>
    have hpc := h.pc
    rcases runStep_cases h hnext with ⟨pc, _⟩ | ⟨name, d, names, hat⟩ | ⟨c', d, codes, groups, hat⟩
    · exact hdone
    · have hne : ReceiverKey.predefined c ≠ .nonDefined name := by simp
      exact hdone.assignEntry _ hne
    · rw [hat] at hpc
      obtain ⟨_, before, seen, horder, _⟩ := hpc
      have hc' : c' ∈ order.flatten := by
        rw [horder]
        simp
      have hne : ReceiverKey.predefined c ≠ .predefined c' := by
        intro heq
        injection heq with heq
        exact hc (heq ▸ hc')
      exact hdone.assignEntry _ hne
  | unregister c' n =>
    cases hnext
    exact hdone.setStatus (fun _ => Or.inr rfl) _
  | ready c' n =>
    cases hnext
    exact hdone.setStatus (fun _ => Or.inl rfl) _

theorem doneAt_run {order : List (List NotifReceiverCode)} {onoff : ClientOnOff ρ}
    {c : NotifReceiverCode} (hc : c ∉ order.flatten) (hdone : DoneAt onoff (.predefined c))
    {labels : List Label} {s : State ρ}
    (hrun : Lib.exec (next order) (start onoff) labels = some s) :
    DoneAt s.onoff (.predefined c) := by
  have hstep : ∀ (t : State ρ) l t', ShutdownInv order t ∧ DoneAt t.onoff (.predefined c) →
      next order t l = some t' → ShutdownInv order t' ∧ DoneAt t'.onoff (.predefined c) :=
    fun t l t' h hnext => ⟨shutdownInv_next h.1 hnext, doneAt_next h.1 hc h.2 hnext⟩
  exact (Lib.exec_inv_all hstep ⟨shutdownInv_start order onoff, hdone⟩ hrun).2

/-- A shutdown after any history is in order iff every predefined receiver that is
registered and not done belongs to one of the groups. -/
theorem orderly_iff (order : List (List NotifReceiverCode)) (calls : List (Call ρ)) :
    Orderly order (after calls) ↔
      ∀ c d, (after calls).entry (.predefined c) = some d → ¬ d.IsDone → c ∈ order.flatten := by
  constructor
  · intro h c d hentry hd
    by_contra hc
    obtain ⟨labels, t, hrun, hfinished, _, hkept, _⟩ :=
      exists_run_past (entry_other_after calls) hc
    rw [← hkept] at hentry
    exact hd ((h labels t hrun).finished_done hfinished _ d hentry)
  · intro hgroups labels s hrun
    have hinv := shutdownInv_run hrun
    constructor
    · exact fun s' c p hstep hnotified => earlier_done_of_inv hinv hstep hnotified
    · exact hinv.once
    · intro hfinished key
      have hpc := hinv.pc
      rw [hfinished] at hpc
      cases key with
      | nonDefined name => exact hpc.1 name
      | predefined c =>
        by_cases hc : c ∈ order.flatten
        · exact hpc.2 c hc
        · -- the loop never looks at this code, so it must have been done before
          refine doneAt_run hc (fun d hentry => ?_) hrun
          by_contra hd
          exact hc (hgroups c d hentry hd)

/-- The groups of the constructor leave out one predefined code. -/
theorem mem_notifOrder_iff (c : NotifReceiverCode) :
    c ∈ notifOrder.flatten ↔ c ≠ .sensorDataProcessor ∧ c ≠ .other := by
  cases c <;> decide

/-- `eR_SENSOR_DATA_PROCESSOR` belongs to no group: a receiver under it is neither
notified nor waited for. -/
theorem not_orderly_sensorDataProcessor :
    ¬ Orderly notifOrder (after [.register (some 1) .sensorDataProcessor ""]) := by
  intro h
  have hrun : ((Lib.exec (next notifOrder)
      (start (after [.register (some 1) .sensorDataProcessor ""])) (List.replicate 29 .run)).map
        fun s => (s.pc, s.onoff.entry (.predefined .sensorDataProcessor))) =
      some (.finished, some ⟨1, .subscribed⟩) := by decide
  obtain ⟨s, hs, heq⟩ := Option.map_eq_some_iff.1 hrun
  rw [Prod.mk.injEq] at heq
  have hdone := (h _ s hs).finished_done heq.1 _ _ heq.2
  exact ReceiverDetail.not_isDone_of_subscribed rfl hdone

end Shutdown

end DeviceClient
