import DeviceClient.Core.Shutdown

/-!
# Registration for the shutdown

What `RegisterForShutdownNotification` is to bring about: its entry is the
receiver just registered, subscribed, and a shutdown that starts then notifies
this receiver, once and no other under its key, before it ends.

The receiver's own completion or unregistration before its notification takes
it out of the shutdown, so the runs are those in which it waits to be notified.

* `subscribed_run`: where a subscribed entry stands along a shutdown.
* `registers_iff`: a registration takes effect exactly where the key has no
  other entry and its code belongs to a group.
-/

namespace DeviceClient

namespace Shutdown

open ClientOnOff

variable {ρ : Type}

/-- The code of the key belongs to a group; named receivers are all notified. -/
def Grouped (order : List (List NotifReceiverCode)) : ReceiverKey → Prop
  | .predefined eRcvrCode => eRcvrCode ∈ order.flatten
  | .nonDefined _ => True

/-- The receivers notified under a key. -/
def State.notifiedUnder [DecidableEq ρ] (s : State ρ) (key : ReceiverKey) : List ρ :=
  (s.notified.filter fun n => n.1 = key).map Prod.snd

/-- The receiver under the key waits for its notification. -/
def Waits (key : ReceiverKey) (s : State ρ) (l : Label) : Prop :=
  ¬ s.Notified key → ¬ l.Concerns key

/-- The registration of `pRcvr` under the key takes effect in this state. -/
structure TakesEffect [DecidableEq ρ] (order : List (List NotifReceiverCode))
    (onoff : ClientOnOff ρ) (key : ReceiverKey) (pRcvr : ρ) : Prop where
  stored : onoff.entry key = some ⟨pRcvr, .subscribed⟩
  notified : ∀ labels s, Lib.exec (next order) (start onoff) labels = some s →
    Lib.Along (next order) (Waits key) (start onoff) labels → s.pc = .finished →
      s.notifiedUnder key = [pRcvr]

/-! ## A subscribed receiver along a shutdown -/

/-- The entry is that of the receiver, subscribed until it is notified, and nobody else
has been notified under its key. -/
structure SubscribedInv (key : ReceiverKey) (pRcvr : ρ) (s : State ρ) : Prop where
  entry : ∃ d, s.onoff.entry key = some d ∧ d.pRcvrRef = pRcvr ∧
    (d.eStatus = .subscribed ∨ s.Notified key)
  only : ∀ q, (key, q) ∈ s.notified → q = pRcvr

section Subscribed

variable {order : List (List NotifReceiverCode)} {key : ReceiverKey} {pRcvr : ρ} {s s' : State ρ}

theorem notified_notify (s : State ρ) (k : ReceiverKey) (d : ReceiverDetail ρ) (pc : RunPc ρ)
    (key : ReceiverKey) : (s.notify k d pc).Notified key ↔ s.Notified key ∨ key = k := by
  unfold State.Notified
  show key ∈ (s.notified ++ [(k, d.pRcvrRef)]).map Prod.fst ↔ _
  simp

/-- A notification, of this receiver or of another. -/
theorem subscribedInv_notify (h : SubscribedInv key pRcvr s) {k : ReceiverKey}
    {d : ReceiverDetail ρ} (hrefers : Refers s.onoff k d) (pc : RunPc ρ) :
    SubscribedInv key pRcvr (s.notify k d pc) := by
  obtain ⟨d₀, hentry, href, hstatus⟩ := h.entry
  by_cases hk : key = k
  · subst hk
    obtain ⟨d', hentry', href'⟩ := hrefers
    rw [hentry] at hentry'
    cases hentry'
    have hd : d.pRcvrRef = pRcvr := href'.symm.trans href
    constructor
    · refine ⟨d.withStatus .notified, ?_, hd, Or.inr ?_⟩
      · show (s.onoff.assignEntry _ key).entry key = _
        rw [entry_assignEntry, if_pos rfl, hentry]
        rfl
      · exact (notified_notify s key d pc key).2 (Or.inr rfl)
    · intro q hq
      rcases List.mem_append.1 hq with hq | hq
      · exact h.only q hq
      · rw [List.mem_singleton] at hq
        injection hq with _ hq
        exact hq.trans hd
  · -- another key: its entry is not this one
    constructor
    · refine ⟨d₀, ?_, href, hstatus.imp_right fun hn => ?_⟩
      · show (s.onoff.assignEntry _ k).entry key = _
        rw [entry_assignEntry, if_neg hk, hentry]
      · exact (notified_notify s k d pc key).2 (Or.inl hn)
    · intro q hq
      rcases List.mem_append.1 hq with hq | hq
      · exact h.only q hq
      · rw [List.mem_singleton] at hq
        injection hq with hq _
        exact absurd hq hk

/-- A call of another thread, once the receiver has been notified or about another one. -/
theorem subscribedInv_setStatus (h : SubscribedInv key pRcvr s) (eStatus : SubscribeStatus)
    {k : ReceiverKey} (hwaits : ¬ s.Notified key → k ≠ key) :
    SubscribedInv key pRcvr (s.setOnoff (s.onoff.setStatus eStatus k).2) := by
  obtain ⟨d, hentry, href, hstatus⟩ := h.entry
  refine ⟨?_, h.only⟩
  by_cases hk : key = k
  · have hnotified : s.Notified key := by
      by_contra hn
      exact hwaits hn hk.symm
    refine ⟨d.withStatus eStatus, ?_, href, Or.inr hnotified⟩
    show (s.onoff.setStatus eStatus k).2.entry key = _
    rw [entry_setStatus, if_pos hk, ← hk, hentry]
    rfl
  · refine ⟨d, ?_, href, hstatus⟩
    show (s.onoff.setStatus eStatus k).2.entry key = _
    rw [entry_setStatus, if_neg hk, hentry]

theorem subscribedInv_next (hinv : ShutdownInv order s) (h : SubscribedInv key pRcvr s) {l : Label}
    (hwaits : Waits key s l) (hnext : next order s l = some s') : SubscribedInv key pRcvr s' := by
  cases l with
  | run =>
    have hpc := hinv.pc
    rcases runStep_cases hinv hnext with
      ⟨pc, _⟩ | ⟨name, d, names, hat⟩ | ⟨c, d, codes, groups, hat⟩
    · exact ⟨h.entry, h.only⟩
    · rw [hat] at hpc
      exact subscribedInv_notify h hpc.2 _
    · rw [hat] at hpc
      exact subscribedInv_notify h hpc.1.2 _
  | unregister c n =>
    cases hnext
    exact subscribedInv_setStatus h .unsubscribed hwaits
  | ready c n =>
    cases hnext
    exact subscribedInv_setStatus h .shutdownCompleted hwaits

theorem subscribed_run {onoff : ClientOnOff ρ} (hstored : onoff.entry key = some ⟨pRcvr, .subscribed⟩)
    {labels : List Label} (hrun : Lib.exec (next order) (start onoff) labels = some s)
    (hwaits : Lib.Along (next order) (Waits key) (start onoff) labels) :
    ShutdownInv order s ∧ SubscribedInv key pRcvr s := by
  have hstart : SubscribedInv key pRcvr (start onoff) := by
    refine ⟨⟨_, hstored, rfl, Or.inl rfl⟩, fun q hq => ?_⟩
    cases hq
  have hstep : ∀ (t : State ρ) l t', ShutdownInv order t ∧ SubscribedInv key pRcvr t →
      Waits key t l → next order t l = some t' →
        ShutdownInv order t' ∧ SubscribedInv key pRcvr t' :=
    fun t l t' h hw hnext =>
      ⟨shutdownInv_next h.1 hnext, subscribedInv_next h.1 h.2 hw hnext⟩
  exact Lib.exec_inv hstep labels _ s ⟨shutdownInv_start order onoff, hstart⟩ hwaits hrun

/-- At the end the receiver has been notified. -/
theorem notifiedUnder_of_finished [DecidableEq ρ] (hinv : ShutdownInv order s)
    (h : SubscribedInv key pRcvr s) (hgrouped : Grouped order key) (hfinished : s.pc = .finished) :
    s.notifiedUnder key = [pRcvr] := by
  obtain ⟨d, hentry, href, hstatus⟩ := h.entry
  have hpc := hinv.pc
  rw [hfinished] at hpc
  have hdone : DoneAt s.onoff key := by
    cases key with
    | predefined c => exact hpc.2 c hgrouped
    | nonDefined name => exact hpc.1 name
  have hnotified : s.Notified key := by
    rcases hstatus with hsub | hn
    · exact absurd (hdone d hentry) (ReceiverDetail.not_isDone_of_subscribed hsub)
    · exact hn
  obtain ⟨q, hmem, hfilter⟩ := Lib.exists_filter_key hinv.once hnotified
  unfold State.notifiedUnder
  rw [hfilter, ← h.only q hmem]
  rfl

end Subscribed

/-! ## Registrations -/

/-- After any history, a registration returns true, and it takes effect iff the key had no
entry but this receiver itself, still subscribed, and its code belongs to a group. -/
theorem registers_iff [DecidableEq ρ] (order : List (List NotifReceiverCode))
    (calls : List (Call ρ)) (pRcvr : ρ) (eRcvrCode : NotifReceiverCode) (strRcvrName : String) :
    let key := receiverKey eRcvrCode strRcvrName
    let r := (after calls).registerForShutdownNotification (some pRcvr) eRcvrCode strRcvrName
    r.1 = true ∧ (TakesEffect order r.2 key pRcvr ↔
      ((after calls).entry key = none ∨ (after calls).entry key = some ⟨pRcvr, .subscribed⟩) ∧
        Grouped order key) := by
  intro key r
  refine ⟨rfl, ⟨fun h => ?_, fun h => ?_⟩⟩
  · refine ⟨(entry_register_eq_iff _ _ _ _).1 h.stored, ?_⟩
    -- a shutdown in which all others complete at once passes over a code of no group
    by_contra hgrouped
    cases hkey : key with
    | nonDefined name =>
      rw [hkey] at hgrouped
      exact hgrouped trivial
    | predefined c =>
      rw [hkey] at hgrouped h
      have hother : r.2.entry (.predefined .other) = none := by
        have hcall := entry_other_after (calls ++ [.register (some pRcvr) eRcvrCode strRcvrName])
        unfold after at hcall
        rw [List.foldl_append] at hcall
        exact hcall
      obtain ⟨labels, t, hrun, hfinished, hnotified, _, hquiet⟩ := exists_run_past hother hgrouped
      have hwaits : Lib.Along (next order) (Waits (.predefined c)) (start r.2) labels := by
        refine Lib.along_of_forall_mem ?_ _
        intro l hl s _
        exact hquiet l hl
      have hone := h.notified labels t hrun hwaits hfinished
      unfold State.notifiedUnder at hone
      rw [hnotified] at hone
      cases hone
  · constructor
    · exact (entry_register_eq_iff _ _ _ _).2 h.1
    · intro labels s hrun hwaits hfinished
      obtain ⟨hinv, hsub⟩ := subscribed_run ((entry_register_eq_iff _ _ _ _).2 h.1) hrun hwaits
      exact notifiedUnder_of_finished hinv hsub h.2 hfinished

/-- A receiver that completed stays in the map: the next one under its code is logged as
replacing it, and is not stored. -/
theorem not_takesEffect_afterCompletion :
    ¬ TakesEffect notifOrder
      ((after [.register (some 1) .mqttClient "", .ready .mqttClient ""]
        ).registerForShutdownNotification (some 2) .mqttClient "").2
      (receiverKey .mqttClient "") 2 := by
  intro h
  have hentry : ((after [.register (some 1) .mqttClient "", .ready .mqttClient ""]
      ).registerForShutdownNotification (some 2) .mqttClient "").2.entry
        (receiverKey .mqttClient "") = some ⟨1, .shutdownCompleted⟩ := by decide
  have hstored := h.stored
  rw [hentry] at hstored
  cases hstored

end Shutdown

end DeviceClient
