import DeviceClient.Db.DefaultPolicy

/-!
# A run of the granularity reduction

`PerformGranularityReduction` performs policy after policy, reads the size of
the database after each, and stops once the unsigned difference to the size
before the run reaches the expected gain. Otherwise the default purge follows.

* `performGranularityReduction`: the run, with the events that it sends.
* `StopsOnGain`: it stops, and passes over the purge, on a real gain only.
* `NoGrowth`: until the gain is reached no policy leaves the database larger
  than it was before the run.
* `stopsOnGain_iff`: the one is the other.
-/

namespace DeviceClient

namespace GranularityReduction

/-! ## The run -/

/-- The names that the loop knows. -/
def isSupportedPolicy (stPolicy : GRPolicy) : Bool :=
  decide (stPolicy.strName = policyRemoveAlternateSimilarEvent) ||
    decide (stPolicy.strName = policyRemoveRepeatedTriggerEventsLeaveFirstAndLast) ||
    decide (stPolicy.strName = policyRemoveTriggerEventPostFiles)

/-- The fields of the event `GranularityReduction`; the sizes are sent as `long long`. -/
structure GranularityReductionEvent where
  strPolicy : String
  unDBSizeBeforeGR : ℕ
  unDBSizeAfterGR : ℕ
  unDBSizeGained : ℕ
deriving DecidableEq, Repr

/-- What the loop over the policies leaves: the state, the events sent, and the
policies that were not reached. -/
structure PoliciesPerformed where
  state : GRState
  events : List GranularityReductionEvent
  notReached : List (GRPolicy × ℕ)

/-- The loop over the policies; each stands with the size read after it. -/
def performPolicies (h : GRHandler) (run : GRRun) : GRState → List (GRPolicy × ℕ) → PoliciesPerformed
  | s, [] => ⟨s, [], []⟩
  | s, turn :: turns =>
    match policyTurn h run s turn with
    | none => ⟨s, [], turn :: turns⟩
    | some s' =>
      let rest := performPolicies h run s' turns
      if isSupportedPolicy turn.1 then
        { rest with
          events := ⟨turn.1.strName, run.unDBSizeBefGR, turn.2,
            sizeGained run.unDBSizeBefGR turn.2⟩ :: rest.events }
      else rest

/-- What a run leaves; `purged` says whether the default policy was performed. -/
structure ReductionPerformed where
  policies : PoliciesPerformed
  store : GRStore
  purged : Bool
  purgeEvent : Option DBOverLimit

/-- The variables of `PerformGranularityReduction` before the loop. -/
def startRun (stLastGrRecord : LastGRPerformedRecord) (llEndTime : ℤ) (unDBSizeBefGR : ℕ) :
    GRRun where
  llStartTime := stLastGrRecord.llTimeStamp
  llEndTime := llEndTime
  llStartId := stLastGrRecord.llLastGRPerRecId
  unDBSizeBefGR := unDBSizeBefGR

/-- `PerformGranularityReduction`, the policies read. -/
def performGranularityReduction (h : GRHandler) (stDefPolicy : DefaultGRPolicy)
    (stLastGrRecord : LastGRPerformedRecord) (llEndTime : ℤ) (unDBSizeBefGR : ℕ) (sizes : DBSizes)
    (store : GRStore) (turns : List (GRPolicy × ℕ)) : ReductionPerformed :=
  let run := startRun stLastGrRecord llEndTime unDBSizeBefGR
  let performed := performPolicies h run ⟨store, stLastGrRecord, false, false⟩ turns
  if performed.state.bIsGRSuccess then ⟨performed, performed.state.store, false, none⟩
  else
    let purge := defaultPolicyHandler h stDefPolicy sizes performed.state.store
    ⟨performed, purge.1, true, purge.2⟩

/-! ## Stopping on a gain -/

/-- The loop stops before the last policy, or the purge is passed over, only if
the size read last is below the size before the run by the expected gain; and
every difference that the loop takes is the difference of the sizes. -/
structure StopsOnGain (unExpectedDbSizeToGain unDBSizeBefGR : ℕ) (res : ReductionPerformed) :
    Prop where
  gained : res.policies.notReached ≠ [] ∨ res.purged = false →
    ∃ event, res.policies.events.getLast? = some event ∧
      event.unDBSizeAfterGR < unDBSizeBefGR ∧
      event.unDBSizeAfterGR + unExpectedDbSizeToGain ≤ unDBSizeBefGR
  noWrap : ∀ event ∈ res.policies.events,
    (event.unDBSizeGained : ℤ) = unDBSizeBefGR - event.unDBSizeAfterGR

/-- The sizes read after the policies that are performed. -/
def sizesRead (turns : List (GRPolicy × ℕ)) : List ℕ :=
  (turns.filter fun turn => isSupportedPolicy turn.1).map Prod.snd

/-- Until a size is below the first one by the gain, no size is above it. -/
def NoGrowth (unExpectedDbSizeToGain unDBSizeBefGR : ℕ) : List ℕ → Prop
  | [] => True
  | unDBSizeAftGR :: sizes =>
    unDBSizeAftGR ≤ unDBSizeBefGR ∧
      (unDBSizeAftGR + unExpectedDbSizeToGain ≤ unDBSizeBefGR ∨
        NoGrowth unExpectedDbSizeToGain unDBSizeBefGR sizes)

/-- The same of the loop, whose state tells whether it stopped on a gain. -/
structure LoopStopsOnGain (unExpectedDbSizeToGain unDBSizeBefGR : ℕ) (res : PoliciesPerformed) :
    Prop where
  gained : res.notReached ≠ [] ∨ res.state.bIsGRSuccess = true →
    ∃ event, res.events.getLast? = some event ∧ event.unDBSizeAfterGR < unDBSizeBefGR ∧
      event.unDBSizeAfterGR + unExpectedDbSizeToGain ≤ unDBSizeBefGR
  noWrap : ∀ event ∈ res.events,
    (event.unDBSizeGained : ℤ) = unDBSizeBefGR - event.unDBSizeAfterGR

/-! ## The loop -/

section Loop

variable {h : GRHandler} {run : GRRun}

/-- The difference is that of the sizes iff the database has not grown. -/
theorem sizeGained_eq_iff {unDBSizeBefGR unDBSizeAftGR : ℕ} (hbef : unDBSizeBefGR < 2 ^ 64) :
    (sizeGained unDBSizeBefGR unDBSizeAftGR : ℤ) = unDBSizeBefGR - unDBSizeAftGR ↔
      unDBSizeAftGR ≤ unDBSizeBefGR := by
  unfold sizeGained
  constructor
  · intro heq
    have hnonneg : (0 : ℤ) ≤ unDBSizeBefGR - unDBSizeAftGR := by
      rw [← heq]
      exact Int.natCast_nonneg _
    omega
  · intro hle
    omega

theorem sizeGained_of_le {unDBSizeBefGR unDBSizeAftGR : ℕ} (hbef : unDBSizeBefGR < 2 ^ 64)
    (hle : unDBSizeAftGR ≤ unDBSizeBefGR) :
    sizeGained unDBSizeBefGR unDBSizeAftGR = unDBSizeBefGR - unDBSizeAftGR := by
  have heq := (sizeGained_eq_iff hbef).2 hle
  omega

theorem isSome_performPolicy (stPolicy : GRPolicy) (s : GRState) :
    (performPolicy h run stPolicy s).isSome = isSupportedPolicy stPolicy := by
  unfold performPolicy isSupportedPolicy
  split
  · simp [*]
  · split
    · simp [*]
    · split <;> simp [*]

/-- A policy that is performed decides on the size read after it. -/
theorem policyTurn_supported {s : GRState} {turn : GRPolicy × ℕ} (hs : s.bIsGRSuccess = false)
    (hturn : isSupportedPolicy turn.1 = true) :
    ∃ s', policyTurn h run s turn = some s' ∧ s'.bIsGRSuccess =
      decide (h.unExpectedDbSizeToGain ≤ sizeGained run.unDBSizeBefGR turn.2) := by
  rw [← @isSome_performPolicy h run turn.1 s, Option.isSome_iff_exists] at hturn
  rcases hturn with ⟨t, ht⟩
  unfold policyTurn
  rw [hs, ht]
  exact ⟨_, rfl, rfl⟩

theorem policyTurn_unsupported {s : GRState} {turn : GRPolicy × ℕ} (hs : s.bIsGRSuccess = false)
    (hturn : isSupportedPolicy turn.1 = false) : policyTurn h run s turn = some s := by
  rw [← @isSome_performPolicy h run turn.1 s, Option.isSome_eq_false_iff,
    Option.isNone_iff_eq_none] at hturn
  unfold policyTurn
  rw [hs, hturn]
  rfl

/-- Once a gain was seen no further policy is reached. -/
theorem performPolicies_success {s : GRState} (hs : s.bIsGRSuccess = true)
    (turns : List (GRPolicy × ℕ)) : performPolicies h run s turns = ⟨s, [], turns⟩ := by
  cases turns with
  | nil => rfl
  | cons turn turns =>
    have hnone : policyTurn h run s turn = none := by
      unfold policyTurn
      rw [hs]
      rfl
    simp only [performPolicies, hnone]

theorem performPolicies_unsupported {s : GRState} {turn : GRPolicy × ℕ}
    (hs : s.bIsGRSuccess = false) (hturn : isSupportedPolicy turn.1 = false)
    (turns : List (GRPolicy × ℕ)) :
    performPolicies h run s (turn :: turns) = performPolicies h run s turns := by
  simp only [performPolicies, policyTurn_unsupported hs hturn, hturn, Bool.false_eq_true, if_false]

/-- A policy that is performed sends its event; the loop goes on from there. -/
theorem performPolicies_supported {s : GRState} {turn : GRPolicy × ℕ}
    (hs : s.bIsGRSuccess = false) (hturn : isSupportedPolicy turn.1 = true) :
    ∃ s', s'.bIsGRSuccess =
        decide (h.unExpectedDbSizeToGain ≤ sizeGained run.unDBSizeBefGR turn.2) ∧
      ∀ turns, performPolicies h run s (turn :: turns) =
        { performPolicies h run s' turns with
          events := ⟨turn.1.strName, run.unDBSizeBefGR, turn.2,
            sizeGained run.unDBSizeBefGR turn.2⟩ :: (performPolicies h run s' turns).events } := by
  rcases @policyTurn_supported h run s turn hs hturn with ⟨s', hstep, hsucc⟩
  refine ⟨s', hsucc, fun turns => ?_⟩
  simp only [performPolicies, hstep, hturn, if_true]

theorem sizesRead_unsupported {turn : GRPolicy × ℕ} (hturn : isSupportedPolicy turn.1 = false)
    (turns : List (GRPolicy × ℕ)) : sizesRead (turn :: turns) = sizesRead turns := by
  unfold sizesRead
  rw [List.filter_cons, hturn]
  rfl

theorem sizesRead_supported {turn : GRPolicy × ℕ} (hturn : isSupportedPolicy turn.1 = true)
    (turns : List (GRPolicy × ℕ)) : sizesRead (turn :: turns) = turn.2 :: sizesRead turns := by
  unfold sizesRead
  rw [List.filter_cons, hturn]
  rfl

section Events

variable {unExpectedDbSizeToGain unDBSizeBefGR unDBSizeAftGR : ℕ} {strPolicy : String}

/-- A loop that ends at its first event, on the difference that this carries. -/
theorem loopStopsOnGain_singleton (hbef : unDBSizeBefGR < 2 ^ 64)
    (hE : 1 ≤ unExpectedDbSizeToGain)
    (hgain : unExpectedDbSizeToGain ≤ sizeGained unDBSizeBefGR unDBSizeAftGR) {s : GRState}
    {turns : List (GRPolicy × ℕ)} :
    LoopStopsOnGain unExpectedDbSizeToGain unDBSizeBefGR
        ⟨s, [⟨strPolicy, unDBSizeBefGR, unDBSizeAftGR, sizeGained unDBSizeBefGR unDBSizeAftGR⟩],
          turns⟩ ↔
      unDBSizeAftGR ≤ unDBSizeBefGR := by
  constructor
  · intro hstop
    exact (sizeGained_eq_iff hbef).1 (hstop.noWrap _ (List.mem_singleton_self _))
  · intro hle
    rw [sizeGained_of_le hbef hle] at hgain
    refine ⟨fun _ => ⟨_, rfl, ?_, ?_⟩, fun event hevent => ?_⟩
    · show unDBSizeAftGR < unDBSizeBefGR
      omega
    · show unDBSizeAftGR + unExpectedDbSizeToGain ≤ unDBSizeBefGR
      omega
    · rw [List.mem_singleton.1 hevent]
      exact (sizeGained_eq_iff hbef).2 hle

/-- A loop that goes on behind an event: the rest of it decides whether it stops. -/
theorem loopStopsOnGain_cons (hbef : unDBSizeBefGR < 2 ^ 64)
    (hgain : ¬ unExpectedDbSizeToGain ≤ sizeGained unDBSizeBefGR unDBSizeAftGR)
    (res : PoliciesPerformed) :
    LoopStopsOnGain unExpectedDbSizeToGain unDBSizeBefGR
        { res with events := ⟨strPolicy, unDBSizeBefGR, unDBSizeAftGR,
          sizeGained unDBSizeBefGR unDBSizeAftGR⟩ :: res.events } ↔
      unDBSizeAftGR ≤ unDBSizeBefGR ∧
        LoopStopsOnGain unExpectedDbSizeToGain unDBSizeBefGR res := by
  constructor
  · intro hstop
    have hle := (sizeGained_eq_iff hbef).1 (hstop.noWrap _ List.mem_cons_self)
    refine ⟨hle, fun hend => ?_, fun event hevent =>
      hstop.noWrap event (List.mem_cons_of_mem _ hevent)⟩
    rcases hstop.gained hend with ⟨event, hlast, hless, hbelow⟩
    cases hevents : res.events with
    | nil =>
      -- the one event would be the last, and its difference is not enough
      rw [hevents, List.getLast?_singleton, Option.some.injEq] at hlast
      rw [← hlast] at hbelow
      have hsum : unDBSizeAftGR + unExpectedDbSizeToGain ≤ unDBSizeBefGR := hbelow
      rw [sizeGained_of_le hbef hle] at hgain
      omega
    | cons first rest =>
      rw [hevents, List.getLast?_cons_cons] at hlast
      exact ⟨event, hlast, hless, hbelow⟩
  · rintro ⟨hle, hrest⟩
    refine ⟨fun hend => ?_, fun event hevent => ?_⟩
    · rcases hrest.gained hend with ⟨event, hlast, hbelow⟩
      refine ⟨event, ?_, hbelow⟩
      rw [List.getLast?_cons, hlast]
      rfl
    · rcases List.mem_cons.1 hevent with rfl | hevent
      · exact (sizeGained_eq_iff hbef).2 hle
      · exact hrest.noWrap event hevent

end Events

theorem loopStopsOnGain_iff (hbef : run.unDBSizeBefGR < 2 ^ 64)
    (hE : 1 ≤ h.unExpectedDbSizeToGain) (turns : List (GRPolicy × ℕ)) :
    ∀ s : GRState, s.bIsGRSuccess = false →
      (LoopStopsOnGain h.unExpectedDbSizeToGain run.unDBSizeBefGR
          (performPolicies h run s turns) ↔
        NoGrowth h.unExpectedDbSizeToGain run.unDBSizeBefGR (sizesRead turns)) := by
  induction turns with
  | nil =>
    intro s hs
    refine ⟨fun _ => trivial, fun _ => ⟨?_, fun event hevent => absurd hevent List.not_mem_nil⟩⟩
    rintro (hne | hsucc)
    · exact absurd rfl hne
    · exact absurd (hs.symm.trans hsucc) (by decide)
  | cons turn turns ih =>
    intro s hs
    cases hturn : isSupportedPolicy turn.1 with
    | false =>
      rw [sizesRead_unsupported hturn, performPolicies_unsupported hs hturn]
      exact ih s hs
    | true =>
      rcases @performPolicies_supported h run s turn hs hturn with ⟨s', hsucc, hstep⟩
      rw [sizesRead_supported hturn, hstep, NoGrowth]
      by_cases hgain : h.unExpectedDbSizeToGain ≤ sizeGained run.unDBSizeBefGR turn.2
      · -- the loop stops here: the one difference taken is the question
        rw [decide_eq_true hgain] at hsucc
        rw [performPolicies_success hsucc, loopStopsOnGain_singleton hbef hE hgain]
        refine ⟨fun hle => ⟨hle, Or.inl ?_⟩, fun hboth => hboth.1⟩
        rw [sizeGained_of_le hbef hle] at hgain
        omega
      · -- not enough: the rest of the loop decides
        rw [decide_eq_false hgain] at hsucc
        rw [loopStopsOnGain_cons hbef hgain, ih s' hsucc]
        refine and_congr_right fun hle => ⟨Or.inr, fun hor => hor.resolve_left fun hsum => ?_⟩
        rw [sizeGained_of_le hbef hle] at hgain
        omega

end Loop

/-- A run stops on a real gain only iff, until the gain is reached, no policy
leaves the database larger than it was before the run. -/
theorem stopsOnGain_iff (h : GRHandler) (stDefPolicy : DefaultGRPolicy)
    (stLastGrRecord : LastGRPerformedRecord) (llEndTime : ℤ) {unDBSizeBefGR : ℕ} (sizes : DBSizes)
    (store : GRStore) (turns : List (GRPolicy × ℕ)) (hbef : unDBSizeBefGR < 2 ^ 64)
    (hE : 1 ≤ h.unExpectedDbSizeToGain) :
    StopsOnGain h.unExpectedDbSizeToGain unDBSizeBefGR
        (performGranularityReduction h stDefPolicy stLastGrRecord llEndTime unDBSizeBefGR sizes
          store turns) ↔
      NoGrowth h.unExpectedDbSizeToGain unDBSizeBefGR (sizesRead turns) := by
  have hloop := @loopStopsOnGain_iff h (startRun stLastGrRecord llEndTime unDBSizeBefGR) hbef hE
    turns ⟨store, stLastGrRecord, false, false⟩ rfl
  refine Iff.trans ?_ hloop
  -- the purge is passed over exactly on success
  cases hsucc : (performPolicies h (startRun stLastGrRecord llEndTime unDBSizeBefGR)
      ⟨store, stLastGrRecord, false, false⟩ turns).state.bIsGRSuccess with
  | true =>
    simp only [performGranularityReduction, hsucc, if_true]
    exact ⟨fun hstop => ⟨fun _ => hstop.gained (Or.inr rfl), hstop.noWrap⟩,
      fun hstop => ⟨fun _ => hstop.gained (Or.inr hsucc), hstop.noWrap⟩⟩
  | false =>
    simp only [performGranularityReduction, hsucc, Bool.false_eq_true, if_false]
    refine ⟨fun hstop => ⟨fun hend => hstop.gained (Or.inl ?_), hstop.noWrap⟩,
      fun hstop => ⟨fun hend => hstop.gained (Or.inl ?_), hstop.noWrap⟩⟩
    · exact hend.resolve_right (by rw [hsucc]; decide)
    · exact hend.resolve_right Bool.true_eq_false.mp

/-- A policy by its name, with no event exempted. -/
def namedPolicy (strName : String) : GRPolicy := ⟨strName, fun _ => false, 1⟩

/-- A run in which the second policy gains enough. -/
theorem stopsOnGain_second :
    StopsOnGain 2359296 4718592
      (performGranularityReduction (sampleHandler [] []) (readDefaultGRPolicy none) ⟨0, 0⟩ 5
        4718592 ⟨0, 0, 0⟩ ⟨datedTable [1, 2, 3], []⟩
        [(namedPolicy policyRemoveAlternateSimilarEvent, 4718592),
          (namedPolicy policyRemoveTriggerEventPostFiles, 2097152)]) :=
  (stopsOnGain_iff (sampleHandler [] []) (readDefaultGRPolicy none) ⟨0, 0⟩ 5 ⟨0, 0, 0⟩
    ⟨datedTable [1, 2, 3], []⟩ [(namedPolicy policyRemoveAlternateSimilarEvent, 4718592),
      (namedPolicy policyRemoveTriggerEventPostFiles, 2097152)] (by decide) (by decide)).2
    ⟨by decide, Or.inr ⟨by decide, Or.inl (by decide)⟩⟩

/-- A run in which the database grew during the first policy: the loop stops, the
second policy is not reached and the purge is passed over. -/
theorem not_stopsOnGain_of_growth :
    ¬ StopsOnGain 2359296 4718592
      (performGranularityReduction (sampleHandler [] []) (readDefaultGRPolicy none) ⟨0, 0⟩ 5
        4718592 ⟨0, 0, 0⟩ ⟨datedTable [1, 2, 3], []⟩
        [(namedPolicy policyRemoveAlternateSimilarEvent, 4722688),
          (namedPolicy policyRemoveTriggerEventPostFiles, 2097152)]) := by
  intro hstop
  rcases hstop.gained (Or.inr (by decide)) with ⟨event, hlast, hbelow, _⟩
  have hevent : some event = some ⟨policyRemoveAlternateSimilarEvent, 4718592, 4722688,
      18446744073709547520⟩ := hlast.symm.trans (by decide)
  rw [Option.some.inj hevent] at hbelow
  exact absurd hbelow (by decide)

end GranularityReduction

end DeviceClient
