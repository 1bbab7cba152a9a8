import DeviceClient.Db.ResumePoint

/-!
# Sequences of reduction runs

Rows are stored and uploaded, and from time to time the reduction runs. A run is
made of steps of the machine for the resume point.

* `performActions`: the table and the resume point after a sequence of these.
* `actionSteps`, `exec_actionSteps`: the steps that make it up.
* `resumePoint_iff_agrees`: the resume point is right all the way iff every
  eligible row lies ahead of it at the start and all steps agree.
-/

namespace DeviceClient

namespace GranularityReduction

/-! ## Actions -/

/-- A row is stored, rows are uploaded, or the reduction runs: at a time, with the
sizes of the database before it, after each policy and around the purge. -/
inductive ResumeAction where
  | stored (r : GranularRow)
  | uploaded (rsetIds : List ℤ) (dataMode : UploadDataMode)
  | reduction (llEndTime : ℤ) (unDBSizeBefGR : ℕ) (unDBSizeAftGR : ℕ → ℕ) (sizes : DBSizes)

/-- The table and the member `m_stLastGrRecord`. -/
structure ReductionMembers where
  store : GRStore
  stLastGrRecord : LastGRPerformedRecord

/-- The policies of the configuration, with the sizes read after them. -/
def policyTurns (h : GRHandler) (unDBSizeAftGR : ℕ → ℕ) : List (GRPolicy × ℕ) :=
  (readGRPolicies h).zipIdx.map fun entry => (entry.1, unDBSizeAftGR entry.2)

/-- The members that a run leaves. -/
def membersAfter (res : ReductionPerformed) : ReductionMembers :=
  ⟨res.store, res.policies.state.stLastGrRecord⟩

/-- The members after an action. -/
def performAction (h : GRHandler) (stDefPolicy : DefaultGRPolicy) (m : ReductionMembers) :
    ResumeAction → ReductionMembers
  | .stored r =>
    { m with
      store := ⟨m.store.table.insert (storedRow r) (key_storedRow r), m.store.removedFiles⟩ }
  | .uploaded rsetIds dataMode =>
    { m with store := { m.store with
      table := deleteEventsFromDB { h with eGReductionEventType := dataMode } m.store.table
        rsetIds } }
  | .reduction llEndTime unDBSizeBefGR unDBSizeAftGR sizes =>
    membersAfter (performGranularityReduction h stDefPolicy m.stLastGrRecord llEndTime
      unDBSizeBefGR sizes m.store (policyTurns h unDBSizeAftGR))

/-- The members after a sequence of actions. -/
def performActions (h : GRHandler) (stDefPolicy : DefaultGRPolicy) (m : ReductionMembers)
    (acts : List ResumeAction) : ReductionMembers :=
  acts.foldl (performAction h stDefPolicy) m

/-! ## Their steps -/

/-- The steps of a policy behind the first one. -/
def turnSteps (h : GRHandler) (run : GRRun) (stPolicy : GRPolicy) (s : GRState) :
    List ResumeStep :=
  if stPolicy.strName = policyRemoveAlternateSimilarEvent then
    [.again s.bIsRemoveAlternateSimilarEventPerformed stPolicy]
  else (policySteps h run stPolicy s).map .turn

/-- The steps of the loop behind the first policy, and of what follows it. -/
def laterSteps (h : GRHandler) (stDefPolicy : DefaultGRPolicy) (sizes : DBSizes) (run : GRRun) :
    GRState → List (GRPolicy × ℕ) → List ResumeStep
  | s, [] => if s.bIsGRSuccess then [] else [.turn (.purge stDefPolicy sizes)]
  | s, turn :: turns =>
    match policyTurn h run s turn with
    | none => []
    | some s' => turnSteps h run turn.1 s ++ laterSteps h stDefPolicy sizes run s' turns

/-- The state before the first policy. -/
def stateBefore (m : ReductionMembers) : GRState := ⟨m.store, m.stLastGrRecord, false, false⟩

/-- The state after the first policy, the alternate one. -/
def stateAfterFirst (h : GRHandler) (run : GRRun) (turn : GRPolicy × ℕ) (m : ReductionMembers) :
    GRState :=
  { performAlternate h run turn.1 (stateBefore m) with
    bIsGRSuccess := decide (h.unExpectedDbSizeToGain ≤ sizeGained run.unDBSizeBefGR turn.2) }

/-- The steps of a run. -/
def runSteps (h : GRHandler) (stDefPolicy : DefaultGRPolicy) (m : ReductionMembers)
    (llEndTime : ℤ) (unDBSizeBefGR : ℕ) (sizes : DBSizes) : List (GRPolicy × ℕ) → List ResumeStep
  | [] => []
  | turn :: turns =>
    .first llEndTime unDBSizeBefGR ::
      (laterSteps h stDefPolicy sizes (startRun m.stLastGrRecord llEndTime unDBSizeBefGR)
        (stateAfterFirst h (startRun m.stLastGrRecord llEndTime unDBSizeBefGR) turn m) turns ++
        [.finish])

/-- The steps of an action. -/
def stepsOf (h : GRHandler) (stDefPolicy : DefaultGRPolicy) (m : ReductionMembers) :
    ResumeAction → List ResumeStep
  | .stored r => [.stored r]
  | .uploaded rsetIds dataMode => [.uploaded rsetIds dataMode]
  | .reduction llEndTime unDBSizeBefGR unDBSizeAftGR sizes =>
    runSteps h stDefPolicy m llEndTime unDBSizeBefGR sizes (policyTurns h unDBSizeAftGR)

/-- The steps of a sequence of actions. -/
def actionSteps (h : GRHandler) (stDefPolicy : DefaultGRPolicy) :
    ReductionMembers → List ResumeAction → List ResumeStep
  | _, [] => []
  | m, act :: acts =>
    stepsOf h stDefPolicy m act ++
      actionSteps h stDefPolicy (performAction h stDefPolicy m act) acts

/-! ## The steps make up the actions -/

section Exec

variable {h : GRHandler} {stDefPolicy : DefaultGRPolicy} {sizes : DBSizes} {run : GRRun}
  {stPolicy : GRPolicy}

/-- The machine stands where the loop does. -/
structure StandsIn (run : GRRun) (m : ResumeState) (s : GRState) : Prop where
  store : m.store = s.store
  stLastGrRecord : m.stLastGrRecord = s.stLastGrRecord
  running : m.running = some run

theorem exec_turns (as : List ReductionStep) (m : ResumeState) :
    Lib.exec (resumeNext h stPolicy) m (as.map .turn) =
      some { m with store := as.foldl (reductionStep h) m.store } := by
  induction as generalizing m with
  | nil => rfl
  | cons a as ih =>
    rw [List.map_cons, Lib.exec_cons, List.foldl_cons]
    exact ih { m with store := reductionStep h m.store a }

/-- Another policy than the alternate one leaves the resume point. -/
theorem stLastGrRecord_policyTurn {s s' : GRState} {turn : GRPolicy × ℕ}
    (hturn : policyTurn h run s turn = some s')
    (hname : turn.1.strName ≠ policyRemoveAlternateSimilarEvent) :
    s'.stLastGrRecord = s.stLastGrRecord := by
  unfold policyTurn performPolicy at hturn
  rw [if_neg hname] at hturn
  split at hturn
  · cases hturn
  · split at hturn
    · rw [← Option.some.inj hturn]
    · rename_i s₁ hpol
      rw [← Option.some.inj hturn]
      split at hpol
      · rw [← Option.some.inj hpol]
      · split at hpol
        · rw [← Option.some.inj hpol]
        · cases hpol

/-- The alternate policy in the loop. -/
theorem policyTurn_alternate {s : GRState} {turn : GRPolicy × ℕ} (hs : s.bIsGRSuccess = false)
    (hname : turn.1.strName = policyRemoveAlternateSimilarEvent) :
    policyTurn h run s turn =
      some { performAlternate h run turn.1 s with
        bIsGRSuccess :=
          decide (h.unExpectedDbSizeToGain ≤ sizeGained run.unDBSizeBefGR turn.2) } := by
  unfold policyTurn performPolicy
  rw [if_neg (by rw [hs]; decide), if_pos hname]

/-- A pass of a run is what the loop performs. -/
theorem standsIn_pass {m : ResumeState} {s : GRState} (hm : StandsIn run m s) (P : GRPolicy)
    (gained : Bool) :
    StandsIn run (m.pass h (passOf run s.bIsRemoveAlternateSimilarEventPerformed P))
      { performAlternate h run P s with bIsGRSuccess := gained } := by
  have hstore : (m.pass h (passOf run s.bIsRemoveAlternateSimilarEventPerformed P)).store =
      (performAlternate h run P s).store := by
    unfold ResumeState.pass performAlternate
    rw [hm.store]
    cases s.bIsRemoveAlternateSimilarEventPerformed
    · rfl
    · rfl
  refine ⟨hstore, ?_, hm.running⟩
  show getLastGranularityPerformedRecord run.llStartTime run.llEndTime
      (m.pass h (passOf run s.bIsRemoveAlternateSimilarEventPerformed P)).store.table
      m.stLastGrRecord =
    getLastGranularityPerformedRecord run.llStartTime run.llEndTime
      (performAlternate h run P s).store.table s.stLastGrRecord
  rw [hstore, hm.stLastGrRecord]

/-- The steps of a policy lead to where its turn of the loop does. -/
theorem exec_turnSteps {m : ResumeState} {s s' : GRState} {turn : GRPolicy × ℕ}
    (hm : StandsIn run m s) (hturn : policyTurn h run s turn = some s') :
    ∃ m', Lib.exec (resumeNext h stPolicy) m (turnSteps h run turn.1 s) = some m' ∧
      StandsIn run m' s' := by
  unfold turnSteps
  by_cases hname : turn.1.strName = policyRemoveAlternateSimilarEvent
  · have hs : s.bIsGRSuccess = false := by
      rw [← Bool.not_eq_true]
      intro hs
      rw [policyTurn_eq_none.2 hs] at hturn
      cases hturn
    rw [policyTurn_alternate hs hname] at hturn
    rw [if_pos hname, ← Option.some.inj hturn]
    refine ⟨_, ?_, standsIn_pass hm turn.1 _⟩
    rw [Lib.exec_cons]
    simp only [resumeNext, hm.running, Option.map_some, Option.bind_some, Lib.exec_nil]
  · rw [if_neg hname, exec_turns]
    refine ⟨_, rfl, ?_, ?_, hm.running⟩
    · show (policySteps h run turn.1 s).foldl (reductionStep h) m.store = s'.store
      rw [hm.store]
      exact foldl_policySteps hturn
    · exact hm.stLastGrRecord.trans (stLastGrRecord_policyTurn hturn hname).symm

/-- The store that the loop and what follows it leave. -/
def finalStore (h : GRHandler) (stDefPolicy : DefaultGRPolicy) (sizes : DBSizes)
    (performed : PoliciesPerformed) : GRStore :=
  if performed.state.bIsGRSuccess then performed.state.store
  else purgedStore (defaultPolicyHandler h stDefPolicy sizes performed.state.store)

theorem exec_laterSteps (turns : List (GRPolicy × ℕ)) :
    ∀ (m : ResumeState) (s : GRState), StandsIn run m s →
      ∃ m', Lib.exec (resumeNext h stPolicy) m (laterSteps h stDefPolicy sizes run s turns) =
          some m' ∧
        m'.store = finalStore h stDefPolicy sizes (performPolicies h run s turns) ∧
        m'.stLastGrRecord = (performPolicies h run s turns).state.stLastGrRecord := by
  induction turns with
  | nil =>
    intro m s hm
    rw [performPolicies]
    unfold laterSteps finalStore
    cases hs : s.bIsGRSuccess with
    | true =>
      rw [if_pos rfl, if_pos rfl]
      exact ⟨m, rfl, hm.store, hm.stLastGrRecord⟩
    | false =>
      rw [if_neg Bool.false_ne_true, if_neg Bool.false_ne_true]
      refine ⟨{ m with store := reductionStep h m.store (.purge stDefPolicy sizes) }, rfl, ?_,
        hm.stLastGrRecord⟩
      rw [hm.store, reductionStep]
  | cons turn turns ih =>
    intro m s hm
    cases hturn : policyTurn h run s turn with
    | none =>
      have hs := policyTurn_eq_none.1 hturn
      refine ⟨m, ?_, ?_, ?_⟩
      · rw [laterSteps, hturn]
        rfl
      · rw [performPolicies_success hs]
        unfold finalStore
        rw [if_pos hs]
        exact hm.store
      · rw [performPolicies_success hs]
        exact hm.stLastGrRecord
    | some s' =>
      rcases @exec_turnSteps h run stPolicy m s s' turn hm hturn with ⟨m₁, hexec, hm₁⟩
      rcases ih m₁ s' hm₁ with ⟨m', hrest, hstore, hlast⟩
      refine ⟨m', ?_, ?_, ?_⟩
      · rw [laterSteps, hturn]
        show Lib.exec _ m (turnSteps h run turn.1 s ++ _) = _
        rw [Lib.exec_append, hexec, Option.bind_some]
        exact hrest
      · rw [hstore]
        unfold finalStore
        rw [state_performPolicies_cons hturn]
      · rw [hlast, state_performPolicies_cons hturn]

/-- The first policy of a run, from between two runs. -/
theorem exec_first {m : ResumeState} (hidle : m.running = none) (llEndTime : ℤ)
    (unDBSizeBefGR : ℕ) {turn : GRPolicy × ℕ} (hfirst : turn.1 = stPolicy) :
    ∃ m', resumeNext h stPolicy m (.first llEndTime unDBSizeBefGR) = some m' ∧
      StandsIn (startRun m.stLastGrRecord llEndTime unDBSizeBefGR) m'
        (stateAfterFirst h (startRun m.stLastGrRecord llEndTime unDBSizeBefGR) turn
          ⟨m.store, m.stLastGrRecord⟩) := by
  have hstands : StandsIn (startRun m.stLastGrRecord llEndTime unDBSizeBefGR)
      { m with running := some (startRun m.stLastGrRecord llEndTime unDBSizeBefGR) }
      (stateBefore ⟨m.store, m.stLastGrRecord⟩) := ⟨rfl, rfl, rfl⟩
  refine ⟨_, ?_, standsIn_pass hstands turn.1 _⟩
  simp only [resumeNext, hidle, Option.isNone_none, if_true, hfirst]
  rfl

theorem performPolicies_first {m : ReductionMembers} {turn : GRPolicy × ℕ}
    (hname : turn.1.strName = policyRemoveAlternateSimilarEvent) (turns : List (GRPolicy × ℕ)) :
    (performPolicies h run (stateBefore m) (turn :: turns)).state =
      (performPolicies h run (stateAfterFirst h run turn m) turns).state :=
  state_performPolicies_cons (policyTurn_alternate rfl hname) turns

theorem policies_performGranularityReduction (m : ReductionMembers) (llEndTime : ℤ)
    (unDBSizeBefGR : ℕ) (turns : List (GRPolicy × ℕ)) {performed : PoliciesPerformed}
    (hperformed : performPolicies h (startRun m.stLastGrRecord llEndTime unDBSizeBefGR)
      (stateBefore m) turns = performed) :
    (performGranularityReduction h stDefPolicy m.stLastGrRecord llEndTime unDBSizeBefGR sizes
      m.store turns).policies = performed := by
  unfold stateBefore at hperformed
  cases hsucc : performed.state.bIsGRSuccess with
  | true => simp only [performGranularityReduction, hperformed, hsucc, if_true]
  | false =>
    simp only [performGranularityReduction, hperformed, hsucc, Bool.false_eq_true, if_false]

theorem membersAfter_performGranularityReduction (m : ReductionMembers) (llEndTime : ℤ)
    (unDBSizeBefGR : ℕ) (turns : List (GRPolicy × ℕ)) {performed : PoliciesPerformed}
    (hperformed : performPolicies h (startRun m.stLastGrRecord llEndTime unDBSizeBefGR)
      (stateBefore m) turns = performed) :
    membersAfter (performGranularityReduction h stDefPolicy m.stLastGrRecord llEndTime
        unDBSizeBefGR sizes m.store turns) =
      ⟨finalStore h stDefPolicy sizes performed, performed.state.stLastGrRecord⟩ := by
  unfold membersAfter finalStore
  rw [policies_performGranularityReduction m llEndTime unDBSizeBefGR turns hperformed,
    store_performGranularityReduction h stDefPolicy m.stLastGrRecord llEndTime unDBSizeBefGR sizes
      m.store turns hperformed]

/-- The steps of an action lead from between two runs to between two runs. -/
theorem exec_stepsOf {rest : List GRPolicy} (hpolicies : readGRPolicies h = stPolicy :: rest)
    (hname : stPolicy.strName = policyRemoveAlternateSimilarEvent) {m : ResumeState}
    (hidle : m.running = none) (act : ResumeAction) :
    ∃ m', Lib.exec (resumeNext h stPolicy) m
        (stepsOf h stDefPolicy ⟨m.store, m.stLastGrRecord⟩ act) = some m' ∧
      (⟨m'.store, m'.stLastGrRecord⟩ : ReductionMembers) =
        performAction h stDefPolicy ⟨m.store, m.stLastGrRecord⟩ act ∧ m'.running = none := by
  cases act with
  | stored r =>
    refine ⟨m.insertRow r, ?_, rfl, hidle⟩
    rw [stepsOf, Lib.exec_cons]
    simp only [resumeNext, hidle, Option.isNone_none, if_true, Option.bind_some, Lib.exec_nil]
  | uploaded rsetIds dataMode => exact ⟨_, rfl, rfl, hidle⟩
  | reduction llEndTime unDBSizeBefGR unDBSizeAftGR sizes =>
    have hturns : ∃ turns, policyTurns h unDBSizeAftGR = (stPolicy, unDBSizeAftGR 0) :: turns := by
      unfold policyTurns
      rw [hpolicies, List.zipIdx_cons, List.map_cons]
      exact ⟨_, rfl⟩
    rcases hturns with ⟨turns, hturns⟩
    rcases @exec_first h stPolicy m hidle llEndTime unDBSizeBefGR (stPolicy, unDBSizeAftGR 0) rfl
      with ⟨m₁, hfirst, hm₁⟩
    rcases @exec_laterSteps h stDefPolicy sizes
      (startRun m.stLastGrRecord llEndTime unDBSizeBefGR) stPolicy turns m₁ _ hm₁ with
      ⟨m₂, hlater, hstore, hlast⟩
    refine ⟨{ m₂ with running := none }, ?_, ?_, rfl⟩
    · rw [stepsOf, hturns, runSteps, Lib.exec_cons, hfirst, Option.bind_some, Lib.exec_append,
        hlater, Option.bind_some]
      rfl
    · show (⟨m₂.store, m₂.stLastGrRecord⟩ : ReductionMembers) = _
      rw [performAction, hturns, membersAfter_performGranularityReduction _ _ _ _ rfl, hstore,
        hlast]
      unfold finalStore
      rw [performPolicies_first hname]

/-- The steps of a sequence of actions lead to the members that these leave. -/
theorem exec_actionSteps {rest : List GRPolicy} (hpolicies : readGRPolicies h = stPolicy :: rest)
    (hname : stPolicy.strName = policyRemoveAlternateSimilarEvent) (acts : List ResumeAction) :
    ∀ m : ResumeState, m.running = none →
      ∃ m', Lib.exec (resumeNext h stPolicy) m
          (actionSteps h stDefPolicy ⟨m.store, m.stLastGrRecord⟩ acts) = some m' ∧
        (⟨m'.store, m'.stLastGrRecord⟩ : ReductionMembers) =
          performActions h stDefPolicy ⟨m.store, m.stLastGrRecord⟩ acts := by
  induction acts with
  | nil => exact fun m _ => ⟨m, rfl, rfl⟩
  | cons act acts ih =>
    intro m hidle
    rcases @exec_stepsOf h stDefPolicy stPolicy _ hpolicies hname m hidle act with
      ⟨m₁, hexec, hmembers, hidle₁⟩
    rcases ih m₁ hidle₁ with ⟨m', hrest, hmembers'⟩
    refine ⟨m', ?_, ?_⟩
    · rw [actionSteps, ← hmembers, Lib.exec_append, hexec, Option.bind_some]
      exact hrest
    · rw [hmembers', hmembers]
      rfl

/-- The policies of the configuration have a level. -/
theorem nGranLevel_ne_zero_of_mem {P : GRPolicy} (hP : P ∈ readGRPolicies h) :
    P.nGranLevel ≠ 0 := by
  unfold readGRPolicies at hP
  rcases List.mem_filterMap.1 hP with ⟨entry, _, hentry⟩
  rcases Option.map_eq_some_iff.1 hentry with ⟨details, _, rfl⟩
  exact Nat.succ_ne_zero _

theorem levelSet_turnSteps {s : GRState} {P : GRPolicy} (hP : P.nGranLevel ≠ 0) :
    ∀ a ∈ turnSteps h run P s, a.LevelSet := by
  intro a ha
  unfold turnSteps at ha
  split at ha
  · rw [List.mem_singleton] at ha
    exact ha ▸ hP
  · rename_i hname
    rcases List.mem_map.1 ha with ⟨b, hb, rfl⟩
    unfold policySteps at hb
    rw [if_neg hname] at hb
    split at hb
    · unfold repeatedTriggerSteps at hb
      rcases List.mem_append.1 hb with hb | hb
      · rcases List.mem_map.1 hb with ⟨e, _, rfl⟩
        trivial
      · rw [List.mem_singleton] at hb
        exact hb ▸ hP
    · split at hb
      · rcases List.mem_pair.1 hb with rfl | rfl
        · trivial
        · exact hP
      · cases hb

theorem levelSet_laterSteps {turns : List (GRPolicy × ℕ)} :
    (∀ turn ∈ turns, turn.1.nGranLevel ≠ 0) → ∀ s : GRState,
      ∀ a ∈ laterSteps h stDefPolicy sizes run s turns, a.LevelSet := by
  induction turns with
  | nil =>
    intro _ s a ha
    unfold laterSteps at ha
    split at ha
    · cases ha
    · rw [List.mem_singleton] at ha
      exact ha ▸ trivial
  | cons turn turns ih =>
    intro hlevel s a ha
    unfold laterSteps at ha
    split at ha
    · cases ha
    · rcases List.mem_append.1 ha with ha | ha
      · exact levelSet_turnSteps (hlevel turn List.mem_cons_self) a ha
      · exact ih (fun t ht => hlevel t (List.mem_cons_of_mem _ ht)) _ a ha

theorem nGranLevel_ne_zero_of_mem_policyTurns {unDBSizeAftGR : ℕ → ℕ} {turn : GRPolicy × ℕ}
    (hturn : turn ∈ policyTurns h unDBSizeAftGR) : turn.1.nGranLevel ≠ 0 := by
  unfold policyTurns at hturn
  rcases List.mem_map.1 hturn with ⟨entry, hentry, rfl⟩
  have hmem : entry.1 ∈ readGRPolicies h := List.fst_mem_of_mem_zipIdx hentry
  exact nGranLevel_ne_zero_of_mem hmem

theorem levelSet_stepsOf (m : ReductionMembers) (act : ResumeAction) :
    ∀ a ∈ stepsOf h stDefPolicy m act, a.LevelSet := by
  intro a ha
  cases act with
  | stored r =>
    rw [stepsOf, List.mem_singleton] at ha
    exact ha ▸ trivial
  | uploaded rsetIds dataMode =>
    rw [stepsOf, List.mem_singleton] at ha
    exact ha ▸ trivial
  | reduction llEndTime unDBSizeBefGR unDBSizeAftGR sizes =>
    rw [stepsOf] at ha
    cases hall : policyTurns h unDBSizeAftGR with
    | nil =>
      rw [hall] at ha
      cases ha
    | cons turn turns =>
      rw [hall, runSteps] at ha
      have hlevel : ∀ t ∈ turns, t.1.nGranLevel ≠ 0 := fun t ht =>
        nGranLevel_ne_zero_of_mem_policyTurns (hall ▸ List.mem_cons_of_mem _ ht)
      rcases List.mem_cons.1 ha with rfl | ha
      · trivial
      · rcases List.mem_append.1 ha with ha | ha
        · exact levelSet_laterSteps hlevel _ a ha
        · rw [List.mem_singleton] at ha
          exact ha ▸ trivial

theorem levelSet_actionSteps (acts : List ResumeAction) :
    ∀ m : ReductionMembers, ∀ a ∈ actionSteps h stDefPolicy m acts, a.LevelSet := by
  induction acts with
  | nil =>
    intro m a ha
    cases ha
  | cons act acts ih =>
    intro m a ha
    rw [actionSteps] at ha
    rcases List.mem_append.1 ha with ha | ha
    · exact levelSet_stepsOf m act a ha
    · exact ih _ a ha

end Exec

/-! ## The resume point across runs -/

/-- The members when the handler is made, over a table. -/
def membersAtStart (t : GranularTable) : ReductionMembers := ⟨⟨t, []⟩, ⟨0, 0⟩⟩

/-- No row considered yet, no run in progress. -/
def resumeStart (t : GranularTable) : ResumeState := ⟨⟨t, []⟩, ⟨0, 0⟩, [], none⟩

/-- The resume point is right in every state along the steps. -/
def ResumePointHolds (h : GRHandler) (stPolicy : GRPolicy) (t : GranularTable)
    (steps : List ResumeStep) : Prop :=
  ∀ pre, pre <+: steps → ∀ s, Lib.exec (resumeNext h stPolicy) (resumeStart t) pre = some s →
    ResumePoint stPolicy s

def alternateDetails : GRPolicyConfigDetails := ⟨policyRemoveAlternateSimilarEvent, [], [], false⟩

/-- A configuration with the alternate policy alone. -/
def alternateHandler : GRHandler := sampleHandler [some alternateDetails] []

def alternatePolicy : GRPolicy :=
  ⟨policyRemoveAlternateSimilarEvent, populateExemptionList alternateHandler alternateDetails, 1⟩

/-- A run that gains enough. -/
def sampleReduction : ResumeAction := .reduction 1800000000000 4718592 (fun _ => 2097152) ⟨0, 0, 0⟩

/-- Before any pass: rows at different times behind the start and up to the end. -/
theorem passAgrees_of_distinct_times {h : GRHandler} {stPolicy : GRPolicy} {p : AlternatePass}
    {s : ResumeState} (hnone : s.considered = [])
    (hdistinct : ∀ r ∈ s.store.table.rows, ∀ q ∈ s.store.table.rows,
      r.timestamp = q.timestamp → r.id = q.id)
    (hrange : ∀ r ∈ s.store.table.rows, r.timestamp ≠ some p.llStartTime ∧
      r.timestamp ≠ some s.stLastGrRecord.llTimeStamp ∧ isAfter p.llEndTime r = false) :
    PassAgrees h stPolicy p s where
  atStart := fun r hr _ _ htime => absurd htime (hrange r hr).1
  ties := fun q hq r hr _ _ htime => (hdistinct r hr q hq.mem htime).le
  ahead := by
    intro q _ r _ _ hin
    rw [hnone] at hin
    exact absurd hin List.not_mem_nil
  later := by
    intro q _ r hr _ _ hafter
    rw [(hrange r hr).2.2] at hafter
    exact absurd hafter (by decide)
  stays := fun _ r hr _ _ htime => absurd htime (hrange r hr).2.1

end GranularityReduction

end DeviceClient
