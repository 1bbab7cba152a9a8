import DeviceClient.Lib.Run
import Mathlib.Logic.Function.Basic

/-!
# Transactions on one connection

`StartTransaction` locks `g_TransactionMutex` and runs `BEGIN`; when it fails, the mutex is let
go. `EndTransaction` runs `END` or `ROLLBACK` and lets the mutex go, whatever the statement did.
`VacuumDb` holds the mutex around its statement.

The threads take their steps in any order. By SQLite's rules `BEGIN` fails inside a transaction,
and a transaction whose end fails stays open.

* `Disciplined`: a transaction is open while a thread is between the two calls.
* `disciplined_next_iff`: the step that breaks it.
* `disciplined_runs_iff`: the runs that keep it.
* `lost_run`: after a failed end no transaction is started any more.
-/

namespace DeviceClient

/-- Where a thread is. -/
inductive TransactionPhase where
  | outside
  /-- In `StartTransaction`, before `BEGIN`. -/
  | starting
  /-- `BEGIN` failed. -/
  | refused
  /-- `StartTransaction` has returned true. -/
  | between
  /-- In `EndTransaction`, before its statement. -/
  | ending (bSuccess : Bool)
  /-- Behind the statement. -/
  | ended
  /-- In `VacuumDb`, before the statement and behind it. -/
  | vacuuming
  | vacuumed
deriving DecidableEq

namespace TransactionPhase

/-- After `BEGIN` and before the end. -/
def Holds : TransactionPhase → Prop
  | between => True
  | ending _ => True
  | _ => False

instance : DecidablePred Holds
  | between => .isTrue trivial
  | ending _ => .isTrue trivial
  | outside | starting | refused | ended | vacuuming | vacuumed => .isFalse id

/-- The mutex is to be let go next. -/
def Leaves : TransactionPhase → Prop
  | refused => True
  | ended => True
  | vacuumed => True
  | _ => False

instance : DecidablePred Leaves
  | refused | ended | vacuumed => .isTrue trivial
  | outside | starting | between | ending _ | vacuuming => .isFalse id

theorem not_holds_of_leaves {p : TransactionPhase} (hp : p.Leaves) : ¬ p.Holds := by
  cases p with
  | refused | ended | vacuumed => exact id
  | outside | starting | between | ending _ | vacuuming => exact hp.elim

end TransactionPhase

/-- A step of a thread, with the outcome of its statement. -/
inductive TransactionStep where
  | startTransaction
  | begin (bOk : Bool)
  | endTransaction (bSuccess : Bool)
  | finish (bOk : Bool)
  | vacuumDb
  | vacuum (bOk : Bool)
  | unlock
deriving DecidableEq

/-- The connection and the mutex, with the threads `τ`. -/
structure Connection (τ : Type) where
  g_TransactionMutex : Option τ
  bInTransaction : Bool
  phase : τ → TransactionPhase

namespace Connection

open TransactionPhase

variable {τ : Type} [DecidableEq τ]

/-- After `Open`. -/
def init : Connection τ := ⟨none, false, fun _ => .outside⟩

def goto (s : Connection τ) (t : τ) (p : TransactionPhase) : Connection τ :=
  { s with phase := Function.update s.phase t p }

/-- `Lock`; there is no step while the mutex is held. -/
def lock (s : Connection τ) (t : τ) (p : TransactionPhase) : Option (Connection τ) :=
  if s.phase t = .outside ∧ s.g_TransactionMutex = none then
    some { s.goto t p with g_TransactionMutex := some t }
  else none

def next (s : Connection τ) : τ × TransactionStep → Option (Connection τ)
  | (t, .startTransaction) => s.lock t .starting
  | (t, .begin bOk) =>
    -- `BEGIN` fails inside a transaction
    if s.phase t = .starting ∧ (bOk = true → s.bInTransaction = false) then
      some { s.goto t (if bOk then .between else .refused) with
        bInTransaction := s.bInTransaction || bOk }
    else none
  | (t, .endTransaction bSuccess) =>
    if s.phase t = .between then some (s.goto t (.ending bSuccess)) else none
  | (t, .finish bOk) =>
    -- `END` and `ROLLBACK` alike
    if (∃ bSuccess, s.phase t = .ending bSuccess) ∧ (bOk = true → s.bInTransaction = true) then
      some { s.goto t .ended with bInTransaction := s.bInTransaction && !bOk }
    else none
  | (t, .vacuumDb) => s.lock t .vacuuming
  -- a vacuum leaves the transaction as it is, whatever it returns
  | (t, .vacuum _) => if s.phase t = .vacuuming then some (s.goto t .vacuumed) else none
  | (t, .unlock) =>
    if (s.phase t).Leaves then some { s.goto t .outside with g_TransactionMutex := none } else none

/-- A transaction is open exactly while a thread is between the beginning and the end of it, and
the mutex is held by the thread that is in one of the calls or between them. -/
structure Disciplined (s : Connection τ) : Prop where
  inTransaction : s.bInTransaction = true ↔ ∃ t, (s.phase t).Holds
  mutex : ∀ t, s.g_TransactionMutex = some t ↔ s.phase t ≠ .outside
  closed : ∀ t, s.phase t = .ended → s.bInTransaction = false

@[simp] theorem goto_mutex (s : Connection τ) (t : τ) (p : TransactionPhase) :
    (s.goto t p).g_TransactionMutex = s.g_TransactionMutex := rfl

@[simp] theorem goto_inTransaction (s : Connection τ) (t : τ) (p : TransactionPhase) :
    (s.goto t p).bInTransaction = s.bInTransaction := rfl

@[simp] theorem goto_phase (s : Connection τ) (t : τ) (p : TransactionPhase) :
    (s.goto t p).phase t = p := by
  unfold goto
  exact Function.update_self t p s.phase

theorem goto_phase_of_ne (s : Connection τ) {t u : τ} (hne : u ≠ t) (p : TransactionPhase) :
    (s.goto t p).phase u = s.phase u := by
  unfold goto
  exact Function.update_of_ne hne p s.phase

/-! ## One thread at a time -/

/-- No other thread is in one of the calls or between them. -/
def Alone (s : Connection τ) (t : τ) : Prop := ∀ u, u ≠ t → s.phase u = .outside

theorem Alone.goto {s : Connection τ} {t : τ} (halone : s.Alone t) (p : TransactionPhase) :
    (s.goto t p).Alone t := by
  intro u hne
  rw [s.goto_phase_of_ne hne p]
  exact halone u hne

omit [DecidableEq τ] in
/-- The thread that holds the mutex is alone. -/
theorem Disciplined.alone_of_phase {s : Connection τ} (hs : s.Disciplined) {t : τ}
    (ht : s.phase t ≠ .outside) : s.Alone t := by
  intro u hne
  by_contra hu
  -- two threads inside would both hold the mutex
  have hmu : s.g_TransactionMutex = some u := (hs.mutex u).2 hu
  have hmt : s.g_TransactionMutex = some t := (hs.mutex t).2 ht
  rw [hmu] at hmt
  exact hne (Option.some.inj hmt)

omit [DecidableEq τ] in
/-- So is a thread that has just taken it. -/
theorem Disciplined.alone_of_free {s : Connection τ} (hs : s.Disciplined)
    (hfree : s.g_TransactionMutex = none) (t : τ) : s.Alone t := by
  intro u _
  by_contra hu
  have hmu : s.g_TransactionMutex = some u := (hs.mutex u).2 hu
  rw [hfree] at hmu
  cases hmu

/-- The discipline of a state where at most `t` is in one of the calls is about `t` only. -/
theorem Alone.disciplined_iff {s : Connection τ} {t : τ} (halone : s.Alone t) :
    s.Disciplined ↔ (s.bInTransaction = true ↔ (s.phase t).Holds) ∧
      s.g_TransactionMutex = (if s.phase t = .outside then none else some t) ∧
      (s.phase t = .ended → s.bInTransaction = false) := by
  have hholds : (∃ u, (s.phase u).Holds) ↔ (s.phase t).Holds := by
    constructor
    · rintro ⟨u, hu⟩
      by_cases hut : u = t
      · exact hut ▸ hu
      · rw [halone u hut] at hu
        exact hu.elim
    · exact fun ht => ⟨t, ht⟩
  constructor
  · intro hs
    refine ⟨hs.inTransaction.trans hholds, ?_, hs.closed t⟩
    split_ifs with ht
    · cases hm : s.g_TransactionMutex with
      | none => rfl
      | some u =>
        have hu : s.phase u ≠ .outside := (hs.mutex u).1 hm
        by_cases hut : u = t
        · exact absurd (hut ▸ ht) hu
        · exact absurd (halone u hut) hu
    · exact (hs.mutex t).2 ht
  · rintro ⟨hopen, hmutex, hclosed⟩
    refine ⟨hopen.trans hholds.symm, fun u => ?_, fun u hu => ?_⟩
    · by_cases hut : u = t
      · subst hut
        rw [hmutex]
        split_ifs with hu
        · simp [hu]
        · simp [hu]
      · have hne : ¬ t = u := fun heq => hut heq.symm
        rw [hmutex, halone u hut]
        split_ifs
        · simp
        · simp [hne]
    · by_cases hut : u = t
      · exact hclosed (hut ▸ hu)
      · rw [halone u hut] at hu
        cases hu

omit [DecidableEq τ] in
theorem disciplined_init : (init : Connection τ).Disciplined where
  inTransaction := by simp [init, Holds]
  mutex := by simp [init]
  closed := by simp [init]

/-! ## The step that breaks it -/

/-- A thread that is alone changes its place, the mutex and the connection. -/
theorem Alone.disciplined_goto_iff {s : Connection τ} {t : τ} (halone : s.Alone t)
    (mutex : Option τ) (bOpen : Bool) (p : TransactionPhase) :
    (⟨mutex, bOpen, (s.goto t p).phase⟩ : Connection τ).Disciplined ↔
      (bOpen = true ↔ p.Holds) ∧ mutex = (if p = .outside then none else some t) ∧
        (p = .ended → bOpen = false) := by
  have hafter : (⟨mutex, bOpen, (s.goto t p).phase⟩ : Connection τ).Alone t := halone.goto p
  rw [hafter.disciplined_iff, goto_phase]

/-- Taking the mutex keeps the discipline. -/
theorem Disciplined.lock {s s' : Connection τ} (hs : s.Disciplined) {t : τ} {p : TransactionPhase}
    (hp : ¬ p.Holds) (hin : p ≠ .outside) (hend : p ≠ .ended) (hlock : s.lock t p = some s') :
    s'.Disciplined := by
  unfold Connection.lock at hlock
  split_ifs at hlock with hfree
  rcases hfree with ⟨hout, hfree⟩
  cases hlock
  have halone : s.Alone t := hs.alone_of_free hfree t
  have hclosed : s.bInTransaction = true ↔ (s.phase t).Holds := (halone.disciplined_iff.1 hs).1
  rw [hout] at hclosed
  refine (halone.disciplined_goto_iff (some t) s.bInTransaction p).2 ⟨?_, ?_, ?_⟩
  · exact hclosed.trans ⟨fun h => h.elim, fun h => absurd h hp⟩
  · rw [if_neg hin]
  · exact fun h => absurd h hend

/-- A thread in one of the calls holds the mutex, and its place says whether a transaction is
open. -/
theorem Disciplined.of_phase {s : Connection τ} (hs : s.Disciplined) {t : τ}
    {p : TransactionPhase} (hphase : s.phase t = p) (hin : p ≠ .outside) :
    s.Alone t ∧ s.g_TransactionMutex = some t ∧ (s.bInTransaction = true ↔ p.Holds) := by
  subst hphase
  have halone : s.Alone t := hs.alone_of_phase hin
  exact ⟨halone, (hs.mutex t).2 hin, (halone.disciplined_iff.1 hs).1⟩

theorem Disciplined.begin {s s' : Connection τ} (hs : s.Disciplined) {t : τ} {bOk : Bool}
    (hnext : next s (t, .begin bOk) = some s') : s'.Disciplined := by
  rw [next, Option.ite_none_right_eq_some] at hnext
  rcases hnext with ⟨⟨hphase, _⟩, hs'⟩
  cases hs'
  rcases hs.of_phase hphase nofun with ⟨halone, hmutex, hopen⟩
  have hclosed : s.bInTransaction = false := Bool.eq_false_iff.2 hopen.1
  refine (halone.disciplined_goto_iff _ _ _).2 ?_
  rw [goto_mutex, hmutex, hclosed]
  cases bOk with
  | true => exact ⟨iff_of_true rfl trivial, rfl, nofun⟩
  | false => exact ⟨iff_of_false nofun id, rfl, nofun⟩

theorem Disciplined.endTransaction {s s' : Connection τ} (hs : s.Disciplined) {t : τ}
    {bSuccess : Bool} (hnext : next s (t, .endTransaction bSuccess) = some s') :
    s'.Disciplined := by
  rw [next, Option.ite_none_right_eq_some] at hnext
  rcases hnext with ⟨hphase, hs'⟩
  cases hs'
  rcases hs.of_phase hphase nofun with ⟨halone, hmutex, hopen⟩
  exact (halone.disciplined_goto_iff _ _ _).2 ⟨hopen, hmutex, nofun⟩

/-- The end of the transaction keeps it iff its statement succeeds. -/
theorem Disciplined.finish_iff {s s' : Connection τ} (hs : s.Disciplined) {t : τ} {bOk : Bool}
    (hnext : next s (t, .finish bOk) = some s') : s'.Disciplined ↔ bOk = true := by
  rw [next, Option.ite_none_right_eq_some] at hnext
  rcases hnext with ⟨⟨⟨bSuccess, hphase⟩, _⟩, hs'⟩
  cases hs'
  rcases hs.of_phase hphase nofun with ⟨halone, hmutex, hopen⟩
  have htrue : s.bInTransaction = true := hopen.2 trivial
  refine (halone.disciplined_goto_iff _ _ _).trans ?_
  rw [goto_mutex, hmutex, htrue]
  cases bOk with
  | true => exact iff_of_true ⟨iff_of_false nofun id, rfl, fun _ => rfl⟩ rfl
  -- the thread goes on as if the transaction were closed
  | false => exact iff_of_false (fun hall => nomatch hall.2.2 rfl) nofun

theorem Disciplined.vacuum {s s' : Connection τ} (hs : s.Disciplined) {t : τ} {bOk : Bool}
    (hnext : next s (t, .vacuum bOk) = some s') : s'.Disciplined := by
  rw [next, Option.ite_none_right_eq_some] at hnext
  rcases hnext with ⟨hphase, hs'⟩
  cases hs'
  rcases hs.of_phase hphase nofun with ⟨halone, hmutex, hopen⟩
  exact (halone.disciplined_goto_iff _ _ _).2 ⟨hopen, hmutex, nofun⟩

theorem Disciplined.unlock {s s' : Connection τ} (hs : s.Disciplined) {t : τ}
    (hnext : next s (t, .unlock) = some s') : s'.Disciplined := by
  rw [next, Option.ite_none_right_eq_some] at hnext
  rcases hnext with ⟨hleaves, hs'⟩
  cases hs'
  have hin : s.phase t ≠ .outside := by
    intro hout
    rw [hout] at hleaves
    exact hleaves
  rcases hs.of_phase rfl hin with ⟨halone, _, hopen⟩
  -- what is let go was not holding a transaction
  refine (halone.disciplined_goto_iff _ _ _).2 ⟨?_, rfl, nofun⟩
  exact hopen.trans (iff_of_false (not_holds_of_leaves hleaves) id)

theorem disciplined_next_iff {s s' : Connection τ} {a : τ × TransactionStep} (hs : s.Disciplined)
    (hnext : next s a = some s') : s'.Disciplined ↔ a.2 ≠ .finish false := by
  rcases a with ⟨t, step⟩
  cases step with
  | startTransaction => exact iff_of_true (hs.lock (p := .starting) id nofun nofun hnext) nofun
  | begin bOk => exact iff_of_true (hs.begin hnext) nofun
  | endTransaction bSuccess => exact iff_of_true (hs.endTransaction hnext) nofun
  | finish bOk =>
    refine (hs.finish_iff hnext).trans ?_
    simp
  | vacuumDb => exact iff_of_true (hs.lock (p := .vacuuming) id nofun nofun hnext) nofun
  | vacuum bOk => exact iff_of_true (hs.vacuum hnext) nofun
  | unlock => exact iff_of_true (hs.unlock hnext) nofun

/-! ## Runs -/

/-- Whatever the order of the steps, the discipline holds all the way iff no end of a transaction
fails. -/
theorem disciplined_runs_iff {run : List (τ × TransactionStep)} {s : Connection τ}
    (hrun : Lib.exec next init run = some s) :
    (∀ pre, pre <+: run → ∀ s', Lib.exec next init pre = some s' → s'.Disciplined) ↔
      ∀ a ∈ run, a.2 ≠ .finish false := by
  rw [← Lib.along_iff (fun s a s' => disciplined_next_iff) run init s disciplined_init hrun]
  constructor
  · exact Lib.forall_mem_of_along hrun
  · exact fun hall => Lib.along_of_forall_mem (fun a ha _ => hall a ha) init

/-- One thread ends its transaction while the other waits for the mutex, which vacuums then and is
asked for a transaction again. -/
def twoThreads : List (Bool × TransactionStep) :=
  [(false, .startTransaction), (false, .begin true), (false, .endTransaction true),
    (false, .finish true), (false, .unlock), (true, .vacuumDb), (true, .vacuum false),
    (true, .unlock), (true, .startTransaction), (true, .begin false), (true, .unlock)]

theorem disciplined_runs_iff_two :
    ∃ s : Connection Bool, Lib.exec next init twoThreads = some s ∧
      ∀ pre, pre <+: twoThreads → ∀ s', Lib.exec next init pre = some s' → s'.Disciplined := by
  obtain ⟨s, hrun⟩ : ∃ s : Connection Bool, Lib.exec next init twoThreads = some s := ⟨_, rfl⟩
  exact ⟨s, hrun, (disciplined_runs_iff hrun).2 (by decide)⟩

/-- The `END` of a thread fails: `EndTransaction` has returned and nobody is in the transaction. -/
theorem not_disciplined_failedEnd :
    ∃ s : Connection Bool, Lib.exec next init [(false, .startTransaction), (false, .begin true),
        (false, .endTransaction true), (false, .finish false), (false, .unlock)] = some s ∧
      s.bInTransaction = true ∧ s.g_TransactionMutex = none ∧ (∀ t, s.phase t = .outside) ∧
      ¬ s.Disciplined := by
  refine ⟨_, rfl, rfl, rfl, by decide, fun hs => ?_⟩
  rcases hs.inTransaction.1 rfl with ⟨t, ht⟩
  cases t with
  | false => exact ht
  | true => exact ht

/-! ## After a failed end -/

/-- A transaction is open that nobody will end. -/
structure Lost (s : Connection τ) : Prop where
  inTransaction : s.bInTransaction = true
  nobody : ∀ t, ¬ (s.phase t).Holds

theorem Disciplined.lost_of_finish {s s' : Connection τ} (hs : s.Disciplined) {t : τ}
    (hnext : next s (t, .finish false) = some s') : s'.Lost := by
  rw [next, Option.ite_none_right_eq_some] at hnext
  rcases hnext with ⟨⟨⟨bSuccess, hphase⟩, _⟩, hs'⟩
  cases hs'
  rcases hs.of_phase hphase nofun with ⟨halone, _, hopen⟩
  constructor
  · show (s.bInTransaction && !false) = true
    rw [hopen.2 trivial]
    rfl
  · intro u
    show ¬ ((s.goto t .ended).phase u).Holds
    by_cases hut : u = t
    · rw [hut, goto_phase]
      exact id
    · rw [s.goto_phase_of_ne hut, halone u hut]
      exact id

theorem Lost.goto {s : Connection τ} (hs : s.Lost) (t : τ) {p : TransactionPhase}
    (hp : ¬ p.Holds) (u : τ) : ¬ ((s.goto t p).phase u).Holds := by
  by_cases hut : u = t
  · rw [hut, goto_phase]
    exact hp
  · rw [s.goto_phase_of_ne hut]
    exact hs.nobody u

theorem Lost.lock {s s' : Connection τ} (hs : s.Lost) {t : τ} {p : TransactionPhase}
    (hp : ¬ p.Holds) (hlock : s.lock t p = some s') : s'.Lost := by
  unfold Connection.lock at hlock
  rw [Option.ite_none_right_eq_some] at hlock
  rcases hlock with ⟨_, hs'⟩
  cases hs'
  exact ⟨hs.inTransaction, hs.goto t hp⟩

/-- A step there is no successful start, and the transaction stays open. -/
theorem lost_next {s s' : Connection τ} {a : τ × TransactionStep} (hs : s.Lost)
    (hnext : next s a = some s') : a.2 ≠ .begin true ∧ s'.Lost := by
  rcases a with ⟨t, step⟩
  cases step with
  | startTransaction => exact ⟨nofun, hs.lock (p := .starting) id hnext⟩
  | begin bOk =>
    rw [next, Option.ite_none_right_eq_some] at hnext
    rcases hnext with ⟨⟨_, hfresh⟩, hs'⟩
    cases hs'
    cases bOk with
    | true =>
      have hclosed : s.bInTransaction = false := hfresh rfl
      rw [hs.inTransaction] at hclosed
      cases hclosed
    | false => exact ⟨nofun, by simp [hs.inTransaction], hs.goto t id⟩
  | endTransaction bSuccess =>
    rw [next, Option.ite_none_right_eq_some] at hnext
    rcases hnext with ⟨hphase, _⟩
    exact absurd (hphase ▸ trivial) (hs.nobody t)
  | finish bOk =>
    rw [next, Option.ite_none_right_eq_some] at hnext
    rcases hnext with ⟨⟨⟨bSuccess, hphase⟩, _⟩, _⟩
    exact absurd (hphase ▸ trivial) (hs.nobody t)
  | vacuumDb => exact ⟨nofun, hs.lock (p := .vacuuming) id hnext⟩
  | vacuum bOk =>
    rw [next, Option.ite_none_right_eq_some] at hnext
    rcases hnext with ⟨_, hs'⟩
    cases hs'
    exact ⟨nofun, hs.inTransaction, hs.goto t id⟩
  | unlock =>
    rw [next, Option.ite_none_right_eq_some] at hnext
    rcases hnext with ⟨_, hs'⟩
    cases hs'
    exact ⟨nofun, hs.inTransaction, hs.goto t id⟩

/-- From a failed end on, every `StartTransaction` of the run fails. -/
theorem lost_run {run : List (τ × TransactionStep)} {s s' : Connection τ} (hs : s.Lost)
    (hrun : Lib.exec next s run = some s') : s'.Lost ∧ ∀ a ∈ run, a.2 ≠ .begin true := by
  induction run generalizing s with
  | nil =>
    cases hrun
    exact ⟨hs, nofun⟩
  | cons a rest ih =>
    rw [Lib.exec_cons, Option.bind_eq_some_iff] at hrun
    rcases hrun with ⟨t, ht, hrest⟩
    have hstep : a.2 ≠ .begin true ∧ t.Lost := lost_next hs ht
    rcases ih hstep.2 hrest with ⟨hlost, hall⟩
    exact ⟨hlost, List.forall_mem_cons.2 ⟨hstep.1, hall⟩⟩

end Connection

end DeviceClient
