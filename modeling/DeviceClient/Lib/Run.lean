import Mathlib.Order.Basic

/-!
# Runs of a labelled transition function

A machine is a partial step function `next : σ → α → Option σ`: `none` says
that the label is not enabled. A run takes a list of labels in order.

* `Lib.exec`: the state a run ends in.
* `Lib.Along`: every step of a run meets a condition on the state before it.
* `Lib.exec_inv`: a predicate kept by every step that meets the condition
  holds after every run whose steps all meet it.
* `Lib.along_iff_of`: the condition under which a predicate holds all the way.
* `Lib.exec_total`: where those steps are all enabled, the run gets through.
-/

namespace Lib

variable {σ α : Type*}

/-- The state after the labels in order; `none` if one of them is not enabled. -/
def exec (next : σ → α → Option σ) : σ → List α → Option σ
  | s, [] => some s
  | s, a :: as => (next s a).bind fun s' => exec next s' as

/-- Every step of the run meets `ok`, stated of the state before the step and
its label. -/
def Along (next : σ → α → Option σ) (ok : σ → α → Prop) : σ → List α → Prop
  | _, [] => True
  | s, a :: as => ok s a ∧ ∀ s', next s a = some s' → Along next ok s' as

@[simp] theorem exec_nil (next : σ → α → Option σ) (s : σ) : exec next s [] = some s := rfl

@[simp] theorem exec_cons (next : σ → α → Option σ) (s : σ) (a : α) (as : List α) :
    exec next s (a :: as) = (next s a).bind fun s' => exec next s' as := rfl

theorem exec_append (next : σ → α → Option σ) (s : σ) (as bs : List α) :
    exec next s (as ++ bs) = (exec next s as).bind fun s' => exec next s' bs := by
  induction as generalizing s with
  | nil => rfl
  | cons a as ih =>
    rw [List.cons_append, exec_cons, exec_cons, Option.bind_assoc]
    congr 1
    funext s'
    exact ih s'

/-- Where every label is enabled in every state, a run is a fold. -/
theorem exec_some {f : σ → α → σ} (s : σ) (as : List α) :
    exec (fun s a => some (f s a)) s as = some (as.foldl f s) := by
  induction as generalizing s with
  | nil => rfl
  | cons a as ih =>
    rw [exec_cons, Option.bind_some, ih]
    rfl

/-- Where a label is enabled or not whatever the state, a run gets through iff all
its labels are. -/
theorem exec_isSome_iff {next : σ → α → Option σ} {ok : α → Prop}
    (h : ∀ s a, (next s a).isSome = true ↔ ok a) (s : σ) (as : List α) :
    (exec next s as).isSome = true ↔ ∀ a ∈ as, ok a := by
  induction as generalizing s with
  | nil => simp
  | cons a as ih =>
    rw [exec_cons, List.forall_mem_cons, ← h s a]
    cases hnext : next s a with
    | none => simp
    | some t =>
      rw [Option.bind_some, ih t]
      simp

@[simp] theorem along_nil (next : σ → α → Option σ) (ok : σ → α → Prop) (s : σ) :
    Along next ok s [] := trivial

theorem along_cons {next : σ → α → Option σ} {ok : σ → α → Prop} {s t : σ} {a : α} {as : List α}
    (hnext : next s a = some t) (hok : ok s a) (hrest : Along next ok t as) :
    Along next ok s (a :: as) := by
  refine ⟨hok, fun s' hs' => ?_⟩
  rw [hnext] at hs'
  cases hs'
  exact hrest

/-- A run of given labels can be checked step by step. -/
instance decidableAlong (next : σ → α → Option σ) (ok : σ → α → Prop)
    [∀ s a, Decidable (ok s a)] : ∀ s as, Decidable (Along next ok s as)
  | _, [] => .isTrue trivial
  | s, a :: as =>
    match hnext : next s a with
    | none => decidable_of_iff (ok s a) ⟨fun hok => ⟨hok, fun t ht => by
        rw [hnext] at ht
        cases ht⟩, fun halong => halong.1⟩
    | some t =>
      haveI := decidableAlong next ok t as
      decidable_of_iff (ok s a ∧ Along next ok t as)
        ⟨fun hboth => along_cons hnext hboth.1 hboth.2,
          fun halong => ⟨halong.1, halong.2 t hnext⟩⟩

/-- A condition on the steps may be weakened. -/
theorem Along.imp {next : σ → α → Option σ} {ok ok' : σ → α → Prop} (h : ∀ s a, ok s a → ok' s a)
    {s : σ} {as : List α} (halong : Along next ok s as) : Along next ok' s as := by
  induction as generalizing s with
  | nil => trivial
  | cons a as ih => exact ⟨h s a halong.1, fun s' hs' => ih (halong.2 s' hs')⟩

theorem Along.and {next : σ → α → Option σ} {ok ok' : σ → α → Prop} {s : σ} {as : List α}
    (h : Along next ok s as) (h' : Along next ok' s as) :
    Along next (fun s a => ok s a ∧ ok' s a) s as := by
  induction as generalizing s with
  | nil => trivial
  | cons a as ih =>
    exact ⟨⟨h.1, h'.1⟩, fun s' hs' => ih (h.2 s' hs') (h'.2 s' hs')⟩

/-- The same, where an invariant of the steps helps. -/
theorem Along.imp_inv {next : σ → α → Option σ} {ok ok' : σ → α → Prop} {P : σ → Prop}
    (hstep : ∀ s a s', P s → ok s a → next s a = some s' → P s')
    (h : ∀ s a, P s → ok s a → ok' s a) {s : σ} {as : List α} (hP : P s)
    (halong : Along next ok s as) : Along next ok' s as := by
  induction as generalizing s with
  | nil => trivial
  | cons a as ih =>
    refine ⟨h s a hP halong.1, fun s' hs' => ?_⟩
    exact ih (hstep s a s' hP halong.1 hs') (halong.2 s' hs')

/-- Induction over a run: what the steps that meet `ok` keep, the run keeps. -/
theorem exec_inv {next : σ → α → Option σ} {ok : σ → α → Prop} {P : σ → Prop}
    (hstep : ∀ s a s', P s → ok s a → next s a = some s' → P s') :
    ∀ (as : List α) (s s' : σ), P s → Along next ok s as → exec next s as = some s' → P s' := by
  intro as
  induction as with
  | nil =>
    intro s s' hP _ hrun
    have hs : s = s' := by simpa using hrun
    exact hs ▸ hP
  | cons a as ih =>
    intro s s' hP hok hrun
    rw [exec_cons, Option.bind_eq_some_iff] at hrun
    rcases hrun with ⟨t, ht, hrest⟩
    have hPt : P t := hstep s a t hP hok.1 ht
    exact ih t s' hPt (hok.2 t ht) hrest

/-- Where a step of given labels meets a condition iff it keeps a predicate, and keeps an
invariant anyway, all the steps of a run meet it iff the predicate holds all the way. -/
theorem along_iff_of {next : σ → α → Option σ} {ok : σ → α → Prop} {P G : σ → Prop} {Q : α → Prop}
    (hstep : ∀ s a s', Q a → G s → P s → next s a = some s' → G s' ∧ (P s' ↔ ok s a)) :
    ∀ (as : List α) (s s' : σ), (∀ a ∈ as, Q a) → G s → P s → exec next s as = some s' →
      (Along next ok s as ↔ ∀ pre, pre <+: as → ∀ t, exec next s pre = some t → P t) := by
  intro as
  induction as with
  | nil =>
    intro s s' _ _ hP _
    refine iff_of_true trivial fun pre hpre t ht => ?_
    rw [List.prefix_nil.1 hpre] at ht
    exact Option.some.inj ht ▸ hP
  | cons a as ih =>
    intro s s' hQ hG hP hrun
    rw [exec_cons, Option.bind_eq_some_iff] at hrun
    rcases hrun with ⟨t, ht, hrest⟩
    rcases hstep s a t (hQ a List.mem_cons_self) hG hP ht with ⟨hGt, hiff⟩
    have hQ' : ∀ b ∈ as, Q b := fun b hb => hQ b (List.mem_cons_of_mem a hb)
    constructor
    · rintro ⟨hok, halong⟩ pre hpre u hu
      have hPt := hiff.2 hok
      cases pre with
      | nil => exact Option.some.inj hu ▸ hP
      | cons b pre =>
        rcases List.cons_prefix_cons.1 hpre with ⟨rfl, hpre'⟩
        rw [exec_cons, ht] at hu
        exact (ih t s' hQ' hGt hPt hrest).1 (halong t ht) pre hpre' u hu
    · intro hall
      have hPt : P t := by
        refine hall [a] ⟨as, rfl⟩ t ?_
        rw [exec_cons, ht]
        rfl
      refine along_cons ht (hiff.1 hPt) ((ih t s' hQ' hGt hPt hrest).2 ?_)
      intro pre hpre u hu
      refine hall (a :: pre) (List.cons_prefix_cons.2 ⟨rfl, hpre⟩) u ?_
      rw [exec_cons, ht]
      exact hu

/-- The same of all labels, without an invariant. -/
theorem along_iff {next : σ → α → Option σ} {ok : σ → α → Prop} {P : σ → Prop}
    (hstep : ∀ s a s', P s → next s a = some s' → (P s' ↔ ok s a)) :
    ∀ (as : List α) (s s' : σ), P s → exec next s as = some s' →
      (Along next ok s as ↔ ∀ pre, pre <+: as → ∀ t, exec next s pre = some t → P t) := by
  intro as s s' hP hrun
  refine @along_iff_of σ α next ok P (fun _ => True) (fun _ => True) ?_ as s s'
    (fun _ _ => trivial) trivial hP hrun
  exact fun s a s' _ _ hs hnext => ⟨trivial, hstep s a s' hs hnext⟩

/-- A condition that the labels of a run meet in every state. -/
theorem along_of_forall_mem {next : σ → α → Option σ} {ok : σ → α → Prop} {as : List α}
    (h : ∀ a ∈ as, ∀ s, ok s a) (s : σ) : Along next ok s as := by
  induction as generalizing s with
  | nil => trivial
  | cons a as ih =>
    refine ⟨h a List.mem_cons_self s, fun s' _ => ?_⟩
    exact ih (fun b hb => h b (List.mem_cons_of_mem a hb)) s'

/-- The labels of a run that gets through meet a condition that does not depend on the state. -/
theorem forall_mem_of_along {next : σ → α → Option σ} {ok : α → Prop} {as : List α} {s s' : σ}
    (hrun : exec next s as = some s') (halong : Along next (fun _ a => ok a) s as) :
    ∀ a ∈ as, ok a := by
  induction as generalizing s with
  | nil => exact fun a ha => absurd ha List.not_mem_nil
  | cons b as ih =>
    rw [exec_cons, Option.bind_eq_some_iff] at hrun
    rcases hrun with ⟨t, ht, hrest⟩
    exact List.forall_mem_cons.2 ⟨halong.1, ih hrest (halong.2 t ht)⟩

/-- A condition that never fails is met along every run. -/
theorem along_of_forall {next : σ → α → Option σ} {ok : σ → α → Prop} (h : ∀ s a, ok s a)
    (as : List α) (s : σ) : Along next ok s as :=
  along_of_forall_mem (fun a _ s => h s a) s

/-- The unconditional rule. -/
theorem exec_inv_all {next : σ → α → Option σ} {P : σ → Prop}
    (hstep : ∀ s a s', P s → next s a = some s' → P s')
    {as : List α} {s s' : σ} (hP : P s) (hrun : exec next s as = some s') : P s' := by
  have htrue : Along next (fun _ _ => True) s as := along_of_forall (fun _ _ => trivial) as s
  have hkeep : ∀ s a s', P s → True → next s a = some s' → P s' :=
    fun s a s' hs _ => hstep s a s' hs
  exact exec_inv hkeep as s s' hP htrue hrun

/-- What is kept by steps that are all enabled: the run gets through. -/
theorem exec_total {next : σ → α → Option σ} {ok : α → Prop} {P : σ → Prop}
    (hstep : ∀ s a, P s → ok a → ∃ s', next s a = some s' ∧ P s') {as : List α} {s : σ}
    (hP : P s) (hok : ∀ a ∈ as, ok a) : ∃ s', exec next s as = some s' ∧ P s' := by
  induction as generalizing s with
  | nil => exact ⟨s, rfl, hP⟩
  | cons a as ih =>
    rcases hstep s a hP (hok a List.mem_cons_self) with ⟨t, hnext, hPt⟩
    rcases ih hPt (fun b hb => hok b (List.mem_cons_of_mem a hb)) with ⟨s', hrun, hPs'⟩
    refine ⟨s', ?_, hPs'⟩
    rw [exec_cons, hnext]
    exact hrun

end Lib
