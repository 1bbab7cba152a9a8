import DeviceClient.Upload.MidHandler
import Mathlib.Data.List.Induction
import Mathlib.Data.List.Nodup

/-!
# Registration meets acknowledgement

Runs of `SetMidTable` and `ProcessPublishedMid` after `InitMid`, in any order,
with the worker taking entries in between. Each mid is registered at most once
and acknowledged at most once.

The pairing is right as long as the queue takes the entry: `ClearMid` ignores a
`Put` that gave up on the lock, and the entry is then in no container at all.

* `pairInv_run`: where every mid is after any such run.
* `rendezvous_iff`: the pairing is right iff no mid is dropped that way.
-/

namespace DeviceClient

namespace MidHandler

variable {τ : Type}

/-! ## Runs -/

/-- One call, with the number of failed attempts at the lock of the queue. -/
inductive Call (τ : Type) where
  | setMidTable (nMid : ℤ) (rstrTable : τ) (nFails : ℕ)
  | processPublishedMid (nMid : ℤ) (nFails : ℕ)
  /-- The worker takes the oldest entry, if there is one. -/
  | take
deriving DecidableEq, Repr

/-- The handler and the entries that the worker has taken so far. -/
structure Pairing (τ : Type) where
  handler : MidHandler τ
  taken : List (MidTable τ)

namespace Pairing

def step (s : Pairing τ) : Call τ → Pairing τ
  | .setMidTable nMid rstrTable nFails =>
    { s with handler := (s.handler.setMidTable nMid rstrTable nFails).2 }
  | .processPublishedMid nMid nFails =>
    { s with handler := (s.handler.processPublishedMid nMid nFails).2 }
  | .take =>
    match s.handler.queMidTobeDeleted.take with
    | some (pMt, que) =>
      { handler := { s.handler with queMidTobeDeleted := que }, taken := s.taken ++ [pMt] }
    | none => s

def run (s : Pairing τ) (calls : List (Call τ)) : Pairing τ := calls.foldl step s

/-- The handler right after `InitMid`. -/
def afterInit (h : MidHandler τ) (nFails : ℤ → ℕ) : Pairing τ := ⟨h.initMid nFails, []⟩

/-- Every entry ever put into the queue, oldest first. -/
def enqueued (s : Pairing τ) : List (MidTable τ) := s.taken ++ s.handler.queued

/-- The entries put into the queue since `s₀`. -/
def enqueuedSince (s₀ s : Pairing τ) : List (MidTable τ) := s.enqueued.drop s₀.enqueued.length

end Pairing

/-- The registrations of a run. -/
def registered (calls : List (Call τ)) : List (ℤ × τ) :=
  calls.filterMap fun
    | .setMidTable nMid rstrTable _ => some (nMid, rstrTable)
    | _ => none

/-- The acknowledgements of a run. -/
def acknowledged (calls : List (Call τ)) : List ℤ :=
  calls.filterMap fun
    | .processPublishedMid nMid _ => some nMid
    | _ => none

/-- Each mid is registered at most once and acknowledged at most once. -/
structure AtMostOnce (calls : List (Call τ)) : Prop where
  nodup_registered : ((registered calls).map Prod.fst).Nodup
  nodup_acknowledged : (acknowledged calls).Nodup

/-- The mid of a call that comes second, after the calls `before`, and does not
get the lock of the queue. -/
def dropsMid (before : List (Call τ)) : Call τ → List ℤ
  | .setMidTable nMid _ nFails =>
    if nMid ∈ acknowledged before ∧ MAX_LOCK_RETRIES ≤ nFails then [nMid] else []
  | .processPublishedMid nMid nFails =>
    if nMid ∈ (registered before).map Prod.fst ∧ MAX_LOCK_RETRIES ≤ nFails then [nMid] else []
  | .take => []

/-- The mids dropped by the calls that follow `before`. -/
def droppedAfter (before : List (Call τ)) : List (Call τ) → List ℤ
  | [] => []
  | c :: rest => dropsMid before c ++ droppedAfter (before ++ [c]) rest

/-- Every call that comes second for its mid gets the lock of the queue. -/
def SecondCallsLocked (calls : List (Call τ)) : Prop := droppedAfter [] calls = []

/-- Registration and acknowledgement have met for every mid that got both. -/
structure Rendezvous (calls : List (Call τ)) (s₀ s : Pairing τ) : Prop where
  disjoint : ∀ m, ¬ (m ∈ s.handler.setPublishedMidSet ∧ (s.handler.mapMidDBTableMap m).isSome)
  both : ∀ m t, (m, t) ∈ registered calls → m ∈ acknowledged calls →
    ⟨m, t⟩ ∈ s₀.enqueuedSince s ∧ ((s₀.enqueuedSince s).map MidTable.nMid).count m = 1 ∧
      m ∉ s.handler.setPublishedMidSet ∧ s.handler.mapMidDBTableMap m = none
  single : ∀ m, ¬ (m ∈ (registered calls).map Prod.fst ∧ m ∈ acknowledged calls) →
    m ∉ (s₀.enqueuedSince s).map MidTable.nMid

/-! ## Lists of calls -/

theorem registered_append (calls : List (Call τ)) (c : Call τ) :
    registered (calls ++ [c]) = registered calls ++ registered [c] := by
  simp [registered]

theorem acknowledged_append (calls : List (Call τ)) (c : Call τ) :
    acknowledged (calls ++ [c]) = acknowledged calls ++ acknowledged [c] := by
  simp [acknowledged]

theorem droppedAfter_append (calls : List (Call τ)) (c : Call τ) :
    ∀ before, droppedAfter before (calls ++ [c]) =
      droppedAfter before calls ++ dropsMid (before ++ calls) c := by
  induction calls with
  | nil =>
    intro before
    simp [droppedAfter]
  | cons d calls ih =>
    intro before
    show dropsMid before d ++ droppedAfter (before ++ [d]) (calls ++ [c]) = _
    rw [ih (before ++ [d])]
    simp [droppedAfter]

theorem dropped_append (calls : List (Call τ)) (c : Call τ) :
    droppedAfter [] (calls ++ [c]) = droppedAfter [] calls ++ dropsMid calls c :=
  droppedAfter_append calls c []

theorem AtMostOnce.init {calls : List (Call τ)} {c : Call τ} (h : AtMostOnce (calls ++ [c])) :
    AtMostOnce calls := by
  have hr := h.nodup_registered
  have ha := h.nodup_acknowledged
  rw [registered_append, List.map_append] at hr
  rw [acknowledged_append] at ha
  exact ⟨(List.nodup_append.1 hr).1, (List.nodup_append.1 ha).1⟩

/-- A registration is the first of its mid. -/
theorem AtMostOnce.not_registered {calls : List (Call τ)} {m : ℤ} {t : τ} {n : ℕ}
    (h : AtMostOnce (calls ++ [.setMidTable m t n])) : m ∉ (registered calls).map Prod.fst := by
  have hr := h.nodup_registered
  rw [registered_append, List.map_append] at hr
  intro hm
  exact (List.nodup_append.1 hr).2.2 m hm m (by simp [registered]) rfl

/-- An acknowledgement is the first of its mid. -/
theorem AtMostOnce.not_acknowledged {calls : List (Call τ)} {m : ℤ} {n : ℕ}
    (h : AtMostOnce (calls ++ [.processPublishedMid m n])) : m ∉ acknowledged calls := by
  have ha := h.nodup_acknowledged
  rw [acknowledged_append] at ha
  intro hm
  exact (List.nodup_append.1 ha).2.2 m hm m (by simp [acknowledged]) rfl

/-! ## Where every mid is -/

/-- The containers after `calls`, and the entries `new` put into the queue by
them: a mid with one call only waits in the container of that call, a mid with
both is in the queue's history once, unless it was dropped. -/
structure PairInv (calls : List (Call τ)) (s : Pairing τ) (new : List (MidTable τ)) : Prop where
  set_iff : ∀ m, m ∈ s.handler.setPublishedMidSet ↔
    m ∈ acknowledged calls ∧ m ∉ (registered calls).map Prod.fst
  map_iff : ∀ m t, s.handler.mapMidDBTableMap m = some t ↔
    (m, t) ∈ registered calls ∧ m ∉ acknowledged calls
  new_iff : ∀ m t, ⟨m, t⟩ ∈ new ↔
    (m, t) ∈ registered calls ∧ m ∈ acknowledged calls ∧ m ∉ droppedAfter [] calls
  nodup : (new.map MidTable.nMid).Nodup
  dropped : ∀ m ∈ droppedAfter [] calls,
    m ∈ (registered calls).map Prod.fst ∧ m ∈ acknowledged calls

/-- Appending the entry of a mid that is not there yet keeps the mids distinct. -/
theorem nodup_append_cleared {new : List (MidTable τ)} {m : ℤ} {t : τ} {n : ℕ}
    (h : (new.map MidTable.nMid).Nodup) (hm : ∀ t', ⟨m, t'⟩ ∉ new) :
    ((new ++ cleared m t n).map MidTable.nMid).Nodup := by
  unfold cleared
  split
  · rw [List.map_append, List.nodup_append]
    refine ⟨h, by simp, ?_⟩
    intro a ha b hb hab
    rcases List.mem_map.1 ha with ⟨e, he, rfl⟩
    have hb' : b = m := by simpa using hb
    have hem : e = ⟨m, e.strTable⟩ := by
      rw [← hb', ← hab]
    rw [hem] at he
    exact hm e.strTable he
  · rw [List.append_nil]
    exact h

theorem mem_append_cleared {new : List (MidTable τ)} {m m' : ℤ} {t t' : τ} {n : ℕ} :
    ⟨m', t'⟩ ∈ new ++ cleared m t n ↔
      ⟨m', t'⟩ ∈ new ∨ (m' = m ∧ t' = t ∧ n < MAX_LOCK_RETRIES) := by
  unfold cleared
  split <;> simp_all

theorem registered_setMidTable (calls : List (Call τ)) (m : ℤ) (t : τ) (n : ℕ) :
    registered (calls ++ [.setMidTable m t n]) = registered calls ++ [(m, t)] :=
  registered_append calls _

theorem acknowledged_setMidTable (calls : List (Call τ)) (m : ℤ) (t : τ) (n : ℕ) :
    acknowledged (calls ++ [.setMidTable m t n]) = acknowledged calls := by
  rw [acknowledged_append]
  exact List.append_nil _

theorem registered_processPublishedMid (calls : List (Call τ)) (m : ℤ) (n : ℕ) :
    registered (calls ++ [.processPublishedMid m n]) = registered calls := by
  rw [registered_append]
  exact List.append_nil _

theorem acknowledged_processPublishedMid (calls : List (Call τ)) (m : ℤ) (n : ℕ) :
    acknowledged (calls ++ [.processPublishedMid m n]) = acknowledged calls ++ [m] :=
  acknowledged_append calls _

/-- The acknowledgement came first: the registration sends the mid to the queue. -/
theorem pairInv_setMidTable_of_mem {calls : List (Call τ)} {s : Pairing τ}
    {new : List (MidTable τ)} {m : ℤ} (h : PairInv calls s new)
    (hm : m ∉ (registered calls).map Prod.fst) (hset : m ∈ s.handler.setPublishedMidSet) (t : τ)
    (n : ℕ) :
    PairInv (calls ++ [.setMidTable m t n]) (s.step (.setMidTable m t n))
      (new ++ cleared m t n) := by
  have hreg := registered_setMidTable calls m t n
  have hack := acknowledged_setMidTable calls m t n
  have hfst : ∀ t', (m, t') ∉ registered calls := fun t' ht' =>
    hm (List.mem_map.2 ⟨(m, t'), ht', rfl⟩)
  -- the mid was not registered before, so nothing was queued for it
  have hnew : ∀ t', ⟨m, t'⟩ ∉ new := fun t' ht' => hfst t' ((h.new_iff m t').1 ht').1
  have hfresh : m ∉ droppedAfter [] calls := fun hd => hm (h.dropped m hd).1
  have hacked : m ∈ acknowledged calls := ((h.set_iff m).1 hset).1
  rcases setMidTable_of_mem hset t n with ⟨hs, hmap, _⟩
  constructor
  · intro m'
    show m' ∈ (s.handler.setMidTable m t n).2.setPublishedMidSet ↔ _
    rw [hs, Lib.SortedSet.mem_erase, h.set_iff, hreg, hack, List.map_append, List.mem_append]
    simp only [List.map_cons, List.map_nil, List.mem_singleton]
    tauto
  · intro m' t'
    show (s.handler.setMidTable m t n).2.mapMidDBTableMap m' = some t' ↔ _
    rw [hmap, h.map_iff, hreg, hack, List.mem_append, List.mem_singleton, Prod.mk.injEq]
    grind
  · intro m' t'
    rw [mem_append_cleared, h.new_iff, hreg, hack, dropped_append, List.mem_append, List.mem_append,
      List.mem_singleton, Prod.mk.injEq]
    simp only [dropsMid, hacked, true_and]
    grind
  · exact nodup_append_cleared h.nodup hnew
  · intro m' hm'
    rw [dropped_append, List.mem_append] at hm'
    rw [hreg, hack, List.map_append, List.mem_append]
    rcases hm' with hd | hd
    · exact ⟨Or.inl (h.dropped m' hd).1, (h.dropped m' hd).2⟩
    · simp only [dropsMid, hacked, true_and] at hd
      grind

/-- The registration comes first: the mid waits for its acknowledgement. -/
theorem pairInv_setMidTable_of_not_mem {calls : List (Call τ)} {s : Pairing τ}
    {new : List (MidTable τ)} {m : ℤ} (h : PairInv calls s new)
    (hm : m ∉ (registered calls).map Prod.fst) (hset : m ∉ s.handler.setPublishedMidSet) (t : τ)
    (n : ℕ) :
    PairInv (calls ++ [.setMidTable m t n]) (s.step (.setMidTable m t n)) new := by
  have hreg := registered_setMidTable calls m t n
  have hack := acknowledged_setMidTable calls m t n
  have hfst : ∀ t', (m, t') ∉ registered calls := fun t' ht' =>
    hm (List.mem_map.2 ⟨(m, t'), ht', rfl⟩)
  have hnot : m ∉ acknowledged calls := fun ha => hset ((h.set_iff m).2 ⟨ha, hm⟩)
  rcases setMidTable_of_not_mem hset t n with ⟨hs, hmap, _⟩
  have hdrop' : droppedAfter [] (calls ++ [Call.setMidTable m t n]) = droppedAfter [] calls := by
    rw [dropped_append]
    simp [dropsMid, hnot]
  constructor
  · intro m'
    show m' ∈ (s.handler.setMidTable m t n).2.setPublishedMidSet ↔ _
    rw [hs, h.set_iff, hreg, hack, List.map_append, List.mem_append]
    simp only [List.map_cons, List.map_nil, List.mem_singleton]
    grind
  · intro m' t'
    show (s.handler.setMidTable m t n).2.mapMidDBTableMap m' = some t' ↔ _
    rw [hmap, hreg, hack, List.mem_append, List.mem_singleton, Prod.mk.injEq]
    -- the mid enters the map, the others stay
    by_cases hmm : m' = m
    · subst hmm
      rw [Function.update_self]
      grind
    · rw [Function.update_of_ne hmm, h.map_iff]
      grind
  · intro m' t'
    rw [h.new_iff, hreg, hack, hdrop', List.mem_append, List.mem_singleton, Prod.mk.injEq]
    clear hdrop'
    grind
  · exact h.nodup
  · intro m' hm'
    rw [hdrop'] at hm'
    rw [hreg, hack, List.map_append, List.mem_append]
    exact ⟨Or.inl (h.dropped m' hm').1, (h.dropped m' hm').2⟩

/-- A registration keeps the invariant. -/
theorem pairInv_setMidTable {calls : List (Call τ)} {s : Pairing τ} {new : List (MidTable τ)}
    {m : ℤ} {t : τ} {n : ℕ} (h : PairInv calls s new) (hm : m ∉ (registered calls).map Prod.fst) :
    ∃ add, (s.step (.setMidTable m t n)).enqueued = s.enqueued ++ add ∧
      PairInv (calls ++ [.setMidTable m t n]) (s.step (.setMidTable m t n)) (new ++ add) := by
  by_cases hset : m ∈ s.handler.setPublishedMidSet
  · refine ⟨cleared m t n, ?_, pairInv_setMidTable_of_mem h hm hset t n⟩
    show s.taken ++ (s.handler.setMidTable m t n).2.queued = _
    rw [(setMidTable_of_mem hset t n).2.2, ← List.append_assoc]
    rfl
  · refine ⟨[], ?_, ?_⟩
    · show s.taken ++ (s.handler.setMidTable m t n).2.queued = _
      rw [(setMidTable_of_not_mem hset t n).2.2, List.append_nil]
      rfl
    · rw [List.append_nil]
      exact pairInv_setMidTable_of_not_mem h hm hset t n

/-- The registration came first: the acknowledgement sends the mid to the queue. -/
theorem pairInv_processPublishedMid_of_some {calls : List (Call τ)} {s : Pairing τ}
    {new : List (MidTable τ)} {m : ℤ} {t : τ} (h : PairInv calls s new)
    (hm : m ∉ acknowledged calls) (hmap : s.handler.mapMidDBTableMap m = some t) (n : ℕ) :
    PairInv (calls ++ [.processPublishedMid m n]) (s.step (.processPublishedMid m n))
      (new ++ cleared m t n) := by
  have hreg := registered_processPublishedMid calls m n
  have hack := acknowledged_processPublishedMid calls m n
  have hnew : ∀ t', ⟨m, t'⟩ ∉ new := fun t' ht' => hm ((h.new_iff m t').1 ht').2.1
  have hfresh : m ∉ droppedAfter [] calls := fun hd => hm (h.dropped m hd).2
  have hmt : (m, t) ∈ registered calls := ((h.map_iff m t).1 hmap).1
  have hmem : m ∈ (registered calls).map Prod.fst := List.mem_map.2 ⟨(m, t), hmt, rfl⟩
  -- a mid is registered once
  have huniq : ∀ t', (m, t') ∈ registered calls → t' = t := by
    intro t' ht'
    have hmap' := (h.map_iff m t').2 ⟨ht', hm⟩
    rw [hmap] at hmap'
    exact (Option.some.inj hmap').symm
  rcases processPublishedMid_of_some hmap n with ⟨hs, hmap', _⟩
  constructor
  · intro m'
    show m' ∈ (s.handler.processPublishedMid m n).2.setPublishedMidSet ↔ _
    rw [hs, h.set_iff, hreg, hack, List.mem_append, List.mem_singleton]
    grind
  · intro m' t'
    show (s.handler.processPublishedMid m n).2.mapMidDBTableMap m' = some t' ↔ _
    rw [hmap', hreg, hack, List.mem_append, List.mem_singleton]
    -- the mid leaves the map, the others stay
    by_cases hmm : m' = m
    · subst hmm
      rw [Function.update_self]
      grind
    · rw [Function.update_of_ne hmm, h.map_iff]
      grind
  · intro m' t'
    rw [mem_append_cleared, h.new_iff, hreg, hack, dropped_append, List.mem_append, List.mem_append,
      List.mem_singleton]
    simp only [dropsMid, hmem, true_and]
    grind
  · exact nodup_append_cleared h.nodup hnew
  · intro m' hm'
    rw [dropped_append, List.mem_append] at hm'
    rw [hreg, hack, List.mem_append]
    rcases hm' with hd | hd
    · exact ⟨(h.dropped m' hd).1, Or.inl (h.dropped m' hd).2⟩
    · simp only [dropsMid, hmem, true_and] at hd
      grind

/-- The acknowledgement comes first: the mid waits for its registration. -/
theorem pairInv_processPublishedMid_of_none {calls : List (Call τ)} {s : Pairing τ}
    {new : List (MidTable τ)} {m : ℤ} (h : PairInv calls s new) (hm : m ∉ acknowledged calls)
    (hmap : s.handler.mapMidDBTableMap m = none) (n : ℕ) :
    PairInv (calls ++ [.processPublishedMid m n]) (s.step (.processPublishedMid m n)) new := by
  have hreg := registered_processPublishedMid calls m n
  have hack := acknowledged_processPublishedMid calls m n
  have hnot : m ∉ (registered calls).map Prod.fst := by
    intro hr
    rcases List.mem_map.1 hr with ⟨⟨m', t⟩, hmt, rfl⟩
    have hsome := (h.map_iff m' t).2 ⟨hmt, hm⟩
    rw [hmap] at hsome
    cases hsome
  have hfst : ∀ t', (m, t') ∉ registered calls := fun t' ht' =>
    hnot (List.mem_map.2 ⟨(m, t'), ht', rfl⟩)
  rcases processPublishedMid_of_none hmap n with ⟨hs, hmap', _⟩
  have hdrop' : droppedAfter [] (calls ++ [Call.processPublishedMid m n]) =
      droppedAfter [] calls := by
    rw [dropped_append]
    simp only [dropsMid, hnot, false_and, if_false, List.append_nil]
  constructor
  · intro m'
    show m' ∈ (s.handler.processPublishedMid m n).2.setPublishedMidSet ↔ _
    rw [hs, Lib.SortedSet.mem_insert, h.set_iff, hreg, hack, List.mem_append, List.mem_singleton]
    grind
  · intro m' t'
    show (s.handler.processPublishedMid m n).2.mapMidDBTableMap m' = some t' ↔ _
    rw [hmap', h.map_iff, hreg, hack, List.mem_append, List.mem_singleton]
    grind
  · intro m' t'
    rw [h.new_iff, hreg, hack, hdrop', List.mem_append, List.mem_singleton]
    clear hdrop'
    grind
  · exact h.nodup
  · intro m' hm'
    rw [hdrop'] at hm'
    rw [hreg, hack, List.mem_append]
    exact ⟨(h.dropped m' hm').1, Or.inl (h.dropped m' hm').2⟩

/-- An acknowledgement keeps the invariant. -/
theorem pairInv_processPublishedMid {calls : List (Call τ)} {s : Pairing τ}
    {new : List (MidTable τ)} {m : ℤ} {n : ℕ} (h : PairInv calls s new)
    (hm : m ∉ acknowledged calls) :
    ∃ add, (s.step (.processPublishedMid m n)).enqueued = s.enqueued ++ add ∧
      PairInv (calls ++ [.processPublishedMid m n]) (s.step (.processPublishedMid m n))
        (new ++ add) := by
  cases hmap : s.handler.mapMidDBTableMap m with
  | some t =>
    refine ⟨cleared m t n, ?_, pairInv_processPublishedMid_of_some h hm hmap n⟩
    show s.taken ++ (s.handler.processPublishedMid m n).2.queued = _
    rw [(processPublishedMid_of_some hmap n).2.2, ← List.append_assoc]
    rfl
  | none =>
    refine ⟨[], ?_, ?_⟩
    · show s.taken ++ (s.handler.processPublishedMid m n).2.queued = _
      rw [(processPublishedMid_of_none hmap n).2.2, List.append_nil]
      rfl
    · rw [List.append_nil]
      exact pairInv_processPublishedMid_of_none h hm hmap n

/-- The worker moves an entry out of the queue; nothing is put into it. -/
theorem pairInv_take {calls : List (Call τ)} {s : Pairing τ} {new : List (MidTable τ)}
    (h : PairInv calls s new) :
    (s.step .take).enqueued = s.enqueued ∧ PairInv (calls ++ [.take]) (s.step .take) new := by
  have hreg : registered (calls ++ [Call.take]) = registered calls := by
    rw [registered_append]
    exact List.append_nil _
  have hack : acknowledged (calls ++ [Call.take]) = acknowledged calls := by
    rw [acknowledged_append]
    exact List.append_nil _
  have hdrop : droppedAfter [] (calls ++ [Call.take]) = droppedAfter [] calls := by
    rw [dropped_append]
    exact List.append_nil _
  have hkeep : (s.step .take).enqueued = s.enqueued ∧
      (s.step .take).handler.setPublishedMidSet = s.handler.setPublishedMidSet ∧
      (s.step .take).handler.mapMidDBTableMap = s.handler.mapMidDBTableMap := by
    unfold Pairing.step
    cases htake : s.handler.queMidTobeDeleted.take with
    | none => exact ⟨rfl, rfl, rfl⟩
    | some r =>
      rcases r with ⟨pMt, que⟩
      have hvals := ConcurrentQueue.take_eq_some htake
      refine ⟨?_, rfl, rfl⟩
      show (s.taken ++ [pMt]) ++ que.values = s.taken ++ s.handler.queMidTobeDeleted.values
      rw [hvals, List.append_assoc]
      rfl
  rcases hkeep with ⟨henq, hs, hmap⟩
  refine ⟨henq, ?_⟩
  constructor
  · rw [hs, hreg, hack]
    exact h.set_iff
  · rw [hmap, hreg, hack]
    exact h.map_iff
  · rw [hreg, hack, hdrop]
    exact h.new_iff
  · exact h.nodup
  · rw [hreg, hack, hdrop]
    exact h.dropped

theorem pairInv_afterInit (h : MidHandler τ) (nFails : ℤ → ℕ) :
    PairInv [] (Pairing.afterInit h nFails) [] := by
  constructor <;> simp [Pairing.afterInit, registered, acknowledged, droppedAfter]

/-- Where every mid is after a run. -/
theorem pairInv_run (h : MidHandler τ) (nFails : ℤ → ℕ) (calls : List (Call τ))
    (hcalls : AtMostOnce calls) :
    ∃ new, ((Pairing.afterInit h nFails).run calls).enqueued =
        (Pairing.afterInit h nFails).enqueued ++ new ∧
      PairInv calls ((Pairing.afterInit h nFails).run calls) new := by
  induction calls using List.reverseRecOn with
  | nil => exact ⟨[], by simp [Pairing.run], pairInv_afterInit h nFails⟩
  | append_singleton calls c ih =>
    rcases ih hcalls.init with ⟨new, henq, hinv⟩
    have hstep : (Pairing.afterInit h nFails).run (calls ++ [c]) =
        ((Pairing.afterInit h nFails).run calls).step c := by
      simp [Pairing.run]
    rw [hstep]
    cases c with
    | setMidTable m t n =>
      rcases pairInv_setMidTable hinv hcalls.not_registered with ⟨add, hadd, hinv'⟩
      exact ⟨new ++ add, by rw [hadd, henq, List.append_assoc], hinv'⟩
    | processPublishedMid m n =>
      rcases pairInv_processPublishedMid hinv hcalls.not_acknowledged with ⟨add, hadd, hinv'⟩
      exact ⟨new ++ add, by rw [hadd, henq, List.append_assoc], hinv'⟩
    | take =>
      rcases pairInv_take hinv with ⟨hsame, hinv'⟩
      exact ⟨new, by rw [hsame, henq], hinv'⟩

/-! ## The rendezvous -/

/-- The pairing is right exactly if no mid is dropped at the queue. -/
theorem rendezvous_iff (h : MidHandler τ) (nFails : ℤ → ℕ) (calls : List (Call τ))
    (hcalls : AtMostOnce calls) :
    Rendezvous calls (Pairing.afterInit h nFails) ((Pairing.afterInit h nFails).run calls) ↔
      SecondCallsLocked calls := by
  rcases pairInv_run h nFails calls hcalls with ⟨new, henq, hinv⟩
  have hsince : (Pairing.afterInit h nFails).enqueuedSince
      ((Pairing.afterInit h nFails).run calls) = new := by
    unfold Pairing.enqueuedSince
    rw [henq, List.drop_left]
  constructor
  · intro hr
    -- a dropped mid got both calls, and would have to be in the queue's history
    refine List.eq_nil_iff_forall_not_mem.2 fun m hm => ?_
    rcases hinv.dropped m hm with ⟨hreg, hack⟩
    rcases List.mem_map.1 hreg with ⟨⟨m', t⟩, hmt, rfl⟩
    have hboth := (hr.both m' t hmt hack).1
    rw [hsince] at hboth
    exact ((hinv.new_iff m' t).1 hboth).2.2 hm
  · intro hlocked
    have hnone : ∀ m, m ∉ droppedAfter [] calls := by
      intro m hm
      rw [show droppedAfter [] calls = [] from hlocked] at hm
      cases hm
    constructor
    · rintro m ⟨hset, hmap⟩
      rcases Option.isSome_iff_exists.1 hmap with ⟨t, ht⟩
      exact ((hinv.map_iff m t).1 ht).2 ((hinv.set_iff m).1 hset).1
    · intro m t hmt hack
      have hreg : m ∈ (registered calls).map Prod.fst := List.mem_map.2 ⟨(m, t), hmt, rfl⟩
      have hmem : ⟨m, t⟩ ∈ new := (hinv.new_iff m t).2 ⟨hmt, hack, hnone m⟩
      rw [hsince]
      refine ⟨hmem, ?_, fun hset => ((hinv.set_iff m).1 hset).2 hreg, ?_⟩
      · exact List.count_eq_one_of_mem hinv.nodup (List.mem_map.2 ⟨⟨m, t⟩, hmem, rfl⟩)
      · cases hmap : ((Pairing.afterInit h nFails).run calls).handler.mapMidDBTableMap m with
        | none => rfl
        | some t' => exact absurd hack ((hinv.map_iff m t').1 hmap).2
    · intro m hsingle hm
      rw [hsince] at hm
      rcases List.mem_map.1 hm with ⟨e, he, rfl⟩
      have hnew := (hinv.new_iff e.nMid e.strTable).1 he
      exact hsingle ⟨List.mem_map.2 ⟨(e.nMid, e.strTable), hnew.1, rfl⟩, hnew.2.1⟩

/-- Two uploads, the acknowledgement of the second overtaking its registration,
over a queue whose lock is busy three times. -/
theorem rendezvous_two_uploads :
    let calls : List (Call String) :=
      [.setMidTable 1 "EVENT_STORE" 0, .processPublishedMid 2 0, .processPublishedMid 1 3,
        .take, .setMidTable 2 "ALERT_STORE" 0]
    Rendezvous calls (Pairing.afterInit init fun _ => 0)
      ((Pairing.afterInit init fun _ => 0).run calls) := by
  refine (rendezvous_iff init (fun _ => 0) _ ?_).2 ?_
  · exact ⟨by decide, by decide⟩
  · show droppedAfter [] _ = []
    decide

/-- One upload whose acknowledgement finds the lock of the queue busy ten times:
the mid got both calls and is in no container. -/
theorem not_rendezvous_busy_queue :
    let calls : List (Call String) :=
      [.setMidTable 1 "EVENT_STORE" 0, .processPublishedMid 1 10]
    AtMostOnce calls ∧
      ¬ Rendezvous calls (Pairing.afterInit init fun _ => 0)
        ((Pairing.afterInit init fun _ => 0).run calls) := by
  refine ⟨⟨by decide, by decide⟩, fun hr => ?_⟩
  have hboth := (hr.both 1 "EVENT_STORE" (by decide) (by decide)).1
  revert hboth
  decide

end MidHandler

end DeviceClient
