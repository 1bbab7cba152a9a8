import DeviceClient.Lib.Loop
import DeviceClient.Lib.Table

/-!
# Reading a table page by page

A reader keeps a start key. Each turn fetches the first `n` rows above it (all
of them when `n` is zero), visits the page and moves the start key to a row of
the page; the first empty page ends the loop.

* `Lib.pageBody`: one turn.
* `Lib.readPages`: the state in which the loop leaves; `Lib.returns_readPages`
  says that it does leave.
* `Lib.remaining_of_split`: the rows left once the start key stands on a row.
* `Lib.returns_pages`: the induction over the turns.
* `Lib.returns_foldl`: a reader that moves to the last row of each page reads
  every row once, whatever the page limit.
-/

namespace Lib

section Paging

variable {ρ τ : Type} (key : ρ → ℕ) (n : ℕ) (L : List ρ) (start : τ → ℕ)
  (visit : List ρ → τ → τ)

/-- The rows above the start key. -/
def remaining (s : τ) : List ρ := L.filter fun r => decide (start s < key r)

/-- The next page. -/
def fetch (s : τ) : List ρ := limit n (remaining key L start s)

/-- One turn: stop at an empty page, else visit it. -/
def pageBody (s : τ) : τ ⊕ τ :=
  if (fetch key n L start s).isEmpty then .inr s else .inl (visit (fetch key n L start s) s)

/-- The state in which the loop leaves from `s`. -/
def readPages (s : τ) : τ := (loop (pageBody key n L start visit) (L.length + 1) s).getD s

end Paging

section PagingRules

variable {ρ τ : Type} {key : ρ → ℕ} {n : ℕ} {L : List ρ} {start : τ → ℕ}
  {visit : List ρ → τ → τ}

theorem mem_remaining {s : τ} {r : ρ} :
    r ∈ remaining key L start s ↔ r ∈ L ∧ start s < key r := by
  unfold remaining
  rw [List.mem_filter, decide_eq_true_eq]

theorem fetch_eq_nil {s : τ} :
    fetch key n L start s = [] ↔ remaining key L start s = [] := limit_eq_nil

theorem pageBody_inr {s : τ} (h : remaining key L start s = []) :
    pageBody key n L start visit s = .inr s := by
  unfold pageBody
  rw [fetch_eq_nil.2 h]
  rfl

theorem pageBody_inl {s : τ} (h : remaining key L start s ≠ []) :
    pageBody key n L start visit s = .inl (visit (fetch key n L start s) s) := by
  unfold pageBody
  have hne : fetch key n L start s ≠ [] := fun heq => h (fetch_eq_nil.1 heq)
  rw [if_neg]
  rwa [List.isEmpty_iff]

/-- With the start key on a row that was left, the rows behind it are left. -/
theorem remaining_of_split (hL : L.Pairwise fun r r' => key r < key r') {s t : τ} {a b : List ρ}
    {v : ρ} (hs : remaining key L start s = a ++ v :: b) (ht : start t = key v) :
    remaining key L start t = b := by
  have hsort : (a ++ v :: b).Pairwise fun r r' => key r < key r' := by
    rw [← hs]
    exact hL.filter _
  have hv : v ∈ remaining key L start s := by
    rw [hs]
    simp
  have hlt := (mem_remaining.1 hv).2
  -- above `v` is above the old start key, so the filter may run on what was left
  have htwo : remaining key L start t =
      (remaining key L start s).filter fun r => decide (key v < key r) := by
    unfold remaining
    rw [List.filter_filter, ht]
    apply List.filter_congr
    intro r _
    by_cases hr : key v < key r
    · simp only [hr, decide_true, Bool.true_and]
      exact (decide_eq_true (by omega)).symm
    · simp only [hr, decide_false, Bool.false_and]
  rw [List.pairwise_append, List.pairwise_cons] at hsort
  obtain ⟨_, ⟨hvb, _⟩, hab⟩ := hsort
  rw [htwo, hs, List.filter_append, List.filter_cons]
  have ha : a.filter (fun r => decide (key v < key r)) = [] := by
    rw [List.filter_eq_nil_iff]
    intro r hr
    have hrv := hab r hr v (by simp)
    simpa using le_of_lt hrv
  have hb : b.filter (fun r => decide (key v < key r)) = b := by
    rw [List.filter_eq_self]
    intro r hr
    exact decide_eq_true (hvb r hr)
  rw [ha, hb]
  simp

/-- A visit that moves the start key to a row of its page leaves fewer rows. -/
theorem length_remaining_visit (hL : L.Pairwise fun r r' => key r < key r')
    (hvisit : ∀ page s, page ≠ [] → ∃ r ∈ page, start (visit page s) = key r)
    {s : τ} (h : remaining key L start s ≠ []) :
    (remaining key L start (visit (fetch key n L start s) s)).length <
      (remaining key L start s).length := by
  have hne : fetch key n L start s ≠ [] := fun heq => h (fetch_eq_nil.1 heq)
  obtain ⟨r, hr, hstart⟩ := hvisit (fetch key n L start s) s hne
  have hmem : r ∈ remaining key L start s := mem_of_mem_limit hr
  obtain ⟨a, b, hab⟩ := List.append_of_mem hmem
  rw [remaining_of_split hL hab hstart, hab, List.length_append, List.length_cons]
  omega

/-- The loop leaves within one turn more than there are rows. -/
theorem pages_isSome (hL : L.Pairwise fun r r' => key r < key r')
    (hvisit : ∀ page s, page ≠ [] → ∃ r ∈ page, start (visit page s) = key r) :
    ∀ {fuel : ℕ} (s : τ), (remaining key L start s).length < fuel →
      ∃ t, loop (pageBody key n L start visit) fuel s = some t := by
  intro fuel
  induction fuel with
  | zero =>
    intro s h
    omega
  | succ fuel ih =>
    intro s h
    by_cases hnil : remaining key L start s = []
    · exact ⟨s, loop_inr (pageBody_inr hnil) fuel⟩
    · have hlt := length_remaining_visit (n := n) hL hvisit hnil
      obtain ⟨t, ht⟩ := ih (visit (fetch key n L start s) s) (by omega)
      exact ⟨t, (loop_inl (pageBody_inl hnil) fuel).trans ht⟩

theorem returns_readPages (hL : L.Pairwise fun r r' => key r < key r')
    (hvisit : ∀ page s, page ≠ [] → ∃ r ∈ page, start (visit page s) = key r) (s : τ) :
    Returns (pageBody key n L start visit) s (readPages key n L start visit s) := by
  have hlen : (remaining key L start s).length < L.length + 1 := by
    have hle : (remaining key L start s).length ≤ L.length := List.length_filter_le _ L
    omega
  obtain ⟨t, ht⟩ := pages_isSome (n := n) hL hvisit s hlen
  refine ⟨L.length + 1, ?_⟩
  unfold readPages
  rw [ht]
  rfl

/-- Induction over the turns, from the last one back: `P` relates a state to
the state in which the loop leaves from it. -/
theorem returns_pages (hL : L.Pairwise fun r r' => key r < key r')
    (hvisit : ∀ page s, page ≠ [] → ∃ r ∈ page, start (visit page s) = key r)
    {P : τ → τ → Prop} (hstop : ∀ s, remaining key L start s = [] → P s s)
    (hturn : ∀ s t, remaining key L start s ≠ [] →
      P (visit (fetch key n L start s) s) t → P s t) :
    ∀ s t, Returns (pageBody key n L start visit) s t → P s t := by
  intro s
  induction hlen : (remaining key L start s).length using Nat.strong_induction_on generalizing s with
  | _ k ih =>
    intro t ht
    by_cases hnil : remaining key L start s = []
    · have hst : t = s := ht.unique (Returns.of_inr (pageBody_inr hnil))
      rw [hst]
      exact hstop s hnil
    · obtain ⟨fuel, hfuel⟩ := ht
      have hlt := length_remaining_visit (n := n) hL hvisit hnil
      cases fuel with
      | zero => cases hfuel
      | succ fuel =>
        rw [loop_inl (pageBody_inl hnil)] at hfuel
        exact hturn s t hnil (ih _ (hlen ▸ hlt) _ rfl t ⟨fuel, hfuel⟩)

/-- A reader that steps through each page row by row stands on its last row. -/
theorem exists_mem_of_foldl {step : τ → ρ → τ} (hstart : ∀ s r, start (step s r) = key r)
    (page : List ρ) (s : τ) (hne : page ≠ []) : ∃ r ∈ page, start (page.foldl step s) = key r := by
  refine ⟨page.getLast hne, List.getLast_mem hne, ?_⟩
  conv_lhs => rw [← List.dropLast_append_getLast hne, List.foldl_append]
  exact hstart _ _

/-- A reader that steps through each page row by row, its start key on the row
it stands on, steps through all rows left. -/
theorem returns_foldl (hL : L.Pairwise fun r r' => key r < key r') {step : τ → ρ → τ}
    (hstart : ∀ s r, start (step s r) = key r) {s t : τ}
    (ht : Returns (pageBody key n L start fun page s => page.foldl step s) s t) :
    t = (remaining key L start s).foldl step s := by
  refine returns_pages (n := n) (P := fun s t => t = (remaining key L start s).foldl step s)
    hL (exists_mem_of_foldl hstart) ?_ ?_ s t ht
  · intro s hnil
    rw [hnil]
    rfl
  · intro s t hne ih
    rw [ih]
    have hpre : fetch key n L start s <+: remaining key L start s := limit_isPrefixOf n _
    obtain ⟨rest, hrest⟩ := hpre
    have hfetch : fetch key n L start s ≠ [] := fun heq => hne (fetch_eq_nil.1 heq)
    have hsplit : remaining key L start s =
        (fetch key n L start s).dropLast ++ (fetch key n L start s).getLast hfetch :: rest := by
      conv_lhs => rw [← hrest, ← List.dropLast_append_getLast hfetch]
      rw [List.append_assoc]
      rfl
    have hnext : start ((fetch key n L start s).foldl step s) =
        key ((fetch key n L start s).getLast hfetch) := by
      conv_lhs => rw [← List.dropLast_append_getLast hfetch, List.foldl_append]
      exact hstart _ _
    rw [remaining_of_split hL hsplit hnext]
    conv_rhs => rw [← hrest]
    rw [List.foldl_append]

end PagingRules

end Lib
