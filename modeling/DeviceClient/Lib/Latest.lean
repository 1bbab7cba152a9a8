import DeviceClient.Lib.Table

/-!
# The head of a stable sort

A statement with an order and a limit of one reads the head of a stable sort: no
key is below its own, and of those that share it the head comes first.

* `Lib.IsHead`: the row of a table that such a statement reads.
* `Lib.isHead_of_limit`: the statement reads it.
* `Lib.IsHead.unique`: there is one at most.
-/

namespace Lib

section Latest

variable {ρ κ : Type} [LinearOrder κ] {k : ρ → κ} {key : ρ → ℕ} {l : List ρ}

/-- The element with the lowest `k`; of those that share it the one with the lowest key. -/
structure IsHead (k : ρ → κ) (key : ρ → ℕ) (l : List ρ) (q : ρ) : Prop where
  mem : q ∈ l
  first : ∀ r ∈ l, k q < k r ∨ k r = k q ∧ key q ≤ key r

/-- A sort leaves a list of one key as it is. -/
theorem orderBy_of_const {c : κ} (hl : ∀ r ∈ l, k r = c) : orderBy k l = l := by
  refine List.Pairwise.insertionSort_eq ?_
  refine List.pairwise_iff_forall_sublist.2 fun {a b} hab => ?_
  have ha := hl a (hab.subset List.mem_cons_self)
  have hb := hl b (hab.subset (List.mem_cons_of_mem a (List.mem_singleton_self b)))
  exact (ha.trans hb.symm).le

/-- The head of a sorted selection of a table. -/
theorem isHead_of_orderBy (hsort : l.Pairwise fun r r' => key r < key r') {q : ρ} {rest : List ρ}
    (hq : orderBy k l = q :: rest) : IsHead k key l q := by
  have hmem : ∀ r, r ∈ l ↔ r ∈ q :: rest := fun r => by rw [← hq, mem_orderBy]
  have hle : ∀ r ∈ l, k q ≤ k r := by
    intro r hr
    have hsorted := sorted_orderBy k l
    rw [hq] at hsorted
    rcases List.mem_cons.1 ((hmem r).1 hr) with rfl | hrest
    · exact le_rfl
    · exact (List.pairwise_cons.1 hsorted).1 r hrest
  -- those that share its key stand in the order of the table
  have hties : l.filter (fun r => decide (k r = k q)) =
      q :: rest.filter fun r => decide (k r = k q) := by
    have hself : orderBy k (l.filter fun r => decide (k r = k q)) =
        l.filter fun r => decide (k r = k q) :=
      orderBy_of_const fun r hr => of_decide_eq_true (List.mem_filter.1 hr).2
    rw [← hself, orderBy_filter, hq]
    exact List.filter_cons_of_pos (by rw [decide_eq_true_eq])
  refine ⟨(hmem q).2 List.mem_cons_self, fun r hr => ?_⟩
  rcases (hle r hr).lt_or_eq with hlt | heq
  · exact Or.inl hlt
  · refine Or.inr ⟨heq.symm, ?_⟩
    have hrin : r ∈ l.filter fun r => decide (k r = k q) :=
      List.mem_filter.2 ⟨hr, decide_eq_true heq.symm⟩
    have hsub := hsort.filter fun r => decide (k r = k q)
    rw [hties] at hrin hsub
    rcases List.mem_cons.1 hrin with rfl | hrest
    · exact le_rfl
    · exact ((List.pairwise_cons.1 hsub).1 r hrest).le

/-- What a limit of one leaves of it. -/
theorem isHead_of_limit (hsort : l.Pairwise fun r r' => key r < key r') {q : ρ} {rest : List ρ}
    (hq : limit 1 (orderBy k l) = q :: rest) : IsHead k key l q := by
  cases horder : orderBy k l with
  | nil =>
    rw [horder] at hq
    cases hq
  | cons x tail =>
    rw [horder] at hq
    have hx : x = q := (List.cons.inj hq).1
    exact hx ▸ isHead_of_orderBy hsort horder

/-- No two elements are the head, if the keys tell them apart. -/
theorem IsHead.unique {q q' : ρ} (hq : IsHead k key l q) (hq' : IsHead k key l q')
    (hkey : key q = key q' → q = q') : q = q' := by
  rcases hq.first q' hq'.mem with hlt | ⟨_, hle⟩
  · rcases hq'.first q hq.mem with hlt' | ⟨heq, _⟩
    · exact absurd hlt (lt_asymm hlt')
    · exact absurd heq hlt.ne
  · rcases hq'.first q hq.mem with hlt' | ⟨_, hle'⟩
    · rename_i heq
      exact absurd heq hlt'.ne
    · exact hkey (le_antisymm hle hle')

end Latest

end Lib
