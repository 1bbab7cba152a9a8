import DeviceClient.Lib.Table
import Mathlib.Data.List.Pairwise

/-!
# A bound read off the head of a sorted list

The first `n` of a sorted list end with some key. The elements up to that key
are the first `n` and those behind them that share the key.

* `Lib.filter_le_getLastD`: the list of them.
* `Lib.length_filter_le_eq_iff`: there are `n` of them if there are `n` elements
  at all and none behind the first `n` shares a key with one of these.
-/

namespace Lib

section Oldest

variable {ρ κ : Type} [LinearOrder κ] {k : ρ → κ} {first : ρ} {rest behind : List ρ}

/-- In a sorted list no key is above the last one. -/
theorem le_getLastD (hsort : (first :: rest).Pairwise fun r r' => k r ≤ k r') {r : ρ}
    (hr : r ∈ first :: rest) : k r ≤ k (rest.getLastD first) := by
  rw [← List.getLast_eq_getLastD (List.cons_ne_nil first rest)]
  exact hsort.rel_getLast_of_rel_getLast_getLast hr le_rfl

/-- Up to the last key of its head, a sorted list has its head and the elements
behind that share this key. -/
theorem filter_le_getLastD
    (hsort : (first :: rest ++ behind).Pairwise fun r r' => k r ≤ k r') :
    (first :: rest ++ behind).filter (fun r => decide (k r ≤ k (rest.getLastD first))) =
      first :: rest ++ behind.filter fun r => decide (k r = k (rest.getLastD first)) := by
  obtain ⟨hhead, _, hcross⟩ := List.pairwise_append.1 hsort
  have hmem : rest.getLastD first ∈ first :: rest := List.getLastD_mem_cons
  rw [List.filter_append, List.filter_eq_self.2]
  · congr 1
    refine List.filter_congr fun r hr => decide_eq_decide.2 ?_
    exact ⟨fun hle => le_antisymm hle (hcross _ hmem r hr), fun heq => heq.le⟩
  · intro r hr
    exact decide_eq_true (le_getLastD hhead hr)

/-- A sorted list has `n` elements up to the last key of its first `n` iff it has
`n` elements and none behind them shares a key with one of them. -/
theorem length_filter_le_eq_iff {n : ℕ} {l : List ρ} (hsort : l.Pairwise fun r r' => k r ≤ k r')
    (htake : l.take n = first :: rest) :
    (l.filter fun r => decide (k r ≤ k (rest.getLastD first))).length = n ↔
      n ≤ l.length ∧ ∀ r ∈ l.take n, ∀ r' ∈ l.drop n, k r ≠ k r' := by
  have hl : l = first :: rest ++ l.drop n := by rw [← htake, List.take_append_drop]
  have hlen : (first :: rest).length = min n l.length := by rw [← htake, List.length_take]
  have hsort' : (first :: rest ++ l.drop n).Pairwise fun r r' => k r ≤ k r' := hl ▸ hsort
  obtain ⟨hhead, _, hcross⟩ := List.pairwise_append.1 hsort'
  have hmem : rest.getLastD first ∈ first :: rest := List.getLastD_mem_cons
  have hcount : (l.filter fun r => decide (k r ≤ k (rest.getLastD first))).length =
      min n l.length +
        ((l.drop n).filter fun r => decide (k r = k (rest.getLastD first))).length := by
    conv_lhs => rw [hl]
    rw [filter_le_getLastD hsort', List.length_append, hlen]
  have hnone : ((l.drop n).filter fun r => decide (k r = k (rest.getLastD first))).length = 0 ↔
      ∀ r ∈ l.take n, ∀ r' ∈ l.drop n, k r ≠ k r' := by
    rw [List.length_eq_zero_iff, List.filter_eq_nil_iff, htake]
    constructor
    · intro h r hr r' hr' heq
      -- the last of the head lies between the two
      have hle : k r' ≤ k (rest.getLastD first) := heq ▸ le_getLastD hhead hr
      exact h r' hr' (decide_eq_true (le_antisymm hle (hcross _ hmem r' hr')))
    · intro h r' hr' heq
      exact h _ hmem r' hr' (of_decide_eq_true heq).symm
  rw [hcount, ← hnone]
  have hshort : l.length < n →
      ((l.drop n).filter fun r => decide (k r = k (rest.getLastD first))).length = 0 := by
    intro hlt
    rw [List.drop_eq_nil_of_le hlt.le]
    rfl
  omega

end Oldest

end Lib
