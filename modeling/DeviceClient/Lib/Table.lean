import Mathlib.Data.List.Sort
import Mathlib.Order.WithBot

/-!
# Tables with an auto-increment key

A table is the list of its rows in key order. An inserted row takes a key that
no row ever had, so the keys are strictly increasing and identify the rows. The
type carries both facts.

* `Lib.Table`, with `insert`, `remove` and `update`.
* `Lib.orderBy`: the stable sort of a selected list by a column.
* `Lib.limit`: the head of a selected list; a limit of zero is no limit.
* `Lib.orderBy_remove_limit`: reading a table page by page.
-/

namespace Lib

/-- Rows in key order under the next free key. -/
structure Table {ρ : Type} (key : ρ → ℕ) where
  rows : List ρ
  nextKey : ℕ
  sorted : rows.Pairwise fun r r' => key r < key r'
  below : ∀ r ∈ rows, key r < nextKey

namespace Table

variable {ρ : Type} {key : ρ → ℕ}

/-- The table with no row ever inserted; keys start at one. -/
def empty : Table key where
  rows := []
  nextKey := 1
  sorted := List.Pairwise.nil
  below := by simp

/-- Append the row that `mk` builds on the next free key. -/
def insert (t : Table key) (mk : ℕ → ρ) (hmk : ∀ n, key (mk n) = n) : Table key where
  rows := t.rows ++ [mk t.nextKey]
  nextKey := t.nextKey + 1
  sorted := by
    refine List.pairwise_append.2 ⟨t.sorted, List.pairwise_singleton _ _, ?_⟩
    intro r hr r' hr'
    rw [List.mem_singleton] at hr'
    rw [hr', hmk]
    exact t.below r hr
  below := by
    intro r hr
    rcases List.mem_append.1 hr with h | h
    · have := t.below r h
      omega
    · rw [List.mem_singleton] at h
      rw [h, hmk]
      omega

/-- Delete the rows that meet `p`. -/
def remove (t : Table key) (p : ρ → Bool) : Table key where
  rows := t.rows.filter fun r => !p r
  nextKey := t.nextKey
  sorted := t.sorted.filter _
  below := fun r hr => t.below r (List.mem_of_mem_filter hr)

/-- Rewrite the rows that meet `p` by `f`, which keeps the key. -/
def update (t : Table key) (p : ρ → Bool) (f : ρ → ρ) (hf : ∀ r, key (f r) = key r) :
    Table key where
  rows := t.rows.map fun r => if p r then f r else r
  nextKey := t.nextKey
  sorted := by
    have hkey : ∀ r, key (if p r then f r else r) = key r := by
      intro r
      split
      · exact hf r
      · rfl
    rw [List.pairwise_map]
    simpa only [hkey] using t.sorted
  below := by
    intro r hr
    obtain ⟨r₀, h₀, rfl⟩ := List.mem_map.1 hr
    have hb := t.below r₀ h₀
    split
    · rw [hf]
      exact hb
    · exact hb

@[simp] theorem rows_empty : (empty : Table key).rows = [] := rfl

@[simp] theorem rows_remove (t : Table key) (p : ρ → Bool) :
    (t.remove p).rows = t.rows.filter fun r => !p r := rfl

@[simp] theorem mem_insert {t : Table key} {mk : ℕ → ρ} {hmk : ∀ n, key (mk n) = n} {r : ρ} :
    r ∈ (t.insert mk hmk).rows ↔ r ∈ t.rows ∨ r = mk t.nextKey := by
  simp [insert]

@[simp] theorem mem_remove {t : Table key} {p : ρ → Bool} {r : ρ} :
    r ∈ (t.remove p).rows ↔ r ∈ t.rows ∧ p r = false := by
  simp

@[simp] theorem mem_update {t : Table key} {p : ρ → Bool} {f : ρ → ρ}
    {hf : ∀ r, key (f r) = key r} {r : ρ} :
    r ∈ (t.update p f hf).rows ↔ ∃ r₀ ∈ t.rows, (if p r₀ then f r₀ else r₀) = r := by
  simp [update]

theorem ext {t t' : Table key} (hrows : t.rows = t'.rows) (hnext : t.nextKey = t'.nextKey) :
    t = t' := by
  cases t
  cases t'
  cases hrows
  cases hnext
  rfl

theorem remove_eq_self_iff {t : Table key} {p : ρ → Bool} :
    t.remove p = t ↔ ∀ r ∈ t.rows, p r = false := by
  constructor
  · intro h r hr
    have hkept : r ∈ (t.remove p).rows := by rw [h]; exact hr
    exact (mem_remove.1 hkept).2
  · intro h
    refine ext (List.filter_eq_self.2 fun r hr => ?_) rfl
    rw [h r hr]
    rfl

theorem update_eq_self_iff {t : Table key} {p : ρ → Bool} {f : ρ → ρ}
    {hf : ∀ r, key (f r) = key r} :
    t.update p f hf = t ↔ ∀ r ∈ t.rows, p r = true → f r = r := by
  have hmap : (t.update p f hf).rows = t.rows ↔ ∀ r ∈ t.rows, p r = true → f r = r := by
    show t.rows.map (fun r => if p r then f r else r) = t.rows ↔ _
    conv_lhs => rhs; rw [← List.map_id t.rows]
    rw [List.map_inj_left]
    refine forall₂_congr fun r _ => ?_
    by_cases hp : p r = true
    · simp [hp]
    · simp [hp]
  rw [← hmap]
  exact ⟨fun h => congrArg rows h, fun h => ext h rfl⟩

/-- Two rows with one key are one row. -/
theorem eq_of_key_eq (t : Table key) {r r' : ρ} (hr : r ∈ t.rows) (hr' : r' ∈ t.rows)
    (hkey : key r = key r') : r = r' := by
  have hnodup : (t.rows.map key).Nodup :=
    List.pairwise_map.2 (t.sorted.imp fun h => Nat.ne_of_lt h)
  exact List.inj_on_of_nodup_map hnodup hr hr' hkey

theorem nodup_rows (t : Table key) : t.rows.Nodup :=
  t.sorted.imp fun h heq => by rw [heq] at h; exact Nat.lt_irrefl _ h

end Table

/-! ## Selected lists -/

section Select

variable {ρ κ : Type} [LinearOrder κ]

/-- The stable sort of `l` by the column `k`. -/
def orderBy (k : ρ → κ) (l : List ρ) : List ρ :=
  l.insertionSort fun r r' => k r ≤ k r'

/-- The first `n` of `l`; all of it when `n` is zero. -/
def limit (n : ℕ) (l : List ρ) : List ρ := if n = 0 then l else l.take n

@[simp] theorem mem_orderBy {k : ρ → κ} {l : List ρ} {r : ρ} : r ∈ orderBy k l ↔ r ∈ l :=
  List.mem_insertionSort _

theorem sorted_orderBy (k : ρ → κ) (l : List ρ) :
    (orderBy k l).Pairwise fun r r' => k r ≤ k r' := by
  have htotal : Std.Total (fun r r' : ρ => k r ≤ k r') := ⟨fun r r' => le_total (k r) (k r')⟩
  have htrans : IsTrans ρ (fun r r' => k r ≤ k r') := ⟨fun _ _ _ h h' => le_trans h h'⟩
  exact List.pairwise_insertionSort _ l

/-- Inserting into a sorted list and selecting commute. -/
theorem filter_orderedInsert (k : ρ → κ) (p : ρ → Bool) (a : ρ) (l : List ρ)
    (hl : l.Pairwise fun r r' => k r ≤ k r') :
    (l.orderedInsert (fun r r' => k r ≤ k r') a).filter p =
      if p a then (l.filter p).orderedInsert (fun r r' => k r ≤ k r') a else l.filter p := by
  induction l with
  | nil =>
    by_cases hp : p a <;> simp [hp]
  | cons b l ih =>
    rw [List.pairwise_cons] at hl
    by_cases hab : k a ≤ k b
    · -- `a` lands in front, below every row that the selection keeps
      rw [List.orderedInsert_cons_of_le (fun r r' => k r ≤ k r') l hab]
      by_cases hp : p a
      · rw [List.filter_cons_of_pos hp, if_pos hp]
        have hhead : ∀ r ∈ (b :: l).filter p, k a ≤ k r := by
          intro r hr
          rcases List.mem_cons.1 (List.mem_of_mem_filter hr) with rfl | h
          · exact hab
          · exact le_trans hab (hl.1 r h)
        cases hf : (b :: l).filter p with
        | nil => rfl
        | cons c l' =>
          have hle := hhead c (by rw [hf]; exact List.mem_cons_self)
          rw [List.orderedInsert_cons_of_le (fun r r' => k r ≤ k r') _ hle]
      · rw [List.filter_cons_of_neg hp, if_neg hp]
    · rw [List.orderedInsert_of_not_le (fun r r' => k r ≤ k r') _ hab, List.filter_cons, ih hl.2,
        List.filter_cons]
      by_cases hb : p b
      · by_cases hp : p a
        · simp only [hb, hp, if_true, List.orderedInsert_of_not_le (fun r r' => k r ≤ k r') _ hab]
        · simp only [hb, hp, if_true, Bool.false_eq_true, if_false]
      · simp only [hb, Bool.false_eq_true, if_false]

/-- Sorting and selecting commute. -/
theorem orderBy_filter (k : ρ → κ) (p : ρ → Bool) (l : List ρ) :
    orderBy k (l.filter p) = (orderBy k l).filter p := by
  induction l with
  | nil => rfl
  | cons a l ih =>
    have hcons : orderBy k (a :: l) = (orderBy k l).orderedInsert (fun r r' => k r ≤ k r') a := rfl
    rw [hcons, filter_orderedInsert k p a _ (sorted_orderBy k l), ← ih]
    by_cases hp : p a
    · rw [List.filter_cons_of_pos hp, if_pos hp]
      rfl
    · rw [List.filter_cons_of_neg hp, if_neg hp]

theorem limit_isPrefixOf (n : ℕ) (l : List ρ) : limit n l <+: l := by
  unfold limit
  split
  · exact List.prefix_refl l
  · exact List.take_prefix n l

theorem length_limit_le {n : ℕ} (hn : 0 < n) (l : List ρ) : (limit n l).length ≤ n := by
  unfold limit
  rw [if_neg (by omega)]
  exact List.length_take_le n l

/-- Selecting from a page gives a prefix of the page of selected rows. -/
theorem filter_limit_isPrefixOf (n : ℕ) (p : ρ → Bool) (l : List ρ) :
    (limit n l).filter p <+: limit n (l.filter p) := by
  have hpre : (limit n l).filter p <+: l.filter p := (limit_isPrefixOf n l).filter p
  unfold limit at hpre ⊢
  by_cases hn : n = 0
  · simp only [if_pos hn] at hpre ⊢
    exact hpre
  · rw [if_neg hn] at hpre ⊢
    rw [if_neg hn]
    refine List.prefix_take_iff.2 ⟨hpre, ?_⟩
    exact le_trans (List.length_filter_le p _) (List.length_take_le n l)

/-- A page of selected rows only is the page of the selection. -/
theorem limit_filter_of_forall {n : ℕ} {p : ρ → Bool} {l : List ρ}
    (h : ∀ r ∈ limit n l, p r = true) : limit n (l.filter p) = limit n l := by
  unfold limit at h ⊢
  by_cases hn : n = 0
  · rw [if_pos hn] at h ⊢
    rw [if_pos hn]
    exact List.filter_eq_self.2 h
  · rw [if_neg hn] at h ⊢
    rw [if_neg hn]
    have hsplit : l.filter p = l.take n ++ (l.drop n).filter p := by
      conv_lhs => rw [← List.take_append_drop n l]
      rw [List.filter_append, List.filter_eq_self.2 h]
    rw [hsplit]
    by_cases hlen : n ≤ l.length
    · have htake : (l.take n).length = n := by
        rw [List.length_take]
        omega
      rw [List.take_append_of_le_length (by omega), List.take_take, Nat.min_self]
    · rw [List.drop_eq_nil_of_le (by omega), List.filter_nil, List.append_nil, List.take_take,
        Nat.min_self]

theorem mem_of_mem_limit {n : ℕ} {l : List ρ} {r : ρ} (h : r ∈ limit n l) : r ∈ l :=
  (limit_isPrefixOf n l).subset h

theorem limit_eq_nil {n : ℕ} {l : List ρ} : limit n l = [] ↔ l = [] := by
  unfold limit
  split
  · rfl
  · rename_i hn
    simp [hn]

theorem perm_orderBy (k : ρ → κ) (l : List ρ) : (orderBy k l).Perm l :=
  List.perm_insertionSort _ l

/-- Without the rows of its first page, a selected table shows the rest. -/
theorem orderBy_remove_limit {key : ρ → ℕ} (t : Table key) (k : ρ → κ) {n : ℕ} (hn : 0 < n) :
    orderBy k (t.remove fun r => decide (key r ∈ (limit n (orderBy k t.rows)).map key)).rows =
      (orderBy k t.rows).drop n := by
  have hlimit : limit n (orderBy k t.rows) = (orderBy k t.rows).take n := if_neg (by omega)
  have hnodup : ((orderBy k t.rows).map key).Nodup :=
    ((perm_orderBy k t.rows).map key).nodup_iff.2
      (List.pairwise_map.2 (t.sorted.imp fun h => Nat.ne_of_lt h))
  rw [Table.rows_remove, orderBy_filter, hlimit]
  conv_lhs =>
    arg 2
    rw [← List.take_append_drop n (orderBy k t.rows)]
  rw [List.filter_append]
  rw [← List.take_append_drop n (orderBy k t.rows), List.map_append] at hnodup
  have hdisjoint := (List.nodup_append.1 hnodup).2.2
  have htake : ((orderBy k t.rows).take n).filter
      (fun r => !decide (key r ∈ ((orderBy k t.rows).take n).map key)) = [] := by
    rw [List.filter_eq_nil_iff]
    intro r hr hnot
    have hin : key r ∈ ((orderBy k t.rows).take n).map key := List.mem_map.2 ⟨r, hr, rfl⟩
    rw [decide_eq_true hin] at hnot
    cases hnot
  have hdrop : ((orderBy k t.rows).drop n).filter
      (fun r => !decide (key r ∈ ((orderBy k t.rows).take n).map key)) =
        (orderBy k t.rows).drop n := by
    rw [List.filter_eq_self]
    intro r hr
    have hout : key r ∉ ((orderBy k t.rows).take n).map key := by
      intro hin
      exact hdisjoint _ hin _ (List.mem_map.2 ⟨r, hr, rfl⟩) rfl
    rw [decide_eq_false hout]
    rfl
  rw [htake, hdrop, List.nil_append]
end Select

end Lib
