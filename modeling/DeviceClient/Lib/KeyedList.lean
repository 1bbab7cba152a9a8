import Mathlib.Data.List.Basic
import Mathlib.Order.RelClasses

/-!
# Maps as lists of pairs in key order

An ordered map is the list of its pairs, ascending in the keys; `List.lookup`
finds the value of a key. The operations put a new key in its place and leave
the others as they are, so what they do to `lookup` does not rest on the order.

* `lookup_setKey`, `lookup_insertKey`, `lookup_assignKey`, `lookup_eraseKey`: the
  values afterwards.
* `exists_filter_key`: the one pair of a key.
* `ascending_setKey`, `Ascending.ext`: the order is kept, and a map is its `lookup`.
* `setKey_eq_self_iff`: where nothing changes.
-/

namespace Lib

section

variable {κ ν : Type} [DecidableEq κ] [LT κ] [DecidableLT κ]

/-- The pairs with `key` set to `value`, its old value gone or the new pair in
its place. -/
def setKey (key : κ) (value : ν) : List (κ × ν) → List (κ × ν)
  | [] => [(key, value)]
  | (k, w) :: rest =>
    if k = key then (key, value) :: rest
    else if key < k then (key, value) :: (k, w) :: rest
    else (k, w) :: setKey key value rest

/-- The pairs with the value of `key` replaced, where it has one. -/
def assignKey (key : κ) (value : ν) (l : List (κ × ν)) : List (κ × ν) :=
  l.map fun p => if p.1 = key then (p.1, value) else p

/-- The pairs without `key`. -/
def eraseKey (key : κ) (l : List (κ × ν)) : List (κ × ν) := l.filter fun p => p.1 ≠ key

variable [BEq κ] [LawfulBEq κ]

/-- The pairs with `key` set to `value`, unless it has a value. -/
def insertKey (key : κ) (value : ν) (l : List (κ × ν)) : List (κ × ν) :=
  if (l.lookup key).isSome then l else setKey key value l

omit [LT κ] [DecidableLT κ] in
/-- The first pair, and those behind it. -/
theorem lookup_cons_ite (k key : κ) (w : ν) (rest : List (κ × ν)) :
    ((key, w) :: rest).lookup k = if k = key then some w else rest.lookup k := by
  rw [List.lookup_cons]
  by_cases h : k = key
  · simp [h]
  · have hbeq : (k == key) = false := by simpa using h
    rw [hbeq, if_neg h]

theorem lookup_setKey (key : κ) (value : ν) (l : List (κ × ν)) (k : κ) :
    (setKey key value l).lookup k = if k = key then some value else l.lookup k := by
  induction l with
  | nil => exact lookup_cons_ite k key value []
  | cons m rest ih =>
    obtain ⟨k', w⟩ := m
    unfold setKey
    by_cases hk' : k' = key
    · rw [if_pos hk', lookup_cons_ite, lookup_cons_ite, hk']
      by_cases hk : k = key
      · rw [if_pos hk, if_pos hk]
      · rw [if_neg hk, if_neg hk, if_neg hk]
    · rw [if_neg hk']
      by_cases hlt : key < k'
      · rw [if_pos hlt, lookup_cons_ite]
      · rw [if_neg hlt, lookup_cons_ite, lookup_cons_ite, ih]
        by_cases hkk' : k = k'
        · have hk : k ≠ key := fun h => hk' (hkk'.symm.trans h)
          rw [if_pos hkk', if_neg hk, if_pos hkk']
        · rw [if_neg hkk', if_neg hkk']

omit [DecidableEq κ] [LT κ] [DecidableLT κ] [LawfulBEq κ] in
/-- The values may be mapped before or after. -/
theorem lookup_mapValues {μ : Type} (f : ν → μ) (l : List (κ × ν)) (k : κ) :
    (l.map fun p => (p.1, f p.2)).lookup k = (l.lookup k).map f := by
  induction l with
  | nil => rfl
  | cons p rest ih =>
    rw [List.map_cons, List.lookup_cons, List.lookup_cons, ih]
    split <;> rfl

omit [BEq κ] [LawfulBEq κ] in
theorem setKey_mapValues {μ : Type} (f : ν → μ) (key : κ) (value : ν) (l : List (κ × ν)) :
    (setKey key value l).map (fun p => (p.1, f p.2)) =
      setKey key (f value) (l.map fun p => (p.1, f p.2)) := by
  induction l with
  | nil => rfl
  | cons p rest ih =>
    rw [List.map_cons, setKey, setKey]
    split
    · rfl
    · split
      · rfl
      · rw [List.map_cons, ih]

theorem lookup_insertKey (key : κ) (value : ν) (l : List (κ × ν)) (k : κ) :
    (insertKey key value l).lookup k =
      if k = key then some ((l.lookup key).getD value) else l.lookup k := by
  unfold insertKey
  cases hl : l.lookup key with
  | none =>
    rw [if_neg (by simp), lookup_setKey]
    rfl
  | some w =>
    rw [if_pos (by simp)]
    by_cases hk : k = key
    · rw [if_pos hk, hk, hl]
      rfl
    · rw [if_neg hk]

omit [LT κ] [DecidableLT κ] in
theorem lookup_eraseKey (key : κ) (l : List (κ × ν)) (k : κ) :
    (eraseKey key l).lookup k = if k = key then none else l.lookup k := by
  induction l with
  | nil => simp [eraseKey]
  | cons m rest ih =>
    obtain ⟨k', w⟩ := m
    unfold eraseKey at ih ⊢
    by_cases hk' : k' = key
    · rw [List.filter_cons_of_neg (by simpa using hk'), ih, lookup_cons_ite, hk']
      by_cases hk : k = key
      · rw [if_pos hk, if_pos hk]
      · rw [if_neg hk, if_neg hk, if_neg hk]
    · rw [List.filter_cons_of_pos (by simpa using hk'), lookup_cons_ite, lookup_cons_ite, ih]
      by_cases hkk' : k = k'
      · have hk : k ≠ key := fun h => hk' (hkk'.symm.trans h)
        rw [if_pos hkk', if_neg hk, if_pos hkk']
      · rw [if_neg hkk', if_neg hkk']

omit [LT κ] [DecidableLT κ] in
theorem mem_keys_of_lookup {l : List (κ × ν)} {k : κ} {w : ν} (h : l.lookup k = some w) :
    k ∈ l.map Prod.fst := by
  induction l with
  | nil => cases h
  | cons m rest ih =>
    obtain ⟨k', w'⟩ := m
    rw [lookup_cons_ite] at h
    by_cases hk : k = k'
    · rw [hk]
      exact List.mem_cons_self
    · rw [if_neg hk] at h
      exact List.mem_cons_of_mem _ (ih h)

omit [DecidableEq κ] [LT κ] [DecidableLT κ] in
theorem mem_of_lookup {l : List (κ × ν)} {k : κ} {w : ν} (h : l.lookup k = some w) :
    (k, w) ∈ l := by
  obtain ⟨before, after, rfl, -⟩ := List.lookup_eq_some_iff.1 h
  exact List.mem_append_right _ List.mem_cons_self

omit [LT κ] [DecidableLT κ] [BEq κ] [LawfulBEq κ] in
@[simp] theorem keys_assignKey (key : κ) (value : ν) (l : List (κ × ν)) :
    (assignKey key value l).map Prod.fst = l.map Prod.fst := by
  unfold assignKey
  rw [List.map_map]
  apply List.map_congr_left
  intro p _
  show (if p.1 = key then (p.1, value) else p).1 = p.1
  split <;> rfl

omit [LT κ] [DecidableLT κ] in
theorem lookup_assignKey (key : κ) (value : ν) (l : List (κ × ν)) (k : κ) :
    (assignKey key value l).lookup k =
      if k = key then (l.lookup key).map fun _ => value else l.lookup k := by
  induction l with
  | nil => simp [assignKey]
  | cons m rest ih =>
    obtain ⟨k', w⟩ := m
    have hrest : assignKey key value ((k', w) :: rest) =
        (k', if k' = key then value else w) :: assignKey key value rest := by
      unfold assignKey
      rw [List.map_cons]
      by_cases hk' : k' = key
      · rw [if_pos hk', if_pos hk']
      · rw [if_neg hk', if_neg hk']
    rw [hrest, lookup_cons_ite k k', lookup_cons_ite k k', lookup_cons_ite key k', ih]
    by_cases hkk' : k = k'
    · rw [if_pos hkk', if_pos hkk', hkk']
      by_cases hk' : k' = key
      · rw [if_pos hk', if_pos hk', if_pos hk'.symm]
        rfl
      · rw [if_neg hk', if_neg hk']
    · rw [if_neg hkk', if_neg hkk']
      by_cases hk : k = key
      · have hk' : key ≠ k' := fun h => hkk' (hk.trans h)
        rw [if_pos hk, if_pos hk, if_neg hk']
      · rw [if_neg hk, if_neg hk]

omit [LT κ] [DecidableLT κ] [BEq κ] [LawfulBEq κ] in
/-- With distinct keys, a key of the list has one pair. -/
theorem exists_filter_key {l : List (κ × ν)} (hnodup : (l.map Prod.fst).Nodup) {key : κ}
    (hkey : key ∈ l.map Prod.fst) :
    ∃ value, (key, value) ∈ l ∧ l.filter (fun p => p.1 = key) = [(key, value)] := by
  induction l with
  | nil => cases hkey
  | cons m rest ih =>
    obtain ⟨k', w⟩ := m
    rw [List.map_cons, List.nodup_cons] at hnodup
    by_cases hk : k' = key
    · refine ⟨w, by rw [hk]; exact List.mem_cons_self, ?_⟩
      have hrest : rest.filter (fun p => p.1 = key) = [] := by
        refine List.filter_eq_nil_iff.2 fun p hp => ?_
        have hp' : p.1 ∈ rest.map Prod.fst := List.mem_map_of_mem hp
        have hne : p.1 ≠ key := fun h => hnodup.1 (by rwa [hk, ← h])
        simpa using hne
      rw [List.filter_cons_of_pos (by simpa using hk), hrest, hk]
    · have hkey' : key ∈ rest.map Prod.fst := by
        rcases List.mem_cons.1 hkey with h | h
        · exact absurd h.symm hk
        · exact h
      obtain ⟨value, hmem, hfilter⟩ := ih hnodup.2 hkey'
      refine ⟨value, List.mem_cons_of_mem _ hmem, ?_⟩
      rw [List.filter_cons_of_neg (by simpa using hk), hfilter]

end

/-! ## Ascending keys -/

section

variable {κ ν : Type} [LT κ]

/-- The keys ascend. -/
def Ascending (l : List (κ × ν)) : Prop := (l.map Prod.fst).Pairwise (· < ·)

theorem ascending_nil : Ascending ([] : List (κ × ν)) := List.Pairwise.nil

theorem ascending_cons {p : κ × ν} {l : List (κ × ν)} :
    Ascending (p :: l) ↔ (∀ q ∈ l, p.1 < q.1) ∧ Ascending l := by
  unfold Ascending
  rw [List.map_cons, List.pairwise_cons, List.forall_mem_map]

variable [IsStrictTotalOrder κ (· < ·)]

theorem ne_of_below {a b : κ} (h : a < b) : a ≠ b := by
  intro heq
  rw [heq] at h
  exact irrefl_of (· < ·) b h

theorem Ascending.nodup {l : List (κ × ν)} (h : Ascending l) : (l.map Prod.fst).Nodup :=
  List.Pairwise.imp ne_of_below h

variable [DecidableEq κ] [DecidableLT κ]

omit [IsStrictTotalOrder κ (· < ·)] in
theorem mem_setKey {key : κ} {value : ν} {l : List (κ × ν)} {p : κ × ν}
    (h : p ∈ setKey key value l) : p = (key, value) ∨ p ∈ l := by
  induction l with
  | nil => exact Or.inl (List.mem_singleton.1 h)
  | cons m rest ih =>
    obtain ⟨k', w⟩ := m
    unfold setKey at h
    by_cases hk' : k' = key
    · rw [if_pos hk'] at h
      exact (List.mem_cons.1 h).imp_right (List.mem_cons_of_mem _)
    rw [if_neg hk'] at h
    by_cases hlt : key < k'
    · rw [if_pos hlt] at h
      exact List.mem_cons.1 h
    · rw [if_neg hlt] at h
      rcases List.mem_cons.1 h with h | h
      · exact Or.inr (List.mem_cons.2 (Or.inl h))
      · exact (ih h).imp_right (List.mem_cons_of_mem _)

theorem ascending_setKey (key : κ) (value : ν) {l : List (κ × ν)} (h : Ascending l) :
    Ascending (setKey key value l) := by
  induction l with
  | nil => exact ascending_cons.2 ⟨fun q hq => absurd hq List.not_mem_nil, ascending_nil⟩
  | cons m rest ih =>
    obtain ⟨k', w⟩ := m
    have hrest := ascending_cons.1 h
    unfold setKey
    by_cases hk' : k' = key
    · rw [if_pos hk']
      exact ascending_cons.2 ⟨fun q hq => hk' ▸ hrest.1 q hq, hrest.2⟩
    rw [if_neg hk']
    by_cases hlt : key < k'
    · rw [if_pos hlt]
      refine ascending_cons.2 ⟨fun q hq => ?_, h⟩
      rcases List.mem_cons.1 hq with rfl | hq
      · exact hlt
      · exact trans_of (· < ·) hlt (hrest.1 q hq)
    · rw [if_neg hlt]
      refine ascending_cons.2 ⟨fun q hq => ?_, ih hrest.2⟩
      rcases mem_setKey hq with rfl | hq
      · -- neither equal nor below, so above
        rcases trichotomous_of (· < ·) key k' with hbelow | heq | habove
        · exact absurd hbelow hlt
        · exact absurd heq.symm hk'
        · exact habove
      · exact hrest.1 q hq

/-- A key above the others goes behind them. -/
theorem setKey_of_forall_lt {key : κ} {l : List (κ × ν)} (h : ∀ p ∈ l, p.1 < key) (value : ν) :
    setKey key value l = l ++ [(key, value)] := by
  induction l with
  | nil => rfl
  | cons m rest ih =>
    obtain ⟨k', w⟩ := m
    have hlt : k' < key := h _ List.mem_cons_self
    have hne : k' ≠ key := ne_of_below hlt
    unfold setKey
    rw [if_neg hne, if_neg (asymm_of (· < ·) hlt),
      ih fun p hp => h p (List.mem_cons_of_mem _ hp)]
    rfl

variable [BEq κ] [LawfulBEq κ]

omit [DecidableEq κ] [DecidableLT κ] in
theorem Ascending.lookup_of_mem {l : List (κ × ν)} (h : Ascending l) {p : κ × ν} (hp : p ∈ l) :
    l.lookup p.1 = some p.2 := by
  classical
  induction l with
  | nil => cases hp
  | cons m rest ih =>
    obtain ⟨k', w⟩ := m
    have hrest := ascending_cons.1 h
    rw [lookup_cons_ite]
    rcases List.mem_cons.1 hp with rfl | hp
    · exact if_pos rfl
    · have hlt : k' < p.1 := hrest.1 p hp
      rw [if_neg (ne_of_below hlt).symm, ih hrest.2 hp]

omit [DecidableEq κ] [DecidableLT κ] in
theorem lookup_eq_none_of_below {l : List (κ × ν)} {k : κ} (h : ∀ q ∈ l, k < q.1) :
    l.lookup k = none := by
  rw [List.lookup_eq_none_iff]
  intro q hq
  have hne : k ≠ q.1 := ne_of_below (h q hq)
  simpa using hne

omit [DecidableEq κ] [DecidableLT κ] in
/-- A map is known by its values. -/
theorem Ascending.ext {l l' : List (κ × ν)} (h : Ascending l) (h' : Ascending l')
    (hlookup : ∀ k, l.lookup k = l'.lookup k) : l = l' := by
  classical
  induction l generalizing l' with
  | nil =>
    cases l' with
    | nil => rfl
    | cons m' rest' =>
      have hhead := hlookup m'.1
      rw [h'.lookup_of_mem List.mem_cons_self] at hhead
      cases hhead
  | cons m rest ih =>
    obtain ⟨k, w⟩ := m
    cases l' with
    | nil =>
      have hhead := hlookup k
      rw [h.lookup_of_mem List.mem_cons_self] at hhead
      cases hhead
    | cons m' rest' =>
      obtain ⟨k', w'⟩ := m'
      have hrest := ascending_cons.1 h
      have hrest' := ascending_cons.1 h'
      -- the smaller of two first keys would have no value in the other map
      have hkk' : k = k' := by
        rcases trichotomous_of (· < ·) k k' with hlt | heq | hlt
        · have hhead := hlookup k
          rw [h.lookup_of_mem List.mem_cons_self, lookup_eq_none_of_below fun q hq => ?_] at hhead
          · cases hhead
          · rcases List.mem_cons.1 hq with rfl | hq
            · exact hlt
            · exact trans_of (· < ·) hlt (hrest'.1 q hq)
        · exact heq
        · have hhead := hlookup k'
          rw [h'.lookup_of_mem List.mem_cons_self, lookup_eq_none_of_below fun q hq => ?_] at hhead
          · cases hhead
          · rcases List.mem_cons.1 hq with rfl | hq
            · exact hlt
            · exact trans_of (· < ·) hlt (hrest.1 q hq)
      subst hkk'
      have hvalue := hlookup k
      rw [lookup_cons_ite, lookup_cons_ite, if_pos rfl, if_pos rfl] at hvalue
      have htail : rest = rest' := by
        refine ih hrest.2 hrest'.2 fun k₀ => ?_
        by_cases hk₀ : k₀ = k
        · rw [hk₀, lookup_eq_none_of_below hrest.1, lookup_eq_none_of_below hrest'.1]
        · have htail := hlookup k₀
          rwa [lookup_cons_ite, lookup_cons_ite, if_neg hk₀, if_neg hk₀] at htail
      rw [Option.some.inj hvalue, htail]

/-- Setting a key changes nothing iff it has that value already. -/
theorem setKey_eq_self_iff {key : κ} {value : ν} {l : List (κ × ν)} (h : Ascending l) :
    setKey key value l = l ↔ l.lookup key = some value := by
  constructor
  · intro heq
    rw [← heq, lookup_setKey, if_pos rfl]
  · intro hlookup
    refine (ascending_setKey key value h).ext h fun k => ?_
    rw [lookup_setKey]
    split
    · rename_i hk
      rw [hk, hlookup]
    · rfl

end

end Lib
