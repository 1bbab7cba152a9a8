import Mathlib.Data.List.Basic

/-!
# Occurrences in a list

Elements of two kinds follow one another: an opening one, and perhaps a closing
one right behind it. A scan with a look-ahead of one element reads the
occurrences off.

* `Lib.occurrences`: the scan.
* `Lib.occurrences_congr`: it depends on the kinds of the elements only.
* `Lib.inner`: all but the first and the last.
* `Lib.mem_of_mem_splitOnP`: the elements of a piece of a list cut at markers.
-/

namespace Lib

variable {α : Type*}

/-- The opening elements, each with the element behind it if that one is closing. -/
def occurrences (opens closes : α → Bool) : List α → List (α × Option α)
  | [] => []
  | [r] => if opens r then [(r, none)] else []
  | r :: q :: l =>
    if opens r then
      if closes q then (r, some q) :: occurrences opens closes l
      else (r, none) :: occurrences opens closes (q :: l)
    else occurrences opens closes (q :: l)

/-- All elements but the first and the last one. -/
def inner {β : Type*} (l : List β) : List β := l.tail.dropLast

theorem inner_eq_nil {β : Type*} {l : List β} (hl : l.length ≤ 2) : inner l = [] := by
  refine List.eq_nil_of_length_eq_zero ?_
  unfold inner
  rw [List.length_dropLast, List.length_tail]
  omega

theorem mem_of_mem_inner {β : Type*} {l : List β} {x : β} (hx : x ∈ inner l) : x ∈ l :=
  List.mem_of_mem_tail (List.dropLast_subset _ hx)

theorem inner_map {β γ : Type*} (f : β → γ) (l : List β) : inner (l.map f) = (inner l).map f := by
  unfold inner
  rw [← List.map_tail, ← List.map_dropLast]

section Scan

variable {opens closes : α → Bool}

@[simp] theorem occurrences_nil : occurrences opens closes [] = [] := rfl

theorem occurrences_cons_of_not {r : α} (hr : opens r = false) (l : List α) :
    occurrences opens closes (r :: l) = occurrences opens closes l := by
  cases l with
  | nil => simp [occurrences, hr]
  | cons q l => simp [occurrences, hr]

/-- Nothing closing behind an opening element. -/
theorem occurrences_cons_alone {r : α} (hr : opens r = true) {l : List α}
    (hl : ∀ q, l.head? = some q → closes q = false) :
    occurrences opens closes (r :: l) = (r, none) :: occurrences opens closes l := by
  cases l with
  | nil => simp [occurrences, hr]
  | cons q l => simp [occurrences, hr, hl q rfl]

theorem occurrences_cons_pair {r q : α} (hr : opens r = true) (hq : closes q = true) (l : List α) :
    occurrences opens closes (r :: q :: l) = (r, some q) :: occurrences opens closes l := by
  simp [occurrences, hr, hq]

/-- What an occurrence is made of. -/
theorem of_mem_occurrences {l : List α} {o : α × Option α} (ho : o ∈ occurrences opens closes l) :
    o.1 ∈ l ∧ opens o.1 = true ∧ ∀ q, o.2 = some q → q ∈ l ∧ closes q = true := by
  induction l using occurrences.induct opens closes with
  | case1 => exact absurd ho List.not_mem_nil
  | case2 r hr =>
    rw [occurrences_cons_alone hr (fun q hq => by cases hq), occurrences_nil,
      List.mem_singleton] at ho
    rw [ho]
    exact ⟨List.mem_cons_self, hr, fun q hq => by cases hq⟩
  | case3 r hr =>
    rw [occurrences_cons_of_not (by simpa using hr)] at ho
    exact absurd ho List.not_mem_nil
  | case4 r q l hr hq ih =>
    rw [occurrences_cons_pair hr hq, List.mem_cons] at ho
    rcases ho with rfl | ho
    · refine ⟨List.mem_cons_self, hr, fun x hx => ?_⟩
      rw [← Option.some.inj hx]
      exact ⟨List.mem_cons_of_mem _ List.mem_cons_self, hq⟩
    · rcases ih ho with ⟨hmem, hopen, hclose⟩
      refine ⟨List.mem_cons_of_mem _ (List.mem_cons_of_mem _ hmem), hopen, fun x hx => ?_⟩
      exact ⟨List.mem_cons_of_mem _ (List.mem_cons_of_mem _ (hclose x hx).1), (hclose x hx).2⟩
  | case5 r q l hr hq ih =>
    rw [occurrences_cons_alone hr (fun x hx => by
      rw [← Option.some.inj hx]
      simpa using hq), List.mem_cons] at ho
    rcases ho with rfl | ho
    · exact ⟨List.mem_cons_self, hr, fun x hx => by cases hx⟩
    · rcases ih ho with ⟨hmem, hopen, hclose⟩
      exact ⟨List.mem_cons_of_mem _ hmem, hopen,
        fun x hx => ⟨List.mem_cons_of_mem _ (hclose x hx).1, (hclose x hx).2⟩⟩
  | case6 r q l hr ih =>
    rw [occurrences_cons_of_not (by simpa using hr)] at ho
    rcases ih ho with ⟨hmem, hopen, hclose⟩
    exact ⟨List.mem_cons_of_mem _ hmem, hopen,
      fun x hx => ⟨List.mem_cons_of_mem _ (hclose x hx).1, (hclose x hx).2⟩⟩

theorem length_occurrences_le (l : List α) : (occurrences opens closes l).length ≤ l.length := by
  induction l using occurrences.induct opens closes with
  | case1 => exact Nat.le_refl _
  | case2 r hr => simp [occurrences, hr]
  | case3 r hr => simp [occurrences, hr]
  | case4 r q l hr hq ih =>
    rw [occurrences_cons_pair hr hq]
    simp only [List.length_cons]
    omega
  | case5 r q l hr hq ih =>
    rw [occurrences, if_pos hr, if_neg hq]
    simp only [List.length_cons] at ih ⊢
    omega
  | case6 r q l hr ih =>
    rw [occurrences, if_neg hr]
    simp only [List.length_cons] at ih ⊢
    omega

/-- The scan depends on the kinds of the elements only. -/
theorem occurrences_congr {opens' closes' : α → Bool} {l : List α}
    (hopens : ∀ r ∈ l, opens r = opens' r) (hcloses : ∀ r ∈ l, closes r = closes' r) :
    occurrences opens closes l = occurrences opens' closes' l := by
  induction l using occurrences.induct opens closes with
  | case1 => rfl
  | case2 r hr =>
    have hr' := hopens r List.mem_cons_self
    simp [occurrences, ← hr']
  | case3 r hr =>
    have hr' := hopens r List.mem_cons_self
    simp [occurrences, ← hr']
  | case4 r q l hr hq ih =>
    rw [occurrences_cons_pair hr hq, occurrences_cons_pair (by rw [← hr, hopens r List.mem_cons_self])
      (by rw [← hq, hcloses q (List.mem_cons_of_mem _ List.mem_cons_self)]),
      ih (fun x hx => hopens x (List.mem_cons_of_mem _ (List.mem_cons_of_mem _ hx)))
        (fun x hx => hcloses x (List.mem_cons_of_mem _ (List.mem_cons_of_mem _ hx)))]
  | case5 r q l hr hq ih =>
    have hq' : ∀ x, (q :: l).head? = some x → closes x = false := by
      intro x hx
      rw [← Option.some.inj hx]
      simpa using hq
    have hq'' : ∀ x, (q :: l).head? = some x → closes' x = false := by
      intro x hx
      rw [← hcloses x (by rw [← Option.some.inj hx]; simp)]
      exact hq' x hx
    rw [occurrences_cons_alone hr hq',
      occurrences_cons_alone (by rw [← hr, hopens r List.mem_cons_self]) hq'',
      ih (fun x hx => hopens x (List.mem_cons_of_mem _ hx))
        (fun x hx => hcloses x (List.mem_cons_of_mem _ hx))]
  | case6 r q l hr ih =>
    have hr' : opens r = false := by simpa using hr
    have hr'' : opens' r = false := by rw [← hopens r List.mem_cons_self, hr']
    refine (occurrences_cons_of_not hr' _).trans (Eq.trans ?_ (occurrences_cons_of_not hr'' _).symm)
    exact ih (fun x hx => hopens x (List.mem_cons_of_mem _ hx))
      (fun x hx => hcloses x (List.mem_cons_of_mem _ hx))

end Scan

/-! ## Pieces between markers -/

section Pieces

variable {marker : α → Bool}

theorem splitOnP_cons_marker {x : α} (hx : marker x = true) (l : List α) :
    (x :: l).splitOnP marker = [] :: l.splitOnP marker := by
  rw [List.splitOnP_cons_eq_if_modifyHead, if_pos hx]

theorem splitOnP_cons_of_not {x : α} (hx : marker x = false) {l s : List α} {ss : List (List α)}
    (hl : l.splitOnP marker = s :: ss) : (x :: l).splitOnP marker = (x :: s) :: ss := by
  rw [List.splitOnP_cons_eq_if_modifyHead, if_neg (by rw [hx]; decide), hl, List.modifyHead_cons]

theorem mem_of_mem_splitOnP {l s : List α} (hs : s ∈ l.splitOnP marker) {x : α} (hx : x ∈ s) :
    x ∈ l ∧ marker x = false := by
  induction l generalizing s with
  | nil =>
    rw [List.splitOnP_nil, List.mem_singleton] at hs
    rw [hs] at hx
    exact absurd hx List.not_mem_nil
  | cons y l ih =>
    cases hy : marker y with
    | true =>
      rw [splitOnP_cons_marker hy, List.mem_cons] at hs
      rcases hs with rfl | hs
      · exact absurd hx List.not_mem_nil
      · exact ⟨List.mem_cons_of_mem _ (ih hs hx).1, (ih hs hx).2⟩
    | false =>
      rcases List.exists_cons_of_ne_nil (List.splitOnP_ne_nil marker l) with ⟨s', ss, hl⟩
      rw [splitOnP_cons_of_not hy hl, List.mem_cons] at hs
      rw [hl] at ih
      rcases hs with rfl | hs
      · rcases List.mem_cons.1 hx with rfl | hx
        · exact ⟨List.mem_cons_self, hy⟩
        · have hin := ih List.mem_cons_self hx
          exact ⟨List.mem_cons_of_mem _ hin.1, hin.2⟩
      · have hin := ih (List.mem_cons_of_mem _ hs) hx
        exact ⟨List.mem_cons_of_mem _ hin.1, hin.2⟩

/-- The first element of the first piece is the first element of the list, if that
is no marker. -/
theorem head?_splitOnP {l s : List α} {ss : List (List α)} (hl : l.splitOnP marker = s :: ss)
    {q : α} (hq : s.head? = some q) : l.head? = some q := by
  cases l with
  | nil =>
    rw [List.splitOnP_nil, List.cons.injEq] at hl
    rw [← hl.1] at hq
    cases hq
  | cons y l =>
    cases hy : marker y with
    | true =>
      rw [splitOnP_cons_marker hy, List.cons.injEq] at hl
      rw [← hl.1] at hq
      cases hq
    | false =>
      rcases List.exists_cons_of_ne_nil (List.splitOnP_ne_nil marker l) with ⟨s', ss', hl'⟩
      rw [splitOnP_cons_of_not hy hl', List.cons.injEq] at hl
      rw [← hl.1] at hq
      exact hq

end Pieces

end Lib
