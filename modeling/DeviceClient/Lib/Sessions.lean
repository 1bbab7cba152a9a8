import Mathlib.Data.List.DropRight
import Mathlib.Data.List.Nodup

/-!
# Rows between markers

A flat list in which some elements are markers falls into sessions: what stands
behind one marker and before the next.

* `Lib.sinceMarker`: the elements behind the last marker.
* `Lib.StandsAt`: an element stands at a position of its session, from one.
* `Lib.standsAt_concat`: the positions when an element is added at the end.
* `Lib.StandsAt.unique`: without repeats, an element has one position.
-/

namespace Lib

section Sessions

variable {ρ : Type} (marker : ρ → Bool)

/-- The elements behind the last marker, all of them if there is none. -/
def sinceMarker (rows : List ρ) : List ρ := rows.rtakeWhile fun r => !marker r

/-- `r` is the `k`th element behind the last marker before it. -/
def StandsAt (rows : List ρ) (r : ρ) (k : ℕ) : Prop :=
  ∃ before after, rows = before ++ r :: after ∧ (sinceMarker marker before).length + 1 = k

variable {marker}

@[simp] theorem sinceMarker_nil : sinceMarker marker [] = [] := List.rtakeWhile_nil _

theorem sinceMarker_concat_marker (rows : List ρ) {r : ρ} (hr : marker r = true) :
    sinceMarker marker (rows ++ [r]) = [] := by
  refine List.rtakeWhile_concat_neg _ _ _ ?_
  rw [hr]
  decide

theorem sinceMarker_concat (rows : List ρ) {r : ρ} (hr : marker r = false) :
    sinceMarker marker (rows ++ [r]) = sinceMarker marker rows ++ [r] := by
  refine List.rtakeWhile_concat_pos _ _ _ ?_
  rw [hr]
  rfl

/-- Where every element is a marker, nothing stands behind the last one. -/
theorem sinceMarker_eq_nil {rows : List ρ} (h : ∀ r ∈ rows, marker r = true) :
    sinceMarker marker rows = [] := by
  refine List.rtakeWhile_eq_nil_iff.2 fun hne => ?_
  rw [h _ (List.getLast_mem hne)]
  decide

theorem StandsAt.mem {rows : List ρ} {r : ρ} {k : ℕ} (h : StandsAt marker rows r k) :
    r ∈ rows := by
  rcases h with ⟨before, after, rfl, _⟩
  exact List.mem_append_right _ List.mem_cons_self

theorem standsAt_concat {rows : List ρ} {x r : ρ} {k : ℕ} :
    StandsAt marker (rows ++ [x]) r k ↔
      StandsAt marker rows r k ∨ r = x ∧ (sinceMarker marker rows).length + 1 = k := by
  constructor
  · rintro ⟨before, after, hsplit, hk⟩
    rcases List.eq_nil_or_concat after with rfl | ⟨after, y, rfl⟩
    · have heq := List.append_inj' hsplit rfl
      rw [List.cons.injEq] at heq
      rcases heq with ⟨rfl, rfl, _⟩
      exact Or.inr ⟨rfl, hk⟩
    · rw [List.concat_eq_append, ← List.cons_append, ← List.append_assoc] at hsplit
      exact Or.inl ⟨before, after, (List.append_inj' hsplit rfl).1, hk⟩
  · rintro (⟨before, after, rfl, hk⟩ | ⟨rfl, hk⟩)
    · exact ⟨before, after ++ [x], by simp, hk⟩
    · exact ⟨rows, [], rfl, hk⟩

/-- Without repeats an element stands at one position. -/
theorem StandsAt.unique {rows : List ρ} (hnodup : rows.Nodup) {r : ρ} {k l : ℕ}
    (hk : StandsAt marker rows r k) (hl : StandsAt marker rows r l) : k = l := by
  rcases hk with ⟨before, after, rfl, rfl⟩
  rcases hl with ⟨before', after', hsplit, rfl⟩
  have hnot : r ∉ before := fun hr =>
    (List.disjoint_of_nodup_append hnodup) hr List.mem_cons_self
  have hnot' : r ∉ before' := fun hr => by
    rw [hsplit] at hnodup
    exact (List.disjoint_of_nodup_append hnodup) hr List.mem_cons_self
  have hbefore : before = before' := by
    rcases List.append_eq_append_iff.1 hsplit with ⟨c, rfl, hc⟩ | ⟨c, rfl, hc⟩
    · cases c with
      | nil => simp
      | cons y c =>
        rw [List.cons_append, List.cons.injEq] at hc
        exact absurd (by simp [hc.1]) hnot'
    · cases c with
      | nil => simp
      | cons y c =>
        rw [List.cons_append, List.cons.injEq] at hc
        exact absurd (by simp [hc.1]) hnot
  rw [hbefore]

end Sessions

end Lib
