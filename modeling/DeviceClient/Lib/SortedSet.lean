import Mathlib.Data.List.Sort

/-!
# Finite sets kept in ascending order

An ordered container of distinct elements: the strictly increasing list of its
elements, which is also the order in which an iterator visits them.
-/

namespace Lib

/-- A finite set as the ascending list of its elements. -/
structure SortedSet (α : Type) [LinearOrder α] where
  elems : List α
  sorted : elems.Pairwise (· < ·)
deriving DecidableEq

namespace SortedSet

variable {α : Type} [LinearOrder α]

instance : Membership α (SortedSet α) := ⟨fun s a => a ∈ s.elems⟩

instance (a : α) (s : SortedSet α) : Decidable (a ∈ s) := inferInstanceAs (Decidable (a ∈ s.elems))

/-- The set with no element. -/
def empty : SortedSet α := ⟨[], List.Pairwise.nil⟩

/-- The place of `a` in the ascending list; an element already there stays alone. -/
def insertElem (a : α) : List α → List α
  | [] => [a]
  | b :: l => if a < b then a :: b :: l else if a = b then b :: l else b :: insertElem a l

theorem mem_insertElem {a b : α} {l : List α} : b ∈ insertElem a l ↔ b = a ∨ b ∈ l := by
  induction l with
  | nil => simp [insertElem]
  | cons c l ih =>
    unfold insertElem
    split
    · simp
    · split
      · rename_i hac
        subst hac
        simp
      · rw [List.mem_cons, List.mem_cons, ih]
        tauto

theorem sorted_insertElem {a : α} {l : List α} (hl : l.Pairwise (· < ·)) :
    (insertElem a l).Pairwise (· < ·) := by
  induction l with
  | nil => exact List.pairwise_singleton _ _
  | cons c l ih =>
    have hc := List.pairwise_cons.1 hl
    unfold insertElem
    split
    · rename_i hac
      refine List.pairwise_cons.2 ⟨?_, hl⟩
      intro b hb
      rcases List.mem_cons.1 hb with rfl | h
      · exact hac
      · exact lt_trans hac (hc.1 b h)
    · rename_i hac
      split
      · exact hl
      · rename_i hne
        refine List.pairwise_cons.2 ⟨?_, ih hc.2⟩
        intro b hb
        rcases mem_insertElem.1 hb with rfl | h
        · exact lt_of_le_of_ne (not_lt.1 hac) (Ne.symm hne)
        · exact hc.1 b h

/-- Add an element. -/
def insert (s : SortedSet α) (a : α) : SortedSet α :=
  ⟨insertElem a s.elems, sorted_insertElem s.sorted⟩

/-- Drop an element. -/
def erase (s : SortedSet α) (a : α) : SortedSet α :=
  ⟨s.elems.filter (· ≠ a), s.sorted.filter _⟩

theorem mem_def {s : SortedSet α} {a : α} : a ∈ s ↔ a ∈ s.elems := Iff.rfl

@[simp] theorem elems_empty : (empty : SortedSet α).elems = [] := rfl

@[simp] theorem not_mem_empty {a : α} : ¬ a ∈ (empty : SortedSet α) := by
  simp [mem_def]

@[simp] theorem mem_insert {s : SortedSet α} {a b : α} : b ∈ s.insert a ↔ b = a ∨ b ∈ s :=
  mem_insertElem

@[simp] theorem mem_erase {s : SortedSet α} {a b : α} : b ∈ s.erase a ↔ b ∈ s ∧ b ≠ a := by
  simp [mem_def, erase]

end SortedSet

end Lib
