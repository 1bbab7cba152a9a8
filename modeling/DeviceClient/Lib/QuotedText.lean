import Mathlib.Data.List.Basic

/-!
# Texts between quotes

`quoted q text` writes `text` between two `q`, each `q` in it doubled: the literals of many
languages. The end of a literal is the first quote that is not doubled, so a literal and
what stands behind it are known from the whole.

* `quoted_append_inj`: that.
* `not_mem_of_quoted_append`: a text that is put between quotes as it is stands for itself
  only if it has no quote.
* `spliced_quoted_inj`: a list of literals is known from the text that it is spliced into.
-/

namespace Lib

variable {α : Type} [DecidableEq α] (q : α)

/-- The text with each quote doubled. -/
def escape (text : List α) : List α := text.flatMap fun c => if c = q then [q, q] else [c]

def quoted (text : List α) : List α := q :: (escape q text ++ [q])

@[simp] theorem escape_quote_cons (text : List α) :
    escape q (q :: text) = q :: q :: escape q text := by
  unfold escape
  rw [List.flatMap_cons, if_pos rfl]
  rfl

variable {q}

theorem escape_cons_of_ne {c : α} (hc : c ≠ q) (text : List α) :
    escape q (c :: text) = c :: escape q text := by
  unfold escape
  rw [List.flatMap_cons, if_neg hc]
  rfl

theorem escape_of_not_mem {text : List α} (h : q ∉ text) : escape q text = text := by
  induction text with
  | nil => rfl
  | cons c text ih =>
    have hc : c ≠ q := fun heq => h (heq ▸ List.mem_cons_self)
    rw [escape_cons_of_ne hc, ih fun hm => h (List.mem_cons_of_mem _ hm)]

theorem quoted_of_not_mem {text : List α} (h : q ∉ text) : quoted q text = q :: (text ++ [q]) := by
  unfold quoted
  rw [escape_of_not_mem h]

/-! ## Reading a literal -/

theorem escape_append_inj {s t rest rest' : List α} (hrest : rest.head? ≠ some q)
    (hrest' : rest'.head? ≠ some q)
    (h : escape q s ++ q :: rest = escape q t ++ q :: rest') : s = t ∧ rest = rest' := by
  induction s generalizing t with
  | nil =>
    cases t with
    | nil => exact ⟨rfl, List.tail_eq_of_cons_eq h⟩
    | cons d t =>
      by_cases hd : d = q
      · -- the quote that ends one text is doubled in the other
        rw [hd, escape_quote_cons] at h
        exact absurd (congrArg List.head? (List.tail_eq_of_cons_eq h)) hrest
      · rw [escape_cons_of_ne hd] at h
        exact absurd (List.head_eq_of_cons_eq h).symm hd
  | cons c s ih =>
    by_cases hc : c = q
    · rw [hc, escape_quote_cons] at h
      cases t with
      | nil => exact absurd (congrArg List.head? (List.tail_eq_of_cons_eq h)).symm hrest'
      | cons d t =>
        by_cases hd : d = q
        · rw [hd, escape_quote_cons] at h
          obtain ⟨hst, hrests⟩ := ih (List.tail_eq_of_cons_eq (List.tail_eq_of_cons_eq h))
          exact ⟨by rw [hc, hd, hst], hrests⟩
        · rw [escape_cons_of_ne hd] at h
          exact absurd (List.head_eq_of_cons_eq h).symm hd
    · rw [escape_cons_of_ne hc] at h
      cases t with
      | nil => exact absurd (List.head_eq_of_cons_eq h) hc
      | cons d t =>
        by_cases hd : d = q
        · rw [hd, escape_quote_cons] at h
          exact absurd (List.head_eq_of_cons_eq h) hc
        · rw [escape_cons_of_ne hd] at h
          obtain ⟨hst, hrests⟩ := ih (List.tail_eq_of_cons_eq h)
          exact ⟨by rw [List.head_eq_of_cons_eq h, hst], hrests⟩

/-- A literal and what stands behind it are known from the whole. -/
theorem quoted_append_inj {s t rest rest' : List α} (hrest : rest.head? ≠ some q)
    (hrest' : rest'.head? ≠ some q) (h : quoted q s ++ rest = quoted q t ++ rest') :
    s = t ∧ rest = rest' := by
  unfold quoted at h
  simp only [List.cons_append, List.append_assoc, List.cons.injEq, true_and,
    List.nil_append] at h
  exact escape_append_inj hrest hrest' h

/-! ## Texts that are put between quotes as they are -/

/-- Behind at least one more quote a text does not come to the end of its literal. -/
theorem replicate_escape_ne {n : ℕ} {text rest rest' : List α} (hrest : rest.head? ≠ some q) :
    List.replicate (n + 1) q ++ (escape q text ++ q :: rest') ≠ text ++ q :: rest := by
  induction text generalizing n with
  | nil =>
    intro h
    rw [List.replicate_succ, List.cons_append, List.nil_append, List.cons.injEq] at h
    refine hrest ?_
    rw [← h.2]
    cases n <;> rfl
  | cons c text ih =>
    intro h
    have hc : q = c := List.head_eq_of_cons_eq h
    rw [← hc, escape_quote_cons] at h
    have htail : List.replicate n q ++ (q :: q :: escape q text ++ q :: rest') =
        text ++ q :: rest := List.tail_eq_of_cons_eq h
    refine @ih (n + 1) ?_
    rw [← htail, List.replicate_succ', List.replicate_succ']
    simp

/-- A text that is read back from between quotes has none of its own. -/
theorem not_mem_of_quoted_append {text rest rest' : List α} (hrest : rest.head? ≠ some q)
    (h : quoted q text ++ rest' = q :: (text ++ q :: rest)) : q ∉ text := by
  unfold quoted at h
  simp only [List.cons_append, List.append_assoc, List.cons.injEq, true_and,
    List.nil_append] at h
  induction text with
  | nil => exact List.not_mem_nil
  | cons c text ih =>
    by_cases hc : c = q
    · rw [hc, escape_quote_cons] at h
      exact absurd (List.tail_eq_of_cons_eq h) (@replicate_escape_ne _ _ _ 0 _ _ _ hrest)
    · rw [escape_cons_of_ne hc] at h
      exact fun hm => (List.mem_cons.1 hm).elim (fun heq => hc heq.symm)
        (ih (List.tail_eq_of_cons_eq h))

/-- A literal has a second quote. -/
theorem quoted_append_ne {text rest u : List α} (h : q ∉ u) : quoted q text ++ rest ≠ q :: u := by
  intro heq
  unfold quoted at heq
  rw [List.cons_append, List.cons.injEq] at heq
  refine h ?_
  rw [← heq.2]
  simp

/-! ## Literals in a text -/

/-- The texts, made literals by `literal`, with a piece of text in front of each. -/
def spliced (literal : List α → List α) : List (List α) → List (List α) → List α
  | piece :: pieces, text :: texts => piece ++ (literal text ++ spliced literal pieces texts)
  | _, _ => []

/-- Pieces that do not begin with a quote, none of them empty. -/
def Opening (q : α) (pieces : List (List α)) : Prop :=
  ∀ piece ∈ pieces, piece ≠ [] ∧ piece.head? ≠ some q

omit [DecidableEq α] in
theorem Opening.tail {piece : List α} {pieces : List (List α)} (h : Opening q (piece :: pieces)) :
    Opening q pieces := fun p hp => h p (List.mem_cons_of_mem _ hp)

omit [DecidableEq α] in
/-- What stands behind a literal does not begin with a quote. -/
theorem head?_spliced_ne (literal : List α → List α) {pieces : List (List α)}
    (hpieces : Opening q pieces) (texts : List (List α)) {behind : List α}
    (hbehind : behind.head? ≠ some q) :
    (spliced literal pieces texts ++ behind).head? ≠ some q := by
  cases pieces with
  | nil => exact hbehind
  | cons piece pieces =>
    cases texts with
    | nil => exact hbehind
    | cons text texts =>
      obtain ⟨hne, hhead⟩ := hpieces piece List.mem_cons_self
      cases piece with
      | nil => exact absurd rfl hne
      | cons c piece => exact hhead

omit [DecidableEq α] in
theorem spliced_congr {literal literal' : List α → List α} (pieces : List (List α))
    {texts : List (List α)} (h : ∀ text ∈ texts, literal text = literal' text) :
    spliced literal pieces texts = spliced literal' pieces texts := by
  induction pieces generalizing texts with
  | nil => rfl
  | cons piece pieces ih =>
    cases texts with
    | nil => rfl
    | cons text texts =>
      unfold spliced
      rw [h text List.mem_cons_self, ih fun t ht => h t (List.mem_cons_of_mem _ ht)]

omit [DecidableEq α] in
theorem not_mem_spliced {c : α} {literal : List α → List α} {pieces texts : List (List α)}
    (hpieces : ∀ piece ∈ pieces, c ∉ piece) (htexts : ∀ text ∈ texts, c ∉ literal text) :
    c ∉ spliced literal pieces texts := by
  induction pieces generalizing texts with
  | nil => exact List.not_mem_nil
  | cons piece pieces ih =>
    cases texts with
    | nil => exact List.not_mem_nil
    | cons text texts =>
      unfold spliced
      rw [List.mem_append, List.mem_append]
      rintro (h | h | h)
      · exact hpieces piece List.mem_cons_self h
      · exact htexts text List.mem_cons_self h
      · exact ih (fun p hp => hpieces p (List.mem_cons_of_mem _ hp))
          (fun t ht => htexts t (List.mem_cons_of_mem _ ht)) h

/-- A list of literals is known from the text that it is spliced into. -/
theorem spliced_quoted_inj {pieces : List (List α)} (hpieces : Opening q pieces)
    {texts texts' : List (List α)} (hlength : texts.length = pieces.length)
    (hlength' : texts'.length = pieces.length) {behind : List α}
    (hbehind : behind.head? ≠ some q)
    (h : spliced (quoted q) pieces texts ++ behind = spliced (quoted q) pieces texts' ++ behind) :
    texts = texts' := by
  induction pieces generalizing texts texts' with
  | nil => rw [List.length_eq_zero_iff.1 hlength, List.length_eq_zero_iff.1 hlength']
  | cons piece pieces ih =>
    cases texts with
    | nil => cases hlength
    | cons text texts =>
      cases texts' with
      | nil => cases hlength'
      | cons text' texts' =>
        unfold spliced at h
        simp only [List.append_assoc, List.append_cancel_left_eq] at h
        obtain ⟨htext, hrest⟩ := quoted_append_inj
          (head?_spliced_ne _ hpieces.tail texts hbehind)
          (head?_spliced_ne _ hpieces.tail texts' hbehind) h
        rw [htext, ih hpieces.tail (Nat.succ.inj hlength) (Nat.succ.inj hlength') hrest]

end Lib
