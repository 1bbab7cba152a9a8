import Mathlib.Algebra.Order.Ring.Nat
import Mathlib.Data.List.Basic

/-!
# Numbers as bytes, streams as frames

A number is written in `width` bytes, the least significant one first or last. A
frame is a header of fixed size and a body whose length the header tells; a stream
is frames and a rest that is not a whole one.

* `Lib.ByteOrder.number_bytes`: reading back what was written.
* `Lib.Framing.exists_frames`: every stream splits into frames and a rest.
* `Lib.Framing.drop_ne_after`: a reader inside a frame is not at the end of one.
-/

namespace Lib

/-! ## Numbers -/

/-- The `width` low bytes of a number, the least significant one first. -/
def littleEndian : ℕ → ℕ → List UInt8
  | 0, _ => []
  | width + 1, n => UInt8.ofNat n :: littleEndian width (n / 256)

def ofLittleEndian : List UInt8 → ℕ
  | [] => 0
  | b :: l => b.toNat + 256 * ofLittleEndian l

theorem length_littleEndian (width n : ℕ) : (littleEndian width n).length = width := by
  induction width generalizing n with
  | zero => rfl
  | succ width ih =>
    unfold littleEndian
    rw [List.length_cons, ih]

theorem ofLittleEndian_littleEndian (width n : ℕ) (h : n < 256 ^ width) :
    ofLittleEndian (littleEndian width n) = n := by
  induction width generalizing n with
  | zero =>
    rw [pow_zero] at h
    exact (Nat.lt_one_iff.1 h).symm
  | succ width ih =>
    rw [pow_succ'] at h
    unfold littleEndian ofLittleEndian
    rw [ih (n / 256) (Nat.div_lt_of_lt_mul h), UInt8.toNat_ofNat']
    exact Nat.mod_add_div n 256

theorem ofLittleEndian_lt {width : ℕ} {l : List UInt8} (h : l.length ≤ width) :
    ofLittleEndian l < 256 ^ width := by
  induction width generalizing l with
  | zero =>
    rw [List.length_eq_zero_iff.1 (Nat.le_zero.1 h)]
    exact Nat.one_pos
  | succ width ih =>
    rcases l with - | ⟨b, l⟩
    · exact Nat.pow_pos (by omega)
    · have hrest := ih (Nat.le_of_succ_le_succ h)
      have hb := b.toNat_lt
      rw [pow_succ']
      unfold ofLittleEndian
      omega

/-- The order of the bytes of a number. -/
inductive ByteOrder where
  | little
  | big
deriving DecidableEq, Repr

namespace ByteOrder

def bytes (width : ℕ) (n : ℕ) : ByteOrder → List UInt8
  | .little => littleEndian width n
  | .big => (littleEndian width n).reverse

def number (l : List UInt8) : ByteOrder → ℕ
  | .little => ofLittleEndian l
  | .big => ofLittleEndian l.reverse

@[simp] theorem length_bytes (order : ByteOrder) (width n : ℕ) :
    (order.bytes width n).length = width := by
  cases order with
  | little => exact length_littleEndian width n
  | big =>
    unfold bytes
    rw [List.length_reverse]
    exact length_littleEndian width n

/-- A number that fits is read back. -/
theorem number_bytes (order : ByteOrder) {width n : ℕ} (h : n < 256 ^ width) :
    order.number (order.bytes width n) = n := by
  cases order with
  | little => exact ofLittleEndian_littleEndian width n h
  | big =>
    unfold number bytes
    dsimp only
    rw [List.reverse_reverse]
    exact ofLittleEndian_littleEndian width n h

theorem number_lt (order : ByteOrder) {width : ℕ} {l : List UInt8} (h : l.length ≤ width) :
    order.number l < 256 ^ width := by
  cases order with
  | little => exact ofLittleEndian_lt h
  | big =>
    apply ofLittleEndian_lt
    rw [List.length_reverse]
    exact h

end ByteOrder

/-! ## Frames -/

/-- A header of fixed size that tells the length of the body. -/
structure Framing (β : Type*) where
  headerSize : ℕ
  bodyLength : List β → ℕ
  headerSize_pos : 0 < headerSize

namespace Framing

variable {β : Type*} (F : Framing β)

/-- The length of the frame at the head of a stream. -/
def frameLength (s : List β) : ℕ := F.headerSize + F.bodyLength (s.take F.headerSize)

/-- A whole frame, with nothing behind it. -/
def IsFrame (f : List β) : Prop := f.length = F.frameLength f

/-- The stream ends before its first frame does. -/
def Truncated (s : List β) : Prop := s.length < F.frameLength s

/-- A stream as its frames and a rest that is not a whole one. -/
structure Split (s : List β) (frames : List (List β)) (rest : List β) : Prop where
  eq : s = frames.flatten ++ rest
  isFrame : ∀ f ∈ frames, F.IsFrame f
  truncated : F.Truncated rest

variable {F}

theorem IsFrame.headerSize_le {f : List β} (h : F.IsFrame f) : F.headerSize ≤ f.length := by
  unfold IsFrame frameLength at h
  omega

theorem IsFrame.take_append {f : List β} (h : F.IsFrame f) (s : List β) :
    (f ++ s).take F.headerSize = f.take F.headerSize :=
  List.take_append_of_le_length h.headerSize_le

theorem isFrame_take {s : List β} (h : F.frameLength s ≤ s.length) :
    F.IsFrame (s.take (F.frameLength s)) := by
  have hheader : F.headerSize ≤ F.frameLength s := Nat.le_add_right _ _
  unfold IsFrame
  rw [List.length_take, Nat.min_eq_left h]
  unfold frameLength at hheader ⊢
  rw [List.take_take, Nat.min_eq_left hheader]

theorem exists_frames (F : Framing β) (s : List β) : ∃ frames rest, F.Split s frames rest := by
  induction hn : s.length using Nat.strong_induction_on generalizing s with
  | _ n ih =>
    by_cases h : F.frameLength s ≤ s.length
    · -- the first frame is whole, and what is behind it is shorter
      have hpos : 0 < F.frameLength s := Nat.add_pos_left F.headerSize_pos _
      have hlt : (s.drop (F.frameLength s)).length < n := by
        rw [List.length_drop]
        omega
      obtain ⟨frames, rest, hsplit⟩ := ih _ hlt (s.drop (F.frameLength s)) rfl
      refine ⟨s.take (F.frameLength s) :: frames, rest, ?_, ?_, hsplit.truncated⟩
      · rw [List.flatten_cons, List.append_assoc, ← hsplit.eq, List.take_append_drop]
      · exact List.forall_mem_cons.2 ⟨isFrame_take h, hsplit.isFrame⟩
    · refine ⟨[], s, ?_, ?_, Nat.lt_of_not_le h⟩
      · rw [List.flatten_nil, List.nil_append]
      · intro f hf
        cases hf

/-- What is left of a stream behind its first `k` frames. -/
def after (frames : List (List β)) (rest : List β) (k : ℕ) : List β :=
  (frames.drop k).flatten ++ rest

variable {frames : List (List β)} {rest : List β}

theorem after_of_length_le {k : ℕ} (h : frames.length ≤ k) : after frames rest k = rest := by
  unfold after
  rw [List.drop_eq_nil_of_le h, List.flatten_nil, List.nil_append]

theorem after_eq_append {k : ℕ} {f : List β} (h : frames[k]? = some f) :
    after frames rest k = f ++ after frames rest (k + 1) := by
  obtain ⟨hk, hf⟩ := List.getElem?_eq_some_iff.1 h
  unfold after
  rw [List.drop_eq_getElem_cons hk, hf, List.flatten_cons, List.append_assoc]

theorem length_after_le {j k : ℕ} (h : j ≤ k) :
    (after frames rest k).length ≤ (after frames rest j).length := by
  induction h with
  | refl => exact Nat.le_refl _
  | step _ ih =>
    rename_i m _
    refine Nat.le_trans ?_ ih
    cases hf : frames[m]? with
    | none =>
      have hm : frames.length ≤ m := List.getElem?_eq_none_iff.1 hf
      rw [after_of_length_le hm, after_of_length_le (Nat.le_succ_of_le hm)]
    | some f =>
      rw [after_eq_append hf, List.length_append]
      exact Nat.le_add_left _ _

/-- A reader that stops inside a frame, or inside the rest, is not behind a frame. -/
theorem drop_ne_after {k n : ℕ} (hpos : 0 < n) (hle : n ≤ (after frames rest k).length)
    (hinside : ∀ f, frames[k]? = some f → n < f.length) (j : ℕ) :
    (after frames rest k).drop n ≠ after frames rest j := by
  intro heq
  have hlength := congrArg List.length heq
  rw [List.length_drop] at hlength
  by_cases hj : j ≤ k
  · have hmono := @length_after_le β frames rest j k hj
    omega
  · have hmono : (after frames rest j).length ≤ (after frames rest (k + 1)).length :=
      length_after_le (Nat.lt_of_not_le hj)
    cases hf : frames[k]? with
    | none =>
      have hk : frames.length ≤ k := List.getElem?_eq_none_iff.1 hf
      have hkj : frames.length ≤ j := by omega
      rw [after_of_length_le hk, after_of_length_le hkj] at hlength
      rw [after_of_length_le hk] at hle
      omega
    | some f =>
      have hf' := hinside f hf
      rw [after_eq_append hf, List.length_append] at hlength
      omega

end Framing

end Lib
