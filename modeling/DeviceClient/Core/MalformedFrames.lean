import DeviceClient.Core.MessageQueue
import Mathlib.Tactic.SplitIfs

/-!
# Malformed frames

What the server does with bytes that are not messages. A stream is taken as frames, each
with the length that its header announces, and a rest that is not a whole one. A frame
with other sync bytes or a length over the limit is passed over by its header only; a
frame of type 0 throws out of the reader, and so does a handler that throws.

* `outcome_of_header`: the outcome of a header, by its fields.
* `Harmless`, `HarmlessRest`: the frames that leave the server sound.
* `sound_iff`: the server stays sound on a stream iff all its frames are such.
-/

namespace DeviceClient

open Lib IgniteMessage

namespace MessageQueue

section

variable {Handler : Type} (order : ByteOrder)
  (listSubscriberList : List (SubscriberListItem Handler))
  (returns : Handler → IgniteMessage → Bool)

/-! ## Turns of one connection -/

/-- The connection after `k` turns in which its socket is ready; a closed one has no more. -/
def serveTurns : ℕ → Connection Handler → Option (Connection Handler)
  | 0, c => some c
  | k + 1, c =>
    (serveTurns k c).bind fun c =>
      if c.isOpen then serveSocket order listSubscriberList returns c else some c

/-- The header is taken: its sync bytes are right and its length is within the limit. -/
def HeaderTaken (stream : List UInt8) : Prop :=
  stream.take 8 = SYNC_BYTES ∧ field order stream 20 ≤ MAX_MESSAGE_LENGTH

instance (stream : List UInt8) : Decidable (HeaderTaken order stream) :=
  inferInstanceAs (Decidable (_ ∧ _))

/-- The message of a frame, if there is one. -/
def frameMessage (nSd : ℤ) (f : List UInt8) : Option IgniteMessage :=
  if HeaderTaken order f then (ofSerialized order f).map (setRecipient nSd) else none

/-- After any number of turns no exception has ended the reader, and the connection is
closed or at the end of a frame, with the messages of the frames up to there delivered. -/
def Sound (c₀ : Connection Handler) (frames : List (List UInt8)) (rest : List UInt8) : Prop :=
  ∀ k, ∃ c, serveTurns order listSubscriberList returns k c₀ = some c ∧
    ∃ j, (c.isOpen = true → c.pending = Framing.after frames rest j) ∧
      c.received = (frames.take j).filterMap (frameMessage order c₀.nSd)

/-- A frame with a type that is taken and whose handlers return, or that has no body. -/
def Harmless (nSd : ℤ) (f : List UInt8) : Prop :=
  0 < field order f 8 ∧
    (HeaderTaken order f → ∀ rcvmsg, frameMessage order nSd f = some rcvmsg →
      handled listSubscriberList returns rcvmsg = true) ∧
    (¬ HeaderTaken order f → field order f 20 = 0)

/-- A frame that is cut off has a header that is taken, if it has a header. -/
def HarmlessRest (rest : List UInt8) : Prop :=
  MSG_HEADER_SIZE ≤ rest.length → 0 < field order rest 8 ∧ HeaderTaken order rest

variable {order} {listSubscriberList} {returns}

/-! ## Headers -/

theorem field_lt (l : List UInt8) (offset : ℕ) : field order l offset < 2 ^ 32 := by
  unfold field
  exact order.number_lt (List.length_take_le 4 _)

theorem bmod_le_iff {n : ℕ} (h : n < 2 ^ 32) :
    (0 ≤ Int.bmod n (2 ^ 32) ∧ Int.bmod n (2 ^ 32) ≤ MAX_MESSAGE_LENGTH) ↔
      n ≤ MAX_MESSAGE_LENGTH := by
  unfold Int.bmod MAX_MESSAGE_LENGTH
  have hmod : (n : ℤ) % ((2 ^ 32 : ℕ) : ℤ) = n := Int.emod_eq_of_lt (by omega) (by omega)
  dsimp only
  rw [hmod]
  split_ifs <;> omega

/-- The outcome of a header that has arrived. -/
theorem outcome_of_header {stream : List UInt8} (h : MSG_HEADER_SIZE ≤ stream.length) :
    outcome order stream =
      if field order stream 8 ≤ 0 then none
      else if HeaderTaken order stream then
        if stream.length < MSG_HEADER_SIZE + field order stream 20 then some .closed
        else
          (ofSerialized order (stream.take (MSG_HEADER_SIZE + field order stream 20))).map fun msg =>
            .message msg (MSG_HEADER_SIZE + field order stream 20)
      else some .skipped := by
  have htake : (stream.take MSG_HEADER_SIZE).take 8 = stream.take 8 := by
    rw [List.take_take]
    rfl
  unfold outcome getMessageSize
  rw [if_neg (Nat.not_lt.2 h), field_take (by decide), field_take (by decide), htake]
  by_cases htype : field order stream 8 ≤ 0
  · rw [if_pos htype, if_pos htype]
    rfl
  rw [if_neg htype, if_neg htype]
  by_cases hsync : stream.take 8 = SYNC_BYTES
  · rw [if_neg (not_not.2 hsync), Option.bind_some]
    -- a length from 2^31 on is a negative `int`, and refused as well
    have hlength := bmod_le_iff (@field_lt order stream 20)
    by_cases hmax : field order stream 20 ≤ MAX_MESSAGE_LENGTH
    · have htaken : HeaderTaken order stream := ⟨hsync, hmax⟩
      have hsize : Int.bmod (field order stream 20) (2 ^ 32) = field order stream 20 := by
        unfold MAX_MESSAGE_LENGTH at hmax
        exact Int.bmod_eq_of_le (by omega) (by omega)
      rw [if_pos (hlength.2 hmax), if_pos htaken, hsize, Int.toNat_natCast]
    · have hnot : ¬ HeaderTaken order stream := fun htaken => hmax htaken.2
      rw [if_neg fun hle => hmax (hlength.1 hle), if_neg hnot]
  · have hnot : ¬ HeaderTaken order stream := fun htaken => hsync htaken.1
    rw [if_pos hsync, Option.bind_some, if_neg (by decide), if_neg hnot]

/-! ## Frames -/

variable {f rest : List UInt8} {frames : List (List UInt8)} {nSd : ℤ}

theorem headerSize_le (hf : (framing order).IsFrame f) : MSG_HEADER_SIZE ≤ f.length :=
  hf.headerSize_le

/-- The fields of a frame are its own whatever is behind it. -/
theorem field_append_frame (hf : (framing order).IsFrame f) {offset : ℕ}
    (h : offset + 4 ≤ MSG_HEADER_SIZE) (t : List UInt8) :
    field order (f ++ t) offset = field order f offset := by
  rw [← field_take h (f ++ t), ← field_take h f]
  congr 1
  exact hf.take_append t

theorem headerTaken_append_frame (hf : (framing order).IsFrame f) (t : List UInt8) :
    HeaderTaken order (f ++ t) ↔ HeaderTaken order f := by
  have hheader := headerSize_le hf
  have htake : (f ++ t).take 8 = f.take 8 := by
    apply List.take_append_of_le_length
    unfold MSG_HEADER_SIZE at hheader
    omega
  unfold HeaderTaken
  rw [htake, field_append_frame hf (by decide)]

theorem length_frame (hf : (framing order).IsFrame f) :
    f.length = MSG_HEADER_SIZE + field order f 20 := by
  have hlength : f.length = MSG_HEADER_SIZE + field order (f.take MSG_HEADER_SIZE) 20 := hf
  rw [field_take (by decide)] at hlength
  exact hlength

/-- The outcome of a frame, whatever is behind it. -/
theorem outcome_frame (hf : (framing order).IsFrame f) (t : List UInt8) :
    outcome order (f ++ t) =
      if field order f 8 ≤ 0 then none
      else if HeaderTaken order f then
        (ofSerialized order f).map fun msg => .message msg f.length
      else some .skipped := by
  have hheader : MSG_HEADER_SIZE ≤ (f ++ t).length := by
    rw [List.length_append]
    exact Nat.le_add_right_of_le (headerSize_le hf)
  rw [outcome_of_header hheader, field_append_frame hf (by decide),
    field_append_frame hf (by decide), ← length_frame hf, List.take_left' rfl]
  simp only [headerTaken_append_frame hf]
  rw [if_neg (c := (f ++ t).length < f.length)]
  rw [List.length_append]
  omega

theorem exists_ofSerialized (h : 0 < field order f 8) : ∃ msg, ofSerialized order f = some msg := by
  unfold ofSerialized
  rw [if_pos h]
  exact ⟨_, rfl⟩

/-! ## Turns -/

section

variable {c c₀ : Connection Handler}

theorem serveTurns_succ {k : ℕ} (h : serveTurns order listSubscriberList returns k c₀ = some c)
    (hopen : c.isOpen = true) :
    serveTurns order listSubscriberList returns (k + 1) c₀ =
      serveSocket order listSubscriberList returns c := by
  unfold serveTurns
  rw [h, Option.bind_some, if_pos hopen]

/-- A harmless frame is passed, with its message if it has one. -/
theorem serveSocket_harmless (hf : (framing order).IsFrame f)
    (hharmless : Harmless order listSubscriberList returns c.nSd f) {t : List UInt8}
    (hpending : c.pending = f ++ t) :
    ∃ c', serveSocket order listSubscriberList returns c = some c' ∧ c'.isOpen = c.isOpen ∧
      c'.nSd = c.nSd ∧ c'.pending = t ∧
      c'.received = c.received ++ (frameMessage order c.nSd f).toList := by
  rcases hharmless with ⟨htype, hhandled, hempty⟩
  rcases @serveSocket_eq Handler order listSubscriberList returns c with ⟨reads, hserve⟩
  rw [hserve, hpending, outcome_frame hf, if_neg (by omega)]
  by_cases htaken : HeaderTaken order f
  · rcases exists_ofSerialized htype with ⟨msg, hmsg⟩
    have hframe : frameMessage order c.nSd f = some (msg.setRecipient c.nSd) := by
      unfold frameMessage
      rw [if_pos htaken, hmsg]
      rfl
    rw [if_pos htaken, hmsg, Option.map_some, Option.bind_some, hframe]
    unfold Connection.after
    dsimp only
    rw [if_pos (hhandled htaken _ hframe)]
    refine ⟨_, rfl, rfl, rfl, ?_, rfl⟩
    show c.pending.drop f.length = t
    rw [hpending, List.drop_left' rfl]
  · have hlength : f.length = MSG_HEADER_SIZE := by
      rw [length_frame hf, hempty htaken, Nat.add_zero]
    have hframe : frameMessage order c.nSd f = none := if_neg htaken
    rw [if_neg htaken, Option.bind_some, hframe]
    refine ⟨_, rfl, rfl, rfl, ?_, ?_⟩
    · show c.pending.drop MSG_HEADER_SIZE = t
      rw [hpending, List.drop_left' hlength]
    · exact (List.append_nil _).symm

variable {stream : List UInt8} {chunk : ℕ → ℕ+}

/-- While the frames are harmless, each turn passes one. -/
theorem serveTurns_harmless (hsplit : (framing order).Split stream frames rest) {k : ℕ}
    (hk : k ≤ frames.length)
    (hharmless : ∀ i < k, ∀ f, frames[i]? = some f →
      Harmless order listSubscriberList returns nSd f) :
    ∃ c, serveTurns order listSubscriberList returns k (Connection.accept nSd stream chunk) =
        some c ∧
      c.isOpen = true ∧ c.nSd = nSd ∧ c.pending = Framing.after frames rest k ∧
      c.received = (frames.take k).filterMap (frameMessage order nSd) := by
  induction k with
  | zero => exact ⟨_, rfl, rfl, rfl, hsplit.eq, rfl⟩
  | succ k ih =>
    rcases ih (Nat.le_of_succ_le hk) (fun i hi => hharmless i (Nat.lt_succ_of_lt hi)) with
      ⟨c, hturns, hopen, hnSd, hpending, hreceived⟩
    have hget : frames[k]? = some frames[k] := List.getElem?_eq_getElem hk
    have hframe := hsplit.isFrame _ (List.getElem_mem hk)
    have hpass := hharmless k (Nat.lt_succ_self k) _ hget
    rw [← hnSd] at hpass
    rcases serveSocket_harmless hframe hpass (hpending.trans (Framing.after_eq_append hget)) with
      ⟨c', hserve, hopen', hnSd', hpending', hreceived'⟩
    refine ⟨c', (serveTurns_succ hturns hopen).trans hserve, hopen'.trans hopen,
      hnSd'.trans hnSd, hpending', ?_⟩
    rw [hreceived', hreceived, List.take_add_one, hget, List.filterMap_append, hnSd]
    rfl

/-! ## Soundness -/

/-- A frame behind harmless ones is harmless, if the server stays sound. -/
theorem harmless_of_sound (hsplit : (framing order).Split stream frames rest)
    (hsound : Sound order listSubscriberList returns
      (Connection.accept nSd stream chunk) frames rest) {k : ℕ} (hget : frames[k]? = some f)
    (hharmless : ∀ i < k, ∀ f, frames[i]? = some f →
      Harmless order listSubscriberList returns nSd f) :
    Harmless order listSubscriberList returns nSd f := by
  have hk : k < frames.length := (List.getElem?_eq_some_iff.1 hget).1
  have hframe := hsplit.isFrame f (List.mem_of_getElem? hget)
  rcases @serveTurns_harmless _ _ listSubscriberList returns _ _ nSd _ chunk hsplit k
    (Nat.le_of_lt hk) hharmless with ⟨c, hturns, hopen, hnSd, hpending, -⟩
  rcases @serveSocket_eq Handler order listSubscriberList returns c with ⟨reads, hserve⟩
  rcases hsound (k + 1) with ⟨c', hturn, j, hboundary, -⟩
  rw [serveTurns_succ hturns hopen, hserve, hpending, Framing.after_eq_append hget,
    outcome_frame hframe] at hturn
  have htype : 0 < field order f 8 := by
    by_contra hnot
    rw [if_pos (by omega)] at hturn
    cases hturn
  rw [if_neg (by omega)] at hturn
  refine ⟨htype, fun htaken rcvmsg hmsg => ?_, fun htaken => ?_⟩
  · rcases exists_ofSerialized htype with ⟨msg, hmsg'⟩
    unfold frameMessage at hmsg
    rw [if_pos htaken, hmsg'] at hmsg
    rw [if_pos htaken, hmsg', Option.map_some, Option.bind_some] at hturn
    unfold Connection.after at hturn
    dsimp only at hturn
    rw [hnSd] at hturn
    rw [← Option.some.inj hmsg]
    -- a handler that throws ends the reader
    by_contra hthrows
    rw [if_neg hthrows] at hturn
    cases hturn
  · rw [if_neg htaken, Option.bind_some] at hturn
    have hc' := Option.some.inj hturn
    have hpending' : c'.pending = c.pending.drop MSG_HEADER_SIZE := by rw [← hc']
    have hopen' : c'.isOpen = true := by
      rw [← hc']
      exact hopen
    -- the connection is behind the header, and so inside the frame unless it ends there
    by_contra hbody
    have hlength := length_frame hframe
    have hinside : ∀ f', frames[k]? = some f' → MSG_HEADER_SIZE < f'.length := by
      intro f' hf'
      rw [hget] at hf'
      rw [← Option.some.inj hf']
      omega
    have hle : MSG_HEADER_SIZE ≤ (Framing.after frames rest k).length := by
      rw [Framing.after_eq_append hget, List.length_append]
      omega
    apply Framing.drop_ne_after (by decide) hle hinside j
    rw [← hpending, ← hpending']
    exact hboundary hopen'

theorem harmlessRest_of_sound (hsplit : (framing order).Split stream frames rest)
    (hsound : Sound order listSubscriberList returns
      (Connection.accept nSd stream chunk) frames rest)
    (hharmless : ∀ i < frames.length, ∀ f, frames[i]? = some f →
      Harmless order listSubscriberList returns nSd f) : HarmlessRest order rest := by
  intro hheader
  rcases @serveTurns_harmless _ _ listSubscriberList returns _ _ nSd _ chunk hsplit
    frames.length (Nat.le_refl _) hharmless with ⟨c, hturns, hopen, -, hpending, -⟩
  rcases @serveSocket_eq Handler order listSubscriberList returns c with ⟨reads, hserve⟩
  rcases hsound (frames.length + 1) with ⟨c', hturn, j, hboundary, -⟩
  have hrest : Framing.after frames rest frames.length = rest :=
    Framing.after_of_length_le (Nat.le_refl _)
  rw [serveTurns_succ hturns hopen, hserve, hpending, hrest, outcome_of_header hheader] at hturn
  -- a type of zero would end the server
  have htype : 0 < field order rest 8 := by
    by_contra hnot
    rw [if_pos (by omega)] at hturn
    cases hturn
  rw [if_neg (by omega)] at hturn
  refine ⟨htype, ?_⟩
  by_contra htaken
  rw [if_neg htaken, Option.bind_some] at hturn
  have hc' := Option.some.inj hturn
  have hpending' : c'.pending = c.pending.drop MSG_HEADER_SIZE := by rw [← hc']
  have hopen' : c'.isOpen = true := by
    rw [← hc']
    exact hopen
  -- behind the header the reader would stand at no boundary
  have hinside : ∀ f', frames[frames.length]? = some f' → MSG_HEADER_SIZE < f'.length := by
    intro f' hf'
    rw [List.getElem?_eq_none (Nat.le_refl _)] at hf'
    cases hf'
  have hle : MSG_HEADER_SIZE ≤ (Framing.after frames rest frames.length).length := by
    rw [hrest]
    exact hheader
  apply Framing.drop_ne_after (by decide) hle hinside j
  rw [← hpending, ← hpending']
  exact hboundary hopen'

/-- A harmless rest closes the connection. -/
theorem outcome_harmlessRest (htruncated : (framing order).Truncated rest)
    (hharmless : HarmlessRest order rest) : outcome order rest = some .closed := by
  by_cases hheader : MSG_HEADER_SIZE ≤ rest.length
  · rcases hharmless hheader with ⟨htype, htaken⟩
    have hlt : rest.length < MSG_HEADER_SIZE + field order (rest.take MSG_HEADER_SIZE) 20 :=
      htruncated
    rw [field_take (by decide)] at hlt
    rw [outcome_of_header hheader, if_neg (by omega), if_pos htaken, if_pos hlt]
  · exact if_pos (Nat.lt_of_not_le hheader)

/-- On every stream, taken as frames and a rest, and for all chunks: the server stays
sound iff the frames and the rest are harmless. -/
theorem sound_iff (hsplit : (framing order).Split stream frames rest) :
    Sound order listSubscriberList returns (Connection.accept nSd stream chunk) frames rest ↔
      (∀ f ∈ frames, Harmless order listSubscriberList returns nSd f) ∧
        HarmlessRest order rest := by
  constructor
  · intro hsound
    have hall : ∀ (k : ℕ) (f : List UInt8), frames[k]? = some f →
        Harmless order listSubscriberList returns nSd f := by
      intro k
      induction k using Nat.strong_induction_on with
      | _ k ih =>
        intro f hget
        exact harmless_of_sound hsplit hsound hget ih
    refine ⟨fun f hf => ?_, harmlessRest_of_sound hsplit hsound fun k _ => hall k⟩
    rcases List.getElem?_of_mem hf with ⟨k, hget⟩
    exact hall k f hget
  · rintro ⟨hframes, hrest⟩ k
    have hharmless : ∀ (k i : ℕ), i < k → ∀ f : List UInt8, frames[i]? = some f →
        Harmless order listSubscriberList returns nSd f :=
      fun _ _ _ f hget => hframes f (List.mem_of_getElem? hget)
    by_cases hk : k ≤ frames.length
    · rcases @serveTurns_harmless _ _ listSubscriberList returns _ _ nSd _ chunk hsplit k hk
        (hharmless k) with ⟨c, hturns, -, -, hpending, hreceived⟩
      exact ⟨c, hturns, k, fun _ => hpending, hreceived⟩
    · -- one turn behind the last frame closes the connection, and then there are no more
      rcases Nat.exists_eq_add_of_lt (Nat.lt_of_not_le hk) with ⟨n, rfl⟩
      rcases @serveTurns_harmless _ _ listSubscriberList returns _ _ nSd _ chunk hsplit
        frames.length (Nat.le_refl _) (hharmless _) with
        ⟨c, hturns, hopen, -, hpending, hreceived⟩
      rcases @serveSocket_eq Handler order listSubscriberList returns c with ⟨reads, hserve⟩
      rw [hpending, Framing.after_of_length_le (Nat.le_refl _),
        outcome_harmlessRest hsplit.truncated hrest, Option.bind_some] at hserve
      have hclosed : ∀ n, serveTurns order listSubscriberList returns (frames.length + n + 1)
          (Connection.accept nSd stream chunk) = some { c with
            pending := [], reads := reads, isOpen := false, served := c.served + 1 } := by
        intro n
        induction n with
        | zero => exact (serveTurns_succ hturns hopen).trans hserve
        | succ n ih =>
          rw [Nat.add_assoc frames.length n 1] at ih
          unfold serveTurns
          rw [ih]
          rfl
      refine ⟨_, hclosed n, frames.length, fun h => Bool.noConfusion h, hreceived⟩

end

end

/-- A frame whose sync bytes are wrong and that has a body of two bytes, and a message behind
it: the server reads on in the body. -/
theorem not_sound_wrongSync :
    let bad : List UInt8 :=
      List.replicate 8 0 ++ [1, 0, 0, 0] ++ [0, 0, 0, 0] ++ [7, 0, 0, 0] ++ [2, 0, 0, 0] ++
        [65, 0] ++ [0, 0, 0, 0]
    let good : List UInt8 := IgniteMessage.serialize .little ⟨1, 0, false, 8, [66, 0]⟩
    ¬ Sound .little [⟨1, ()⟩] (fun _ _ => true)
      (Connection.accept 5 (bad ++ good) fun _ => 28) [bad, good] [] := by
  intro bad good hsound
  have hsplit : (framing .little).Split (bad ++ good) [bad, good] [] := by
    refine ⟨rfl, ?_, by unfold Framing.Truncated; decide⟩
    intro f hf
    rcases List.mem_cons.1 hf with rfl | hf
    · unfold Framing.IsFrame
      decide
    · rw [List.mem_singleton.1 hf]
      unfold Framing.IsFrame
      decide
  have hharmless := harmless_of_sound hsplit hsound rfl fun i hi => absurd hi (Nat.not_lt_zero i)
  have hempty := hharmless.2.2 (by decide)
  revert hempty
  decide

/-- A message, and a frame of another protocol without a body. -/
theorem sound_emptyFrame :
    let good : List UInt8 := IgniteMessage.serialize .little ⟨1, 0, false, 8, [66, 0]⟩
    let empty : List UInt8 := List.replicate 8 0 ++ [1, 0, 0, 0] ++ List.replicate 16 0
    Sound .little [⟨1, ()⟩] (fun _ _ => true)
      (Connection.accept 5 (empty ++ good) fun _ => 3) [empty, good] [] := by
  intro good empty
  have hsplit : (framing .little).Split (empty ++ good) [empty, good] [] := by
    refine ⟨rfl, ?_, by unfold Framing.Truncated; decide⟩
    intro f hf
    rcases List.mem_cons.1 hf with rfl | hf
    · unfold Framing.IsFrame
      decide
    · rw [List.mem_singleton.1 hf]
      unfold Framing.IsFrame
      decide
  refine (sound_iff hsplit).2 ⟨?_, fun h => absurd h (by decide)⟩
  intro f hf
  rcases List.mem_cons.1 hf with rfl | hf
  · exact ⟨by decide, fun _ _ _ => by simp [handled], fun _ => by decide⟩
  · rw [List.mem_singleton.1 hf]
    exact ⟨by decide, fun _ _ _ => by simp [handled], fun h => absurd (by decide) h⟩

end MessageQueue

end DeviceClient
