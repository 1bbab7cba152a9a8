import DeviceClient.Db.TriggerSuffixes

/-!
# Matching pre-trigger and post-trigger rows

The policy for repeated triggers should consider every pre-trigger id, and pair
a pre-trigger row with the next row of its base event iff that one is a
post-trigger row.

* `MatchesTriggers`: it does, on a table.
* `clear_iff_adjacent`: where the patterns tell the rows apart, all neighbouring
  pairs are found iff no page edge parts one.
* `ThreeCharacters.matches_iff`: with suffixes of three characters the policy
  matches the triggers of a table iff no page edge parts a pair.
* `matchesTriggers`: with other suffixes every base event has a table on which
  it does not.
-/

namespace DeviceClient

namespace GranularityReduction

/-! ## Neighbouring rows -/

section Adjacent

variable {h : GRHandler}

theorem pair_infix_cons {r q x : GranularRow} {l : List GranularRow} :
    [r, q] <:+: x :: l ↔ (r = x ∧ l.head? = some q) ∨ [r, q] <:+: l := by
  rw [List.infix_cons_iff, List.cons_prefix_cons]
  refine or_congr_left (and_congr_right fun _ => ?_)
  cases l with
  | nil => simp
  | cons y l => simp [List.cons_prefix_cons, eq_comm]

/-- A pair found in a page is one of neighbours. -/
theorem adjacent_of_mem_foundIn {page : List GranularRow} {d : TrigEventDetails}
    (hd : .trigger d ∈ foundIn h page) (hpost : d.llPostTrigId ≠ -1) :
    ∃ r q, [r, q] <:+: page ∧ Takes h r q ∧ d = .of r (some q) := by
  -- a row alone has no partner
  have hone : ∀ r : GranularRow, ¬ .trigger d ∈ foundIn h [r] := by
    intro r hr
    simp only [foundIn] at hr
    split at hr
    · rw [List.mem_singleton] at hr
      cases hr
    · split at hr
      · cases hr
      · rw [List.mem_singleton] at hr
        exact hpost (by rw [Found.trigger.inj hr]; rfl)
  induction page using endsPending.induct h with
  | case1 => cases hd
  | case2 r => exact absurd hd (hone r)
  | case3 r q page ht ih =>
    rw [foundIn_cons_takes ht, List.mem_cons] at hd
    rcases hd with hd | hd
    · exact ⟨r, q, pair_infix_cons.2 (Or.inl ⟨rfl, rfl⟩), ht, Found.trigger.inj hd⟩
    · rcases ih hd with ⟨x, y, hin, hxy⟩
      exact ⟨x, y, pair_infix_cons.2 (Or.inr (pair_infix_cons.2 (Or.inr hin))), hxy⟩
  | case4 r q page ht ih =>
    rw [foundIn_cons_alone ht, List.mem_append] at hd
    rcases hd with hd | hd
    · exact absurd hd (hone r)
    · rcases ih hd with ⟨x, y, hin, hxy⟩
      exact ⟨x, y, pair_infix_cons.2 (Or.inr hin), hxy⟩

theorem suffix_nextRows {n : ℕ} {l : List GranularRow} (hl : l ≠ []) :
    nextRows h n l <:+ l := by
  rcases nextRows_split (h := h) (n := n) hl with ⟨a, v, hsplit⟩
  exact ⟨a ++ [v], by rw [List.append_assoc]; exact hsplit.symm⟩

theorem adjacent_of_mem_foundBy {n : ℕ} {d : TrigEventDetails} (hpost : d.llPostTrigId ≠ -1) :
    ∀ l : List GranularRow, .trigger d ∈ foundBy h n l →
      ∃ r q, [r, q] <:+: l ∧ Takes h r q ∧ d = .of r (some q) := by
  intro l
  induction hlen : l.length using Nat.strong_induction_on generalizing l with
  | _ k ih =>
    intro hd
    by_cases hl : l = []
    · rw [hl, foundBy_nil] at hd
      cases hd
    · rw [foundBy_of_ne hl, List.mem_append] at hd
      rcases hd with hd | hd
      · rcases adjacent_of_mem_foundIn hd hpost with ⟨r, q, hin, hrq⟩
        exact ⟨r, q, hin.trans (Lib.limit_isPrefixOf n l).isInfix, hrq⟩
      · rcases ih _ (hlen ▸ length_nextRows_lt hl) _ rfl hd with ⟨r, q, hin, hrq⟩
        exact ⟨r, q, hin.trans (suffix_nextRows hl).isInfix, hrq⟩

/-- The patterns tell the rows apart: one that may be a partner begins nothing. -/
def KindsApart (h : GRHandler) (l : List GranularRow) : Prop :=
  ∀ x ∈ l, isPostTrigger h x.eventId = true → Quiet h x

/-- In a single page every pair of neighbours is found. -/
theorem mem_foundIn_of_adjacent {page : List GranularRow} (hapart : KindsApart h page)
    {r q : GranularRow} (hin : [r, q] <:+: page) (ht : Takes h r q) :
    .trigger (.of r (some q)) ∈ foundIn h page := by
  induction page using endsPending.induct h with
  | case1 => simp at hin
  | case2 x =>
    rw [pair_infix_cons] at hin
    simp at hin
  | case3 x y page hxy ih =>
    rw [foundIn_cons_takes hxy, List.mem_cons]
    rw [pair_infix_cons, pair_infix_cons] at hin
    rcases hin with ⟨rfl, hq⟩ | ⟨rfl, _⟩ | hin
    · exact Or.inl (by rw [Option.some.inj hq])
    · -- the partner would begin a pair of its own
      have hquiet := hapart r (List.mem_cons_of_mem _ List.mem_cons_self) hxy.2.2
      have hpre := ht.2.1
      rw [hquiet.2] at hpre
      exact absurd hpre (by decide)
    · exact Or.inr (ih (fun z hz => hapart z (List.mem_cons_of_mem _ (List.mem_cons_of_mem _ hz)))
        hin)
  | case4 x y page hxy ih =>
    rw [foundIn_cons_alone hxy, List.mem_append]
    rw [pair_infix_cons] at hin
    rcases hin with ⟨rfl, hq⟩ | hin
    · rw [Option.some.inj hq] at hxy
      exact absurd ht hxy
    · exact Or.inr (ih (fun z hz => hapart z (List.mem_cons_of_mem _ hz)) hin)

/-- A page that is left pending ends with a pre-trigger row. -/
theorem endsPending_split {page : List GranularRow} (hpending : endsPending h page = true) :
    ∃ a r, page = a ++ [r] ∧ r.eventId ≠ clientLaunchedEvent ∧
      isPreTrigger h r.eventId = true := by
  induction page using endsPending.induct h with
  | case1 => cases hpending
  | case2 r =>
    rw [endsPending, Bool.and_eq_true, decide_eq_true_eq] at hpending
    exact ⟨[], r, rfl, hpending.1, hpending.2⟩
  | case3 r q page ht ih =>
    rw [endsPending, if_pos ht] at hpending
    rcases ih hpending with ⟨a, x, rfl, hx⟩
    exact ⟨r :: q :: a, x, rfl, hx⟩
  | case4 r q page ht ih =>
    rw [endsPending, if_neg ht] at hpending
    rcases ih hpending with ⟨a, x, hsplit, hx⟩
    exact ⟨r :: a, x, by rw [hsplit]; rfl, hx⟩

/-- A row that is left over is a partner. -/
theorem post_of_mem_leftOver {page : List GranularRow} {w : GranularRow}
    (hw : w ∈ leftOver h page) : w ∈ page ∧ isPostTrigger h w.eventId = true := by
  rcases leftOver_cases (h := h) page with hnil | ⟨a, v, x, hsplit, hvx, hone⟩
  · rw [hnil] at hw
    cases hw
  · rw [hone, List.mem_singleton] at hw
    rw [hw]
    refine ⟨?_, hvx.2.2⟩
    rw [hsplit]
    simp

@[simp] theorem llPreTrigId_of (r : GranularRow) (o : Option GranularRow) :
    (TrigEventDetails.of r o).llPreTrigId = r.id := by
  cases o with
  | none => rfl
  | some q => rfl

theorem llPostTrigId_of (r : GranularRow) {o : Option GranularRow} {id : ℕ}
    (hid : (TrigEventDetails.of r o).llPostTrigId = id) : ∃ q, o = some q ∧ q.id = id := by
  cases o with
  | none =>
    have hneg : (-1 : ℤ) = id := hid
    omega
  | some q => exact ⟨q, rfl, Int.natCast_inj.1 hid⟩

section Page

variable {n : ℕ} {l : List GranularRow}

/-- The rows of a page have lower ids than those behind it. -/
theorem id_lt_of_mem_behindPage (hsort : l.Pairwise fun r r' => r.id < r'.id) {x y : GranularRow}
    (hx : x ∈ Lib.limit n l) (hy : y ∈ behindPage n l) : x.id < y.id := by
  rw [← limit_append_behindPage n l] at hsort
  exact (List.pairwise_append.1 hsort).2.2 x hx y hy

/-- A trigger found in a page is not made of a row that is read on the next one: such a
row of the page is a partner, it begins nothing. -/
theorem pre_not_read_again (hapart : KindsApart h l)
    (hsort : l.Pairwise fun r r' => r.id < r'.id) {r : GranularRow} {o : Option GranularRow}
    (hr : r ∈ nextRows h n l) (hpre : isPreTrigger h r.eventId = true) :
    .trigger (.of r o) ∉ foundIn h (Lib.limit n l) := by
  intro hfound
  rcases madeOf_of_mem_foundIn hfound with ⟨x, o', hmade, heq⟩
  have hid : (r.id : ℤ) = x.id := by
    rw [← llPreTrigId_of r o, heq, llPreTrigId_of]
  rcases List.mem_append.1 hr with hleft | hbehind
  · rcases post_of_mem_leftOver hleft with ⟨hmem, hpost⟩
    have hquiet := hapart r (Lib.mem_of_mem_limit hmem) hpost
    rw [hquiet.2] at hpre
    exact absurd hpre (by decide)
  · have hlt := id_lt_of_mem_behindPage hsort hmade.pre hbehind
    omega

/-- The pair across the edge of a page is found neither on the page, which lacks the
partner, nor behind it, where its first row is not read again. -/
theorem edge_pair_not_found (hl : l ≠ []) (hapart : KindsApart h l)
    (hsort : l.Pairwise fun r r' => r.id < r'.id) {r q : GranularRow}
    (hr : r ∈ Lib.limit n l) (hq : q ∈ behindPage n l) :
    .trigger (.of r (some q)) ∉ foundBy h n l := by
  intro hfound
  rw [foundBy_of_ne hl, List.mem_append] at hfound
  rcases hfound with hfound | hfound
  · rcases madeOf_of_mem_foundIn hfound with ⟨x, o, hmade, heq⟩
    rcases llPostTrigId_of x (heq ▸ rfl : (TrigEventDetails.of x o).llPostTrigId = q.id) with
      ⟨y, ho, hid⟩
    have hlt := id_lt_of_mem_behindPage hsort (hmade.post y ho) hq
    omega
  · rcases madeOf_of_mem_foundBy _ hfound with ⟨x, o, hmade, heq⟩
    have hid : (r.id : ℤ) = x.id := by
      rw [← llPreTrigId_of r (some q), heq, llPreTrigId_of]
    rcases List.mem_append.1 hmade.pre with hleft | hbehind
    · rcases post_of_mem_leftOver hleft with ⟨_, hpost⟩
      have hquiet := hapart x ((suffix_nextRows hl).subset hmade.pre) hpost
      have hisPre := hmade.isPre
      rw [hquiet.2] at hisPre
      exact absurd hisPre (by decide)
    · have hlt := id_lt_of_mem_behindPage hsort hr hbehind
      omega

/-- A page edge is clear where all pairs of neighbours are found. -/
theorem clearAfter_of_found (hl : l ≠ []) (hapart : KindsApart h l)
    (hsort : l.Pairwise fun r r' => r.id < r'.id)
    (hall : ∀ r q, [r, q] <:+: l → Takes h r q → .trigger (.of r (some q)) ∈ foundBy h n l) :
    ClearAfter h (Lib.limit n l) (behindPage n l) := by
  intro hpending q hq
  rw [← Bool.not_eq_true]
  intro hpost
  rcases endsPending_split hpending with ⟨a, r, hsplit, hne, hpre⟩
  rcases List.head?_eq_some_iff.1 (Option.mem_def.1 hq) with ⟨rest, hrest⟩
  have hin : [r, q] <:+: l := by
    rw [← limit_append_behindPage n l, hsplit, hrest]
    exact ⟨a, rest, by simp⟩
  have hr : r ∈ Lib.limit n l := by
    rw [hsplit]
    exact List.mem_append_right _ (List.mem_singleton_self r)
  have hqmem : q ∈ behindPage n l := by
    rw [hrest]
    exact List.mem_cons_self
  exact edge_pair_not_found hl hapart hsort hr hqmem (hall r q hin ⟨hne, hpre, hpost⟩)

end Page

/-- Where the patterns tell the rows apart, all pairs of neighbours are found page
by page iff every page edge is clear. -/
theorem clear_iff_adjacent {n : ℕ} (hn : 0 < n) :
    ∀ l : List GranularRow, KindsApart h l → (l.Pairwise fun r r' => r.id < r'.id) →
      (PageEdgesClear h n l ↔
        ∀ r q, [r, q] <:+: l → Takes h r q → .trigger (.of r (some q)) ∈ foundBy h n l) := by
  intro l hapart hsort
  constructor
  · intro hclear r q hin ht
    rw [(foundBy_eq_iff hn l hsort).2 hclear, foundBy_zero, List.mem_append]
    exact Or.inl (mem_foundIn_of_adjacent hapart hin ht)
  · induction hlen : l.length using Nat.strong_induction_on generalizing l with
    | _ k ih =>
      intro hall
      by_cases hl : l = []
      · subst hl
        intro l' hl'
        cases hl' with
        | here => exact fun hne => absurd List.drop_nil hne
        | next hl _ => exact absurd rfl hl
      · rw [pageEdgesClear_of_ne hl]
        constructor
        · intro _
          refine ⟨clearAfter_of_found hl hapart hsort hall, fun w hw => ?_⟩
          rcases post_of_mem_leftOver hw with ⟨hmem, hpost⟩
          exact hapart w (Lib.mem_of_mem_limit hmem) hpost
        · have hsub : ∀ x ∈ nextRows h n l, x ∈ l := fun x hx => (suffix_nextRows hl).subset hx
          refine ih _ (hlen ▸ length_nextRows_lt hl) (nextRows h n l)
            (fun x hx => hapart x (hsub x hx)) (pairwise_nextRows hl hsort) rfl ?_
          intro r q hin ht
          have hfound := hall r q (hin.trans (suffix_nextRows hl).isInfix) ht
          rw [foundBy_of_ne hl, List.mem_append] at hfound
          exact hfound.resolve_left
            (pre_not_read_again hapart hsort (hin.subset List.mem_cons_self) ht.2.1)

end Adjacent

/-! ## Suffixes -/

/-- No line break: the dot of a pattern matches any other character. -/
def NoLineBreak (s : String) : Prop := ∀ c ∈ s.toList, c ≠ '\n' ∧ c ≠ '\r'

instance (s : String) : Decidable (NoLineBreak s) :=
  List.decidableBAll (fun c : Char => c ≠ '\n' ∧ c ≠ '\r') s.toList

/-- Letters and digits only: in a pattern they stand for themselves. -/
def Alphanumeric (s : String) : Prop := ∀ c ∈ s.toList, c.isAlphanum = true

instance (s : String) : Decidable (Alphanumeric s) :=
  List.decidableBAll (fun c : Char => c.isAlphanum = true) s.toList

/-- `std::regex_match` with the pattern made of an alphanumeric suffix: the suffix
ends the name, and no line break stands before it. -/
def MatchesSuffixes (regexMatch : String → String → Bool) : Prop :=
  ∀ strName suffix, Alphanumeric suffix →
    (regexMatch strName ("(.*)(" ++ suffix ++ ")") = true ↔
      ∃ base, strName = base ++ suffix ∧ NoLineBreak base)

/-- Two alphanumeric suffixes, neither empty nor the same. -/
structure DistinctSuffixes (h : GRHandler) : Prop where
  pre : Alphanumeric h.strPreTrgrEventIdSuffix
  post : Alphanumeric h.strPostTrgrEventIdSuffix
  preNonempty : h.strPreTrgrEventIdSuffix ≠ ""
  postNonempty : h.strPostTrgrEventIdSuffix ≠ ""
  distinct : h.strPreTrgrEventIdSuffix ≠ h.strPostTrgrEventIdSuffix

/-- Both suffixes have three characters, and the session marker does not end with
that of the post-trigger ids. -/
structure ThreeCharacters (h : GRHandler) : Prop where
  pre : h.strPreTrgrEventIdSuffix.length = 3
  post : h.strPostTrgrEventIdSuffix.length = 3
  marker : ∀ base, postTriggerIdOf h base ≠ clientLaunchedEvent

theorem append_suffix_inj {b s b' s' : String} (heq : b ++ s = b' ++ s')
    (hlen : s.length = s'.length) : b = b' ∧ s = s' := by
  have hlist := congrArg String.toList heq
  rw [String.toList_append, String.toList_append] at hlist
  rcases List.append_inj' hlist (by rw [String.length_toList, String.length_toList, hlen]) with
    ⟨hbase, hsuffix⟩
  exact ⟨String.toList_inj.1 hbase, String.toList_inj.1 hsuffix⟩

section Names

variable {h : GRHandler}

/-- A part of an id has no line break if the id has none. -/
theorem NoLineBreak.of_append {b s : String} (hs : NoLineBreak (b ++ s)) : NoLineBreak b := by
  intro c hc
  refine hs c ?_
  rw [String.toList_append]
  exact List.mem_append_left _ hc

theorem isPreTrigger_iff (hregex : MatchesSuffixes h.regexMatch) (hsuf : DistinctSuffixes h)
    (strName : String) : isPreTrigger h strName = true ↔
      ∃ base, strName = preTriggerIdOf h base ∧ NoLineBreak base :=
  hregex strName h.strPreTrgrEventIdSuffix hsuf.pre

theorem isPostTrigger_iff (hregex : MatchesSuffixes h.regexMatch) (hsuf : DistinctSuffixes h)
    (strName : String) : isPostTrigger h strName = true ↔
      ∃ base, strName = postTriggerIdOf h base ∧ NoLineBreak base :=
  hregex strName h.strPostTrgrEventIdSuffix hsuf.post

theorem isPreTrigger_preTriggerIdOf (hregex : MatchesSuffixes h.regexMatch)
    (hsuf : DistinctSuffixes h) (base : String) :
    isPreTrigger h (preTriggerIdOf h base) = true ↔ NoLineBreak base := by
  rw [isPreTrigger_iff hregex hsuf]
  constructor
  · rintro ⟨b, heq, hb⟩
    rwa [(append_suffix_inj heq rfl).1]
  · exact fun hb => ⟨base, rfl, hb⟩

theorem isPostTrigger_postTriggerIdOf (hregex : MatchesSuffixes h.regexMatch)
    (hsuf : DistinctSuffixes h) (base : String) :
    isPostTrigger h (postTriggerIdOf h base) = true ↔ NoLineBreak base := by
  rw [isPostTrigger_iff hregex hsuf]
  constructor
  · rintro ⟨b, heq, hb⟩
    rwa [(append_suffix_inj heq rfl).1]
  · exact fun hb => ⟨base, rfl, hb⟩

/-- Suffixes of one length: no pre-trigger id is a post-trigger id. -/
theorem preTriggerIdOf_ne (hsuf : DistinctSuffixes h)
    (hlen : h.strPreTrgrEventIdSuffix.length = h.strPostTrgrEventIdSuffix.length)
    (base base' : String) : preTriggerIdOf h base ≠ postTriggerIdOf h base' :=
  fun heq => hsuf.distinct (append_suffix_inj heq hlen).2

theorem isPostTrigger_preTriggerIdOf (hregex : MatchesSuffixes h.regexMatch)
    (hsuf : DistinctSuffixes h)
    (hlen : h.strPreTrgrEventIdSuffix.length = h.strPostTrgrEventIdSuffix.length)
    (base : String) : isPostTrigger h (preTriggerIdOf h base) = false := by
  rw [← Bool.not_eq_true, isPostTrigger_iff hregex hsuf]
  rintro ⟨b, heq, _⟩
  exact preTriggerIdOf_ne hsuf hlen base b heq

theorem isPreTrigger_postTriggerIdOf (hregex : MatchesSuffixes h.regexMatch)
    (hsuf : DistinctSuffixes h)
    (hlen : h.strPreTrgrEventIdSuffix.length = h.strPostTrgrEventIdSuffix.length)
    (base : String) : isPreTrigger h (postTriggerIdOf h base) = false := by
  rw [← Bool.not_eq_true, isPreTrigger_iff hregex hsuf]
  rintro ⟨b, heq, _⟩
  exact preTriggerIdOf_ne hsuf hlen b base heq.symm

/-- The last characters of an id that ends with a suffix of that length. -/
theorem substrFromEnd_append (b : String) {s : String} {n : ℕ} (hs : s.length = n) (hn : 0 < n) :
    substrFromEnd (b ++ s) n = s.toList := by
  unfold substrFromEnd
  rw [if_neg (by omega), String.toList_append, List.length_append, String.length_toList,
    String.length_toList, hs, Nat.add_sub_cancel, ← String.length_toList, List.drop_left]

theorem length_substrFromEnd {s : String} {n : ℕ} (hs : n ≤ s.length) (hn : 0 < n) :
    (substrFromEnd s n).length = n := by
  unfold substrFromEnd
  rw [if_neg (by omega), List.length_drop, String.length_toList]
  omega

/-- Suffixes of one length: the id that the handler builds is the post-trigger id. -/
theorem partner_of_length (hlen : h.strPreTrgrEventIdSuffix.length =
      h.strPostTrgrEventIdSuffix.length) (base : String) :
    postTriggerEventId (preTriggerIdOf h base) h.strPostTrgrEventIdSuffix =
      postTriggerIdOf h base := by
  unfold postTriggerEventId preTriggerIdOf postTriggerIdOf
  rw [String.length_append, hlen, if_pos (Nat.le_add_left _ _), Nat.add_sub_cancel,
    String.toList_append, ← String.length_toList (s := base), List.take_left, String.ofList_toList]

/-- Only suffixes of one length give that id. -/
theorem length_eq_of_partner {base : String}
    (hpartner : postTriggerEventId (preTriggerIdOf h base) h.strPostTrgrEventIdSuffix =
      postTriggerIdOf h base) (hsuf : DistinctSuffixes h) :
    h.strPreTrgrEventIdSuffix.length = h.strPostTrgrEventIdSuffix.length := by
  have hlen := congrArg String.length hpartner
  have hpos : 0 < h.strPreTrgrEventIdSuffix.length := by
    rw [Nat.pos_iff_ne_zero, ← String.length_toList]
    intro hzero
    exact hsuf.preNonempty (String.toList_inj.1 (List.eq_nil_of_length_eq_zero hzero))
  unfold postTriggerEventId preTriggerIdOf postTriggerIdOf at hlen
  rw [String.length_append, String.length_append, String.length_append, String.length_ofList]
    at hlen
  split at hlen
  · rw [List.length_take, String.length_toList, String.length_append] at hlen
    omega
  · rw [String.length_toList, String.length_append] at hlen
    omega

end Names

/-! ## The policy on a table -/

/-- While it treats a pre-trigger id the handler notes the two rows as a pair. -/
def Paired (h : GRHandler) (t : GranularTable) (strPreTrigEventId : String)
    (llStartTime llEndTime : ℤ) (r q : GranularRow) : Prop :=
  ∃ d : TrigEventDetails,
    .trigger d ∈ (populateTriggerEventsList h dbEventQueryLimit t strPreTrigEventId llStartTime
      llEndTime).found ∧ d.llPreTrigId = (r.id : ℤ) ∧ d.llPostTrigId = (q.id : ℤ)

/-- The matching as it is meant: every pre-trigger id with attachments in the time
range is considered unless it is exempted or the session marker's, no other id
is, and two rows are paired iff they are the pre-trigger row and the next row of
their base event, and that one is a post-trigger row. -/
structure MatchesTriggers (h : GRHandler) (stPolicy : GRPolicy) (t : GranularTable)
    (llStartTime llEndTime : ℤ) : Prop where
  considers : ∀ base, stPolicy.strExemptedEvents (preTriggerIdOf h base) = false →
    preTriggerIdOf h base ≠ clientLaunchedEvent →
    (∃ r ∈ t.rows, inTimeRange llStartTime llEndTime r = true ∧ r.hasAttach = 1 ∧
      r.eventId = preTriggerIdOf h base) →
    preTriggerIdOf h base ∈ consideredIds h stPolicy t llStartTime llEndTime
  only : ∀ e ∈ consideredIds h stPolicy t llStartTime llEndTime,
    ∃ base, e = preTriggerIdOf h base
  pairs : ∀ base, preTriggerIdOf h base ∈ consideredIds h stPolicy t llStartTime llEndTime →
    ∀ r ∈ t.rows, ∀ q ∈ t.rows,
      (Paired h t (preTriggerIdOf h base) llStartTime llEndTime r q ↔
        r.eventId = preTriggerIdOf h base ∧ q.eventId = postTriggerIdOf h base ∧
          [r, q] <:+: baseRows h t base llStartTime llEndTime)

/-- For every id considered: no page edge parts a pair; and an id with a line break,
which no pattern matches, has no pair. -/
def PairsInReach (h : GRHandler) (stPolicy : GRPolicy) (t : GranularTable)
    (llStartTime llEndTime : ℤ) : Prop :=
  ∀ base, preTriggerIdOf h base ∈ consideredIds h stPolicy t llStartTime llEndTime →
    (NoLineBreak base →
      PageEdgesClear h dbEventQueryLimit (baseRows h t base llStartTime llEndTime)) ∧
    (¬ NoLineBreak base → ∀ r q, [r, q] <:+: baseRows h t base llStartTime llEndTime →
      ¬ (r.eventId = preTriggerIdOf h base ∧ q.eventId = postTriggerIdOf h base))

section Table

variable {h : GRHandler} {stPolicy : GRPolicy} {t : GranularTable} {llStartTime llEndTime : ℤ}

theorem mem_consideredIds {e : String} :
    e ∈ consideredIds h stPolicy t llStartTime llEndTime ↔
      (∃ r ∈ t.rows, inTimeRange llStartTime llEndTime r = true ∧ r.hasAttach = 1 ∧
        r.eventId = e) ∧ stPolicy.strExemptedEvents e = false ∧ e ≠ clientLaunchedEvent ∧
        substrFromEnd e 3 = h.strPreTrgrEventIdSuffix.toList := by
  unfold consideredIds
  rw [mem_uniqueEventIds]
  simp only [List.mem_filter, preTriggerSelection, notExempted, Bool.and_eq_true,
    Bool.not_eq_true', decide_eq_true_eq]
  constructor
  · rintro ⟨r, ⟨hr, ⟨⟨hrange, hex, hne⟩, hattach⟩, hcut⟩, rfl⟩
    exact ⟨⟨r, hr, hrange, hattach, rfl⟩, hex, hne, hcut⟩
  · rintro ⟨⟨r, hr, hrange, hattach, rfl⟩, hex, hne, hcut⟩
    exact ⟨r, ⟨hr, ⟨⟨hrange, hex, hne⟩, hattach⟩, hcut⟩, rfl⟩

/-- Two rows of a pair are found as such. -/
theorem paired_iff {e : String} {r q : GranularRow} (hr : r ∈ t.rows) (hq : q ∈ t.rows) :
    Paired h t e llStartTime llEndTime r q ↔
      .trigger (.of r (some q)) ∈
        foundBy h dbEventQueryLimit (rowsRead h t e llStartTime llEndTime) := by
  unfold Paired
  rw [found_populateTriggerEventsList]
  constructor
  · rintro ⟨d, hd, hpre, hpost⟩
    have hne : d.llPostTrigId ≠ -1 := by omega
    rcases adjacent_of_mem_foundBy hne _ hd with ⟨x, y, hin, _, rfl⟩
    have hread : ∀ z ∈ [x, y], z ∈ t.rows := fun z hz =>
      List.mem_of_mem_filter (List.mem_of_mem_filter (hin.subset hz))
    have hxid : (x.id : ℤ) = r.id := hpre
    have hyid : (y.id : ℤ) = q.id := hpost
    have hxr : x = r := t.eq_of_key_eq (hread x List.mem_cons_self) hr (by
      show x.id = r.id
      omega)
    have hyq : y = q := t.eq_of_key_eq (hread y (List.mem_cons_of_mem _ List.mem_cons_self)) hq (by
      show y.id = q.id
      omega)
    rwa [hxr, hyq] at hd
  · exact fun hfound => ⟨_, hfound, rfl, rfl⟩

theorem pairwise_baseRows (base : String) :
    (baseRows h t base llStartTime llEndTime).Pairwise fun r r' => r.id < r'.id :=
  (t.sorted.filter _).filter _

/-- Every id considered ends with the pre-trigger suffix. -/
theorem exists_base_of_considered {e : String}
    (he : e ∈ consideredIds h stPolicy t llStartTime llEndTime) :
    ∃ base, e = preTriggerIdOf h base := by
  have hcut := (mem_consideredIds.1 he).2.2.2
  unfold substrFromEnd at hcut
  rw [if_neg (by decide)] at hcut
  refine ⟨String.ofList (e.toList.take (e.toList.length - 3)), String.toList_inj.1 ?_⟩
  unfold preTriggerIdOf
  rw [String.toList_append, String.toList_ofList, ← hcut, List.take_append_drop]

/-! ## Suffixes of three characters -/

/-- The kinds of rows of a base event, by the patterns. -/
structure BaseKinds (h : GRHandler) (base : String) : Prop where
  postNotPre : isPreTrigger h (postTriggerIdOf h base) = false
  preNotPost : isPostTrigger h (preTriggerIdOf h base) = false
  markerNotPost : isPostTrigger h clientLaunchedEvent = false
  partner : postTriggerEventId (preTriggerIdOf h base) h.strPostTrgrEventIdSuffix =
    postTriggerIdOf h base
  notMarker : postTriggerIdOf h base ≠ clientLaunchedEvent

theorem ThreeCharacters.kinds (hthree : ThreeCharacters h) (hregex : MatchesSuffixes h.regexMatch)
    (hsuf : DistinctSuffixes h) (base : String) : BaseKinds h base where
  postNotPre :=
    isPreTrigger_postTriggerIdOf hregex hsuf (hthree.pre.trans hthree.post.symm) base
  preNotPost :=
    isPostTrigger_preTriggerIdOf hregex hsuf (hthree.pre.trans hthree.post.symm) base
  markerNotPost := by
    rw [← Bool.not_eq_true, isPostTrigger_iff hregex hsuf]
    rintro ⟨b, heq, _⟩
    exact hthree.marker b heq.symm
  partner := partner_of_length (hthree.pre.trans hthree.post.symm) base
  notMarker := hthree.marker base

variable {base : String}

theorem BaseKinds.apart (hkinds : BaseKinds h base) :
    KindsApart h (baseRows h t base llStartTime llEndTime) := by
  intro x hx hpost
  rcases (mem_baseRows.1 hx).2.2.1 with ⟨hid | hid, _⟩ | hid
  · rw [hid, hkinds.preNotPost] at hpost
    exact absurd hpost (by decide)
  · unfold Quiet
    rw [hid]
    exact ⟨hkinds.notMarker, hkinds.postNotPre⟩
  · rw [hid, hkinds.markerNotPost] at hpost
    exact absurd hpost (by decide)

/-- Only a pre-trigger row takes a partner, and only a post-trigger row. -/
theorem BaseKinds.of_takes (hkinds : BaseKinds h base) {r q : GranularRow}
    (hr : r ∈ baseRows h t base llStartTime llEndTime)
    (hq : q ∈ baseRows h t base llStartTime llEndTime) (ht : Takes h r q) :
    r.eventId = preTriggerIdOf h base ∧ q.eventId = postTriggerIdOf h base := by
  constructor
  · rcases (mem_baseRows.1 hr).2.2.1 with ⟨hid | hid, _⟩ | hid
    · exact hid
    · have hpre := ht.2.1
      rw [hid, hkinds.postNotPre] at hpre
      exact absurd hpre (by decide)
    · exact absurd hid ht.1
  · have hpost := ht.2.2
    rcases (mem_baseRows.1 hq).2.2.1 with ⟨hid | hid, _⟩ | hid
    · rw [hid, hkinds.preNotPost] at hpost
      exact absurd hpost (by decide)
    · exact hid
    · rw [hid, hkinds.markerNotPost] at hpost
      exact absurd hpost (by decide)

/-- A pair that is found is one of neighbours, of the two ids. -/
theorem BaseKinds.of_paired (hkinds : BaseKinds h base) {r q : GranularRow} (hr : r ∈ t.rows)
    (hq : q ∈ t.rows) (hpair : Paired h t (preTriggerIdOf h base) llStartTime llEndTime r q) :
    Takes h r q ∧ r.eventId = preTriggerIdOf h base ∧ q.eventId = postTriggerIdOf h base ∧
      [r, q] <:+: baseRows h t base llStartTime llEndTime := by
  rw [paired_iff hr hq, rowsRead_eq_baseRows hkinds.partner] at hpair
  have hne : (TrigEventDetails.of r (some q)).llPostTrigId ≠ -1 := by
    show (q.id : ℤ) ≠ -1
    omega
  rcases adjacent_of_mem_foundBy hne _ hpair with ⟨x, y, hin, ht, heq⟩
  have hx := hin.subset (List.mem_cons_self : x ∈ [x, y])
  have hy := hin.subset (List.mem_cons_of_mem x (List.mem_singleton_self y))
  have hxid : (r.id : ℤ) = x.id := congrArg TrigEventDetails.llPreTrigId heq
  have hyid : (q.id : ℤ) = y.id := congrArg TrigEventDetails.llPostTrigId heq
  have hxr : x = r := t.eq_of_key_eq (mem_baseRows.1 hx).1 hr (by
    show x.id = r.id
    omega)
  have hyq : y = q := t.eq_of_key_eq (mem_baseRows.1 hy).1 hq (by
    show y.id = q.id
    omega)
  rw [← hxr, ← hyq]
  rcases hkinds.of_takes hx hy ht with ⟨hxe, hye⟩
  exact ⟨ht, hxe, hye, hin⟩

/-- A base event whose ids match the patterns: the pairs are right iff no page edge
parts one. -/
theorem BaseKinds.pairs_iff_clear (hkinds : BaseKinds h base)
    (hpre : isPreTrigger h (preTriggerIdOf h base) = true)
    (hpost : isPostTrigger h (postTriggerIdOf h base) = true)
    (hne : preTriggerIdOf h base ≠ clientLaunchedEvent) :
    (∀ r ∈ t.rows, ∀ q ∈ t.rows,
        (Paired h t (preTriggerIdOf h base) llStartTime llEndTime r q ↔
          r.eventId = preTriggerIdOf h base ∧ q.eventId = postTriggerIdOf h base ∧
            [r, q] <:+: baseRows h t base llStartTime llEndTime)) ↔
      PageEdgesClear h dbEventQueryLimit (baseRows h t base llStartTime llEndTime) := by
  rw [clear_iff_adjacent (by decide) _ hkinds.apart (pairwise_baseRows base)]
  constructor
  · intro hall r q hin ht
    have hr := hin.subset (List.mem_cons_self : r ∈ [r, q])
    have hq := hin.subset (List.mem_cons_of_mem r (List.mem_singleton_self q))
    rcases hkinds.of_takes hr hq ht with ⟨hre, hqe⟩
    have hpair := (hall r (mem_baseRows.1 hr).1 q (mem_baseRows.1 hq).1).2 ⟨hre, hqe, hin⟩
    rwa [paired_iff (mem_baseRows.1 hr).1 (mem_baseRows.1 hq).1,
      rowsRead_eq_baseRows hkinds.partner] at hpair
  · intro hall r hr q hq
    constructor
    · exact fun hpair => (hkinds.of_paired hr hq hpair).2
    · rintro ⟨hre, hqe, hin⟩
      rw [paired_iff hr hq, rowsRead_eq_baseRows hkinds.partner]
      refine hall r q hin ⟨?_, ?_, ?_⟩
      · rwa [hre]
      · rwa [hre]
      · rwa [hqe]

/-- A base event whose pre-trigger id matches no pattern has no pairs found. -/
theorem BaseKinds.pairs_iff_none (hkinds : BaseKinds h base)
    (hpre : isPreTrigger h (preTriggerIdOf h base) = false) :
    (∀ r ∈ t.rows, ∀ q ∈ t.rows,
        (Paired h t (preTriggerIdOf h base) llStartTime llEndTime r q ↔
          r.eventId = preTriggerIdOf h base ∧ q.eventId = postTriggerIdOf h base ∧
            [r, q] <:+: baseRows h t base llStartTime llEndTime)) ↔
      ∀ r q, [r, q] <:+: baseRows h t base llStartTime llEndTime →
        ¬ (r.eventId = preTriggerIdOf h base ∧ q.eventId = postTriggerIdOf h base) := by
  have hnone : ∀ r ∈ t.rows, ∀ q ∈ t.rows,
      ¬ Paired h t (preTriggerIdOf h base) llStartTime llEndTime r q := by
    intro r hr q hq hpair
    rcases hkinds.of_paired hr hq hpair with ⟨ht, hre, _⟩
    have hpre' := ht.2.1
    rw [hre, hpre] at hpre'
    exact absurd hpre' (by decide)
  constructor
  · rintro hall r q hin ⟨hre, hqe⟩
    have hr := hin.subset (List.mem_cons_self : r ∈ [r, q])
    have hq := hin.subset (List.mem_cons_of_mem r (List.mem_singleton_self q))
    exact hnone r (mem_baseRows.1 hr).1 q (mem_baseRows.1 hq).1
      ((hall r (mem_baseRows.1 hr).1 q (mem_baseRows.1 hq).1).2 ⟨hre, hqe, hin⟩)
  · intro hall r hr q hq
    refine ⟨fun hpair => absurd hpair (hnone r hr q hq), ?_⟩
    rintro ⟨hre, hqe, hin⟩
    exact absurd ⟨hre, hqe⟩ (hall r q hin)

/-- With suffixes of three characters the triggers of a table are matched iff all
pairs are in reach. -/
theorem ThreeCharacters.matches_iff (hthree : ThreeCharacters h)
    (hregex : MatchesSuffixes h.regexMatch) (hsuf : DistinctSuffixes h) :
    MatchesTriggers h stPolicy t llStartTime llEndTime ↔
      PairsInReach h stPolicy t llStartTime llEndTime := by
  have hpairs : ∀ base, preTriggerIdOf h base ∈ consideredIds h stPolicy t llStartTime llEndTime →
      ((∀ r ∈ t.rows, ∀ q ∈ t.rows,
          (Paired h t (preTriggerIdOf h base) llStartTime llEndTime r q ↔
            r.eventId = preTriggerIdOf h base ∧ q.eventId = postTriggerIdOf h base ∧
              [r, q] <:+: baseRows h t base llStartTime llEndTime)) ↔
        (NoLineBreak base →
          PageEdgesClear h dbEventQueryLimit (baseRows h t base llStartTime llEndTime)) ∧
        (¬ NoLineBreak base → ∀ r q, [r, q] <:+: baseRows h t base llStartTime llEndTime →
          ¬ (r.eventId = preTriggerIdOf h base ∧ q.eventId = postTriggerIdOf h base))) := by
    intro base hcons
    have hkinds := hthree.kinds hregex hsuf base
    have hpre := isPreTrigger_preTriggerIdOf hregex hsuf base
    by_cases hbreak : NoLineBreak base
    · rw [hkinds.pairs_iff_clear (hpre.2 hbreak)
        ((isPostTrigger_postTriggerIdOf hregex hsuf base).2 hbreak)
        (mem_consideredIds.1 hcons).2.2.1]
      exact ⟨fun hclear => ⟨fun _ => hclear, fun hnot => absurd hbreak hnot⟩,
        fun hboth => hboth.1 hbreak⟩
    · rw [hkinds.pairs_iff_none (by rwa [← Bool.not_eq_true, hpre])]
      exact ⟨fun hnone => ⟨fun hnot => absurd hnot hbreak, fun _ => hnone⟩,
        fun hboth => hboth.2 hbreak⟩
  constructor
  · exact fun hmatch base hcons => (hpairs base hcons).1 (hmatch.pairs base hcons)
  · intro hreach
    refine ⟨?_, fun e he => exists_base_of_considered he,
      fun base hcons => (hpairs base hcons).2 (hreach base hcons)⟩
    intro base hex hne hrow
    exact mem_consideredIds.2
      ⟨hrow, hex, hne, substrFromEnd_append base hthree.pre (by decide)⟩

end Table

/-! ## Other suffixes -/

section Others

variable {h : GRHandler} {stPolicy : GRPolicy} {base : String}
  (hex : stPolicy.strExemptedEvents (preTriggerIdOf h base) = false)
  (hP : preTriggerIdOf h base ≠ clientLaunchedEvent)

include hex hP

/-- One pre-trigger row: it is considered only if its suffix has three characters. -/
theorem length_of_matches_one (hlong : 3 ≤ (preTriggerIdOf h base).length)
    (hmatch : MatchesTriggers h stPolicy (namedTable [preTriggerIdOf h base]) 0 sampleEndTime) :
    h.strPreTrgrEventIdSuffix.length = 3 := by
  have hrow : sampleRow 1 (preTriggerIdOf h base) 1 ∈
      (namedTable [preTriggerIdOf h base]).rows := List.mem_cons_self
  have hcons := hmatch.considers base hex hP
    ⟨_, hrow, (mem_namedTable hrow).2.2.2, rfl, rfl⟩
  have hcut := (mem_consideredIds.1 hcons).2.2.2
  rw [← String.length_toList, ← hcut, length_substrFromEnd hlong (by decide)]

/-- A pre-trigger row with its post-trigger row: the latter is read only if the
suffixes have one length. -/
theorem lengths_eq_of_matches_pair (hsuf : DistinctSuffixes h)
    (hQ : postTriggerIdOf h base ≠ clientLaunchedEvent)
    (hthree : h.strPreTrgrEventIdSuffix.length = 3)
    (hmatch : MatchesTriggers h stPolicy
      (namedTable [preTriggerIdOf h base, postTriggerIdOf h base]) 0 sampleEndTime) :
    h.strPreTrgrEventIdSuffix.length = h.strPostTrgrEventIdSuffix.length := by
  have hr : sampleRow 1 (preTriggerIdOf h base) 1 ∈
      (namedTable [preTriggerIdOf h base, postTriggerIdOf h base]).rows := List.mem_cons_self
  have hq : sampleRow 2 (postTriggerIdOf h base) 1 ∈
      (namedTable [preTriggerIdOf h base, postTriggerIdOf h base]).rows :=
    List.mem_cons_of_mem _ (List.mem_singleton_self _)
  have hcons := hmatch.considers base hex hP ⟨_, hr, (mem_namedTable hr).2.2.2, rfl, rfl⟩
  have hin : [sampleRow 1 (preTriggerIdOf h base) 1, sampleRow 2 (postTriggerIdOf h base) 1] <:+:
      baseRows h (namedTable [preTriggerIdOf h base, postTriggerIdOf h base]) base 0
        sampleEndTime := by
    rw [baseRows_namedTable fun e he => (List.mem_pair.1 he).imp_right Or.inl]
    exact List.infix_rfl
  have hpair := (hmatch.pairs base hcons _ hr _ hq).2 ⟨rfl, rfl, hin⟩
  rw [paired_iff hr hq] at hpair
  have hne : (TrigEventDetails.of (sampleRow 1 (preTriggerIdOf h base) 1)
      (some (sampleRow 2 (postTriggerIdOf h base) 1))).llPostTrigId ≠ -1 := by
    show ((2 : ℕ) : ℤ) ≠ -1
    decide
  rcases adjacent_of_mem_foundBy hne _ hpair with ⟨x, y, hread, _, heq⟩
  -- the partner was read, so its id is one of those the statement asks for
  have hy := hread.subset (List.mem_cons_of_mem x (List.mem_singleton_self y))
  have hyid : ((2 : ℕ) : ℤ) = y.id := congrArg TrigEventDetails.llPostTrigId heq
  have hyrow := List.mem_of_mem_filter (List.mem_of_mem_filter hy)
  have hyq := Lib.Table.eq_of_key_eq _ hyrow hq (by
    show y.id = 2
    omega)
  have hkind := (List.mem_filter.1 (List.mem_of_mem_filter hy)).2
  rw [hyq] at hkind
  simp only [triggerSelection, Bool.and_eq_true, Bool.or_eq_true, decide_eq_true_eq] at hkind
  have hids : postTriggerIdOf h base = preTriggerIdOf h base ∨
      postTriggerIdOf h base =
        postTriggerEventId (preTriggerIdOf h base) h.strPostTrgrEventIdSuffix ∨
      postTriggerIdOf h base = clientLaunchedEvent := by
    rcases hkind.2 with ⟨hid | hid, _⟩ | hid
    · exact Or.inl hid
    · exact Or.inr (Or.inl hid)
    · exact Or.inr (Or.inr hid)
  rcases hids with hid | hid | hid
  · have hlen := congrArg String.length hid
    unfold postTriggerIdOf preTriggerIdOf at hlen
    rw [String.length_append, String.length_append] at hlen
    omega
  · exact length_eq_of_partner hid.symm hsuf
  · exact absurd hid hQ

/-- A pre-trigger row with a session marker that ends with the post-trigger suffix:
the marker is taken for the partner. -/
theorem marker_of_matches_marker (hregex : MatchesSuffixes h.regexMatch)
    (hsuf : DistinctSuffixes h) (hQ : postTriggerIdOf h base ≠ clientLaunchedEvent)
    (hbreak : NoLineBreak base)
    (hmatch : MatchesTriggers h stPolicy
      (namedTable [preTriggerIdOf h base, clientLaunchedEvent]) 0 sampleEndTime)
    (base' : String) :
    postTriggerIdOf h base' ≠ clientLaunchedEvent := by
  intro hmark
  have hr : sampleRow 1 (preTriggerIdOf h base) 1 ∈
      (namedTable [preTriggerIdOf h base, clientLaunchedEvent]).rows := List.mem_cons_self
  have hq : sampleRow 2 clientLaunchedEvent 1 ∈
      (namedTable [preTriggerIdOf h base, clientLaunchedEvent]).rows :=
    List.mem_cons_of_mem _ (List.mem_singleton_self _)
  have hcons := hmatch.considers base hex hP ⟨_, hr, (mem_namedTable hr).2.2.2, rfl, rfl⟩
  have hpost : isPostTrigger h clientLaunchedEvent = true := by
    refine (isPostTrigger_iff hregex hsuf _).2 ⟨base', hmark.symm, ?_⟩
    have hline : NoLineBreak clientLaunchedEvent := by decide
    rw [← hmark] at hline
    exact hline.of_append
  have ht : Takes h (sampleRow 1 (preTriggerIdOf h base) 1)
      (sampleRow 2 clientLaunchedEvent 1) :=
    ⟨hP, (isPreTrigger_preTriggerIdOf hregex hsuf base).2 hbreak, hpost⟩
  have hread : rowsRead h (namedTable [preTriggerIdOf h base, clientLaunchedEvent])
      (preTriggerIdOf h base) 0 sampleEndTime =
      [sampleRow 1 (preTriggerIdOf h base) 1, sampleRow 2 clientLaunchedEvent 1] := by
    rw [rowsRead_namedTable fun e he => (List.mem_pair.1 he).imp_right Or.inr]
    rfl
  have hpair : Paired h (namedTable [preTriggerIdOf h base, clientLaunchedEvent])
      (preTriggerIdOf h base) 0 sampleEndTime (sampleRow 1 (preTriggerIdOf h base) 1)
      (sampleRow 2 clientLaunchedEvent 1) := by
    rw [paired_iff hr hq, hread, foundBy_of_behindPage_nil (by rfl), foundIn_cons_takes ht]
    exact List.mem_append_left _ List.mem_cons_self
  have hmarker := ((hmatch.pairs base hcons _ hr _ hq).1 hpair).2.1
  exact hQ hmarker.symm

end Others

/-- The sample matcher does what is asked of `std::regex_match`. -/
theorem matchesSuffixes_suffixRegexMatch : MatchesSuffixes suffixRegexMatch := by
  intro strName suffix _
  have hpattern : (("(.*)(" ++ suffix ++ ")").toList.drop 5).dropLast = suffix.toList := by
    rw [String.toList_append, String.toList_append]
    show (suffix.toList ++ [')']).dropLast = _
    exact List.dropLast_concat
  unfold suffixRegexMatch
  rw [hpattern, Bool.and_eq_true, List.isSuffixOf_iff_suffix, List.all_eq_true]
  simp only [Bool.and_eq_true, decide_eq_true_eq]
  constructor
  · rintro ⟨⟨pre, hpre⟩, hall⟩
    have hname : strName = String.ofList pre ++ suffix := by
      refine String.toList_inj.1 ?_
      rw [String.toList_append, String.toList_ofList, hpre]
    refine ⟨String.ofList pre, hname, fun c hc => hall c ?_⟩
    rw [String.toList_ofList] at hc
    rw [← hpre, List.length_append, Nat.add_sub_cancel, List.take_left]
    exact hc
  · rintro ⟨base, rfl, hbase⟩
    rw [String.toList_append]
    refine ⟨List.suffix_append _ _, fun c hc => hbase c ?_⟩
    rwa [List.length_append, Nat.add_sub_cancel, List.take_left] at hc

theorem distinctSuffixes_default : DistinctSuffixes (sampleHandler [] []) := by
  constructor
  all_goals decide

theorem threeCharacters_default : ThreeCharacters (sampleHandler [] []) where
  pre := by decide
  post := by decide
  marker := by
    intro base heq
    have hlast := congrArg (fun s : String => s.toList.getLast?) heq
    unfold postTriggerIdOf at hlast
    simp only [String.toList_append] at hlast
    have hsuffix : (sampleHandler [] []).strPostTrgrEventIdSuffix.toList = ['A', 'F', 'T'] := rfl
    rw [hsuffix] at hlast
    have hmarker : clientLaunchedEvent.toList.getLast? = some 'd' := by decide
    rw [hmarker] at hlast
    simp at hlast

/-- One page has no edge that parts a pair. -/
theorem pageEdgesClear_of_onePage {h : GRHandler} {n : ℕ} {l : List GranularRow} (hn : 0 < n)
    (hsort : l.Pairwise fun r r' => r.id < r'.id) (hlen : l.length ≤ n) : PageEdgesClear h n l := by
  have hbehind : behindPage n l = [] := by
    unfold behindPage Lib.limit
    rw [if_neg (by omega), List.take_of_length_le hlen, List.drop_length]
  refine (foundBy_eq_iff hn l hsort).1 ?_
  rw [foundBy_of_behindPage_nil hbehind, foundBy_zero]

end GranularityReduction

end DeviceClient
