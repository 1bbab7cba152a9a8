import DeviceClient.Db.GranularityReduction

/-!
# Trigger grouping and the page limit

`PopulateTriggerEventsList` reads the rows of a trigger page by page, and
`ProcessEventListAndAddEvents` looks for the partner of a pre-trigger row in the
same page only. The next page starts behind the last row that was visited,
which is not the last row of the page when that one was taken as a partner.

* `foundIn`: what one page contributes, apart from the handler's variables.
* `foundBy`: the contributions of the pages of a list of rows.
* `PageEdgesClear`: no edge of a page parts a pre-trigger row from its partner,
  and a partner that is read twice is passed over the second time.
* `foundBy_eq_iff`: this is exactly when paging changes nothing.
-/

namespace DeviceClient

namespace GranularityReduction

/-! ## What one page contributes -/

section Page

variable (h : GRHandler)

/-- The session ends and triggers of a page. -/
def foundIn : List GranularRow → List Found
  | [] => []
  | [r] =>
    if r.eventId = clientLaunchedEvent then [.session r.id]
    else if isPreTrigger h r.eventId = false then []
    else [.trigger (.of r none)]
  | r :: q :: page =>
    if r.eventId = clientLaunchedEvent then .session r.id :: foundIn (q :: page)
    else if isPreTrigger h r.eventId = false then foundIn (q :: page)
    else if isPostTrigger h q.eventId then .trigger (.of r (some q)) :: foundIn page
    else .trigger (.of r none) :: foundIn (q :: page)

/-- A pre-trigger row takes the row behind it as its partner. -/
def Takes (r q : GranularRow) : Prop :=
  r.eventId ≠ clientLaunchedEvent ∧ isPreTrigger h r.eventId = true ∧
    isPostTrigger h q.eventId = true

instance (r q : GranularRow) : Decidable (Takes h r q) :=
  inferInstanceAs (Decidable (_ ∧ _ ∧ _))

/-- The page ends with a pre-trigger row, its partner not looked at. -/
def endsPending : List GranularRow → Bool
  | [] => false
  | [r] => decide (r.eventId ≠ clientLaunchedEvent) && isPreTrigger h r.eventId
  | r :: q :: page => if Takes h r q then endsPending page else endsPending (q :: page)

/-- The last row of the page if it was taken as a partner: the next page starts
with it once more. -/
def leftOver : List GranularRow → List GranularRow
  | [] => []
  | [_] => []
  | r :: q :: page =>
    if Takes h r q then if page = [] then [q] else leftOver page else leftOver (q :: page)

/-- A row that the handler passes over. -/
def Quiet (r : GranularRow) : Prop :=
  r.eventId ≠ clientLaunchedEvent ∧ isPreTrigger h r.eventId = false

end Page

/-- A step of the history, on the handler's two lists. -/
def TriggerEvents.record (s : TriggerEvents) : Found → TriggerEvents
  | .session id =>
    { s with
      vecTrigEvntsToDelete := s.vecTrigEvntsToDelete ++ leaveFirstAndLast s.vecTrigEvnts
      vecTrigEvnts := []
      found := s.found ++ [.session id] }
  | .trigger t => { s with vecTrigEvnts := s.vecTrigEvnts ++ [t], found := s.found ++ [.trigger t] }

/-- Two states that differ in the start id at most. -/
def TriggerEvents.SameGroups (s t : TriggerEvents) : Prop :=
  s.found = t.found ∧ s.vecTrigEvntsToDelete = t.vecTrigEvntsToDelete ∧
    s.vecTrigEvnts = t.vecTrigEvnts

theorem TriggerEvents.SameGroups.record_both {s t : TriggerEvents} (hst : s.SameGroups t) (x : Found) :
    (s.record x).SameGroups (t.record x) := by
  obtain ⟨hfound, hdel, htmp⟩ := hst
  cases x with
  | session id =>
    refine ⟨?_, ?_, rfl⟩
    · show s.found ++ _ = t.found ++ _
      rw [hfound]
    · show s.vecTrigEvntsToDelete ++ _ = t.vecTrigEvntsToDelete ++ _
      rw [hdel, htmp]
  | trigger e =>
    refine ⟨?_, hdel, ?_⟩
    · show s.found ++ _ = t.found ++ _
      rw [hfound]
    · show s.vecTrigEvnts ++ _ = t.vecTrigEvnts ++ _
      rw [htmp]

/-- What a page adds keeps two states with the same groups in step. -/
theorem TriggerEvents.SameGroups.foldl {s t u : TriggerEvents} (hst : s.SameGroups t)
    (xs : List Found) (hu : u.SameGroups (xs.foldl TriggerEvents.record s)) :
    u.SameGroups (xs.foldl TriggerEvents.record t) := by
  induction xs generalizing s t with
  | nil => exact ⟨hu.1.trans hst.1, hu.2.1.trans hst.2.1, hu.2.2.trans hst.2.2⟩
  | cons x xs ih => exact ih (hst.record_both x) hu

theorem found_foldl_record (xs : List Found) (s : TriggerEvents) :
    (xs.foldl TriggerEvents.record s).found = s.found ++ xs := by
  induction xs generalizing s with
  | nil => simp
  | cons x xs ih =>
    rw [List.foldl_cons, ih]
    cases x <;> simp [TriggerEvents.record]

variable {h : GRHandler}

theorem foundIn_cons_takes {r q : GranularRow} (ht : Takes h r q) (page : List GranularRow) :
    foundIn h (r :: q :: page) = .trigger (.of r (some q)) :: foundIn h page := by
  obtain ⟨hr, hpre, hpost⟩ := ht
  rw [foundIn, if_neg hr, if_neg (by rw [hpre]; decide), if_pos hpost]

theorem foundIn_cons_alone {r q : GranularRow} (ht : ¬ Takes h r q) (page : List GranularRow) :
    foundIn h (r :: q :: page) = foundIn h [r] ++ foundIn h (q :: page) := by
  simp only [foundIn]
  split
  · rfl
  · rename_i hr
    split
    · rfl
    · rename_i hpre
      rw [if_neg]
      · rfl
      · intro hpost
        exact ht ⟨hr, by simpa using hpre, hpost⟩

/-- The handler on a page is the history of the page. -/
theorem processEventListAndAddEvents_sameGroups (page : List GranularRow) (s : TriggerEvents) :
    (processEventListAndAddEvents h page s).SameGroups
      ((foundIn h page).foldl TriggerEvents.record s) := by
  have hend (s : TriggerEvents) (r : GranularRow) :
      (s.endSession r).SameGroups (s.record (.session r.id)) := ⟨rfl, rfl, rfl⟩
  have hskip (s : TriggerEvents) (r : GranularRow) : (s.skip r).SameGroups s := ⟨rfl, rfl, rfl⟩
  have hadd (s : TriggerEvents) (r : GranularRow) (o : Option GranularRow) :
      (s.addTrigger r o).SameGroups (s.record (.trigger (.of r o))) := ⟨rfl, rfl, rfl⟩
  induction page, s using processEventListAndAddEvents.induct h with
  | case1 s => exact ⟨rfl, rfl, rfl⟩
  | case2 r s hr =>
    simp only [processEventListAndAddEvents, foundIn, if_pos hr]
    exact hend s r
  | case3 r s hr hpre =>
    simp only [processEventListAndAddEvents, foundIn, if_neg hr, if_pos hpre]
    exact hskip s r
  | case4 r s hr hpre =>
    simp only [processEventListAndAddEvents, foundIn, if_neg hr, if_neg hpre]
    exact hadd s r none
  | case5 r q page s hr ih =>
    simp only [processEventListAndAddEvents, foundIn, if_pos hr]
    exact (hend s r).foldl _ ih
  | case6 r q page s hr hpre ih =>
    simp only [processEventListAndAddEvents, foundIn, if_neg hr, if_pos hpre]
    exact (hskip s r).foldl _ ih
  | case7 r q page s hr hpre hpost ih =>
    simp only [processEventListAndAddEvents, foundIn, if_neg hr, if_neg hpre, if_pos hpost]
    exact (hadd s r (some q)).foldl _ ih
  | case8 r q page s hr hpre hpost ih =>
    simp only [processEventListAndAddEvents, foundIn, if_neg hr, if_neg hpre, if_neg hpost]
    exact (hadd s r none).foldl _ ih

/-- The start id comes to stand on the row in front of what is left over. -/
theorem processEventListAndAddEvents_llStartId {page : List GranularRow} (s : TriggerEvents)
    (hne : page ≠ []) :
    ∃ a v, page = a ++ v :: leftOver h page ∧
      (processEventListAndAddEvents h page s).llStartId = v.id := by
  induction page, s using processEventListAndAddEvents.induct h with
  | case1 s => exact absurd rfl hne
  | case2 r s hr =>
    refine ⟨[], r, rfl, ?_⟩
    simp only [processEventListAndAddEvents, if_pos hr, TriggerEvents.endSession_llStartId]
  | case3 r s hr hpre =>
    refine ⟨[], r, rfl, ?_⟩
    simp only [processEventListAndAddEvents, if_neg hr, if_pos hpre, TriggerEvents.skip_llStartId]
  | case4 r s hr hpre =>
    refine ⟨[], r, rfl, ?_⟩
    simp only [processEventListAndAddEvents, if_neg hr, if_neg hpre,
      TriggerEvents.addTrigger_llStartId]
  | case5 r q page s hr ih =>
    obtain ⟨a, v, hsplit, hid⟩ := ih (by simp)
    have ht : ¬ Takes h r q := fun ht => ht.1 hr
    refine ⟨r :: a, v, ?_, ?_⟩
    · rw [leftOver, if_neg ht, List.cons_append, ← hsplit]
    · simp only [processEventListAndAddEvents, if_pos hr]
      exact hid
  | case6 r q page s hr hpre ih =>
    obtain ⟨a, v, hsplit, hid⟩ := ih (by simp)
    have ht : ¬ Takes h r q := fun ht => by rw [ht.2.1] at hpre; cases hpre
    refine ⟨r :: a, v, ?_, ?_⟩
    · rw [leftOver, if_neg ht, List.cons_append, ← hsplit]
    · simp only [processEventListAndAddEvents, if_neg hr, if_pos hpre]
      exact hid
  | case7 r q page s hr hpre hpost ih =>
    have ht : Takes h r q := ⟨hr, by simpa using hpre, hpost⟩
    simp only [processEventListAndAddEvents, if_neg hr, if_neg hpre, if_pos hpost]
    rw [leftOver, if_pos ht]
    by_cases hpage : page = []
    · -- the partner ends the page
      subst hpage
      exact ⟨[], r, rfl, rfl⟩
    · obtain ⟨a, v, hsplit, hid⟩ := ih hpage
      refine ⟨r :: q :: a, v, ?_, hid⟩
      rw [if_neg hpage, List.cons_append, List.cons_append, ← hsplit]
  | case8 r q page s hr hpre hpost ih =>
    obtain ⟨a, v, hsplit, hid⟩ := ih (by simp)
    have ht : ¬ Takes h r q := fun ht => hpost ht.2.2
    refine ⟨r :: a, v, ?_, ?_⟩
    · rw [leftOver, if_neg ht, List.cons_append, ← hsplit]
    · simp only [processEventListAndAddEvents, if_neg hr, if_neg hpre, if_neg hpost]
      exact hid

/-! ## The edge between two pages -/

/-- No partner of the page's last row stands in front of the rest. -/
def ClearAfter (h : GRHandler) (page rest : List GranularRow) : Prop :=
  endsPending h page = true → ∀ q ∈ rest.head?, isPostTrigger h q.eventId = false

theorem not_takes_of_clearAfter {r q : GranularRow} {rest : List GranularRow}
    (hclear : ClearAfter h [r] (q :: rest)) : ¬ Takes h r q := by
  rintro ⟨hr, hpre, hpost⟩
  have hpending : endsPending h [r] = true := by
    rw [endsPending, hpre, decide_eq_true hr]
    rfl
  rw [hclear hpending q rfl] at hpost
  cases hpost

theorem foundIn_append {page rest : List GranularRow} (hclear : ClearAfter h page rest) :
    foundIn h (page ++ rest) = foundIn h page ++ foundIn h rest := by
  induction page using endsPending.induct h with
  | case1 => rfl
  | case2 r =>
    cases rest with
    | nil => simp [foundIn]
    | cons q rest => exact foundIn_cons_alone (not_takes_of_clearAfter hclear) rest
  | case3 r q page ht ih =>
    have hclear' : ClearAfter h page rest := by
      unfold ClearAfter at hclear ⊢
      rwa [endsPending, if_pos ht] at hclear
    rw [List.cons_append, List.cons_append, foundIn_cons_takes ht, foundIn_cons_takes ht,
      ih hclear', List.cons_append]
  | case4 r q page ht ih =>
    have hclear' : ClearAfter h (q :: page) rest := by
      unfold ClearAfter at hclear ⊢
      rwa [endsPending, if_neg ht] at hclear
    rw [List.cons_append, List.cons_append, foundIn_cons_alone ht, foundIn_cons_alone ht,
      ← List.cons_append, ih hclear', List.append_assoc]

theorem leftOver_append {page rest : List GranularRow} (hrest : rest ≠ [])
    (hclear : ClearAfter h page rest) : leftOver h (page ++ rest) = leftOver h rest := by
  induction page using endsPending.induct h with
  | case1 => rfl
  | case2 r =>
    cases rest with
    | nil => exact absurd rfl hrest
    | cons q rest =>
      show leftOver h (r :: q :: rest) = _
      rw [leftOver, if_neg (not_takes_of_clearAfter hclear)]
  | case3 r q page ht ih =>
    have hclear' : ClearAfter h page rest := by
      unfold ClearAfter at hclear ⊢
      rwa [endsPending, if_pos ht] at hclear
    have hne : page ++ rest ≠ [] := by simp [hrest]
    rw [List.cons_append, List.cons_append, leftOver, if_pos ht, if_neg hne, ih hclear']
  | case4 r q page ht ih =>
    have hclear' : ClearAfter h (q :: page) rest := by
      unfold ClearAfter at hclear ⊢
      rwa [endsPending, if_neg ht] at hclear
    rw [List.cons_append, List.cons_append, leftOver, if_neg ht, ← List.cons_append, ih hclear']

/-- A page that parts a pre-trigger row from its partner: alone the page gives
the row without a partner, with the rest it gives the pair. -/
theorem foundIn_parted {page rest : List GranularRow} {q : GranularRow}
    (hpending : endsPending h page = true) (hpost : isPostTrigger h q.eventId = true) :
    ∃ xs r, foundIn h page = xs ++ [.trigger (.of r none)] ∧
      foundIn h (page ++ q :: rest) = xs ++ .trigger (.of r (some q)) :: foundIn h rest := by
  induction page using endsPending.induct h with
  | case1 => cases hpending
  | case2 r =>
    rw [endsPending, Bool.and_eq_true, decide_eq_true_eq] at hpending
    have ht : Takes h r q := ⟨hpending.1, hpending.2, hpost⟩
    refine ⟨[], r, ?_, ?_⟩
    · rw [foundIn, if_neg hpending.1, if_neg (by rw [hpending.2]; decide)]
      rfl
    · exact foundIn_cons_takes ht rest
  | case3 r p page ht ih =>
    rw [endsPending, if_pos ht] at hpending
    obtain ⟨xs, v, halone, hboth⟩ := ih hpending
    refine ⟨.trigger (.of r (some p)) :: xs, v, ?_, ?_⟩
    · rw [foundIn_cons_takes ht, halone, List.cons_append]
    · rw [List.cons_append, List.cons_append, foundIn_cons_takes ht, hboth, List.cons_append]
  | case4 r p page ht ih =>
    rw [endsPending, if_neg ht] at hpending
    obtain ⟨xs, v, halone, hboth⟩ := ih hpending
    refine ⟨foundIn h [r] ++ xs, v, ?_, ?_⟩
    · rw [foundIn_cons_alone ht, halone, List.append_assoc]
    · rw [List.cons_append, List.cons_append, foundIn_cons_alone ht, ← List.cons_append, hboth,
        List.append_assoc]

/-! ## Page after page -/

section Pages

variable (h : GRHandler) (n : ℕ)

/-- The rows behind the first page of `l`. -/
def behindPage (l : List GranularRow) : List GranularRow := l.drop (Lib.limit n l).length

/-- The rows that are left when the first page of `l` has been visited. -/
def nextRows (l : List GranularRow) : List GranularRow :=
  leftOver h (Lib.limit n l) ++ behindPage n l

end Pages

theorem limit_append_behindPage (n : ℕ) (l : List GranularRow) :
    Lib.limit n l ++ behindPage n l = l := by
  obtain ⟨rest, hrest⟩ := Lib.limit_isPrefixOf n l
  have hbehind : behindPage n l = rest := by
    unfold behindPage
    conv_lhs => rw [← hrest]
    rw [List.drop_append_of_le_length (by rw [hrest]), hrest, List.drop_length, List.nil_append]
  rw [hbehind]
  exact hrest

theorem leftOver_split {page : List GranularRow} (hne : page ≠ []) :
    ∃ a v, page = a ++ v :: leftOver h page := by
  obtain ⟨a, v, hsplit, _⟩ := processEventListAndAddEvents_llStartId (h := h) .empty hne
  exact ⟨a, v, hsplit⟩

/-- The rows left are those behind some row of the first page. -/
theorem nextRows_split {n : ℕ} {l : List GranularRow} (hl : l ≠ []) :
    ∃ a v, l = a ++ v :: nextRows h n l := by
  have hne : Lib.limit n l ≠ [] := fun heq => hl (Lib.limit_eq_nil.1 heq)
  obtain ⟨a, v, hsplit⟩ := leftOver_split (h := h) hne
  refine ⟨a, v, ?_⟩
  conv_lhs => rw [← limit_append_behindPage n l, hsplit]
  unfold nextRows
  rw [List.append_assoc, List.cons_append]

theorem length_nextRows_lt {n : ℕ} {l : List GranularRow} (hl : l ≠ []) :
    (nextRows h n l).length < l.length := by
  obtain ⟨a, v, hsplit⟩ := nextRows_split (h := h) (n := n) hl
  have hlen := congrArg List.length hsplit
  rw [List.length_append, List.length_cons] at hlen
  omega

/-- The session ends and triggers of all pages of `l`. -/
def foundBy (h : GRHandler) (n : ℕ) (l : List GranularRow) : List Found :=
  if _hl : l = [] then [] else foundIn h (Lib.limit n l) ++ foundBy h n (nextRows h n l)
termination_by l.length
decreasing_by exact length_nextRows_lt _hl

/-- `l'` is what is left of `l` at the start of some page. -/
inductive PageStart (h : GRHandler) (n : ℕ) : List GranularRow → List GranularRow → Prop where
  | here (l : List GranularRow) : PageStart h n l l
  | next {l l' : List GranularRow} (hl : l ≠ []) (hnext : PageStart h n (nextRows h n l) l') :
      PageStart h n l l'

/-- The edge behind the first page of `l`: it parts no pre-trigger row from its
partner, and a partner in front of it is quiet when it is read again. -/
def EdgeClear (h : GRHandler) (n : ℕ) (l : List GranularRow) : Prop :=
  behindPage n l ≠ [] →
    ClearAfter h (Lib.limit n l) (behindPage n l) ∧ ∀ w ∈ leftOver h (Lib.limit n l), Quiet h w

/-- All edges between the pages of `l`. -/
def PageEdgesClear (h : GRHandler) (n : ℕ) (l : List GranularRow) : Prop :=
  ∀ l', PageStart h n l l' → EdgeClear h n l'

theorem foundBy_nil (n : ℕ) : foundBy h n [] = [] := by
  rw [foundBy, dif_pos rfl]

theorem foundBy_of_ne {n : ℕ} {l : List GranularRow} (hl : l ≠ []) :
    foundBy h n l = foundIn h (Lib.limit n l) ++ foundBy h n (nextRows h n l) := by
  rw [foundBy, dif_neg hl]

theorem pageEdgesClear_of_ne {n : ℕ} {l : List GranularRow} (hl : l ≠ []) :
    PageEdgesClear h n l ↔ EdgeClear h n l ∧ PageEdgesClear h n (nextRows h n l) := by
  constructor
  · intro hclear
    exact ⟨hclear l (.here l), fun l' hl' => hclear l' (.next hl hl')⟩
  · rintro ⟨hedge, hrest⟩ l' hl'
    cases hl' with
    | here => exact hedge
    | next _ hnext => exact hrest l' hnext

/-- At most one row is left over. -/
theorem leftOver_cases (page : List GranularRow) :
    leftOver h page = [] ∨ ∃ a v w, page = a ++ [v, w] ∧ Takes h v w ∧ leftOver h page = [w] := by
  induction page using endsPending.induct h with
  | case1 => exact Or.inl rfl
  | case2 r => exact Or.inl rfl
  | case3 r q page ht ih =>
    rw [leftOver, if_pos ht]
    by_cases hpage : page = []
    · subst hpage
      exact Or.inr ⟨[], r, q, rfl, ht, if_pos rfl⟩
    · rw [if_neg hpage]
      rcases ih with hnil | ⟨a, v, w, hsplit, hvw, hleft⟩
      · exact Or.inl hnil
      · exact Or.inr ⟨r :: q :: a, v, w, by rw [hsplit]; rfl, hvw, hleft⟩
  | case4 r q page ht ih =>
    rw [leftOver, if_neg ht]
    rcases ih with hnil | ⟨a, v, w, hsplit, hvw, hleft⟩
    · exact Or.inl hnil
    · exact Or.inr ⟨r :: a, v, w, by rw [hsplit]; rfl, hvw, hleft⟩

/-- Rows that fit into one page: what is left over is read once more. -/
theorem foundBy_of_behindPage_nil {n : ℕ} {l : List GranularRow} (hl : behindPage n l = []) :
    foundBy h n l = foundIn h l ++ foundIn h (leftOver h l) := by
  have hpage : Lib.limit n l = l := by
    have happ := limit_append_behindPage n l
    rwa [hl, List.append_nil] at happ
  have hone : ∀ w : GranularRow, foundBy h n [w] = foundIn h [w] := by
    intro w
    have hw : Lib.limit n [w] = [w] := by
      unfold Lib.limit
      split
      · rfl
      · rename_i hn
        exact List.take_of_length_le (by simp only [List.length_cons, List.length_nil]; omega)
    have hnext : nextRows h n [w] = [] := by
      unfold nextRows behindPage
      rw [hw]
      rfl
    rw [foundBy_of_ne (by simp), hw, hnext, foundBy_nil, List.append_nil]
  by_cases hnil : l = []
  · subst hnil
    rw [foundBy_nil]
    rfl
  · have hnext : nextRows h n l = leftOver h l := by
      unfold nextRows
      rw [hl, List.append_nil, hpage]
    rw [foundBy_of_ne hnil, hpage, hnext]
    rcases leftOver_cases (h := h) l with hleft | ⟨_, _, w, _, _, hleft⟩
    · rw [hleft, foundBy_nil]
      rfl
    · rw [hleft, hone]

/-- All rows in a single page. -/
theorem foundBy_zero (l : List GranularRow) :
    foundBy h 0 l = foundIn h l ++ foundIn h (leftOver h l) := by
  apply foundBy_of_behindPage_nil
  unfold behindPage Lib.limit
  rw [if_pos rfl, List.drop_length]

/-- In a single page, rows behind a clear edge are read as if they stood alone. -/
theorem foundBy_zero_append {page rest : List GranularRow} (hrest : rest ≠ [])
    (hclear : ClearAfter h page rest) :
    foundBy h 0 (page ++ rest) = foundIn h page ++ foundBy h 0 rest := by
  rw [foundBy_zero, foundBy_zero, foundIn_append hclear, leftOver_append hrest hclear,
    List.append_assoc]

/-! ## When paging changes nothing -/

/-- The row that a session end or a trigger begins with. -/
def Found.rowId : Found → ℤ
  | .session id => id
  | .trigger t => t.llPreTrigId

theorem rowId_of (r : GranularRow) (o : Option GranularRow) :
    (Found.trigger (.of r o)).rowId = r.id := by
  cases o <;> rfl

theorem mem_foundIn {page : List GranularRow} {x : Found} (hx : x ∈ foundIn h page) :
    ∃ r ∈ page, x.rowId = r.id := by
  have hone : ∀ r : GranularRow, x ∈ foundIn h [r] → x.rowId = r.id := by
    intro r hr
    simp only [foundIn] at hr
    split at hr
    · rw [List.mem_singleton.1 hr]
      rfl
    · split at hr
      · cases hr
      · rw [List.mem_singleton.1 hr]
        exact rowId_of r none
  induction page using endsPending.induct h with
  | case1 => cases hx
  | case2 r => exact ⟨r, List.mem_singleton_self r, hone r hx⟩
  | case3 r q page ht ih =>
    rw [foundIn_cons_takes ht, List.mem_cons] at hx
    rcases hx with rfl | hx
    · exact ⟨r, List.mem_cons_self, rowId_of r (some q)⟩
    · obtain ⟨v, hv, hid⟩ := ih hx
      exact ⟨v, List.mem_cons_of_mem _ (List.mem_cons_of_mem _ hv), hid⟩
  | case4 r q page ht ih =>
    rw [foundIn_cons_alone ht, List.mem_append] at hx
    rcases hx with hx | hx
    · exact ⟨r, List.mem_cons_self, hone r hx⟩
    · obtain ⟨v, hv, hid⟩ := ih hx
      exact ⟨v, List.mem_cons_of_mem _ hv, hid⟩

theorem mem_foundBy_zero {l : List GranularRow} {x : Found} (hx : x ∈ foundBy h 0 l) :
    ∃ r ∈ l, x.rowId = r.id := by
  rw [foundBy_zero, List.mem_append] at hx
  rcases hx with hx | hx
  · exact mem_foundIn hx
  · obtain ⟨r, hr, hid⟩ := mem_foundIn hx
    by_cases hnil : l = []
    · subst hnil
      cases hr
    · obtain ⟨a, v, hsplit⟩ := leftOver_split (h := h) hnil
      refine ⟨r, ?_, hid⟩
      rw [hsplit]
      exact List.mem_append_right _ (List.mem_cons_of_mem _ hr)

/-- A row that is not quiet comes first in what its page contributes. -/
theorem foundIn_of_not_quiet {w : GranularRow} (hw : ¬ Quiet h w) (page : List GranularRow) :
    ∃ x xs, foundIn h (w :: page) = x :: xs ∧ x.rowId = w.id := by
  have hone : ∃ x, foundIn h [w] = [x] ∧ x.rowId = w.id := by
    by_cases hmark : w.eventId = clientLaunchedEvent
    · exact ⟨.session w.id, by rw [foundIn, if_pos hmark], rfl⟩
    · have hpre : isPreTrigger h w.eventId ≠ false := fun hpre => hw ⟨hmark, hpre⟩
      exact ⟨.trigger (.of w none), by rw [foundIn, if_neg hmark, if_neg hpre], rowId_of w none⟩
  obtain ⟨x, hx, hid⟩ := hone
  cases page with
  | nil => exact ⟨x, [], hx, hid⟩
  | cons q page =>
    by_cases ht : Takes h w q
    · exact ⟨_, _, foundIn_cons_takes ht page, rowId_of w (some q)⟩
    · exact ⟨x, foundIn h (q :: page), by rw [foundIn_cons_alone ht, hx]; rfl, hid⟩

theorem foundIn_of_quiet {w : GranularRow} (hw : Quiet h w) : foundIn h [w] = [] := by
  rw [foundIn, if_neg hw.1, if_pos hw.2]

theorem clearAfter_of_quiet {w : GranularRow} (hw : Quiet h w) (rest : List GranularRow) :
    ClearAfter h [w] rest := by
  intro hpending
  rw [endsPending, hw.2, Bool.and_false] at hpending
  cases hpending

/-- An edge that parts a trigger loses the pair. -/
theorem foundBy_ne_of_parted {n : ℕ} {l : List GranularRow} (hl : l ≠ [])
    (hclear : ¬ ClearAfter h (Lib.limit n l) (behindPage n l)) :
    foundBy h n l ≠ foundBy h 0 l := by
  unfold ClearAfter at hclear
  push Not at hclear
  obtain ⟨hpending, q, hq, hpost⟩ := hclear
  obtain ⟨rest, hrest⟩ : ∃ rest, behindPage n l = q :: rest := by
    cases hb : behindPage n l with
    | nil =>
      rw [hb] at hq
      cases hq
    | cons q' rest =>
      rw [hb] at hq
      cases hq
      exact ⟨rest, rfl⟩
  obtain ⟨xs, r, halone, hboth⟩ :=
    @foundIn_parted h (Lib.limit n l) rest q hpending (by simpa using hpost)
  rw [← hrest, limit_append_behindPage] at hboth
  intro heq
  rw [foundBy_of_ne hl, foundBy_zero, halone, hboth, List.append_assoc, List.append_assoc] at heq
  have htail := List.append_cancel_left heq
  have hhead := (List.cons.inj htail).1
  -- without a partner the post-trigger id is -1, with one it is a row id
  have hid := congrArg TrigEventDetails.llPostTrigId (Found.trigger.inj hhead)
  change (-1 : ℤ) = (q.id : ℤ) at hid
  omega

/-- A partner that is not quiet is found again by the next page. -/
theorem foundBy_ne_of_reread {n : ℕ} {w : GranularRow} {rest : List GranularRow} (hn : 0 < n)
    (hw : ¬ Quiet h w) (hid : ∀ r ∈ rest, r.id ≠ w.id) :
    foundBy h n (w :: rest) ≠ foundBy h 0 rest := by
  have hpage : ∃ page, Lib.limit n (w :: rest) = w :: page := by
    obtain ⟨k, rfl⟩ : ∃ k, n = k + 1 := ⟨n - 1, by omega⟩
    exact ⟨rest.take k, rfl⟩
  obtain ⟨page, hpage⟩ := hpage
  obtain ⟨x, xs, hx, hxid⟩ := foundIn_of_not_quiet hw page
  intro heq
  rw [foundBy_of_ne (by simp), hpage, hx] at heq
  have hmem : x ∈ foundBy h 0 rest := by
    rw [← heq]
    exact List.mem_append_left _ List.mem_cons_self
  obtain ⟨r, hr, hrid⟩ := mem_foundBy_zero hmem
  have hsame : (r.id : ℤ) = w.id := hrid.symm.trans hxid
  exact hid r hr (by exact_mod_cast hsame)

/-- One page, no rows behind it: what is left over is read alone either way. -/
theorem foundBy_step_last {n : ℕ} {l : List GranularRow} (hn : 0 < n)
    (hbehind : behindPage n l = []) :
    foundBy h n l = foundBy h 0 l ↔
      EdgeClear h n l ∧ foundBy h n (nextRows h n l) = foundBy h 0 (nextRows h n l) := by
  have hedge : EdgeClear h n l := fun hne => absurd hbehind hne
  have hshort : behindPage n (nextRows h n l) = [] := by
    unfold nextRows
    rw [hbehind, List.append_nil]
    rcases leftOver_cases (h := h) (Lib.limit n l) with hleft | ⟨_, _, w, _, _, hleft⟩
    · rw [hleft]
      exact List.drop_nil
    · have hone : [w].length ≤ n := by
        rw [List.length_singleton]
        omega
      rw [hleft]
      unfold behindPage Lib.limit
      rw [if_neg (by omega), List.take_of_length_le hone, List.drop_length]
  rw [foundBy_of_behindPage_nil hbehind, foundBy_of_behindPage_nil hshort, foundBy_zero,
    foundBy_zero]
  exact ⟨fun _ => ⟨hedge, rfl⟩, fun _ => rfl⟩

/-- One page with rows behind it, nothing left over. -/
theorem foundBy_step_plain {n : ℕ} {l : List GranularRow} (hl : l ≠ [])
    (hbehind : behindPage n l ≠ []) (hclear : ClearAfter h (Lib.limit n l) (behindPage n l))
    (hleft : leftOver h (Lib.limit n l) = []) :
    foundBy h n l = foundBy h 0 l ↔
      EdgeClear h n l ∧ foundBy h n (nextRows h n l) = foundBy h 0 (nextRows h n l) := by
  have hedge : EdgeClear h n l := by
    refine fun _ => ⟨hclear, ?_⟩
    rw [hleft]
    exact fun w hw => by cases hw
  have hnext : nextRows h n l = behindPage n l := by
    unfold nextRows
    rw [hleft, List.nil_append]
  have hsingle := foundBy_zero_append hbehind hclear
  rw [limit_append_behindPage] at hsingle
  rw [foundBy_of_ne hl, hsingle, List.append_cancel_left_eq, hnext]
  exact ⟨fun heq => ⟨hedge, heq⟩, fun heq => heq.2⟩

/-- One page with rows behind it, its last row `w` taken as a partner. -/
theorem foundBy_step_reread {n : ℕ} {l : List GranularRow} {w : GranularRow} (hn : 0 < n)
    (hl : l ≠ []) (hsort : (nextRows h n l).Pairwise fun r r' => r.id < r'.id)
    (hbehind : behindPage n l ≠ []) (hclear : ClearAfter h (Lib.limit n l) (behindPage n l))
    (hleft : leftOver h (Lib.limit n l) = [w]) :
    foundBy h n l = foundBy h 0 l ↔
      EdgeClear h n l ∧ foundBy h n (nextRows h n l) = foundBy h 0 (nextRows h n l) := by
  have hnext : nextRows h n l = w :: behindPage n l := by
    unfold nextRows
    rw [hleft]
    rfl
  have hsingle := foundBy_zero_append hbehind hclear
  rw [limit_append_behindPage] at hsingle
  rw [foundBy_of_ne hl, hsingle, List.append_cancel_left_eq, hnext]
  by_cases hw : Quiet h w
  · -- the row read twice contributes nothing
    have hedge : EdgeClear h n l := by
      refine fun _ => ⟨hclear, ?_⟩
      rw [hleft]
      intro u hu
      rw [List.mem_singleton.1 hu]
      exact hw
    have hagain := foundBy_zero_append hbehind (clearAfter_of_quiet hw (behindPage n l))
    rw [foundIn_of_quiet hw, List.nil_append] at hagain
    change foundBy h 0 (w :: behindPage n l) = foundBy h 0 (behindPage n l) at hagain
    rw [hagain]
    exact ⟨fun heq => ⟨hedge, heq⟩, fun heq => heq.2⟩
  · have hid : ∀ r ∈ behindPage n l, r.id ≠ w.id := by
      intro r hr
      rw [hnext, List.pairwise_cons] at hsort
      exact Nat.ne_of_gt (hsort.1 r hr)
    constructor
    · intro heq
      exact absurd heq (foundBy_ne_of_reread hn hw hid)
    · rintro ⟨hedge, _⟩
      have hquiet := (hedge hbehind).2 w (by rw [hleft]; exact List.mem_singleton_self w)
      exact absurd hquiet hw

theorem pairwise_nextRows {n : ℕ} {l : List GranularRow} (hl : l ≠ [])
    (hsort : l.Pairwise fun r r' => r.id < r'.id) :
    (nextRows h n l).Pairwise fun r r' => r.id < r'.id := by
  obtain ⟨a, v, hsplit⟩ := nextRows_split (h := h) (n := n) hl
  rw [hsplit] at hsort
  exact (List.pairwise_cons.1 (List.pairwise_append.1 hsort).2.1).2

/-- What one page decides. -/
theorem foundBy_step {n : ℕ} {l : List GranularRow} (hn : 0 < n) (hl : l ≠ [])
    (hsort : l.Pairwise fun r r' => r.id < r'.id) :
    foundBy h n l = foundBy h 0 l ↔
      EdgeClear h n l ∧ foundBy h n (nextRows h n l) = foundBy h 0 (nextRows h n l) := by
  by_cases hbehind : behindPage n l = []
  · exact foundBy_step_last hn hbehind
  · by_cases hclear : ClearAfter h (Lib.limit n l) (behindPage n l)
    · rcases leftOver_cases (h := h) (Lib.limit n l) with hleft | ⟨_, _, w, _, _, hleft⟩
      · exact foundBy_step_plain hl hbehind hclear hleft
      · exact foundBy_step_reread hn hl (pairwise_nextRows hl hsort) hbehind hclear hleft
    · constructor
      · intro heq
        exact absurd heq (foundBy_ne_of_parted hl hclear)
      · rintro ⟨hedge, _⟩
        exact absurd (hedge hbehind).1 hclear

/-- Page by page and in a single page the same is found exactly when every edge
is clear. -/
theorem foundBy_eq_iff {n : ℕ} (hn : 0 < n) :
    ∀ l : List GranularRow, (l.Pairwise fun r r' => r.id < r'.id) →
      (foundBy h n l = foundBy h 0 l ↔ PageEdgesClear h n l) := by
  intro l
  induction hlen : l.length using Nat.strong_induction_on generalizing l with
  | _ k ih =>
    intro hsort
    by_cases hl : l = []
    · subst hl
      constructor
      · intro _ l' hl'
        cases hl' with
        | here => exact fun hne => absurd List.drop_nil hne
        | next hl _ => exact absurd rfl hl
      · intro _
        rw [foundBy_nil, foundBy_nil]
    · have hlt := length_nextRows_lt (h := h) (n := n) hl
      rw [pageEdgesClear_of_ne hl, foundBy_step hn hl hsort,
        ih _ (hlen ▸ hlt) (nextRows h n l) rfl (pairwise_nextRows hl hsort)]

/-! ## The loop of the handler -/

/-- The rows that the loop reads: its start id is zero at first. -/
def rowsRead (h : GRHandler) (t : GranularTable) (rstrPreTrigEventId : String)
    (rllStartTime rllEndTime : ℤ) : List GranularRow :=
  (triggerRows h t rstrPreTrigEventId rllStartTime rllEndTime).filter fun r => decide (0 < r.key)

theorem pairwise_triggerRows (t : GranularTable) (e : String) (llStartTime llEndTime : ℤ) :
    (triggerRows h t e llStartTime llEndTime).Pairwise fun r r' => r.key < r'.key :=
  t.sorted.filter _

theorem exists_mem_llStartId (page : List GranularRow) (s : TriggerEvents) (hne : page ≠ []) :
    ∃ r ∈ page, (processEventListAndAddEvents h page s).llStartId = r.key := by
  obtain ⟨a, v, hsplit, hid⟩ := processEventListAndAddEvents_llStartId (h := h) s hne
  refine ⟨v, ?_, hid⟩
  rw [hsplit]
  simp

/-- The loop leaves, for every page limit. -/
theorem returns_populateTriggerEventsList (n : ℕ) (t : GranularTable) (e : String)
    (llStartTime llEndTime : ℤ) :
    Lib.Returns
      (Lib.pageBody GranularRow.key n (triggerRows h t e llStartTime llEndTime)
        TriggerEvents.llStartId (processEventListAndAddEvents h)) .empty
      (populateTriggerEventsList h n t e llStartTime llEndTime) :=
  Lib.returns_readPages (pairwise_triggerRows t e llStartTime llEndTime) exists_mem_llStartId _

/-- What the loop does to the lists is the history of its pages. -/
theorem sameGroups_of_returns {n : ℕ} {L : List GranularRow}
    (hL : L.Pairwise fun r r' => r.key < r'.key) {s t : TriggerEvents}
    (ht : Lib.Returns (Lib.pageBody GranularRow.key n L TriggerEvents.llStartId
      (processEventListAndAddEvents h)) s t) :
    t.SameGroups ((foundBy h n (Lib.remaining GranularRow.key L TriggerEvents.llStartId s)).foldl
      TriggerEvents.record s) := by
  refine Lib.returns_pages (P := fun s t => t.SameGroups ((foundBy h n
    (Lib.remaining GranularRow.key L TriggerEvents.llStartId s)).foldl TriggerEvents.record s))
    hL exists_mem_llStartId ?_ ?_ s t ht
  · intro s hnil
    rw [hnil, foundBy_nil]
    exact ⟨rfl, rfl, rfl⟩
  · intro s t hne ih
    have hfetch : Lib.fetch GranularRow.key n L TriggerEvents.llStartId s ≠ [] :=
      fun heq => hne (Lib.fetch_eq_nil.1 heq)
    obtain ⟨a, v, hsplit, hid⟩ := processEventListAndAddEvents_llStartId (h := h) s hfetch
    have hleft : Lib.remaining GranularRow.key L TriggerEvents.llStartId s =
        a ++ v :: nextRows h n (Lib.remaining GranularRow.key L TriggerEvents.llStartId s) := by
      conv_lhs => rw [← limit_append_behindPage n (Lib.remaining _ L _ s)]
      unfold Lib.fetch at hsplit
      unfold nextRows
      conv_lhs => rw [hsplit]
      rw [List.append_assoc, List.cons_append]
    rw [Lib.remaining_of_split hL hleft hid] at ih
    rw [foundBy_of_ne hne, List.foldl_append]
    have hpage := processEventListAndAddEvents_sameGroups (h := h)
      (Lib.fetch GranularRow.key n L TriggerEvents.llStartId s) s
    exact hpage.foldl _ ih

theorem populateTriggerEventsList_sameGroups (n : ℕ) (t : GranularTable) (e : String)
    (llStartTime llEndTime : ℤ) :
    (populateTriggerEventsList h n t e llStartTime llEndTime).SameGroups
      ((foundBy h n (rowsRead h t e llStartTime llEndTime)).foldl TriggerEvents.record .empty) :=
  sameGroups_of_returns (pairwise_triggerRows t e llStartTime llEndTime)
    (returns_populateTriggerEventsList n t e llStartTime llEndTime)

/-- The history of the loop. -/
theorem found_populateTriggerEventsList (n : ℕ) (t : GranularTable) (e : String)
    (llStartTime llEndTime : ℤ) :
    (populateTriggerEventsList h n t e llStartTime llEndTime).found =
      foundBy h n (rowsRead h t e llStartTime llEndTime) := by
  rw [(populateTriggerEventsList_sameGroups n t e llStartTime llEndTime).1, found_foldl_record]
  rfl

/-- The triggers, their sessions and the triggers selected for removal do not
depend on the page limit exactly when every edge between two pages is clear. -/
theorem triggerGrouping_iff_pageEdgesClear (h : GRHandler) (t : GranularTable)
    (rstrPreTrigEventId : String) (rllStartTime rllEndTime : ℤ) {nLimit : ℕ} (hlimit : 0 < nLimit) :
    (populateTriggerEventsList h nLimit t rstrPreTrigEventId rllStartTime rllEndTime).SameGroups
        (populateTriggerEventsList h 0 t rstrPreTrigEventId rllStartTime rllEndTime) ↔
      PageEdgesClear h nLimit (rowsRead h t rstrPreTrigEventId rllStartTime rllEndTime) := by
  have hsort : (rowsRead h t rstrPreTrigEventId rllStartTime rllEndTime).Pairwise
      fun r r' => r.id < r'.id :=
    (pairwise_triggerRows t rstrPreTrigEventId rllStartTime rllEndTime).filter _
  rw [← foundBy_eq_iff hlimit _ hsort]
  constructor
  · intro hsame
    have hfound := hsame.1
    rwa [found_populateTriggerEventsList, found_populateTriggerEventsList] at hfound
  · intro heq
    have hpaged := populateTriggerEventsList_sameGroups (h := h) nLimit t rstrPreTrigEventId
      rllStartTime rllEndTime
    have hsingle := populateTriggerEventsList_sameGroups (h := h) 0 t rstrPreTrigEventId
      rllStartTime rllEndTime
    rw [heq] at hpaged
    exact ⟨hpaged.1.trans hsingle.1.symm, hpaged.2.1.trans hsingle.2.1.symm,
      hpaged.2.2.trans hsingle.2.2.symm⟩

/-- Three rows on one page of two and the next: the edge is behind the pair. -/
theorem triggerGrouping_clearEdge :
    (populateTriggerEventsList (sampleHandler [] []) 2
        (sampleTable [("HarshBrakeBEF", 1), ("HarshBrakeAFT", 1), ("HarshBrakeBEF", 1)])
        "HarshBrakeBEF" 0 1800000000000).SameGroups
      (populateTriggerEventsList (sampleHandler [] []) 0
        (sampleTable [("HarshBrakeBEF", 1), ("HarshBrakeAFT", 1), ("HarshBrakeBEF", 1)])
        "HarshBrakeBEF" 0 1800000000000) ∧
      PageEdgesClear (sampleHandler [] []) 2
        (rowsRead (sampleHandler [] [])
          (sampleTable [("HarshBrakeBEF", 1), ("HarshBrakeAFT", 1), ("HarshBrakeBEF", 1)])
          "HarshBrakeBEF" 0 1800000000000) := by
  have hsame : (populateTriggerEventsList (sampleHandler [] []) 2
        (sampleTable [("HarshBrakeBEF", 1), ("HarshBrakeAFT", 1), ("HarshBrakeBEF", 1)])
        "HarshBrakeBEF" 0 1800000000000).SameGroups
      (populateTriggerEventsList (sampleHandler [] []) 0
        (sampleTable [("HarshBrakeBEF", 1), ("HarshBrakeAFT", 1), ("HarshBrakeBEF", 1)])
        "HarshBrakeBEF" 0 1800000000000) := by
    unfold TriggerEvents.SameGroups
    decide
  exact ⟨hsame, (triggerGrouping_iff_pageEdgesClear (sampleHandler [] []) _ _ _ _
    (by decide)).1 hsame⟩

/-! ## A trigger on the edge of a full page -/

/-- A session marker for each key below 999, then a trigger. -/
def edgeRows : List GranularRow :=
  (List.range 999).map (fun i => sampleRow (i + 1) clientLaunchedEvent 0) ++
    [sampleRow 1000 "HarshBrakeBEF" 1, sampleRow 1001 "HarshBrakeAFT" 1]

theorem mem_edgeRows {r : GranularRow} (hr : r ∈ edgeRows) :
    (∃ i < 999, r = sampleRow (i + 1) clientLaunchedEvent 0) ∨
      r = sampleRow 1000 "HarshBrakeBEF" 1 ∨ r = sampleRow 1001 "HarshBrakeAFT" 1 := by
  unfold edgeRows at hr
  rw [List.mem_append, List.mem_map, List.mem_pair] at hr
  rcases hr with ⟨i, hi, rfl⟩ | hr
  · exact Or.inl ⟨i, List.mem_range.1 hi, rfl⟩
  · exact Or.inr hr

theorem pairwise_edgeRows : edgeRows.Pairwise fun r r' => r.key < r'.key := by
  unfold edgeRows
  refine List.pairwise_append.2 ⟨?_, ?_, ?_⟩
  · rw [List.pairwise_map]
    exact List.pairwise_lt_range.imp fun h => Nat.succ_lt_succ h
  · exact List.pairwise_pair.2 (by decide)
  · intro r hr r' hr'
    obtain ⟨i, hi, rfl⟩ := List.mem_map.1 hr
    have hlt := List.mem_range.1 hi
    have hkey : 1000 ≤ r'.key := by
      rcases List.mem_pair.1 hr' with rfl | rfl <;> decide
    show i + 1 < r'.key
    omega

/-- The table with these rows. -/
def edgeTable : GranularTable where
  rows := edgeRows
  nextKey := 1002
  sorted := pairwise_edgeRows
  below := by
    intro r hr
    rcases mem_edgeRows hr with ⟨i, hi, rfl⟩ | rfl | rfl
    · show i + 1 < 1002
      omega
    · decide
    · decide

theorem rowsRead_edgeTable :
    rowsRead (sampleHandler [] []) edgeTable "HarshBrakeBEF" 0 1800000000000 = edgeRows := by
  unfold rowsRead triggerRows edgeTable
  dsimp only
  rw [List.filter_filter, List.filter_eq_self]
  intro r hr
  rw [Bool.and_eq_true, decide_eq_true_eq]
  rcases mem_edgeRows hr with ⟨i, _, rfl⟩ | rfl | rfl
  · refine ⟨Nat.succ_pos i, ?_⟩
    show triggerSelection "HarshBrakeBEF" "AFT" 0 1800000000000
      (sampleRow 0 clientLaunchedEvent 0) = true
    decide
  · decide
  · decide

/-- Session markers in front of a row leave its state pending or not. -/
theorem endsPending_markers {h : GRHandler} {markers : List GranularRow}
    (hmarkers : ∀ r ∈ markers, r.eventId = clientLaunchedEvent) (r : GranularRow) :
    endsPending h (markers ++ [r]) = endsPending h [r] := by
  induction markers with
  | nil => rfl
  | cons m markers ih =>
    have ih' := ih fun r' hr' => hmarkers r' (List.mem_cons_of_mem _ hr')
    have hne : markers ++ [r] ≠ [] := by simp
    obtain ⟨q, page, hpage⟩ := List.exists_cons_of_ne_nil hne
    have ht : ¬ Takes h m q := fun ht => ht.1 (hmarkers m List.mem_cons_self)
    calc endsPending h (m :: (markers ++ [r]))
        = endsPending h (m :: q :: page) := by rw [hpage]
      _ = endsPending h (q :: page) := if_neg ht
      _ = endsPending h [r] := by rw [← hpage, ih']

/-- At the handler's own page limit the trigger on the edge is torn apart. -/
theorem not_triggerGrouping_edgeTable :
    ¬ (populateTriggerEventsList (sampleHandler [] []) dbEventQueryLimit edgeTable
        "HarshBrakeBEF" 0 1800000000000).SameGroups
      (populateTriggerEventsList (sampleHandler [] []) 0 edgeTable
        "HarshBrakeBEF" 0 1800000000000) := by
  intro hsame
  have hfound := hsame.1
  rw [found_populateTriggerEventsList, found_populateTriggerEventsList, rowsRead_edgeTable]
    at hfound
  have hsplit : edgeRows =
      ((List.range 999).map (fun i => sampleRow (i + 1) clientLaunchedEvent 0) ++
        [sampleRow 1000 "HarshBrakeBEF" 1]) ++ [sampleRow 1001 "HarshBrakeAFT" 1] := by
    unfold edgeRows
    rw [List.append_assoc]
    rfl
  have hlen : ((List.range 999).map (fun i => sampleRow (i + 1) clientLaunchedEvent 0) ++
      [sampleRow 1000 "HarshBrakeBEF" 1]).length = dbEventQueryLimit := by
    rw [List.length_append, List.length_map, List.length_range]
    rfl
  have hpage : Lib.limit dbEventQueryLimit edgeRows =
      (List.range 999).map (fun i => sampleRow (i + 1) clientLaunchedEvent 0) ++
        [sampleRow 1000 "HarshBrakeBEF" 1] := by
    unfold Lib.limit
    rw [if_neg (by decide), hsplit, ← hlen, List.take_left]
  have hbehind : behindPage dbEventQueryLimit edgeRows = [sampleRow 1001 "HarshBrakeAFT" 1] := by
    unfold behindPage
    rw [hpage, hsplit, List.drop_left]
  refine foundBy_ne_of_parted (by rw [hsplit]; simp) ?_ hfound
  rw [hpage, hbehind]
  intro hclear
  have hmarkers : ∀ r ∈ (List.range 999).map (fun i => sampleRow (i + 1) clientLaunchedEvent 0),
      r.eventId = clientLaunchedEvent := by
    intro r hr
    obtain ⟨i, _, rfl⟩ := List.mem_map.1 hr
    rfl
  have hpending := endsPending_markers (h := sampleHandler [] []) hmarkers
    (sampleRow 1000 "HarshBrakeBEF" 1)
  have hbef : endsPending (sampleHandler [] []) [sampleRow 1000 "HarshBrakeBEF" 1] = true := by
    decide
  have hpost := hclear (hpending.trans hbef) _ rfl
  revert hpost
  decide

end GranularityReduction

end DeviceClient
