import DeviceClient.Lib.Loop
import DeviceClient.Upload.CorruptedEvents

/-!
# The topiced upload's query

`GetTopicedStreamingEventsFromDB` loads the events that carry a topic of their
own. A fetched row is put aside as corrupted, or loaded under its topic rebuilt
for the current device, or neither: a topic without `2c/` is only logged.

A page of such rows is fetched again unchanged, so the loop goes round for ever.

* `topicedTurn_cases`: what one turn of the loop can do.
* `getTopicedStreamingEventsFromDB_progress_iff`: the loop makes progress and
  leaves exactly if the first page of rows that are not corrupted is empty or
  has a topic with `2c/`.
-/

namespace DeviceClient

/-! ## The function -/

/-- Device id and configured topic prefix. -/
structure TopicConfig where
  strDeviceId : String
  strTopicPrefix : String

/-- The condition of the query, for the optional time bounds. -/
def topicedSelection (llLimitStarTimestamp llLimitEndTimestamp : ℤ) (r : EventRow) : Bool :=
  match r.timestamp with
  | none => false
  | some ts =>
    (!decide (0 < llLimitEndTimestamp) || decide (ts ≤ llLimitEndTimestamp)) &&
    (!decide (0 < llLimitStarTimestamp) || decide (llLimitStarTimestamp ≤ ts)) &&
    r.topic.isSome && decide (r.mid = 0)

/-- `strTopic.substr(strTopic.find("2c/"))`, if it is found. -/
def substrFrom2c : List Char → Option (List Char)
  | [] => none
  | c :: cs => if ['2', 'c', '/'].isPrefixOf (c :: cs) then some (c :: cs) else substrFrom2c cs

/-- The row's topic has `2c/` in it. -/
def EventRow.has2c (r : EventRow) : Bool := (substrFrom2c (r.topic.getD "").toList).isSome

/-- The variables of the loop; `rmapResults` is a `std::map` by row id. -/
structure TopicedLoad where
  table : EventTable
  corrupted : CorruptedEvents
  pvectRowIDs : List ℕ
  rmapResults : ℕ → Option (String × String)

def TopicedLoad.init (table : EventTable) : TopicedLoad where
  table := table
  corrupted := CorruptedEvents.empty
  pvectRowIDs := []
  rmapResults := fun _ => none

def TopicedLoad.addCorrupted (s : TopicedLoad) (llId : ℕ) : TopicedLoad :=
  { s with corrupted := s.corrupted.add llId }

/-- A row with its rebuilt topic. -/
def TopicedLoad.addEvent (s : TopicedLoad) (llId : ℕ) (strTopic strEventData : String) :
    TopicedLoad :=
  { s with
    pvectRowIDs := s.pvectRowIDs ++ [llId]
    rmapResults := Function.update s.rmapResults llId (some (strTopic, strEventData)) }

variable (rd : PayloadReader) (cfg : TopicConfig)

/-- The cursor loop of `ValidateTopicedStreamingEvent`. -/
def validateTopicedRows : List EventRow → TopicedLoad → TopicedLoad
  | [], s => s
  | r :: rest, s =>
    let strEventData := rd.decryptEventData r.events
    if strEventData.isEmpty || !rd.parse strEventData then
      validateTopicedRows rest (s.addCorrupted r.id)
    else
      match substrFrom2c (r.topic.getD "").toList with
      | some suffix =>
        let strTopic := cfg.strTopicPrefix ++ cfg.strDeviceId ++ "/" ++ String.ofList suffix
        validateTopicedRows rest (s.addEvent r.id strTopic strEventData)
      | none => validateTopicedRows rest s

/-- `ValidateTopicedStreamingEvent`, with its answer whether to query again. -/
def validateTopicedStreamingEvent (page : List EventRow) (s : TopicedLoad) : Bool × TopicedLoad :=
  let s := validateTopicedRows rd cfg page s
  let r := validateCorruptedEventIds s.table s.corrupted
  (!decide (0 < s.pvectRowIDs.length), { s with table := r.1, corrupted := r.2 })

/-- One turn of the query loop. -/
def topicedTurn (selection : EventRow → Bool) (nNumRowsRequested : ℤ) (s : TopicedLoad) :
    TopicedLoad ⊕ TopicedLoad :=
  match queryPage s.table s.corrupted selection nNumRowsRequested with
  | [] => .inr s
  | r :: rest =>
    let (bContinueQuery, s) := validateTopicedStreamingEvent rd cfg (r :: rest) s
    if bContinueQuery then .inl s else .inr s

/-- What the caller gets, and the table afterwards. -/
structure TopicedResult where
  pvectRowIDs : List ℕ
  rmapResults : ℕ → Option (String × String)
  table : EventTable

def TopicedLoad.finish (s : TopicedLoad) : TopicedResult where
  pvectRowIDs := s.pvectRowIDs
  rmapResults := s.rmapResults
  table := deleteCorruptedEventsIfPresent s.table s.corrupted.setCorruptedEvIds

/-- `GetTopicedStreamingEventsFromDB`, for at most `fuel` turns of its loop. -/
def getTopicedStreamingEventsFromDB (fuel : ℕ) (nNumRowsRequested : ℤ)
    (llLimitStarTimestamp llLimitEndTimestamp : ℤ) (table : EventTable) : Option TopicedResult :=
  if cfg.strDeviceId = "" then some ⟨[], fun _ => none, table⟩
  else
    (Lib.loop (topicedTurn rd cfg (topicedSelection llLimitStarTimestamp llLimitEndTimestamp)
      nNumRowsRequested) fuel (TopicedLoad.init table)).map TopicedLoad.finish

/-! ## A page -/

theorem validateTopicedRows_of_corrupted {r : EventRow} (hc : rd.corrupted r = true)
    (rest : List EventRow) (s : TopicedLoad) :
    validateTopicedRows rd cfg (r :: rest) s =
      validateTopicedRows rd cfg rest (s.addCorrupted r.id) :=
  if_pos hc

/-- A good row with `2c/` in its topic is loaded. -/
theorem validateTopicedRows_of_has2c {r : EventRow} (hc : rd.corrupted r ≠ true)
    (h2c : r.has2c = true) (rest : List EventRow) (s : TopicedLoad) :
    ∃ strTopic, validateTopicedRows rd cfg (r :: rest) s = validateTopicedRows rd cfg rest
      (s.addEvent r.id strTopic (rd.decryptEventData r.events)) := by
  rcases Option.isSome_iff_exists.1 h2c with ⟨suffix, hs⟩
  refine ⟨cfg.strTopicPrefix ++ cfg.strDeviceId ++ "/" ++ String.ofList suffix, ?_⟩
  refine (if_neg hc).trans ?_
  rw [hs]

/-- A good row without `2c/` leaves no trace. -/
theorem validateTopicedRows_of_not_has2c {r : EventRow} (hc : rd.corrupted r ≠ true)
    (h2c : r.has2c ≠ true) (rest : List EventRow) (s : TopicedLoad) :
    validateTopicedRows rd cfg (r :: rest) s = validateTopicedRows rd cfg rest s := by
  have hnone : substrFrom2c (r.topic.getD "").toList = none := by
    cases hs : substrFrom2c (r.topic.getD "").toList with
    | none => rfl
    | some suffix =>
      have : r.has2c = true := by
        unfold EventRow.has2c
        rw [hs]
        rfl
      exact absurd this h2c
  refine (if_neg hc).trans ?_
  rw [hnone]

/-- Every key of the result map is one of the returned ids. -/
theorem validateTopicedRows_rmapResults (page : List EventRow) :
    ∀ s : TopicedLoad, (∀ id, s.rmapResults id ≠ none → id ∈ s.pvectRowIDs) →
      ∀ id, (validateTopicedRows rd cfg page s).rmapResults id ≠ none →
        id ∈ (validateTopicedRows rd cfg page s).pvectRowIDs := by
  induction page with
  | nil => exact fun _ hs => hs
  | cons r rest ih =>
    intro s hs
    by_cases hc : rd.corrupted r = true
    · rw [validateTopicedRows_of_corrupted rd cfg hc]
      exact ih _ hs
    · by_cases h2c : r.has2c = true
      · rcases validateTopicedRows_of_has2c rd cfg hc h2c rest s with ⟨strTopic, heq⟩
        rw [heq]
        apply ih
        intro id hid
        show id ∈ s.pvectRowIDs ++ [r.id]
        by_cases hir : id = r.id
        · exact List.mem_append_right _ (List.mem_singleton.2 hir)
        · have hid' : Function.update s.rmapResults r.id
              (some (strTopic, rd.decryptEventData r.events)) id ≠ none := hid
          rw [Function.update_of_ne hir] at hid'
          exact List.mem_append_left _ (hs id hid')
      · rw [validateTopicedRows_of_not_has2c rd cfg hc h2c]
        exact ih s hs

theorem validateTopicedRows_spec (page : List EventRow) :
    ∀ s, (validateTopicedRows rd cfg page s).table = s.table ∧
      (validateTopicedRows rd cfg page s).corrupted =
        ((page.filter rd.corrupted).map EventRow.id).foldl CorruptedEvents.add s.corrupted ∧
      (validateTopicedRows rd cfg page s).pvectRowIDs =
        s.pvectRowIDs ++ (page.filter fun r => !rd.corrupted r && r.has2c).map EventRow.id := by
  induction page with
  | nil => exact fun s => ⟨rfl, rfl, (List.append_nil _).symm⟩
  | cons r rest ih =>
    intro s
    by_cases hc : rd.corrupted r = true
    · rw [validateTopicedRows_of_corrupted rd cfg hc, List.filter_cons_of_pos hc,
        List.filter_cons_of_neg (by simp [hc])]
      exact ih _
    · by_cases h2c : r.has2c = true
      · rcases validateTopicedRows_of_has2c rd cfg hc h2c rest s with ⟨strTopic, heq⟩
        rw [heq, List.filter_cons_of_neg hc, List.filter_cons_of_pos (by simp [hc, h2c]),
          List.map_cons]
        rcases ih (s.addEvent r.id strTopic (rd.decryptEventData r.events)) with ⟨ht, hco, hids⟩
        refine ⟨ht, hco, ?_⟩
        rw [hids]
        show (s.pvectRowIDs ++ [r.id]) ++ _ = _
        rw [List.append_assoc]
        rfl
      · rw [validateTopicedRows_of_not_has2c rd cfg hc h2c, List.filter_cons_of_neg hc,
          List.filter_cons_of_neg (by simp [h2c])]
        exact ih s

/-! ## The loop -/

section Loop

variable {rd cfg} {selection : EventRow → Bool} {n : ℤ} {table₀ : EventTable}

/-- Before a turn: nothing has been loaded yet. -/
structure TopicedInv (rd : PayloadReader) (table₀ : EventTable) (s : TopicedLoad) : Prop where
  load : LoadInv rd table₀ s.table s.corrupted
  noIds : s.pvectRowIDs = []

/-- The rows that the query of this turn would select without its limit. -/
def TopicedLoad.selectable (s : TopicedLoad) (selection : EventRow → Bool) : List EventRow :=
  visible s.table s.corrupted selection

/-- The rows that the query of this turn fetches. -/
def TopicedLoad.page (s : TopicedLoad) (selection : EventRow → Bool) (n : ℤ) : List EventRow :=
  queryPage s.table s.corrupted selection n

theorem topicedInv_init (rd : PayloadReader) (table₀ : EventTable) :
    TopicedInv rd table₀ (TopicedLoad.init table₀) :=
  ⟨LoadInv.init rd table₀, rfl⟩

theorem mem_selectable_of_mem_page {s : TopicedLoad} {r : EventRow}
    (hr : r ∈ s.page selection n) : r ∈ s.selectable selection :=
  Lib.mem_of_mem_limit hr

/-- The load after a page that is not empty. -/
def TopicedLoad.afterPage (rd : PayloadReader) (cfg : TopicConfig) (page : List EventRow)
    (s : TopicedLoad) : TopicedLoad := (validateTopicedStreamingEvent rd cfg page s).2

variable (cfg) in
theorem pvectRowIDs_afterPage {s : TopicedLoad} (h : TopicedInv rd table₀ s)
    (page : List EventRow) :
    (s.afterPage rd cfg page).pvectRowIDs =
      (page.filter fun r => !rd.corrupted r && r.has2c).map EventRow.id := by
  show (validateTopicedRows rd cfg page s).pvectRowIDs = _
  rw [(validateTopicedRows_spec rd cfg page s).2.2, h.noIds, List.nil_append]

variable (rd cfg selection) in
theorem selectable_afterPage (s : TopicedLoad) (page : List EventRow) :
    (s.afterPage rd cfg page).selectable selection =
      visible s.table
        (((page.filter rd.corrupted).map EventRow.id).foldl CorruptedEvents.add s.corrupted)
        selection := by
  rcases validateTopicedRows_spec rd cfg page s with ⟨ht, hc, _⟩
  show visible (validateCorruptedEventIds _ _).1 (validateCorruptedEventIds _ _).2 selection = _
  rw [visible_validateCorruptedEventIds, ht, hc]

theorem loadInv_afterPage {s : TopicedLoad} (h : TopicedInv rd table₀ s) {page : List EventRow}
    (hpage : ∀ r ∈ page, r ∈ s.table.rows) :
    LoadInv rd table₀ (s.afterPage rd cfg page).table (s.afterPage rd cfg page).corrupted := by
  rcases validateTopicedRows_spec rd cfg page s with ⟨ht, hc, _⟩
  have hadd := (h.load.add hpage).validate
  rwa [← hc, ← ht] at hadd

theorem topicedTurn_of_page_eq_nil {s : TopicedLoad} (hpage : s.page selection n = []) :
    topicedTurn rd cfg selection n s = .inr s := by
  unfold topicedTurn
  rw [show queryPage s.table s.corrupted selection n = [] from hpage]

variable (rd cfg) in
theorem topicedTurn_of_page_ne_nil {s : TopicedLoad} (hpage : s.page selection n ≠ []) :
    topicedTurn rd cfg selection n s =
      if (s.afterPage rd cfg (s.page selection n)).pvectRowIDs = [] then
        .inl (s.afterPage rd cfg (s.page selection n))
      else .inr (s.afterPage rd cfg (s.page selection n)) := by
  cases hp : s.page selection n with
  | nil => exact absurd hp hpage
  | cons r rest =>
    unfold topicedTurn
    rw [show queryPage s.table s.corrupted selection n = r :: rest from hp]
    show (if !decide (0 < (s.afterPage rd cfg (r :: rest)).pvectRowIDs.length) then _ else _) = _
    by_cases hids : (s.afterPage rd cfg (r :: rest)).pvectRowIDs = []
    · rw [if_pos hids, hids]
      rfl
    · have hlen : 0 < (s.afterPage rd cfg (r :: rest)).pvectRowIDs.length :=
        List.length_pos_iff.2 hids
      rw [if_neg hids, decide_eq_true hlen]
      rfl

variable (cfg selection n) in
/-- One turn: no row is left; or a row is loaded; or something is put aside and
the next query sees less; or the page has no corrupted row and no `2c/`, and the
next query sees the same. -/
theorem topicedTurn_cases {s : TopicedLoad} (h : TopicedInv rd table₀ s) :
    (topicedTurn rd cfg selection n s = .inr s ∧ s.page selection n = []) ∨
    (∃ s', topicedTurn rd cfg selection n s = .inr s' ∧ s'.pvectRowIDs ≠ [] ∧
      ∃ r ∈ s.page selection n, rd.corrupted r = false ∧ r.has2c = true) ∨
    (∃ s', topicedTurn rd cfg selection n s = .inl s' ∧ TopicedInv rd table₀ s' ∧
      (∀ r ∈ s'.selectable selection, r ∈ s.selectable selection) ∧
      (∃ r ∈ s.selectable selection, r ∉ s'.selectable selection) ∧
      (s'.selectable selection).length < (s.selectable selection).length) ∨
    (∃ s', topicedTurn rd cfg selection n s = .inl s' ∧ TopicedInv rd table₀ s' ∧
      s'.selectable selection = s.selectable selection ∧ s.page selection n ≠ [] ∧
      ∀ r ∈ s.page selection n, rd.corrupted r = false ∧ r.has2c = false) := by
  by_cases hpage : s.page selection n = []
  · exact Or.inl ⟨topicedTurn_of_page_eq_nil hpage, hpage⟩
  right
  have hturn := topicedTurn_of_page_ne_nil rd cfg hpage
  have hids := pvectRowIDs_afterPage cfg h (s.page selection n)
  by_cases hload : ∃ r ∈ s.page selection n, rd.corrupted r = false ∧ r.has2c = true
  · -- some row of the page is loaded
    left
    rcases hload with ⟨r, hr, hgood, h2c⟩
    have hne : (s.afterPage rd cfg (s.page selection n)).pvectRowIDs ≠ [] := by
      rw [hids]
      intro hnil
      have hmem : r ∈ (s.page selection n).filter fun r => !rd.corrupted r && r.has2c :=
        List.mem_filter.2 ⟨hr, by simp [hgood, h2c]⟩
      rw [List.map_eq_nil_iff.1 hnil] at hmem
      cases hmem
    rw [if_neg hne] at hturn
    exact ⟨_, hturn, hne, r, hr, hgood, h2c⟩
  right
  have hnone : (s.afterPage rd cfg (s.page selection n)).pvectRowIDs = [] := by
    rw [hids, List.map_eq_nil_iff, List.filter_eq_nil_iff]
    intro r hr hboth
    have hb := (Bool.and_eq_true _ _).mp hboth
    exact hload ⟨r, hr, (Bool.not_eq_true' _).mp hb.1, hb.2⟩
  rw [if_pos hnone] at hturn
  have hrows : ∀ r ∈ s.page selection n, r ∈ s.table.rows := fun r hr =>
    (mem_visible.1 (mem_selectable_of_mem_page hr)).1
  have hinv : TopicedInv rd table₀ (s.afterPage rd cfg (s.page selection n)) :=
    ⟨loadInv_afterPage h hrows, hnone⟩
  have hsel := selectable_afterPage rd cfg selection s (s.page selection n)
  by_cases hbad : ∃ r ∈ s.page selection n, rd.corrupted r = true
  · -- a corrupted row is put aside
    left
    rcases hbad with ⟨r, hr, hc⟩
    have hid : r.id ∈ ((s.page selection n).filter rd.corrupted).map EventRow.id :=
      List.mem_map.2 ⟨r, List.mem_filter.2 ⟨hr, hc⟩, rfl⟩
    have hvis := mem_selectable_of_mem_page hr
    refine ⟨_, hturn, hinv, ?_, ⟨r, hvis, ?_⟩, ?_⟩
    · intro r' hr'
      rw [hsel, visible_add] at hr'
      exact List.mem_of_mem_filter hr'
    · intro hstill
      rw [hsel, visible_add] at hstill
      exact (of_decide_eq_true (List.mem_filter.1 hstill).2) hid
    · rw [hsel]
      exact length_visible_add_lt hvis hid
  · -- the page is fetched again as it is
    right
    have hgood : ∀ r ∈ s.page selection n, rd.corrupted r = false := by
      intro r hr
      cases hc : rd.corrupted r with
      | false => rfl
      | true => exact absurd ⟨r, hr, hc⟩ hbad
    refine ⟨_, hturn, hinv, ?_, hpage, fun r hr => ⟨hgood r hr, ?_⟩⟩
    · rw [hsel, filter_corrupted_eq_nil hgood]
      rfl
    · cases h2c : r.has2c with
      | false => rfl
      | true => exact absurd ⟨r, hr, hgood r hr, h2c⟩ hload

/-! ## Progress -/

/-- The first page of the rows that are not corrupted. -/
def firstGoodPage (rd : PayloadReader) (selection : EventRow → Bool) (n : ℤ) (table : EventTable) :
    List EventRow := Lib.limit n.toNat (good rd table selection)

/-- That page is empty or has a row with `2c/` in its topic. -/
def FirstPageLoads (rd : PayloadReader) (selection : EventRow → Bool) (n : ℤ)
    (table : EventTable) : Prop :=
  firstGoodPage rd selection n table = [] ∨
    ∃ r ∈ firstGoodPage rd selection n table, r.has2c = true

/-- What one iteration is to do: leave with a batch, leave as no row is left, or
strictly reduce what the next query can select. -/
def IterationProgress (rd : PayloadReader) (cfg : TopicConfig) (selection : EventRow → Bool)
    (n : ℤ) (s : TopicedLoad) : Prop :=
  (∃ s', topicedTurn rd cfg selection n s = .inr s' ∧
    (s'.pvectRowIDs ≠ [] ∨ s.page selection n = [])) ∨
  ∃ s', topicedTurn rd cfg selection n s = .inl s' ∧
    (∀ r ∈ s'.selectable selection, r ∈ s.selectable selection) ∧
    ∃ r ∈ s.selectable selection, r ∉ s'.selectable selection

/-- A page without corrupted rows is the first page of good rows. -/
theorem page_eq_firstGoodPage {s : TopicedLoad} (h : TopicedInv rd table₀ s)
    (hgood : ∀ r ∈ s.page selection n, rd.corrupted r = false) :
    s.page selection n = firstGoodPage rd selection n table₀ := by
  unfold firstGoodPage
  rw [← h.load.visible_good selection]
  refine (Lib.limit_filter_of_forall fun r hr => ?_).symm
  rw [hgood r hr]
  rfl

/-- The good rows of a page belong to the first page of good rows. -/
theorem mem_firstGoodPage {s : TopicedLoad} (h : TopicedInv rd table₀ s) {r : EventRow}
    (hr : r ∈ s.page selection n) (hgood : rd.corrupted r = false) :
    r ∈ firstGoodPage rd selection n table₀ := by
  unfold firstGoodPage
  rw [← h.load.visible_good selection]
  refine (Lib.filter_limit_isPrefixOf _ _ _).subset (List.mem_filter.2 ⟨hr, ?_⟩)
  rw [hgood]
  rfl

/-- If the first good page loads something, the page of a turn is never stuck. -/
theorem not_stuck {s : TopicedLoad} (h : TopicedInv rd table₀ s)
    (hload : FirstPageLoads rd selection n table₀) (hne : s.page selection n ≠ [])
    (hpage : ∀ r ∈ s.page selection n, rd.corrupted r = false ∧ r.has2c = false) : False := by
  have heq := page_eq_firstGoodPage h fun r hr => (hpage r hr).1
  rcases hload with hnil | ⟨r, hr, h2c⟩
  · exact hne (heq.trans hnil)
  · rw [← heq] at hr
    rw [(hpage r hr).2] at h2c
    cases h2c

variable (cfg) in
theorem topicedLoop_terminates (hload : FirstPageLoads rd selection n table₀) {s : TopicedLoad}
    (h : TopicedInv rd table₀ s) : Lib.Terminates (topicedTurn rd cfg selection n) s := by
  refine Lib.terminates_of_measure (TopicedInv rd table₀)
    (fun s => (s.selectable selection).length) ?_ s h
  intro s s' hI hb
  rcases topicedTurn_cases cfg selection n hI with
    ⟨hturn, _⟩ | ⟨t, hturn, _⟩ | ⟨t, hturn, hI', _, _, hlt⟩ | ⟨t, _, _, _, hne, hpage⟩
  · rw [hturn] at hb
    cases hb
  · rw [hturn] at hb
    cases hb
  · rw [hturn] at hb
    cases hb
    exact ⟨hI', hlt⟩
  · exact (not_stuck hI hload hne hpage).elim

/-- Otherwise every turn goes round again. -/
theorem topicedLoop_traps (hload : ¬ FirstPageLoads rd selection n table₀) {s : TopicedLoad}
    (h : TopicedInv rd table₀ s) : ¬ Lib.Terminates (topicedTurn rd cfg selection n) s := by
  refine Lib.not_terminates_of_trap (TopicedInv rd table₀) ?_ s h
  intro s hI
  rcases topicedTurn_cases cfg selection n hI with
    ⟨_, hnil⟩ | ⟨t, _, _, r, hr, hgood, h2c⟩ | ⟨t, hturn, hI', _⟩ | ⟨t, hturn, hI', _⟩
  · -- the query finds nothing, so there is no good row at all
    refine absurd (Or.inl ?_) hload
    rw [← page_eq_firstGoodPage hI (by rw [hnil]; simp)]
    exact hnil
  · exact absurd (Or.inr ⟨r, mem_firstGoodPage hI hr hgood, h2c⟩) hload
  · exact ⟨t, hturn, hI'⟩
  · exact ⟨t, hturn, hI'⟩

theorem topicedTurn_progress (hload : FirstPageLoads rd selection n table₀) {s : TopicedLoad}
    (h : TopicedInv rd table₀ s) : IterationProgress rd cfg selection n s := by
  rcases topicedTurn_cases cfg selection n h with
    ⟨hturn, hnil⟩ | ⟨t, hturn, hids, _⟩ | ⟨t, hturn, _, hsub, hless, _⟩ | ⟨t, _, _, _, hne, hpage⟩
  · exact Or.inl ⟨s, hturn, Or.inr hnil⟩
  · exact Or.inl ⟨t, hturn, Or.inl hids⟩
  · exact Or.inr ⟨t, hturn, hsub, hless⟩
  · exact (not_stuck h hload hne hpage).elim

/-- A further turn keeps the invariant. -/
theorem topicedInv_turn (s s' : TopicedLoad) (h : TopicedInv rd table₀ s)
    (hb : topicedTurn rd cfg selection n s = .inl s') : TopicedInv rd table₀ s' := by
  rcases topicedTurn_cases cfg selection n h with
    ⟨hturn, _⟩ | ⟨t, hturn, _⟩ | ⟨t, hturn, hI', _⟩ | ⟨t, hturn, hI', _⟩
  all_goals
    rw [hturn] at hb
    cases hb
  · exact hI'
  · exact hI'

end Loop

/-- The function returns, and each iteration of its loop makes progress. -/
def TopicedProgress (nNumRowsRequested llLimitStarTimestamp llLimitEndTimestamp : ℤ)
    (table : EventTable) : Prop :=
  (∃ fuel out, getTopicedStreamingEventsFromDB rd cfg fuel nNumRowsRequested
    llLimitStarTimestamp llLimitEndTimestamp table = some out) ∧
  (cfg.strDeviceId ≠ "" → ∀ s,
    Lib.Turns (topicedTurn rd cfg (topicedSelection llLimitStarTimestamp llLimitEndTimestamp)
      nNumRowsRequested) (TopicedLoad.init table) s →
    IterationProgress rd cfg (topicedSelection llLimitStarTimestamp llLimitEndTimestamp)
      nNumRowsRequested s)

/-- A function that returns has left its loop. -/
theorem terminates_of_returns {n startTs endTs : ℤ} {table : EventTable}
    (hid : cfg.strDeviceId ≠ "")
    (h : ∃ fuel out, getTopicedStreamingEventsFromDB rd cfg fuel n startTs endTs table = some out) :
    Lib.Terminates (topicedTurn rd cfg (topicedSelection startTs endTs) n)
      (TopicedLoad.init table) := by
  rcases h with ⟨fuel, out, hout⟩
  unfold getTopicedStreamingEventsFromDB at hout
  rw [if_neg hid] at hout
  rcases Option.map_eq_some_iff.1 hout with ⟨s, hs, _⟩
  exact ⟨s, fuel, hs⟩

theorem getTopicedStreamingEventsFromDB_returns {n startTs endTs : ℤ} {table : EventTable}
    (h : cfg.strDeviceId = "" ∨ FirstPageLoads rd (topicedSelection startTs endTs) n table) :
    ∃ fuel out, getTopicedStreamingEventsFromDB rd cfg fuel n startTs endTs table = some out := by
  by_cases hid : cfg.strDeviceId = ""
  · refine ⟨0, ⟨[], fun _ => none, table⟩, ?_⟩
    unfold getTopicedStreamingEventsFromDB
    rw [if_pos hid]
  · rcases topicedLoop_terminates cfg (h.resolve_left hid) (topicedInv_init rd table) with
      ⟨s, fuel, hs⟩
    refine ⟨fuel, s.finish, ?_⟩
    unfold getTopicedStreamingEventsFromDB
    rw [if_neg hid, hs]
    rfl

/-- Without a device id the function returns at once. With one it makes progress
and returns exactly if the first page of rows that are not corrupted is empty or
has a topic with `2c/`. -/
theorem getTopicedStreamingEventsFromDB_progress_iff (n startTs endTs : ℤ) (table : EventTable) :
    TopicedProgress rd cfg n startTs endTs table ↔
      cfg.strDeviceId = "" ∨ FirstPageLoads rd (topicedSelection startTs endTs) n table := by
  have hinit := topicedInv_init rd table
  constructor
  · intro h
    by_contra hnot
    rw [not_or] at hnot
    exact topicedLoop_traps hnot.2 hinit (terminates_of_returns rd cfg hnot.1 h.1)
  · intro h
    refine ⟨getTopicedStreamingEventsFromDB_returns rd cfg h, fun hid s hs => ?_⟩
    exact topicedTurn_progress (h.resolve_left hid) (hs.inv _ topicedInv_turn hinit)

/-- One event with a topic outside `2c/`: the query fetches it again and again. -/
theorem not_topicedProgress_foreign_topic :
    ¬ TopicedProgress ⟨id, fun _ => true⟩ ⟨"D1", "ic/"⟩ 20 0 0
      (Lib.Table.empty.insert
        (fun n => ⟨n, "Speed", some 1, 0, 2, 0, "\x7b\x7d", some "D1/2d/x", 0, 1, 0⟩) fun _ => rfl) := by
  intro h
  refine topicedLoop_traps ?_ (topicedInv_init _ _) (terminates_of_returns _ _ (by decide) h.1)
  rintro (hnil | ⟨r, hr, h2c⟩)
  · exact absurd hnil (by decide)
  · revert h2c
    rcases List.mem_singleton.1 hr with rfl
    decide

/-! ## What is returned -/

/-- The function returns ids of selected rows with `2c/` in their topic, and
their data under those ids. -/
theorem getTopicedStreamingEventsFromDB_returned {fuel : ℕ} {n startTs endTs : ℤ}
    {table : EventTable} {out : TopicedResult}
    (hout : getTopicedStreamingEventsFromDB rd cfg fuel n startTs endTs table = some out) :
    (∀ id ∈ out.pvectRowIDs, ∃ r ∈ table.rows, r.id = id ∧ r.has2c = true ∧
      topicedSelection startTs endTs r = true) ∧
    ∀ id, out.rmapResults id ≠ none → id ∈ out.pvectRowIDs := by
  unfold getTopicedStreamingEventsFromDB at hout
  split at hout
  · cases hout
    exact ⟨fun id hid => (List.not_mem_nil hid).elim, fun id hne => absurd rfl hne⟩
  · rcases Option.map_eq_some_iff.1 hout with ⟨s, hs, rfl⟩
    -- the invariant of the loop, with an empty result map
    refine Lib.loop_result
      (fun t : TopicedLoad => TopicedInv rd table t ∧ ∀ id, t.rmapResults id ≠ none →
        id ∈ t.pvectRowIDs)
      (fun t : TopicedLoad => (∀ id ∈ t.pvectRowIDs, ∃ r ∈ table.rows, r.id = id ∧
        r.has2c = true ∧ topicedSelection startTs endTs r = true) ∧
        ∀ id, t.rmapResults id ≠ none → id ∈ t.pvectRowIDs)
      ?_ ?_ ⟨topicedInv_init rd table, fun id hne => absurd rfl hne⟩
      ⟨fuel, hs⟩
    · rintro t t' ⟨hI, hmap⟩ hb
      refine ⟨topicedInv_turn t t' hI hb, ?_⟩
      by_cases hpage : t.page (topicedSelection startTs endTs) n = []
      · rw [topicedTurn_of_page_eq_nil hpage] at hb
        cases hb
      · rw [topicedTurn_of_page_ne_nil rd cfg hpage] at hb
        split at hb
        · cases hb
          exact validateTopicedRows_rmapResults rd cfg _ t hmap
        · cases hb
    · rintro t t' ⟨hI, hmap⟩ hb
      by_cases hpage : t.page (topicedSelection startTs endTs) n = []
      · rw [topicedTurn_of_page_eq_nil hpage] at hb
        cases hb
        refine ⟨fun id hid => ?_, hmap⟩
        change id ∈ t.pvectRowIDs at hid
        rw [hI.noIds] at hid
        cases hid
      · rw [topicedTurn_of_page_ne_nil rd cfg hpage] at hb
        split at hb
        · cases hb
        · cases hb
          refine ⟨fun id hid => ?_, validateTopicedRows_rmapResults rd cfg _ t hmap⟩
          change id ∈ (t.afterPage rd cfg _).pvectRowIDs at hid
          rw [pvectRowIDs_afterPage cfg hI] at hid
          rcases List.mem_map.1 hid with ⟨r, hr, rfl⟩
          have hr' := List.mem_filter.1 hr
          have hvis := mem_visible.1 (mem_selectable_of_mem_page hr'.1)
          have hb := (Bool.and_eq_true _ _).mp hr'.2
          exact ⟨r, hI.load.sub.subset hvis.1, rfl, hb.2, hvis.2.1⟩

theorem getTopicedStreamingEventsFromDB_mono {fuel fuel' : ℕ} (hle : fuel ≤ fuel')
    {n startTs endTs : ℤ} {table : EventTable} {out : TopicedResult}
    (h : getTopicedStreamingEventsFromDB rd cfg fuel n startTs endTs table = some out) :
    getTopicedStreamingEventsFromDB rd cfg fuel' n startTs endTs table = some out := by
  unfold getTopicedStreamingEventsFromDB at h ⊢
  by_cases hid : cfg.strDeviceId = ""
  · rw [if_pos hid] at h ⊢
    exact h
  · rw [if_neg hid] at h ⊢
    rcases Option.map_eq_some_iff.1 h with ⟨s, hs, rfl⟩
    rw [Lib.loop_mono hs hle]
    rfl

/-- Rows are only deleted. -/
theorem getTopicedStreamingEventsFromDB_table {fuel : ℕ} {n startTs endTs : ℤ}
    {table : EventTable} {out : TopicedResult}
    (hout : getTopicedStreamingEventsFromDB rd cfg fuel n startTs endTs table = some out) :
    ∀ r ∈ out.table.rows, r ∈ table.rows := by
  unfold getTopicedStreamingEventsFromDB at hout
  split at hout
  · cases hout
    exact fun _ hr => hr
  · rcases Option.map_eq_some_iff.1 hout with ⟨s, hs, rfl⟩
    have hload : LoadInv rd table s.table s.corrupted := by
      refine Lib.loop_result (TopicedInv rd table)
        (fun t : TopicedLoad => LoadInv rd table t.table t.corrupted) topicedInv_turn ?_
        (topicedInv_init rd table) ⟨fuel, hs⟩
      intro t t' hI hb
      by_cases hpage : t.page (topicedSelection startTs endTs) n = []
      · rw [topicedTurn_of_page_eq_nil hpage] at hb
        cases hb
        exact hI.load
      · rw [topicedTurn_of_page_ne_nil rd cfg hpage] at hb
        have hrows : ∀ r ∈ t.page (topicedSelection startTs endTs) n, r ∈ t.table.rows :=
          fun r hr => (mem_visible.1 (mem_selectable_of_mem_page hr)).1
        split at hb
        · cases hb
        · cases hb
          exact loadInv_afterPage hI hrows
    intro r hr
    change r ∈ (deleteCorruptedEventsIfPresent s.table s.corrupted.setCorruptedEvIds).rows at hr
    rw [rows_deleteCorruptedEventsIfPresent] at hr
    exact hload.sub.subset (List.mem_of_mem_filter hr)

end DeviceClient
