import DeviceClient.Lib.Loop
import DeviceClient.Upload.CorruptedEvents
import Mathlib

/-!
# The stream upload's query

`GetStreamingEventsFromDB`: the query loop, the validation of each fetched page
and the JSON text built from it, for the event and for the alert table. The
parameters `rsetExtAppEvent` and `rstrVendor` are not read by the code.

* `streamTurn_cases`: what one turn of the loop can do.
* `streamLoop_terminates` and `streamLoop_result`: the loop leaves, and how.
* `getStreamingEventsFromDB_correct`: what the function returns and removes.
* `getStreamingEventsFromDB_deletes`: what comes with a full batch.
-/

namespace DeviceClient

/-! ## The function -/

/-- The optional bounds of the selection, with their defaults. -/
structure StreamLimits where
  llLimitStartTimestamp : ℤ := 0
  llLimitEndTimestamp : ℤ := 0
  llAfterId : ℤ := -1
  llBeforeId : ℤ := -1

/-- A comparison of the column `TIMESTAMP`, false on `NULL`. -/
def EventRow.timestampSatisfies (r : EventRow) (p : ℤ → Bool) : Bool :=
  match r.timestamp with
  | some ts => p ts
  | none => false

/-- `GetSelectionForStreamingEvents`. -/
def getSelectionForStreamingEvents (rstrTable : StoreTable) (lim : StreamLimits) (r : EventRow) :
    Bool :=
  r.timestamp.isSome &&
  (lim.llAfterId == -1 || decide (lim.llAfterId < r.id)) &&
  (lim.llBeforeId == -1 || decide ((r.id : ℤ) < lim.llBeforeId)) &&
  (!decide (0 < lim.llLimitEndTimestamp) ||
    r.timestampSatisfies fun ts => decide (ts ≤ lim.llLimitEndTimestamp)) &&
  (!decide (0 < lim.llLimitStartTimestamp) ||
    r.timestampSatisfies fun ts => decide (lim.llLimitStartTimestamp ≤ ts)) &&
  decide (r.mid = 0) && r.topic.isNone &&
  (decide (rstrTable ≠ .eventStore) || decide (r.streamSupport = 1))

/-- The variables of the loop. -/
structure StreamLoad where
  table : EventTable
  corrupted : CorruptedEvents
  pvectRowIDs : List ℕ
  rstrResult : String
  strEvent : String

def StreamLoad.init (table : EventTable) : StreamLoad where
  table := table
  corrupted := CorruptedEvents.empty
  pvectRowIDs := []
  rstrResult := "["
  strEvent := "Loaded~["

/-- A corrupted row: its id is put aside. -/
def StreamLoad.addCorrupted (s : StreamLoad) (llId : ℕ) : StreamLoad :=
  { s with corrupted := s.corrupted.add llId }

/-- A good row: its payload, id and log entry are appended. -/
def StreamLoad.addEvent (s : StreamLoad) (r : EventRow) (strEventData : String) : StreamLoad :=
  { s with
    rstrResult := s.rstrResult ++ (strEventData ++ ",")
    pvectRowIDs := s.pvectRowIDs ++ [r.id]
    strEvent := s.strEvent ++ "\x7b\"" ++ r.eventId ++ "\":" ++
      toString (r.timestamp.getD 0) ++ "\x7d," }

variable (rd : PayloadReader)

/-- `ValidateStreamingEvent` on the rows of the cursor. -/
def validateStreamingEvent : List EventRow → StreamLoad → StreamLoad
  | [], s => s
  | r :: rest, s =>
    let strEventData := rd.decryptEventData r.events
    if strEventData.isEmpty || !rd.parse strEventData then
      validateStreamingEvent rest (s.addCorrupted r.id)
    else
      validateStreamingEvent rest (s.addEvent r strEventData)

/-- `IsFetchedRecordSizeZero`. -/
def isFetchedRecordSizeZero (pvectRowIDs : List ℕ) : Bool := !decide (0 < pvectRowIDs.length)

/-- What the loop does with a page that is not empty. -/
def StreamLoad.loadPage (page : List EventRow) (s : StreamLoad) : StreamLoad :=
  let s := validateStreamingEvent rd page s
  let r := validateCorruptedEventIds s.table s.corrupted
  { s with table := r.1, corrupted := r.2 }

/-- One turn of the query loop. -/
def streamTurn (rstrTable : StoreTable) (lim : StreamLimits) (nNumRowsRequested : ℤ)
    (s : StreamLoad) : StreamLoad ⊕ StreamLoad :=
  match queryPage s.table s.corrupted (getSelectionForStreamingEvents rstrTable lim)
      nNumRowsRequested with
  | [] => .inr s
  | r :: rest =>
    let s := s.loadPage rd (r :: rest)
    if isFetchedRecordSizeZero s.pvectRowIDs then .inl s else .inr s

/-- `UpdateStreamEventUploadLogStr`. -/
def updateStreamEventUploadLogStr (rstrLog : String) : String :=
  (if 10 < rstrLog.length then String.ofList rstrLog.toList.dropLast else rstrLog) ++ "]"

/-- `UpdateFinalResultJsonStr`. -/
def updateFinalResultJsonStr (rstrResult : String) : String :=
  if 1 < rstrResult.length then String.ofList rstrResult.toList.dropLast ++ "]"
  else rstrResult ++ "]"

/-- What the caller gets, and the table afterwards. -/
structure StreamResult where
  pvectRowIDs : List ℕ
  rstrResult : String
  rstrLogEvent : String
  table : EventTable

def StreamLoad.finish (s : StreamLoad) : StreamResult where
  pvectRowIDs := s.pvectRowIDs
  rstrResult := updateFinalResultJsonStr s.rstrResult
  rstrLogEvent := updateStreamEventUploadLogStr s.strEvent
  table := deleteCorruptedEventsIfPresent s.table s.corrupted.setCorruptedEvIds

/-- `GetStreamingEventsFromDB`, for at most `fuel` turns of its loop. -/
def getStreamingEventsFromDB (fuel : ℕ) (rstrTable : StoreTable) (lim : StreamLimits)
    (nNumRowsRequested : ℤ) (table : EventTable) : Option StreamResult :=
  (Lib.loop (streamTurn rd rstrTable lim nNumRowsRequested) fuel (StreamLoad.init table)).map
    StreamLoad.finish

/-! ## A page -/

theorem validateStreamingEvent_of_corrupted {r : EventRow} (hc : rd.corrupted r = true)
    (rest : List EventRow) (s : StreamLoad) :
    validateStreamingEvent rd (r :: rest) s =
      validateStreamingEvent rd rest (s.addCorrupted r.id) :=
  if_pos hc

theorem validateStreamingEvent_of_good {r : EventRow} (hc : rd.corrupted r ≠ true)
    (rest : List EventRow) (s : StreamLoad) :
    validateStreamingEvent rd (r :: rest) s =
      validateStreamingEvent rd rest (s.addEvent r (rd.decryptEventData r.events)) :=
  if_neg hc

theorem validateStreamingEvent_table (page : List EventRow) :
    ∀ s, (validateStreamingEvent rd page s).table = s.table := by
  induction page with
  | nil => exact fun _ => rfl
  | cons r rest ih =>
    intro s
    by_cases hc : rd.corrupted r = true
    · rw [validateStreamingEvent_of_corrupted rd hc, ih]
      rfl
    · rw [validateStreamingEvent_of_good rd hc, ih]
      rfl

theorem validateStreamingEvent_corrupted (page : List EventRow) :
    ∀ s, (validateStreamingEvent rd page s).corrupted =
      ((page.filter rd.corrupted).map EventRow.id).foldl CorruptedEvents.add s.corrupted := by
  induction page with
  | nil => exact fun _ => rfl
  | cons r rest ih =>
    intro s
    by_cases hc : rd.corrupted r = true
    · rw [validateStreamingEvent_of_corrupted rd hc, ih, List.filter_cons_of_pos hc]
      rfl
    · rw [validateStreamingEvent_of_good rd hc, ih, List.filter_cons_of_neg hc]
      rfl

theorem validateStreamingEvent_pvectRowIDs (page : List EventRow) :
    ∀ s, (validateStreamingEvent rd page s).pvectRowIDs =
      s.pvectRowIDs ++ (page.filter fun r => !rd.corrupted r).map EventRow.id := by
  induction page with
  | nil => exact fun s => (List.append_nil _).symm
  | cons r rest ih =>
    intro s
    by_cases hc : rd.corrupted r = true
    · rw [validateStreamingEvent_of_corrupted rd hc, ih, List.filter_cons_of_neg (by simp [hc])]
      rfl
    · rw [validateStreamingEvent_of_good rd hc, ih, List.filter_cons_of_pos (by simp [hc]),
        List.map_cons]
      show (s.pvectRowIDs ++ [r.id]) ++ _ = _
      rw [List.append_assoc]
      rfl

/-- The text appended for a page, each payload followed by its comma. -/
theorem validateStreamingEvent_rstrResult (page : List EventRow) :
    ∀ s, (validateStreamingEvent rd page s).rstrResult.toList = s.rstrResult.toList ++
      (page.filter fun r => !rd.corrupted r).flatMap
        fun r => (rd.decryptEventData r.events).toList ++ [','] := by
  induction page with
  | nil => exact fun s => (List.append_nil _).symm
  | cons r rest ih =>
    intro s
    by_cases hc : rd.corrupted r = true
    · rw [validateStreamingEvent_of_corrupted rd hc, ih, List.filter_cons_of_neg (by simp [hc])]
      rfl
    · rw [validateStreamingEvent_of_good rd hc, ih, List.filter_cons_of_pos (by simp [hc]),
        List.flatMap_cons, ← List.append_assoc]
      congr 1
      simp [StreamLoad.addEvent]

/-! ## The text -/

/-- Dropping the last comma leaves the payloads joined by commas. -/
theorem dropLast_flatMap_comma (ps : List (List Char)) (hps : ps ≠ []) :
    (ps.flatMap fun p => p ++ [',']).dropLast = [','].intercalate ps := by
  induction ps with
  | nil => exact absurd rfl hps
  | cons p ps ih =>
    cases ps with
    | nil => simp
    | cons q ps =>
      have hne : ((q :: ps).flatMap fun p => p ++ [',']) ≠ [] := by simp
      rw [List.flatMap_cons, List.dropLast_append_of_ne_nil hne, ih (by simp)]
      simp

/-- `UpdateFinalResultJsonStr` closes the array. -/
theorem updateFinalResultJsonStr_eq {rstrResult : String} {ps : List String}
    (h : rstrResult.toList = '[' :: ps.flatMap fun p => p.toList ++ [',']) :
    updateFinalResultJsonStr rstrResult = "[" ++ ",".intercalate ps ++ "]" := by
  have hlen : rstrResult.length = rstrResult.toList.length := String.length_toList.symm
  unfold updateFinalResultJsonStr
  rw [hlen, h]
  cases ps with
  | nil =>
    have hopen : rstrResult = "[" := String.toList_injective h
    rw [hopen]
    rfl
  | cons p ps =>
    have hne : ((p :: ps).flatMap fun p => p.toList ++ [',']) ≠ [] := by simp
    have hmap : ((p :: ps).flatMap fun p => p.toList ++ [',']) =
        ((p :: ps).map String.toList).flatMap fun p => p ++ [','] := by
      rw [List.flatMap_map]
    have hlong : 1 < ('[' :: (p :: ps).flatMap fun p => p.toList ++ [',']).length := by
      have hpos := List.length_pos_of_ne_nil hne
      rw [List.length_cons]
      omega
    rw [if_pos hlong, List.dropLast_cons_of_ne_nil hne, hmap, dropLast_flatMap_comma _ (by simp)]
    apply String.toList_injective
    simp

/-! ## The loop -/

section Loop

variable {rd} {rstrTable : StoreTable} {lim : StreamLimits} {n : ℤ} {table₀ : EventTable}

/-- Before a turn: nothing has been loaded yet. -/
structure StreamInv (rd : PayloadReader) (table₀ : EventTable) (s : StreamLoad) : Prop where
  load : LoadInv rd table₀ s.table s.corrupted
  noIds : s.pvectRowIDs = []
  noText : s.rstrResult = "["

/-- When the loop leaves: what was loaded is the first page of good rows. -/
def StreamDone (rd : PayloadReader) (table₀ : EventTable) (rstrTable : StoreTable)
    (lim : StreamLimits) (n : ℤ) (s : StreamLoad) : Prop :=
  LoadInv rd table₀ s.table s.corrupted ∧
    ∃ rows, rows <+: Lib.limit n.toNat (good rd table₀ (getSelectionForStreamingEvents rstrTable lim))
      ∧ (rows = [] → good rd table₀ (getSelectionForStreamingEvents rstrTable lim) = [])
      ∧ s.pvectRowIDs = rows.map EventRow.id
      ∧ s.rstrResult.toList =
          '[' :: (rows.map fun r => rd.decryptEventData r.events).flatMap fun p => p.toList ++ [',']

theorem streamInv_init (rd : PayloadReader) (table₀ : EventTable) :
    StreamInv rd table₀ (StreamLoad.init table₀) :=
  ⟨LoadInv.init rd table₀, rfl, rfl⟩

theorem loadInv_loadPage {s : StreamLoad} (h : LoadInv rd table₀ s.table s.corrupted)
    {page : List EventRow} (hpage : ∀ r ∈ page, r ∈ s.table.rows) :
    LoadInv rd table₀ (s.loadPage rd page).table (s.loadPage rd page).corrupted := by
  have hadd := (h.add hpage).validate
  rwa [← validateStreamingEvent_corrupted rd page s, ← validateStreamingEvent_table rd page s]
    at hadd

theorem visible_loadPage (s : StreamLoad) (page : List EventRow) (selection : EventRow → Bool) :
    visible (s.loadPage rd page).table (s.loadPage rd page).corrupted selection =
      visible s.table
        (((page.filter rd.corrupted).map EventRow.id).foldl CorruptedEvents.add s.corrupted)
        selection := by
  show visible (validateCorruptedEventIds _ _).1 (validateCorruptedEventIds _ _).2 selection = _
  rw [visible_validateCorruptedEventIds, validateStreamingEvent_corrupted,
    validateStreamingEvent_table]

/-- The rows that the query of this turn fetches. -/
def StreamLoad.page (s : StreamLoad) (rstrTable : StoreTable) (lim : StreamLimits) (n : ℤ) :
    List EventRow :=
  queryPage s.table s.corrupted (getSelectionForStreamingEvents rstrTable lim) n

theorem streamTurn_of_page_eq_nil {s : StreamLoad} (hpage : s.page rstrTable lim n = []) :
    streamTurn rd rstrTable lim n s = .inr s := by
  unfold StreamLoad.page at hpage
  unfold streamTurn
  rw [hpage]

variable (rd) in
theorem streamTurn_of_page_ne_nil {s : StreamLoad} (hpage : s.page rstrTable lim n ≠ []) :
    streamTurn rd rstrTable lim n s =
      if isFetchedRecordSizeZero (s.loadPage rd (s.page rstrTable lim n)).pvectRowIDs then
        .inl (s.loadPage rd (s.page rstrTable lim n))
      else .inr (s.loadPage rd (s.page rstrTable lim n)) := by
  cases hp : s.page rstrTable lim n with
  | nil => exact absurd hp hpage
  | cons r rest =>
    unfold StreamLoad.page at hp
    unfold streamTurn
    rw [hp]

theorem visible_loadPage_eq (s : StreamLoad) (page : List EventRow) (selection : EventRow → Bool) :
    visible (s.loadPage rd page).table (s.loadPage rd page).corrupted selection =
      (visible s.table s.corrupted selection).filter
        fun r => decide (r.id ∉ (page.filter rd.corrupted).map EventRow.id) := by
  rw [visible_loadPage, visible_add]

/-- A turn takes the corrupted rows of its page out of sight, whether the loop
goes round or leaves. -/
theorem visible_streamTurn {s s' : StreamLoad}
    (h : streamTurn rd rstrTable lim n s = .inl s' ∨ streamTurn rd rstrTable lim n s = .inr s') :
    visible s'.table s'.corrupted (getSelectionForStreamingEvents rstrTable lim) =
      (visible s.table s.corrupted (getSelectionForStreamingEvents rstrTable lim)).filter
        fun r => decide (r.id ∉ ((s.page rstrTable lim n).filter rd.corrupted).map EventRow.id) := by
  by_cases hpage : s.page rstrTable lim n = []
  · rw [streamTurn_of_page_eq_nil hpage] at h
    rw [hpage]
    rcases h with h | h
    · cases h
    · cases h
      exact (List.filter_eq_self.2 fun _ _ => rfl).symm
  · rw [streamTurn_of_page_ne_nil rd hpage] at h
    have hs' : s' = s.loadPage rd (s.page rstrTable lim n) := by
      split at h <;> rcases h with h | h <;> cases h <;> rfl
    rw [hs']
    exact visible_loadPage_eq s _ _

variable (rstrTable lim n) in
/-- One turn: no row is left; or the whole page is corrupted and the next query
sees less; or the good rows of the page are loaded. -/
theorem streamTurn_cases {s : StreamLoad} (h : StreamInv rd table₀ s) :
    (streamTurn rd rstrTable lim n s = .inr s ∧ StreamDone rd table₀ rstrTable lim n s) ∨
    (∃ s', streamTurn rd rstrTable lim n s = .inl s' ∧ StreamInv rd table₀ s' ∧
      (visible s'.table s'.corrupted (getSelectionForStreamingEvents rstrTable lim)).length <
        (visible s.table s.corrupted (getSelectionForStreamingEvents rstrTable lim)).length) ∨
    (∃ s', streamTurn rd rstrTable lim n s = .inr s' ∧
      StreamDone rd table₀ rstrTable lim n s') := by
  have hgood := h.load.visible_good (getSelectionForStreamingEvents rstrTable lim)
  by_cases hpage : s.page rstrTable lim n = []
  · -- the query finds nothing, so nothing good is in the table
    left
    have hnone : good rd table₀ (getSelectionForStreamingEvents rstrTable lim) = [] := by
      unfold StreamLoad.page at hpage
      rw [queryPage_eq, Lib.limit_eq_nil] at hpage
      rw [← hgood, hpage]
      rfl
    refine ⟨streamTurn_of_page_eq_nil hpage, h.load, [], List.nil_prefix, fun _ => hnone, h.noIds, ?_⟩
    rw [h.noText]
    rfl
  · right
    have hturn := streamTurn_of_page_ne_nil rd hpage
    have hvis : ∀ r ∈ s.page rstrTable lim n,
        r ∈ visible s.table s.corrupted (getSelectionForStreamingEvents rstrTable lim) :=
      fun _ hr => Lib.mem_of_mem_limit hr
    have hload := loadInv_loadPage h.load fun r hr => (mem_visible.1 (hvis r hr)).1
    have hids : (s.loadPage rd (s.page rstrTable lim n)).pvectRowIDs =
        ((s.page rstrTable lim n).filter fun r => !rd.corrupted r).map EventRow.id := by
      show (validateStreamingEvent rd (s.page rstrTable lim n) s).pvectRowIDs = _
      rw [validateStreamingEvent_pvectRowIDs, h.noIds, List.nil_append]
    have htext : (s.loadPage rd (s.page rstrTable lim n)).rstrResult.toList =
        '[' :: ((s.page rstrTable lim n).filter fun r => !rd.corrupted r).flatMap
          fun r => (rd.decryptEventData r.events).toList ++ [','] := by
      show (validateStreamingEvent rd (s.page rstrTable lim n) s).rstrResult.toList = _
      rw [validateStreamingEvent_rstrResult, h.noText]
      rfl
    cases hrest : (s.page rstrTable lim n).filter fun r => !rd.corrupted r with
    | nil =>
      -- only corrupted rows: they leave the sight of the next query
      left
      rw [hrest] at hids htext
      obtain ⟨r, hr⟩ := List.exists_mem_of_ne_nil _ hpage
      have hbad : rd.corrupted r = true := by
        have hnot := List.filter_eq_nil_iff.1 hrest r hr
        simpa using hnot
      refine ⟨s.loadPage rd (s.page rstrTable lim n), ?_, ⟨hload, hids, ?_⟩, ?_⟩
      · rw [hturn, hids]
        rfl
      · exact String.toList_injective htext
      · rw [visible_loadPage]
        exact length_visible_add_lt (hvis r hr)
          (List.mem_map.2 ⟨r, List.mem_filter.2 ⟨hr, hbad⟩, rfl⟩)
    | cons g gs =>
      right
      have hpre : (s.page rstrTable lim n).filter (fun r => !rd.corrupted r) <+:
          Lib.limit n.toNat (good rd table₀ (getSelectionForStreamingEvents rstrTable lim)) := by
        unfold StreamLoad.page
        rw [queryPage_eq, ← hgood]
        exact Lib.filter_limit_isPrefixOf _ _ _
      refine ⟨s.loadPage rd (s.page rstrTable lim n), ?_, hload, g :: gs, hrest ▸ hpre, ?_, ?_, ?_⟩
      · rw [hturn, hids, hrest]
        rfl
      · intro hnil
        cases hnil
      · rw [hids, hrest]
      · rw [htext, hrest, List.flatMap_map]

variable (rstrTable lim n) in
theorem streamLoop_terminates (s : StreamLoad) (h : StreamInv rd table₀ s) :
    Lib.Terminates (streamTurn rd rstrTable lim n) s := by
  refine Lib.terminates_of_measure (StreamInv rd table₀)
    (fun s => (visible s.table s.corrupted (getSelectionForStreamingEvents rstrTable lim)).length)
    ?_ s h
  intro s s' hI hb
  rcases streamTurn_cases rstrTable lim n hI with
    ⟨hturn, _⟩ | ⟨t, hturn, hI', hlt⟩ | ⟨t, hturn, _⟩
  · rw [hturn] at hb
    cases hb
  · rw [hturn] at hb
    cases hb
    exact ⟨hI', hlt⟩
  · rw [hturn] at hb
    cases hb

theorem streamLoop_result {s s' : StreamLoad} (h : StreamInv rd table₀ s)
    (hr : Lib.Returns (streamTurn rd rstrTable lim n) s s') :
    StreamDone rd table₀ rstrTable lim n s' := by
  refine Lib.loop_result (StreamInv rd table₀) (StreamDone rd table₀ rstrTable lim n) ?_ ?_ h hr
  · intro s t hI hb
    rcases streamTurn_cases rstrTable lim n hI with
      ⟨hturn, _⟩ | ⟨t, hturn, hI', _⟩ | ⟨t, hturn, _⟩
    · rw [hturn] at hb
      cases hb
    · rw [hturn] at hb
      cases hb
      exact hI'
    · rw [hturn] at hb
      cases hb
  · intro s t hI hb
    rcases streamTurn_cases rstrTable lim n hI with
      ⟨hturn, hdone⟩ | ⟨t, hturn, _⟩ | ⟨t, hturn, hdone⟩
    · rw [hturn] at hb
      cases hb
      exact hdone
    · rw [hturn] at hb
      cases hb
    · rw [hturn] at hb
      cases hb
      exact hdone

end Loop

/-! ## The result -/

/-- The rows that a stream upload may send. -/
def Eligible (rstrTable : StoreTable) (r : EventRow) : Prop :=
  r.mid = 0 ∧ r.topic = none ∧ r.timestamp ≠ none ∧
    (rstrTable = .eventStore → r.streamSupport = 1)

theorem selection_default {rstrTable : StoreTable} {r : EventRow} :
    getSelectionForStreamingEvents rstrTable {} r = true ↔ Eligible rstrTable r := by
  unfold getSelectionForStreamingEvents Eligible
  cases hts : r.timestamp <;> cases htop : r.topic <;> cases rstrTable <;> simp

/-- What the caller of `GetStreamingEventsFromDB` gets. -/
structure StreamSpec (rd : PayloadReader) (rstrTable : StoreTable) (n : ℤ) (table : EventTable)
    (out : StreamResult) : Prop where
  empty_iff : (out.pvectRowIDs = [] ∧ out.rstrResult = "[]") ↔
    ∀ r ∈ table.rows, Eligible rstrTable r → rd.corrupted r = true
  batch : (∃ r ∈ table.rows, Eligible rstrTable r ∧ rd.corrupted r = false) →
    ∃ rows : List EventRow, rows ≠ [] ∧ (rows.length : ℤ) ≤ n ∧ rows.Nodup ∧
      (rows.Pairwise fun r r' => r.timestampKey ≤ r'.timestampKey) ∧
      (∀ r ∈ rows, r ∈ table.rows ∧ Eligible rstrTable r ∧ rd.corrupted r = false) ∧
      out.pvectRowIDs = rows.map EventRow.id ∧
      out.rstrResult =
        "[" ++ ",".intercalate (rows.map fun r => rd.decryptEventData r.events) ++ "]"
  removed : out.table.rows.Sublist table.rows ∧
    ∀ r ∈ table.rows, r ∉ out.table.rows → rd.corrupted r = true

/-- The result of the loop, closed by `finish`. -/
theorem streamSpec_finish {rstrTable : StoreTable} {n : ℤ} {table : EventTable} {s : StreamLoad}
    (hn : 1 ≤ n) (h : StreamDone rd table rstrTable {} n s) :
    StreamSpec rd rstrTable n table s.finish := by
  rcases h with ⟨hload, rows, hpre, hnil, hids, htext⟩
  have htext' : s.finish.rstrResult =
      "[" ++ ",".intercalate (rows.map fun r => rd.decryptEventData r.events) ++ "]" :=
    updateFinalResultJsonStr_eq htext
  have hrows : rows <+: good rd table (getSelectionForStreamingEvents rstrTable {}) :=
    hpre.trans (Lib.limit_isPrefixOf _ _)
  have hmem : ∀ r ∈ rows, r ∈ table.rows ∧ Eligible rstrTable r ∧ rd.corrupted r = false := by
    intro r hr
    have hr' := mem_good.1 (hrows.subset hr)
    exact ⟨hr'.1, selection_default.1 hr'.2.1, hr'.2.2⟩
  constructor
  · constructor
    · -- nothing was loaded, so no row that could be was good
      rintro ⟨hnoIds, _⟩ r hr hel
      by_contra hgood
      have hrows' : rows = [] := by
        change s.pvectRowIDs = [] at hnoIds
        rw [hids] at hnoIds
        exact List.map_eq_nil_iff.1 hnoIds
      have hin : r ∈ good rd table (getSelectionForStreamingEvents rstrTable {}) :=
        mem_good.2 ⟨hr, selection_default.2 hel, by simpa using hgood⟩
      rw [hnil hrows'] at hin
      cases hin
    · intro hall
      have hrows' : rows = [] := by
        refine List.eq_nil_iff_forall_not_mem.2 fun r hr => ?_
        have hr' := hmem r hr
        rw [hall r hr'.1 hr'.2.1] at hr'
        cases hr'.2.2
      refine ⟨?_, ?_⟩
      · show s.pvectRowIDs = []
        rw [hids, hrows']
        rfl
      · rw [htext', hrows']
        rfl
  · rintro ⟨r, hr, hel, hgood⟩
    refine ⟨rows, ?_, ?_, ?_, ?_, hmem, hids, htext'⟩
    · intro hrows'
      have hin : r ∈ good rd table (getSelectionForStreamingEvents rstrTable {}) :=
        mem_good.2 ⟨hr, selection_default.2 hel, hgood⟩
      rw [hnil hrows'] at hin
      cases hin
    · have hlen := le_trans hpre.length_le
        (Lib.length_limit_le (show 0 < n.toNat by omega) _)
      omega
    · have hnodup : (good rd table (getSelectionForStreamingEvents rstrTable {})).Nodup :=
        (List.perm_insertionSort _ _).nodup_iff.2 (table.nodup_rows.filter _)
      exact hnodup.sublist hrows.sublist
    · exact (Lib.sorted_orderBy _ _).sublist hrows.sublist
  · have hout : s.finish.table.rows =
        s.table.rows.filter fun r => decide (r.id ∉ s.corrupted) :=
      rows_deleteCorruptedEventsIfPresent s.table s.corrupted
    rw [hout]
    -- a row that is gone was corrupted
    refine ⟨List.filter_sublist.trans hload.sub, fun r hr hgone => ?_⟩
    by_contra hgood
    have hkept := hload.kept r hr (by simpa using hgood)
    exact hgone (List.mem_filter.2 ⟨hkept.1, decide_eq_true hkept.2⟩)

theorem getStreamingEventsFromDB_returns (rstrTable : StoreTable) (lim : StreamLimits) (n : ℤ)
    (table : EventTable) :
    ∃ fuel out, getStreamingEventsFromDB rd fuel rstrTable lim n table = some out := by
  rcases streamLoop_terminates rstrTable lim n _ (streamInv_init rd table) with ⟨s, fuel, hs⟩
  refine ⟨fuel, s.finish, ?_⟩
  unfold getStreamingEventsFromDB
  rw [hs]
  rfl

/-- What is returned was loaded by the loop. -/
theorem streamDone_of_returned {rstrTable : StoreTable} {lim : StreamLimits} {n : ℤ}
    {table : EventTable} {fuel : ℕ} {out : StreamResult}
    (hout : getStreamingEventsFromDB rd fuel rstrTable lim n table = some out) :
    ∃ s, StreamDone rd table rstrTable lim n s ∧ s.finish = out := by
  unfold getStreamingEventsFromDB at hout
  rcases Option.map_eq_some_iff.1 hout with ⟨s, hs, hfinish⟩
  exact ⟨s, streamLoop_result (streamInv_init rd table) ⟨fuel, hs⟩, hfinish⟩

/-- The function returns, and whatever it returns meets the specification. -/
theorem getStreamingEventsFromDB_correct (rstrTable : StoreTable) (n : ℤ) (hn : 1 ≤ n)
    (table : EventTable) :
    (∃ fuel out, getStreamingEventsFromDB rd fuel rstrTable {} n table = some out) ∧
      ∀ fuel out, getStreamingEventsFromDB rd fuel rstrTable {} n table = some out →
        StreamSpec rd rstrTable n table out := by
  refine ⟨getStreamingEventsFromDB_returns rd rstrTable {} n table, fun fuel out hout => ?_⟩
  rcases streamDone_of_returned rd hout with ⟨s, hdone, rfl⟩
  exact streamSpec_finish rd hn hdone

/-- Three events of which the oldest does not parse. -/
def threeRows : EventTable :=
  let row (ts : ℤ) (data : String) (n : ℕ) : EventRow :=
    ⟨n, "Speed", some ts, 0, 1, 0, data, none, 0, 1, 0⟩
  ((Lib.Table.empty.insert (row 7 "a") fun _ => rfl).insert (row 5 "x") fun _ => rfl).insert
    (row 6 "b") fun _ => rfl

/-- A page of one row: the first holds the corrupted row only, the second is sent. -/
theorem getStreamingEventsFromDB_threeRows :
    StreamSpec ⟨id, fun s => decide (s ≠ "x")⟩ .eventStore 1 threeRows
      ⟨[3], "[b]", "Loaded~[\x7b\"Speed\":6\x7d]", threeRows.remove fun r => decide (r.id = 2)⟩ :=
  (getStreamingEventsFromDB_correct _ .eventStore 1 (by decide) threeRows).2 2 _ rfl

/-! ## A full batch -/

/-- The first page has as many rows as requested, and all of them are good. -/
def FullGoodPage (rstrTable : StoreTable) (n : ℤ) (table : EventTable) : Prop :=
  (((StreamLoad.init table).page rstrTable {} n).length : ℤ) = n ∧
    ∀ r ∈ (StreamLoad.init table).page rstrTable {} n, rd.corrupted r = false

theorem getStreamingEventsFromDB_mono {fuel fuel' : ℕ} (hle : fuel ≤ fuel')
    {rstrTable : StoreTable} {lim : StreamLimits} {n : ℤ} {table : EventTable} {out : StreamResult}
    (h : getStreamingEventsFromDB rd fuel rstrTable lim n table = some out) :
    getStreamingEventsFromDB rd fuel' rstrTable lim n table = some out := by
  unfold getStreamingEventsFromDB at h ⊢
  rcases Option.map_eq_some_iff.1 h with ⟨s, hs, rfl⟩
  rw [Lib.loop_mono hs hle]
  rfl

/-- A page of good rows leaves the table as it is. -/
theorem loadPage_of_good {page : List EventRow} (hgood : ∀ r ∈ page, rd.corrupted r = false)
    (table : EventTable) :
    ((StreamLoad.init table).loadPage rd page).table = table ∧
      ((StreamLoad.init table).loadPage rd page).corrupted = CorruptedEvents.empty ∧
      ((StreamLoad.init table).loadPage rd page).pvectRowIDs = page.map EventRow.id := by
  have hcorrupted : (validateStreamingEvent rd page (StreamLoad.init table)).corrupted =
      CorruptedEvents.empty := by
    rw [validateStreamingEvent_corrupted, filter_corrupted_eq_nil hgood]
    rfl
  have htable := validateStreamingEvent_table rd page (StreamLoad.init table)
  have hids := validateStreamingEvent_pvectRowIDs rd page (StreamLoad.init table)
  rw [filter_not_corrupted_eq_self hgood] at hids
  refine ⟨?_, ?_, hids⟩
  · show (validateCorruptedEventIds _ _).1 = _
    rw [hcorrupted, htable]
    rfl
  · show (validateCorruptedEventIds _ _).2 = _
    rw [hcorrupted, htable]
    rfl

/-- From a page of good rows the first turn leaves, with its ids. -/
theorem streamTurn_of_good {rstrTable : StoreTable} {n : ℤ} {table : EventTable}
    (hgood : ∀ r ∈ (StreamLoad.init table).page rstrTable {} n, rd.corrupted r = false) :
    ∃ s, streamTurn rd rstrTable {} n (StreamLoad.init table) = .inr s ∧ s.table = table ∧
      s.corrupted = CorruptedEvents.empty ∧
      s.pvectRowIDs = ((StreamLoad.init table).page rstrTable {} n).map EventRow.id := by
  by_cases hpage : (StreamLoad.init table).page rstrTable {} n = []
  · refine ⟨StreamLoad.init table, streamTurn_of_page_eq_nil hpage, rfl, rfl, ?_⟩
    rw [hpage]
    rfl
  · rcases loadPage_of_good rd hgood table with ⟨htable, hcorrupted, hids⟩
    refine ⟨_, ?_, htable, hcorrupted, hids⟩
    have hlen : 0 < ((StreamLoad.init table).loadPage rd
        ((StreamLoad.init table).page rstrTable {} n)).pvectRowIDs.length := by
      rw [hids, List.length_map]
      exact List.length_pos_of_ne_nil hpage
    rw [streamTurn_of_page_ne_nil rd hpage]
    unfold isFetchedRecordSizeZero
    rw [decide_eq_true hlen]
    rfl

/-- A full page of good rows is the batch, and no row is deleted. -/
theorem getStreamingEventsFromDB_fullGoodPage {rstrTable : StoreTable} {n : ℤ}
    {table : EventTable} (h : FullGoodPage rd rstrTable n table) :
    ∃ out, getStreamingEventsFromDB rd 1 rstrTable {} n table = some out ∧
      out.table = table ∧ (out.pvectRowIDs.length : ℤ) = n := by
  rcases streamTurn_of_good rd h.2 with ⟨s, hturn, htable, hcorrupted, hids⟩
  refine ⟨s.finish, ?_, ?_, ?_⟩
  · unfold getStreamingEventsFromDB
    rw [Lib.loop_inr hturn]
    rfl
  · show deleteCorruptedEventsIfPresent s.table s.corrupted.setCorruptedEvIds = table
    rw [hcorrupted, htable]
    rfl
  · show (s.pvectRowIDs.length : ℤ) = n
    rw [hids, List.length_map]
    exact h.1

/-- A corrupted row of the first page is out of sight when the loop leaves. -/
theorem not_mem_visible_of_returns {rstrTable : StoreTable} {n : ℤ} {table : EventTable}
    {r : EventRow} (hr : r ∈ (StreamLoad.init table).page rstrTable {} n)
    (hc : rd.corrupted r = true) {s : StreamLoad}
    (hs : Lib.Returns (streamTurn rd rstrTable {} n) (StreamLoad.init table) s) :
    r ∉ visible s.table s.corrupted (getSelectionForStreamingEvents rstrTable {}) := by
  have hturn : ∀ t t', (t = StreamLoad.init table ∨
      r ∉ visible t.table t.corrupted (getSelectionForStreamingEvents rstrTable {})) →
      (streamTurn rd rstrTable {} n t = .inl t' ∨ streamTurn rd rstrTable {} n t = .inr t') →
      r ∉ visible t'.table t'.corrupted (getSelectionForStreamingEvents rstrTable {}) := by
    rintro t t' hI hb hmem
    rw [visible_streamTurn hb] at hmem
    have hmem' := List.mem_filter.1 hmem
    rcases hI with rfl | hgone
    · exact of_decide_eq_true hmem'.2 (List.mem_map.2 ⟨r, List.mem_filter.2 ⟨hr, hc⟩, rfl⟩)
    · exact hgone hmem'.1
  exact Lib.loop_result _ _ (fun t t' hI hb => Or.inr (hturn t t' hI (Or.inl hb)))
    (fun t t' hI hb => hturn t t' hI (Or.inr hb)) (Or.inl rfl) hs

/-- A full batch from any other table comes with a selected row that is deleted. -/
theorem getStreamingEventsFromDB_deletes {rstrTable : StoreTable} {n : ℤ} {table : EventTable}
    (hfull : ¬ FullGoodPage rd rstrTable n table) {fuel : ℕ} {out : StreamResult}
    (hout : getStreamingEventsFromDB rd fuel rstrTable {} n table = some out)
    (hlen : (out.pvectRowIDs.length : ℤ) = n) :
    ∃ r ∈ table.rows, getSelectionForStreamingEvents rstrTable {} r = true ∧
      r ∉ out.table.rows := by
  unfold getStreamingEventsFromDB at hout
  rcases Option.map_eq_some_iff.1 hout with ⟨s, hs, rfl⟩
  by_cases hbad : ∃ r ∈ (StreamLoad.init table).page rstrTable {} n, rd.corrupted r = true
  · rcases hbad with ⟨r, hr, hc⟩
    have hvis := mem_visible.1 (Lib.mem_of_mem_limit hr)
    refine ⟨r, hvis.1, hvis.2.1, fun hstill => ?_⟩
    have hrows : s.finish.table.rows = s.table.rows.filter fun r => decide (r.id ∉ s.corrupted) :=
      rows_deleteCorruptedEventsIfPresent s.table s.corrupted
    rw [hrows] at hstill
    rcases List.mem_filter.1 hstill with ⟨hmem, hid⟩
    exact not_mem_visible_of_returns rd hr hc ⟨fuel, hs⟩
      (mem_visible.2 ⟨hmem, hvis.2.1, of_decide_eq_true hid⟩)
  · -- the first page is loaded as it is, so it is not as long as the batch
    exfalso
    have hgood : ∀ r ∈ (StreamLoad.init table).page rstrTable {} n, rd.corrupted r = false := by
      intro r hr
      by_contra hc
      exact hbad ⟨r, hr, Bool.not_eq_false _ ▸ hc⟩
    rcases streamTurn_of_good rd hgood with ⟨t, hturn, _, _, hids⟩
    have hst : s = t := Lib.Returns.unique ⟨fuel, hs⟩ (Lib.Returns.of_inr hturn)
    apply hfull
    refine ⟨?_, hgood⟩
    change (s.pvectRowIDs.length : ℤ) = n at hlen
    rw [hst, hids, List.length_map] at hlen
    exact hlen

/-- The ids returned are those of selected rows, and rows are only deleted. -/
theorem getStreamingEventsFromDB_returned {rstrTable : StoreTable} {lim : StreamLimits} {n : ℤ}
    {table : EventTable} {fuel : ℕ} {out : StreamResult}
    (hout : getStreamingEventsFromDB rd fuel rstrTable lim n table = some out) :
    (∀ id ∈ out.pvectRowIDs, ∃ r ∈ table.rows, r.id = id ∧
      getSelectionForStreamingEvents rstrTable lim r = true) ∧
    ∀ r ∈ out.table.rows, r ∈ table.rows := by
  rcases streamDone_of_returned rd hout with ⟨s, ⟨hload, rows, hrows, _, hids, _⟩, rfl⟩
  constructor
  · intro id hid
    change id ∈ s.pvectRowIDs at hid
    rw [hids] at hid
    rcases List.mem_map.1 hid with ⟨r, hr, rfl⟩
    have hgood := mem_good.1 (Lib.mem_of_mem_limit (hrows.subset hr))
    exact ⟨r, hgood.1, rfl, hgood.2.1⟩
  · intro r hr
    change r ∈ (deleteCorruptedEventsIfPresent s.table s.corrupted.setCorruptedEvIds).rows at hr
    rw [rows_deleteCorruptedEventsIfPresent] at hr
    exact hload.sub.subset (List.mem_of_mem_filter hr)

end DeviceClient
