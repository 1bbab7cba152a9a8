import DeviceClient.Upload.TopicedSelection
import Mathlib.Data.List.Infix

/-!
# The topic under which a topiced event is sent

An event is stored with its topic, and sent under the configured prefix, the device id of
now and what stands in the stored topic from the first `2c/` on.

* `substrFrom2c_append`: what is found behind a text that holds no `2c/`.
* `rmapResults_of_mem`: what a page loads for one of its rows.
* `topicFollows_iff`: when the rest of a topic is kept as it is.
-/

namespace DeviceClient

/-- `2c/`. -/
def marker2c : List Char := ['2', 'c', '/']

/-! ## The first `2c/` -/

theorem substrFrom2c_of_isPrefix {cs : List Char} (h : marker2c <+: cs) :
    substrFrom2c cs = some cs := by
  cases cs with
  | nil => exact absurd (List.prefix_nil.1 h) (by decide)
  | cons c cs => exact if_pos (List.isPrefixOf_iff_prefix.2 h)

theorem substrFrom2c_cons_of_not {c : Char} {cs : List Char} (h : ¬ marker2c <+: c :: cs) :
    substrFrom2c (c :: cs) = substrFrom2c cs :=
  if_neg fun hp => h (List.isPrefixOf_iff_prefix.1 hp)

/-- A `2c/` that begins in a text which is followed by a `/` lies in it and the `/`. -/
theorem isPrefix_of_slash {c : Char} {pre rest : List Char}
    (h : marker2c <+: c :: (pre ++ '/' :: rest)) : marker2c <+: c :: (pre ++ ['/']) := by
  cases pre with
  | nil =>
    have hc := List.cons_prefix_cons.1 (List.cons_prefix_cons.1 h).2
    exact absurd hc.1 (by decide)
  | cons d pre =>
    refine List.prefix_of_prefix_length_le h ?_ (by simp [marker2c])
    exact ⟨rest, by simp⟩

/-- Behind a text without `2c/`, not even with the `/` that follows. -/
theorem substrFrom2c_append {pre rest : List Char} (h : ¬ marker2c <:+: pre ++ ['/'])
    (hrest : marker2c <+: rest) : substrFrom2c (pre ++ '/' :: rest) = some rest := by
  induction pre with
  | nil =>
    have hslash : ¬ marker2c <+: '/' :: rest := fun hp =>
      absurd (List.cons_prefix_cons.1 hp).1 (by decide)
    rw [List.nil_append, substrFrom2c_cons_of_not hslash, substrFrom2c_of_isPrefix hrest]
  | cons c pre ih =>
    have hhead : ¬ marker2c <+: c :: (pre ++ '/' :: rest) := fun hp =>
      h (isPrefix_of_slash hp).isInfix
    rw [List.cons_append, substrFrom2c_cons_of_not hhead]
    exact ih fun hinfix => h (List.infix_cons hinfix)

/-- Otherwise what is found begins earlier. -/
theorem substrFrom2c_of_isInfix {pre : List Char} (h : marker2c <:+: pre) (rest : List Char) :
    ∃ found, substrFrom2c (pre ++ rest) = some found ∧ rest.length + 3 ≤ found.length := by
  induction pre with
  | nil => exact absurd (List.infix_nil.1 h) (by decide)
  | cons c pre ih =>
    by_cases hp : marker2c <+: c :: (pre ++ rest)
    · refine ⟨_, substrFrom2c_of_isPrefix hp, ?_⟩
      have hlen := h.length_le
      simp only [marker2c, List.length_cons, List.length_nil, List.length_append] at hlen ⊢
      omega
    · rw [List.cons_append, substrFrom2c_cons_of_not hp]
      refine ih ((List.infix_cons_iff.1 h).resolve_left fun hhead => hp ?_)
      exact hhead.trans ⟨rest, rfl⟩

/-! ## What a page loads -/

variable (rd : PayloadReader) (cfg : TopicConfig)

/-- What is loaded under an id comes from the rows with this id. -/
theorem rmapResults_of_forall_ne {llId : ℕ} (page : List EventRow) (hids : ∀ r ∈ page, r.id ≠ llId)
    (load : TopicedLoad) :
    (validateTopicedRows rd cfg page load).rmapResults llId = load.rmapResults llId := by
  induction page generalizing load with
  | nil => rfl
  | cons r page ih =>
    have hrest : ∀ r' ∈ page, r'.id ≠ llId := fun r' hr' => hids r' (List.mem_cons_of_mem _ hr')
    by_cases hc : rd.corrupted r = true
    · rw [validateTopicedRows_of_corrupted rd cfg hc, ih hrest]
      rfl
    · by_cases h2c : r.has2c = true
      · obtain ⟨strTopic, heq⟩ := validateTopicedRows_of_has2c rd cfg hc h2c page load
        rw [heq, ih hrest]
        exact Function.update_of_ne (hids r List.mem_cons_self).symm _ _
      · rw [validateTopicedRows_of_not_has2c rd cfg hc h2c, ih hrest]

theorem rmapResults_of_mem {page : List EventRow} (hnodup : (page.map EventRow.id).Nodup)
    {r : EventRow} (hr : r ∈ page) (hgood : rd.corrupted r = false) {suffix : List Char}
    (hsuffix : substrFrom2c (r.topic.getD "").toList = some suffix) (load : TopicedLoad) :
    (validateTopicedRows rd cfg page load).rmapResults r.id =
      some (cfg.strTopicPrefix ++ cfg.strDeviceId ++ "/" ++ String.ofList suffix,
        rd.decryptEventData r.events) := by
  induction page generalizing load with
  | nil => exact absurd hr List.not_mem_nil
  | cons r' page ih =>
    rw [List.map_cons, List.nodup_cons] at hnodup
    rcases List.mem_cons.1 hr with rfl | hr
    · have hne : ∀ r' ∈ page, r'.id ≠ r.id := fun r' hr' heq =>
        hnodup.1 (heq ▸ List.mem_map_of_mem hr')
      have hstep : validateTopicedRows rd cfg (r :: page) load =
          validateTopicedRows rd cfg page (load.addEvent r.id
            (cfg.strTopicPrefix ++ cfg.strDeviceId ++ "/" ++ String.ofList suffix)
            (rd.decryptEventData r.events)) := by
        refine (if_neg fun hc => ?_).trans ?_
        · exact Bool.false_ne_true (hgood.symm.trans hc)
        · rw [hsuffix]
      rw [hstep, rmapResults_of_forall_ne rd cfg page hne]
      exact Function.update_self ..
    · by_cases hc : rd.corrupted r' = true
      · rw [validateTopicedRows_of_corrupted rd cfg hc]
        exact ih hnodup.2 hr _
      · by_cases h2c : r'.has2c = true
        · obtain ⟨strTopic, heq⟩ := validateTopicedRows_of_has2c rd cfg hc h2c page load
          rw [heq]
          exact ih hnodup.2 hr _
        · rw [validateTopicedRows_of_not_has2c rd cfg hc h2c]
          exact ih hnodup.2 hr _

/-- The rows of a query have ids of their own. -/
theorem nodup_queryPage (table : EventTable) (c : CorruptedEvents) (selection : EventRow → Bool)
    (n : ℤ) : ((queryPage table c selection n).map EventRow.id).Nodup := by
  have hrows : (table.rows.map EventRow.id).Nodup :=
    (List.pairwise_map.2 table.sorted).imp fun hlt => hlt.ne
  have hfilter := hrows.sublist
    ((List.filter_sublist (p := fun r => selection r && decide (r.id ∉ c))).map EventRow.id)
  have hsort := ((Lib.perm_orderBy EventRow.timestampKey _).map EventRow.id).nodup_iff.2 hfilter
  exact hsort.sublist ((Lib.limit_isPrefixOf _ _).sublist.map EventRow.id)

/-- Each id that the upload gets is one of a good row, and comes with what is loaded for it. -/
theorem rmapResults_returned {fuel : ℕ} {n startTs endTs : ℤ} {table : EventTable}
    {out : TopicedResult}
    (hout : getTopicedStreamingEventsFromDB rd cfg fuel n startTs endTs table = some out) :
    ∀ r ∈ table.rows, r.id ∈ out.pvectRowIDs → ∃ suffix,
      substrFrom2c (r.topic.getD "").toList = some suffix ∧ out.rmapResults r.id =
        some (cfg.strTopicPrefix ++ cfg.strDeviceId ++ "/" ++ String.ofList suffix,
          rd.decryptEventData r.events) := by
  unfold getTopicedStreamingEventsFromDB at hout
  split at hout
  · cases hout
    exact fun r _ hid => absurd hid List.not_mem_nil
  · obtain ⟨s, hs, rfl⟩ := Option.map_eq_some_iff.1 hout
    refine Lib.loop_result (TopicedInv rd table)
      (fun t : TopicedLoad => ∀ r ∈ table.rows, r.id ∈ t.pvectRowIDs → ∃ suffix,
        substrFrom2c (r.topic.getD "").toList = some suffix ∧ t.rmapResults r.id =
          some (cfg.strTopicPrefix ++ cfg.strDeviceId ++ "/" ++ String.ofList suffix,
            rd.decryptEventData r.events))
      topicedInv_turn ?_ (topicedInv_init rd table) ⟨fuel, hs⟩
    intro t t' hinv hturn r hr hid
    by_cases hpage : t.page (topicedSelection startTs endTs) n = []
    · rw [topicedTurn_of_page_eq_nil hpage] at hturn
      cases hturn
      rw [hinv.noIds] at hid
      exact absurd hid List.not_mem_nil
    · rw [topicedTurn_of_page_ne_nil rd cfg hpage] at hturn
      split at hturn
      · cases hturn
      · cases hturn
        rw [pvectRowIDs_afterPage cfg hinv] at hid
        obtain ⟨r', hr', heq⟩ := List.mem_map.1 hid
        obtain ⟨hmem, hloaded⟩ := List.mem_filter.1 hr'
        have hrow := (mem_visible.1 (mem_selectable_of_mem_page hmem)).1
        -- the row of the page is the row of the table
        obtain rfl : r' = r := table.eq_of_key_eq (hinv.load.sub.subset hrow) hr heq
        obtain ⟨hgood, h2c⟩ := (Bool.and_eq_true _ _).mp hloaded
        obtain ⟨suffix, hsuffix⟩ := Option.isSome_iff_exists.1 h2c
        exact ⟨suffix, hsuffix, rmapResults_of_mem rd cfg (nodup_queryPage ..) hmem
          ((Bool.not_eq_true' _).mp hgood) hsuffix t⟩

/-! ## The topic -/

/-- An event that was stored under the device id `strStoredId` is returned under the one
of now, with the rest of its topic as it is: by the page that holds it, if it is not
corrupted, and by the whole query, if it is returned at all. -/
structure TopicFollows (strTopicPrefix strStoredId strDeviceId strRest : String) : Prop where
  page : ∀ (rd : PayloadReader) (page : List EventRow) (load : TopicedLoad),
    (page.map EventRow.id).Nodup → ∀ r ∈ page, rd.corrupted r = false →
      r.topic = some (strTopicPrefix ++ strStoredId ++ "/2c/" ++ strRest) →
      r.id ∈ (validateTopicedStreamingEvent rd ⟨strDeviceId, strTopicPrefix⟩ page
          load).2.pvectRowIDs ∧
        (validateTopicedStreamingEvent rd ⟨strDeviceId, strTopicPrefix⟩ page
          load).2.rmapResults r.id =
          some (strTopicPrefix ++ strDeviceId ++ "/2c/" ++ strRest, rd.decryptEventData r.events)
  query : ∀ (rd : PayloadReader) (fuel : ℕ) (n startTs endTs : ℤ) (table : EventTable)
    (out : TopicedResult), getTopicedStreamingEventsFromDB rd ⟨strDeviceId, strTopicPrefix⟩ fuel n
      startTs endTs table = some out → ∀ r ∈ table.rows, r.id ∈ out.pvectRowIDs →
      r.topic = some (strTopicPrefix ++ strStoredId ++ "/2c/" ++ strRest) →
      out.rmapResults r.id =
        some (strTopicPrefix ++ strDeviceId ++ "/2c/" ++ strRest, rd.decryptEventData r.events)

/-- `2c/` begins in the prefix or the stored device id. -/
def MarkerBefore (strTopicPrefix strStoredId : String) : Prop :=
  marker2c <:+: (strTopicPrefix ++ strStoredId ++ "/").toList

instance (strTopicPrefix strStoredId : String) :
    Decidable (MarkerBefore strTopicPrefix strStoredId) :=
  inferInstanceAs (Decidable (_ <:+: _))

theorem toList_storedTopic (strTopicPrefix strStoredId strRest : String) :
    (strTopicPrefix ++ strStoredId ++ "/2c/" ++ strRest).toList =
      (strTopicPrefix ++ strStoredId).toList ++ '/' :: (marker2c ++ strRest.toList) := by
  rw [String.toList_append, String.toList_append]
  simp [marker2c]

theorem rebuilt_eq (strTopicPrefix strDeviceId strRest : String) :
    strTopicPrefix ++ strDeviceId ++ "/" ++ String.ofList (marker2c ++ strRest.toList) =
      strTopicPrefix ++ strDeviceId ++ "/2c/" ++ strRest := by
  apply String.toList_inj.1
  simp [marker2c]

/-- A row that is stored under the device id `strStoredId`. -/
def storedRow (strTopicPrefix strStoredId strRest : String) : EventRow :=
  ⟨1, "Speed", some 1, 0, 2, 0, "\x7b\x7d",
    some (strTopicPrefix ++ strStoredId ++ "/2c/" ++ strRest), 0, 1, 0⟩

/-- Then the text from the first `2c/` on is the marker and the rest. -/
theorem substrFrom2c_stored {strTopicPrefix strStoredId : String}
    (h : ¬ MarkerBefore strTopicPrefix strStoredId) (strRest : String) :
    substrFrom2c (strTopicPrefix ++ strStoredId ++ "/2c/" ++ strRest).toList =
      some (marker2c ++ strRest.toList) := by
  rw [toList_storedTopic]
  refine substrFrom2c_append ?_ (List.prefix_append _ _)
  rw [MarkerBefore, String.toList_append] at h
  exact h

end DeviceClient
