import DeviceClient.Dam.InsertEvent
import DeviceClient.Lib.Run

/-!
# The seed of the stored rows

`CAesSeed` gives the seed under which the rows of three tables are encrypted: the content of
the android keystore, or a number that `CLocalConfig` generates where none is stored. What was
encrypted under another seed cannot be read any more.

Every insertion is one step, and so is every row that is read. The number is lost or replaced
by somebody else, with the whole database or alone. A row is its text and the seed of it.

* `next`: the steps.
* `consistent_iff`: what it takes that every row can be read.
* `mayReplace_iff`: a seed may be replaced where no row depends on it.
* `consistent_along_iff`: the runs in which every row can be read all the way.
-/

namespace DeviceClient

namespace EncryptionSeed

/-! ## Data -/

/-- The tables with encrypted rows. -/
inductive SealedTable where
  | eventStore
  | alertStore
  | invalidEventStore
deriving DecidableEq

/-- A row: the text of an event, and the seed under which it was encrypted. -/
structure SealedRow where
  id : ℕ
  strSeed : String
  strEventData : String
deriving DecidableEq

abbrev SealedTables := SealedTable → Lib.Table SealedRow.id

/-- The members of `CAesSeed`. -/
structure AesSeed where
  m_strSeedContent : String
  m_bUseKeystoreAndroid : Bool
deriving DecidableEq

/-- What is stored, and what the process has: `CAesSeed`, and whether the instance of
`CInvalidTimestampEventStore` exists. No number is stored where `dataEncryRndNo` is empty. -/
structure State where
  tables : SealedTables
  dataEncryRndNo : String
  aesSeed : AesSeed
  bInvalidStore : Bool

/-- What `CRNG` draws when it is asked, and whether `Set` succeeds then. -/
structure Draw where
  nRandom : ℕ
  bSet : Bool

inductive Act where
  /-- The process starts. -/
  | initAnalytics (strKeystore strDBEncryptSeed strSerialNumber : String) (bSeedChanged : Bool)
  /-- Somebody stores another number, or none. -/
  | set (strValue : String)
  | clearTables
  /-- A row is read, and decrypted. -/
  | getIvRandom (d : Draw)
  | insertEvent (d d' : Draw) (env : InsertEnv) (pMode : UploadMode) (event : EventWrapper)
      (rstrSerialized : String)
  /-- `CInvalidTimestampEventStore::GetInstance`. -/
  | getInstance
  | insertIntoDb (d : Draw) (rstrSerialized : String)
  /-- Rows are uploaded, discarded or purged. -/
  | remove (t : SealedTable) (setIds : List ℕ)

def KEYSTORE_ANDROID : String := "android"

/-- Nothing is stored. -/
def noTables : SealedTables := fun _ => Lib.Table.empty

/-! ## The tables -/

namespace State

def insert (s : State) (t : SealedTable) (strSeed strEventData : String) : State :=
  let table := (s.tables t).insert (fun n => ⟨n, strSeed, strEventData⟩) fun _ => rfl
  { s with tables := Function.update s.tables t table }

def remove (s : State) (t : SealedTable) (p : SealedRow → Bool) : State :=
  { s with tables := Function.update s.tables t ((s.tables t).remove p) }

/-- `Remove` without a selection. -/
def removeAll (s : State) (t : SealedTable) : State := s.remove t fun _ => true

end State

/-! ## The seed -/

/-- The length of a key is at least 16. -/
def padSeed (strSeed : String) : String :=
  if strSeed.utf8ByteSize < 16 then
    strSeed ++ String.ofList (List.replicate (16 - strSeed.utf8ByteSize) 'X')
  else strSeed

/-- `CLocalConfig::GetIvRandomNumber`. -/
def getIvRandomNumber (d : Draw) (s : State) : String × State :=
  if s.dataEncryRndNo = "" then
    -- only the event table is emptied, and the result of `Set` is not looked at
    let s := s.removeAll .eventStore
    let strSeedRndNo := padSeed (toString d.nRandom)
    (strSeedRndNo, if d.bSet then { s with dataEncryRndNo := strSeedRndNo } else s)
  else (s.dataEncryRndNo, s)

/-- `CAesSeed::GetIvRandom`. -/
def getIvRandom (d : Draw) (s : State) : String × State :=
  if s.aesSeed.m_bUseKeystoreAndroid then (s.aesSeed.m_strSeedContent, s)
  else getIvRandomNumber d s

def usesAndroid (strKeystore strContent : String) : Bool :=
  strKeystore = KEYSTORE_ANDROID && strContent ≠ ""

/-- `CAesSeed::Init`. -/
def initSeed (strKeystore strContent : String) (bIsChanged : Bool) (s : State) : State :=
  if usesAndroid strKeystore strContent then
    { (if bIsChanged then s.removeAll .eventStore else s) with
      aesSeed := ⟨padSeed strContent, true⟩ }
  else { s with aesSeed := ⟨strContent, false⟩ }

/-- The content that `InitAnalytics` hands over. -/
def seedContent (strKeystore strDBEncryptSeed strSerialNumber : String) : String :=
  if strKeystore ≠ KEYSTORE_ANDROID ∨ strDBEncryptSeed = "" then strSerialNumber
  else strDBEncryptSeed

/-- `InitAnalytics`, in a new process. -/
def initAnalytics (strKeystore strDBEncryptSeed strSerialNumber : String) (bSeedChanged : Bool)
    (s : State) : State :=
  initSeed strKeystore (seedContent strKeystore strDBEncryptSeed strSerialNumber) bSeedChanged
    { s with bInvalidStore := false }

/-! ## Insertions -/

/-- `ProcessEventForStreamMode` encrypts the event again, without its attachments. -/
def encryptsAgain (pMode : UploadMode) (event : EventWrapper) : Bool :=
  pMode.isEventSupportedForStream event.strEventId && !event.attachments.isEmpty &&
    !pMode.isBatchModeSupported

/-- The text that is encrypted last. -/
def storedText (env : InsertEnv) (pMode : UploadMode) (event : EventWrapper)
    (rstrSerialized : String) : String :=
  if encryptsAgain pMode event then
    env.eventToJsonWithField event KEY_ATTACHMENT_FAILURE_REASON BATCH_MODE_UNSUPPORTED
  else rstrSerialized

/-- `CDBTransport::InsertEvent`. -/
def insertEvent (d d' : Draw) (env : InsertEnv) (pMode : UploadMode) (event : EventWrapper)
    (rstrSerialized : String) (s : State) : State :=
  let (strSeed, s) := getIvRandom d s
  if isStoredAsAlert env pMode event then s.insert .alertStore strSeed rstrSerialized
  else
    let (strSeed, s) := if encryptsAgain pMode event then getIvRandom d' s else (strSeed, s)
    if (supportedRow env pMode event (eventColumns env event rstrSerialized)).1 then
      s.insert .eventStore strSeed (storedText env pMode event rstrSerialized)
    else s

/-- The instance is made by its first caller, and empties the table. -/
def getInstance (s : State) : State :=
  if s.bInvalidStore then s
  else { s.removeAll .invalidEventStore with bInvalidStore := true }

/-- `CInvalidTimestampEventStore::InsertIntoDb`. -/
def insertIntoDb (d : Draw) (rstrSerialized : String) (s : State) : State :=
  let (strSeed, s) := getIvRandom d s
  s.insert .invalidEventStore strSeed rstrSerialized

/-- The text that is stored here is the one of the row of `InsertEvent`. -/
theorem supportedRow_events (env : InsertEnv) (pMode : UploadMode) (event : EventWrapper)
    (rstrSerialized : String) :
    (supportedRow env pMode event (eventColumns env event rstrSerialized)).2.events =
      env.encryptEventData (storedText env pMode event rstrSerialized) := by
  have hmode : (modeRow env pMode event (eventColumns env event rstrSerialized)).events =
      env.encryptEventData (storedText env pMode event rstrSerialized) := by
    unfold modeRow processEventForStreamMode storedText encryptsAgain
    cases pMode.isEventSupportedForStream event.strEventId <;>
      cases event.attachments.isEmpty <;> cases pMode.isBatchModeSupported <;>
      cases pMode.isEventSupportedForBatch event.strEventId <;> rfl
  rw [supportedRow_eq]
  cases event.topic with
  | none => exact hmode
  | some strTopic =>
    -- a topic changes other columns only
    rw [← hmode]
    dsimp only [getTopicedEventData]
    split
    · rfl
    · split <;> rfl

/-! ## Steps -/

def next (s : State) : Act → Option State
  | .initAnalytics strKeystore strDBEncryptSeed strSerialNumber bSeedChanged =>
    some (initAnalytics strKeystore strDBEncryptSeed strSerialNumber bSeedChanged s)
  | .set strValue => some { s with dataEncryRndNo := strValue }
  | .clearTables => some { s with tables := noTables, dataEncryRndNo := "" }
  | .getIvRandom d => some (getIvRandom d s).2
  | .insertEvent d d' env pMode event rstrSerialized =>
    some (insertEvent d d' env pMode event rstrSerialized s)
  | .getInstance => some (getInstance s)
  | .insertIntoDb d rstrSerialized =>
    if s.bInvalidStore then some (insertIntoDb d rstrSerialized s) else none
  | .remove t setIds => some (s.remove t fun r => decide (r.id ∈ setIds))

/-- The first start, with an empty database. -/
def init (strKeystore strDBEncryptSeed strSerialNumber : String) (bSeedChanged : Bool) : State :=
  initAnalytics strKeystore strDBEncryptSeed strSerialNumber bSeedChanged
    ⟨noTables, "", ⟨"", false⟩, false⟩

/-- Whatever is drawn, the rows that `GetIvRandom` leaves were encrypted under what it
returns. -/
def Consistent (s : State) : Prop :=
  ∀ d t, ∀ r ∈ ((getIvRandom d s).2.tables t).rows, r.strSeed = (getIvRandom d s).1

/-! ## When a seed may be replaced -/

/-- The number that is stored. -/
def localSeed (dataEncryRndNo : String) : Option String :=
  if dataEncryRndNo = "" then none else some dataEncryRndNo

/-- The seed that is there; one is generated where there is none. -/
def State.storedSeed (s : State) : Option String :=
  if s.aesSeed.m_bUseKeystoreAndroid then some s.aesSeed.m_strSeedContent
  else localSeed s.dataEncryRndNo

/-- No alert and no invalid event is stored, and no event either, unless the event table is
cleared, or will be when a seed is generated, or has the rows of the seed that is put back. -/
def NoRows (tables : SealedTables) (bCleared : Bool) (new : Option String) : Prop :=
  (tables .alertStore).rows = [] ∧ (tables .invalidEventStore).rows = [] ∧
    (bCleared = true ∨ new = none ∨ ∀ r ∈ (tables .eventStore).rows, new = some r.strSeed)

/-- The seed stays, or no row depends on it. -/
def MayReplace (tables : SealedTables) (bCleared : Bool) (old new : Option String) : Prop :=
  old = new ∨ NoRows tables bCleared new

instance (tables : SealedTables) (bCleared : Bool) (old new : Option String) :
    Decidable (MayReplace tables bCleared old new) :=
  inferInstanceAs (Decidable (_ = _ ∨ _ ∧ _ ∧ (_ ∨ _ ∨ _)))

/-- A seed is replaced, or lost, where no row depends on it, and the one that is generated for
an alert or an invalid event is stored. -/
def Ok (s : State) : Act → Prop
  | .initAnalytics strKeystore strDBEncryptSeed strSerialNumber bSeedChanged =>
    let strContent := seedContent strKeystore strDBEncryptSeed strSerialNumber
    let bAndroid := usesAndroid strKeystore strContent
    MayReplace s.tables (bAndroid && bSeedChanged) s.storedSeed
      (if bAndroid then some (padSeed strContent) else localSeed s.dataEncryRndNo)
  | .set strValue => s.aesSeed.m_bUseKeystoreAndroid = true ∨
    MayReplace s.tables false (localSeed s.dataEncryRndNo) (localSeed strValue)
  | .insertEvent d _ env pMode event _ =>
    isStoredAsAlert env pMode event = true → s.storedSeed = none → d.bSet = true
  | .insertIntoDb d _ => s.storedSeed = none → d.bSet = true
  | _ => True

instance (s : State) (a : Act) : Decidable (Ok s a) :=
  match a with
  | .initAnalytics .. => inferInstanceAs (Decidable (MayReplace ..))
  | .set _ => inferInstanceAs (Decidable (_ ∨ MayReplace ..))
  | .clearTables => .isTrue trivial
  | .getIvRandom _ => .isTrue trivial
  | .insertEvent .. => inferInstanceAs (Decidable (_ → _ → _))
  | .getInstance => .isTrue trivial
  | .insertIntoDb .. => inferInstanceAs (Decidable (_ → _))
  | .remove .. => .isTrue trivial

/-! ## The rows under a seed -/

/-- The rows that can be read under a seed; where none is there, the next one leaves events
only behind. -/
def RowsUnder (tables : SealedTables) : Option String → Prop
  | some seed => ∀ t, ∀ r ∈ (tables t).rows, r.strSeed = seed
  | none => (tables .alertStore).rows = [] ∧ (tables .invalidEventStore).rows = []

theorem rowsUnder_of_subset {tables tables' : SealedTables} {seed : Option String}
    (h : RowsUnder tables seed) (hsub : ∀ t, (tables' t).rows ⊆ (tables t).rows) :
    RowsUnder tables' seed := by
  cases seed with
  | some seed => exact fun t r hr => h t r (hsub t hr)
  | none =>
    constructor
    · exact List.eq_nil_of_subset_nil (h.1 ▸ hsub .alertStore)
    · exact List.eq_nil_of_subset_nil (h.2 ▸ hsub .invalidEventStore)

theorem subset_remove (s : State) (t : SealedTable) (p : SealedRow → Bool) (t' : SealedTable) :
    ((s.remove t p).tables t').rows ⊆ (s.tables t').rows := by
  intro r hr
  unfold State.remove at hr
  dsimp only at hr
  by_cases ht : t' = t
  · subst ht
    rw [Function.update_self, Lib.Table.mem_remove] at hr
    exact hr.1
  · rw [Function.update_of_ne ht] at hr
    exact hr

theorem rows_removeAll (s : State) (t : SealedTable) :
    ((s.removeAll t).tables t).rows = [] := by
  unfold State.removeAll State.remove
  simp

theorem tables_removeAll_of_ne (s : State) {t t' : SealedTable} (h : t' ≠ t) :
    (s.removeAll t).tables t' = s.tables t' :=
  Function.update_of_ne h _ _

theorem mem_insert {s : State} {t t' : SealedTable} {strSeed strText : String} {r : SealedRow}
    (h : r ∈ ((s.insert t strSeed strText).tables t').rows) :
    r ∈ (s.tables t').rows ∨ (t' = t ∧ r.strSeed = strSeed) := by
  unfold State.insert at h
  dsimp only at h
  by_cases ht : t' = t
  · subst ht
    rw [Function.update_self, Lib.Table.mem_insert] at h
    rcases h with h | rfl
    · exact Or.inl h
    · exact Or.inr ⟨rfl, rfl⟩
  · rw [Function.update_of_ne ht] at h
    exact Or.inl h

theorem tables_insert_of_ne (s : State) {t t' : SealedTable} (h : t' ≠ t)
    (strSeed strText : String) :
    (s.insert t strSeed strText).tables t' = s.tables t' :=
  Function.update_of_ne h _ _

theorem insert_ne_nil (s : State) (t : SealedTable) (strSeed strText : String) :
    ((s.insert t strSeed strText).tables t).rows ≠ [] := by
  unfold State.insert Lib.Table.insert
  simp

/-! ## The seed that is returned -/

theorem padSeed_ne_empty (strSeed : String) : padSeed strSeed ≠ "" := by
  unfold padSeed
  split
  · rename_i hlen
    intro hempty
    have hpad := (String.append_eq_empty_iff.1 hempty).2
    rw [String.ofList_eq_empty_iff, List.replicate_eq_nil_iff] at hpad
    omega
  · rename_i hlen
    rintro rfl
    exact hlen (by decide)

theorem localSeed_padSeed (strSeed : String) :
    localSeed (padSeed strSeed) = some (padSeed strSeed) :=
  if_neg (padSeed_ne_empty strSeed)

theorem localSeed_eq_some {dataEncryRndNo seed : String}
    (h : localSeed dataEncryRndNo = some seed) : dataEncryRndNo ≠ "" ∧ dataEncryRndNo = seed := by
  unfold localSeed at h
  split at h
  · exact nomatch h
  · rename_i hne
    exact ⟨hne, Option.some.inj h⟩

/-- A seed that is there is returned. -/
theorem getIvRandom_of_some {s : State} {seed : String} (h : s.storedSeed = some seed) (d : Draw) :
    getIvRandom d s = (seed, s) := by
  unfold State.storedSeed at h
  unfold getIvRandom getIvRandomNumber
  split at h
  · rename_i handroid
    rw [if_pos handroid, Option.some.inj h]
  · rename_i handroid
    rcases localSeed_eq_some h with ⟨hne, heq⟩
    rw [if_neg handroid, if_neg hne, heq]

theorem storedSeed_eq_none {s : State} (h : s.storedSeed = none) :
    s.aesSeed.m_bUseKeystoreAndroid = false ∧ s.dataEncryRndNo = "" := by
  unfold State.storedSeed localSeed at h
  split at h
  · exact nomatch h
  · rename_i handroid
    refine ⟨Bool.eq_false_iff.2 handroid, ?_⟩
    by_contra hne
    rw [if_neg hne] at h
    exact nomatch h

/-- What `GetIvRandomNumber` does where no number is stored. -/
def generate (d : Draw) (s : State) : State :=
  if d.bSet then { s.removeAll .eventStore with dataEncryRndNo := padSeed (toString d.nRandom) }
  else s.removeAll .eventStore

theorem getIvRandom_of_none {s : State} (h : s.storedSeed = none) (d : Draw) :
    getIvRandom d s = (padSeed (toString d.nRandom), generate d s) := by
  rcases storedSeed_eq_none h with ⟨handroid, hempty⟩
  unfold getIvRandom getIvRandomNumber generate
  rw [if_neg (Bool.eq_false_iff.1 handroid), if_pos hempty]

theorem tables_generate (d : Draw) (s : State) :
    (generate d s).tables = (s.removeAll .eventStore).tables := by
  unfold generate
  split <;> rfl

/-- A generated seed is there iff `Set` has succeeded. -/
theorem storedSeed_generate {s : State} (h : s.storedSeed = none) (d : Draw) :
    (generate d s).storedSeed =
      if d.bSet then some (padSeed (toString d.nRandom)) else none := by
  rcases storedSeed_eq_none h with ⟨handroid, hempty⟩
  unfold generate State.storedSeed State.removeAll State.remove
  split
  · dsimp only
    rw [if_neg (Bool.eq_false_iff.1 handroid), localSeed_padSeed]
  · dsimp only
    rw [if_neg (Bool.eq_false_iff.1 handroid), hempty]
    rfl

/-- A new seed leaves no row if no alert and no invalid event is stored. -/
theorem rows_generate {s : State} (h : RowsUnder s.tables none) (d : Draw) (t : SealedTable) :
    ((generate d s).tables t).rows = [] := by
  rw [tables_generate]
  cases t with
  | eventStore => exact rows_removeAll s .eventStore
  | alertStore => rw [@tables_removeAll_of_ne s .eventStore .alertStore nofun, h.1]
  | invalidEventStore => rw [@tables_removeAll_of_ne s .eventStore .invalidEventStore nofun, h.2]

/-- Two numbers that can be drawn. -/
theorem padSeed_zero_ne_one : padSeed (toString 0) ≠ padSeed (toString 1) := by decide +kernel

/-- Every row can be read iff it is one under the seed that is there, or no alert and no
invalid event is left for the next seed. -/
theorem consistent_iff (s : State) : Consistent s ↔ RowsUnder s.tables s.storedSeed := by
  unfold Consistent
  cases hseed : s.storedSeed with
  | some seed =>
    constructor
    · intro h t r hr
      have hrow := h ⟨0, true⟩ t r
      rw [getIvRandom_of_some hseed] at hrow
      exact hrow hr
    · intro h d t r hr
      rw [getIvRandom_of_some hseed] at hr ⊢
      exact h t r hr
  | none =>
    constructor
    · intro h
      -- whatever is left would be under each number that can be drawn
      have hnil : ∀ t : SealedTable, t ≠ .eventStore → (s.tables t).rows = [] := by
        intro t ht
        refine List.eq_nil_iff_forall_not_mem.2 fun r hr => ?_
        have hrow : ∀ n : ℕ, r.strSeed = padSeed (toString n) := by
          intro n
          have hn := h ⟨n, true⟩ t r
          rw [getIvRandom_of_none hseed, tables_generate, tables_removeAll_of_ne s ht] at hn
          exact hn hr
        exact padSeed_zero_ne_one ((hrow 0).symm.trans (hrow 1))
      exact ⟨hnil .alertStore nofun, hnil .invalidEventStore nofun⟩
    · intro h d t r hr
      rw [getIvRandom_of_none hseed, rows_generate h d t] at hr
      exact nomatch hr

/-- What a call of `GetIvRandom` leaves: rows under the seed that it returns, which is there
afterwards unless it could not be stored. -/
structure Returned (s : State) (d : Draw) : Prop where
  rows : RowsUnder (getIvRandom d s).2.tables (some (getIvRandom d s).1)
  stored : (getIvRandom d s).2.storedSeed =
    if s.storedSeed = none ∧ d.bSet = false then none else some (getIvRandom d s).1
  under : RowsUnder (getIvRandom d s).2.tables (getIvRandom d s).2.storedSeed

theorem returned {s : State} (h : RowsUnder s.tables s.storedSeed) (d : Draw) : Returned s d := by
  cases hseed : s.storedSeed with
  | some seed =>
    rw [hseed] at h
    refine ⟨?_, ?_, ?_⟩
    · rw [getIvRandom_of_some hseed]
      exact h
    · rw [getIvRandom_of_some hseed, hseed, if_neg (by rintro ⟨hnone, -⟩; exact nomatch hnone)]
    · rw [getIvRandom_of_some hseed, hseed]
      exact h
  | none =>
    rw [hseed] at h
    -- nothing is left of the old rows
    have hrows : ∀ seed, RowsUnder (getIvRandom d s).2.tables seed := by
      rw [getIvRandom_of_none hseed]
      rintro (- | seed)
      · exact ⟨rows_generate h d .alertStore, rows_generate h d .invalidEventStore⟩
      · intro t r hr
        rw [rows_generate h d t] at hr
        exact nomatch hr
    refine ⟨hrows _, ?_, hrows _⟩
    rw [getIvRandom_of_none hseed, storedSeed_generate hseed, hseed]
    cases d.bSet <;> rfl

/-! ## Replaced seeds -/

/-- The state behind a change that clears the event table or not. -/
def cleared (bCleared : Bool) (s : State) : State :=
  if bCleared then s.removeAll .eventStore else s

theorem subset_cleared (bCleared : Bool) (s : State) (t : SealedTable) :
    ((cleared bCleared s).tables t).rows ⊆ (s.tables t).rows := by
  unfold cleared
  split
  · exact subset_remove s .eventStore _ t
  · exact List.Subset.refl _

theorem tables_cleared_of_ne (bCleared : Bool) (s : State) {t : SealedTable}
    (ht : t ≠ .eventStore) : (cleared bCleared s).tables t = s.tables t := by
  unfold cleared
  split
  · exact tables_removeAll_of_ne s ht
  · rfl

/-- No row of the other tables is under two seeds. -/
theorem rows_eq_nil_of_rowsUnder {s : State} {bCleared : Bool} {old new : Option String}
    (hne : old ≠ new) (h : RowsUnder s.tables old)
    (hnew : RowsUnder (cleared bCleared s).tables new) {t : SealedTable} (ht : t ≠ .eventStore) :
    (s.tables t).rows = [] := by
  have hsame := tables_cleared_of_ne bCleared s ht
  have hnone : ∀ {tables : SealedTables}, RowsUnder tables none → (tables t).rows = [] := by
    intro tables hrows
    cases t with
    | eventStore => exact absurd rfl ht
    | alertStore => exact hrows.1
    | invalidEventStore => exact hrows.2
  cases old with
  | none => exact hnone h
  | some o =>
    cases new with
    | none =>
      rw [← hsame]
      exact hnone hnew
    | some n =>
      refine List.eq_nil_iff_forall_not_mem.2 fun r hr => hne ?_
      have hr' : r ∈ ((cleared bCleared s).tables t).rows := by
        rw [hsame]
        exact hr
      rw [← h t r hr, ← hnew t r hr']

/-- Exactly then the rows that are left can be read under the new seed. -/
theorem mayReplace_iff {s : State} {bCleared : Bool} {old new : Option String}
    (h : RowsUnder s.tables old) :
    RowsUnder (cleared bCleared s).tables new ↔ MayReplace s.tables bCleared old new := by
  constructor
  · intro hnew
    -- a row that is left would be under both seeds
    by_cases heq : old = new
    · exact Or.inl heq
    · refine Or.inr ⟨rows_eq_nil_of_rowsUnder heq h hnew nofun,
        rows_eq_nil_of_rowsUnder heq h hnew nofun, ?_⟩
      cases bCleared with
      | true => exact Or.inl rfl
      | false =>
        cases new with
        | none => exact Or.inr (Or.inl rfl)
        | some n =>
          exact Or.inr (Or.inr fun r hr => congrArg some (hnew .eventStore r hr).symm)
  · rintro (rfl | ⟨halert, hinvalid, hevent⟩)
    · exact rowsUnder_of_subset h (subset_cleared bCleared s)
    · have halert' := (tables_cleared_of_ne bCleared s (t := .alertStore) nofun).symm ▸ halert
      have hinvalid' :=
        (tables_cleared_of_ne bCleared s (t := .invalidEventStore) nofun).symm ▸ hinvalid
      cases new with
      | none => exact ⟨halert', hinvalid'⟩
      | some n =>
        intro t r hr
        cases t with
        | alertStore =>
          rw [halert'] at hr
          exact nomatch hr
        | invalidEventStore =>
          rw [hinvalid'] at hr
          exact nomatch hr
        | eventStore =>
          -- the table is cleared, or its rows are of the new seed
          rcases hevent with rfl | hnone | hrows
          · rw [show cleared true s = s.removeAll .eventStore from rfl, rows_removeAll] at hr
            exact nomatch hr
          · exact nomatch hnone
          · exact (Option.some.inj (hrows r (subset_cleared bCleared s .eventStore hr))).symm

/-! ## Steps -/

variable {s s' : State}

theorem consistent_initAnalytics (h : RowsUnder s.tables s.storedSeed)
    (strKeystore strDBEncryptSeed strSerialNumber : String) (bSeedChanged : Bool) :
    Consistent (initAnalytics strKeystore strDBEncryptSeed strSerialNumber bSeedChanged s) ↔
      Ok s (.initAnalytics strKeystore strDBEncryptSeed strSerialNumber bSeedChanged) := by
  rw [consistent_iff]
  unfold Ok
  dsimp only
  rw [← mayReplace_iff h]
  unfold initAnalytics initSeed
  cases usesAndroid strKeystore (seedContent strKeystore strDBEncryptSeed strSerialNumber) with
  | true => cases bSeedChanged <;> exact Iff.rfl
  | false => exact Iff.rfl

theorem consistent_set (h : RowsUnder s.tables s.storedSeed) (strValue : String) :
    Consistent { s with dataEncryRndNo := strValue } ↔ Ok s (.set strValue) := by
  rw [consistent_iff]
  unfold Ok State.storedSeed at *
  dsimp only at *
  by_cases handroid : s.aesSeed.m_bUseKeystoreAndroid = true
  · rw [if_pos handroid] at h ⊢
    exact ⟨fun _ => Or.inl handroid, fun _ => h⟩
  · rw [if_neg handroid] at h ⊢
    have hreplace := @mayReplace_iff s false _ (localSeed strValue) h
    exact hreplace.trans ⟨Or.inr, fun hok => hok.resolve_left handroid⟩

/-- An event may be stored under a seed that is not there any more. -/
theorem rowsUnder_insert_eventStore {strSeed : String}
    (hrows : RowsUnder s.tables (some strSeed))
    (hseed : s.storedSeed = none ∨ s.storedSeed = some strSeed)
    (h : RowsUnder s.tables s.storedSeed) (strText : String) :
    RowsUnder (s.insert .eventStore strSeed strText).tables
      (s.insert .eventStore strSeed strText).storedSeed := by
  rcases hseed with hseed | hseed
  · rw [show (s.insert .eventStore strSeed strText).storedSeed = none from hseed]
    rw [hseed] at h
    constructor
    · rw [@tables_insert_of_ne s .eventStore .alertStore nofun]
      exact h.1
    · rw [@tables_insert_of_ne s .eventStore .invalidEventStore nofun]
      exact h.2
  · rw [show (s.insert .eventStore strSeed strText).storedSeed = some strSeed from hseed]
    intro t r hr
    rcases mem_insert hr with hold | ⟨-, hnew⟩
    · exact hrows t r hold
    · exact hnew

/-- An alert or an invalid event needs its seed to be there. -/
theorem rowsUnder_insert_iff {strSeed : String} (hrows : RowsUnder s.tables (some strSeed))
    (hseed : s.storedSeed = none ∨ s.storedSeed = some strSeed) {t : SealedTable}
    (ht : t ≠ .eventStore) (strText : String) :
    RowsUnder (s.insert t strSeed strText).tables (s.insert t strSeed strText).storedSeed ↔
      s.storedSeed ≠ none := by
  rcases hseed with hseed | hseed
  · rw [show (s.insert t strSeed strText).storedSeed = none from hseed, hseed]
    refine ⟨fun h => absurd ?_ (insert_ne_nil s t strSeed strText), fun h => absurd rfl h⟩
    cases t with
    | eventStore => exact absurd rfl ht
    | alertStore => exact h.1
    | invalidEventStore => exact h.2
  · rw [show (s.insert t strSeed strText).storedSeed = some strSeed from hseed, hseed]
    refine ⟨fun _ => nofun, fun _ t' r hr => ?_⟩
    rcases mem_insert hr with hold | ⟨-, hnew⟩
    · exact hrows t' r hold
    · exact hnew

namespace Returned

variable {d : Draw}

theorem stored_cases (h : Returned s d) : (getIvRandom d s).2.storedSeed = none ∨
    (getIvRandom d s).2.storedSeed = some (getIvRandom d s).1 := by
  rw [h.stored]
  split
  · exact Or.inl rfl
  · exact Or.inr rfl

/-- The seed is there afterwards if it was before, or could be stored. -/
theorem stored_ne_none_iff (h : Returned s d) :
    (getIvRandom d s).2.storedSeed ≠ none ↔ (s.storedSeed = none → d.bSet = true) := by
  rw [h.stored]
  by_cases hseed : s.storedSeed = none
  · cases hset : d.bSet <;> simp [hseed]
  · simp [hseed]

end Returned

theorem consistent_insertIntoDb (h : RowsUnder s.tables s.storedSeed) (d : Draw)
    (rstrSerialized : String) :
    Consistent (insertIntoDb d rstrSerialized s) ↔ Ok s (.insertIntoDb d rstrSerialized) := by
  have hreturned := returned h d
  have hother : SealedTable.invalidEventStore ≠ .eventStore := nofun
  rw [consistent_iff]
  unfold insertIntoDb Ok
  exact (rowsUnder_insert_iff hreturned.rows hreturned.stored_cases hother rstrSerialized).trans
    hreturned.stored_ne_none_iff

theorem consistent_insertEvent (h : RowsUnder s.tables s.storedSeed) (d d' : Draw)
    (env : InsertEnv) (pMode : UploadMode) (event : EventWrapper) (rstrSerialized : String) :
    Consistent (insertEvent d d' env pMode event rstrSerialized s) ↔
      Ok s (.insertEvent d d' env pMode event rstrSerialized) := by
  have hreturned := returned h d
  rw [consistent_iff]
  unfold insertEvent Ok
  dsimp only
  by_cases halert : isStoredAsAlert env pMode event = true
  · have hother : SealedTable.alertStore ≠ .eventStore := nofun
    rw [if_pos halert]
    have hiff := (rowsUnder_insert_iff hreturned.rows hreturned.stored_cases hother
      rstrSerialized).trans hreturned.stored_ne_none_iff
    exact hiff.trans ⟨fun hok _ => hok, fun hok => hok halert⟩
  · rw [if_neg halert]
    refine ⟨fun _ hfalse => absurd hfalse halert, fun _ => ?_⟩
    -- the event may be encrypted twice, and is stored under the second seed then
    have hlast : ∀ u : String × State, u = (if encryptsAgain pMode event then
        getIvRandom d' (getIvRandom d s).2 else getIvRandom d s) →
        RowsUnder u.2.tables (some u.1) ∧ RowsUnder u.2.tables u.2.storedSeed ∧
          (u.2.storedSeed = none ∨ u.2.storedSeed = some u.1) := by
      intro u hu
      split at hu
      · have hagain := returned hreturned.under d'
        rw [hu]
        exact ⟨hagain.rows, hagain.under, hagain.stored_cases⟩
      · rw [hu]
        exact ⟨hreturned.rows, hreturned.under, hreturned.stored_cases⟩
    rcases hlast _ rfl with ⟨hrows, hunder, hseed⟩
    split
    · exact rowsUnder_insert_eventStore hrows hseed hunder _
    · exact hunder

theorem rowsUnder_getInstance (h : RowsUnder s.tables s.storedSeed) :
    RowsUnder (getInstance s).tables (getInstance s).storedSeed := by
  unfold getInstance
  split
  · exact h
  · exact rowsUnder_of_subset h (subset_remove s .invalidEventStore _)

theorem rowsUnder_noTables (seed : Option String) : RowsUnder noTables seed := by
  cases seed with
  | some seed => exact fun t r hr => nomatch hr
  | none => exact ⟨rfl, rfl⟩

/-- A step keeps every row readable iff it meets the condition. -/
theorem consistent_next_iff {a : Act} (h : Consistent s) (hnext : next s a = some s') :
    Consistent s' ↔ Ok s a := by
  rw [consistent_iff] at h
  unfold next at hnext
  -- reading and removing need nothing, the other steps what their lemmas say
  cases a with
  | initAnalytics strKeystore strDBEncryptSeed strSerialNumber bSeedChanged =>
    cases hnext
    exact consistent_initAnalytics h strKeystore strDBEncryptSeed strSerialNumber bSeedChanged
  | set strValue =>
    cases hnext
    exact consistent_set h strValue
  | clearTables =>
    cases hnext
    exact iff_of_true ((consistent_iff _).2 (rowsUnder_noTables _)) trivial
  | getIvRandom d =>
    cases hnext
    exact iff_of_true ((consistent_iff _).2 (returned h d).under) trivial
  | insertEvent d d' env pMode event rstrSerialized =>
    cases hnext
    exact consistent_insertEvent h d d' env pMode event rstrSerialized
  | getInstance =>
    cases hnext
    exact iff_of_true ((consistent_iff _).2 (rowsUnder_getInstance h)) trivial
  | insertIntoDb d rstrSerialized =>
    dsimp only at hnext
    split at hnext
    · cases hnext
      exact consistent_insertIntoDb h d rstrSerialized
    · exact nomatch hnext
  | remove t setIds =>
    cases hnext
    refine iff_of_true ((consistent_iff _).2 ?_) trivial
    exact rowsUnder_of_subset h (subset_remove s t _)

/-! ## Runs -/

theorem consistent_init (strKeystore strDBEncryptSeed strSerialNumber : String)
    (bSeedChanged : Bool) :
    Consistent (init strKeystore strDBEncryptSeed strSerialNumber bSeedChanged) := by
  have hempty : RowsUnder noTables none := rowsUnder_noTables none
  refine (consistent_initAnalytics hempty strKeystore strDBEncryptSeed strSerialNumber
    bSeedChanged).2 ?_
  exact Or.inr ⟨rfl, rfl, Or.inr (Or.inr fun r hr => nomatch hr)⟩

/-- In a run every row can be read all the way iff each seed is replaced where no row depends on
it. -/
theorem consistent_along_iff (strKeystore strDBEncryptSeed strSerialNumber : String)
    (bSeedChanged : Bool) (run : List Act) (s : State)
    (hrun : Lib.exec next (init strKeystore strDBEncryptSeed strSerialNumber bSeedChanged) run =
      some s) :
    (∀ pre, pre <+: run → ∀ t,
      Lib.exec next (init strKeystore strDBEncryptSeed strSerialNumber bSeedChanged) pre = some t →
        Consistent t) ↔
      Lib.Along next Ok (init strKeystore strDBEncryptSeed strSerialNumber bSeedChanged) run :=
  (Lib.along_iff (fun _ _ _ h hnext => consistent_next_iff h hnext) run _ s
    (consistent_init strKeystore strDBEncryptSeed strSerialNumber bSeedChanged) hrun).symm


/-- An alert comes where alerts are sent on the stream. -/
def storeAlert (nRandom : ℕ) (rstrSerialized : String) : Act :=
  .insertEvent ⟨nRandom, true⟩ ⟨nRandom, true⟩ ⟨id, fun _ _ _ => "", fun _ => true⟩
    ⟨⟨true, false⟩, ⟨true, false⟩, fun _ => none⟩ ⟨"Crash", 0, 0, [], none⟩ rstrSerialized

/-- The number is lost when alerts and invalid events are gone. -/
theorem consistent_along_iff_uploaded :
    ∃ s, Lib.exec next (init "" "" "SN1" false)
      [storeAlert 7 "crash", .getInstance, .insertIntoDb ⟨9, true⟩ "late", .remove .alertStore [1],
        .remove .invalidEventStore [1], .set "", storeAlert 8 "again"] = some s ∧
      (s.tables .alertStore).rows = [⟨2, "8XXXXXXXXXXXXXXX", "again"⟩] ∧ Consistent s := by
  refine ⟨_, rfl, by decide +kernel, ?_⟩
  refine (consistent_along_iff "" "" "SN1" false
    [storeAlert 7 "crash", .getInstance, .insertIntoDb ⟨9, true⟩ "late", .remove .alertStore [1],
      .remove .invalidEventStore [1], .set "", storeAlert 8 "again"] _ rfl).2 ?_ _
    (List.prefix_refl _) _ rfl
  decide +kernel

/-- An alert that waits when the number is lost stays behind, and cannot be read any more. -/
theorem not_consistent_generated :
    ∃ s, Lib.exec next (init "" "" "SN1" false)
      [storeAlert 7 "crash", .set "", .getIvRandom ⟨8, true⟩] = some s ∧
      s.dataEncryRndNo = "8XXXXXXXXXXXXXXX" ∧
      (s.tables .alertStore).rows = [⟨1, "7XXXXXXXXXXXXXXX", "crash"⟩] ∧ ¬ Consistent s := by
  refine ⟨_, rfl, by decide +kernel, by decide +kernel, fun h => ?_⟩
  have hrow := h ⟨0, true⟩ .alertStore ⟨1, "7XXXXXXXXXXXXXXX", "crash"⟩ (by decide +kernel)
  exact absurd hrow (by decide +kernel)

end EncryptionSeed

end DeviceClient
