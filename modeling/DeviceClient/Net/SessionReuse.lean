import DeviceClient.Net.CurlHttpSession
import Mathlib.Logic.Function.Basic

/-!
# Requests over kept sessions

The sessions of `CHttpSessionManager` from request to request: a session without an error
is kept in its slot and reset for the next request, any other is deleted.

Requests that overlap are on different slots. A request stands where its session is
released, and takes the first slot that no other request holds.

* `respond_eq`: a response is that of the exchange, behind what the session still holds.
* `sameResponse_iff`: when two histories give a request the same response.
-/

namespace DeviceClient

/-- `MAX_SESSIONS`. -/
def maxSessions : ℕ := 8

/-- What `CHttpSessionManager` sets on every session. -/
structure SessionSettings where
  proxy : ProxySetting
  portRange : LocalPortRange

/-- `m_pSession`; `none` is the null pointer. -/
abbrev SessionSlots := ℕ → Option CurlHttpSession

/-- A request, the way it is executed, and what curl makes of it. -/
structure PoolRequest where
  request : HttpRequest
  isGET : Bool
  curl : CurlOptions → Exchange

/-- The slots that other requests hold meanwhile, and the memory that a new session gets. -/
structure PoolMoment where
  held : ℕ → Bool
  lCurlHttpCode : ℤ
  eLastError : HttpErrorCode

namespace SessionReuse

open CurlHttpSession HttpRequest

variable (settings : SessionSettings)

/-- `AcquireSession` behind the choice of the slot. -/
def prepare (s : CurlHttpSession) : CurlHttpSession :=
  let s := s.reset
  let s := if settings.proxy.strHost ≠ "" ∧ settings.proxy.nPort ≠ 0 then
    s.setProxy settings.proxy else s
  if settings.portRange.nStart ≠ 0 ∧ settings.portRange.nEnd ≠ 0 then
    s.setLocalPortRange settings.portRange else s

/-- The first slot that is not held. -/
def PoolMoment.slot (m : PoolMoment) : Option ℕ :=
  (List.range maxSessions).find? fun i => !m.held i

/-- The session of a slot, with `CreateSession`. -/
def sessionAt (slots : SessionSlots) (m : PoolMoment) (i : ℕ) : CurlHttpSession :=
  (slots i).getD (.new m.lCurlHttpCode m.eLastError)

/-- A request on a session. -/
def PoolRequest.run (r : PoolRequest) (s : CurlHttpSession) :
    HttpErrorCode × HttpResponse × CurlHttpSession :=
  if r.isGET then executeGET r.curl r.request s else execute r.curl r.request s

/-- What the caller gets; without a free slot the response is left as it was. -/
def respond (slots : SessionSlots) (m : PoolMoment) (r : PoolRequest) :
    Option (HttpErrorCode × HttpResponse) :=
  (PoolMoment.slot m).map fun i =>
    let result := PoolRequest.run r (prepare settings (sessionAt slots m i))
    (result.1, result.2.1)

/-- `ReleaseSession` behind the request. -/
def slotsAfter (slots : SessionSlots) (m : PoolMoment) (r : PoolRequest) : SessionSlots :=
  match PoolMoment.slot m with
  | none => slots
  | some i =>
    let s := (PoolRequest.run r (prepare settings (sessionAt slots m i))).2.2
    Function.update slots i (if s.eLastError = .eERR_OK then some s else none)

/-- The slots behind a history. -/
def slotsBehind (history : List (PoolMoment × PoolRequest)) : SessionSlots :=
  history.foldl (fun slots call => slotsAfter settings slots call.1 call.2) fun _ => none

/-! ## What a session holds from earlier requests -/

/-- The three fields that a reset leaves. -/
def carry (strCurlRespHeaders : List Char) (lCurlHttpCode : ℤ) (eLastError : HttpErrorCode)
    (s : CurlHttpSession) : CurlHttpSession :=
  { s with
    strCurlRespHeaders := strCurlRespHeaders
    lCurlHttpCode := lCurlHttpCode
    eLastError := eLastError }

/-- A step that neither reads nor writes these fields. -/
def Blind (f : CurlHttpSession → CurlHttpSession) : Prop :=
  ∀ headers code e s, f (carry headers code e s) = carry headers code e (f s)

theorem Blind.comp {f g : CurlHttpSession → CurlHttpSession} (hg : Blind g) (hf : Blind f) :
    Blind fun s => g (f s) := by
  intro headers code e s
  dsimp only
  rw [hf, hg]

theorem Blind.ite {p : Prop} [Decidable p] {f : CurlHttpSession → CurlHttpSession}
    (hf : Blind f) : Blind fun s => if p then f s else s := by
  intro headers code e s
  dsimp only
  by_cases hp : p
  · rw [if_pos hp, if_pos hp]
    exact hf headers code e s
  · rw [if_neg hp, if_neg hp]

theorem Blind.foldl {α : Type} {f : CurlHttpSession → α → CurlHttpSession}
    (hf : ∀ a, Blind fun s => f s a) (as : List α) : Blind fun s => as.foldl f s := by
  induction as with
  | nil =>
    intro headers code e s
    rfl
  | cons a as ih => exact Blind.comp ih (hf a)

theorem blind_setUrl (strUrl : String) : Blind (setUrl strUrl) := by
  intro headers code e s
  unfold setUrl
  split <;> rfl

theorem blind_setPostFields (strPostFields : String) : Blind (setPostFields strPostFields) := by
  intro headers code e s
  unfold setPostFields
  split <;> rfl

theorem blind_setLocalPortRange (r : LocalPortRange) : Blind (setLocalPortRange r) := by
  intro headers code e s
  unfold setLocalPortRange
  split <;> rfl

theorem blind_setTimeout (nTimeout : ℤ) : Blind (setTimeout nTimeout) := fun _ _ _ _ => rfl

theorem blind_setProxy (p : ProxySetting) : Blind (setProxy p) := fun _ _ _ _ => rfl

theorem blind_addHeader (strHeader : String) : Blind fun s => s.addHeader strHeader :=
  fun _ _ _ _ => rfl

theorem blind_addFormFromBuffer (b : FormBuffer) : Blind fun s => s.addFormFromBuffer b :=
  fun _ _ _ _ => rfl

theorem blind_addFormFromFile (f : FormFile) : Blind fun s => s.addFormFromFile f :=
  fun _ _ _ _ => rfl

theorem blind_applyTo (r : HttpRequest) : Blind r.applyTo := by
  have hheaders := Blind.foldl blind_addHeader r.strHeaders
  have hpost := Blind.comp (blind_setPostFields r.strPostFields)
    (Blind.comp (Blind.ite (p := 0 < r.nTimeout) (blind_setTimeout r.nTimeout))
      (blind_setUrl r.strUrl))
  have hproxy := Blind.ite (p := isProxySettingsValid r.stProxy = true) (blind_setProxy r.stProxy)
  have hrange := Blind.ite (p := isPortRangeValid r.stPortRange = true)
    (blind_setLocalPortRange r.stPortRange)
  have hall := Blind.comp hrange (Blind.comp hproxy (Blind.comp hheaders hpost))
  exact hall

theorem blind_applyForms (r : HttpRequest) : Blind r.applyForms := by
  have hall := Blind.comp (Blind.foldl blind_addFormFromFile r.stFormFiles)
    (Blind.foldl blind_addFormFromBuffer r.stFormBuffs)
  exact hall

/-- A prepared session is a new one that is prepared, but for these fields. -/
theorem prepare_eq (s : CurlHttpSession) (lCurlHttpCode : ℤ) (eLastError : HttpErrorCode) :
    prepare settings s = carry s.strCurlRespHeaders s.lCurlHttpCode s.eLastError
      (prepare settings (.new lCurlHttpCode eLastError)) := by
  have hblind : Blind fun s =>
      if settings.portRange.nStart ≠ 0 ∧ settings.portRange.nEnd ≠ 0 then
        (if settings.proxy.strHost ≠ "" ∧ settings.proxy.nPort ≠ 0 then
          s.setProxy settings.proxy else s).setLocalPortRange settings.portRange
      else if settings.proxy.strHost ≠ "" ∧ settings.proxy.nPort ≠ 0 then
        s.setProxy settings.proxy else s :=
    Blind.comp (Blind.ite (blind_setLocalPortRange _)) (Blind.ite (blind_setProxy _))
  exact hblind s.strCurlRespHeaders s.lCurlHttpCode s.eLastError
    (CurlHttpSession.new lCurlHttpCode eLastError).reset

/-! ## Responses -/

/-- The options of a request, on any session. -/
def sentOptions (r : PoolRequest) : CurlOptions :=
  let s := r.request.applyTo (prepare settings (.new 0 .eERR_OK))
  (if r.isGET then s else r.request.applyForms s).options

/-- The exchange of a request. -/
def exchangeOf (r : PoolRequest) : Exchange := r.curl (sentOptions settings r)

/-- The header bytes that the session of a slot holds. -/
def heldHeaders (slots : SessionSlots) (i : ℕ) : List Char :=
  match slots i with
  | none => []
  | some s => s.strCurlRespHeaders

/-- The code that the session of a slot holds, or the memory of a new one. -/
def heldCode (slots : SessionSlots) (m : PoolMoment) (i : ℕ) : ℤ :=
  match slots i with
  | none => m.lCurlHttpCode
  | some s => s.lCurlHttpCode

theorem run_eq (r : PoolRequest) (s : CurlHttpSession) :
    let x := exchangeOf settings r
    let result := PoolRequest.run r (prepare settings s)
    result.1 = errorOf x ∧ result.2.1 = ⟨errorOf x,
      if x.curlError = .CURLE_OK then x.responseCode else s.lCurlHttpCode,
      s.strCurlRespHeaders ++ x.header, x.body⟩ ∧ result.2.2.eLastError = errorOf x ∧
      result.2.2.strCurlRespHeaders = s.strCurlRespHeaders ++ x.header := by
  unfold exchangeOf sentOptions PoolRequest.run
  rw [prepare_eq settings s 0 .eERR_OK]
  cases r.isGET with
  | true =>
    dsimp only [executeGET]
    rw [blind_applyTo]
    exact ⟨rfl, rfl, rfl, rfl⟩
  | false =>
    dsimp only [execute]
    rw [blind_applyTo, blind_applyForms]
    exact ⟨rfl, rfl, rfl, rfl⟩

theorem sessionAt_headers (slots : SessionSlots) (m : PoolMoment) (i : ℕ) :
    (sessionAt slots m i).strCurlRespHeaders = heldHeaders slots i := by
  unfold sessionAt heldHeaders
  cases slots i with
  | none => rfl
  | some s => rfl

theorem sessionAt_code (slots : SessionSlots) (m : PoolMoment) (i : ℕ) :
    (sessionAt slots m i).lCurlHttpCode = heldCode slots m i := by
  unfold sessionAt heldCode
  cases slots i with
  | none => rfl
  | some s => rfl

theorem respond_eq (slots : SessionSlots) (m : PoolMoment) (r : PoolRequest) :
    respond settings slots m r = (PoolMoment.slot m).map fun i =>
      let x := exchangeOf settings r
      (errorOf x, ⟨errorOf x,
        if x.curlError = .CURLE_OK then x.responseCode else heldCode slots m i,
        heldHeaders slots i ++ x.header, x.body⟩) := by
  unfold respond
  congr 1
  funext i
  obtain ⟨herror, hresponse, _⟩ := run_eq settings r (sessionAt slots m i)
  rw [sessionAt_headers, sessionAt_code] at hresponse
  exact Prod.ext herror hresponse

/-- The headers of a kept session grow with every request on it. -/
theorem heldHeaders_slotsAfter (slots : SessionSlots) {m : PoolMoment} (r : PoolRequest) {i : ℕ}
    (hslot : PoolMoment.slot m = some i) : heldHeaders (slotsAfter settings slots m r) i =
      if errorOf (exchangeOf settings r) = .eERR_OK then
        heldHeaders slots i ++ (exchangeOf settings r).header else [] := by
  obtain ⟨_, _, herror, hheaders⟩ := run_eq settings r (sessionAt slots m i)
  unfold slotsAfter
  rw [hslot]
  dsimp only
  rw [herror]
  unfold heldHeaders at *
  rw [Function.update_self]
  by_cases hok : errorOf (exchangeOf settings r) = .eERR_OK
  · rw [if_pos hok, if_pos hok]
    exact hheaders.trans (by rw [sessionAt_headers]; rfl)
  · rw [if_neg hok, if_neg hok]

/-! ## Two histories -/

/-- A request gets the same response behind two histories, if it gets one. -/
def SameResponse (history history' : List (PoolMoment × PoolRequest)) (m m' : PoolMoment)
    (r : PoolRequest) : Prop :=
  ∀ response ∈ respond settings (slotsBehind settings history) m r,
    ∀ response' ∈ respond settings (slotsBehind settings history') m' r, response = response'

/-- The sessions for the request hold the same header bytes and, unless the exchange
completes, the same code. -/
def SameHeld (history history' : List (PoolMoment × PoolRequest)) (m m' : PoolMoment)
    (r : PoolRequest) : Prop :=
  ∀ i ∈ PoolMoment.slot m, ∀ i' ∈ PoolMoment.slot m',
    heldHeaders (slotsBehind settings history) i = heldHeaders (slotsBehind settings history') i' ∧
    ((exchangeOf settings r).curlError = .CURLE_OK ∨
      heldCode (slotsBehind settings history) m i = heldCode (slotsBehind settings history') m' i')

theorem sameResponse_iff (history history' : List (PoolMoment × PoolRequest))
    (m m' : PoolMoment) (r : PoolRequest) :
    SameResponse settings history history' m m' r ↔
      SameHeld settings history history' m m' r := by
  unfold SameResponse SameHeld
  rw [respond_eq, respond_eq]
  simp only [Option.mem_def, Option.map_eq_some_iff, forall_exists_index, and_imp]
  constructor
  · intro hsame i hi i' hi'
    have heq := hsame _ i hi rfl _ i' hi' rfl
    simp only [Prod.mk.injEq, true_and, HttpResponse.mk.injEq, and_true,
      List.append_cancel_right_eq] at heq
    refine ⟨heq.2, ?_⟩
    by_cases hok : (exchangeOf settings r).curlError = .CURLE_OK
    · exact Or.inl hok
    · rw [if_neg hok, if_neg hok] at heq
      exact Or.inr heq.1
  · rintro hheld _ i hi rfl _ i' hi' rfl
    obtain ⟨hheaders, hcode⟩ := hheld i hi i' hi'
    rw [hheaders]
    rcases hcode with hok | hcode
    · rw [if_pos hok, if_pos hok]
    · rw [hcode]

/-- A second response shows the header of the first, in front of its own. -/
theorem not_sameResponse_second : ¬∀ (settings : SessionSettings)
    (history history' : List (PoolMoment × PoolRequest)) (m m' : PoolMoment) (r : PoolRequest),
    SameResponse settings history history' m m' r := by
  intro hall
  let settings : SessionSettings := ⟨⟨"", 0, "", ""⟩, ⟨0, 0⟩⟩
  let m : PoolMoment := ⟨fun _ => false, 0, .eERR_OK⟩
  let r : PoolRequest := ⟨⟨"", -1, "", [], ⟨"", -1, "", ""⟩, ⟨-1, -1⟩, [], []⟩, false,
    fun _ => ⟨.CURLE_OK, 200, ['d'], []⟩⟩
  have hfirst : respond settings (slotsBehind settings []) m r =
      some (.eERR_OK, ⟨.eERR_OK, 200, ['d'], []⟩) := rfl
  have hsecond : respond settings (slotsBehind settings [(m, r)]) m r =
      some (.eERR_OK, ⟨.eERR_OK, 200, ['d', 'd'], []⟩) := rfl
  have hsame := hall settings [] [(m, r)] m m r _ hfirst _ hsecond
  revert hsame
  decide

end SessionReuse

end DeviceClient
