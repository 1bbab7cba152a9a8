import DeviceClient.Net.HttpResponse
import Mathlib.Data.Nat.Notation

/-!
# A session over curl

`CCurlHttpSession`: the fields of a session, the options of its handle, and what an
exchange leaves in them; `CHttpRequest::Execute` from the session to the response.

A handle is seen through the options that are set on it. What curl makes of them, the
bytes that it hands to the callbacks included, is an exchange.
-/

namespace DeviceClient

structure FormBuffer where
  strFormName : String
  strContentType : String
  buffer : List Char
  lBufferSize : ℤ
  bUploadAsFile : Bool
deriving DecidableEq

structure FormFile where
  strFormName : String
  strContentType : String
  strFilePath : String
  strAttachmentUploadName : String
deriving DecidableEq

structure ProxySetting where
  strHost : String
  nPort : ℤ
  strUser : String
  strPassword : String
deriving DecidableEq

structure LocalPortRange where
  nStart : ℤ
  nEnd : ℤ
deriving DecidableEq

/-- `CHttpRequest`. -/
structure HttpRequest where
  strUrl : String
  nTimeout : ℤ
  strPostFields : String
  strHeaders : List String
  stProxy : ProxySetting
  stPortRange : LocalPortRange
  stFormBuffs : List FormBuffer
  stFormFiles : List FormFile
deriving DecidableEq

/-- A part of a form, as `curl_formadd` takes it. -/
inductive CurlForm where
  | buffer (strFormName : String) (strBufferName : Option String) (buffer : List Char)
      (lBufferSize : ℤ) (strContentType : String)
  | file (strFormName strFilePath : String) (strFileName : Option String) (strContentType : String)
deriving DecidableEq

/-- The options of a handle that differ from request to request. -/
structure CurlOptions where
  url : Option String
  timeout : ℤ
  copyPostFields : Option String
  httpHeader : List String
  httpPost : List CurlForm
  proxy : Option (String × ℤ)
  proxyUserPwd : Option String
  localPort : Option (ℤ × ℤ)
deriving DecidableEq

/-- `SetDefaultCurlOptions`, behind `curl_easy_reset`. -/
def CurlOptions.default : CurlOptions := ⟨none, 60, none, [], [], none, none, none⟩

/-- `CURLcode`, as far as the session tells them apart. -/
inductive CurlCode where
  | CURLE_OK
  | CURLE_COULDNT_RESOLVE_HOST
  | CURLE_COULDNT_RESOLVE_PROXY
  | CURLE_COULDNT_CONNECT
  | CURLE_OPERATION_TIMEDOUT
  | CURLE_SSL_CONNECT_ERROR
  | CURLE_TOO_MANY_REDIRECTS
  | CURLE_GOT_NOTHING
  | other
deriving DecidableEq

/-- What an exchange brings: its end, the code of the response, and the bytes that the
callbacks get before the end. -/
structure Exchange where
  curlError : CurlCode
  responseCode : ℤ
  header : List Char
  body : List Char
deriving DecidableEq

/-- `CCurlHttpSession`. -/
structure CurlHttpSession where
  options : CurlOptions
  strCurlData : List Char
  strCurlRespHeaders : List Char
  curlHttpHeaders : List String
  curlFormaddPost : List CurlForm
  lCurlHttpCode : ℤ
  eLastError : HttpErrorCode

namespace CurlHttpSession

/-- The constructor. It leaves the code and the error as the memory has them. -/
def new (lCurlHttpCode : ℤ) (eLastError : HttpErrorCode) : CurlHttpSession :=
  ⟨.default, [], [], [], [], lCurlHttpCode, eLastError⟩

def setUrl (strUrl : String) (s : CurlHttpSession) : CurlHttpSession :=
  if strUrl = "" then s else { s with options := { s.options with url := some strUrl } }

def setTimeout (nTimeout : ℤ) (s : CurlHttpSession) : CurlHttpSession :=
  { s with options := { s.options with timeout := nTimeout } }

def setPostFields (strPostFields : String) (s : CurlHttpSession) : CurlHttpSession :=
  if strPostFields = "" then s
  else { s with options := { s.options with copyPostFields := some strPostFields } }

def clearHeaders (s : CurlHttpSession) : CurlHttpSession :=
  { s with curlHttpHeaders := [], options := { s.options with httpHeader := [] } }

/-- `Reset`. -/
def reset (s : CurlHttpSession) : CurlHttpSession :=
  { s.clearHeaders with strCurlData := [], curlFormaddPost := [], options := .default }

def addHeader (s : CurlHttpSession) (strHeader : String) : CurlHttpSession :=
  let headers := s.curlHttpHeaders ++ [strHeader]
  { s with curlHttpHeaders := headers, options := { s.options with httpHeader := headers } }

def setProxy (p : ProxySetting) (s : CurlHttpSession) : CurlHttpSession :=
  { s with options := { s.options with
    proxy := some (p.strHost, p.nPort)
    proxyUserPwd := if p.strUser ≠ "" ∧ p.strPassword ≠ "" then
      some (p.strUser ++ ":" ++ p.strPassword) else s.options.proxyUserPwd } }

def setLocalPortRange (r : LocalPortRange) (s : CurlHttpSession) : CurlHttpSession :=
  if 0 < r.nStart ∧ r.nStart ≤ 65535 ∧ 0 < r.nEnd ∧ r.nEnd ≤ 65535 then
    { s with options := { s.options with localPort := some (r.nStart, r.nEnd - r.nStart + 1) } }
  else s

/-- `curl_formadd`, and the option behind it. -/
def addForm (s : CurlHttpSession) (form : CurlForm) : CurlHttpSession :=
  let forms := s.curlFormaddPost ++ [form]
  { s with curlFormaddPost := forms, options := { s.options with httpPost := forms } }

def addFormFromBuffer (s : CurlHttpSession) (b : FormBuffer) : CurlHttpSession :=
  s.addForm (.buffer b.strFormName (if b.bUploadAsFile then some b.strFormName else none) b.buffer
    b.lBufferSize b.strContentType)

def addFormFromFile (s : CurlHttpSession) (f : FormFile) : CurlHttpSession :=
  s.addForm (.file f.strFormName f.strFilePath
    (if f.strAttachmentUploadName = "" then none else some f.strAttachmentUploadName)
    f.strContentType)

/-- `ProcessCurlResponse`, behind the code of the response. -/
def processCurlResponse (lCurlHttpCode : ℤ) : HttpErrorCode :=
  if lCurlHttpCode ∈ [500, 503, 504, 408, 404] then .eERR_SERVER else .eERR_OK

def processCurlError : CurlCode → HttpErrorCode
  | .CURLE_COULDNT_RESOLVE_HOST => .eERR_NETWORK
  | .CURLE_COULDNT_RESOLVE_PROXY => .eERR_NETWORK
  | .CURLE_COULDNT_CONNECT => .eERR_NETWORK
  | .CURLE_OPERATION_TIMEDOUT => .eERR_TIMEOUT
  | .CURLE_SSL_CONNECT_ERROR => .eERR_SERVER
  | .CURLE_TOO_MANY_REDIRECTS => .eERR_SERVER
  | .CURLE_GOT_NOTHING => .eERR_SERVER
  | _ => .eERR_OTHER

/-- The error of an exchange. -/
def errorOf (x : Exchange) : HttpErrorCode :=
  if x.curlError = .CURLE_OK then processCurlResponse x.responseCode
  else processCurlError x.curlError

/-- `PerformRequest`, with what curl makes of the options. -/
def performRequest (curl : CurlOptions → Exchange) (s : CurlHttpSession) :
    HttpErrorCode × CurlHttpSession :=
  let x := curl s.options
  let s := { s with
    strCurlData := x.body
    strCurlRespHeaders := s.strCurlRespHeaders ++ x.header
    lCurlHttpCode := if x.curlError = .CURLE_OK then x.responseCode else s.lCurlHttpCode
    curlFormaddPost := []
    eLastError := errorOf x }
  (errorOf x, s)

end CurlHttpSession

/-! ## A request on a session -/

namespace HttpRequest

open CurlHttpSession

def isProxySettingsValid (p : ProxySetting) : Bool := p.strHost ≠ "" && 0 < p.nPort

def isPortRangeValid (r : LocalPortRange) : Bool := 0 < r.nStart && 0 < r.nEnd

/-- The settings that both ways to execute a request have. -/
def applyTo (r : HttpRequest) (s : CurlHttpSession) : CurlHttpSession :=
  let s := s.setUrl r.strUrl
  let s := if 0 < r.nTimeout then s.setTimeout r.nTimeout else s
  let s := s.setPostFields r.strPostFields
  let s := r.strHeaders.foldl addHeader s
  let s := if isProxySettingsValid r.stProxy then s.setProxy r.stProxy else s
  if isPortRangeValid r.stPortRange then s.setLocalPortRange r.stPortRange else s

/-- The forms, which only `Execute` sends. -/
def applyForms (r : HttpRequest) (s : CurlHttpSession) : CurlHttpSession :=
  r.stFormFiles.foldl addFormFromFile (r.stFormBuffs.foldl addFormFromBuffer s)

/-- `SetHttpCode` to `SetLastError`. -/
def responseOf (s : CurlHttpSession) : HttpResponse :=
  ⟨s.eLastError, s.lCurlHttpCode, s.strCurlRespHeaders, s.strCurlData⟩

/-- `ExecuteGET`, from the session that is acquired to the one that is released. -/
def executeGET (curl : CurlOptions → Exchange) (r : HttpRequest) (s : CurlHttpSession) :
    HttpErrorCode × HttpResponse × CurlHttpSession :=
  let (eRet, s) := (r.applyTo s).performRequest curl
  (eRet, responseOf s, s)

/-- `Execute`. -/
def execute (curl : CurlOptions → Exchange) (r : HttpRequest) (s : CurlHttpSession) :
    HttpErrorCode × HttpResponse × CurlHttpSession :=
  let (eRet, s) := (r.applyForms (r.applyTo s)).performRequest curl
  (eRet, responseOf s, s)

end HttpRequest

end DeviceClient
