import Mathlib.Data.Int.Notation

/-!
# Responses

`HttpErrorCode` and `CHttpResponse`.
-/

namespace DeviceClient

inductive HttpErrorCode where
  | eERR_OK
  | eERR_ACCESS
  | eERR_TOKEN
  | eERR_NETWORK
  | eERR_RESPONSE_FORMAT
  | eERR_RESPONSE_DATA
  | eERR_TIMEOUT
  | eERR_SERVER
  | eERR_BACKOFF
  | eERR_INV_INPUT
  | eERR_OTHER
  | eERR_UNKNOWN
deriving DecidableEq, Repr

/-- `CHttpResponse`. A byte of the header or the body is the character of its number. -/
structure HttpResponse where
  eLastError : HttpErrorCode
  lHttpCode : ℤ
  strHttpResponseHeader : List Char
  strHttpRespdata : List Char
deriving DecidableEq, Repr

/-- `Reset`. -/
def HttpResponse.reset : HttpResponse := ⟨.eERR_UNKNOWN, -1, [], []⟩

end DeviceClient
