import Mathlib.Logic.Function.Basic

/-!
# Return codes and HTTP status

`mcl_error_t` is split in two: `MCL_OK` is the `.ok` of `Except`, every other code of
`E_MCL_CORE_RETURN_CODE` (`mcl_core_common.h:97`), of `E_MCL_CONNECTIVITY_RETURN_CODE`
(`mcl_connectivity_common.h:38`) and of `E_MCL_DATA_LAKE_RETURN_CODE` (`mcl_data_lake_common.h:38`) is an
`McError`. A function that returns a code alone returns `Result Unit`, one that fills an output parameter
on `MCL_OK` returns it in the `.ok`.
-/

namespace MindConnect

inductive McError where
  | fail | triggeredWithNull | outOfMemory | invalidParameter | invalidLogLevel | noServerTime
  | noAccessTokenExists | noAccessTokenProvided | noFileSupport | operationNotSupported
  | couldNotResolveProxy | couldNotResolveHost | couldNotConnect | sslHandshakeFail | networkSendFail
  | networkReceiveFail | serverCertificateNotVerified | improperCertificate | requestTimeout
  | serverFail | created | partialContent | badRequest | unauthorized | forbidden | notFound
  | conflict | preconditionFail | requestPayloadTooLarge | tooManyRequests | unexpectedResultCode
  | notOnboarded | alreadyOnboarded | exchangeStreamingIsActive | credentialsUpToDate
  | cannotEnterCriticalSection | badContentEncoding | jsonNonExistingChild | jsonNameDuplication
  | jsonTypeMismatch | sha256CalculationFail | credentialsNotSaved | credentialsNotLoaded
  | listIsEmpty | limitExceeded | fileCannotBeOpened | itemExceedsMaxHttpRequestSize | storeIsEmpty
  | dataLakeSignedUrlGenerationFail
deriving DecidableEq, Repr

abbrev Result := Except McError

theorem bind_eq_ok {α β : Type} {x : Result α} {f : α → Result β} {b : β} (h : x >>= f = .ok b) :
    ∃ a, x = .ok a ∧ f a = .ok b := by
  cases x with
  | error e => cases h
  | ok a => exact ⟨a, rfl, h⟩

theorem bind_eq_error {α β : Type} {x : Result α} {f : α → Result β} {e : McError} (h : x >>= f = .error e) :
    x = .error e ∨ ∃ a, x = .ok a ∧ f a = .error e := by
  cases x with
  | error e' =>
    cases h
    exact .inl rfl
  | ok a => exact .inr ⟨a, rfl, h⟩

/-- `mcl_http_response_get_status` (`http_response.c:105`) -/
def httpResponseGetStatus : Nat → Result Unit
  | 200 => .ok ()
  | 201 => .error .created
  | 206 => .error .partialContent
  | 400 => .error .badRequest
  | 401 => .error .unauthorized
  | 403 => .error .forbidden
  | 404 => .error .notFound
  | 409 => .error .conflict
  | 412 => .error .preconditionFail
  | 413 => .error .requestPayloadTooLarge
  | 429 => .error .tooManyRequests
  | 500 => .error .serverFail
  | _ => .error .unexpectedResultCode

theorem httpResponseGetStatus_ok {status : Nat} (h : httpResponseGetStatus status = .ok ()) :
    status = 200 := by
  unfold httpResponseGetStatus at h
  split at h <;> first | rfl | cases h

end MindConnect
