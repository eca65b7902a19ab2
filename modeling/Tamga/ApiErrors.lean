import Tamga.ApiModels
import Tamga.Errors
import Tamga.Transport

namespace Tamga.ApiErrors

open Library.Prelude
open Library.Serde
open Tamga.Dependencies
open Tamga.Errors
open Tamga.Models
open Tamga.ApiModels
open Tamga.Transport

structure JsonApiErrorSource where
  pointer : Option String

structure JsonApiError (J : SerdeJson) where
  id : String
  status : String
  code : String
  title : String
  detail : String
  source : Option JsonApiErrorSource
  «meta» : Option J.Value

structure JsonApiErrorDocument (J : SerdeJson) where
  errors : List (JsonApiError J)

section Deserialize

variable (J : SerdeJson)

/-- `deserialize_status`: a string, or a `u64` that is printed. -/
def deserializeStatus : Deserialize String :=
  custom fun
    | .string token => token
    | .number n => do
        let i ← n.toInt?
        if 0 ≤ i ∧ i < 18446744073709551616 then some (toString i.toNat) else none
    | _ => none

def jsonApiErrorSource : Deserialize JsonApiErrorSource :=
  struct <| (Fields.done JsonApiErrorSource.mk)
    |>.field "pointer" (option string)

def jsonApiError : Deserialize (JsonApiError J) :=
  struct <| (Fields.done (@JsonApiError.mk J))
    |>.field "id" string
    |>.field "status" deserializeStatus
    |>.field "code" string
    |>.fieldDefault "title" string ""
    |>.fieldDefault "detail" string ""
    |>.field "source" (option jsonApiErrorSource)
    |>.fieldDefault "meta" (option (value J)) none

def jsonApiErrorDocument : Deserialize (JsonApiErrorDocument J) :=
  struct <| (Fields.done (@JsonApiErrorDocument.mk J))
    |>.field "errors" (vec (jsonApiError J))

end Deserialize

inductive TamgaError (J : SerdeJson) (R : Reqwest) where
  | http (error : R.Error)
  | json (error : J.Error)
  | api (error : JsonApiError J)
  | rateLimited (retryAfter : Option UInt64) (responseInfo : ResponseInfo)
  | checkInNotRequired (error : JsonApiError J)
  | checkout (error : CheckoutError J)
  | licenseNotEncrypted (error : JsonApiError J)
  | licenseKeyMissingApi (error : JsonApiError J)
  | ttlInvalidApi (error : JsonApiError J)
  | schemeNotSupportedApi (error : JsonApiError J)
  | fingerprintTaken (error : JsonApiError J)
  | datasetInvalid (error : JsonApiError J)
  | pidTaken (error : JsonApiError J)
  | meterLimitExceeded (error : JsonApiError J)
  | proof (error : ProofError)
  | notFound (error : JsonApiError J)
  | unauthorized (error : JsonApiError J)
  | forbidden (error : JsonApiError J)
  | internalServerError (error : JsonApiError J)

inductive ArtifactDownloadError (J : SerdeJson) (R : Reqwest) where
  | api (error : TamgaError J R)
  | missingRedirectUrl
  | malformedRedirectUrl
  | unsupportedRedirectScheme (scheme : String)
  | fetch (error : R.Error)
  | storageStatus (status : Nat)
  | tooLarge (limit : UInt64)

inductive LimitExceededCode where
  | machineLimitExceeded
  | coreLimitExceeded
  | memoryLimitExceeded
  | diskLimitExceeded
  | tooManyProcesses
  deriving DecidableEq

namespace LimitExceededCode

def parse (code : String) : Option LimitExceededCode :=
  match code with
  | "MACHINE_LIMIT_EXCEEDED" => some .machineLimitExceeded
  | "CORE_LIMIT_EXCEEDED" => some .coreLimitExceeded
  | "MEMORY_LIMIT_EXCEEDED" => some .memoryLimitExceeded
  | "DISK_LIMIT_EXCEEDED" => some .diskLimitExceeded
  | "TOO_MANY_PROCESSES" => some .tooManyProcesses
  | _ => none

def asStr : LimitExceededCode → String
  | machineLimitExceeded => "MACHINE_LIMIT_EXCEEDED"
  | coreLimitExceeded => "CORE_LIMIT_EXCEEDED"
  | memoryLimitExceeded => "MEMORY_LIMIT_EXCEEDED"
  | diskLimitExceeded => "DISK_LIMIT_EXCEEDED"
  | tooManyProcesses => "TOO_MANY_PROCESSES"

def asValidationCode : LimitExceededCode → ValidationCode
  | machineLimitExceeded => .tooManyMachines
  | coreLimitExceeded => .tooManyCores
  | memoryLimitExceeded => .tooMuchMemory
  | diskLimitExceeded => .tooMuchDisk
  | tooManyProcesses => .tooManyProcesses

theorem parse_eq_some_iff {code : String} {limit : LimitExceededCode} :
    parse code = some limit ↔ code = limit.asStr := by
  constructor
  · intro h
    unfold parse at h
    split at h <;> cases h <;> rfl
  · rintro rfl
    cases limit <;> rfl

end LimitExceededCode

inductive LicenseAuthCode where
  | licenseSuspended
  | licenseExpired
  | licenseNotAllowed
  deriving DecidableEq

namespace LicenseAuthCode

def parse (code : String) : Option LicenseAuthCode :=
  match code with
  | "LICENSE_SUSPENDED" => some .licenseSuspended
  | "LICENSE_EXPIRED" => some .licenseExpired
  | "LICENSE_NOT_ALLOWED" => some .licenseNotAllowed
  | _ => none

def asStr : LicenseAuthCode → String
  | licenseSuspended => "LICENSE_SUSPENDED"
  | licenseExpired => "LICENSE_EXPIRED"
  | licenseNotAllowed => "LICENSE_NOT_ALLOWED"

theorem parse_eq_some_iff {code : String} {auth : LicenseAuthCode} :
    parse code = some auth ↔ code = auth.asStr := by
  constructor
  · intro h
    unfold parse at h
    split at h <;> cases h <;> rfl
  · rintro rfl
    cases auth <;> rfl

end LicenseAuthCode

namespace TamgaError

variable {J : SerdeJson} {R : Reqwest}

def jsonApiError : TamgaError J R → Option (JsonApiError J)
  | api err
  | checkInNotRequired err
  | licenseNotEncrypted err
  | licenseKeyMissingApi err
  | ttlInvalidApi err
  | schemeNotSupportedApi err
  | fingerprintTaken err
  | datasetInvalid err
  | pidTaken err
  | meterLimitExceeded err
  | notFound err
  | unauthorized err
  | forbidden err
  | internalServerError err => some err
  | http _
  | json _
  | rateLimited _ _
  | checkout _
  | proof _ => none

def code (error : TamgaError J R) : Option String :=
  error.jsonApiError.map (·.code)

def limitExceeded (error : TamgaError J R) : Option LimitExceededCode :=
  error.code.bind LimitExceededCode.parse

def licenseAuthFailure (error : TamgaError J R) : Option LicenseAuthCode :=
  error.code.bind LicenseAuthCode.parse

def isFingerprintTaken : TamgaError J R → Bool
  | fingerprintTaken _ => true
  | _ => false

def isNotFound : TamgaError J R → Bool
  | notFound _ => true
  | _ => false

def fromJsonApiError (err : JsonApiError J) : TamgaError J R :=
  match err.code with
  | "CHECK_IN_NOT_REQUIRED" => checkInNotRequired err
  | "LICENSE_NOT_ENCRYPTED" => licenseNotEncrypted err
  | "LICENSE_KEY_MISSING" => licenseKeyMissingApi err
  | "FINGERPRINT_TAKEN" => fingerprintTaken err
  | "PID_TAKEN" => pidTaken err
  | "METER_LIMIT_EXCEEDED" => meterLimitExceeded err
  | "NOT_FOUND" => notFound err
  | "UNAUTHORIZED" => unauthorized err
  | "FORBIDDEN" => forbidden err
  | "INTERNAL_SERVER_ERROR" => internalServerError err
  | "DATASET_INVALID" => datasetInvalid err
  | "TTL_INVALID" => ttlInvalidApi err
  | "SCHEME_NOT_SUPPORTED" => schemeNotSupportedApi err
  | _ => api err

/-- The variant is chosen by the code, and keeps the whole error. -/
theorem jsonApiError_fromJsonApiError (err : JsonApiError J) :
    (fromJsonApiError err : TamgaError J R).jsonApiError = some err := by
  unfold fromJsonApiError
  split <;> rfl

theorem isFingerprintTaken_fromJsonApiError (err : JsonApiError J) :
    (fromJsonApiError err : TamgaError J R).isFingerprintTaken = true ↔
      err.code = "FINGERPRINT_TAKEN" := by
  constructor
  · intro h
    unfold fromJsonApiError at h
    split at h <;> first | assumption | cases h
  · intro h
    rw [fromJsonApiError, h]
    rfl

theorem isNotFound_fromJsonApiError (err : JsonApiError J) :
    (fromJsonApiError err : TamgaError J R).isNotFound = true ↔ err.code = "NOT_FOUND" := by
  constructor
  · intro h
    unfold fromJsonApiError at h
    split at h <;> first | assumption | cases h
  · intro h
    rw [fromJsonApiError, h]
    rfl

@[simp] theorem code_fromJsonApiError (err : JsonApiError J) :
    (fromJsonApiError err : TamgaError J R).code = some err.code := by
  rw [code, jsonApiError_fromJsonApiError]
  rfl

end TamgaError

section ApiError

variable (J : SerdeJson) (R : Reqwest)

/-- `response.json::<T>()`. -/
def decodeBody {α : Type} (target : String) (inner : Deserialize α) (body : Option Json) :
    Except (TamgaError J R) α :=
  (okOr (body.bind inner.deserialize) (R.decode target body)).mapError .http

/-- `Display` of a `StatusCode`. -/
def displayStatus (status : Nat) : String :=
  toString status ++ " " ++ (R.canonicalReason status).getD "<unknown status code>"

/-- The error that stands in for a body without one. -/
def syntheticError (status : Nat) (detail : String) : JsonApiError J where
  id := ""
  status := toString status
  code := "UNKNOWN"
  title := "Unknown Error"
  detail := detail
  source := none
  «meta» := none

def parseRetryAfter (response : Response) : Option UInt64 :=
  numHeader response.headers "retry-after"

def apiError (response : Response) : TamgaError J R :=
  if response.status = tooManyRequests then
    .rateLimited (parseRetryAfter response) (ResponseInfo.fromHeaders response.headers)
  else
    .fromJsonApiError <|
      match response.body.bind (jsonApiErrorDocument J).deserialize with
      | some document =>
          document.errors.head?.getD
            (syntheticError J response.status "server returned an empty errors array")
      | none =>
          syntheticError J response.status
            ("server returned " ++ displayStatus R response.status ++
              " with a non-JSON:API body")

end ApiError

end Tamga.ApiErrors
