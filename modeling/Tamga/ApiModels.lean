import Tamga.Models

namespace Tamga.ApiModels

open Library.Serde
open Tamga.Dependencies
open Tamga.Models

variable {J : SerdeJson}

/-- Of the scope only these six are ever sent. -/
structure ScopeObject (J : SerdeJson) where
  product : Option J.Uuid
  policy : Option J.Uuid
  user : Option J.Uuid
  environment : Option J.Uuid
  entitlements : Option (List String)
  fingerprint : Option String
  version : Option String
  checksum : Option String

inductive ValidationCode where
  | valid
  | notFound
  | banned
  | suspended
  | expired
  | overdue
  | entitlementsMissing
  | tooManyMachines
  | tooManyCores
  | tooMuchMemory
  | tooMuchDisk
  | tooManyProcesses
  | tooManyUsers
  | heartbeatDead
  | heartbeatNotStarted
  | productScopeMismatch
  | policyScopeMismatch
  | userScopeMismatch
  | fingerprintScopeMismatch
  | componentsScopeMismatch
  | checksumScopeMismatch
  | versionScopeMismatch
  | environmentScopeMismatch
  | unknown (wire : String)
  deriving DecidableEq

structure ValidationMeta (J : SerdeJson) where
  ts : J.DateTime
  valid : Bool
  detail : String
  code : ValidationCode

structure ValidationResult (J : SerdeJson) where
  license : LicenseResource J
  «meta» : ValidationMeta J

structure OffsetPageMeta where
  number : Int64
  size : Int64
  total : Int64
  totalPages : Int64

structure OffsetPage (α : Type) where
  items : List α
  page : OffsetPageMeta

/-- `then_some` is given the sum in any case.  Where the sum overflows, the number
is the largest `i64` and below nothing, so that the sum is not used. -/
def OffsetPage.nextPageNumber {α : Type} (page : OffsetPage α) : Option Int64 :=
  if page.page.number < page.page.totalPages then some (page.page.number + 1) else none

structure ComponentAttributes (J : SerdeJson) where
  fingerprint : String
  name : String
  machineId : J.Uuid
  metadata : J.Value
  created : J.DateTime
  updated : J.DateTime

structure ComponentResource (J : SerdeJson) where
  id : J.Uuid
  resourceType : String
  attributes : ComponentAttributes J

structure ProcessAttributes (J : SerdeJson) where
  pid : String
  machineId : J.Uuid
  lastHeartbeatAt : J.DateTime
  metadata : J.Value
  created : J.DateTime
  updated : J.DateTime

structure ProcessResource (J : SerdeJson) where
  id : J.Uuid
  resourceType : String
  attributes : ProcessAttributes J

inductive EntitlementKind where
  | flag
  | meter
  | unknown (wire : String)
  deriving DecidableEq

structure LicenseEntitlementAttributes (J : SerdeJson) where
  name : String
  code : String
  kind : EntitlementKind
  metadata : J.Value
  created : J.DateTime
  updated : J.DateTime
  inherited : Bool
  maxValue : Option Int32
  currentValue : Int32

structure LicenseEntitlement (J : SerdeJson) where
  id : J.Uuid
  resourceType : String
  attributes : LicenseEntitlementAttributes J

structure ArtifactAttributes (J : SerdeJson) where
  filename : String
  filetype : Option String
  filesize : Option Int64
  checksum : Option String
  platform : Option String
  arch : Option String
  signature : Option String
  status : String
  redirectUrl : Option String
  metadata : J.Value
  created : J.DateTime
  updated : J.DateTime

structure ArtifactResource (J : SerdeJson) where
  id : J.Uuid
  resourceType : String
  attributes : ArtifactAttributes J

section Deserialize

variable (J)

def validationCode : Deserialize ValidationCode :=
  parsed fun wire => some <|
    match wire with
    | "VALID" => .valid
    | "NOT_FOUND" => .notFound
    | "BANNED" => .banned
    | "SUSPENDED" => .suspended
    | "EXPIRED" => .expired
    | "OVERDUE" => .overdue
    | "ENTITLEMENTS_MISSING" => .entitlementsMissing
    | "TOO_MANY_MACHINES" => .tooManyMachines
    | "TOO_MANY_CORES" => .tooManyCores
    | "TOO_MUCH_MEMORY" => .tooMuchMemory
    | "TOO_MUCH_DISK" => .tooMuchDisk
    | "TOO_MANY_PROCESSES" => .tooManyProcesses
    | "TOO_MANY_USERS" => .tooManyUsers
    | "HEARTBEAT_DEAD" => .heartbeatDead
    | "HEARTBEAT_NOT_STARTED" => .heartbeatNotStarted
    | "PRODUCT_SCOPE_MISMATCH" => .productScopeMismatch
    | "POLICY_SCOPE_MISMATCH" => .policyScopeMismatch
    | "USER_SCOPE_MISMATCH" => .userScopeMismatch
    | "FINGERPRINT_SCOPE_MISMATCH" => .fingerprintScopeMismatch
    | "COMPONENTS_SCOPE_MISMATCH" => .componentsScopeMismatch
    | "CHECKSUM_SCOPE_MISMATCH" => .checksumScopeMismatch
    | "VERSION_SCOPE_MISMATCH" => .versionScopeMismatch
    | "ENVIRONMENT_SCOPE_MISMATCH" => .environmentScopeMismatch
    | other => .unknown other

def validationMeta : Deserialize (ValidationMeta J) :=
  struct <| (Fields.done (@ValidationMeta.mk J))
    |>.field "ts" (dateTime J)
    |>.field "valid" bool
    |>.field "detail" string
    |>.field "code" validationCode

def offsetPageMeta : Deserialize OffsetPageMeta :=
  struct <| (Fields.done OffsetPageMeta.mk)
    |>.field "number" i64
    |>.field "size" i64
    |>.field "total" i64
    |>.field "totalPages" i64

def componentAttributes : Deserialize (ComponentAttributes J) :=
  struct <| (Fields.done (@ComponentAttributes.mk J))
    |>.field "fingerprint" string
    |>.field "name" string
    |>.field "machine_id" (uuid J)
    |>.field "metadata" (value J)
    |>.field "created" (dateTime J)
    |>.field "updated" (dateTime J)

def componentResource : Deserialize (ComponentResource J) :=
  struct <| (Fields.done (@ComponentResource.mk J))
    |>.field "id" (uuid J)
    |>.field "type" string
    |>.field "attributes" (componentAttributes J)

def processAttributes : Deserialize (ProcessAttributes J) :=
  struct <| (Fields.done (@ProcessAttributes.mk J))
    |>.field "pid" string
    |>.field "machine_id" (uuid J)
    |>.field "last_heartbeat_at" (dateTime J)
    |>.field "metadata" (value J)
    |>.field "created" (dateTime J)
    |>.field "updated" (dateTime J)

def processResource : Deserialize (ProcessResource J) :=
  struct <| (Fields.done (@ProcessResource.mk J))
    |>.field "id" (uuid J)
    |>.field "type" string
    |>.field "attributes" (processAttributes J)

def entitlementKind : Deserialize EntitlementKind :=
  parsed fun wire => some <|
    match wire with
    | "flag" => .flag
    | "meter" => .meter
    | other => .unknown other

def licenseEntitlementAttributes : Deserialize (LicenseEntitlementAttributes J) :=
  struct <| (Fields.done (@LicenseEntitlementAttributes.mk J))
    |>.field "name" string
    |>.field "code" string
    |>.field "kind" entitlementKind
    |>.field "metadata" (value J)
    |>.field "created" (dateTime J)
    |>.field "updated" (dateTime J)
    |>.fieldDefault "inherited" bool false
    |>.fieldDefault "max_value" (option i32) none
    |>.fieldDefault "current_value" i32 0

def licenseEntitlement : Deserialize (LicenseEntitlement J) :=
  struct <| (Fields.done (@LicenseEntitlement.mk J))
    |>.field "id" (uuid J)
    |>.field "type" string
    |>.field "attributes" (licenseEntitlementAttributes J)

def artifactAttributes : Deserialize (ArtifactAttributes J) :=
  struct <| (Fields.done (@ArtifactAttributes.mk J))
    |>.field "filename" string
    |>.field "filetype" (option string)
    |>.field "filesize" (option i64)
    |>.field "checksum" (option string)
    |>.field "platform" (option string)
    |>.field "arch" (option string)
    |>.field "signature" (option string)
    |>.field "status" string
    |>.fieldDefault "redirectUrl" (option string) none
    |>.field "metadata" (value J)
    |>.field "created" (dateTime J)
    |>.field "updated" (dateTime J)

def artifactResource : Deserialize (ArtifactResource J) :=
  struct <| (Fields.done (@ArtifactResource.mk J))
    |>.field "id" (uuid J)
    |>.field "type" string
    |>.field "attributes" (artifactAttributes J)

end Deserialize

section Serialize

/-- `skip_serializing_if = "Option::is_none"`; `version` and `checksum` are
skipped always. -/
def ScopeObject.toJson (scope : ScopeObject J) : Json :=
  objectJson <|
    (scope.product.toList.map fun id => ("product", textJson (J.printUuid id))) ++
      (scope.policy.toList.map fun id => ("policy", textJson (J.printUuid id))) ++
      (scope.user.toList.map fun id => ("user", textJson (J.printUuid id))) ++
      (scope.environment.toList.map fun id => ("environment", textJson (J.printUuid id))) ++
      (scope.entitlements.toList.map fun codes =>
        ("entitlements", .array (codes.map textJson))) ++
      (scope.fingerprint.toList.map fun text => ("fingerprint", textJson text))

end Serialize

end Tamga.ApiModels
