import Tamga.Dependencies

namespace Tamga.Models

open Library.Prelude
open Library.Serde
open Tamga.Dependencies

variable {J : SerdeJson}

structure LicenseAttributes (J : SerdeJson) where
  name : Option String
  key : Option String
  status : String
  expiry : Option J.DateTime
  suspended : Bool
  «protected» : Bool
  scheme : Option String
  encrypted : Bool
  strict : Bool
  floating : Bool
  maxMachines : Option Int32
  maxUsers : Option Int32
  lastValidatedAt : Option J.DateTime
  lastCheckInAt : Option J.DateTime
  lastCheckOutAt : Option J.DateTime
  machinesCount : Int32
  metadata : J.Value
  created : J.DateTime
  updated : J.DateTime

structure LicenseResource (J : SerdeJson) where
  id : J.Uuid
  resourceType : String
  attributes : LicenseAttributes J

inductive HeartbeatStatus where
  | notStarted
  | alive
  | dead
  | resurrected
  | unknown (wire : String)
  deriving DecidableEq

structure MachineAttributes (J : SerdeJson) where
  fingerprint : String
  cores : Option Int32
  memory : Option Int64
  disk : Option Int64
  ip : Option String
  hostname : Option String
  platform : Option String
  name : Option String
  heartbeatStatus : HeartbeatStatus
  lastHeartbeatAt : Option J.DateTime
  nextHeartbeatAt : Option J.DateTime
  lastCheckOutAt : Option J.DateTime
  metadata : J.Value
  created : J.DateTime
  updated : J.DateTime

structure MachineResource (J : SerdeJson) where
  id : J.Uuid
  resourceType : String
  attributes : MachineAttributes J

/-- `checkout::license_file::LicenseFileClaims`, which is also the
`MachineFileClaims` of `checkout::machine_file`. -/
structure LicenseFileClaims where
  iat : Int64
  exp : Option Int64
  jti : String
  kid : String
  deriving DecidableEq

/-- What `enc` decodes or decrypts to: `DataPayload` of either file module. -/
structure DataPayload (R : Type) where
  data : R
  «meta» : LicenseFileClaims

section Deserialize

variable (J)

def uuid : Deserialize J.Uuid := parsed J.parseUuid

def dateTime : Deserialize J.DateTime := parsed J.parseDateTime

def value : Deserialize J.Value := custom J.readValue

def licenseAttributes : Deserialize (LicenseAttributes J) :=
  struct <| (Fields.done (@LicenseAttributes.mk J))
    |>.field "name" (option string)
    |>.field "key" (option string)
    |>.field "status" string
    |>.field "expiry" (option (dateTime J))
    |>.field "suspended" bool
    |>.field "protected" bool
    |>.field "scheme" (option string)
    |>.field "encrypted" bool
    |>.field "strict" bool
    |>.field "floating" bool
    |>.field "max_machines" (option i32)
    |>.field "max_users" (option i32)
    |>.field "last_validated_at" (option (dateTime J))
    |>.field "last_check_in_at" (option (dateTime J))
    |>.field "last_check_out_at" (option (dateTime J))
    |>.field "machines_count" i32
    |>.field "metadata" (value J)
    |>.field "created" (dateTime J)
    |>.field "updated" (dateTime J)

def licenseResource : Deserialize (LicenseResource J) :=
  struct <| (Fields.done (@LicenseResource.mk J))
    |>.field "id" (uuid J)
    |>.field "type" string
    |>.field "attributes" (licenseAttributes J)

def heartbeatStatus : Deserialize HeartbeatStatus :=
  parsed fun wire => some <|
    match wire with
    | "NOT_STARTED" => .notStarted
    | "ALIVE" => .alive
    | "DEAD" => .dead
    | "RESURRECTED" => .resurrected
    | other => .unknown other

def machineAttributes : Deserialize (MachineAttributes J) :=
  struct <| (Fields.done (@MachineAttributes.mk J))
    |>.field "fingerprint" string
    |>.field "cores" (option i32)
    |>.field "memory" (option i64)
    |>.field "disk" (option i64)
    |>.field "ip" (option string)
    |>.field "hostname" (option string)
    |>.field "platform" (option string)
    |>.field "name" (option string)
    |>.field "heartbeat_status" heartbeatStatus
    |>.field "last_heartbeat_at" (option (dateTime J))
    |>.field "next_heartbeat_at" (option (dateTime J))
    |>.field "last_check_out_at" (option (dateTime J))
    |>.field "metadata" (value J)
    |>.field "created" (dateTime J)
    |>.field "updated" (dateTime J)

def machineResource : Deserialize (MachineResource J) :=
  struct <| (Fields.done (@MachineResource.mk J))
    |>.field "id" (uuid J)
    |>.field "type" string
    |>.field "attributes" (machineAttributes J)

def licenseFileClaims : Deserialize LicenseFileClaims :=
  struct <| (Fields.done LicenseFileClaims.mk)
    |>.field "iat" i64
    |>.fieldDefault "exp" (option i64) none
    |>.field "jti" string
    |>.field "kid" string

def dataPayload {R : Type} (resource : Deserialize R) : Deserialize (DataPayload R) :=
  struct <| (Fields.done DataPayload.mk)
    |>.field "data" resource
    |>.field "meta" licenseFileClaims

end Deserialize

section Serialize

def textJson (s : String) : Json := .string (some s)

def i64Json (i : Int64) : Json := .number (.ofInt i.toInt)

def i32Json (i : Int32) : Json := .number (.ofInt i.toInt)

def dateTimeJson (t : J.DateTime) : Json := textJson (J.printDateTime t)

def optionJson {α : Type} (toJson : α → Json) : Option α → Json
  | none => .null
  | some a => toJson a

def objectJson (members : List (String × Json)) : Json :=
  .object (members.map fun member => (some member.1, member.2))

def LicenseAttributes.toJson (a : LicenseAttributes J) : Json :=
  objectJson [
    ("name", optionJson textJson a.name),
    ("key", optionJson textJson a.key),
    ("status", textJson a.status),
    ("expiry", optionJson dateTimeJson a.expiry),
    ("suspended", .bool a.suspended),
    ("protected", .bool a.protected),
    ("scheme", optionJson textJson a.scheme),
    ("encrypted", .bool a.encrypted),
    ("strict", .bool a.strict),
    ("floating", .bool a.floating),
    ("max_machines", optionJson i32Json a.maxMachines),
    ("max_users", optionJson i32Json a.maxUsers),
    ("last_validated_at", optionJson dateTimeJson a.lastValidatedAt),
    ("last_check_in_at", optionJson dateTimeJson a.lastCheckInAt),
    ("last_check_out_at", optionJson dateTimeJson a.lastCheckOutAt),
    ("machines_count", i32Json a.machinesCount),
    ("metadata", J.printValue a.metadata),
    ("created", dateTimeJson a.created),
    ("updated", dateTimeJson a.updated)]

def LicenseResource.toJson (r : LicenseResource J) : Json :=
  objectJson [
    ("id", textJson (J.printUuid r.id)),
    ("type", textJson r.resourceType),
    ("attributes", r.attributes.toJson)]

def HeartbeatStatus.wire : HeartbeatStatus → String
  | .notStarted => "NOT_STARTED"
  | .alive => "ALIVE"
  | .dead => "DEAD"
  | .resurrected => "RESURRECTED"
  | .unknown wire => wire

def MachineAttributes.toJson (a : MachineAttributes J) : Json :=
  objectJson [
    ("fingerprint", textJson a.fingerprint),
    ("cores", optionJson i32Json a.cores),
    ("memory", optionJson i64Json a.memory),
    ("disk", optionJson i64Json a.disk),
    ("ip", optionJson textJson a.ip),
    ("hostname", optionJson textJson a.hostname),
    ("platform", optionJson textJson a.platform),
    ("name", optionJson textJson a.name),
    ("heartbeat_status", textJson a.heartbeatStatus.wire),
    ("last_heartbeat_at", optionJson dateTimeJson a.lastHeartbeatAt),
    ("next_heartbeat_at", optionJson dateTimeJson a.nextHeartbeatAt),
    ("last_check_out_at", optionJson dateTimeJson a.lastCheckOutAt),
    ("metadata", J.printValue a.metadata),
    ("created", dateTimeJson a.created),
    ("updated", dateTimeJson a.updated)]

def MachineResource.toJson (r : MachineResource J) : Json :=
  objectJson [
    ("id", textJson (J.printUuid r.id)),
    ("type", textJson r.resourceType),
    ("attributes", r.attributes.toJson)]

end Serialize

end Tamga.Models
