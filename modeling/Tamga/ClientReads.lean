import Tamga.Policies
import Tamga.ServerResponses
import Tamga.SigningKeys

namespace Tamga

open Library.Interaction
open Library.Interaction.Prog
open Library.Serde
open Tamga.ApiModels
open Tamga.Dependencies
open Tamga.KeySet
open Tamga.Models
open Tamga.Policies
open Tamga.SigningKeys
open Tamga.Transport

structure EntitlementAttributes (J : SerdeJson) where
  name : String
  code : String
  kind : EntitlementKind
  metadata : J.Value
  created : J.DateTime
  updated : J.DateTime

structure EntitlementResource (J : SerdeJson) where
  id : J.Uuid
  resourceType : String
  attributes : EntitlementAttributes J

structure ReleaseAttributes (J : SerdeJson) where
  productId : J.Uuid
  name : Option String
  version : String
  channel : String
  status : String
  tag : Option String
  metadata : J.Value
  created : J.DateTime
  updated : J.DateTime

structure ReleaseResource (J : SerdeJson) where
  id : J.Uuid
  resourceType : String
  attributes : ReleaseAttributes J

structure HealthStatus where
  status : String
  version : String
  uptimeSecs : UInt64

structure UpgradeQuery (J : SerdeJson) where
  productId : J.Uuid
  platform : String
  filetype : String
  version : String
  channel : Option String
  «constraint» : Option String

inductive UpgradeCheck (J : SerdeJson) where
  | available (release : ReleaseResource J)
  | noUpdateOffered

section Deserialize

variable (J : SerdeJson)

def entitlementAttributes : Deserialize (EntitlementAttributes J) :=
  struct <| (Fields.done (@EntitlementAttributes.mk J))
    |>.field "name" string
    |>.field "code" string
    |>.field "kind" entitlementKind
    |>.field "metadata" (value J)
    |>.field "created" (dateTime J)
    |>.field "updated" (dateTime J)

def entitlementResource : Deserialize (EntitlementResource J) :=
  struct <| (Fields.done (@EntitlementResource.mk J))
    |>.field "id" (uuid J)
    |>.field "type" string
    |>.field "attributes" (entitlementAttributes J)

def releaseAttributes : Deserialize (ReleaseAttributes J) :=
  struct <| (Fields.done (@ReleaseAttributes.mk J))
    |>.field "productId" (uuid J)
    |>.field "name" (option string)
    |>.field "version" string
    |>.field "channel" string
    |>.field "status" string
    |>.fieldDefault "tag" (option string) none
    |>.field "metadata" (value J)
    |>.field "created" (dateTime J)
    |>.field "updated" (dateTime J)

def releaseResource : Deserialize (ReleaseResource J) :=
  struct <| (Fields.done (@ReleaseResource.mk J))
    |>.field "id" (uuid J)
    |>.field "type" string
    |>.field "attributes" (releaseAttributes J)

def signingKeyAttributes : Deserialize (SigningKeyAttributes J) :=
  struct <| (Fields.done (@SigningKeyAttributes.mk J))
    |>.field "algorithm" string
    |>.field "publicKey" string
    |>.field "status" string
    |>.field "created" (dateTime J)
    |>.fieldDefault "retired" (option (dateTime J)) none

def signingKeyResource : Deserialize (SigningKeyResource J) :=
  struct <| (Fields.done (@SigningKeyResource.mk J))
    |>.field "id" string
    |>.field "type" string
    |>.field "attributes" (signingKeyAttributes J)

def u64 : Deserialize UInt64 :=
  integer 0 18446744073709551615 fun i => .ofNat i.toNat

def healthStatus : Deserialize HealthStatus :=
  struct <| (Fields.done HealthStatus.mk)
    |>.field "status" string
    |>.field "version" string
    |>.field "uptime_secs" u64

end Deserialize

/-- What the liveness probe asks for: the operations of the client, but of the origin
rather than of the account, and without its credential. -/
inductive ProbeOp where
  | origin (op : Op)

abbrev ProbeReply (R : Reqwest) : ProbeOp → Type
  | .origin op => Reply R op

namespace Client

variable (cl : Client)

section Requests

def sendFlat {α : Type} (target : String) (inner : Deserialize α) (method : Method)
    (path : String) (otp : Option String) : cl.Call α :=
  (cl.sendWithRetry ⟨method, path, [], otp, none⟩).andThen fun response =>
    .ret (cl.read target inner response)

/-- The listings that take a `limit` and a cursor. -/
def listingRequest (path : String) (limit : Option UInt32) (after : Option cl.json.Uuid) :
    Request where
  method := .get
  path := path
  query :=
    (limit.toList.map fun limit => ("limit", toString limit.toNat)) ++
      (after.toList.map fun after => ("page[after]", cl.json.printUuid after))
  otp := none
  body := none

def listing {α : Type} (item : Deserialize α) (path : String) (limit : Option UInt32)
    (after : Option cl.json.Uuid) : cl.Call (List α) :=
  (cl.sendWithRetry (cl.listingRequest path limit after)).andThen fun response =>
    .ret (cl.read "Envelope" (envelope (vec item)) response)

end Requests

section Licenses

def quickValidate (licenseId : cl.json.Uuid) (otp : Option String) :
    cl.Call (ValidationMeta cl.json) :=
  cl.sendFlat "ValidationMeta" (validationMeta cl.json) .get
    ("/licenses/" ++ cl.json.printUuid licenseId ++ "/actions/validate") otp

def getLicense (licenseId : cl.json.Uuid) : cl.Call (LicenseResource cl.json) :=
  cl.sendJsonApi "LicenseResource" (licenseResource cl.json) .get
    ("/licenses/" ++ cl.json.printUuid licenseId) none none

def getLicensePolicy (licenseId : cl.json.Uuid) : cl.Call (Policy cl.json) :=
  cl.sendJsonApi "Policy" (policy cl.json) .get
    ("/licenses/" ++ cl.json.printUuid licenseId ++ "/policy") none none

def getPolicy (policyId : cl.json.Uuid) : cl.Call (Policy cl.json) :=
  cl.sendJsonApi "Policy" (policy cl.json) .get
    ("/policies/" ++ cl.json.printUuid policyId) none none

def effectiveHeartbeatWindow (licenseId : cl.json.Uuid) : cl.Call Nanos :=
  (cl.getLicensePolicy licenseId).andThen fun policy =>
    .ret (.ok policy.attributes.effectiveHeartbeatWindow)

def recommendedHeartbeatInterval (licenseId : cl.json.Uuid) : cl.Call Nanos :=
  (cl.getLicensePolicy licenseId).andThen fun policy =>
    .ret (.ok policy.attributes.recommendedHeartbeatInterval)

end Licenses

section Machines

def getMachine (machineId : cl.json.Uuid) : cl.Call (MachineResource cl.json) :=
  cl.sendJsonApi "MachineResource" (machineResource cl.json) .get
    ("/machines/" ++ cl.json.printUuid machineId) none none

def listComponents (machineId : cl.json.Uuid) (limit : Option UInt32)
    (after : Option cl.json.Uuid) : cl.Call (List (ComponentResource cl.json)) :=
  cl.listing (componentResource cl.json)
    ("/machines/" ++ cl.json.printUuid machineId ++ "/components") limit after

end Machines

section Entitlements

def entitlementsPath (licenseId : cl.json.Uuid) : String :=
  "/licenses/" ++ cl.json.printUuid licenseId ++ "/entitlements"

def listEntitlements (licenseId : cl.json.Uuid) (limit : Option UInt32)
    (after : Option cl.json.Uuid) : cl.Call (List (EntitlementResource cl.json)) :=
  cl.listing (entitlementResource cl.json) (cl.entitlementsPath licenseId) limit after

/-- The same request, which takes no cursor here. -/
def listLicenseEntitlements (licenseId : cl.json.Uuid) (limit : Option UInt32) :
    cl.Call (List (LicenseEntitlement cl.json)) :=
  cl.listing (licenseEntitlement cl.json) (cl.entitlementsPath licenseId) limit none

def getEntitlement (licenseId entitlementId : cl.json.Uuid) :
    cl.Call (EntitlementResource cl.json) :=
  cl.sendJsonApi "EntitlementResource" (entitlementResource cl.json) .get
    (cl.entitlementsPath licenseId ++ "/" ++ cl.json.printUuid entitlementId) none none

def hasEntitlement (licenseId : cl.json.Uuid) (code : String) (limit : Option UInt32) :
    cl.Call Bool :=
  (cl.listEntitlements licenseId (some (limit.getD maxEntitlementsPageSize)) none).andThen
    fun entitlements =>
      .ret (.ok (entitlements.any fun e => e.attributes.code == code))

end Entitlements

section Releases

def upgradeRequest (query : UpgradeQuery cl.json) : Request where
  method := .get
  path := "/releases/actions/upgrade"
  query :=
    [("product", cl.json.printUuid query.productId), ("platform", query.platform),
      ("filetype", query.filetype), ("version", query.version)] ++
      (query.channel.toList.map fun channel => ("channel", channel)) ++
      (query.constraint.toList.map fun constr => ("constraint", constr))
  otp := none
  body := none

/-- `204` says that no update is offered, and is looked at before success is. -/
def readUpgrade (response : Response) : Except cl.Error (UpgradeCheck cl.json) :=
  if response.status = 204 then .ok .noUpdateOffered
  else (cl.read "Envelope" (envelope (releaseResource cl.json)) response).map .available

def checkForUpgrade (query : UpgradeQuery cl.json) : cl.Call (UpgradeCheck cl.json) :=
  (cl.sendWithRetry (cl.upgradeRequest query)).andThen fun response =>
    .ret (cl.readUpgrade response)

def listReleaseArtifacts (releaseId : cl.json.Uuid) (limit : Option UInt32)
    (after : Option cl.json.Uuid) : cl.Call (List (ArtifactResource cl.json)) :=
  cl.listing (artifactResource cl.json)
    ("/releases/" ++ cl.json.printUuid releaseId ++ "/artifacts") limit after

def getArtifact (artifactId : cl.json.Uuid) : cl.Call (ArtifactResource cl.json) :=
  (cl.sendWithRetry
    ⟨.get, "/artifacts/" ++ cl.json.printUuid artifactId, [], none, none⟩).andThen
    fun response => .ret (cl.read "Envelope" (envelope (artifactResource cl.json)) response)

end Releases

def health : Prog ProbeOp (ProbeReply cl.reqwest) (Except cl.Error HealthStatus) :=
  ((cl.sendWithRetry ⟨.get, "/v1/health", [], none, none⟩).andThen fun response =>
    .ret (cl.read "HealthStatus" healthStatus response)).lift .origin fun _ reply => reply

section SigningKeys

def listSigningKeys : cl.Call (List (SigningKeyResource cl.json)) :=
  cl.sendJsonApi "Vec<SigningKeyResource>" (vec (signingKeyResource cl.json)) .get
    "/signing-keys" none none

/-- The client over the crates that the offline verifier has. -/
def overCrates (c : Crates) (cl : Client) : Client := { cl with json := c.json }

def signingKeySet (c : Crates) : (overCrates c cl).Call SigningKeySet :=
  (overCrates c cl).listSigningKeys.andThen fun keys => .ret (.ok (fromResources c keys))

end SigningKeys

end Client

namespace ClientReads

open Tamga.RetryBounds

variable {cl : Client}

/-- A call that reads the answer to one request returns what it reads of the last one,
and all before that were throttled. -/
theorem last_answer {α : Type} {request : Request} {read : Response → Except cl.Error α}
    {events : List cl.Exchange} {result : Except cl.Error α}
    (h : Steps ((cl.sendWithRetry request).andThen fun response => .ret (read response)) events
      (.ret result)) :
    ∃ (throttled : List Response) (last : Except cl.reqwest.Error Response),
      outcomes events = throttled.map .ok ++ [last] ∧
        (∀ response ∈ throttled, response.status = tooManyRequests) ∧
          result = (last.mapError .http).bind read := by
  obtain ⟨sent, hsending, hresult⟩ := meets_andThen_ret (meets_sendWithRetry request) events _ h
  cases sent with
  | none => cases hresult
  | some outcome =>
      obtain ⟨throttled, last, houtcomes, hthrottled, rfl⟩ := hsending.returned rfl
      exact ⟨throttled, last, houtcomes, hthrottled, Option.some.inj hresult⟩

/-- What a call returns when it succeeds, it has read from the last answer. -/
theorem read_last {α : Type} {request : Request} {read : Response → Except cl.Error α}
    {events : List cl.Exchange} {value : α}
    (h : Steps ((cl.sendWithRetry request).andThen fun response => .ret (read response)) events
      (.ret (.ok value))) :
    ∃ response, (outcomes events).getLast? = some (.ok response) ∧ read response = .ok value := by
  obtain ⟨throttled, last, houtcomes, -, hresult⟩ := last_answer h
  rw [houtcomes, List.getLast?_concat]
  cases last with
  | error e => cases hresult
  | ok response => exact ⟨response, rfl, hresult.symm⟩

/-- What it has read is an answer to its own request. -/
theorem read_asked {α : Type} {request : Request} {read : Response → Except cl.Error α}
    {events : List cl.Exchange} {value : α}
    (h : Steps ((cl.sendWithRetry request).andThen fun response => .ret (read response)) events
      (.ret (.ok value))) :
    ∃ response, ⟨.send request, .ok response⟩ ∈ events ∧ read response = .ok value := by
  obtain ⟨response, hlast, hread⟩ := read_last h
  obtain ⟨sent, hasked⟩ := mem_of_mem_outcomes (List.mem_of_getLast? hlast)
  have hown : Asks (fun sent => sent = request) (cl.sendWithRetry request) := by
    apply asks_sendWithRetry
    rfl
  obtain rfl := (hown.andThen fun _ => asks_ret _) _ _ h sent (mem_requests hasked)
  exact ⟨response, hasked, hread⟩

end ClientReads

end Tamga
