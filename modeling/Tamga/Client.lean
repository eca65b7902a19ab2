import Tamga.ApiErrors
import Tamga.Library.Interaction

namespace Tamga

open Library.Prelude
open Library.Text
open Library.Serde
open Library.Interaction
open Tamga.Dependencies
open Tamga.Models
open Tamga.ApiModels
open Tamga.ApiErrors
open Tamga.Transport

/-- A client with the crates under it; the process id feeds the jitter. -/
structure Client where
  json : SerdeJson
  reqwest : Reqwest
  maxRetries : UInt32
  processId : UInt32

inductive Op where
  | send (request : Request)
  | sleep (duration : Duration)

abbrev Reply (R : Reqwest) : Op → Type
  | .send _ => Except R.Error Response
  | .sleep _ => Unit

structure CreateMachineOptions (J : SerdeJson) where
  name : Option String
  ip : Option String
  hostname : Option String
  platform : Option String
  cores : Option Int32
  memory : Option Int64
  disk : Option Int64
  metadata : Option J.Value

structure UpdateMachineOptions (J : SerdeJson) where
  name : Option String
  ip : Option String
  hostname : Option String
  platform : Option String
  cores : Option Int32
  memory : Option Int64
  disk : Option Int64
  metadata : Option J.Value

structure ListMachinesOptions (J : SerdeJson) where
  licenseId : Option J.Uuid
  platform : Option String
  search : Option String
  pageNumber : Option Int64
  pageSize : Option Int64

structure MachineActivation (J : SerdeJson) where
  machine : Option (MachineResource J)
  validation : ValidationResult J
  reused : Bool

namespace Client

def maxOffsetPageSize : Int64 := 100

def maxEntitlementsPageSize : UInt32 := 100

abbrev Error (cl : Client) := TamgaError cl.json cl.reqwest

abbrev Exchange (cl : Client) := Event Op (Reply cl.reqwest)

abbrev Io (cl : Client) (α : Type) := Prog Op (Reply cl.reqwest) α

abbrev Call (cl : Client) (α : Type) := cl.Io (Except cl.Error α)

section Retry

def retryableSuffixes : List String := [
  "/actions/validate",
  "/actions/validate-key",
  "/actions/check-in",
  "/actions/check-out",
  "/actions/ping",
  "/actions/ping-heartbeat",
  "/actions/reset-heartbeat"]

def isRetryable (method : Method) (path : String) : Bool :=
  if method = .get then true
  else method = .post && retryableSuffixes.any fun suffix => endsWith path suffix

variable (cl : Client)

def retryDelay (attempt : UInt32) (retryAfter : Option UInt64) : Duration :=
  match retryAfter with
  | some secs => .fromSecs (min secs 60)
  | none =>
      let base : UInt64 := 1 <<< (min attempt 5).toUInt64
      let jitter := jitterMillis cl.processId attempt
      .fromMillis (base * 1000 + jitter)

/-- `RequestBuilder::send`: one operation, with the redirects that `reqwest` follows
inside it. -/
def send (request : Request) : cl.Call Response :=
  .ask (.send request) fun reply => .ret (reply.mapError .http)

/-- The loop of `send_with_retry`.  A body here is never a stream, so the
request can always be cloned. -/
def sendFrom (request : Request) (attempt : UInt32) : cl.Call Response :=
  (cl.send request).andThen fun response =>
    if h : response.status ≠ tooManyRequests ∨ isRetryable request.method request.path = false ∨
        attempt ≥ cl.maxRetries then
      .ret (.ok response)
    else
      .ask (.sleep (cl.retryDelay attempt (parseRetryAfter response))) fun _ =>
        sendFrom request (attempt + 1)
termination_by cl.maxRetries.toNat - attempt.toNat
decreasing_by
  simp only [not_or, ge_iff_le, UInt32.not_le, UInt32.lt_iff_toNat_lt] at h
  have hmax := cl.maxRetries.toNat_lt
  rw [UInt32.toNat_add]
  simp only [UInt32.toNat_one]
  omega

def sendWithRetry (request : Request) : cl.Call Response := cl.sendFrom request 0

end Retry

section Reading

variable (cl : Client)

/-- A response of a call that wants a body. -/
def read {α : Type} (target : String) (inner : Deserialize α) (response : Response) :
    Except cl.Error α :=
  if response.isSuccess then decodeBody cl.json cl.reqwest target inner response.body
  else .error (apiError cl.json cl.reqwest response)

/-- A response of a call that wants none. -/
def readEmpty (response : Response) : Except cl.Error Unit :=
  if response.isSuccess then .ok () else .error (apiError cl.json cl.reqwest response)

def envelope {α : Type} (data : Deserialize α) : Deserialize α :=
  struct <| (Fields.done id) |>.field "data" data

def envelopeWithMeta {α μ : Type} (data : Deserialize α) («meta» : Deserialize μ) :
    Deserialize (α × μ) :=
  struct <| (Fields.done Prod.mk) |>.field "data" data |>.field "meta" «meta»

def pageMetaEnvelope : Deserialize OffsetPageMeta :=
  struct <| (Fields.done id) |>.field "page" offsetPageMeta

def pageEnvelope {α : Type} (item : Deserialize α) : Deserialize (OffsetPage α) :=
  struct <| (Fields.done OffsetPage.mk) |>.field "data" (vec item)
    |>.field "meta" pageMetaEnvelope

end Reading

section Requests

variable (cl : Client)

def sendJsonApi {α : Type} (target : String) (inner : Deserialize α) (method : Method)
    (path : String) (body : Option Json) (otp : Option String) : cl.Call α :=
  (cl.sendWithRetry ⟨method, path, [], otp, body⟩).andThen fun response =>
    .ret (cl.read target (envelope inner) response)

def sendJsonApiWithMeta {α μ : Type} (target : String) (inner : Deserialize α)
    («meta» : Deserialize μ) (method : Method) (path : String) (body : Option Json)
    (otp : Option String) : cl.Call (α × μ) :=
  (cl.sendWithRetry ⟨method, path, [], otp, body⟩).andThen fun response =>
    .ret (cl.read target (envelopeWithMeta inner «meta») response)

end Requests

section Licenses

variable (cl : Client)

def uuidJson (id : cl.json.Uuid) : Json := textJson (cl.json.printUuid id)

def metadataJson (metadata : Option cl.json.Value) : Json :=
  match metadata with
  | some value => cl.json.printValue value
  | none => objectJson []

def validateByKey (key : String) (otp : Option String) : cl.Call (ValidationResult cl.json) :=
  (cl.sendJsonApiWithMeta "LicenseResource" (licenseResource cl.json)
    (validationMeta cl.json) .post "/licenses/actions/validate-key"
    (some (objectJson [("key", textJson key)])) otp).andThen fun response =>
      .ret (.ok ⟨response.1, response.2⟩)

def validateBody (scope : Option (ScopeObject cl.json)) (skipTouch : Bool) : Json :=
  objectJson [("meta", objectJson <|
    ("skip_touch", .bool skipTouch) ::
      scope.toList.map fun scope => ("scope", scope.toJson))]

def validateById (licenseId : cl.json.Uuid) (scope : Option (ScopeObject cl.json))
    (skipTouch : Bool) (otp : Option String) : cl.Call (ValidationResult cl.json) :=
  (cl.sendJsonApiWithMeta "LicenseResource" (licenseResource cl.json)
    (validationMeta cl.json) .post
    ("/licenses/" ++ cl.json.printUuid licenseId ++ "/actions/validate")
    (some (cl.validateBody scope skipTouch)) otp).andThen fun response =>
      .ret (.ok ⟨response.1, response.2⟩)

def checkIn (licenseId : cl.json.Uuid) : cl.Call (LicenseResource cl.json) :=
  cl.sendJsonApi "LicenseResource" (licenseResource cl.json) .post
    ("/licenses/" ++ cl.json.printUuid licenseId ++ "/actions/check-in") none none

end Licenses

section Machines

variable (cl : Client)

def createMachineBody (licenseId : cl.json.Uuid) (fingerprint : String)
    (opts : CreateMachineOptions cl.json) : Json :=
  objectJson [("data", objectJson [
    ("type", textJson "machines"),
    ("attributes", objectJson [
      ("fingerprint", textJson fingerprint),
      ("name", optionJson textJson opts.name),
      ("ip", optionJson textJson opts.ip),
      ("hostname", optionJson textJson opts.hostname),
      ("platform", optionJson textJson opts.platform),
      ("cores", optionJson i32Json opts.cores),
      ("memory", optionJson i64Json opts.memory),
      ("disk", optionJson i64Json opts.disk),
      ("metadata", cl.metadataJson opts.metadata)]),
    ("relationships", objectJson [
      ("license", objectJson [("data", objectJson [
        ("type", textJson "licenses"),
        ("id", cl.uuidJson licenseId)])])])])]

def createMachine (licenseId : cl.json.Uuid) (fingerprint : String)
    (opts : CreateMachineOptions cl.json) : cl.Call (MachineResource cl.json) :=
  cl.sendJsonApi "MachineResource" (machineResource cl.json) .post "/machines"
    (some (cl.createMachineBody licenseId fingerprint opts)) none

def pingHeartbeat (machineId : cl.json.Uuid) : cl.Call (MachineResource cl.json) :=
  cl.sendJsonApi "MachineResource" (machineResource cl.json) .post
    ("/machines/" ++ cl.json.printUuid machineId ++ "/actions/ping-heartbeat") none none

def resetHeartbeat (machineId : cl.json.Uuid) : cl.Call (MachineResource cl.json) :=
  cl.sendJsonApi "MachineResource" (machineResource cl.json) .post
    ("/machines/" ++ cl.json.printUuid machineId ++ "/actions/reset-heartbeat") none none

def deleteMachineRequest (machineId : cl.json.Uuid) : Request :=
  ⟨.delete, "/machines/" ++ cl.json.printUuid machineId, [], none, none⟩

/-- Sent once, whatever the answer. -/
def deleteMachine (machineId : cl.json.Uuid) : cl.Call Unit :=
  (cl.send (cl.deleteMachineRequest machineId)).andThen fun response =>
    .ret (cl.readEmpty response)

def proofMeta : Deserialize String :=
  struct <| (Fields.done id) |>.field "proof" string

def generateOfflineProof (machineId : cl.json.Uuid) (dataset : Option cl.json.Value) :
    cl.Call (MachineResource cl.json × String) :=
  cl.sendJsonApiWithMeta "MachineResource" (machineResource cl.json) proofMeta .post
    ("/machines/" ++ cl.json.printUuid machineId ++ "/actions/generate-offline-proof")
    (some (objectJson [("meta", objectJson [("dataset", cl.metadataJson dataset)])])) none

def createComponent (machineId : cl.json.Uuid) (fingerprint name : String)
    (metadata : Option cl.json.Value) : cl.Call (ComponentResource cl.json) :=
  cl.sendJsonApi "ComponentResource" (componentResource cl.json) .post "/components"
    (some (objectJson [
      ("machine_id", cl.uuidJson machineId),
      ("fingerprint", textJson fingerprint),
      ("name", textJson name),
      ("metadata", cl.metadataJson metadata)])) none

def updateMachine (machineId : cl.json.Uuid) (opts : UpdateMachineOptions cl.json) :
    cl.Call (MachineResource cl.json) :=
  cl.sendJsonApi "MachineResource" (machineResource cl.json) .patch
    ("/machines/" ++ cl.json.printUuid machineId)
    (some (objectJson [("data", objectJson [
      ("type", textJson "machines"),
      ("attributes", objectJson [
        ("name", optionJson textJson opts.name),
        ("ip", optionJson textJson opts.ip),
        ("hostname", optionJson textJson opts.hostname),
        ("platform", optionJson textJson opts.platform),
        ("cores", optionJson i32Json opts.cores),
        ("memory", optionJson i64Json opts.memory),
        ("disk", optionJson i64Json opts.disk),
        ("metadata", optionJson cl.json.printValue opts.metadata)])])])) none

def listMachinesRequest (opts : ListMachinesOptions cl.json) : Request where
  method := .get
  path := "/machines"
  query :=
    (opts.licenseId.toList.map fun id => ("filter[license]", cl.json.printUuid id)) ++
      (opts.platform.toList.map fun platform => ("filter[platform]", platform)) ++
      (opts.search.toList.map fun search => ("filter[q]", search)) ++
      (opts.pageNumber.toList.map fun number => ("page[number]", toString number.toInt)) ++
      (opts.pageSize.toList.map fun size => ("page[size]", toString size.toInt))
  otp := none
  body := none

def readMachinePage (response : Response) :
    Except cl.Error (OffsetPage (MachineResource cl.json)) :=
  cl.read "PageEnvelope" (pageEnvelope (machineResource cl.json)) response

def listMachines (opts : ListMachinesOptions cl.json) :
    cl.Call (OffsetPage (MachineResource cl.json)) :=
  (cl.sendWithRetry (cl.listMachinesRequest opts)).andThen fun response =>
    .ret (cl.readMachinePage response)

def searchPage (licenseId : cl.json.Uuid) (fingerprint : String) (pageNumber : Int64) :
    ListMachinesOptions cl.json where
  licenseId := some licenseId
  platform := none
  search := some fingerprint
  pageNumber := some pageNumber
  pageSize := some maxOffsetPageSize

/-- The loop of `find_machine_by_fingerprint`, for at most so many pages. -/
def findFrom (licenseId : cl.json.Uuid) (fingerprint : String) :
    Nat → Int64 → cl.Call (Option (MachineResource cl.json))
  | 0, _ => .stop
  | pages + 1, pageNumber =>
      (cl.listMachines (cl.searchPage licenseId fingerprint pageNumber)).andThen fun page =>
        match page.items.find? fun machine => machine.attributes.fingerprint == fingerprint with
        | some found => .ret (.ok (some found))
        | none =>
            match page.nextPageNumber with
            | some next => findFrom licenseId fingerprint pages next
            | none => .ret (.ok none)

def findMachineByFingerprint (pages : Nat) (licenseId : cl.json.Uuid) (fingerprint : String) :
    cl.Call (Option (MachineResource cl.json)) :=
  cl.findFrom licenseId fingerprint pages 1

end Machines

section Processes

variable (cl : Client)

/-- `pid` is a `Pid`, which is written as its string. -/
def createProcess (machineId : cl.json.Uuid) (pid : String)
    (metadata : Option cl.json.Value) : cl.Call (ProcessResource cl.json) :=
  cl.sendJsonApi "ProcessResource" (processResource cl.json) .post "/processes"
    (some (objectJson [
      ("machine_id", cl.uuidJson machineId),
      ("pid", textJson pid),
      ("metadata", cl.metadataJson metadata)])) none

def pingProcess (processId : cl.json.Uuid) : cl.Call (ProcessResource cl.json) :=
  cl.sendJsonApi "ProcessResource" (processResource cl.json) .post
    ("/processes/" ++ cl.json.printUuid processId ++ "/actions/ping") none none

def listProcessesRequest (machineId : cl.json.Uuid) (limit : Option UInt32)
    (after : Option cl.json.Uuid) : Request where
  method := .get
  path := "/machines/" ++ cl.json.printUuid machineId ++ "/processes"
  query :=
    (limit.toList.map fun limit => ("limit", toString limit.toNat)) ++
      (after.toList.map fun after => ("page[after]", cl.json.printUuid after))
  otp := none
  body := none

def readProcesses (response : Response) : Except cl.Error (List (ProcessResource cl.json)) :=
  cl.read "Envelope" (envelope (vec (processResource cl.json))) response

def listMachineProcesses (machineId : cl.json.Uuid) (limit : Option UInt32)
    (after : Option cl.json.Uuid) : cl.Call (List (ProcessResource cl.json)) :=
  (cl.sendWithRetry (cl.listProcessesRequest machineId limit after)).andThen fun response =>
    .ret (cl.readProcesses response)

def deleteProcessRequest (processId : cl.json.Uuid) : Request :=
  ⟨.delete, "/processes/" ++ cl.json.printUuid processId, [], none, none⟩

def deleteProcess (processId : cl.json.Uuid) : cl.Call Unit :=
  (cl.send (cl.deleteProcessRequest processId)).andThen fun response =>
    .ret (cl.readEmpty response)

/-- The inner loop of `delete_machine_processes`, over one batch. -/
def deleteBatch : List (ProcessResource cl.json) → Nat → cl.Call Nat
  | [], deleted => .ret (.ok deleted)
  | process :: batch, deleted =>
      (cl.deleteProcess process.id).bind fun
        | .ok () => deleteBatch batch (deleted + 1)
        | .error err => if err.isNotFound then deleteBatch batch deleted else .ret (.error err)

/-- The outer loop of `delete_machine_processes`, for at most so many batches. -/
def deleteFrom (machineId : cl.json.Uuid) : Nat → Nat → cl.Call Nat
  | 0, _ => .stop
  | batches + 1, deleted =>
      (cl.listMachineProcesses machineId (some maxEntitlementsPageSize) none).andThen fun batch =>
        if batch.isEmpty then .ret (.ok deleted)
        else (cl.deleteBatch batch deleted).andThen fun deleted =>
          deleteFrom machineId batches deleted

def deleteMachineProcesses (batches : Nat) (machineId : cl.json.Uuid) : cl.Call Nat :=
  cl.deleteFrom machineId batches 0

end Processes

section Entitlements

variable (cl : Client)

def entitlementPath (licenseId entitlementId : cl.json.Uuid) (action : String) : String :=
  "/licenses/" ++ cl.json.printUuid licenseId ++ "/entitlements/" ++
    cl.json.printUuid entitlementId ++ "/actions/" ++ action

def meterAction (licenseId entitlementId : cl.json.Uuid) (action : String)
    (body : Option Json) : cl.Call (LicenseEntitlement cl.json) :=
  cl.sendJsonApi "LicenseEntitlement" (licenseEntitlement cl.json) .post
    (cl.entitlementPath licenseId entitlementId action) body none

def incrementEntitlementUsage (licenseId entitlementId : cl.json.Uuid)
    (increment : Option Int64) : cl.Call (LicenseEntitlement cl.json) :=
  cl.meterAction licenseId entitlementId "increment"
    (increment.map fun increment => objectJson [("increment", i64Json increment)])

def decrementEntitlementUsage (licenseId entitlementId : cl.json.Uuid)
    (decrement : Option Int64) : cl.Call (LicenseEntitlement cl.json) :=
  cl.meterAction licenseId entitlementId "decrement"
    (decrement.map fun decrement => objectJson [("decrement", i64Json decrement)])

def resetEntitlementUsage (licenseId entitlementId : cl.json.Uuid) :
    cl.Call (LicenseEntitlement cl.json) :=
  cl.meterAction licenseId entitlementId "reset" none

end Entitlements

section Activation

variable (cl : Client)

def isOverageCode : ValidationCode → Bool
  | .tooManyMachines
  | .tooManyCores
  | .tooMuchMemory
  | .tooMuchDisk
  | .tooManyProcesses => true
  | _ => false

theorem isOverageCode_iff {code : ValidationCode} : isOverageCode code = true ↔
    code = .tooManyMachines ∨ code = .tooManyCores ∨ code = .tooMuchMemory ∨
      code = .tooMuchDisk ∨ code = .tooManyProcesses := by
  cases code <;> simp [isOverageCode]

def overLimitResultWithoutMachine (licenseId : cl.json.Uuid)
    (scope : Option (ScopeObject cl.json)) (limit : LimitExceededCode)
    (createErr : cl.Error) : cl.Call (ValidationResult cl.json) :=
  let detail := (createErr.jsonApiError.map (·.detail)).getD ""
  (cl.validateById licenseId scope true none).bind fun
    | .ok probe =>
        .ret (.ok {
          license := probe.license
          «meta» := {
            ts := probe.meta.ts
            valid := false
            detail := detail
            code := limit.asValidationCode } })
    | .error _ => .ret (.error createErr)

def activateMachine (licenseId : cl.json.Uuid) (fingerprint : String)
    (opts : CreateMachineOptions cl.json) (scope : Option (ScopeObject cl.json))
    (autoDeleteOnOverage : Bool) : cl.Call (ValidationResult cl.json) :=
  (cl.createMachine licenseId fingerprint opts).bind fun
    | .ok machine =>
        (cl.validateById licenseId scope false none).bind fun result =>
          if autoDeleteOnOverage then
            let isOverage :=
              match result with
              | .ok r => isOverageCode r.meta.code
              | .error _ => false
            if isOverage then (cl.deleteMachine machine.id).bind fun _ => .ret result
            else .ret result
          else .ret result
    | .error err =>
        match err.limitExceeded with
        | some limit => cl.overLimitResultWithoutMachine licenseId scope limit err
        | none => .ret (.error err)

/-- What `activate_machine_idempotent` does once it has a machine. -/
def finishActivation (licenseId : cl.json.Uuid) (scope : Option (ScopeObject cl.json))
    (autoDeleteOnOverage : Bool) (machine : Option (MachineResource cl.json))
    (reused : Bool) : cl.Call (MachineActivation cl.json) :=
  (cl.validateById licenseId scope false none).andThen fun validation =>
    let rolledBack := autoDeleteOnOverage && !reused && isOverageCode validation.meta.code
    let activation : MachineActivation cl.json :=
      ⟨if rolledBack then none else machine, validation, reused⟩
    if rolledBack then
      match machine with
      | some created => (cl.deleteMachine created.id).bind fun _ => .ret (.ok activation)
      | none => .ret (.ok activation)
    else .ret (.ok activation)

def activateMachineIdempotent (pages : Nat) (licenseId : cl.json.Uuid)
    (fingerprint : String) (opts : CreateMachineOptions cl.json)
    (scope : Option (ScopeObject cl.json)) (autoDeleteOnOverage : Bool) :
    cl.Call (MachineActivation cl.json) :=
  (cl.createMachine licenseId fingerprint opts).bind fun
    | .ok machine => cl.finishActivation licenseId scope autoDeleteOnOverage (some machine) false
    | .error err =>
        if err.isFingerprintTaken then
          (cl.findMachineByFingerprint pages licenseId fingerprint).andThen fun
            | some existing =>
                cl.finishActivation licenseId scope autoDeleteOnOverage (some existing) true
            | none => .ret (.error err)
        else
          match err.limitExceeded with
          | some limit =>
              (cl.overLimitResultWithoutMachine licenseId scope limit err).andThen
                fun validation => .ret (.ok ⟨none, validation, false⟩)
          | none => .ret (.error err)

end Activation

end Client

end Tamga
