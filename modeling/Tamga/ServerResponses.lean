import Tamga.ActivationFlow
import Tamga.TableCrates

namespace Tamga.ServerResponses

open Library.Prelude
open Library.Serde
open Library.Interaction
open Library.Interaction.Prog
open Tamga.Dependencies
open Tamga.Models
open Tamga.ApiModels
open Tamga.ApiErrors
open Tamga.PayloadJson
open Tamga.TableCrates
open Tamga.Transport
open Tamga.Client
open Tamga.RetryBounds
open Tamga.ActivationFlow

variable {J : SerdeJson}

section Documents

def machineDocument (machine : MachineResource J) : Json :=
  objectJson [("data", machine.toJson)]

def errorJson (code : String) : Json :=
  objectJson [
    ("id", textJson ""),
    ("status", textJson ""),
    ("code", textJson code),
    ("title", textJson ""),
    ("detail", textJson ""),
    ("source", .null)]

def errorDocument (code : String) : Json :=
  objectJson [("errors", .array [errorJson code])]

/-- `code` is the text of the verdict. -/
def validationDocument (license : LicenseResource J) (ts : J.DateTime) (valid : Bool)
    (code : String) : Json :=
  objectJson [
    ("data", license.toJson),
    ("meta", objectJson [
      ("ts", dateTimeJson ts),
      ("valid", .bool valid),
      ("detail", textJson ""),
      ("code", textJson code)])]

def pageMetaJson (page : OffsetPageMeta) : Json :=
  objectJson [("page", objectJson [
    ("number", i64Json page.number),
    ("size", i64Json page.size),
    ("total", i64Json page.total),
    ("totalPages", i64Json page.totalPages)])]

def pageDocument (page : OffsetPage (MachineResource J)) : Json :=
  objectJson [
    ("data", .array (page.items.map (·.toJson))),
    ("meta", pageMetaJson page.page)]

def processJson (process : ProcessResource J) : Json :=
  objectJson [
    ("id", textJson (J.printUuid process.id)),
    ("type", textJson process.resourceType),
    ("attributes", objectJson [
      ("pid", textJson process.attributes.pid),
      ("machine_id", textJson (J.printUuid process.attributes.machineId)),
      ("last_heartbeat_at", dateTimeJson process.attributes.lastHeartbeatAt),
      ("metadata", J.printValue process.attributes.metadata),
      ("created", dateTimeJson process.attributes.created),
      ("updated", dateTimeJson process.attributes.updated)])]

def processesDocument (processes : List (ProcessResource J)) : Json :=
  objectJson [("data", .array (processes.map processJson))]

end Documents

section Reading

attribute [local simp] struct objectJson Fields.field Fields.fieldDefault Fields.next
  Fields.done readField occurrences

theorem deserialize_vec {α : Type} {inner : Deserialize α} {toJson : α → Json} {items : List α}
    (h : ∀ item ∈ items, inner.deserialize (toJson item) = some item) :
    (vec inner).deserialize (.array (items.map toJson)) = some items := by
  simp only [vec]
  induction items with
  | nil => rfl
  | cons item items ih =>
      rw [List.map_cons, List.mapM_cons, h item List.mem_cons_self,
        ih fun other hmem => h other (List.mem_cons_of_mem item hmem)]
      rfl

theorem deserialize_processResource (h : RoundTrips J) (process : ProcessResource J) :
    (processResource J).deserialize (processJson process) = some process := by
  simp [processResource, processAttributes, processJson, deserialize_uuid h,
    deserialize_dateTime h, deserialize_value h]

theorem deserialize_offsetPageMeta (page : OffsetPageMeta) :
    pageMetaEnvelope.deserialize (pageMetaJson page) = some page := by
  simp [pageMetaEnvelope, offsetPageMeta, pageMetaJson]

theorem deserialize_envelope {α : Type} {inner : Deserialize α} {data : Json} {value : α}
    (h : inner.deserialize data = some value) :
    (envelope inner).deserialize (objectJson [("data", data)]) = some value := by
  simp [envelope, h]

/-- A status of `Unknown` must not spell one of the four known ones. -/
def Readable (machine : MachineResource J) : Prop :=
  heartbeatStatus.deserialize (textJson machine.attributes.heartbeatStatus.wire) =
    some machine.attributes.heartbeatStatus

theorem deserialize_pageEnvelope (h : RoundTrips J) {page : OffsetPage (MachineResource J)}
    (hitems : ∀ machine ∈ page.items, Readable machine) :
    (pageEnvelope (machineResource J)).deserialize (pageDocument page) = some page := by
  have hvec : (vec (machineResource J)).deserialize (.array (page.items.map (·.toJson))) =
      some page.items :=
    deserialize_vec fun machine hmem => deserialize_machineResource h machine (hitems machine hmem)
  simp [pageEnvelope, pageDocument, hvec, deserialize_offsetPageMeta]

variable {cl : Client}

theorem read_of_deserialize {α : Type} {target : String} {inner : Deserialize α} {status : Nat}
    {body : Json} {value : α} (hstatus : 200 ≤ status ∧ status < 300)
    (hread : inner.deserialize body = some value) :
    cl.read target inner ⟨status, [], some body⟩ = .ok value := by
  rw [Client.read, if_pos]
  · simp [decodeBody, okOr, hread, Except.mapError]
  · simpa [Response.isSuccess] using hstatus

/-- A 429 is an error, whatever its body holds. -/
theorem read_throttled {α : Type} {target : String} {inner : Deserialize α} {response : Response}
    (h : response.status = tooManyRequests) :
    cl.read target inner response = .error (.rateLimited (parseRetryAfter response)
      (ResponseInfo.fromHeaders response.headers)) := by
  have hfailed : response.isSuccess = false := by
    rw [Response.isSuccess, h]
    rfl
  rw [Client.read, if_neg (Bool.eq_false_iff.mp hfailed), apiError, if_pos h]

theorem createOutcome_created (h : RoundTrips cl.json) {machine : MachineResource cl.json}
    (hmachine : Readable machine) :
    createOutcome cl (.ok ⟨201, [], some (machineDocument machine)⟩) = .ok machine := by
  change cl.read "MachineResource" _ ⟨201, [], some (machineDocument machine)⟩ = _
  exact read_of_deserialize (by omega)
    (deserialize_envelope (deserialize_machineResource h machine hmachine))

theorem readMachinePage_page (h : RoundTrips cl.json) {page : OffsetPage (MachineResource cl.json)}
    (hitems : ∀ machine ∈ page.items, Readable machine) :
    cl.readMachinePage ⟨200, [], some (pageDocument page)⟩ = .ok page :=
  read_of_deserialize (by omega) (deserialize_pageEnvelope h hitems)

theorem readProcesses_batch (h : RoundTrips cl.json) (processes : List (ProcessResource cl.json)) :
    cl.readProcesses ⟨200, [], some (processesDocument processes)⟩ = .ok processes :=
  read_of_deserialize (by omega)
    (deserialize_envelope (deserialize_vec fun process _ => deserialize_processResource h process))

theorem read_validation (h : RoundTrips cl.json) (license : LicenseResource cl.json)
    (ts : cl.json.DateTime) (valid : Bool) {code : String} {verdict : ValidationCode}
    (hcode : validationCode.deserialize (textJson code) = some verdict) :
    cl.read "LicenseResource"
        (envelopeWithMeta (licenseResource cl.json) (validationMeta cl.json))
        ⟨200, [], some (validationDocument license ts valid code)⟩ =
      .ok (license, ⟨ts, valid, "", verdict⟩) := by
  refine read_of_deserialize (by omega) ?_
  simp [envelopeWithMeta, validationMeta, validationDocument, deserialize_licenseResource h,
    deserialize_dateTime h, hcode]

def blankError (J : SerdeJson) (code : String) : JsonApiError J :=
  ⟨"", "", code, "", "", none, none⟩

theorem deserialize_errorDocument (code : String) :
    (jsonApiErrorDocument J).deserialize (errorDocument code) = some ⟨[blankError J code]⟩ := by
  have herror : (jsonApiError J).deserialize (errorJson code) = some (blankError J code) := by
    simp [jsonApiError, errorJson, deserializeStatus, custom, blankError, option, textJson, string]
  have hvec : (vec (jsonApiError J)).deserialize (.array [errorJson code]) =
      some [blankError J code] := by
    simp only [vec, List.mapM_cons, herror, List.mapM_nil]
    rfl
  simp [jsonApiErrorDocument, errorDocument, hvec]

theorem apiError_errorDocument {status : Nat} (hstatus : status ≠ tooManyRequests)
    (code : String) :
    apiError cl.json cl.reqwest ⟨status, [], some (errorDocument code)⟩ =
      .fromJsonApiError (blankError cl.json code) := by
  rw [apiError, if_neg hstatus]
  simp only [Option.bind_some, deserialize_errorDocument, List.head?_cons, Option.getD_some]

theorem read_errorDocument {α : Type} {target : String} {inner : Deserialize α} {status : Nat}
    (hfailed : 400 ≤ status) (hstatus : status ≠ tooManyRequests) (code : String) :
    cl.read target inner ⟨status, [], some (errorDocument code)⟩ =
      .error (.fromJsonApiError (blankError cl.json code)) := by
  rw [Client.read, if_neg, apiError_errorDocument hstatus]
  simp only [Response.isSuccess, Bool.and_eq_true, decide_eq_true_eq]
  omega

end Reading

section Runs

variable {cl : Client}

/-- An answer that is not throttled ends the loop. -/
theorem steps_sendWithRetry {request : Request} {response : Response}
    (h : response.status ≠ tooManyRequests) :
    Steps (cl.sendWithRetry request) [⟨.send request, .ok response⟩] (.ret (.ok response)) := by
  rw [Client.sendWithRetry, Client.sendFrom]
  refine .ask ?_
  simp only [Except.mapError, Prog.bind]
  rw [dif_pos (Or.inl h)]
  exact .refl _

/-- A call whose request is only answered with what it can read needs one answer,
for a 429 is not read. -/
theorem steps_read {α : Type} {request : Request} {target : String} {inner : Deserialize α}
    {events : List cl.Exchange} {q : cl.Call α}
    (hsteps : Steps ((cl.sendWithRetry request).andThen fun response =>
      .ret (cl.read target inner response)) events q)
    (hreads : ∀ reply, (⟨.send request, reply⟩ : cl.Exchange) ∈ events →
      ∃ response value, reply = .ok response ∧ cl.read target inner response = .ok value) :
    (events = [] ∧ q.value? = none) ∨
      ∃ response value, events = [⟨.send request, .ok response⟩] ∧
        cl.read target inner response = .ok value ∧ q = .ret (.ok value) := by
  obtain ⟨sent, hsending, hvalue⟩ :=
    meets_andThen_ret (meets_sendWithRetry request) events q hsteps
  have hunread : ∀ response, response.status = tooManyRequests →
      (⟨.send request, .ok response⟩ : cl.Exchange) ∉ events := by
    intro response hstatus hmem
    obtain ⟨_, value, ⟨⟩, hread⟩ := hreads _ hmem
    cases (read_throttled hstatus).symm.trans hread
  cases hsending with
  | idle => exact Or.inl ⟨rfl, hvalue⟩
  | answered =>
      obtain ⟨response, value, rfl, hread⟩ := hreads _ List.mem_cons_self
      refine Or.inr ⟨response, value, rfl, hread, ?_⟩
      rw [← value?_eq_some_iff, hvalue, ← hread]
      rfl
  | waiting h => exact absurd List.mem_cons_self (hunread _ h.1)
  | again h => exact absurd List.mem_cons_self (hunread _ h.1)

def validateOutcome (cl : Client) (response : Response) :
    Except cl.Error (ValidationResult cl.json) :=
  (cl.read "LicenseResource"
    (envelopeWithMeta (licenseResource cl.json) (validationMeta cl.json)) response).map
      fun document => ⟨document.1, document.2⟩

theorem steps_validateById {response : Response} (h : response.status ≠ tooManyRequests)
    (licenseId : cl.json.Uuid) (scope : Option (ScopeObject cl.json)) (skipTouch : Bool) :
    Steps (cl.validateById licenseId scope skipTouch none)
      [⟨.send (validateRequest cl licenseId scope skipTouch), .ok response⟩]
      (.ret (validateOutcome cl response)) := by
  have hread : Steps (cl.sendJsonApiWithMeta "LicenseResource" (licenseResource cl.json)
      (validationMeta cl.json) .post
      ("/licenses/" ++ cl.json.printUuid licenseId ++ "/actions/validate")
      (some (cl.validateBody scope skipTouch)) none)
      [⟨.send (validateRequest cl licenseId scope skipTouch), .ok response⟩] (.ret _) :=
    (steps_sendWithRetry h).bind (.refl _)
  refine hread.bind ?_
  rw [validateOutcome]
  cases cl.read "LicenseResource" _ response <;> exact .refl _

theorem validateOutcome_verdict (h : RoundTrips cl.json) (license : LicenseResource cl.json)
    (ts : cl.json.DateTime) (valid : Bool) {code : String} {verdict : ValidationCode}
    (hcode : validationCode.deserialize (textJson code) = some verdict) :
    validateOutcome cl ⟨200, [], some (validationDocument license ts valid code)⟩ =
      .ok ⟨license, ⟨ts, valid, "", verdict⟩⟩ := by
  rw [validateOutcome, read_validation h license ts valid hcode]
  rfl

theorem validateOutcome_refused {status : Nat} (hfailed : 400 ≤ status)
    (hstatus : status ≠ tooManyRequests) (code : String) :
    validateOutcome cl ⟨status, [], some (errorDocument code)⟩ =
      .error (.fromJsonApiError (blankError cl.json code)) := by
  rw [validateOutcome, read_errorDocument hfailed hstatus]
  rfl

end Runs

section Recorded

/-- The crates of a recorded exchange.  Of the reason phrases only these occur. -/
def blankReqwest : Reqwest where
  Error := String
  decode target _ := target
  canonicalReason
    | 403 => some "Forbidden"
    | 404 => some "Not Found"
    | 409 => some "Conflict"
    | 429 => some "Too Many Requests"
    | _ => none

def blankClient : Client where
  json := tableJson blankTables
  reqwest := blankReqwest
  maxRetries := 3
  processId := 1

def blankLicense : LicenseResource blankClient.json where
  id := "license"
  resourceType := "licenses"
  attributes := {
    name := none
    key := none
    status := "ACTIVE"
    expiry := none
    suspended := false
    «protected» := false
    scheme := none
    encrypted := false
    strict := false
    floating := false
    maxMachines := some 1
    maxUsers := none
    lastValidatedAt := none
    lastCheckInAt := none
    lastCheckOutAt := none
    machinesCount := 1
    metadata := objectJson []
    created := "2026-01-01T00:00:00Z"
    updated := "2026-01-01T00:00:00Z" }

def blankMachine (id fingerprint : String) : MachineResource blankClient.json where
  id := id
  resourceType := "machines"
  attributes := {
    fingerprint := fingerprint
    cores := none
    memory := none
    disk := none
    ip := none
    hostname := none
    platform := none
    name := none
    heartbeatStatus := .notStarted
    lastHeartbeatAt := none
    nextHeartbeatAt := none
    lastCheckOutAt := none
    metadata := objectJson []
    created := "2026-01-01T00:00:00Z"
    updated := "2026-01-01T00:00:00Z" }

theorem readable_blankMachine (id fingerprint : String) :
    Readable (blankMachine id fingerprint) := rfl

theorem roundTrips_blankClient : RoundTrips blankClient.json := roundTrips_tableJson blankTables

def blankLicenseId : blankClient.json.Uuid := "license"

def blankOptions : CreateMachineOptions blankClient.json :=
  ⟨none, none, none, none, none, none, none, none⟩

end Recorded

end Tamga.ServerResponses
