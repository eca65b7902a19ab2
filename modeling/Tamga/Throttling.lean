import Tamga.ArtifactDownload
import Tamga.CheckOut
import Tamga.Library.Layering

namespace Tamga.Throttling

open Library.Interaction
open Library.Interaction.Prog
open Library.Layering
open Library.Serde
open Tamga.ActivationFlow
open Tamga.ApiErrors
open Tamga.ApiModels
open Tamga.Client
open Tamga.Dependencies
open Tamga.Models
open Tamga.RetryBounds
open Tamga.Transport

abbrev plain (cl : Client) : Client := { cl with maxRetries := 0 }

/-- The tries that a request took until it got this reply. -/
def Tried (cl : Client) : cl.Exchange → List cl.Exchange → Prop
  | ⟨.send request, reply⟩, tries => Sending cl request 0 tries (some (reply.mapError .http))
  | ⟨.sleep _, _⟩, _ => False

/-- A call, and the same call of the plain client. -/
def Layered (cl : Client) {α : Type} (p : cl.Io α) (q : (plain cl).Io α) : Prop :=
  Layers (Tried cl) p q

section Requests

variable {cl : Client} {request : Request} {attempt : UInt32} {events : List cl.Exchange}
  {outcome : Except cl.Error Response}

theorem steps_of_sending {result : Option (Except cl.Error Response)}
    (h : Sending cl request attempt events result) (hresult : result = some outcome) :
    Steps (cl.sendFrom request attempt) events (.ret outcome) := by
  induction h with
  | idle => cases hresult
  | @answered attempt reply hlast =>
      cases hresult
      rw [Client.sendFrom]
      refine .ask ?_
      cases reply with
      | error e => exact .refl _
      | ok response =>
          have hstop := not_throttles_iff.mp (hlast response rfl)
          simp only [Except.mapError, Prog.bind, dif_pos hstop]
          exact .refl _
  | waiting => cases hresult
  | @again attempt response _ _ hthrottles _ ih =>
      have hgo : ¬_ := fun hstop => not_throttles_iff.mpr hstop hthrottles
      rw [Client.sendFrom]
      refine .ask ?_
      simp only [Except.mapError, Prog.bind, dif_neg hgo]
      exact .ask (ih hresult)

theorem steps_sendWithRetry_iff : Steps (cl.sendWithRetry request) events (.ret outcome) ↔
    Sending cl request 0 events (some outcome) :=
  ⟨meets_sendWithRetry request events _, fun h => steps_of_sending h rfl⟩

theorem reply_of_sending {result : Option (Except cl.Error Response)}
    (h : Sending cl request attempt events result) (hresult : result = some outcome) :
    ∃ reply : Except cl.reqwest.Error Response, outcome = reply.mapError .http := by
  induction h with
  | idle => cases hresult
  | answered =>
      cases hresult
      exact ⟨_, rfl⟩
  | waiting => cases hresult
  | again _ _ ih => exact ih hresult

theorem not_throttles_plain (response : Response) :
    ¬Throttles (plain cl) request attempt response := by
  rintro ⟨-, -, hlt⟩
  exact UInt32.not_lt.mpr UInt32.zero_le hlt

theorem steps_plain_iff {sent : List (plain cl).Exchange}
    {outcome : Except (plain cl).Error Response} :
    Steps ((plain cl).sendWithRetry request) sent (.ret outcome) ↔
      ∃ reply : Except cl.reqwest.Error Response,
        sent = [⟨.send request, reply⟩] ∧ outcome = reply.mapError .http := by
  rw [steps_sendWithRetry_iff]
  constructor
  · rintro (_ | ⟨_⟩ | _ | ⟨hthrottles, _⟩)
    · exact ⟨_, rfl, rfl⟩
    · exact absurd hthrottles (not_throttles_plain _)
  · rintro ⟨reply, rfl, rfl⟩
    exact .answered fun response _ => not_throttles_plain response

theorem layered_sendWithRetry (request : Request) :
    Layered cl (cl.sendWithRetry request) ((plain cl).sendWithRetry request) := by
  intro lower outcome
  rw [steps_sendWithRetry_iff]
  constructor
  · intro h
    obtain ⟨reply, rfl⟩ := reply_of_sending h rfl
    exact ⟨[⟨.send request, reply⟩], expands_singleton_iff.mpr h,
      steps_plain_iff.mpr ⟨reply, rfl, rfl⟩⟩
  · rintro ⟨upper, hexpands, hsteps⟩
    obtain ⟨reply, rfl, rfl⟩ := steps_plain_iff.mp hsteps
    exact expands_singleton_iff.mp hexpands

theorem layered_send (h : isRetryable request.method request.path = false) :
    Layered cl (cl.send request) ((plain cl).send request) := by
  rw [← sendWithRetry_eq_send h, ← sendWithRetry_eq_send h]
  exact layered_sendWithRetry request

end Requests

section Calls

variable {cl : Client}

theorem layered_request {α : Type} (request : Request) (read : Response → Except cl.Error α) :
    Layered cl ((cl.sendWithRetry request).andThen fun response => .ret (read response))
      (((plain cl).sendWithRetry request).andThen fun response => .ret (read response)) :=
  (layered_sendWithRetry request).andThen fun _ => layers_ret _

theorem layered_deletion {request : Request} (hmethod : request.method = .delete) :
    Layered cl ((cl.send request).andThen fun response => .ret (cl.readEmpty response))
      (((plain cl).send request).andThen fun response => .ret (cl.readEmpty response)) := by
  have hnever : isRetryable request.method request.path = false := by
    rw [hmethod]
    rfl
  exact (layered_send hnever).andThen fun _ => layers_ret _

theorem layered_sendJsonApi {α : Type} (target : String) (inner : Deserialize α) (method : Method)
    (path : String) (body : Option Json) (otp : Option String) :
    Layered cl (cl.sendJsonApi target inner method path body otp)
      ((plain cl).sendJsonApi target inner method path body otp) :=
  layered_request _ _

theorem layered_sendJsonApiWithMeta {α μ : Type} (target : String) (inner : Deserialize α)
    («meta» : Deserialize μ) (method : Method) (path : String) (body : Option Json)
    (otp : Option String) :
    Layered cl (cl.sendJsonApiWithMeta target inner «meta» method path body otp)
      ((plain cl).sendJsonApiWithMeta target inner «meta» method path body otp) :=
  layered_request _ _

theorem metadataJson_plain (metadata : Option cl.json.Value) :
    (plain cl).metadataJson metadata = cl.metadataJson metadata := by
  cases metadata with
  | none => rfl
  | some value => rfl

theorem layers_checkingTtl {Op' : Type} {Reply' : Op' → Type} {α : Type}
    {stands : Event Op' Reply' → List (Event Op' Reply') → Prop} (ttl : Option UInt64)
    {p : Prog Op' Reply' (Except cl.Error α)} {q : Prog Op' Reply' (Except (plain cl).Error α)}
    (h : Layers stands p q) :
    Layers stands (cl.checkingTtl ttl p) ((plain cl).checkingTtl ttl q) := by
  cases ttl with
  | none => exact h
  | some ttl =>
      rw [checkingTtl, checkingTtl]
      cases MachineFile.checkTtl (J := cl.json) ttl with
      | ok => exact h
      | error e => exact layers_ret _

theorem layered_createMachine (licenseId : cl.json.Uuid) (fingerprint : String)
    (opts : CreateMachineOptions cl.json) :
    Layered cl (cl.createMachine licenseId fingerprint opts)
      ((plain cl).createMachine licenseId fingerprint opts) := by
  rw [createMachine, createMachine, createMachineBody, createMachineBody, metadataJson_plain]
  exact layered_sendJsonApi _ _ _ _ _ _

theorem layered_validateById (licenseId : cl.json.Uuid)
    (scope : Option (ScopeObject cl.json)) (skipTouch : Bool) (otp : Option String) :
    Layered cl (cl.validateById licenseId scope skipTouch otp)
      ((plain cl).validateById licenseId scope skipTouch otp) :=
  (layered_request _ _).andThen fun _ => layers_ret _

theorem layered_deleteMachine (machineId : cl.json.Uuid) :
    Layered cl (cl.deleteMachine machineId) ((plain cl).deleteMachine machineId) :=
  layered_deletion rfl

theorem layered_findFrom (licenseId : cl.json.Uuid) (fingerprint : String) (pages : Nat)
    (pageNumber : Int64) :
    Layered cl (cl.findFrom licenseId fingerprint pages pageNumber)
      ((plain cl).findFrom licenseId fingerprint pages pageNumber) := by
  induction pages generalizing pageNumber with
  | zero => exact layers_stop
  | succ pages ih =>
      refine (layered_request _ _).andThen fun page => ?_
      cases page.items.find? fun machine => machine.attributes.fingerprint == fingerprint with
      | some found => exact layers_ret _
      | none =>
          cases page.nextPageNumber with
          | some next => exact ih next
          | none => exact layers_ret _

theorem layered_deleteBatch (batch : List (ProcessResource cl.json)) (deleted : Nat) :
    Layered cl (cl.deleteBatch batch deleted) ((plain cl).deleteBatch batch deleted) := by
  induction batch generalizing deleted with
  | nil => exact layers_ret _
  | cons process batch ih =>
      refine Layers.bind (layered_deletion rfl) fun outcome => ?_
      cases outcome with
      | ok => exact ih _
      | error err =>
          change Layers _ (if err.isNotFound then _ else _) (if err.isNotFound then _ else _)
          split
          · exact ih _
          · exact layers_ret _

theorem layered_deleteFrom (machineId : cl.json.Uuid) (batches deleted : Nat) :
    Layered cl (cl.deleteFrom machineId batches deleted)
      ((plain cl).deleteFrom machineId batches deleted) := by
  induction batches generalizing deleted with
  | zero => exact layers_stop
  | succ batches ih =>
      refine (layered_request _ _).andThen fun batch => ?_
      split
      · exact layers_ret _
      · exact (layered_deleteBatch batch deleted).andThen ih

theorem layered_overLimitResultWithoutMachine (licenseId : cl.json.Uuid)
    (scope : Option (ScopeObject cl.json)) (limit : LimitExceededCode)
    (createErr : cl.Error) :
    Layered cl (cl.overLimitResultWithoutMachine licenseId scope limit createErr)
      ((plain cl).overLimitResultWithoutMachine licenseId scope limit createErr) := by
  refine (layered_validateById licenseId scope true none).bind fun outcome => ?_
  cases outcome with
  | ok probe => exact layers_ret _
  | error e => exact layers_ret _

theorem layered_activateMachine (licenseId : cl.json.Uuid) (fingerprint : String)
    (opts : CreateMachineOptions cl.json) (scope : Option (ScopeObject cl.json))
    (autoDeleteOnOverage : Bool) :
    Layered cl (cl.activateMachine licenseId fingerprint opts scope autoDeleteOnOverage)
      ((plain cl).activateMachine licenseId fingerprint opts scope autoDeleteOnOverage) := by
  refine (layered_createMachine licenseId fingerprint opts).bind fun outcome => ?_
  cases outcome with
  | ok machine =>
      refine (layered_validateById licenseId scope false none).bind fun result => ?_
      cases autoDeleteOnOverage with
      | false => exact layers_ret _
      | true =>
          cases result with
          | error e => exact layers_ret _
          | ok r =>
              change Layers _ (if isOverageCode r.meta.code then _ else _)
                (if isOverageCode r.meta.code then _ else _)
              split
              · exact (layered_deleteMachine machine.id).bind fun _ => layers_ret _
              · exact layers_ret _
  | error err =>
      dsimp only
      cases err.limitExceeded with
      | some limit => exact layered_overLimitResultWithoutMachine licenseId scope limit err
      | none => exact layers_ret _

theorem layered_finishActivation (licenseId : cl.json.Uuid)
    (scope : Option (ScopeObject cl.json)) (autoDeleteOnOverage : Bool)
    (machine : Option (MachineResource cl.json)) (reused : Bool) :
    Layered cl (cl.finishActivation licenseId scope autoDeleteOnOverage machine reused)
      ((plain cl).finishActivation licenseId scope autoDeleteOnOverage machine reused) := by
  refine (layered_validateById licenseId scope false none).andThen fun validation => ?_
  generalize (autoDeleteOnOverage && !reused && isOverageCode validation.meta.code) = rolledBack
  cases rolledBack with
  | false => exact layers_ret _
  | true =>
      cases machine with
      | none => exact layers_ret _
      | some created => exact (layered_deleteMachine created.id).bind fun _ => layers_ret _

theorem layered_activateMachineIdempotent (pages : Nat) (licenseId : cl.json.Uuid)
    (fingerprint : String) (opts : CreateMachineOptions cl.json)
    (scope : Option (ScopeObject cl.json)) (autoDeleteOnOverage : Bool) :
    Layered cl
      (cl.activateMachineIdempotent pages licenseId fingerprint opts scope autoDeleteOnOverage)
      ((plain cl).activateMachineIdempotent pages licenseId fingerprint opts scope
        autoDeleteOnOverage) := by
  refine (layered_createMachine licenseId fingerprint opts).bind fun outcome => ?_
  cases outcome with
  | ok machine => exact layered_finishActivation _ _ _ _ _
  | error err =>
      change Layers _ (if err.isFingerprintTaken then _ else _)
        (if err.isFingerprintTaken then _ else _)
      split
      · refine (layered_findFrom licenseId fingerprint pages 1).andThen fun found => ?_
        cases found with
        | some existing => exact layered_finishActivation _ _ _ _ _
        | none => exact layers_ret _
      · cases err.limitExceeded with
        | some limit =>
            exact (layered_overLimitResultWithoutMachine licenseId scope limit err).andThen
              fun _ => layers_ret _
        | none => exact layers_ret _

theorem layered_checkOutMachineJson (machineId : cl.json.Uuid) (encrypt : Bool)
    (ttl : Option UInt64) :
    Layered cl (cl.checkOutMachineJson machineId encrypt ttl)
      ((plain cl).checkOutMachineJson machineId encrypt ttl) :=
  layers_checkingTtl ttl (layered_request _ _)

end Calls

section Parts

variable {cl : Client} {Op' : Type} {Reply' : Op' → Type} {into : Op → Op'}
  {forth : ∀ op, Reply cl.reqwest op → Reply' (into op)}

/-- The tries of a whole of which the client's operations are a part: those of the part,
and whatever else it asks is asked once. -/
def TriedIn (cl : Client) (into : Op → Op')
    (forth : ∀ op, Reply cl.reqwest op → Reply' (into op)) (event : Event Op' Reply')
    (tries : List (Event Op' Reply')) : Prop :=
  (∃ own part, event = liftEvent into forth own ∧ tries = part.map (liftEvent into forth) ∧
      Tried cl own part) ∨
    (∀ op, event.op ≠ into op) ∧ tries = [event]

theorem triedIn_lift_iff (hinj : Function.Injective (liftEvent into forth))
    (event : cl.Exchange) (tries : List (Event Op' Reply')) :
    TriedIn cl into forth (liftEvent into forth event) tries ↔
      ∃ part, tries = part.map (liftEvent into forth) ∧ Tried cl event part := by
  constructor
  · rintro (⟨own, part, heq, htries, htried⟩ | ⟨hother, -⟩)
    · rw [hinj heq]
      exact ⟨part, htries, htried⟩
    · exact absurd rfl (hother event.op)
  · rintro ⟨part, htries, htried⟩
    exact Or.inl ⟨event, part, rfl, htries, htried⟩

theorem Layered.lift {α : Type} {p : cl.Io α} {q : (plain cl).Io α} (h : Layered cl p q)
    {back : ∀ op, Reply' (into op) → Reply cl.reqwest op} (hinto : Function.Injective into)
    (hback : ∀ op reply, back op (forth op reply) = reply)
    (hforth : ∀ op reply, forth op (back op reply) = reply) :
    Layers (TriedIn cl into forth) (p.lift into back) (q.lift into back) :=
  Layers.lift h hback hforth (triedIn_lift_iff (liftEvent_injective hinto hback))

theorem triedIn_other_iff {event : Event Op' Reply'} (hother : ∀ op, event.op ≠ into op)
    (tries : List (Event Op' Reply')) :
    TriedIn cl into forth event tries ↔ tries = [event] := by
  constructor
  · rintro (⟨own, _, rfl, -⟩ | ⟨-, htries⟩)
    · exact absurd rfl (hother own.op)
    · exact htries
  · exact fun htries => Or.inr ⟨hother, htries⟩

def TriedFile (cl : Client) : Event FileOp (FileReply cl.reqwest) →
    List (Event FileOp (FileReply cl.reqwest)) → Prop :=
  TriedIn cl .api fun _ reply => reply

def TriedProbe (cl : Client) : Event ProbeOp (ProbeReply cl.reqwest) →
    List (Event ProbeOp (ProbeReply cl.reqwest)) → Prop :=
  TriedIn cl .origin fun _ reply => reply

/-- The tries of a download; its body is fetched once. -/
def TriedDownload (cl : Client) (U : UrlCrate) :
    Event (DownloadOp U) (DownloadReply cl.reqwest U) →
      List (Event (DownloadOp U) (DownloadReply cl.reqwest U)) → Prop :=
  TriedIn cl .api fun _ reply => reply

theorem layers_readText (response : Response) :
    Layers (TriedFile cl) (cl.readText response) ((plain cl).readText response) := by
  rw [readText, readText]
  split
  · have hother (op : Op) : FileOp.text response ≠ FileOp.api op := by rintro ⟨⟩
    refine layers_ask (fun reply => triedIn_other_iff hother) fun reply => ?_
    exact layers_ret _
  · exact layers_ret _

theorem layers_checkOutRaw (request : Request) :
    Layers (TriedFile cl) (cl.checkOutRaw request) ((plain cl).checkOutRaw request) := by
  have hinto : Function.Injective FileOp.api := fun _ _ => FileOp.api.inj
  exact ((layered_sendWithRetry request).lift hinto (fun _ _ => rfl) fun _ _ => rfl).andThen
    layers_readText

theorem layers_health : Layers (TriedProbe cl) cl.health (plain cl).health := by
  have hinto : Function.Injective ProbeOp.origin := fun _ _ => ProbeOp.origin.inj
  exact (layered_request _ _).lift hinto (fun _ _ => rfl) fun _ _ => rfl

theorem layers_fetchArtifact {U : UrlCrate} (maxBytes : UInt64) (redirectUrl : Option String) :
    Layers (TriedDownload cl U) (cl.fetchArtifact U maxBytes redirectUrl)
      ((plain cl).fetchArtifact U maxBytes redirectUrl) := by
  have hfetch (parsed : U.Url) :
      Layers (TriedDownload cl U) (cl.fetchUrl maxBytes parsed)
        ((plain cl).fetchUrl maxBytes parsed) := by
    have hother (op : Op) : DownloadOp.fetch parsed ≠ DownloadOp.api op := by rintro ⟨⟩
    refine layers_ask (fun reply => triedIn_other_iff hother) fun reply => ?_
    cases reply with
    | ok response => exact layers_ret _
    | error e => exact layers_ret _
  cases redirectUrl with
  | none => exact layers_ret _
  | some url =>
      rw [fetchArtifact, fetchArtifact]
      cases U.parse url with
      | none => exact layers_ret _
      | some parsed =>
          dsimp only
          split
          · exact hfetch parsed
          · exact hfetch parsed
          · exact layers_ret _

theorem layers_downloadArtifact {U : UrlCrate} (artifactId : cl.json.Uuid)
    (ttl : Option Duration) (maxBytes : UInt64) :
    Layers (TriedDownload cl U) (cl.downloadArtifact U artifactId ttl maxBytes)
      ((plain cl).downloadArtifact U artifactId ttl maxBytes) := by
  have hinto : Function.Injective (DownloadOp.api (U := U)) := fun _ _ => DownloadOp.api.inj
  refine Layers.bind ((layered_request _ _).lift hinto (fun _ _ => rfl) fun _ _ => rfl)
    fun outcome => ?_
  cases outcome with
  | ok artifact => exact layers_fetchArtifact maxBytes _
  | error e => exact layers_ret _

end Parts

/-- Every call of the client returns what the plain client returns, in runs that differ in
what was throttled. -/
structure ThrottlingHidden (cl : Client) : Prop where
  -- the tries are within the budget, and all but the last of them were a 429
  bounded : ∀ request reply tries, Tried cl ⟨.send request, reply⟩ tries →
    Bounded cl request tries (some (reply.mapError .http))
  validateByKey : ∀ key otp,
    Layered cl (cl.validateByKey key otp) ((plain cl).validateByKey key otp)
  validateById : ∀ licenseId scope skipTouch otp,
    Layered cl (cl.validateById licenseId scope skipTouch otp)
      ((plain cl).validateById licenseId scope skipTouch otp)
  quickValidate : ∀ licenseId otp,
    Layered cl (cl.quickValidate licenseId otp) ((plain cl).quickValidate licenseId otp)
  checkIn : ∀ licenseId, Layered cl (cl.checkIn licenseId) ((plain cl).checkIn licenseId)
  checkOutLicenseJson : ∀ licenseId encrypt ttl,
    Layered cl (cl.checkOutLicenseJson licenseId encrypt ttl)
      ((plain cl).checkOutLicenseJson licenseId encrypt ttl)
  checkOutMachineJson : ∀ machineId encrypt ttl,
    Layered cl (cl.checkOutMachineJson machineId encrypt ttl)
      ((plain cl).checkOutMachineJson machineId encrypt ttl)
  createMachine : ∀ licenseId fingerprint opts,
    Layered cl (cl.createMachine licenseId fingerprint opts)
      ((plain cl).createMachine licenseId fingerprint opts)
  activateMachine : ∀ licenseId fingerprint opts scope autoDeleteOnOverage,
    Layered cl (cl.activateMachine licenseId fingerprint opts scope autoDeleteOnOverage)
      ((plain cl).activateMachine licenseId fingerprint opts scope autoDeleteOnOverage)
  pingHeartbeat : ∀ machineId,
    Layered cl (cl.pingHeartbeat machineId) ((plain cl).pingHeartbeat machineId)
  resetHeartbeat : ∀ machineId,
    Layered cl (cl.resetHeartbeat machineId) ((plain cl).resetHeartbeat machineId)
  deleteMachine : ∀ machineId,
    Layered cl (cl.deleteMachine machineId) ((plain cl).deleteMachine machineId)
  generateOfflineProof : ∀ machineId dataset,
    Layered cl (cl.generateOfflineProof machineId dataset)
      ((plain cl).generateOfflineProof machineId dataset)
  createComponent : ∀ machineId fingerprint name metadata,
    Layered cl (cl.createComponent machineId fingerprint name metadata)
      ((plain cl).createComponent machineId fingerprint name metadata)
  listComponents : ∀ machineId limit after,
    Layered cl (cl.listComponents machineId limit after)
      ((plain cl).listComponents machineId limit after)
  createProcess : ∀ machineId pid metadata,
    Layered cl (cl.createProcess machineId pid metadata)
      ((plain cl).createProcess machineId pid metadata)
  pingProcess : ∀ processId,
    Layered cl (cl.pingProcess processId) ((plain cl).pingProcess processId)
  listEntitlements : ∀ licenseId limit after,
    Layered cl (cl.listEntitlements licenseId limit after)
      ((plain cl).listEntitlements licenseId limit after)
  listLicenseEntitlements : ∀ licenseId limit,
    Layered cl (cl.listLicenseEntitlements licenseId limit)
      ((plain cl).listLicenseEntitlements licenseId limit)
  getEntitlement : ∀ licenseId entitlementId,
    Layered cl (cl.getEntitlement licenseId entitlementId)
      ((plain cl).getEntitlement licenseId entitlementId)
  incrementEntitlementUsage : ∀ licenseId entitlementId increment,
    Layered cl (cl.incrementEntitlementUsage licenseId entitlementId increment)
      ((plain cl).incrementEntitlementUsage licenseId entitlementId increment)
  decrementEntitlementUsage : ∀ licenseId entitlementId decrement,
    Layered cl (cl.decrementEntitlementUsage licenseId entitlementId decrement)
      ((plain cl).decrementEntitlementUsage licenseId entitlementId decrement)
  resetEntitlementUsage : ∀ licenseId entitlementId,
    Layered cl (cl.resetEntitlementUsage licenseId entitlementId)
      ((plain cl).resetEntitlementUsage licenseId entitlementId)
  hasEntitlement : ∀ licenseId code limit,
    Layered cl (cl.hasEntitlement licenseId code limit)
      ((plain cl).hasEntitlement licenseId code limit)
  getMachine : ∀ machineId, Layered cl (cl.getMachine machineId) ((plain cl).getMachine machineId)
  listMachines : ∀ opts, Layered cl (cl.listMachines opts) ((plain cl).listMachines opts)
  findMachineByFingerprint : ∀ pages licenseId fingerprint,
    Layered cl (cl.findMachineByFingerprint pages licenseId fingerprint)
      ((plain cl).findMachineByFingerprint pages licenseId fingerprint)
  updateMachine : ∀ machineId opts,
    Layered cl (cl.updateMachine machineId opts) ((plain cl).updateMachine machineId opts)
  listMachineProcesses : ∀ machineId limit after,
    Layered cl (cl.listMachineProcesses machineId limit after)
      ((plain cl).listMachineProcesses machineId limit after)
  activateMachineIdempotent : ∀ pages licenseId fingerprint opts scope autoDeleteOnOverage,
    Layered cl
      (cl.activateMachineIdempotent pages licenseId fingerprint opts scope autoDeleteOnOverage)
      ((plain cl).activateMachineIdempotent pages licenseId fingerprint opts scope
        autoDeleteOnOverage)
  deleteProcess : ∀ processId,
    Layered cl (cl.deleteProcess processId) ((plain cl).deleteProcess processId)
  deleteMachineProcesses : ∀ batches machineId,
    Layered cl (cl.deleteMachineProcesses batches machineId)
      ((plain cl).deleteMachineProcesses batches machineId)
  getLicense : ∀ licenseId, Layered cl (cl.getLicense licenseId) ((plain cl).getLicense licenseId)
  getLicensePolicy : ∀ licenseId,
    Layered cl (cl.getLicensePolicy licenseId) ((plain cl).getLicensePolicy licenseId)
  getPolicy : ∀ policyId, Layered cl (cl.getPolicy policyId) ((plain cl).getPolicy policyId)
  effectiveHeartbeatWindow : ∀ licenseId,
    Layered cl (cl.effectiveHeartbeatWindow licenseId)
      ((plain cl).effectiveHeartbeatWindow licenseId)
  recommendedHeartbeatInterval : ∀ licenseId,
    Layered cl (cl.recommendedHeartbeatInterval licenseId)
      ((plain cl).recommendedHeartbeatInterval licenseId)
  listSigningKeys : Layered cl cl.listSigningKeys (plain cl).listSigningKeys
  checkForUpgrade : ∀ query,
    Layered cl (cl.checkForUpgrade query) ((plain cl).checkForUpgrade query)
  listReleaseArtifacts : ∀ releaseId limit after,
    Layered cl (cl.listReleaseArtifacts releaseId limit after)
      ((plain cl).listReleaseArtifacts releaseId limit after)
  getArtifact : ∀ artifactId,
    Layered cl (cl.getArtifact artifactId) ((plain cl).getArtifact artifactId)
  artifactDownloadUrl : ∀ artifactId ttl,
    Layered cl (cl.artifactDownloadUrl artifactId ttl)
      ((plain cl).artifactDownloadUrl artifactId ttl)
  signingKeySet : ∀ c : Crates,
    Layered (overCrates c cl) (cl.signingKeySet c) ((plain cl).signingKeySet c)
  checkOutLicense : ∀ licenseId encrypt ttl,
    Layers (TriedFile cl) (cl.checkOutLicense licenseId encrypt ttl)
      ((plain cl).checkOutLicense licenseId encrypt ttl)
  checkOutMachine : ∀ machineId encrypt ttl,
    Layers (TriedFile cl) (cl.checkOutMachine machineId encrypt ttl)
      ((plain cl).checkOutMachine machineId encrypt ttl)
  downloadArtifact : ∀ U artifactId ttl maxBytes,
    Layers (TriedDownload cl U) (cl.downloadArtifact U artifactId ttl maxBytes)
      ((plain cl).downloadArtifact U artifactId ttl maxBytes)
  health : Layers (TriedProbe cl) cl.health (plain cl).health

theorem throttlingHidden (cl : Client) : ThrottlingHidden cl where
  bounded _ _ _ h := h.bounded
  validateByKey _ _ := (layered_request _ _).andThen fun _ => layers_ret _
  validateById _ _ _ _ := layered_validateById _ _ _ _
  quickValidate _ _ := layered_request _ _
  checkIn _ := layered_request _ _
  checkOutLicenseJson _ _ _ := layered_request _ _
  checkOutMachineJson _ _ _ := layered_checkOutMachineJson _ _ _
  createMachine _ _ _ := layered_createMachine _ _ _
  activateMachine _ _ _ _ _ := layered_activateMachine _ _ _ _ _
  pingHeartbeat _ := layered_request _ _
  resetHeartbeat _ := layered_request _ _
  deleteMachine _ := layered_deleteMachine _
  generateOfflineProof _ _ := by
    rw [generateOfflineProof, generateOfflineProof, metadataJson_plain]
    exact layered_sendJsonApiWithMeta _ _ _ _ _ _ _
  createComponent _ _ _ _ := by
    rw [createComponent, createComponent, metadataJson_plain]
    exact layered_sendJsonApi _ _ _ _ _ _
  listComponents _ _ _ := layered_request _ _
  createProcess _ _ _ := by
    rw [createProcess, createProcess, metadataJson_plain]
    exact layered_sendJsonApi _ _ _ _ _ _
  pingProcess _ := layered_request _ _
  listEntitlements _ _ _ := layered_request _ _
  listLicenseEntitlements _ _ := layered_request _ _
  getEntitlement _ _ := layered_request _ _
  incrementEntitlementUsage _ _ _ := layered_request _ _
  decrementEntitlementUsage _ _ _ := layered_request _ _
  resetEntitlementUsage _ _ := layered_request _ _
  hasEntitlement _ _ _ := (layered_request _ _).andThen fun _ => layers_ret _
  getMachine _ := layered_request _ _
  listMachines _ := layered_request _ _
  findMachineByFingerprint _ _ _ := layered_findFrom _ _ _ _
  updateMachine _ _ := layered_request _ _
  listMachineProcesses _ _ _ := layered_request _ _
  activateMachineIdempotent _ _ _ _ _ _ := layered_activateMachineIdempotent _ _ _ _ _ _
  deleteProcess _ := layered_deletion rfl
  deleteMachineProcesses _ _ := layered_deleteFrom _ _ _
  getLicense _ := layered_request _ _
  getLicensePolicy _ := layered_request _ _
  getPolicy _ := layered_request _ _
  effectiveHeartbeatWindow _ := (layered_request _ _).andThen fun _ => layers_ret _
  recommendedHeartbeatInterval _ := (layered_request _ _).andThen fun _ => layers_ret _
  listSigningKeys := layered_request _ _
  checkForUpgrade _ := layered_request _ _
  listReleaseArtifacts _ _ _ := layered_request _ _
  getArtifact _ := layered_request _ _
  artifactDownloadUrl _ _ := layered_request _ _
  signingKeySet _ := (layered_request _ _).andThen fun _ => layers_ret _
  checkOutLicense _ _ _ := layers_checkOutRaw _
  checkOutMachine _ _ ttl := layers_checkingTtl ttl (layers_checkOutRaw _)
  downloadArtifact _ _ _ _ := layers_downloadArtifact _ _ _
  health := layers_health

end Tamga.Throttling
