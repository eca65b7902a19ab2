import Tamga.ServerResponses

namespace Tamga.ActivationAgreement

open Library.Prelude
open Library.Serde
open Library.Interaction
open Library.Interaction.Prog
open Tamga.Dependencies
open Tamga.Models
open Tamga.ApiModels
open Tamga.ApiErrors
open Tamga.Transport
open Tamga.Client
open Tamga.RetryBounds
open Tamga.ActivationFlow
open Tamga.ServerResponses

variable {cl : Client}

section Classification

theorem isFingerprintTaken_apiError {response : Response}
    (h : (apiError cl.json cl.reqwest response).isFingerprintTaken = true) :
    (apiError cl.json cl.reqwest response).code = some "FINGERPRINT_TAKEN" := by
  rw [apiError] at h ⊢
  split at h
  · cases h
  · rename_i hstatus
    rw [if_neg hstatus, TamgaError.code, TamgaError.jsonApiError_fromJsonApiError,
      Option.map_some, Option.some.injEq]
    exact (TamgaError.isFingerprintTaken_fromJsonApiError _).mp h

/-- The variant that the idempotent call looks for has the code that it is named by. -/
theorem code_of_isFingerprintTaken {reply : Except cl.reqwest.Error Response} {err : cl.Error}
    (houtcome : createOutcome cl reply = .error err) (h : err.isFingerprintTaken = true) :
    err.code = some "FINGERPRINT_TAKEN" := by
  cases reply with
  | error =>
      cases houtcome
      cases h
  | ok response =>
      change cl.read _ _ response = _ at houtcome
      rw [Client.read] at houtcome
      split at houtcome
      · rw [decodeBody] at houtcome
        cases hdecoded : okOr (response.body.bind _) _ with
        | ok => rw [hdecoded] at houtcome; cases houtcome
        | error =>
            rw [hdecoded] at houtcome
            cases houtcome
            cases h
      · cases houtcome
        exact isFingerprintTaken_apiError h

end Classification

section Agreement

variable (licenseId : cl.json.Uuid) (fingerprint : String) (scope : Option (ScopeObject cl.json))
  (autoDeleteOnOverage : Bool) (pages : Nat)

theorem rollBack_map {α β : Type} (machine : MachineResource cl.json) (needed : Bool) (value : α)
    (f : α → β) :
    (rollBack machine needed value : cl.Io α).map f = rollBack machine needed (f value) := by
  cases needed with
  | false => rfl
  | true => exact map_bind _ _ _

theorem afterCreate_eq_map {created : Except cl.Error (MachineResource cl.json)}
    (h : ∀ err, created = .error err → err.isFingerprintTaken = false) :
    afterCreate licenseId scope autoDeleteOnOverage created =
      (afterCreateIdempotent licenseId fingerprint scope autoDeleteOnOverage pages created).map
        fun outcome => outcome.map (·.validation) := by
  cases created with
  | ok machine =>
      simp only [afterCreate, afterCreateIdempotent, map_bind, rollBack_map]
      congr 1
      funext verdict
      cases verdict <;> rfl
  | error err =>
      simp only [afterCreate, afterCreateIdempotent, h err rfl, Bool.false_eq_true, if_false]
      cases err.limitExceeded with
      | none => rfl
      | some limit =>
          rw [map_map, Prog.map]
          refine (bind_ret _).symm.trans ?_
          congr 1
          funext result
          cases result <;> rfl

theorem yields_rollBack {α : Type} {machine : MachineResource cl.json} {needed : Bool}
    {value : α} {post : α → Prop} (h : post value) :
    Yields (rollBack machine needed value : cl.Io α) post := by
  cases needed with
  | false => exact yields_ret h
  | true => exact yields_bind fun _ => yields_ret h

theorem yields_not_reused {created : Except cl.Error (MachineResource cl.json)}
    (h : ∀ err, created = .error err → err.isFingerprintTaken = false) :
    Yields (afterCreateIdempotent licenseId fingerprint scope autoDeleteOnOverage pages created)
      fun outcome => ∀ activation, outcome = .ok activation → activation.reused = false := by
  cases created with
  | ok machine =>
      refine yields_bind fun verdict => yields_rollBack ?_
      rintro _ h
      cases verdict <;> cases h
      rfl
  | error err =>
      simp only [afterCreateIdempotent, h err rfl, Bool.false_eq_true, if_false]
      cases err.limitExceeded with
      | none => exact yields_ret fun _ h => by cases h
      | some limit =>
          refine yields_bind fun result => yields_ret ?_
          rintro _ h
          cases result <;> cases h
          rfl

/-- Against any server, and unless the create is refused for its fingerprint,
the two calls have the same exchanges and come to the same result. -/
theorem activations_agree (cl : Client) (licenseId : cl.json.Uuid) (fingerprint : String)
    (opts : CreateMachineOptions cl.json) (scope : Option (ScopeObject cl.json))
    (autoDeleteOnOverage : Bool) (pages : Nat)
    (server : List cl.Exchange → (op : Op) → Reply cl.reqwest op)
    (h : ∀ err, createOutcome cl
        (server [] (.send (createMachineRequest cl licenseId fingerprint opts))) = .error err →
      err.code ≠ some "FINGERPRINT_TAKEN") :
    let plain := exec server []
      (cl.activateMachine licenseId fingerprint opts scope autoDeleteOnOverage)
    let idempotent := exec server []
      (cl.activateMachineIdempotent pages licenseId fingerprint opts scope autoDeleteOnOverage)
    plain.1 = idempotent.1 ∧ ∃ outcome, idempotent.2 = some outcome ∧
      plain.2 = some (outcome.map (·.validation)) ∧
        ∀ activation, outcome = .ok activation → activation.reused = false := by
  intro plain idempotent
  let first : Op := .send (createMachineRequest cl licenseId fingerprint opts)
  let created := createOutcome cl (server [] first)
  have htaken : ∀ err, created = .error err → err.isFingerprintTaken = false := by
    intro err herr
    exact Bool.eq_false_iff.mpr fun htaken => h err herr (code_of_isFingerprintTaken herr htaken)
  have hplain : plain = exec server [⟨first, server [] first⟩]
      (afterCreate licenseId scope autoDeleteOnOverage created) := by
    simp only [plain, activateMachine_eq]
    rfl
  have hidempotent : idempotent = exec server [⟨first, server [] first⟩]
      (afterCreateIdempotent licenseId fingerprint scope autoDeleteOnOverage pages created) := by
    simp only [idempotent, activateMachineIdempotent_eq]
    rfl
  have hmap : plain =
      (idempotent.1, idempotent.2.map fun outcome => outcome.map (·.validation)) := by
    rw [hplain, afterCreate_eq_map licenseId fingerprint scope autoDeleteOnOverage pages htaken,
      exec_map, hidempotent]
  obtain ⟨result, hresult⟩ :=
    (returns_afterCreate licenseId scope autoDeleteOnOverage created).exec server
      [⟨first, server [] first⟩]
  rw [← hplain, hmap] at hresult
  obtain ⟨outcome, houtcome, -⟩ := Option.map_eq_some_iff.mp hresult
  refine ⟨congrArg Prod.fst hmap, outcome, houtcome, ?_, ?_⟩
  · rw [hmap, houtcome, Option.map_some]
  · rw [hidempotent] at houtcome
    exact (yields_not_reused licenseId fingerprint scope autoDeleteOnOverage pages htaken).exec
      houtcome

/-- A server that creates every machine, as the same row, and finds the licence valid. -/
def obligingServer : List blankClient.Exchange → (op : Op) → Reply blankClient.reqwest op
  | _, .send request =>
      if request.path = "/machines" then
        .ok ⟨201, [], some (machineDocument (blankMachine "machine" "fingerprint"))⟩
      else .ok ⟨200, [], some (validationDocument blankLicense "2026-01-01T00:00:00Z" true "VALID")⟩
  | _, .sleep _ => ()

theorem activations_agree_obliging :
    let plain := exec obligingServer []
      (blankClient.activateMachine blankLicenseId "fingerprint" blankOptions none true)
    let idempotent := exec obligingServer []
      (blankClient.activateMachineIdempotent 1 blankLicenseId "fingerprint" blankOptions none true)
    plain.1 = idempotent.1 ∧ ∃ outcome, idempotent.2 = some outcome ∧
      plain.2 = some (outcome.map (·.validation)) ∧
        ∀ activation, outcome = .ok activation → activation.reused = false :=
  activations_agree blankClient blankLicenseId "fingerprint" blankOptions none true 1
    obligingServer (by
      intro err herr
      have hcreated := createOutcome_created roundTrips_blankClient
        (readable_blankMachine "machine" "fingerprint")
      cases hcreated.symm.trans herr)

end Agreement

end Tamga.ActivationAgreement
