import Tamga.ActivationSafety

namespace Tamga.RollbackDecision

open Library.Serde
open Library.Interaction
open Library.Interaction.Prog
open Tamga.Dependencies
open Tamga.Models
open Tamga.ApiModels
open Tamga.ApiErrors
open Tamga.Transport
open Tamga.Client
open Tamga.RetryBounds
open Tamga.ActivationFlow
open Tamga.ActivationSafety
open Tamga.ServerResponses

variable {cl : Client} {licenseId : cl.json.Uuid} {fingerprint : String}
  {opts : CreateMachineOptions cl.json} {scope : Option (ScopeObject cl.json)} {pages : Nat}

section Responses

def overLimitResponse : Response :=
  ⟨200, [], some (validationDocument blankLicense "2026-01-01T00:00:00Z" false
    "TOO_MANY_MACHINES")⟩

def overLimitResult : ValidationResult blankClient.json :=
  ⟨blankLicense, ⟨"2026-01-01T00:00:00Z", false, "", .tooManyMachines⟩⟩

theorem validateOutcome_overLimit :
    validateOutcome blankClient overLimitResponse = .ok overLimitResult :=
  validateOutcome_verdict roundTrips_blankClient _ _ _ rfl

end Responses

section Decision

/-- The validation that follows the create decides: its machine is deleted exactly
on an over-limit verdict, and nothing else is; `failure`, with which the call
fails, is that of the validation. -/
def DecidedByVerdict (licenseId : cl.json.Uuid) (scope : Option (ScopeObject cl.json))
    (machine : MachineResource cl.json) (rest : List cl.Exchange) (failure : Option cl.Error) :
    Prop :=
  ∃ verdict validated deleted, rest = validated ++ deleted ∧
    Steps (cl.validateById licenseId scope false none) validated (.ret verdict) ∧
      (cl.deleteMachineRequest machine.id ∈ requests rest ↔
        ∃ validation, verdict = .ok validation ∧ isOverageCode validation.meta.code = true) ∧
        (∀ request ∈ requests rest, isDelete request = true →
          request = cl.deleteMachineRequest machine.id) ∧
          ∀ err, failure = some err ↔ verdict = .error err

def failure {α : Type} : Except cl.Error α → Option cl.Error
  | .ok _ => none
  | .error err => some err

theorem failure_eq_some_iff {α : Type} {outcome : Except cl.Error α} {err : cl.Error} :
    failure outcome = some err ↔ outcome = .error err := by
  cases outcome <;> simp [failure]

theorem failure_map {α β : Type} (outcome : Except cl.Error α) (f : α → β) :
    failure (outcome.map f) = failure outcome := by
  cases outcome <;> rfl

theorem decided_of_settled {machine : MachineResource cl.json}
    {verdict : Except cl.Error (ValidationResult cl.json)} {rest : List cl.Exchange}
    (h : Settled licenseId scope true machine verdict rest) :
    DecidedByVerdict licenseId scope machine rest (failure verdict) := by
  obtain ⟨validated, hrun, hrest⟩ := h
  have hquiet := harmless_validateById licenseId scope false validated _ hrun
  have hkept : ∀ request ∈ requests validated, isDelete request ≠ true :=
    fun request hmem => Bool.eq_false_iff.mp (hquiet request hmem).2
  have hneeded : overLimit true verdict = true ↔
      ∃ validation, verdict = .ok validation ∧ isOverageCode validation.meta.code = true := by
    rw [overLimit_eq_true_iff, and_iff_right rfl]
  split at hrest
  · rename_i hover
    obtain ⟨reply, rfl⟩ := hrest
    refine ⟨verdict, validated, _, rfl, hrun, ?_, ?_, fun err => failure_eq_some_iff⟩
    · rw [← hneeded, requests_append]
      exact iff_of_true (List.mem_append_right _ List.mem_cons_self) hover
    · intro request hmem hdelete
      rw [requests_append] at hmem
      rcases List.mem_append.mp hmem with hmem | hmem
      · exact absurd hdelete (hkept request hmem)
      · exact List.mem_singleton.mp hmem
  · rename_i hunder
    subst hrest
    refine ⟨verdict, rest, [], (List.append_nil rest).symm, hrun, ?_, ?_,
      fun err => failure_eq_some_iff⟩
    · rw [← hneeded]
      exact iff_of_false (fun hmem => hkept _ hmem rfl) hunder
    · intro request hmem hdelete
      exact absurd hdelete (hkept request hmem)

/-- Both calls delete what they created exactly on an over-limit verdict, and
fail exactly where the validation fails. -/
theorem rollback_decided_by_verdict (cl : Client) (licenseId : cl.json.Uuid)
    (fingerprint : String) (opts : CreateMachineOptions cl.json)
    (scope : Option (ScopeObject cl.json)) (pages : Nat)
    {reply : Except cl.reqwest.Error Response} {machine : MachineResource cl.json}
    (rest : List cl.Exchange) (hcreated : createOutcome cl reply = .ok machine) :
    (∀ outcome,
      Steps (cl.activateMachine licenseId fingerprint opts scope true)
          (⟨.send (createMachineRequest cl licenseId fingerprint opts), reply⟩ :: rest)
          (.ret outcome) →
        DecidedByVerdict licenseId scope machine rest (failure outcome)) ∧
    ∀ outcome,
      Steps (cl.activateMachineIdempotent pages licenseId fingerprint opts scope true)
          (⟨.send (createMachineRequest cl licenseId fingerprint opts), reply⟩ :: rest)
          (.ret outcome) →
        DecidedByVerdict licenseId scope machine rest (failure outcome) := by
  constructor
  · intro outcome hsteps
    rw [steps_activateMachine_iff hcreated] at hsteps
    exact decided_of_settled ((meets_afterCreate (.ok machine) rest _ hsteps).2 outcome rfl)
  · intro outcome hsteps
    rw [steps_activateMachineIdempotent_iff hcreated] at hsteps
    obtain ⟨verdict, hsettled, rfl⟩ :=
      (meets_afterCreateIdempotent fingerprint pages (.ok machine) rest _ hsteps).2 outcome rfl
    rw [failure_map]
    exact decided_of_settled hsettled

theorem rollback_decided_by_verdict_recorded :
    @DecidedByVerdict blankClient blankLicenseId none (blankMachine "machine" "fingerprint")
      [⟨.send (validateRequest blankClient blankLicenseId none false), .ok overLimitResponse⟩,
        ⟨.send (blankClient.deleteMachineRequest (blankMachine "machine" "fingerprint").id),
          .ok ⟨204, [], none⟩⟩]
      none := by
  have hcreated := createOutcome_created roundTrips_blankClient
    (readable_blankMachine "machine" "fingerprint")
  have hvalidated : Steps (blankClient.validateById blankLicenseId none false none)
      [⟨.send (validateRequest blankClient blankLicenseId none false), .ok overLimitResponse⟩]
      (.ret (.ok overLimitResult)) := by
    rw [← validateOutcome_overLimit]
    exact steps_validateById (by decide) _ _ _
  refine (rollback_decided_by_verdict blankClient blankLicenseId "fingerprint" blankOptions none 0 _
    hcreated).1 (.ok overLimitResult) ?_
  exact (steps_activateMachine_iff hcreated).mpr (hvalidated.bind (steps_rollBack_deleted _ _ _))

end Decision

section Orphan

/-- No call that fails leaves the machine that it created without a delete. -/
def NeverOrphans (cl : Client) : Prop :=
  ∀ (licenseId : cl.json.Uuid) (fingerprint : String) (opts : CreateMachineOptions cl.json)
    (scope : Option (ScopeObject cl.json)) (pages : Nat)
    (reply : Except cl.reqwest.Error Response) (machine : MachineResource cl.json)
    (rest : List cl.Exchange),
    createOutcome cl reply = .ok machine →
      (∀ err, Steps (cl.activateMachine licenseId fingerprint opts scope true)
          (⟨.send (createMachineRequest cl licenseId fingerprint opts), reply⟩ :: rest)
          (.ret (.error err)) →
        cl.deleteMachineRequest machine.id ∈ requests rest) ∧
      ∀ err, Steps (cl.activateMachineIdempotent pages licenseId fingerprint opts scope true)
          (⟨.send (createMachineRequest cl licenseId fingerprint opts), reply⟩ :: rest)
          (.ret (.error err)) →
        cl.deleteMachineRequest machine.id ∈ requests rest

/-- The machine is created, the validation is refused, and both calls fail there. -/
theorem not_neverOrphans : ¬ NeverOrphans blankClient := by
  intro h
  have hcreated := createOutcome_created roundTrips_blankClient
    (readable_blankMachine "machine" "fingerprint")
  have hrefused : Steps (blankClient.validateById blankLicenseId none false none)
      [⟨.send (validateRequest blankClient blankLicenseId none false),
        .ok ⟨403, [], some (errorDocument "FORBIDDEN")⟩⟩]
      (.ret (.error (.fromJsonApiError (blankError _ "FORBIDDEN")))) := by
    rw [← validateOutcome_refused (show 400 ≤ 403 by decide) (by decide)]
    exact steps_validateById (by decide) _ _ _
  have hmem := (h blankLicenseId "fingerprint" blankOptions none 0 _ _ _ hcreated).1 _
    ((steps_activateMachine_iff hcreated).mpr (hrefused.bind (steps_rollBack_kept _ _)))
  cases List.mem_singleton.mp hmem

end Orphan

end Tamga.RollbackDecision
