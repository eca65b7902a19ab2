import Tamga.RetryBounds

namespace Tamga.ActivationFlow

open Library.Interaction
open Library.Interaction.Prog
open Tamga.Models
open Tamga.ApiModels
open Tamga.ApiErrors
open Tamga.Transport
open Tamga.Client
open Tamga.RetryBounds

variable {cl : Client}

section Requests

def createMachineRequest (cl : Client) (licenseId : cl.json.Uuid) (fingerprint : String)
    (opts : CreateMachineOptions cl.json) : Request :=
  ⟨.post, "/machines", [], none, some (cl.createMachineBody licenseId fingerprint opts)⟩

def createOutcome (cl : Client) (reply : Except cl.reqwest.Error Response) :
    Except cl.Error (MachineResource cl.json) :=
  (reply.mapError .http).bind
    (cl.read "MachineResource" (envelope (machineResource cl.json)))

def deleteOutcome (cl : Client) (reply : Except cl.reqwest.Error Response) :
    Except cl.Error Unit :=
  (reply.mapError .http).bind cl.readEmpty

def validateRequest (cl : Client) (licenseId : cl.json.Uuid)
    (scope : Option (ScopeObject cl.json)) (skipTouch : Bool) : Request :=
  ⟨.post, "/licenses/" ++ cl.json.printUuid licenseId ++ "/actions/validate", [], none,
    some (cl.validateBody scope skipTouch)⟩

theorem send_andThen_ret {α : Type} (request : Request) (f : Response → Except cl.Error α) :
    ((cl.send request).andThen fun response => .ret (f response)) =
      .ask (.send request) fun reply => .ret ((reply.mapError .http).bind f) := by
  rw [Client.send, andThen, Prog.bind]
  congr 1
  funext reply
  cases reply <;> rfl

/-- A request that may not be repeated goes out once, whatever comes back. -/
theorem sendWithRetry_eq_send {request : Request}
    (h : isRetryable request.method request.path = false) :
    cl.sendWithRetry request = cl.send request := by
  rw [Client.sendWithRetry, Client.sendFrom, Client.send, andThen, Prog.bind]
  congr 1
  funext reply
  cases reply with
  | error => rfl
  | ok response =>
      simp only [Except.mapError, Prog.bind]
      rw [dif_pos (Or.inr (Or.inl h))]

theorem createMachine_eq (licenseId : cl.json.Uuid) (fingerprint : String)
    (opts : CreateMachineOptions cl.json) :
    cl.createMachine licenseId fingerprint opts =
      .ask (.send (createMachineRequest cl licenseId fingerprint opts)) fun reply =>
        .ret (createOutcome cl reply) := by
  rw [Client.createMachine, Client.sendJsonApi, sendWithRetry_eq_send isRetryable_machines,
    send_andThen_ret]
  rfl

theorem deleteMachine_eq (machineId : cl.json.Uuid) :
    cl.deleteMachine machineId =
      .ask (.send (cl.deleteMachineRequest machineId)) fun reply =>
        .ret (deleteOutcome cl reply) := by
  rw [Client.deleteMachine, send_andThen_ret]
  rfl

theorem asks_validateById {kind : Request → Prop} {licenseId : cl.json.Uuid}
    {scope : Option (ScopeObject cl.json)} {skipTouch : Bool}
    (h : kind (validateRequest cl licenseId scope skipTouch)) :
    Asks kind (cl.validateById licenseId scope skipTouch none) :=
  ((asks_sendWithRetry h).andThen fun _ => asks_ret _).andThen fun _ => asks_ret _

end Requests

section Flow

/-- The verdicts that a rollback follows. -/
def overLimit (autoDeleteOnOverage : Bool)
    (verdict : Except cl.Error (ValidationResult cl.json)) : Bool :=
  autoDeleteOnOverage &&
    match verdict with
    | .ok validation => isOverageCode validation.meta.code
    | .error _ => false

def rollBack {α : Type} (machine : MachineResource cl.json) (needed : Bool) (value : α) :
    cl.Io α :=
  if needed then (cl.deleteMachine machine.id).bind fun _ => .ret value else .ret value

/-- Whatever the delete is answered with, the value is returned. -/
theorem rollBack_true {α : Type} (machine : MachineResource cl.json) (value : α) :
    (rollBack machine true value : cl.Io α) =
      .ask (.send (cl.deleteMachineRequest machine.id)) fun _ => .ret value := by
  rw [rollBack, if_pos rfl, deleteMachine_eq]
  rfl

theorem steps_rollBack_kept {α : Type} (machine : MachineResource cl.json) (value : α) :
    Steps (rollBack machine false value : cl.Io α) [] (.ret value) := .refl _

theorem steps_rollBack_deleted {α : Type} (machine : MachineResource cl.json) (value : α)
    (reply : Except cl.reqwest.Error Response) :
    Steps (rollBack machine true value : cl.Io α)
      [⟨.send (cl.deleteMachineRequest machine.id), reply⟩] (.ret value) := by
  rw [rollBack_true]
  exact .ask (.refl _)

variable (licenseId : cl.json.Uuid) (fingerprint : String) (opts : CreateMachineOptions cl.json)
  (scope : Option (ScopeObject cl.json)) (autoDeleteOnOverage : Bool) (pages : Nat)

/-- `activate_machine` from the answer to its create on. -/
def afterCreate : Except cl.Error (MachineResource cl.json) → cl.Call (ValidationResult cl.json)
  | .ok machine =>
      (cl.validateById licenseId scope false none).bind fun verdict =>
        rollBack machine (overLimit autoDeleteOnOverage verdict) verdict
  | .error err =>
      match err.limitExceeded with
      | some limit => cl.overLimitResultWithoutMachine licenseId scope limit err
      | none => .ret (.error err)

def createdActivation (machine : MachineResource cl.json) (rolledBack : Bool)
    (validation : ValidationResult cl.json) : MachineActivation cl.json :=
  ⟨if rolledBack then none else some machine, validation, false⟩

def adoptedActivation (machine : MachineResource cl.json)
    (validation : ValidationResult cl.json) : MachineActivation cl.json :=
  ⟨some machine, validation, true⟩

def refusedActivation (validation : ValidationResult cl.json) : MachineActivation cl.json :=
  ⟨none, validation, false⟩

/-- What the search for the holder of a taken fingerprint leads to. -/
def adopt (err : cl.Error) :
    Except cl.Error (Option (MachineResource cl.json)) → cl.Call (MachineActivation cl.json)
  | .ok (some existing) =>
      (cl.validateById licenseId scope false none).map fun verdict =>
        verdict.map (adoptedActivation existing)
  | .ok none => .ret (.error err)
  | .error failure => .ret (.error failure)

/-- `activate_machine_idempotent` from the answer to its create on. -/
def afterCreateIdempotent :
    Except cl.Error (MachineResource cl.json) → cl.Call (MachineActivation cl.json)
  | .ok machine =>
      (cl.validateById licenseId scope false none).bind fun verdict =>
        rollBack machine (overLimit autoDeleteOnOverage verdict)
          (verdict.map (createdActivation machine (overLimit autoDeleteOnOverage verdict)))
  | .error err =>
      if err.isFingerprintTaken then
        (cl.findMachineByFingerprint pages licenseId fingerprint).bind
          (adopt licenseId scope err)
      else
        match err.limitExceeded with
        | some limit =>
            (cl.overLimitResultWithoutMachine licenseId scope limit err).map fun result =>
              result.map refusedActivation
        | none => .ret (.error err)

theorem returns_validateById (skipTouch : Bool) (otp : Option String) :
    (cl.validateById licenseId scope skipTouch otp).Returns := by
  refine .andThen (.andThen (returns_sendFrom _ 0) ?_) ?_
  · exact fun _ => .ret _
  · exact fun _ => .ret _

theorem returns_rollBack {α : Type} (machine : MachineResource cl.json) (needed : Bool)
    (value : α) : (rollBack machine needed value : cl.Io α).Returns := by
  cases needed with
  | false => exact .ret value
  | true =>
      rw [rollBack_true]
      exact .ask fun _ => .ret value

theorem returns_overLimitResult (limit : LimitExceededCode) (err : cl.Error) :
    (cl.overLimitResultWithoutMachine licenseId scope limit err).Returns := by
  refine (returns_validateById licenseId scope true none).bind fun probe => ?_
  cases probe <;> exact .ret _

theorem returns_afterCreate (created : Except cl.Error (MachineResource cl.json)) :
    (afterCreate licenseId scope autoDeleteOnOverage created).Returns := by
  cases created with
  | ok machine =>
      exact (returns_validateById licenseId scope false none).bind fun _ => returns_rollBack _ _ _
  | error err =>
      simp only [afterCreate]
      cases err.limitExceeded with
      | none => exact .ret _
      | some limit => exact returns_overLimitResult licenseId scope limit err

theorem returns_adopt (err : cl.Error)
    (found : Except cl.Error (Option (MachineResource cl.json))) :
    (adopt licenseId scope err found).Returns := by
  match found with
  | .error failure => exact .ret _
  | .ok none => exact .ret _
  | .ok (some existing) =>
      exact (returns_validateById licenseId scope false none).bind fun _ => .ret _

theorem finishActivation_created (machine : MachineResource cl.json) :
    cl.finishActivation licenseId scope autoDeleteOnOverage (some machine) false =
      (cl.validateById licenseId scope false none).bind fun verdict =>
        rollBack machine (overLimit autoDeleteOnOverage verdict)
          (verdict.map
            (createdActivation machine (overLimit autoDeleteOnOverage verdict))) := by
  rw [Client.finishActivation, andThen]
  congr 1
  funext verdict
  cases verdict with
  | error err =>
      cases autoDeleteOnOverage <;> rfl
  | ok validation =>
      simp only [Bool.not_false, Bool.and_true]
      rfl

theorem finishActivation_adopted (machine : MachineResource cl.json) :
    cl.finishActivation licenseId scope autoDeleteOnOverage (some machine) true =
      (cl.validateById licenseId scope false none).map fun verdict =>
        verdict.map (adoptedActivation machine) := by
  rw [Client.finishActivation, andThen, Prog.map]
  congr 1
  funext verdict
  cases verdict with
  | error err => rfl
  | ok validation =>
      simp only [Bool.not_true, Bool.and_false, Bool.false_and]
      rfl

theorem activateMachine_eq :
    cl.activateMachine licenseId fingerprint opts scope autoDeleteOnOverage =
      .ask (.send (createMachineRequest cl licenseId fingerprint opts)) fun reply =>
        afterCreate licenseId scope autoDeleteOnOverage (createOutcome cl reply) := by
  rw [Client.activateMachine, createMachine_eq, Prog.bind]
  congr 1
  funext reply
  rw [Prog.bind]
  cases createOutcome cl reply with
  | error err => rfl
  | ok machine =>
      simp only [afterCreate]
      congr 1
      funext verdict
      cases autoDeleteOnOverage <;> rfl

theorem activateMachineIdempotent_eq :
    cl.activateMachineIdempotent pages licenseId fingerprint opts scope autoDeleteOnOverage =
      .ask (.send (createMachineRequest cl licenseId fingerprint opts)) fun reply =>
        afterCreateIdempotent licenseId fingerprint scope autoDeleteOnOverage pages
          (createOutcome cl reply) := by
  rw [Client.activateMachineIdempotent, createMachine_eq, Prog.bind]
  congr 1
  funext reply
  rw [Prog.bind]
  cases createOutcome cl reply with
  | ok machine =>
      simp only [afterCreateIdempotent]
      exact finishActivation_created licenseId scope autoDeleteOnOverage machine
  | error err =>
      simp only [afterCreateIdempotent]
      split
      · rw [andThen]
        congr 1
        funext found
        rcases found with _ | (_ | existing)
        · rfl
        · rfl
        · exact finishActivation_adopted licenseId scope autoDeleteOnOverage existing
      · cases err.limitExceeded with
        | none => rfl
        | some limit =>
            simp only [andThen, Prog.map]
            congr 1
            funext result
            cases result <;> rfl

variable {licenseId fingerprint opts scope autoDeleteOnOverage pages}
  {reply : Except cl.reqwest.Error Response}
  {created : Except cl.Error (MachineResource cl.json)} {rest : List cl.Exchange}

theorem steps_activateMachine_iff (hcreated : createOutcome cl reply = created)
    {q : cl.Call (ValidationResult cl.json)} :
    Steps (cl.activateMachine licenseId fingerprint opts scope autoDeleteOnOverage)
        (⟨.send (createMachineRequest cl licenseId fingerprint opts), reply⟩ :: rest) q ↔
      Steps (afterCreate licenseId scope autoDeleteOnOverage created) rest q := by
  rw [activateMachine_eq, steps_ask_cons_iff, hcreated]

theorem steps_activateMachineIdempotent_iff (hcreated : createOutcome cl reply = created)
    {q : cl.Call (MachineActivation cl.json)} :
    Steps (cl.activateMachineIdempotent pages licenseId fingerprint opts scope
          autoDeleteOnOverage)
        (⟨.send (createMachineRequest cl licenseId fingerprint opts), reply⟩ :: rest) q ↔
      Steps (afterCreateIdempotent licenseId fingerprint scope autoDeleteOnOverage pages created)
        rest q := by
  rw [activateMachineIdempotent_eq, steps_ask_cons_iff, hcreated]

end Flow

end Tamga.ActivationFlow
