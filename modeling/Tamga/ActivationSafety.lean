import Tamga.ServerResponses

namespace Tamga.ActivationSafety

open Library.Text
open Library.Interaction.Prog
open Tamga.Models
open Tamga.ApiModels
open Tamga.ApiErrors
open Tamga.Transport
open Tamga.Client
open Tamga.RetryBounds
open Tamga.ActivationFlow

variable {cl : Client}

section Quiet

def isCreate (request : Request) : Bool :=
  request.method = .post && request.path == "/machines"

def isDelete (request : Request) : Bool := request.method = .delete

/-- No seat is taken or given up. -/
def Quiet (events : List cl.Exchange) : Prop :=
  ∀ request ∈ requests events, isCreate request = false ∧ isDelete request = false

theorem Quiet.creates {events : List cl.Exchange} (h : Quiet events) :
    (requests events).filter isCreate = [] :=
  List.filter_eq_nil_iff.mpr fun request hmem => Bool.eq_false_iff.mp (h request hmem).1

theorem Quiet.deletes {events : List cl.Exchange} (h : Quiet events) :
    (requests events).filter isDelete = [] :=
  List.filter_eq_nil_iff.mpr fun request hmem => Bool.eq_false_iff.mp (h request hmem).2

theorem quiet_nil : Quiet ([] : List cl.Exchange) := nofun

theorem Quiet.append {front back : List cl.Exchange} (hfront : Quiet front) (hback : Quiet back) :
    Quiet (front ++ back) :=
  forall_requests_append.mpr ⟨hfront, hback⟩

theorem quiet_of_append {front back : List cl.Exchange} (h : Quiet (front ++ back)) :
    Quiet front ∧ Quiet back :=
  forall_requests_append.mp h

theorem meets_ret_quiet {α : Type} {front : List cl.Exchange} {value : α}
    {results : List cl.Exchange → α → Prop} (hquiet : Quiet front) (h : results front value) :
    Meets (.ret value : cl.Io α) fun back result => Quiet (front ++ back) ∧
      ∀ outcome, result = some outcome → results (front ++ back) outcome := by
  refine meets_ret ?_
  rw [List.append_nil]
  refine ⟨hquiet, ?_⟩
  rintro _ ⟨⟩
  exact h

def Harmless {α : Type} (p : cl.Io α) : Prop :=
  Asks (fun request => isCreate request = false ∧ isDelete request = false) p

theorem isCreate_validateRequest (licenseId : cl.json.Uuid)
    (scope : Option (ScopeObject cl.json)) (skipTouch : Bool) :
    isCreate (validateRequest cl licenseId scope skipTouch) = false := by
  refine Bool.and_eq_false_iff.mpr (Or.inr (beq_eq_false_iff_ne.mpr fun hpath => ?_))
  have hends : endsWith "/machines" "/actions/validate" = true :=
    hpath ▸ endsWith_append ("/licenses/" ++ cl.json.printUuid licenseId) "/actions/validate"
  exact absurd hends (by decide)

theorem harmless_validateById (licenseId : cl.json.Uuid) (scope : Option (ScopeObject cl.json))
    (skipTouch : Bool) : Harmless (cl.validateById licenseId scope skipTouch none) :=
  asks_validateById ⟨isCreate_validateRequest licenseId scope skipTouch, rfl⟩

theorem harmless_findFrom (licenseId : cl.json.Uuid) (fingerprint : String) (pages : Nat)
    (pageNumber : Int64) : Harmless (cl.findFrom licenseId fingerprint pages pageNumber) :=
  asks_findFrom (fun _ => ⟨rfl, rfl⟩) pages pageNumber

end Quiet

section Settle

variable {α : Type} {machine : MachineResource cl.json} {licenseId : cl.json.Uuid}
  {scope : Option (ScopeObject cl.json)} {autoDeleteOnOverage : Bool}
  {events : List cl.Exchange}

theorem steps_rollBack {needed : Bool} {value : α} {q : cl.Io α}
    (h : Steps (rollBack machine needed value) events q) :
    (events = [] ∧ (needed = false → q = .ret value) ∧ (needed = true → q.value? = none)) ∨
      ∃ reply, needed = true ∧
        events = [⟨.send (cl.deleteMachineRequest machine.id), reply⟩] ∧ q = .ret value := by
  cases needed with
  | false =>
      obtain ⟨rfl, rfl⟩ := steps_ret_iff.mp h
      exact Or.inl ⟨rfl, fun _ => rfl, fun h => by cases h⟩
  | true =>
      rw [rollBack_true] at h
      rcases steps_ask_iff.mp h with ⟨rfl, rfl⟩ | ⟨reply, rest, rfl, hrest⟩
      · exact Or.inl ⟨rfl, fun h => (Bool.noConfusion h), fun _ => rfl⟩
      · obtain ⟨rfl, rfl⟩ := steps_ret_iff.mp hrest
        exact Or.inr ⟨reply, rfl, rfl, rfl⟩

/-- What follows a create that succeeded: a validation, and the rollback that its
verdict asks for. -/
def settle (machine : MachineResource cl.json) (licenseId : cl.json.Uuid)
    (scope : Option (ScopeObject cl.json)) (autoDeleteOnOverage : Bool)
    (report : Except cl.Error (ValidationResult cl.json) → α) : cl.Io α :=
  (cl.validateById licenseId scope false none).bind fun verdict =>
    rollBack machine (overLimit autoDeleteOnOverage verdict) (report verdict)

/-- A run of `settle` that has not sent a delete, or one that has and is over. -/
theorem steps_settle {report : Except cl.Error (ValidationResult cl.json) → α} {q : cl.Io α}
    (h : Steps (settle machine licenseId scope autoDeleteOnOverage report) events q) :
    (Quiet events ∧ ∀ value, q.value? = some value →
        ∃ verdict, overLimit autoDeleteOnOverage verdict = false ∧
          Steps (cl.validateById licenseId scope false none) events (.ret verdict) ∧
            value = report verdict) ∨
      ∃ verdict validated reply, overLimit autoDeleteOnOverage verdict = true ∧
        Steps (cl.validateById licenseId scope false none) validated (.ret verdict) ∧
          events = validated ++ [⟨.send (cl.deleteMachineRequest machine.id), reply⟩] ∧
            q = .ret (report verdict) := by
  rcases h.of_bind with ⟨p', hp', hpending, rfl⟩ |
    ⟨verdict, validated, back, rfl, hvalidated, hback⟩
  · refine Or.inl ⟨harmless_validateById licenseId scope false events p' hp', ?_⟩
    intro value hvalue
    cases (value?_bind hpending).symm.trans hvalue
  · have hquiet := harmless_validateById licenseId scope false validated _ hvalidated
    rcases steps_rollBack hback with ⟨rfl, hdone, hpending⟩ | ⟨reply, hneeded, rfl, rfl⟩
    · rw [List.append_nil]
      refine Or.inl ⟨hquiet, fun value hvalue => ?_⟩
      cases hneeded : overLimit autoDeleteOnOverage verdict with
      | false =>
          rw [hdone hneeded] at hvalue
          exact ⟨verdict, hneeded, hvalidated, (Option.some.inj hvalue).symm⟩
      | true =>
          rw [hpending hneeded] at hvalue
          cases hvalue
    · exact Or.inr ⟨verdict, validated, reply, hneeded, hvalidated, rfl, rfl⟩

end Settle

section Seats

variable {α : Type} (licenseId : cl.json.Uuid) (fingerprint : String)
  (opts : CreateMachineOptions cl.json) (scope : Option (ScopeObject cl.json))
  (autoDeleteOnOverage : Bool) (pages : Nat)

/-- The machine that this very call created is deleted, once, after a validation
that found the licence over one of its limits. -/
def RolledBack (created : Except cl.Error (MachineResource cl.json))
    (rest : List cl.Exchange) : Prop :=
  ∃ machine validation validated reply,
    created = .ok machine ∧ autoDeleteOnOverage = true ∧
      Steps (cl.validateById licenseId scope false none) validated (.ret (.ok validation)) ∧
        isOverageCode validation.meta.code = true ∧ Quiet validated ∧
          rest = validated ++ [⟨.send (cl.deleteMachineRequest machine.id), reply⟩]

/-- What a run may do to the seats, and what it may return: `results` judges a
result by the answer to the create and by what was exchanged after it. -/
structure KeepsSeats
    (results : Except cl.Error (MachineResource cl.json) → List cl.Exchange → α → Prop)
    (events : List cl.Exchange) (result : Option α) : Prop where
  creates : (requests events).filter isCreate =
    if events.isEmpty then [] else [createMachineRequest cl licenseId fingerprint opts]
  deletes : (requests events).filter isDelete = [] ∨
    ∃ reply rest machine,
      events = ⟨.send (createMachineRequest cl licenseId fingerprint opts), reply⟩ :: rest ∧
        createOutcome cl reply = .ok machine ∧
          RolledBack licenseId scope autoDeleteOnOverage (createOutcome cl reply) rest ∧
            (requests events).filter isDelete = [cl.deleteMachineRequest machine.id]
  returned : ∀ outcome, result = some outcome →
    ∃ reply rest,
      events = ⟨.send (createMachineRequest cl licenseId fingerprint opts), reply⟩ :: rest ∧
        results (createOutcome cl reply) rest outcome

theorem isCreate_createMachineRequest :
    isCreate (createMachineRequest cl licenseId fingerprint opts) = true := by
  simp [isCreate, createMachineRequest]

theorem RolledBack.creates {created : Except cl.Error (MachineResource cl.json)}
    {rest : List cl.Exchange} (h : RolledBack licenseId scope autoDeleteOnOverage created rest) :
    (requests rest).filter isCreate = [] := by
  obtain ⟨machine, _, validated, reply, -, -, -, -, hquiet, rfl⟩ := h
  rw [requests_append, List.filter_append, hquiet.creates]
  rfl

theorem meets_keepsSeats
    {results : Except cl.Error (MachineResource cl.json) → List cl.Exchange → α → Prop}
    {after : Except cl.Error (MachineResource cl.json) → cl.Io α}
    (hafter : ∀ created, Meets (after created) fun rest result =>
      (Quiet rest ∨ RolledBack licenseId scope autoDeleteOnOverage created rest) ∧
        ∀ outcome, result = some outcome → results created rest outcome) :
    Meets (.ask (.send (createMachineRequest cl licenseId fingerprint opts)) fun reply =>
        after (createOutcome cl reply) : cl.Io α)
      (KeepsSeats licenseId fingerprint opts scope autoDeleteOnOverage results) := by
  refine meets_ask ⟨rfl, Or.inl rfl, fun _ h => by cases h⟩ fun reply => ?_
  refine (hafter (createOutcome cl reply)).mono ?_
  rintro rest result ⟨hseats, hresults⟩
  refine ⟨?_, ?_, fun outcome h => ⟨reply, rest, rfl, hresults outcome h⟩⟩
  · rw [requests_send, List.filter_cons_of_pos (isCreate_createMachineRequest _ _ _)]
    rcases hseats with hquiet | hrolled
    · rw [hquiet.creates]
      rfl
    · rw [hrolled.creates]
      rfl
  · rw [requests_send, List.filter_cons_of_neg Bool.false_ne_true]
    rcases hseats with hquiet | hrolled
    · exact Or.inl hquiet.deletes
    · obtain ⟨machine, _, validated, _, hcreated, -, -, -, hquiet, rfl⟩ := id hrolled
      refine Or.inr ⟨reply, _, machine, rfl, hcreated, hrolled, ?_⟩
      rw [requests_append, List.filter_append, hquiet.deletes]
      rfl

end Seats

section Results

variable (licenseId : cl.json.Uuid) (fingerprint : String) (opts : CreateMachineOptions cl.json)
  (scope : Option (ScopeObject cl.json)) (autoDeleteOnOverage : Bool) (pages : Nat)

def Settled (machine : MachineResource cl.json)
    (verdict : Except cl.Error (ValidationResult cl.json)) (rest : List cl.Exchange) : Prop :=
  ∃ validated, Steps (cl.validateById licenseId scope false none) validated (.ret verdict) ∧
    if overLimit autoDeleteOnOverage verdict then
      ∃ reply, rest = validated ++ [⟨.send (cl.deleteMachineRequest machine.id), reply⟩]
    else rest = validated

/-- A refusal for a limit in the words of a validation, with the licence that a
probe has read; where the probe fails, the refusal itself. -/
def RefusedResult (err : cl.Error) (limit : LimitExceededCode)
    (probe outcome : Except cl.Error (ValidationResult cl.json)) : Prop :=
  match probe with
  | .ok probe =>
      ∃ result, outcome = .ok result ∧ result.meta.valid = false ∧
        result.meta.code = limit.asValidationCode ∧ isOverageCode result.meta.code = true ∧
          result.license = probe.license
  | .error _ => outcome = .error err

def PlainResult (created : Except cl.Error (MachineResource cl.json)) (rest : List cl.Exchange)
    (outcome : Except cl.Error (ValidationResult cl.json)) : Prop :=
  match created with
  | .ok machine => Settled licenseId scope autoDeleteOnOverage machine outcome rest
  | .error err =>
      match err.limitExceeded with
      | some limit =>
          ∃ probe, Steps (cl.validateById licenseId scope true none) rest (.ret probe) ∧
            RefusedResult err limit probe outcome
      | none => rest = [] ∧ outcome = .error err

def AdoptedResult (err : cl.Error) (found : Except cl.Error (Option (MachineResource cl.json)))
    (rest : List cl.Exchange) (outcome : Except cl.Error (MachineActivation cl.json)) : Prop :=
  match found with
  | .ok (some existing) =>
      ∃ verdict, Steps (cl.validateById licenseId scope false none) rest (.ret verdict) ∧
        outcome = verdict.map (adoptedActivation existing)
  | .ok none => rest = [] ∧ outcome = .error err
  | .error failure => rest = [] ∧ outcome = .error failure

def IdempotentResult (created : Except cl.Error (MachineResource cl.json))
    (rest : List cl.Exchange) (outcome : Except cl.Error (MachineActivation cl.json)) : Prop :=
  match created with
  | .ok machine =>
      ∃ verdict, Settled licenseId scope autoDeleteOnOverage machine verdict rest ∧
        outcome = verdict.map
          (createdActivation machine (overLimit autoDeleteOnOverage verdict))
  | .error err =>
      if err.isFingerprintTaken then
        ∃ found searched back, rest = searched ++ back ∧
          Steps (cl.findMachineByFingerprint pages licenseId fingerprint) searched (.ret found) ∧
            AdoptedResult licenseId scope err found back outcome
      else
        match err.limitExceeded with
        | some limit =>
            ∃ probe result,
              Steps (cl.validateById licenseId scope true none) rest (.ret probe) ∧
                RefusedResult err limit probe result ∧ outcome = result.map refusedActivation
        | none => rest = [] ∧ outcome = .error err

variable {licenseId scope autoDeleteOnOverage}

theorem isOverageCode_asValidationCode (limit : LimitExceededCode) :
    isOverageCode limit.asValidationCode = true := by
  cases limit <;> rfl

theorem overLimit_eq_true_iff {verdict : Except cl.Error (ValidationResult cl.json)} :
    overLimit autoDeleteOnOverage verdict = true ↔
      autoDeleteOnOverage = true ∧
        ∃ validation, verdict = .ok validation ∧ isOverageCode validation.meta.code = true := by
  unfold overLimit
  rw [Bool.and_eq_true]
  refine and_congr_right fun _ => ?_
  cases verdict with
  | error => simp
  | ok validation => simp

theorem meets_settle {α : Type} (machine : MachineResource cl.json)
    (report : Except cl.Error (ValidationResult cl.json) → α) :
    Meets (settle machine licenseId scope autoDeleteOnOverage report) fun rest result =>
      (Quiet rest ∨ RolledBack licenseId scope autoDeleteOnOverage (.ok machine) rest) ∧
        ∀ value, result = some value →
          ∃ verdict, Settled licenseId scope autoDeleteOnOverage machine verdict rest ∧
            value = report verdict := by
  intro rest q hsteps
  rcases steps_settle hsteps with ⟨hquiet, hdone⟩ |
    ⟨verdict, validated, reply, hneeded, hrun, rfl, rfl⟩
  · refine ⟨Or.inl hquiet, fun value hvalue => ?_⟩
    obtain ⟨verdict, hkept, hrun, rfl⟩ := hdone value hvalue
    refine ⟨verdict, ⟨rest, hrun, ?_⟩, rfl⟩
    rw [hkept, if_neg Bool.false_ne_true]
  · obtain ⟨hauto, validation, rfl, hcode⟩ := overLimit_eq_true_iff.mp hneeded
    have hquiet := harmless_validateById licenseId scope false validated _ hrun
    refine ⟨Or.inr ⟨machine, validation, validated, reply, rfl, hauto, hrun, hcode, hquiet, rfl⟩,
      ?_⟩
    rintro _ ⟨⟩
    refine ⟨.ok validation, ⟨validated, hrun, ?_⟩, rfl⟩
    rw [if_pos hneeded]
    exact ⟨reply, rfl⟩

theorem meets_overLimitResult (limit : LimitExceededCode) (err : cl.Error) :
    Meets (cl.overLimitResultWithoutMachine licenseId scope limit err) fun rest result =>
      Quiet rest ∧ ∀ outcome, result = some outcome →
        ∃ probe, Steps (cl.validateById licenseId scope true none) rest (.ret probe) ∧
          RefusedResult err limit probe outcome := by
  refine meets_bind_steps ?_ ?_
  · intro events p' hsteps _
    exact ⟨harmless_validateById licenseId scope true events p' hsteps, fun _ h => by cases h⟩
  · intro front probe hprobe
    have hquiet := harmless_validateById licenseId scope true front _ hprobe
    cases probe with
    | ok probe =>
        refine meets_ret ?_
        rw [List.append_nil]
        refine ⟨hquiet, ?_⟩
        rintro _ ⟨⟩
        exact ⟨.ok probe, hprobe, _, rfl, rfl, rfl, isOverageCode_asValidationCode limit, rfl⟩
    | error failure =>
        refine meets_ret ?_
        rw [List.append_nil]
        refine ⟨hquiet, ?_⟩
        rintro _ ⟨⟩
        exact ⟨.error failure, hprobe, rfl⟩

theorem meets_afterCreate (created : Except cl.Error (MachineResource cl.json)) :
    Meets (afterCreate licenseId scope autoDeleteOnOverage created) fun rest result =>
      (Quiet rest ∨ RolledBack licenseId scope autoDeleteOnOverage created rest) ∧
        ∀ outcome, result = some outcome →
          PlainResult licenseId scope autoDeleteOnOverage created rest outcome := by
  cases created with
  | ok machine =>
      refine (meets_settle machine fun verdict => verdict).mono ?_
      rintro rest result ⟨hseats, hresults⟩
      refine ⟨hseats, fun outcome h => ?_⟩
      obtain ⟨verdict, hsettled, rfl⟩ := hresults outcome h
      exact hsettled
  | error err =>
      simp only [afterCreate, PlainResult]
      cases err.limitExceeded with
      | none =>
          refine meets_ret ⟨Or.inl quiet_nil, ?_⟩
          rintro _ ⟨⟩
          exact ⟨rfl, rfl⟩
      | some limit =>
          refine (meets_overLimitResult limit err).mono ?_
          rintro rest result ⟨hquiet, hresults⟩
          exact ⟨Or.inl hquiet, hresults⟩

theorem meets_adopt (err : cl.Error)
    (found : Except cl.Error (Option (MachineResource cl.json))) :
    Meets (adopt licenseId scope err found) fun rest result =>
      Quiet rest ∧ ∀ outcome, result = some outcome →
        AdoptedResult licenseId scope err found rest outcome := by
  match found with
  | .error failure => exact meets_ret_quiet quiet_nil ⟨rfl, rfl⟩
  | .ok none => exact meets_ret_quiet quiet_nil ⟨rfl, rfl⟩
  | .ok (some existing) =>
      refine meets_bind_steps ?_ ?_
      · intro events p' hsteps _
        exact ⟨harmless_validateById licenseId scope false events p' hsteps, fun _ h => by cases h⟩
      · intro front verdict hrun
        exact meets_ret_quiet (harmless_validateById licenseId scope false front _ hrun)
          ⟨verdict, hrun, rfl⟩

theorem meets_afterCreateIdempotent (created : Except cl.Error (MachineResource cl.json)) :
    Meets (afterCreateIdempotent licenseId fingerprint scope autoDeleteOnOverage pages created)
      fun rest result =>
        (Quiet rest ∨ RolledBack licenseId scope autoDeleteOnOverage created rest) ∧
          ∀ outcome, result = some outcome →
            IdempotentResult licenseId fingerprint scope autoDeleteOnOverage pages created rest
              outcome := by
  cases created with
  | ok machine => exact meets_settle machine _
  | error err =>
      simp only [afterCreateIdempotent, IdempotentResult]
      split
      · refine meets_bind_steps ?_ ?_
        · intro events p' hsteps _
          exact ⟨Or.inl (harmless_findFrom licenseId fingerprint pages 1 events p' hsteps),
            fun _ h => by cases h⟩
        · intro front found hfound
          have hquiet : Quiet front :=
            harmless_findFrom licenseId fingerprint pages 1 front _ hfound
          refine (meets_adopt err found).mono ?_
          rintro back result ⟨hback, hresults⟩
          refine ⟨Or.inl (hquiet.append hback), fun outcome h => ?_⟩
          exact ⟨found, front, back, rfl, hfound, hresults outcome h⟩
      · cases err.limitExceeded with
        | none =>
            refine meets_ret ⟨Or.inl quiet_nil, ?_⟩
            rintro _ ⟨⟩
            exact ⟨rfl, rfl⟩
        | some limit =>
            refine meets_bind (meets_overLimitResult limit err) ?_ ?_
            · rintro events ⟨hquiet, -⟩
              exact ⟨Or.inl hquiet, fun _ h => by cases h⟩
            · rintro front result ⟨hquiet, hresults⟩
              refine meets_ret ?_
              rw [List.append_nil]
              refine ⟨Or.inl hquiet, ?_⟩
              rintro _ ⟨⟩
              obtain ⟨probe, hprobe, hrefused⟩ := hresults result rfl
              exact ⟨probe, result, hprobe, hrefused, rfl⟩

end Results

section Whole

variable (licenseId : cl.json.Uuid) (fingerprint : String) (opts : CreateMachineOptions cl.json)
  (scope : Option (ScopeObject cl.json)) (autoDeleteOnOverage : Bool) (pages : Nat)

def isSearch (request : Request) : Bool :=
  request.method = .get && request.path == "/machines"

/-- The whole run begins with the create, and never sends another. -/
def CreatesOnce {α : Type} (run : List cl.Exchange × Option α) : Prop :=
  (∃ reply rest,
    run.1 = ⟨.send (createMachineRequest cl licenseId fingerprint opts), reply⟩ :: rest) ∧
  (requests run.1).filter isCreate = [createMachineRequest cl licenseId fingerprint opts]

variable {licenseId fingerprint opts scope autoDeleteOnOverage pages}
  {events : List cl.Exchange}

theorem one_le_countP_isSearch {opts : ListMachinesOptions cl.json}
    {page : OffsetPage (MachineResource cl.json)}
    (h : Steps (cl.listMachines opts) events (.ret (.ok page))) :
    1 ≤ (requests events).countP isSearch := by
  obtain ⟨sent, hsending, hresult⟩ := meets_andThen_ret (meets_sendWithRetry _) events _ h
  obtain ⟨outcome, hsent, -⟩ := Option.map_eq_some_iff.mp hresult.symm
  obtain ⟨throttled, last, houtcomes, -⟩ := hsending.returned hsent
  have hsearch : isSearch (cl.listMachinesRequest opts) = true := rfl
  rw [hsending.requests_eq, List.countP_replicate, if_pos hsearch, houtcomes, List.length_append]
  exact Nat.le_add_left 1 _

/-- A search that has used up its bound has asked for that many pages. -/
theorem pages_le_of_findFrom {pageNumber : Int64}
    (h : Steps (cl.findFrom licenseId fingerprint pages pageNumber) events .stop) :
    pages ≤ (requests events).countP isSearch := by
  induction pages generalizing pageNumber events with
  | zero => exact Nat.zero_le _
  | succ pages ih =>
      rcases h.of_bind_stop with hstop | ⟨outcome, front, back, rfl, hfront, hback⟩
      · exact absurd rfl ((returns_listMachines _).ne_stop hstop)
      · cases outcome with
        | error err => cases (steps_ret_iff.mp hback).2
        | ok page =>
            have hone := one_le_countP_isSearch hfront
            have hrest : pages ≤ (requests back).countP isSearch := by
              dsimp only at hback
              split at hback
              · cases (steps_ret_iff.mp hback).2
              · split at hback
                · exact ih hback
                · cases (steps_ret_iff.mp hback).2
            rw [requests_append, List.countP_append]
            omega

theorem pages_le_of_afterCreate {created : Except cl.Error (MachineResource cl.json)}
    (h : Steps (afterCreateIdempotent licenseId fingerprint scope autoDeleteOnOverage pages
      created) events .stop) : pages ≤ (requests events).countP isSearch := by
  cases created with
  | ok machine =>
      have hreturns : (afterCreateIdempotent licenseId fingerprint scope autoDeleteOnOverage pages
          (.ok machine) : cl.Call _).Returns :=
        (returns_validateById licenseId scope false none).bind fun _ => returns_rollBack _ _ _
      exact absurd rfl (hreturns.ne_stop h)
  | error err =>
      simp only [afterCreateIdempotent] at h
      split at h
      · rcases h.of_bind_stop with hstop | ⟨found, front, back, rfl, hfront, hback⟩
        · exact pages_le_of_findFrom hstop
        · exact absurd rfl ((returns_adopt licenseId scope err found).ne_stop hback)
      · split at h
        · rename_i limit _
          have hreturns : ((cl.overLimitResultWithoutMachine licenseId scope limit err).map
              fun result => result.map refusedActivation).Returns :=
            (returns_overLimitResult licenseId scope limit err).bind fun _ => .ret _
          exact absurd rfl (hreturns.ne_stop h)
        · cases (steps_ret_iff.mp h).2

/-- A whole run against a server: the create, and then a run of what follows it. -/
theorem createsOnce_exec {α : Type}
    {results : Except cl.Error (MachineResource cl.json) → List cl.Exchange → α → Prop}
    {after : Except cl.Error (MachineResource cl.json) → cl.Io α}
    (hafter : ∀ created, Meets (after created) fun rest result =>
      (Quiet rest ∨ RolledBack licenseId scope autoDeleteOnOverage created rest) ∧
        ∀ outcome, result = some outcome → results created rest outcome)
    (server : List cl.Exchange → (op : Op) → Reply cl.reqwest op) :
    let run := exec server []
      (.ask (.send (createMachineRequest cl licenseId fingerprint opts)) fun reply =>
        after (createOutcome cl reply) : cl.Io α)
    CreatesOnce licenseId fingerprint opts run ∧
      (run.2 = none → ∃ created rest, Steps (after created) rest .stop ∧
        (requests rest).Sublist (requests run.1)) := by
  intro run
  let create : Op := .send (createMachineRequest cl licenseId fingerprint opts)
  obtain ⟨rest, q, hsteps, hend, hexec⟩ := exec_steps server [⟨create, server [] create⟩]
    (after (createOutcome cl (server [] create)))
  have hrun : run = (⟨create, server [] create⟩ :: rest, q.value?) := hexec
  have hseats := meets_keepsSeats licenseId fingerprint opts scope autoDeleteOnOverage hafter
    (⟨create, server [] create⟩ :: rest) q (.ask hsteps)
  rw [hrun]
  refine ⟨⟨⟨_, rest, rfl⟩, hseats.creates⟩, fun hnone => ?_⟩
  exact ⟨_, rest, hend hnone ▸ hsteps, List.sublist_cons_self _ _⟩

end Whole

section Claims

variable (cl) (licenseId : cl.json.Uuid) (fingerprint : String)
  (opts : CreateMachineOptions cl.json) (scope : Option (ScopeObject cl.json))
  (autoDeleteOnOverage : Bool) (pages : Nat)

/-- What the idempotent call says of the machine: an adopted one is reported, and
none is reported only where none was created or the one created was deleted. -/
def ReportsMachine (created : Except cl.Error (MachineResource cl.json))
    (rest : List cl.Exchange) (activation : MachineActivation cl.json) : Prop :=
  match activation.machine with
  | some machine =>
      Quiet rest ∧
        ((activation.reused = true ∧
            ∃ err, created = .error err ∧ err.isFingerprintTaken = true) ∨
          (activation.reused = false ∧ created = .ok machine))
  | none =>
      activation.reused = false ∧
        (RolledBack licenseId scope autoDeleteOnOverage created rest ∨
          ∃ err limit, created = .error err ∧ err.limitExceeded = some limit)

variable {cl licenseId fingerprint scope autoDeleteOnOverage pages}

theorem reportsMachine_of_created {machine : MachineResource cl.json}
    {verdict : Except cl.Error (ValidationResult cl.json)} {rest : List cl.Exchange}
    {activation : MachineActivation cl.json}
    (hsettled : Settled licenseId scope autoDeleteOnOverage machine verdict rest)
    (houtcome : .ok activation = verdict.map
      (createdActivation machine (overLimit autoDeleteOnOverage verdict))) :
    ReportsMachine cl licenseId scope autoDeleteOnOverage (.ok machine) rest activation := by
  obtain ⟨validated, hrun, hrest⟩ := hsettled
  have hquiet := harmless_validateById licenseId scope false validated _ hrun
  cases verdict with
  | error => cases houtcome
  | ok validation =>
      cases houtcome
      cases hneeded : overLimit autoDeleteOnOverage (.ok validation) with
      | true =>
          obtain ⟨hauto, _, ⟨⟩, hcode⟩ := overLimit_eq_true_iff.mp hneeded
          rw [if_pos hneeded] at hrest
          obtain ⟨reply, rfl⟩ := hrest
          exact ⟨rfl, Or.inl ⟨machine, validation, validated, reply, rfl, hauto, hrun, hcode,
            hquiet, rfl⟩⟩
      | false =>
          rw [hneeded, if_neg Bool.false_ne_true] at hrest
          subst hrest
          exact ⟨hquiet, Or.inr ⟨rfl, rfl⟩⟩

theorem reportsMachine {created : Except cl.Error (MachineResource cl.json)}
    {rest : List cl.Exchange} {activation : MachineActivation cl.json}
    (hseats : Quiet rest ∨ RolledBack licenseId scope autoDeleteOnOverage created rest)
    (h : IdempotentResult licenseId fingerprint scope autoDeleteOnOverage pages created rest
      (.ok activation)) :
    ReportsMachine cl licenseId scope autoDeleteOnOverage created rest activation := by
  cases created with
  | ok machine =>
      obtain ⟨verdict, hsettled, houtcome⟩ := h
      exact reportsMachine_of_created hsettled houtcome
  | error err =>
      have hquiet : Quiet rest := by
        rcases hseats with hquiet | ⟨_, _, _, _, ⟨⟩, -⟩
        exact hquiet
      simp only [IdempotentResult] at h
      split at h
      · rename_i htaken
        obtain ⟨found, searched, back, rfl, -, hadopted⟩ := h
        match found with
        | .error failure => cases hadopted.2
        | .ok none => cases hadopted.2
        | .ok (some existing) =>
            obtain ⟨verdict, -, houtcome⟩ := hadopted
            cases verdict with
            | error => cases houtcome
            | ok validation =>
                cases houtcome
                exact ⟨hquiet, Or.inl ⟨rfl, err, rfl, htaken⟩⟩
      · cases hlimit : err.limitExceeded with
        | none =>
            rw [hlimit] at h
            cases h.2
        | some limit =>
            rw [hlimit] at h
            obtain ⟨_, result, -, -, houtcome⟩ := h
            cases result with
            | error => cases houtcome
            | ok =>
                cases houtcome
                exact ⟨rfl, Or.inr ⟨err, limit, rfl, hlimit⟩⟩

/-- Whatever the server answers, an activation creates one machine at most and deletes
none but that one, and a refusal comes back as what it was.  A whole run sends its one
create first, and returns unless the search uses up its bound. -/
theorem activation_keeps_seats (cl : Client) (licenseId : cl.json.Uuid) (fingerprint : String)
    (opts : CreateMachineOptions cl.json) (scope : Option (ScopeObject cl.json))
    (autoDeleteOnOverage : Bool) (pages : Nat) :
    (∀ events q,
      Steps (cl.activateMachine licenseId fingerprint opts scope autoDeleteOnOverage) events q →
        KeepsSeats licenseId fingerprint opts scope autoDeleteOnOverage
          (PlainResult licenseId scope autoDeleteOnOverage) events q.value?) ∧
    (∀ events q,
      Steps (cl.activateMachineIdempotent pages licenseId fingerprint opts scope
          autoDeleteOnOverage) events q →
        KeepsSeats licenseId fingerprint opts scope autoDeleteOnOverage
          (IdempotentResult licenseId fingerprint scope autoDeleteOnOverage pages)
          events q.value?) ∧
    (∀ events activation,
      Steps (cl.activateMachineIdempotent pages licenseId fingerprint opts scope
          autoDeleteOnOverage) events (.ret (.ok activation)) →
        ∃ reply rest,
          events = ⟨.send (createMachineRequest cl licenseId fingerprint opts), reply⟩ :: rest ∧
            ReportsMachine cl licenseId scope autoDeleteOnOverage (createOutcome cl reply) rest
              activation) ∧
    (∀ server,
      let run := exec server []
        (cl.activateMachine licenseId fingerprint opts scope autoDeleteOnOverage)
      CreatesOnce licenseId fingerprint opts run ∧ ∃ outcome, run.2 = some outcome) ∧
    (∀ server,
      let run := exec server []
        (cl.activateMachineIdempotent pages licenseId fingerprint opts scope autoDeleteOnOverage)
      CreatesOnce licenseId fingerprint opts run ∧
        (run.2 = none → pages ≤ (requests run.1).countP isSearch)) ∧
    ∀ code, isOverageCode code = true ↔
      code = .tooManyMachines ∨ code = .tooManyCores ∨ code = .tooMuchMemory ∨
        code = .tooMuchDisk ∨ code = .tooManyProcesses := by
  refine ⟨?_, ?_, ?_, ?_, ?_, fun _ => isOverageCode_iff⟩
  · rw [activateMachine_eq]
    exact meets_keepsSeats licenseId fingerprint opts scope autoDeleteOnOverage meets_afterCreate
  · rw [activateMachineIdempotent_eq]
    exact meets_keepsSeats licenseId fingerprint opts scope autoDeleteOnOverage
      (meets_afterCreateIdempotent fingerprint pages)
  · intro events activation hsteps
    rw [activateMachineIdempotent_eq] at hsteps
    rcases steps_ask_iff.mp hsteps with ⟨-, ⟨⟩⟩ | ⟨reply, rest, rfl, hrest⟩
    obtain ⟨hseats, hresults⟩ :=
      meets_afterCreateIdempotent fingerprint pages (createOutcome cl reply) rest _ hrest
    exact ⟨reply, rest, rfl, reportsMachine hseats (hresults _ rfl)⟩
  · intro server
    rw [activateMachine_eq]
    refine ⟨(createsOnce_exec meets_afterCreate server).1, ?_⟩
    exact (Returns.ask fun _ => returns_afterCreate ..).exec server []
  · intro server
    rw [activateMachineIdempotent_eq]
    obtain ⟨hcreates, hstop⟩ :=
      createsOnce_exec (meets_afterCreateIdempotent fingerprint pages) server
    refine ⟨hcreates, fun hnone => ?_⟩
    obtain ⟨created, rest, hrest, hsublist⟩ := hstop hnone
    exact (pages_le_of_afterCreate hrest).trans hsublist.countP_le

end Claims

end Tamga.ActivationSafety
