import Tamga.Library.Interleaving
import Tamga.MachineSearch
import Tamga.RollbackDecision

/-!
Idempotent activations of one fingerprint at once.  Fingerprints are unique, so one
call at most has a machine that it created and has not deleted.  A machine that was
adopted may be another call's, and goes when that call takes it back.
-/

namespace Tamga.ConcurrentActivation

open Library.Interaction
open Library.Interaction.Prog
open Library.Interleaving
open Tamga.Models
open Tamga.ApiModels
open Tamga.ApiErrors
open Tamga.Transport
open Tamga.Client
open Tamga.RetryBounds
open Tamga.ActivationFlow
open Tamga.ActivationSafety
open Tamga.RollbackDecision
open Tamga.MachineSearch
open Tamga.ServerResponses

variable {cl : Client}

section Server

def machinePath (machine : MachineResource cl.json) : String :=
  (cl.deleteMachineRequest machine.id).path

/-- The machines of a licence.  No two of them have one path, or one fingerprint. -/
structure Seats (cl : Client) where
  rows : List (MachineResource cl.json)
  distinct : (rows.map machinePath).Nodup
  unique : (rows.map fun row => row.attributes.fingerprint).Nodup

def Seats.remove (seats : Seats cl) (path : String) : Seats cl where
  rows := seats.rows.filter fun row => machinePath row != path
  distinct := seats.distinct.sublist (List.filter_sublist.map machinePath)
  unique := seats.unique.sublist (List.filter_sublist.map _)

def Seats.Holds (seats : Seats cl) (machine : MachineResource cl.json) : Prop :=
  ∃ row ∈ seats.rows, machinePath row = machinePath machine

/-- How a create is answered: with the row it adds, or with a refusal.  While the
fingerprint is taken the refusal says so. -/
def Creates (fingerprint : String) (seats : Seats cl)
    (reply : Except cl.reqwest.Error Response) (after : Seats cl) : Prop :=
  (∃ machine, createOutcome cl reply = .ok machine ∧
      hasFingerprint fingerprint machine = true ∧ after.rows = machine :: seats.rows) ∨
    ∃ err, createOutcome cl reply = .error err ∧ after = seats ∧
      ((∃ row ∈ seats.rows, hasFingerprint fingerprint row = true) →
        err.isFingerprintTaken = true)

/-- Of a delete that failed it is not known whether it removed the row. -/
def Deletes (seats : Seats cl) (path : String) (reply : Except cl.reqwest.Error Response)
    (after : Seats cl) : Prop :=
  after = seats.remove path ∨ ∃ err, deleteOutcome cl reply = .error err ∧ after = seats

def Lists (licenseId : cl.json.Uuid) (fingerprint : String) (seats : Seats cl)
    (request : Request) (reply : Except cl.reqwest.Error Response) : Prop :=
  (∃ err, (reply.mapError .http).bind cl.readMachinePage = .error err) ∨
    ∃ listing : List (MachineResource cl.json), listing.Sublist seats.rows ∧
      (∀ row ∈ seats.rows, hasFingerprint fingerprint row = true → row ∈ listing) ∧
        AnswersFrom licenseId fingerprint listing request reply

/-- The server.  `verdict` is how it validates the licence, from the rows it has. -/
def Serves (verdict : Seats cl → Request → Except cl.reqwest.Error Response → Prop)
    (licenseId : cl.json.Uuid) (fingerprint : String) (seats : Seats cl) :
    cl.Exchange → Seats cl → Prop
  | ⟨.send request, reply⟩, after =>
      if isCreate request then Creates fingerprint seats reply after
      else if isDelete request then Deletes seats request.path reply after
      else
        after = seats ∧ (request.method = .get → Lists licenseId fingerprint seats request reply) ∧
          (request.method = .post → verdict seats request reply)
  | ⟨.sleep _, _⟩, after => after = seats

/-- What others do meanwhile: they create machines and change them, and delete none. -/
def Drifts (seats after : Seats cl) : Prop :=
  ∀ row ∈ seats.rows, ∃ other ∈ after.rows, machinePath other = machinePath row ∧
    other.attributes.fingerprint = row.attributes.fingerprint

/-- A server of the calls, and of others that delete no machine. -/
def licenseServer (verdict : Seats cl → Request → Except cl.reqwest.Error Response → Prop)
    (licenseId : cl.json.Uuid) (fingerprint : String) : World (Seats cl) Op (Reply cl.reqwest) :=
  ⟨Serves verdict licenseId fingerprint, Drifts⟩

end Server

section Ownership

variable {licenseId : cl.json.Uuid} {fingerprint : String} {opts : CreateMachineOptions cl.json}
  {scope : Option (ScopeObject cl.json)} {autoDeleteOnOverage : Bool} {pages : Nat}
  {events : List cl.Exchange} {event : cl.Exchange} {machine : MachineResource cl.json}

/-- A call created the machine, and has not sent its delete. -/
def Owns (events : List cl.Exchange) (machine : MachineResource cl.json) : Prop :=
  ∃ request reply rest, events = ⟨.send request, reply⟩ :: rest ∧
    createOutcome cl reply = .ok machine ∧ Quiet rest

theorem not_owns_nil : ¬ Owns ([] : List cl.Exchange) machine := by
  rintro ⟨_, _, _, ⟨⟩, -⟩

theorem owns_singleton {request : Request} {reply : Except cl.reqwest.Error Response}
    (h : Owns [⟨.send request, reply⟩] machine) : createOutcome cl reply = .ok machine := by
  obtain ⟨_, _, _, heq, hcreated, -⟩ := h
  cases heq
  exact hcreated

theorem not_quiet_delete (machine : MachineResource cl.json)
    (reply : Except cl.reqwest.Error Response) :
    ¬ Quiet [⟨.send (cl.deleteMachineRequest machine.id), reply⟩] := by
  intro h
  cases (h _ List.mem_cons_self).2

theorem Owns.of_concat (h : Owns (events ++ [event]) machine) (hevents : events ≠ []) :
    Owns events machine ∧ Quiet [event] := by
  obtain ⟨request, reply, rest, heq, hcreated, hquiet⟩ := h
  cases events with
  | nil => exact absurd rfl hevents
  | cons first back =>
      obtain ⟨rfl, rfl⟩ := List.cons.inj heq
      obtain ⟨hback, hevent⟩ := quiet_of_append hquiet
      exact ⟨⟨request, reply, back, rfl, hcreated, hback⟩, hevent⟩

/-- What may come last in the run of a call: its create, nothing that touches the
seats, or the delete of a machine that is its own. -/
theorem call_step {q : cl.Call (MachineActivation cl.json)}
    (hsteps : Steps (cl.activateMachineIdempotent pages licenseId fingerprint opts scope
      autoDeleteOnOverage) (events ++ [event]) q) :
    (events = [] ∧ ∃ reply,
        event = ⟨.send (createMachineRequest cl licenseId fingerprint opts), reply⟩) ∨
      (events ≠ [] ∧ Quiet [event]) ∨
        ∃ machine reply, events ≠ [] ∧ Owns events machine ∧
          event = ⟨.send (cl.deleteMachineRequest machine.id), reply⟩ := by
  rw [activateMachineIdempotent_eq] at hsteps
  rcases steps_ask_iff.mp hsteps with ⟨hnil, -⟩ | ⟨reply, rest, hevents, hrest⟩
  · exact absurd hnil (List.append_ne_nil_of_right_ne_nil events (List.cons_ne_nil _ _))
  · cases events with
    | nil =>
        obtain ⟨rfl, rfl⟩ := List.cons.inj hevents
        exact Or.inl ⟨rfl, reply, rfl⟩
    | cons first back =>
        obtain ⟨rfl, rfl⟩ := List.cons.inj hevents
        have hne : (⟨.send (createMachineRequest cl licenseId fingerprint opts), reply⟩ ::
            back : List cl.Exchange) ≠ [] := List.cons_ne_nil _ _
        rcases (meets_afterCreateIdempotent fingerprint pages _ _ _ hrest).1 with hquiet |
          ⟨machine, _, validated, answer, hcreated, -, -, -, hquiet, heq⟩
        · exact Or.inr (Or.inl ⟨hne, (quiet_of_append hquiet).2⟩)
        · obtain ⟨rfl, hlast⟩ := List.append_inj' heq rfl
          exact Or.inr (Or.inr ⟨machine, answer, hne, ⟨_, _, _, rfl, hcreated, hquiet⟩,
            List.singleton_inj.mp hlast⟩)

end Ownership

section Exclusion

variable {ι : Type} [DecidableEq ι] {licenseId : cl.json.Uuid} {fingerprint : String}
  {verdict : Seats cl → Request → Except cl.reqwest.Error Response → Prop}
  {log : List (ι × cl.Exchange)} {seats after : Seats cl} {event : cl.Exchange} {k : ι}

/-- The machines that the calls own are there, and one call at most owns one. -/
structure Exclusive (fingerprint : String) (log : List (ι × cl.Exchange)) (seats : Seats cl) :
    Prop where
  held : ∀ i machine, Owns (exchanges i log) machine →
    ∃ row ∈ seats.rows, machinePath row = machinePath machine ∧
      hasFingerprint fingerprint row = true
  alone : ∀ i j machine other, Owns (exchanges i log) machine → Owns (exchanges j log) other → i = j

theorem owns_concat {i : ι} {machine : MachineResource cl.json}
    (h : Owns (exchanges i (log ++ [(k, event)])) machine) :
    (i = k ∧ Owns (exchanges k log ++ [event]) machine) ∨
      (i ≠ k ∧ Owns (exchanges i log) machine) := by
  by_cases hik : i = k
  · subst hik
    rw [exchanges_append_self] at h
    exact Or.inl ⟨rfl, h⟩
  · rw [exchanges_append_other (Ne.symm hik)] at h
    exact Or.inr ⟨hik, h⟩

theorem serves_quiet (hquiet : Quiet [event])
    (hserves : Serves verdict licenseId fingerprint seats event after) : after = seats := by
  obtain ⟨op, reply⟩ := event
  cases op with
  | sleep => exact hserves
  | send request =>
      obtain ⟨hcreate, hdelete⟩ := hquiet request List.mem_cons_self
      rw [Serves, hcreate, hdelete] at hserves
      exact hserves.1

theorem free_of_created {machine : MachineResource cl.json}
    (hmachine : hasFingerprint fingerprint machine = true)
    (hrows : after.rows = machine :: seats.rows) {row : MachineResource cl.json}
    (hrow : row ∈ seats.rows) : hasFingerprint fingerprint row = false := by
  have hunique := after.unique
  rw [hrows, List.map_cons, List.nodup_cons] at hunique
  refine Bool.eq_false_iff.mpr fun hsame => hunique.1 (List.mem_map.mpr ⟨row, hrow, ?_⟩)
  exact (beq_iff_eq.mp hsame).trans (beq_iff_eq.mp hmachine).symm

theorem Exclusive.mono {longer : List (ι × cl.Exchange)} (h : Exclusive fingerprint log seats)
    (hold : ∀ i machine, Owns (exchanges i longer) machine → Owns (exchanges i log) machine) :
    Exclusive fingerprint longer seats :=
  ⟨fun i machine howns => h.held i machine (hold i machine howns),
    fun i j machine other hi hj => h.alone i j machine other (hold i machine hi) (hold j other hj)⟩

theorem Exclusive.create (h : Exclusive fingerprint log seats) (hnone : exchanges k log = [])
    {request : Request} {reply : Except cl.reqwest.Error Response}
    (hcreates : Creates fingerprint seats reply after) :
    Exclusive fingerprint (log ++ [(k, ⟨.send request, reply⟩)]) after := by
  have hown : ∀ {machine}, Owns (exchanges k log ++ [⟨.send request, reply⟩]) machine →
      createOutcome cl reply = .ok machine := by
    intro machine howns
    rw [hnone, List.nil_append] at howns
    exact owns_singleton howns
  rcases hcreates with ⟨created, hcreated, hmatch, hrows⟩ | ⟨err, hrefused, rfl, -⟩
  · have hothers : ∀ {i machine}, ¬ Owns (exchanges i log) machine := by
      intro i machine howns
      obtain ⟨row, hrow, -, hsame⟩ := h.held i machine howns
      cases hsame.symm.trans (free_of_created hmatch hrows hrow)
    refine ⟨fun i machine howns => ?_, fun i j machine other hi hj => ?_⟩
    · rcases owns_concat howns with ⟨rfl, howns⟩ | ⟨-, howns⟩
      · obtain rfl := Except.ok.inj (hcreated.symm.trans (hown howns))
        exact ⟨created, hrows ▸ List.mem_cons_self, rfl, hmatch⟩
      · exact absurd howns hothers
    · rcases owns_concat hi with ⟨rfl, -⟩ | ⟨-, hi⟩
      · rcases owns_concat hj with ⟨rfl, -⟩ | ⟨-, hj⟩
        · rfl
        · exact absurd hj hothers
      · exact absurd hi hothers
  · refine h.mono fun i machine howns => ?_
    rcases owns_concat howns with ⟨rfl, howns⟩ | ⟨-, howns⟩
    · cases hrefused.symm.trans (hown howns)
    · exact howns

theorem Exclusive.quiet (h : Exclusive fingerprint log seats) (hsome : exchanges k log ≠ []) :
    Exclusive fingerprint (log ++ [(k, event)]) seats := by
  refine h.mono fun i machine howns => ?_
  rcases owns_concat howns with ⟨rfl, howns⟩ | ⟨-, howns⟩
  · exact (howns.of_concat hsome).1
  · exact howns

theorem Exclusive.delete (h : Exclusive fingerprint log seats) (hsome : exchanges k log ≠ [])
    {machine : MachineResource cl.json} (howns : Owns (exchanges k log) machine)
    (reply : Except cl.reqwest.Error Response) :
    Exclusive fingerprint
      (log ++ [(k, ⟨.send (cl.deleteMachineRequest machine.id), reply⟩)]) after := by
  have hnone : ∀ {i other},
      ¬ Owns (exchanges i (log ++ [(k, ⟨.send (cl.deleteMachineRequest machine.id), reply⟩)]))
        other := by
    intro i other hother
    rcases owns_concat hother with ⟨rfl, hother⟩ | ⟨hne, hother⟩
    · exact not_quiet_delete machine reply (hother.of_concat hsome).2
    · exact hne (h.alone i k other machine hother howns)
  exact ⟨fun _ _ hother => absurd hother hnone, fun _ _ _ _ hother _ => absurd hother hnone⟩

theorem Exclusive.drift (h : Exclusive fingerprint log seats) (hdrifts : Drifts seats after) :
    Exclusive fingerprint log after := by
  refine ⟨fun i machine howns => ?_, h.alone⟩
  obtain ⟨row, hrow, hpath, hmatch⟩ := h.held i machine howns
  obtain ⟨other, hother, hsame, hfingerprint⟩ := hdrifts row hrow
  refine ⟨other, hother, hsame.trans hpath, ?_⟩
  rw [hasFingerprint, hfingerprint]
  exact hmatch

variable {start : Seats cl} {opts : ι → CreateMachineOptions cl.json}
  {scope : ι → Option (ScopeObject cl.json)} {pages : ι → Nat}
  {now : ι → cl.Call (MachineActivation cl.json)}

/-- The calls, all for one fingerprint on one licence. -/
def calls (cl : Client) (licenseId : cl.json.Uuid) (fingerprint : String)
    (opts : ι → CreateMachineOptions cl.json) (scope : ι → Option (ScopeObject cl.json))
    (pages : ι → Nat) (i : ι) : cl.Call (MachineActivation cl.json) :=
  cl.activateMachineIdempotent (pages i) licenseId fingerprint (opts i) (scope i) true

theorem run_exclusive
    (hrun : Run (licenseServer verdict licenseId fingerprint) start
      (calls cl licenseId fingerprint opts scope pages) log seats now) :
    Exclusive fingerprint log seats := by
  induction hrun with
  | start => exact ⟨fun _ _ h => absurd h not_owns_nil, fun _ _ _ _ h _ => absurd h not_owns_nil⟩
  | drift _ hdrifts ih => exact ih.drift hdrifts
  | @serve log seats after now hrun k op next hasks reply hserves ih =>
      have hsteps := (hrun.serve hasks hserves).steps k
      rw [exchanges_append_self] at hsteps
      rcases call_step hsteps with ⟨hnone, answer, heq⟩ | ⟨hsome, hquiet⟩ |
        ⟨machine, answer, hsome, howns, heq⟩
      · rw [heq] at hserves ⊢
        have hcreates : Serves verdict licenseId fingerprint seats
            ⟨.send (createMachineRequest cl licenseId fingerprint (opts k)), answer⟩ after :=
          hserves
        rw [Serves, if_pos (isCreate_createMachineRequest ..)] at hcreates
        exact ih.create hnone hcreates
      · obtain rfl := serves_quiet hquiet hserves
        exact ih.quiet hsome
      · rw [heq]
        exact ih.delete hsome howns answer

end Exclusion

section Adoption

variable {licenseId : cl.json.Uuid} {fingerprint : String}
  {verdict : Seats cl → Request → Except cl.reqwest.Error Response → Prop}
  {seats after : Seats cl} {events front back : List cl.Exchange} {event : cl.Exchange}
  {machine : MachineResource cl.json}

def Listed (events : List cl.Exchange) (machine : MachineResource cl.json) : Prop :=
  ∃ request response page, (⟨.send request, .ok response⟩ : cl.Exchange) ∈ events ∧
    request.method = .get ∧ cl.readMachinePage response = .ok page ∧ machine ∈ page.items

def Deleted (events : List cl.Exchange) (machine : MachineResource cl.json) : Prop :=
  ∃ request reply, (⟨.send request, reply⟩ : cl.Exchange) ∈ events ∧ isDelete request = true ∧
    request.path = machinePath machine

theorem Listed.mono (h : Listed front machine) (hsub : ∀ event ∈ front, event ∈ events) :
    Listed events machine := by
  obtain ⟨request, response, page, hmem, hlisted⟩ := h
  exact ⟨request, response, page, hsub _ hmem, hlisted⟩

theorem Deleted.mono (h : Deleted front machine) (hsub : ∀ event ∈ front, event ∈ events) :
    Deleted events machine := by
  obtain ⟨request, reply, hmem, hdeleted⟩ := h
  exact ⟨request, reply, hsub _ hmem, hdeleted⟩

/-- A row stays until a delete is sent for it. -/
theorem Serves.holds (h : Serves verdict licenseId fingerprint seats event after)
    (hholds : seats.Holds machine) : after.Holds machine ∨ Deleted [event] machine := by
  obtain ⟨row, hrow, hpath⟩ := hholds
  obtain ⟨op, reply⟩ := event
  cases op with
  | sleep =>
      obtain rfl : after = seats := h
      exact Or.inl ⟨row, hrow, hpath⟩
  | send request =>
      rw [Serves] at h
      split at h
      · rcases h with ⟨created, -, -, hrows⟩ | ⟨_, -, rfl, -⟩
        · exact Or.inl ⟨row, hrows ▸ List.mem_cons_of_mem _ hrow, hpath⟩
        · exact Or.inl ⟨row, hrow, hpath⟩
      · split at h
        · rename_i hdelete
          rcases h with rfl | ⟨_, -, rfl⟩
          · by_cases hsame : machinePath row = request.path
            · exact Or.inr ⟨request, reply, List.mem_singleton_self _, hdelete,
                hsame.symm.trans hpath⟩
            · exact Or.inl ⟨row, List.mem_filter.mpr ⟨hrow, bne_iff_ne.mpr hsame⟩, hpath⟩
          · exact Or.inl ⟨row, hrow, hpath⟩
        · obtain ⟨rfl, -⟩ := h
          exact Or.inl ⟨row, hrow, hpath⟩

theorem Drifts.holds (h : Drifts seats after) (hholds : seats.Holds machine) :
    after.Holds machine := by
  obtain ⟨row, hrow, hpath⟩ := hholds
  obtain ⟨other, hother, hsame, -⟩ := h row hrow
  exact ⟨other, hother, hsame.trans hpath⟩

theorem Serves.holds_listed (h : Serves verdict licenseId fingerprint seats event after)
    (hlisted : Listed [event] machine) : after.Holds machine := by
  obtain ⟨request, response, page, hmem, hmethod, hread, hitem⟩ := hlisted
  obtain rfl := List.mem_singleton.mp hmem
  have hcreate : isCreate request = false := by rw [isCreate, hmethod]; rfl
  have hdelete : isDelete request = false := by rw [isDelete, hmethod]; rfl
  rw [Serves, hcreate, hdelete] at h
  obtain ⟨rfl, hlists, -⟩ := h
  rcases hlists hmethod with ⟨err, herr⟩ | ⟨listing, hsub, -, hfrom⟩
  · cases hread.symm.trans herr
  · obtain ⟨k, _, _, answer, -, -, ⟨⟩, hanswer, hpage⟩ := hfrom
    obtain rfl := Except.ok.inj (hanswer.symm.trans hread)
    rw [hpage.items] at hitem
    have hrow := hsub.subset (List.mem_of_mem_drop (List.mem_of_mem_take hitem))
    exact ⟨machine, hrow, rfl⟩

theorem listed_of_page {opts : ListMachinesOptions cl.json}
    {page : OffsetPage (MachineResource cl.json)}
    (hsteps : Steps (cl.listMachines opts) events (.ret (.ok page)))
    (hitem : machine ∈ page.items) : Listed events machine := by
  obtain ⟨sent, hsending, hvalue⟩ := meets_andThen_ret (meets_sendWithRetry _) events _ hsteps
  obtain ⟨outcome, rfl, hread⟩ := Option.map_eq_some_iff.mp hvalue.symm
  obtain ⟨throttled, last, houtcomes, -, rfl⟩ := hsending.returned rfl
  cases last with
  | error err => cases hread
  | ok response =>
      have hmem : (.ok response : Except cl.reqwest.Error Response) ∈ outcomes events := by
        rw [houtcomes]
        exact List.mem_append_right _ (List.mem_singleton_self _)
      obtain ⟨request, hevent⟩ := mem_of_mem_outcomes hmem
      have hasks : Asks (fun request => request.method = .get) (cl.listMachines opts) :=
        asks_listMachines rfl
      have hget : request.method = .get := hasks events _ hsteps request (mem_requests hevent)
      exact ⟨request, response, page, hevent, hget, hread, hitem⟩

theorem listed_of_found {pages : Nat} {number : Int64}
    (hsteps : Steps (cl.findFrom licenseId fingerprint pages number) events
      (.ret (.ok (some machine)))) : Listed events machine := by
  induction pages generalizing number events with
  | zero => cases (steps_stop_iff.mp hsteps).2
  | succ pages ih =>
      rw [Client.findFrom, andThen] at hsteps
      obtain ⟨outcome, front, back, rfl, hfront, hback⟩ := hsteps.of_bind_ret
      cases outcome with
      | error err => cases (steps_ret_iff.mp hback).2
      | ok page =>
          simp only at hback
          split at hback
          · rename_i found hfound
            obtain ⟨rfl, heq⟩ := steps_ret_iff.mp hback
            cases heq
            exact (listed_of_page hfront (List.mem_of_find?_eq_some hfound)).mono
              fun event hmem => List.mem_append_left _ hmem
          · split at hback
            · exact (ih hback).mono fun event hmem => List.mem_append_right _ hmem
            · cases (steps_ret_iff.mp hback).2

end Adoption

section Raced

/-- A licence for one machine, which another one has already. -/
def fullSeats : Seats blankClient where
  rows := [blankMachine "other" "elsewhere"]
  distinct := List.nodup_singleton _
  unique := List.nodup_singleton _

def racedMachine : MachineResource blankClient.json := blankMachine "machine" "fingerprint"

def overfullSeats : Seats blankClient where
  rows := [racedMachine, blankMachine "other" "elsewhere"]
  distinct := by decide
  unique := by decide

def validResponse : Response :=
  ⟨200, [], some (validationDocument blankLicense "2026-01-01T00:00:00Z" true "VALID")⟩

def oneMachine (seats : Seats blankClient) (_ : Request)
    (reply : Except blankClient.reqwest.Error Response) : Prop :=
  reply = .ok (if seats.rows.length ≤ 1 then validResponse else overLimitResponse)

def racedServer : World (Seats blankClient) Op (Reply blankClient.reqwest) :=
  licenseServer oneMachine blankLicenseId "fingerprint"

def createdResponse : Response := ⟨201, [], some (machineDocument racedMachine)⟩

def takenResponse : Response := ⟨409, [], some (errorDocument "FINGERPRINT_TAKEN")⟩

def listedResponse : Response := ⟨200, [], some (pageDocument ⟨[racedMachine], ⟨1, 100, 1, 1⟩⟩)⟩

def takenError : blankClient.Error := .fromJsonApiError (blankError _ "FINGERPRINT_TAKEN")

theorem createOutcome_racedMachine :
    createOutcome blankClient (.ok createdResponse) = .ok racedMachine :=
  createOutcome_created roundTrips_blankClient (readable_blankMachine "machine" "fingerprint")

theorem createOutcome_taken :
    createOutcome blankClient (.ok takenResponse) = .error takenError := by
  change blankClient.read "MachineResource" (envelope (machineResource blankClient.json))
    takenResponse = _
  exact read_errorDocument (by decide) (by decide) "FINGERPRINT_TAKEN"

theorem readMachinePage_listed :
    blankClient.readMachinePage listedResponse = .ok ⟨[racedMachine], ⟨1, 100, 1, 1⟩⟩ := by
  refine readMachinePage_page roundTrips_blankClient ?_
  intro machine hmem
  cases List.mem_singleton.mp hmem
  rfl

theorem steps_overLimit :
    Steps (blankClient.validateById blankLicenseId none false none)
      [⟨.send (validateRequest blankClient blankLicenseId none false), .ok overLimitResponse⟩]
      (.ret (.ok overLimitResult)) := by
  rw [← validateOutcome_overLimit]
  exact steps_validateById (by decide) _ _ _

theorem serves_create {verdict : Seats cl → Request → Except cl.reqwest.Error Response → Prop}
    {licenseId : cl.json.Uuid} {fingerprint : String} {seats after : Seats cl} {request : Request}
    {reply : Except cl.reqwest.Error Response} (hcreate : isCreate request = true)
    (h : Creates fingerprint seats reply after) :
    Serves verdict licenseId fingerprint seats ⟨.send request, reply⟩ after := by
  rw [Serves, if_pos hcreate]
  exact h

theorem serves_created :
    Serves oneMachine blankLicenseId "fingerprint" fullSeats
      ⟨.send (createMachineRequest blankClient blankLicenseId "fingerprint" blankOptions),
        .ok createdResponse⟩ overfullSeats :=
  serves_create (isCreate_createMachineRequest ..)
    (Or.inl ⟨racedMachine, createOutcome_racedMachine, by decide, rfl⟩)

theorem serves_taken :
    Serves oneMachine blankLicenseId "fingerprint" overfullSeats
      ⟨.send (createMachineRequest blankClient blankLicenseId "fingerprint" blankOptions),
        .ok takenResponse⟩ overfullSeats :=
  serves_create (isCreate_createMachineRequest ..)
    (Or.inr ⟨takenError, createOutcome_taken, rfl, fun _ => rfl⟩)

theorem serves_listed :
    Serves oneMachine blankLicenseId "fingerprint" overfullSeats
      ⟨.send (searchRequest blankClient blankLicenseId "fingerprint" 1), .ok listedResponse⟩
      overfullSeats := by
  refine ⟨rfl, fun _ => Or.inr ⟨[racedMachine], ?_, ?_, ?_⟩, fun h => by cases h⟩
  · exact List.sublist_append_left [racedMachine] _
  · intro row hrow hmatch
    rcases List.mem_cons.mp hrow with rfl | hrow
    · exact List.mem_cons_self
    · cases List.mem_singleton.mp hrow
      exact absurd hmatch (by decide)
  · exact ⟨0, 1, _, _, rfl, rfl, rfl, readMachinePage_listed, rfl, rfl, rfl, rfl, rfl⟩

theorem serves_overLimit :
    Serves oneMachine blankLicenseId "fingerprint" overfullSeats
      ⟨.send (validateRequest blankClient blankLicenseId none false), .ok overLimitResponse⟩
      overfullSeats := by
  have hcreate := @isCreate_validateRequest blankClient blankLicenseId none false
  rw [Serves, hcreate]
  refine ⟨rfl, ?_, fun _ => rfl⟩
  rintro ⟨⟩

theorem serves_takenBack :
    Serves oneMachine blankLicenseId "fingerprint" overfullSeats
      ⟨.send (blankClient.deleteMachineRequest racedMachine.id), .ok ⟨204, [], none⟩⟩
      (overfullSeats.remove (machinePath racedMachine)) := Or.inl rfl

/-- One call creates the machine and the other adopts it; both find the licence over
its limit, and the one that created it takes it back. -/
theorem run_raced :
    ∃ log now activation,
      Run racedServer fullSeats
          (calls blankClient blankLicenseId "fingerprint" (fun _ : Fin 2 => blankOptions)
            (fun _ => none) fun _ => 1)
          log (overfullSeats.remove (machinePath racedMachine)) now ∧
        (∃ outcome, now 0 = .ret outcome) ∧ now 1 = .ret (.ok activation) ∧
          activation.machine = some racedMachine := by
  have hfirst : Steps (blankClient.activateMachineIdempotent 1 blankLicenseId "fingerprint"
      blankOptions none true)
      [⟨.send (createMachineRequest blankClient blankLicenseId "fingerprint" blankOptions),
        .ok createdResponse⟩] _ :=
    (steps_activateMachineIdempotent_iff createOutcome_racedMachine).mpr (.refl _)
  have hadopted : Steps (blankClient.activateMachineIdempotent 1 blankLicenseId "fingerprint"
      blankOptions none true)
      [⟨.send (createMachineRequest blankClient blankLicenseId "fingerprint" blankOptions),
        .ok takenResponse⟩,
        ⟨.send (searchRequest blankClient blankLicenseId "fingerprint" 1), .ok listedResponse⟩,
        ⟨.send (validateRequest blankClient blankLicenseId none false), .ok overLimitResponse⟩]
      (.ret (.ok (adoptedActivation racedMachine overLimitResult))) := by
    refine (steps_activateMachineIdempotent_iff createOutcome_taken).mpr ?_
    have hfound : Steps (blankClient.findMachineByFingerprint 1 blankLicenseId "fingerprint")
        [⟨.send (searchRequest blankClient blankLicenseId "fingerprint" 1), .ok listedResponse⟩]
        (.ret (.ok (some racedMachine))) := steps_findFrom_cons readMachinePage_listed (.refl _)
    exact hfound.bind (steps_overLimit.bind (.refl _))
  have htakenBack : Steps (afterCreateIdempotent blankLicenseId "fingerprint" none true 1
      (.ok racedMachine))
      [⟨.send (validateRequest blankClient blankLicenseId none false), .ok overLimitResponse⟩,
        ⟨.send (blankClient.deleteMachineRequest racedMachine.id), .ok ⟨204, [], none⟩⟩] _ :=
    steps_overLimit.bind (steps_rollBack_deleted racedMachine _ _)
  have hstart : Run racedServer fullSeats
      (calls blankClient blankLicenseId "fingerprint" (fun _ : Fin 2 => blankOptions)
        (fun _ => none) fun _ => 1) _ _ _ := .start
  have hcreated := hstart.serve_steps 0 hfirst rfl (.cons serves_created (.nil _))
  have hraced := hcreated.serve_steps 1 hadopted rfl
    (.cons serves_taken (.cons serves_listed (.cons serves_overLimit (.nil _))))
  have hover := hraced.serve_steps 0 htakenBack rfl
    (.cons serves_overLimit (.cons serves_takenBack (.nil _)))
  exact ⟨_, _, _, hover, ⟨_, rfl⟩, rfl, rfl⟩

theorem not_holds_racedMachine :
    ¬ (overfullSeats.remove (machinePath racedMachine)).Holds racedMachine := by
  rintro ⟨row, hrow, hpath⟩
  exact absurd hpath (bne_iff_ne.mp (List.mem_filter.mp hrow).2)

end Raced

section Reported

variable {ι : Type} [DecidableEq ι] {licenseId : cl.json.Uuid} {fingerprint : String}
  {verdict : Seats cl → Request → Except cl.reqwest.Error Response → Prop}
  {log : List (ι × cl.Exchange)} {start seats : Seats cl} {events : List cl.Exchange}
  {machine : MachineResource cl.json} {now : ι → cl.Call (MachineActivation cl.json)}

/-- What was listed is there, or was deleted. -/
theorem run_listed {progs : ι → cl.Call (MachineActivation cl.json)}
    (hrun : Run (licenseServer verdict licenseId fingerprint) start progs log seats now)
    (hlisted : Listed (log.map Prod.snd) machine) :
    seats.Holds machine ∨ Deleted (log.map Prod.snd) machine := by
  refine hrun.log_invariant (fun events seats => ∀ machine, Listed events machine →
    seats.Holds machine ∨ Deleted events machine) ?_ ?_ ?_ machine hlisted
  · rintro machine ⟨_, _, _, hmem, -⟩
    exact absurd hmem List.not_mem_nil
  · rintro events before event after hbefore hserves machine
      ⟨request, response, page, hmem, hlisted⟩
    rcases List.mem_append.mp hmem with hold | hnew
    · rcases hbefore machine ⟨request, response, page, hold, hlisted⟩ with hholds | hdeleted
      · rcases hserves.holds hholds with hafter | hdeleted
        · exact Or.inl hafter
        · exact Or.inr (hdeleted.mono fun _ hmem => List.mem_append_right _ hmem)
      · exact Or.inr (hdeleted.mono fun _ hmem => List.mem_append_left _ hmem)
    · exact Or.inl (hserves.holds_listed ⟨request, response, page, hnew, hlisted⟩)
  · intro events before after hbefore hdrifts machine hlisted
    exact (hbefore machine hlisted).imp_left fun hholds => Drifts.holds hdrifts hholds

/-- The call created the machine, was told that the licence is over a limit, and
sent the delete of what it had created. -/
def TakenBack (licenseId : cl.json.Uuid) (scope : Option (ScopeObject cl.json))
    (events : List cl.Exchange) (machine : MachineResource cl.json) : Prop :=
  ∃ request reply rest created, events = ⟨.send request, reply⟩ :: rest ∧
    isCreate request = true ∧ createOutcome cl reply = .ok created ∧
      machinePath created = machinePath machine ∧
        RolledBack licenseId scope true (.ok created) rest

theorem not_deleted_of_quiet (h : Quiet events) : ¬ Deleted events machine := by
  rintro ⟨request, _, hmem, hdelete, -⟩
  cases (h request (mem_requests hmem)).2.symm.trans hdelete

/-- A call deletes nothing but what it created. -/
theorem takenBack_of_deleted {opts : CreateMachineOptions cl.json}
    {scope : Option (ScopeObject cl.json)} {pages : Nat}
    {q : cl.Call (MachineActivation cl.json)}
    (hsteps : Steps (cl.activateMachineIdempotent pages licenseId fingerprint opts scope true)
      events q) (hdeleted : Deleted events machine) :
    TakenBack licenseId scope events machine := by
  rw [activateMachineIdempotent_eq] at hsteps
  obtain ⟨request, answer, hmem, hdelete, hpath⟩ := hdeleted
  rcases steps_ask_iff.mp hsteps with ⟨rfl, -⟩ | ⟨reply, rest, rfl, hrest⟩
  · exact absurd hmem List.not_mem_nil
  · rcases List.mem_cons.mp hmem with heq | hmem
    · cases heq
      cases hdelete
    · rcases (meets_afterCreateIdempotent fingerprint pages _ rest q hrest).1 with hquiet | hrolled
      · exact absurd ⟨request, answer, hmem, hdelete, hpath⟩ (not_deleted_of_quiet hquiet)
      · obtain ⟨created, _, validated, _, hcreated, -, -, -, hquiet, rfl⟩ := id hrolled
        refine ⟨_, _, _, created, rfl, isCreate_createMachineRequest .., hcreated, ?_,
          hcreated ▸ hrolled⟩
        rcases List.mem_append.mp hmem with hmem | hmem
        · exact absurd ⟨request, answer, hmem, hdelete, hpath⟩ (not_deleted_of_quiet hquiet)
        · cases List.mem_singleton.mp hmem
          exact hpath

theorem not_takenBack_of_refused {scope : Option (ScopeObject cl.json)} {request : Request}
    {reply : Except cl.reqwest.Error Response} {rest : List cl.Exchange} {err : cl.Error}
    (hrefused : createOutcome cl reply = .error err) :
    ¬ TakenBack licenseId scope (⟨.send request, reply⟩ :: rest) machine := by
  rintro ⟨_, _, _, created, heq, -, hcreated, -⟩
  cases heq
  cases hrefused.symm.trans hcreated

/-- What was listed is there, or one of the calls took it back. -/
theorem listed_stays {opts : ι → CreateMachineOptions cl.json}
    {scope : ι → Option (ScopeObject cl.json)} {pages : ι → Nat}
    (hrun : Run (licenseServer verdict licenseId fingerprint) start
      (calls cl licenseId fingerprint opts scope pages) log seats now) {i : ι}
    (hlisted : Listed (exchanges i log) machine) :
    seats.Holds machine ∨ ∃ j, TakenBack licenseId (scope j) (exchanges j log) machine := by
  have hown : ∀ event ∈ exchanges i log, event ∈ log.map Prod.snd :=
    fun event hmem => List.mem_map.mpr ⟨(i, event), mem_exchanges.mp hmem, rfl⟩
  rcases run_listed hrun (hlisted.mono hown) with hholds | ⟨request, answer, hmem, hdeleted⟩
  · exact Or.inl hholds
  · obtain ⟨⟨j, _⟩, hentry, rfl⟩ := List.mem_map.mp hmem
    have hdeletes : Deleted (exchanges j log) machine :=
      ⟨request, answer, mem_exchanges.mpr hentry, hdeleted⟩
    exact Or.inr ⟨j, takenBack_of_deleted (hrun.steps j) hdeletes⟩

theorem listed_of_adopted {scope : Option (ScopeObject cl.json)} {pages : Nat} {err : cl.Error}
    {activation : MachineActivation cl.json} (htaken : err.isFingerprintTaken = true)
    (h : IdempotentResult licenseId fingerprint scope true pages (.error err) events
      (.ok activation)) (hmachine : activation.machine = some machine) :
    Listed events machine := by
  rw [IdempotentResult, if_pos htaken] at h
  obtain ⟨found, searched, back, rfl, hsearched, hadopted⟩ := h
  rcases found with _ | (_ | existing)
  · cases hadopted.2
  · cases hadopted.2
  · obtain ⟨validation, -, houtcome⟩ := hadopted
    cases validation with
    | error => cases houtcome
    | ok =>
        cases houtcome
        cases hmachine
        exact (listed_of_found hsearched).mono fun _ hmem => List.mem_append_left _ hmem

/-- A machine that a call reports is there, or the call adopted it and the call that
had created it took it back. -/
theorem reported_machine_stays (cl : Client)
    (verdict : Seats cl → Request → Except cl.reqwest.Error Response → Prop)
    (licenseId : cl.json.Uuid) (fingerprint : String) (opts : ι → CreateMachineOptions cl.json)
    (scope : ι → Option (ScopeObject cl.json)) (pages : ι → Nat) {start seats : Seats cl}
    {log : List (ι × cl.Exchange)} {now : ι → cl.Call (MachineActivation cl.json)}
    (hrun : Run (licenseServer verdict licenseId fingerprint) start
      (calls cl licenseId fingerprint opts scope pages) log seats now)
    (i : ι) {activation : MachineActivation cl.json} {machine : MachineResource cl.json}
    (hover : now i = .ret (.ok activation)) (hmachine : activation.machine = some machine) :
    seats.Holds machine ∨ (activation.reused = true ∧
      ∃ j, j ≠ i ∧ TakenBack licenseId (scope j) (exchanges j log) machine) := by
  have hsteps := hrun.steps i
  rw [hover, calls, activateMachineIdempotent_eq] at hsteps
  rcases steps_ask_iff.mp hsteps with ⟨-, ⟨⟩⟩ | ⟨reply, rest, hevents, hrest⟩
  obtain ⟨hseats, hresults⟩ :=
    meets_afterCreateIdempotent fingerprint (pages i) (createOutcome cl reply) rest _ hrest
  have hreports := reportsMachine hseats (hresults _ rfl)
  rw [ReportsMachine, hmachine] at hreports
  obtain ⟨hquiet, ⟨hreused, err, hrefused, htaken⟩ | ⟨-, hcreated⟩⟩ := hreports
  · have hresult := hresults _ rfl
    rw [hrefused] at hresult
    have hlisted : Listed (exchanges i log) machine := by
      rw [hevents]
      exact (listed_of_adopted htaken hresult hmachine).mono
        fun _ hmem => List.mem_cons_of_mem _ hmem
    refine (listed_stays hrun hlisted).imp_right ?_
    rintro ⟨j, htakenBack⟩
    refine ⟨hreused, j, ?_, htakenBack⟩
    rintro rfl
    rw [hevents] at htakenBack
    exact not_takenBack_of_refused hrefused htakenBack
  · have howns : Owns (exchanges i log) machine := ⟨_, reply, rest, hevents, hcreated, hquiet⟩
    obtain ⟨row, hrow, hpath, -⟩ := (run_exclusive hrun).held i machine howns
    exact Or.inl ⟨row, hrow, hpath⟩

theorem reported_machine_stays_recorded :
    ∃ (log : List (Fin 2 × blankClient.Exchange)) (activation : MachineActivation blankClient.json),
      activation.machine = some racedMachine ∧
        ((overfullSeats.remove (machinePath racedMachine)).Holds racedMachine ∨
          (activation.reused = true ∧ ∃ j, j ≠ 1 ∧
            TakenBack blankLicenseId none (exchanges j log) racedMachine)) := by
  obtain ⟨log, now, activation, hrun, -, hsecond, hmachine⟩ := run_raced
  exact ⟨log, activation, hmachine, reported_machine_stays blankClient oneMachine blankLicenseId
    "fingerprint" _ _ _ hrun 1 hsecond hmachine⟩

/-- Whatever two calls report as activated is there when both are over. -/
def NeverRemoved (cl : Client) : Prop :=
  ∀ (verdict : Seats cl → Request → Except cl.reqwest.Error Response → Prop)
    (licenseId : cl.json.Uuid) (fingerprint : String)
    (opts : Fin 2 → CreateMachineOptions cl.json) (scope : Fin 2 → Option (ScopeObject cl.json))
    (pages : Fin 2 → Nat) (start seats : Seats cl) (log : List (Fin 2 × cl.Exchange))
    (now : Fin 2 → cl.Call (MachineActivation cl.json)),
    Run (licenseServer verdict licenseId fingerprint) start
        (calls cl licenseId fingerprint opts scope pages) log seats now →
      (∀ i, ∃ outcome, now i = .ret outcome) →
        ∀ i activation machine, now i = .ret (.ok activation) →
          activation.machine = some machine → seats.Holds machine

/-- The call that adopted the machine reports it, and it is gone. -/
theorem not_neverRemoved : ¬ NeverRemoved blankClient := by
  intro h
  obtain ⟨log, now, activation, hrun, hfirst, hsecond, hmachine⟩ := run_raced
  have hover : ∀ i, ∃ outcome, now i = .ret outcome := by
    intro i
    match i with
    | 0 => exact hfirst
    | 1 => exact ⟨_, hsecond⟩
  exact not_holds_racedMachine (h _ _ _ _ _ _ _ _ _ _ hrun hover 1 _ _ hsecond hmachine)

end Reported

end Tamga.ConcurrentActivation
