import Mathlib.Data.Fintype.Basic
import Mathlib.Data.List.Perm.Subperm
import Tamga.Library.Interleaving
import Tamga.ServerResponses

namespace Tamga.ProcessSweep

open Library.Serde
open Library.Interaction
open Library.Interaction.Prog
open Library.Interleaving
open Tamga.Dependencies
open Tamga.Models
open Tamga.ApiModels
open Tamga.ApiErrors
open Tamga.Transport
open Tamga.Client
open Tamga.RetryBounds
open Tamga.ActivationFlow
open Tamga.ServerResponses

variable {cl : Client}

section Server

def processPath (process : ProcessResource cl.json) : String :=
  (cl.deleteProcessRequest process.id).path

/-- The processes of a machine.  No two of them have one path. -/
structure Table (cl : Client) where
  rows : List (ProcessResource cl.json)
  distinct : (rows.map processPath).Nodup

def Table.paths (table : Table cl) : List String := table.rows.map processPath

def Table.remove (table : Table cl) (path : String) : Table cl where
  rows := table.rows.filter fun row => processPath row != path
  distinct := table.distinct.sublist (List.filter_sublist.map processPath)

theorem Table.rows_remove (table : Table cl) (path : String) :
    (table.remove path).rows = table.rows.filter fun row => processPath row != path := rfl

theorem Table.length_paths (table : Table cl) : table.paths.length = table.rows.length :=
  List.length_map _

theorem Table.paths_remove (table : Table cl) (path : String) :
    (table.remove path).paths = table.paths.filter (· != path) := by
  rw [Table.paths, Table.paths, List.filter_map]
  rfl

theorem Table.perm_remove {table : Table cl} {path : String} (h : path ∈ table.paths) :
    (path :: (table.remove path).paths).Perm table.paths := by
  have herase : table.paths.erase path = table.paths.filter (· != path) :=
    table.distinct.erase_eq_filter path
  rw [Table.paths_remove, ← herase]
  exact (List.perm_cons_erase h).symm

def batchRequest (cl : Client) (machineId : cl.json.Uuid) : Request :=
  cl.listProcessesRequest machineId (some maxEntitlementsPageSize) none

/-- Some of the first rows, at most a hundred, and none only where there are none. -/
def Lists (table : Table cl) (response : Response) : Prop :=
  ∃ batch, cl.readProcesses response = .ok batch ∧ batch <+: table.rows ∧
    batch.length ≤ 100 ∧ (batch = [] ↔ table.rows = [])

def errorCode (cl : Client) (response : Response) : Option String :=
  ((response.body.bind (jsonApiErrorDocument cl.json).deserialize).bind (·.errors.head?)).map
    (·.code)

/-- How a delete is answered, and what it leaves. -/
def Deletes (table : Table cl) (path : String) (response : Response) (after : Table cl) : Prop :=
  (path ∈ table.paths ∧ response.status = 204 ∧ after = table.remove path) ∨
    (path ∉ table.paths ∧ response.status = 404 ∧ errorCode cl response = some "NOT_FOUND" ∧
      after = table)

/-- The server, as long as nothing fails. -/
def Serves (machineId : cl.json.Uuid) (table : Table cl) : cl.Exchange → Table cl → Prop
  | ⟨.send request, .ok response⟩, after =>
      (request = batchRequest cl machineId ∧ Lists table response ∧ after = table) ∨
        (request.method = .delete ∧ Deletes table request.path response after)
  | _, _ => False

def removedPath : cl.Exchange → Option String
  | ⟨.send request, .ok response⟩ =>
      if request.method = .delete ∧ response.status = 204 then some request.path else none
  | _ => none

theorem removedPath_removed {request : Request} {response : Response}
    (hmethod : request.method = .delete) (hstatus : response.status = 204) :
    removedPath (⟨.send request, .ok response⟩ : cl.Exchange) = some request.path :=
  if_pos ⟨hmethod, hstatus⟩

theorem removedPath_kept {request : Request} {response : Response}
    (h : ¬ (request.method = .delete ∧ response.status = 204)) :
    removedPath (⟨.send request, .ok response⟩ : cl.Exchange) = none := if_neg h

def removedPaths (events : List cl.Exchange) : List String := events.filterMap removedPath

theorem removedPaths_concat (events : List cl.Exchange) (event : cl.Exchange) :
    removedPaths (events ++ [event]) = removedPaths events ++ (removedPath event).toList := by
  rw [removedPaths, List.filterMap_append, List.filterMap_cons]
  cases removedPath event <;> rfl

theorem length_removedPaths_removed {events : List cl.Exchange} {event : cl.Exchange}
    {path : String} (h : removedPath event = some path) :
    (removedPaths (events ++ [event])).length = (removedPaths events).length + 1 := by
  rw [removedPaths_concat, h, List.length_append]
  rfl

theorem length_removedPaths_kept {events : List cl.Exchange} {event : cl.Exchange}
    (h : removedPath event = none) :
    (removedPaths (events ++ [event])).length = (removedPaths events).length := by
  rw [removedPaths_concat, h, Option.toList_none, List.append_nil]

theorem length_removedPaths (events : List cl.Exchange) :
    (removedPaths events).length = events.countP fun event => (removedPath event).isSome :=
  List.length_filterMap_eq_countP

end Server

section Program

variable (machineId : cl.json.Uuid)

def sweeping (batches : Nat) (batch : List (ProcessResource cl.json)) (deleted : Nat) :
    cl.Call Nat :=
  (cl.deleteBatch batch deleted).andThen fun deleted => cl.deleteFrom machineId batches deleted

/-- A sweep from the answer to its listing on. -/
def afterListing (batches deleted : Nat) : Except cl.Error Response → cl.Call Nat
  | .ok response =>
      match cl.readProcesses response with
      | .ok batch =>
          if batch.isEmpty then .ret (.ok deleted) else sweeping machineId batches batch deleted
      | .error err => .ret (.error err)
  | .error err => .ret (.error err)

def listing (batches deleted : Nat) (attempt : UInt32) : cl.Call Nat :=
  (cl.sendFrom (batchRequest cl machineId) attempt).bind (afterListing machineId batches deleted)

theorem sweeping_nil (batches deleted : Nat) :
    sweeping machineId batches [] deleted = cl.deleteFrom machineId batches deleted := rfl

theorem deleteFrom_succ (batches deleted : Nat) :
    cl.deleteFrom machineId (batches + 1) deleted = listing machineId batches deleted 0 := by
  rw [Client.deleteFrom, Client.listMachineProcesses, listing, andThen, andThen, bind_assoc]
  congr 1
  funext outcome
  cases outcome with
  | error err => rfl
  | ok response =>
      simp only [afterListing, Prog.bind]
      cases cl.readProcesses response <;> rfl

/-- What the answer to a delete turns a sweep into. -/
def afterDelete (batches : Nat) (batch : List (ProcessResource cl.json)) (deleted : Nat) :
    Except cl.Error Unit → cl.Call Nat
  | .ok () => sweeping machineId batches batch (deleted + 1)
  | .error err =>
      if err.isNotFound then sweeping machineId batches batch deleted else .ret (.error err)

theorem sweeping_cons (batches : Nat) (process : ProcessResource cl.json)
    (batch : List (ProcessResource cl.json)) (deleted : Nat) :
    sweeping machineId batches (process :: batch) deleted =
      .ask (.send (cl.deleteProcessRequest process.id)) fun reply =>
        afterDelete machineId batches batch deleted (deleteOutcome cl reply) := by
  rw [sweeping, Client.deleteBatch, Client.deleteProcess, send_andThen_ret]
  simp only [andThen, Prog.bind]
  congr 1
  funext reply
  rw [deleteOutcome]
  cases (reply.mapError .http).bind cl.readEmpty with
  | ok _ => rfl
  | error err =>
      simp only [afterDelete]
      split <;> rfl

/-- The listing is sent again after a 429 that is waited out, and otherwise read. -/
theorem listing_asks (batches deleted : Nat) (attempt : UInt32) :
    ∃ next, listing machineId batches deleted attempt =
        .ask (.send (batchRequest cl machineId)) next ∧
      ∀ reply,
        next reply = afterListing machineId batches deleted (reply.mapError .http) ∨
          ∃ response wait, reply = .ok response ∧ response.status = tooManyRequests ∧
            next reply = .ask (.sleep wait) fun _ =>
              listing machineId batches deleted (attempt + 1) := by
  refine ⟨_, by rw [listing, Client.sendFrom, Client.send]; rfl, fun reply => ?_⟩
  cases reply with
  | error err => exact Or.inl rfl
  | ok response =>
      simp only [Except.mapError, Prog.bind]
      split
      · exact Or.inl rfl
      · rename_i h
        have hthrottles : Throttles cl (batchRequest cl machineId) attempt response :=
          Classical.not_not.mp fun hnot => h (not_throttles_iff.mp hnot)
        exact Or.inr ⟨response, _, rfl, hthrottles.1, rfl⟩

end Program

section Batch

variable {machineId : cl.json.Uuid} {table after : Table cl}
  {batch : List (ProcessResource cl.json)} {process : ProcessResource cl.json}

def outside (batch : List (ProcessResource cl.json)) (table : Table cl) : Nat :=
  table.rows.countP fun row => decide (processPath row ∉ batch.map processPath)

theorem outside_nil (table : Table cl) : outside [] table = table.rows.length := by
  rw [outside, List.countP_eq_length]
  simp

theorem outside_remove_le (batch : List (ProcessResource cl.json)) (table : Table cl)
    (path : String) : outside batch (table.remove path) ≤ outside batch table :=
  List.filter_sublist.countP_le

theorem outside_remove (batch : List (ProcessResource cl.json)) (table : Table cl)
    (process : ProcessResource cl.json) :
    outside batch (table.remove (processPath process)) = outside (process :: batch) table := by
  rw [outside, Table.remove, List.countP_filter, outside]
  congr 1
  funext row
  rw [Bool.eq_iff_iff]
  simp only [Bool.and_eq_true, decide_eq_true_eq, bne_iff_ne, List.map_cons, List.mem_cons, not_or]
  exact and_comm

theorem outside_le_of_gone (batch : List (ProcessResource cl.json))
    (h : processPath process ∉ table.paths) :
    outside batch table ≤ outside (process :: batch) table := by
  refine List.countP_mono_left fun row hrow hout => ?_
  have hne : processPath row ≠ processPath process :=
    fun heq => h (heq ▸ List.mem_map_of_mem hrow)
  simp only [decide_eq_true_eq] at hout ⊢
  rw [List.map_cons, List.mem_cons]
  rintro (heq | hmem)
  · exact hne heq
  · exact hout hmem

theorem outside_add_length_le (h : batch <+: table.rows) :
    outside batch table + batch.length ≤ table.rows.length := by
  obtain ⟨rest, hrows⟩ := h
  have hnone : batch.countP (fun row => decide (processPath row ∉ batch.map processPath)) = 0 := by
    rw [List.countP_eq_zero]
    intro row hrow
    simp only [decide_eq_true_eq, not_not]
    exact List.mem_map_of_mem hrow
  rw [outside, ← hrows, List.countP_append, hnone, List.length_append]
  have hrest := List.countP_le_length
    (p := fun row => decide (processPath row ∉ batch.map processPath)) (l := rest)
  omega

/-- What is served is a request that is answered: a listing, or a delete. -/
theorem Serves.exists_response {event : cl.Exchange} (h : Serves machineId table event after) :
    ∃ request response, event = ⟨.send request, .ok response⟩ ∧
      ((request = batchRequest cl machineId ∧ Lists table response ∧ after = table) ∨
        (request.method = .delete ∧ Deletes table request.path response after)) := by
  obtain ⟨op, reply⟩ := event
  cases op with
  | sleep => cases h
  | send request =>
      cases reply with
      | error => cases h
      | ok response => exact ⟨request, response, rfl, h⟩

/-- Whatever is answered, rows only go. -/
theorem Serves.after_eq {event : cl.Exchange} (h : Serves machineId table event after) :
    after = table ∨ ∃ path, after = table.remove path := by
  obtain ⟨request, response, rfl, ⟨-, -, hkept⟩ | ⟨-, ⟨-, -, hgone⟩ | ⟨-, -, -, hkept⟩⟩⟩ :=
    h.exists_response
  · exact Or.inl hkept
  · exact Or.inr ⟨_, hgone⟩
  · exact Or.inl hkept

end Batch

section Answers

variable {response : Response}

theorem deleteOutcome_noContent (h : response.status = 204) :
    deleteOutcome cl (.ok response) = .ok () := by
  change cl.readEmpty response = _
  rw [Client.readEmpty, Response.isSuccess, h]
  rfl

theorem deleteOutcome_notFound (hstatus : response.status = 404)
    (hcode : errorCode cl response = some "NOT_FOUND") :
    ∃ err, deleteOutcome cl (.ok response) = .error err ∧ err.isNotFound = true := by
  obtain ⟨detail, hdetail, hname⟩ := Option.map_eq_some_iff.mp hcode
  obtain ⟨document, hdocument, hfirst⟩ := Option.bind_eq_some_iff.mp hdetail
  refine ⟨.fromJsonApiError detail, ?_, by rw [TamgaError.fromJsonApiError, hname]; rfl⟩
  change cl.readEmpty response = _
  rw [Client.readEmpty, Response.isSuccess, hstatus, apiError, hdocument, hstatus,
    if_neg (by decide), if_neg (by decide)]
  simp only [hfirst, Option.getD_some]

theorem status_ne_of_readProcesses {batch : List (ProcessResource cl.json)}
    (h : cl.readProcesses response = .ok batch) : response.status ≠ tooManyRequests := by
  intro hstatus
  cases h.symm.trans (read_throttled hstatus)

end Answers

section Exact

variable (machineId : cl.json.Uuid) (start : Table cl)

/-- A sweep while nothing fails: what it has counted, and, against the rows there
were at the start, what it has asked and may still ask. -/
inductive Sweep : List cl.Exchange → Table cl → cl.Call Nat → Prop
  | sweeping {events : List cl.Exchange} {table : Table cl} {batches : Nat}
      {batch : List (ProcessResource cl.json)}
      (hsteps : events.length + batch.length + 2 * outside batch table ≤ 2 * start.rows.length)
      (hbatches : outside batch table < batches) :
      Sweep events table (sweeping machineId batches batch (removedPaths events).length)
  | ended {events : List cl.Exchange} {table : Table cl}
      (hsteps : events.length ≤ 2 * start.rows.length + 1) (hrows : table.rows = []) :
      Sweep events table (.ret (.ok (removedPaths events).length))

variable {machineId start} {events : List cl.Exchange} {table after : Table cl}
  {p : cl.Call Nat} {op : Op} {next : Reply cl.reqwest op → cl.Call Nat}
  {reply : Reply cl.reqwest op}

theorem sweep_start {batches : Nat} (h : start.rows.length < batches) :
    Sweep machineId start [] start (cl.deleteMachineProcesses batches machineId) := by
  refine @Sweep.sweeping cl machineId start [] start batches [] ?_ ?_
  · rw [outside_nil]
    exact Nat.le_of_eq (Nat.zero_add _)
  · rwa [outside_nil]

/-- A sweep bears what the others remove. -/
theorem Sweep.others {event : cl.Exchange} (h : Sweep machineId start events table p)
    (hserves : Serves machineId table event after) : Sweep machineId start events after p := by
  rcases hserves.after_eq with rfl | ⟨path, rfl⟩
  · exact h
  · cases h with
    | @sweeping batches batch hsteps hbatches =>
        have hle := outside_remove_le batch table path
        exact .sweeping (by omega) (by omega)
    | ended hsteps hrows =>
        refine .ended hsteps ?_
        rw [Table.rows_remove, hrows]
        rfl

/-- A delete takes its process off the batch, whoever removed the row. -/
theorem sweep_of_delete {batches : Nat} {process : ProcessResource cl.json}
    {batch : List (ProcessResource cl.json)} {response : Response}
    (hsteps : events.length + (process :: batch).length + 2 * outside (process :: batch) table ≤
      2 * start.rows.length)
    (hbatches : outside (process :: batch) table < batches)
    (hdeletes : Deletes table (processPath process) response after) :
    Sweep machineId start
      (events ++ [⟨.send (cl.deleteProcessRequest process.id), .ok response⟩]) after
      (afterDelete machineId batches batch (removedPaths events).length
        (deleteOutcome cl (.ok response))) := by
  rw [List.length_cons] at hsteps
  rcases hdeletes with ⟨-, hstatus, rfl⟩ | ⟨hgone, hstatus, hcode, rfl⟩
  · have hremoved : removedPath
        (⟨.send (cl.deleteProcessRequest process.id), .ok response⟩ : cl.Exchange) =
          some (processPath process) := removedPath_removed rfl hstatus
    have hleft := outside_remove batch table process
    rw [deleteOutcome_noContent hstatus, afterDelete, ← length_removedPaths_removed hremoved]
    refine .sweeping ?_ (by omega)
    rw [List.length_append, List.length_singleton]
    omega
  · have hkept : removedPath
        (⟨.send (cl.deleteProcessRequest process.id), .ok response⟩ : cl.Exchange) = none :=
      removedPath_kept (by omega)
    have hleft := outside_le_of_gone batch hgone
    obtain ⟨err, herr, hnotFound⟩ := deleteOutcome_notFound hstatus hcode
    rw [herr, afterDelete, if_pos hnotFound, ← length_removedPaths_kept hkept]
    refine .sweeping ?_ (by omega)
    rw [List.length_append, List.length_singleton]
    omega

/-- A listing ends the sweep, or gives it a batch that leaves fewer rows out. -/
theorem sweep_of_listing {batches : Nat} {response : Response}
    (hsteps : events.length + 2 * table.rows.length ≤ 2 * start.rows.length)
    (hbatches : table.rows.length ≤ batches) (hlists : Lists table response) :
    Sweep machineId start (events ++ [⟨.send (batchRequest cl machineId), .ok response⟩]) table
      (afterListing machineId batches (removedPaths events).length (.ok response)) := by
  obtain ⟨batch, hread, hprefix, -, hempty⟩ := hlists
  have hkept : removedPath (⟨.send (batchRequest cl machineId), .ok response⟩ : cl.Exchange) =
      none := removedPath_kept fun h => by cases h.1
  rw [afterListing, hread, ← length_removedPaths_kept hkept]
  cases batch with
  | nil =>
      refine .ended ?_ (hempty.mp rfl)
      rw [List.length_append, List.length_singleton]
      omega
  | cons process batch =>
      have hleft := outside_add_length_le hprefix
      rw [List.length_cons] at hleft
      refine .sweeping ?_ (by omega)
      rw [List.length_append, List.length_singleton, List.length_cons]
      omega

theorem Sweep.own (h : Sweep machineId start events table p) (hp : p = .ask op next)
    (hserves : Serves machineId table ⟨op, reply⟩ after) :
    Sweep machineId start (events ++ [⟨op, reply⟩]) after (next reply) := by
  cases h with
  | ended => cases hp
  | @sweeping batches batch hsteps hbatches =>
      cases batch with
      | cons process batch =>
          rw [sweeping_cons] at hp
          cases hp
          cases reply with
          | error => cases hserves
          | ok response =>
              rcases hserves with ⟨hlist, -, -⟩ | ⟨-, hdeletes⟩
              · cases congrArg Request.method hlist
              · exact sweep_of_delete hsteps hbatches hdeletes
      | nil =>
          rw [outside_nil] at hsteps hbatches
          obtain ⟨batches, rfl⟩ := Nat.exists_eq_add_one_of_ne_zero (Nat.ne_zero_of_lt hbatches)
          obtain ⟨asked, hasked, hnext⟩ :=
            listing_asks machineId batches (removedPaths events).length 0
          rw [sweeping_nil, deleteFrom_succ, hasked] at hp
          cases hp
          cases reply with
          | error => cases hserves
          | ok response =>
              rcases hserves with ⟨-, hlists, rfl⟩ | ⟨hmethod, -⟩
              · rcases hnext (.ok response) with hread | ⟨_, _, ⟨⟩, hstatus, -⟩
                · rw [hread]
                  exact sweep_of_listing (by simpa using hsteps) (Nat.le_of_lt_succ hbatches) hlists
                · obtain ⟨_, hread, -⟩ := hlists
                  exact absurd hstatus (status_ne_of_readProcesses hread)
              · cases hmethod

end Exact

section Failing

variable {machineId : cl.json.Uuid}

def failure : cl.Exchange → Option cl.Error
  | ⟨.send request, reply⟩ =>
      if request.method = .delete then
        match deleteOutcome cl reply with
        | .ok () => none
        | .error err => if err.isNotFound then none else some err
      else
        match (reply.mapError .http).bind cl.readProcesses with
        | .ok _ => none
        | .error err => some err
  | ⟨.sleep _, _⟩ => none

def Throttled : cl.Exchange → Prop
  | ⟨.send request, .ok response⟩ =>
      request.method ≠ .delete ∧ response.status = tooManyRequests
  | _ => False

/-- The server, when requests may fail.  Of a delete that failed it is not known
whether it removed the row. -/
def ServesOrFails (machineId : cl.json.Uuid) (table : Table cl) (event : cl.Exchange)
    (after : Table cl) : Prop :=
  Serves machineId table event after ∨
    (∃ wait, event = ⟨.sleep wait, ()⟩ ∧ after = table) ∨
      ((failure event).isSome ∧ (after = table ∨ ∃ request reply,
        event = ⟨.send request, reply⟩ ∧ request.method = .delete ∧
          after = table.remove request.path))

/-- A sweep that is not over. -/
inductive Going (machineId : cl.json.Uuid) : cl.Call Nat → Prop
  | listing (batches deleted : Nat) (attempt : UInt32) :
      Going machineId (listing machineId batches deleted attempt)
  | waiting (wait : Duration) (batches deleted : Nat) (attempt : UInt32) :
      Going machineId
        (.ask (.sleep wait) fun _ => ProcessSweep.listing machineId batches deleted attempt)
  | sweeping (batches : Nat) (process : ProcessResource cl.json)
      (batch : List (ProcessResource cl.json)) (deleted : Nat) :
      Going machineId (sweeping machineId batches (process :: batch) deleted)
  | outOfBatches : Going machineId .stop

theorem going_sweeping (batches : Nat) (batch : List (ProcessResource cl.json)) (deleted : Nat) :
    Going machineId (sweeping machineId batches batch deleted) := by
  cases batch with
  | cons process batch => exact .sweeping batches process batch deleted
  | nil =>
      rw [sweeping_nil]
      cases batches with
      | zero => exact .outOfBatches
      | succ batches =>
          rw [deleteFrom_succ]
          exact .listing batches deleted 0

/-- What an exchange has made of a sweep. -/
inductive Went (machineId : cl.json.Uuid) (event : cl.Exchange) : cl.Call Nat → Prop
  | on {p : cl.Call Nat} (h : failure event = none) (hgoing : Going machineId p) :
      Went machineId event p
  | ended (h : failure event = none) (deleted : Nat) : Went machineId event (.ret (.ok deleted))
  | failed {err : cl.Error} (h : failure event = some err) :
      Went machineId event (.ret (.error err))
  | waits (h : Throttled event) (wait : Duration) (batches deleted : Nat) (attempt : UInt32) :
      Went machineId event
        (.ask (.sleep wait) fun _ => ProcessSweep.listing machineId batches deleted attempt)

variable {event : cl.Exchange} {op : Op} {next : Reply cl.reqwest op → cl.Call Nat}
  {p : cl.Call Nat}

theorem went_afterDelete (batches : Nat) (process : ProcessResource cl.json)
    (batch : List (ProcessResource cl.json)) (deleted : Nat)
    (reply : Except cl.reqwest.Error Response) :
    Went machineId ⟨.send (cl.deleteProcessRequest process.id), reply⟩
      (afterDelete machineId batches batch deleted (deleteOutcome cl reply)) := by
  have hfailure : failure (⟨.send (cl.deleteProcessRequest process.id), reply⟩ : cl.Exchange) =
      match deleteOutcome cl reply with
      | .ok () => none
      | .error err => if err.isNotFound then none else some err := by
    rw [failure, if_pos (by rfl)]
  cases houtcome : deleteOutcome cl reply with
  | ok =>
      rw [houtcome] at hfailure
      exact .on hfailure (going_sweeping batches batch (deleted + 1))
  | error err =>
      rw [houtcome] at hfailure
      rw [afterDelete]
      split
      · rename_i hgone
        exact .on (hfailure.trans (if_pos hgone)) (going_sweeping batches batch deleted)
      · rename_i hfailed
        exact .failed (hfailure.trans (if_neg hfailed))

theorem went_afterListing (batches deleted : Nat) (reply : Except cl.reqwest.Error Response) :
    Went machineId ⟨.send (batchRequest cl machineId), reply⟩
      (afterListing machineId batches deleted (reply.mapError .http)) := by
  have hfailure : failure (⟨.send (batchRequest cl machineId), reply⟩ : cl.Exchange) =
      match (reply.mapError .http).bind cl.readProcesses with
      | .ok _ => none
      | .error err => some err := by
    rw [failure, if_neg (by rintro ⟨⟩)]
  cases reply with
  | error err => exact .failed hfailure
  | ok response =>
      change _ = match cl.readProcesses response with
        | .ok _ => none
        | .error err => some err at hfailure
      change Went _ _ (match cl.readProcesses response with
        | .ok batch =>
            if batch.isEmpty then .ret (.ok deleted)
            else sweeping machineId batches batch deleted
        | .error err => .ret (.error err))
      cases hread : cl.readProcesses response with
      | error err =>
          rw [hread] at hfailure
          exact .failed hfailure
      | ok batch =>
          rw [hread] at hfailure
          simp only
          split
          · exact .ended hfailure deleted
          · exact .on hfailure (going_sweeping batches batch deleted)

/-- One exchange of a sweep that is not over. -/
theorem Going.step (h : Going machineId p) (hp : p = .ask op next) (reply : Reply cl.reqwest op) :
    Went machineId ⟨op, reply⟩ (next reply) := by
  cases h with
  | outOfBatches => cases hp
  | waiting wait batches deleted attempt =>
      cases hp
      exact .on rfl (.listing batches deleted attempt)
  | sweeping batches process batch deleted =>
      rw [sweeping_cons] at hp
      cases hp
      exact went_afterDelete batches process batch deleted reply
  | listing batches deleted attempt =>
      obtain ⟨asked, hasked, hnext⟩ := listing_asks machineId batches deleted attempt
      rw [hasked] at hp
      cases hp
      rcases hnext reply with hread | ⟨response, wait, rfl, hstatus, hwaits⟩
      · rw [hread]
        exact went_afterListing batches deleted reply
      · rw [hwaits]
        have hthrottled : Throttled
            (⟨.send (batchRequest cl machineId), .ok response⟩ : cl.Exchange) :=
          ⟨by rintro ⟨⟩, hstatus⟩
        exact .waits hthrottled wait batches deleted (attempt + 1)

theorem Went.going (h : Went machineId event p) (hp : p = .ask op next) :
    Going machineId p := by
  cases h with
  | on _ hgoing => exact hgoing
  | ended => cases hp
  | failed => cases hp
  | waits _ wait batches deleted attempt => exact .waiting wait batches deleted attempt

end Failing

section Accounts

variable {machineId : cl.json.Uuid} {start table after : Table cl} {event : cl.Exchange}
  {events : List cl.Exchange}

/-- A row leaves the table exactly when a delete of it is answered 204. -/
theorem Serves.perm (h : Serves machineId table event after) :
    ((removedPath event).toList ++ after.paths).Perm table.paths := by
  obtain ⟨request, response, rfl,
    ⟨rfl, -, rfl⟩ | ⟨hmethod, ⟨hmem, hstatus, rfl⟩ | ⟨-, hstatus, -, rfl⟩⟩⟩ := h.exists_response
  · rw [removedPath_kept fun h => by cases h.1]
    exact .refl _
  · rw [removedPath_removed hmethod hstatus]
    exact Table.perm_remove hmem
  · rw [removedPath_kept (by omega)]
    exact .refl _

theorem removedPath_of_failure (h : (failure event).isSome) : removedPath event = none := by
  obtain ⟨op, reply⟩ := event
  cases op with
  | sleep => cases h
  | send request =>
      cases reply with
      | error => rfl
      | ok response =>
          refine removedPath_kept ?_
          rintro ⟨hmethod, hstatus⟩
          rw [failure, if_pos hmethod, deleteOutcome_noContent hstatus] at h
          cases h

theorem paths_remove_sublist (table : Table cl) (path : String) :
    (table.remove path).paths.Sublist table.paths := by
  rw [Table.paths_remove]
  exact List.filter_sublist

theorem ServesOrFails.subperm (h : ServesOrFails machineId table event after) :
    ((removedPath event).toList ++ after.paths).Subperm table.paths := by
  rcases h with hserves | ⟨wait, rfl, rfl⟩ | ⟨hfailure, hafter⟩
  · exact hserves.perm.subperm
  · exact .refl _
  · rw [removedPath_of_failure hfailure]
    rcases hafter with rfl | ⟨_, _, -, -, rfl⟩
    · exact .refl _
    · exact (paths_remove_sublist table _).subperm

/-- The rows that were removed, and those that are left, are the rows of the start. -/
theorem accounts_of_serves (h : (removedPaths events ++ table.paths).Perm start.paths)
    (hserves : Serves machineId table event after) :
    (removedPaths (events ++ [event]) ++ after.paths).Perm start.paths := by
  rw [removedPaths_concat, List.append_assoc]
  exact (hserves.perm.append_left _).trans h

theorem accounts_of_servesOrFails (h : (removedPaths events ++ table.paths).Subperm start.paths)
    (hserves : ServesOrFails machineId table event after) :
    (removedPaths (events ++ [event]) ++ after.paths).Subperm start.paths := by
  rw [removedPaths_concat, List.append_assoc]
  exact ((List.subperm_append_left _).mpr hserves.subperm).trans h

end Accounts

section Recorded

variable {machineId : cl.json.Uuid} {start table : Table cl} {n : Nat}
  {progs now : Fin n → cl.Call Nat} {log : List (Fin n × cl.Exchange)} {response : Response}

theorem run_listing (hrun : Run (closed (Serves machineId)) start progs log table now) (i : Fin n)
    {batches deleted : Nat} (hnow : now i = cl.deleteFrom machineId (batches + 1) deleted)
    (hlists : Lists table response) :
    Run (closed (Serves machineId)) start progs
      (log ++ [(i, ⟨.send (batchRequest cl machineId), .ok response⟩)]) table
      (Function.update now i (afterListing machineId batches deleted (.ok response))) := by
  obtain ⟨next, hasks, hnext⟩ := listing_asks machineId batches deleted 0
  rw [deleteFrom_succ, hasks] at hnow
  have hserves : (closed (Serves machineId)).serves table
      ⟨.send (batchRequest cl machineId), .ok response⟩ table := Or.inl ⟨rfl, hlists, rfl⟩
  have hstep := hrun.serve hnow hserves
  rcases hnext (.ok response) with hread | ⟨_, _, ⟨⟩, hstatus, -⟩
  · rwa [hread] at hstep
  · obtain ⟨_, hread, -⟩ := hlists
    exact absurd hstatus (status_ne_of_readProcesses hread)

theorem run_delete (hrun : Run (closed (Serves machineId)) start progs log table now) (i : Fin n)
    {batches deleted : Nat} {process : ProcessResource cl.json}
    {batch : List (ProcessResource cl.json)} (response : Response) (after : Table cl)
    (hnow : now i = sweeping machineId batches (process :: batch) deleted)
    (hdeletes : Deletes table (processPath process) response after) :
    Run (closed (Serves machineId)) start progs
      (log ++ [(i, ⟨.send (cl.deleteProcessRequest process.id), .ok response⟩)]) after
      (Function.update now i (afterDelete machineId batches batch deleted
        (deleteOutcome cl (.ok response)))) := by
  rw [sweeping_cons] at hnow
  exact hrun.serve hnow (Or.inr ⟨rfl, hdeletes⟩)

def blankMachineId : blankClient.json.Uuid := "machine"

def blankProcess : ProcessResource blankClient.json where
  id := "process"
  resourceType := "processes"
  attributes := {
    pid := "1"
    machineId := "machine"
    lastHeartbeatAt := "2026-01-01T00:00:00Z"
    metadata := objectJson []
    created := "2026-01-01T00:00:00Z"
    updated := "2026-01-01T00:00:00Z" }

def oneProcess : Table blankClient := ⟨[blankProcess], List.nodup_singleton _⟩

def batchResponse (processes : List (ProcessResource blankClient.json)) : Response :=
  ⟨200, [], some (processesDocument processes)⟩

theorem lists_batchResponse {table : Table blankClient} (h : table.rows.length ≤ 100) :
    Lists table (batchResponse table.rows) :=
  ⟨table.rows, readProcesses_batch roundTrips_blankClient table.rows, List.prefix_rfl, h, Iff.rfl⟩

theorem afterListing_batch {batches deleted : Nat} {process : ProcessResource cl.json}
    {batch : List (ProcessResource cl.json)}
    (hread : cl.readProcesses response = .ok (process :: batch)) :
    afterListing machineId batches deleted (.ok response) =
      sweeping machineId batches (process :: batch) deleted := by
  rw [afterListing, hread]
  rfl

theorem afterListing_empty (machineId : cl.json.Uuid) (batches deleted : Nat)
    (hread : cl.readProcesses response = .ok []) :
    afterListing machineId batches deleted (.ok response) = .ret (.ok deleted) := by
  rw [afterListing, hread]
  rfl

def goneResponse : Response := ⟨404, [], some (errorDocument "NOT_FOUND")⟩

end Recorded

section Sweeps

variable {machineId : cl.json.Uuid} {start table : Table cl} {n : Nat} {batches : Nat}
  {log : List (Fin n × cl.Exchange)} {now : Fin n → cl.Call Nat}

def removes {ι : Type} (path : String) (entry : ι × cl.Exchange) : Bool :=
  removedPath entry.2 == some path

/-- What the calls have come to, wherever the run is, while nothing fails. -/
structure ShareRows (machineId : cl.json.Uuid) (start table : Table cl)
    (log : List (Fin n × cl.Exchange)) (now : Fin n → cl.Call Nat) : Prop where
  finishes : ∀ i,
    (∃ deleted, now i = .ret (.ok deleted) ∧
        (exchanges i log).length ≤ 2 * start.rows.length + 1) ∨
      ∃ request next, now i = .ask (.send request) next ∧
        (exchanges i log).length ≤ 2 * start.rows.length ∧
          (request = batchRequest cl machineId ∨ ∃ id, request = cl.deleteProcessRequest id)
  finished : ∀ i deleted, now i = .ret (.ok deleted) →
    table.rows = [] ∧ deleted = (removedPaths (exchanges i log)).length
  removedOnce : ∀ path ∈ start.paths, path ∉ table.paths →
    ∃ i event, log.filter (removes path) = [(i, event)]
  left : ∀ path ∈ table.paths, path ∈ start.paths ∧ log.filter (removes path) = []
  total : 0 < n → ∀ counts : Fin n → Nat, (∀ i, now i = .ret (.ok (counts i))) →
    ∑ i, counts i = start.rows.length

/-- What the calls have come to when requests may fail.  A throttled listing is
waited out and sent again as long as the client has attempts left. -/
structure FailAtOnce (start table : Table cl) (log : List (Fin n × cl.Exchange))
    (now : Fin n → cl.Call Nat) : Prop where
  aborts : ∀ i event err, (exchanges i log).getLast? = some event → failure event = some err →
    now i = .ret (.error err) ∨ Throttled event ∧ ∃ wait next, now i = .ask (.sleep wait) next
  reports : ∀ i err, now i = .ret (.error err) →
    ∃ event, (exchanges i log).getLast? = some event ∧ failure event = some err
  staysRemoved : ∀ path ∈ removedPaths (log.map Prod.snd),
    path ∈ start.paths ∧ path ∉ table.paths

/-- A sweep is over, or has a request to send. -/
theorem Sweep.ended_or_asks {events : List cl.Exchange} {p : cl.Call Nat}
    (h : Sweep machineId start events table p) :
    (p = .ret (.ok (removedPaths events).length) ∧ table.rows = [] ∧
        events.length ≤ 2 * start.rows.length + 1) ∨
      ∃ request next, p = .ask (.send request) next ∧ events.length ≤ 2 * start.rows.length ∧
        (request = batchRequest cl machineId ∨ ∃ id, request = cl.deleteProcessRequest id) := by
  cases h with
  | ended hsteps hrows => exact Or.inl ⟨rfl, hrows, hsteps⟩
  | @sweeping batches batch hsteps hbatches =>
      refine Or.inr ?_
      cases batch with
      | cons process batch =>
          exact ⟨_, _, sweeping_cons machineId batches process batch _, by omega,
            Or.inr ⟨process.id, rfl⟩⟩
      | nil =>
          obtain ⟨batches, rfl⟩ := Nat.exists_eq_add_one_of_ne_zero (Nat.ne_zero_of_lt hbatches)
          obtain ⟨next, hasks, -⟩ := listing_asks machineId batches (removedPaths events).length 0
          rw [sweeping_nil, deleteFrom_succ]
          exact ⟨_, next, hasks, by omega, Or.inl rfl⟩

theorem run_sweep (hbatches : start.rows.length < batches)
    (hrun : Run (closed (Serves machineId)) start
      (fun _ : Fin n => cl.deleteMachineProcesses batches machineId) log table now) (i : Fin n) :
    Sweep machineId start (exchanges i log) table (now i) :=
  hrun.program_invariant (Sweep machineId start) (sweep_start hbatches)
    (fun _ _ _ _ _ _ h hserves => h.own rfl hserves) (fun _ _ _ _ _ h hserves => h.others hserves)
    (fun _ _ _ _ _ h => h.elim)

theorem run_accounts
    (hrun : Run (closed (Serves machineId)) start
      (fun _ : Fin n => cl.deleteMachineProcesses batches machineId) log table now) :
    (removedPaths (log.map Prod.snd) ++ table.paths).Perm start.paths :=
  hrun.log_invariant (fun events table => (removedPaths events ++ table.paths).Perm start.paths)
    (.refl _) (fun _ _ _ _ h hserves => accounts_of_serves h hserves) (fun _ _ _ _ h => h.elim)

theorem count_removedPaths {ι : Type} (path : String) (log : List (ι × cl.Exchange)) :
    (removedPaths (log.map Prod.snd)).count path = (log.filter (removes path)).length := by
  rw [removedPaths, List.filterMap_map, List.count_filterMap, List.countP_eq_length_filter]
  rfl

/-- Of the rows of the start each was removed once, or is left. -/
theorem run_count
    (hrun : Run (closed (Serves machineId)) start
      (fun _ : Fin n => cl.deleteMachineProcesses batches machineId) log table now)
    (path : String) :
    (log.filter (removes path)).length + table.paths.count path =
      if path ∈ start.paths then 1 else 0 := by
  have hdistinct : start.paths.Nodup := start.distinct
  rw [← hdistinct.count, ← count_removedPaths, ← List.count_append]
  exact (run_accounts hrun).count_eq path

theorem run_finished (hbatches : start.rows.length < batches)
    (hrun : Run (closed (Serves machineId)) start
      (fun _ : Fin n => cl.deleteMachineProcesses batches machineId) log table now) {i : Fin n}
    {deleted : Nat} (hover : now i = .ret (.ok deleted)) :
    table.rows = [] ∧ deleted = (removedPaths (exchanges i log)).length := by
  rcases (run_sweep hbatches hrun i).ended_or_asks with ⟨hret, hrows, -⟩ | ⟨_, _, hasks, -⟩
  · rw [hret] at hover
    cases hover
    exact ⟨hrows, rfl⟩
  · cases hasks.symm.trans hover

/-- The counts of the calls add up to the rows that were removed. -/
theorem run_total (hbatches : start.rows.length < batches)
    (hrun : Run (closed (Serves machineId)) start
      (fun _ : Fin n => cl.deleteMachineProcesses batches machineId) log table now) (hn : 0 < n)
    {counts : Fin n → Nat} (hover : ∀ i, now i = .ret (.ok (counts i))) :
    ∑ i, counts i = start.rows.length := by
  have hempty := (run_finished hbatches hrun (hover ⟨0, hn⟩)).1
  have hown : ∀ i, counts i = (exchanges i log).countP fun event => (removedPath event).isSome :=
    fun i => (run_finished hbatches hrun (hover i)).2.trans (length_removedPaths _)
  have hlength := (run_accounts hrun).length_eq
  rw [List.length_append, Table.length_paths, Table.length_paths, hempty, List.length_nil,
    Nat.add_zero, length_removedPaths, List.countP_map] at hlength
  rw [Finset.sum_congr rfl fun i _ => hown i, sum_countP_exchanges]
  exact hlength

theorem shareRows (hbatches : start.rows.length < batches)
    (hrun : Run (closed (Serves machineId)) start
      (fun _ : Fin n => cl.deleteMachineProcesses batches machineId) log table now) :
    ShareRows machineId start table log now where
  finishes i := by
    rcases (run_sweep hbatches hrun i).ended_or_asks with ⟨hret, -, hsteps⟩ | hasks
    · exact Or.inl ⟨_, hret, hsteps⟩
    · exact Or.inr hasks
  finished _ _ hover := run_finished hbatches hrun hover
  removedOnce path hmem hgone := by
    have honce := run_count hrun path
    rw [List.count_eq_zero.mpr hgone, if_pos hmem] at honce
    obtain ⟨⟨i, event⟩, hentry⟩ := List.length_eq_one_iff.mp honce
    exact ⟨i, event, hentry⟩
  left path hmem := by
    have hstart : path ∈ start.paths := (run_accounts hrun).subset (List.mem_append_right _ hmem)
    have hnone := run_count hrun path
    have hleft := List.count_pos_iff.mpr hmem
    rw [if_pos hstart] at hnone
    exact ⟨hstart, List.length_eq_zero_iff.mp (by omega)⟩
  total hn _ hover := run_total hbatches hrun hn hover

def Follows (machineId : cl.json.Uuid) (events : List cl.Exchange) (p : cl.Call Nat) : Prop :=
  (events = [] ∧ Going machineId p) ∨
    ∃ front event, events = front ++ [event] ∧ Went machineId event p

theorem Follows.own {events : List cl.Exchange} {op : Op}
    {next : Reply cl.reqwest op → cl.Call Nat} (h : Follows machineId events (.ask op next))
    (reply : Reply cl.reqwest op) : Follows machineId (events ++ [⟨op, reply⟩]) (next reply) := by
  have hgoing : Going machineId (.ask op next) := by
    rcases h with ⟨-, hgoing⟩ | ⟨_, _, -, hwent⟩
    · exact hgoing
    · exact hwent.going rfl
  exact Or.inr ⟨events, _, rfl, hgoing.step rfl reply⟩

theorem Going.ne_ret {p : cl.Call Nat} (h : Going machineId p) (outcome : Except cl.Error Nat) :
    p ≠ .ret outcome := by
  cases h with
  | listing batches deleted attempt =>
      obtain ⟨next, hasks, -⟩ := listing_asks machineId batches deleted attempt
      rw [hasks]
      rintro ⟨⟩
  | waiting => rintro ⟨⟩
  | sweeping batches process batch deleted =>
      rw [sweeping_cons]
      rintro ⟨⟩
  | outOfBatches => rintro ⟨⟩

theorem run_follows
    (hrun : Run (closed (ServesOrFails machineId)) start
      (fun _ : Fin n => cl.deleteMachineProcesses batches machineId) log table now) (i : Fin n) :
    Follows machineId (exchanges i log) (now i) :=
  hrun.program_invariant (fun events _ p => Follows machineId events p)
    (Or.inl ⟨rfl, going_sweeping batches [] 0⟩) (fun _ _ _ _ reply _ h _ => h.own reply)
    (fun _ _ _ _ _ h _ => h) (fun _ _ _ _ _ h => h.elim)

theorem Follows.aborts {events : List cl.Exchange} {p : cl.Call Nat} {event : cl.Exchange}
    {err : cl.Error} (h : Follows machineId events p) (hlast : events.getLast? = some event)
    (hfailure : failure event = some err) :
    p = .ret (.error err) ∨ Throttled event ∧ ∃ wait next, p = .ask (.sleep wait) next := by
  rcases h with ⟨hnone, -⟩ | ⟨front, last, hevents, hwent⟩
  · rw [hnone] at hlast
    cases hlast
  · rw [hevents, List.getLast?_concat] at hlast
    cases hlast
    cases hwent with
    | on h => cases h.symm.trans hfailure
    | ended h => cases h.symm.trans hfailure
    | failed h =>
        cases h.symm.trans hfailure
        exact Or.inl rfl
    | waits h wait => exact Or.inr ⟨h, wait, _, rfl⟩

theorem Follows.reports {events : List cl.Exchange} {p : cl.Call Nat} {err : cl.Error}
    (h : Follows machineId events p) (hp : p = .ret (.error err)) :
    ∃ event, events.getLast? = some event ∧ failure event = some err := by
  rcases h with ⟨-, hgoing⟩ | ⟨front, last, hevents, hwent⟩
  · exact absurd hp (hgoing.ne_ret _)
  · refine ⟨last, by rw [hevents, List.getLast?_concat], ?_⟩
    cases hwent with
    | on _ hgoing => exact absurd hp (hgoing.ne_ret _)
    | ended => cases hp
    | failed h =>
        cases hp
        exact h
    | waits => cases hp

theorem run_subperm
    (hrun : Run (closed (ServesOrFails machineId)) start
      (fun _ : Fin n => cl.deleteMachineProcesses batches machineId) log table now) :
    (removedPaths (log.map Prod.snd) ++ table.paths).Subperm start.paths :=
  hrun.log_invariant
    (fun events table => (removedPaths events ++ table.paths).Subperm start.paths)
    (.refl _) (fun _ _ _ _ h hserves => accounts_of_servesOrFails h hserves)
    (fun _ _ _ _ h => h.elim)

theorem failAtOnce
    (hrun : Run (closed (ServesOrFails machineId)) start
      (fun _ : Fin n => cl.deleteMachineProcesses batches machineId) log table now) :
    FailAtOnce start table log now where
  aborts i _ _ hlast hfailure := (run_follows hrun i).aborts hlast hfailure
  reports i _ hover := (run_follows hrun i).reports hover
  staysRemoved path hmem := by
    have haccounts := run_subperm hrun
    have hdistinct : (removedPaths (log.map Prod.snd) ++ table.paths).Nodup := by
      obtain ⟨within, hperm, hsublist⟩ := haccounts
      exact hperm.nodup_iff.mp (start.distinct.sublist hsublist)
    exact ⟨haccounts.subset (List.mem_append_left _ hmem),
      fun hleft => List.disjoint_of_nodup_append hdistinct hmem hleft⟩

/-- However their requests come to interleave, the calls share the rows out among
them.  Where a request fails, its call ends there, and what is removed stays so. -/
theorem sweeps_share_rows (cl : Client) (machineId : cl.json.Uuid) (n : Nat) (start : Table cl) :
    (∀ batches log table now, start.rows.length < batches →
        Run (closed (Serves machineId)) start
          (fun _ : Fin n => cl.deleteMachineProcesses batches machineId) log table now →
        ShareRows machineId start table log now) ∧
      ∀ batches log table now,
        Run (closed (ServesOrFails machineId)) start
          (fun _ : Fin n => cl.deleteMachineProcesses batches machineId) log table now →
        FailAtOnce start table log now :=
  ⟨fun _ _ _ _ hbatches hrun => shareRows hbatches hrun, fun _ _ _ _ hrun => failAtOnce hrun⟩

theorem sweeps_share_rows_recorded :
    (∃ log table now, now 0 = .ret (.ok 1) ∧ now 1 = .ret (.ok 0) ∧
        ShareRows (n := 2) blankMachineId oneProcess table log now) ∧
      ∃ log table now err, now 0 = .ret (.error err) ∧
        FailAtOnce (n := 1) oneProcess table log now := by
  constructor
  · have hstart : Run (closed (Serves blankMachineId)) oneProcess
        (fun _ : Fin 2 => blankClient.deleteMachineProcesses 2 blankMachineId) _ _ _ := .start
    have hbatch := readProcesses_batch roundTrips_blankClient [blankProcess]
    have hnone := readProcesses_batch roundTrips_blankClient []
    have hlisted := run_listing (run_listing hstart 0 rfl (lists_batchResponse (by decide))) 1 rfl
      (lists_batchResponse (by decide))
    let emptied := oneProcess.remove (processPath blankProcess)
    have hremoved := run_delete hlisted 0 ⟨204, [], none⟩ emptied (afterListing_batch hbatch)
      (Or.inl ⟨List.mem_singleton_self _, rfl, rfl⟩)
    have hgone := run_delete hremoved 1 goneResponse emptied (afterListing_batch hbatch)
      (Or.inr ⟨by decide, rfl, rfl, rfl⟩)
    have hlast := run_listing (run_listing hgone 0 rfl (lists_batchResponse (by decide))) 1 rfl
      (lists_batchResponse (by decide))
    exact ⟨_, _, _, afterListing_empty blankMachineId 0 1 hnone,
      afterListing_empty blankMachineId 0 0 hnone,
      (sweeps_share_rows blankClient blankMachineId 2 oneProcess).1 2 _ _ _ (by decide) hlast⟩
  · obtain ⟨next, hasks, hnext⟩ := listing_asks blankMachineId 0 0 0
    have hfails : (closed (ServesOrFails blankMachineId)).serves oneProcess
        ⟨.send (batchRequest blankClient blankMachineId), .error "closed"⟩ oneProcess :=
      Or.inr (Or.inr ⟨rfl, Or.inl rfl⟩)
    have hstart : Run (closed (ServesOrFails blankMachineId)) oneProcess
        (fun _ : Fin 1 => blankClient.deleteMachineProcesses 1 blankMachineId) _ _ _ := .start
    have hrun := hstart.serve (i := 0) ((deleteFrom_succ blankMachineId 0 0).trans hasks) hfails
    refine ⟨_, _, _, .http "closed", ?_,
      (sweeps_share_rows blankClient blankMachineId 1 oneProcess).2 1 _ _ _ hrun⟩
    rcases hnext (.error "closed") with hread | ⟨_, _, ⟨⟩, _⟩
    exact (Function.update_self ..).trans hread

end Sweeps

end Tamga.ProcessSweep
