import Mathlib.Data.List.TakeWhile
import Tamga.ProcessSweep

/-!
Whether a sweep of the processes of a machine comes to an end.  It lists the first
processes again after every batch and goes on until none is listed, and a delete
that is answered with 404 counts as done.  What it comes to depends on the batches
of which nothing was removed: it ends when there are only so many of them.
-/

namespace Tamga.SweepTermination

open Library.Interaction
open Library.Interaction.Prog
open Tamga.Models
open Tamga.ApiModels
open Tamga.Transport
open Tamga.Client
open Tamga.RetryBounds
open Tamga.ActivationFlow
open Tamga.ServerResponses
open Tamga.ProcessSweep

variable {cl : Client}

section Answers

/-- A listing is answered with processes of these ids, and a delete with 204, or
with a 404 of the server. -/
def Answers (machineId : cl.json.Uuid) (ids : List cl.json.Uuid) : cl.Exchange → Prop
  | ⟨.send request, .ok response⟩ =>
      (request = batchRequest cl machineId →
        ∃ batch, cl.readProcesses response = .ok batch ∧ ∀ process ∈ batch, process.id ∈ ids) ∧
        (request.method = .delete →
          response.status = 204 ∨
            response.status = 404 ∧ errorCode cl response = some "NOT_FOUND")
  | _ => False

theorem Answers.reads {machineId : cl.json.Uuid} {ids : List cl.json.Uuid}
    {reply : Except cl.reqwest.Error Response}
    (h : Answers machineId ids ⟨.send (batchRequest cl machineId), reply⟩) :
    ∃ response batch, reply = .ok response ∧ cl.readProcesses response = .ok batch := by
  cases reply with
  | error => exact h.elim
  | ok response =>
      obtain ⟨batch, hread, -⟩ := h.1 rfl
      exact ⟨response, batch, rfl, hread⟩

theorem Answers.ids_of_read {machineId : cl.json.Uuid} {ids : List cl.json.Uuid}
    {response : Response} {batch : List (ProcessResource cl.json)}
    (h : Answers machineId ids ⟨.send (batchRequest cl machineId), .ok response⟩)
    (hread : cl.readProcesses response = .ok batch) : ∀ process ∈ batch, process.id ∈ ids := by
  obtain ⟨listed, hlisted, hids⟩ := h.1 rfl
  cases hread.symm.trans hlisted
  exact hids

def isDelete : cl.Exchange → Bool
  | ⟨.send request, _⟩ => request.method = .delete
  | ⟨.sleep _, _⟩ => false

def isListing : cl.Exchange → Bool
  | ⟨.send request, _⟩ => request.method = .get
  | ⟨.sleep _, _⟩ => false

def namesProcess : cl.Exchange → Bool
  | ⟨.send request, .ok response⟩ =>
      request.method = .get &&
        match cl.readProcesses response with
        | .ok batch => !batch.isEmpty
        | .error _ => false
  | _ => false

/-- How many listings name processes none of which is removed before the next. -/
def fruitless : List cl.Exchange → Nat
  | [] => 0
  | event :: events =>
      (if namesProcess event ∧ removedPaths (events.takeWhile isDelete) = [] then 1 else 0) +
        fruitless events

variable {request : Request} {response : Response} {event : cl.Exchange}
  {events : List cl.Exchange}

theorem namesProcess_listing {batch : List (ProcessResource cl.json)}
    (hmethod : request.method = .get) (hread : cl.readProcesses response = .ok batch) :
    namesProcess (⟨.send request, .ok response⟩ : cl.Exchange) = !batch.isEmpty := by
  simp only [namesProcess, hmethod, hread, decide_true, Bool.true_and]

theorem fruitless_le (events : List cl.Exchange) :
    fruitless events ≤ events.countP namesProcess := by
  induction events with
  | nil => exact Nat.le_refl 0
  | cons event events ih =>
      rw [fruitless, List.countP_cons, Nat.add_comm]
      apply Nat.add_le_add ih
      by_cases hnames : namesProcess event = true
      · rw [if_pos hnames]
        split <;> decide
      · rw [if_neg fun h => hnames h.1]
        exact Nat.zero_le _

theorem removedPaths_append (front back : List cl.Exchange) :
    removedPaths (front ++ back) = removedPaths front ++ removedPaths back :=
  List.filterMap_append

theorem removedPaths_listing (hmethod : request.method = .get) :
    removedPaths (⟨.send request, .ok response⟩ :: events) = removedPaths events := by
  refine List.filterMap_cons_none (removedPath_kept ?_)
  rw [hmethod]
  rintro ⟨⟨⟩, -⟩

def Deleting (ids : List cl.json.Uuid) (event : cl.Exchange) : Prop :=
  ∃ id ∈ ids, ∃ reply : Except cl.reqwest.Error Response,
    event = ⟨.send (cl.deleteProcessRequest id), reply⟩

variable {ids : List cl.json.Uuid}

theorem Deleting.isDelete (h : Deleting ids event) : isDelete event = true := by
  obtain ⟨id, -, reply, rfl⟩ := h
  rfl

theorem Deleting.isListing (h : Deleting ids event) : isListing event = false := by
  obtain ⟨id, -, reply, rfl⟩ := h
  rfl

theorem Deleting.namesProcess (h : Deleting ids event) : namesProcess event = false := by
  obtain ⟨id, -, reply, rfl⟩ := h
  cases reply <;> rfl

theorem Deleting.removedPath (h : Deleting ids event) {path : String}
    (hremoved : removedPath event = some path) :
    ∃ id ∈ ids, (cl.deleteProcessRequest id).path = path := by
  obtain ⟨id, hid, reply, rfl⟩ := h
  refine ⟨id, hid, ?_⟩
  cases reply with
  | error => cases hremoved
  | ok response =>
      rw [ProcessSweep.removedPath] at hremoved
      split at hremoved
      · exact Option.some.inj hremoved
      · cases hremoved

theorem fruitless_deletes_append {deletes : List cl.Exchange}
    (h : ∀ event ∈ deletes, Deleting ids event) :
    fruitless (deletes ++ events) = fruitless events := by
  induction deletes with
  | nil => rfl
  | cons event deletes ih =>
      obtain ⟨hevent, hrest⟩ := List.forall_mem_cons.mp h
      rw [List.cons_append, fruitless, hevent.namesProcess, ih hrest]
      simp only [Bool.false_eq_true, false_and, if_false, Nat.zero_add]

end Answers

section Rounds

variable {machineId : cl.json.Uuid} {ids : List cl.json.Uuid} {batches deleted : Nat}
  {events : List cl.Exchange} {q : cl.Call Nat}

/-- A whole sweep, batch by batch. -/
inductive Rounds (cl : Client) (machineId : cl.json.Uuid) (ids : List cl.json.Uuid) :
    Nat → List cl.Exchange → cl.Call Nat → Prop
  | outOfBatches : Rounds cl machineId ids 0 [] .stop
  | ended {batches : Nat} {response : Response} (deleted : Nat)
      (hread : cl.readProcesses response = .ok []) :
      Rounds cl machineId ids (batches + 1)
        [⟨.send (batchRequest cl machineId), .ok response⟩] (.ret (.ok deleted))
  | round {batches : Nat} {response : Response} {batch : List (ProcessResource cl.json)}
      {deletes events : List cl.Exchange} {q : cl.Call Nat}
      (hread : cl.readProcesses response = .ok batch) (hbatch : batch ≠ [])
      (hdeletes : ∀ event ∈ deletes, Deleting ids event)
      (rest : Rounds cl machineId ids batches events q) :
      Rounds cl machineId ids (batches + 1)
        (⟨.send (batchRequest cl machineId), .ok response⟩ :: (deletes ++ events)) q

theorem afterDelete_of_answers {id : cl.json.Uuid} {batch : List (ProcessResource cl.json)}
    {reply : Except cl.reqwest.Error Response}
    (h : Answers machineId ids ⟨.send (cl.deleteProcessRequest id), reply⟩) :
    ∃ deleted', afterDelete machineId batches batch deleted (deleteOutcome cl reply) =
      sweeping machineId batches batch deleted' := by
  cases reply with
  | error => exact h.elim
  | ok response =>
      rcases h.2 rfl with hstatus | ⟨hstatus, hcode⟩
      · rw [deleteOutcome_noContent hstatus]
        exact ⟨deleted + 1, rfl⟩
      · obtain ⟨err, herror, hgone⟩ := deleteOutcome_notFound hstatus hcode
        rw [herror, afterDelete, if_pos hgone]
        exact ⟨deleted, rfl⟩

/-- The deletes of a batch, and what the sweep does after them. -/
theorem steps_sweeping {batch : List (ProcessResource cl.json)}
    (hids : ∀ process ∈ batch, process.id ∈ ids)
    (hsteps : Steps (sweeping machineId batches batch deleted) events q)
    (hend : q.value? = none → q = .stop)
    (hanswers : ∀ event ∈ events, Answers machineId ids event) :
    ∃ deletes rest deleted', events = deletes ++ rest ∧
      (∀ event ∈ deletes, Deleting ids event) ∧
        Steps (cl.deleteFrom machineId batches deleted') rest q := by
  induction batch generalizing deleted events with
  | nil =>
      rw [sweeping_nil] at hsteps
      exact ⟨[], events, deleted, rfl, nofun, hsteps⟩
  | cons process batch ih =>
      obtain ⟨hid, hothers⟩ := List.forall_mem_cons.mp hids
      rw [sweeping_cons] at hsteps
      rcases steps_ask_iff.mp hsteps with ⟨-, rfl⟩ | ⟨reply, rest, rfl, hrest⟩
      · cases hend rfl
      · obtain ⟨hanswer, hafter⟩ := List.forall_mem_cons.mp hanswers
        obtain ⟨counted, hsweeping⟩ := afterDelete_of_answers hanswer
        rw [hsweeping] at hrest
        obtain ⟨deletes, back, deleted', rfl, hdeletes, hback⟩ := ih hothers hrest hafter
        exact ⟨_ :: deletes, back, deleted', rfl,
          List.forall_mem_cons.mpr ⟨⟨process.id, hid, reply, rfl⟩, hdeletes⟩, hback⟩

theorem returns_listMachineProcesses (machineId : cl.json.Uuid) (limit : Option UInt32)
    (after : Option cl.json.Uuid) : (cl.listMachineProcesses machineId limit after).Returns :=
  .andThen (returns_sendFrom _ 0) fun _ => .ret _

theorem rounds_of_steps (batches : Nat) {deleted : Nat}
    (hsteps : Steps (cl.deleteFrom machineId batches deleted) events q)
    (hend : q.value? = none → q = .stop)
    (hanswers : ∀ event ∈ events, Answers machineId ids event) :
    Rounds cl machineId ids batches events q := by
  induction batches generalizing deleted events with
  | zero =>
      obtain ⟨rfl, rfl⟩ := steps_stop_iff.mp hsteps
      exact .outOfBatches
  | succ batches ih =>
      rw [Client.deleteFrom] at hsteps
      rcases hsteps.of_andThen with ⟨p', hp', hvalue, rfl⟩ | ⟨err, hfront, rfl⟩ |
        ⟨batch, front, back, rfl, hfront, hback⟩
      · have hstop : p' ≠ .stop := (returns_listMachineProcesses _ _ _).ne_stop hp'
        exact absurd (hend (value?_bind hvalue)) (bind_ne_stop hvalue hstop)
      · rcases steps_read hfront fun reply hmem => (hanswers _ hmem).reads with
          ⟨-, hnone⟩ | ⟨_, _, _, _, ⟨⟩⟩
        cases hnone
      · rcases steps_read hfront fun reply hmem =>
            (hanswers _ (List.mem_append_left back hmem)).reads with
          ⟨-, hnone⟩ | ⟨response, _, rfl, hread, ⟨⟩⟩
        · cases hnone
        · obtain ⟨hlisted, hrest⟩ := List.forall_mem_cons.mp hanswers
          cases batch with
          | nil =>
              obtain ⟨rfl, rfl⟩ := steps_ret_iff.mp hback
              exact .ended deleted hread
          | cons process batch =>
              obtain ⟨deletes, rest, deleted', rfl, hdeletes, hafter⟩ :=
                steps_sweeping (hlisted.ids_of_read hread) hback hend hrest
              rw [List.singleton_append]
              refine .round hread (List.cons_ne_nil process batch) hdeletes ?_
              exact ih hafter fun event hmem =>
                hrest event (List.mem_append_right deletes hmem)

/-- The deletes of a batch end where the next listing begins. -/
theorem Rounds.takeWhile_isDelete (h : Rounds cl machineId ids batches events q) :
    events.takeWhile isDelete = [] := by
  cases h with
  | outOfBatches => rfl
  | ended => rfl
  | round => rfl

theorem Rounds.returns_of_ne_stop (h : Rounds cl machineId ids batches events q)
    (hstop : q ≠ .stop) : ∃ deleted, q.value? = some (.ok deleted) := by
  induction h with
  | outOfBatches => exact absurd rfl hstop
  | ended deleted => exact ⟨deleted, rfl⟩
  | round _ _ _ _ ih => exact ih hstop

theorem countP_deletes {deletes : List cl.Exchange} {p : cl.Exchange → Bool}
    (hp : ∀ event ∈ deletes, p event = false) : deletes.countP p = 0 := by
  apply List.countP_eq_zero.mpr
  intro event hmem
  rw [hp event hmem]
  exact Bool.false_ne_true

theorem countP_namesProcess_ended {response : Response}
    (hread : cl.readProcesses response = .ok []) :
    [(⟨.send (batchRequest cl machineId), .ok response⟩ : cl.Exchange)].countP namesProcess =
      0 := by
  apply List.countP_eq_zero.mpr
  rw [List.forall_mem_singleton, namesProcess_listing rfl hread]
  exact Bool.false_ne_true

section Round

variable {response : Response} {batch : List (ProcessResource cl.json)}
  {deletes : List cl.Exchange} (hread : cl.readProcesses response = .ok batch)
  (hbatch : batch ≠ []) (hdeletes : ∀ event ∈ deletes, Deleting ids event)

include hread hbatch in
theorem namesProcess_round :
    namesProcess (⟨.send (batchRequest cl machineId), .ok response⟩ : cl.Exchange) = true := by
  rw [namesProcess_listing rfl hread]
  simpa using hbatch

include hread hbatch hdeletes in
theorem countP_namesProcess_round :
    (⟨.send (batchRequest cl machineId), .ok response⟩ :: (deletes ++ events)).countP
      namesProcess = events.countP namesProcess + 1 := by
  have hnames := countP_deletes fun event hmem => (hdeletes event hmem).namesProcess
  rw [List.countP_cons_of_pos (namesProcess_round hread hbatch), List.countP_append, hnames,
    Nat.zero_add]

include hdeletes in
theorem countP_isListing_round :
    (⟨.send (batchRequest cl machineId), .ok response⟩ :: (deletes ++ events)).countP
      isListing = events.countP isListing + 1 := by
  have hlistings := countP_deletes fun event hmem => (hdeletes event hmem).isListing
  rw [List.countP_cons_of_pos rfl, List.countP_append, hlistings, Nat.zero_add]

include hread hbatch hdeletes in
/-- Only the deletes of its own batch tell whether a listing is fruitless. -/
theorem fruitless_round (hnext : events.takeWhile isDelete = []) :
    fruitless (⟨.send (batchRequest cl machineId), .ok response⟩ :: (deletes ++ events)) =
      (if removedPaths deletes = [] then 1 else 0) + fruitless events := by
  have hbefore : (deletes ++ events).takeWhile isDelete = deletes := by
    rw [List.takeWhile_append_of_pos fun event hmem => (hdeletes event hmem).isDelete, hnext,
      List.append_nil]
  rw [fruitless, namesProcess_round hread hbatch, hbefore, fruitless_deletes_append hdeletes]
  simp only [true_and]

end Round

theorem Rounds.countP_isListing (h : Rounds cl machineId ids batches events q) :
    events.countP isListing ≤ events.countP namesProcess + 1 := by
  induction h with
  | outOfBatches => exact Nat.zero_le _
  | ended => exact Nat.le_add_left _ _
  | round hread hbatch hdeletes _ ih =>
      rw [countP_isListing_round hdeletes, countP_namesProcess_round hread hbatch hdeletes]
      exact Nat.succ_le_succ ih

/-- A sweep has no more batches than it may have, and is only cut short after as
many. -/
theorem Rounds.countP_namesProcess (h : Rounds cl machineId ids batches events q) :
    events.countP namesProcess ≤ batches ∧
      (q = .stop → events.countP namesProcess = batches) := by
  induction h with
  | outOfBatches => exact ⟨Nat.le_refl _, fun _ => rfl⟩
  | ended _ hread =>
      rw [countP_namesProcess_ended hread]
      exact ⟨Nat.zero_le _, nofun⟩
  | round hread hbatch hdeletes _ ih =>
      rw [countP_namesProcess_round hread hbatch hdeletes]
      exact ⟨Nat.succ_le_succ ih.1, fun hstop => congrArg (· + 1) (ih.2 hstop)⟩

/-- Of every batch that is not fruitless a process is removed. -/
theorem Rounds.countP_le (h : Rounds cl machineId ids batches events q) :
    events.countP namesProcess ≤ fruitless events + (removedPaths events).length := by
  induction h with
  | outOfBatches => exact Nat.le_refl _
  | ended _ hread =>
      rw [countP_namesProcess_ended hread]
      exact Nat.zero_le _
  | @round _ _ _ deletes _ _ hread hbatch hdeletes hrest ih =>
      rw [countP_namesProcess_round hread hbatch hdeletes,
        fruitless_round hread hbatch hdeletes hrest.takeWhile_isDelete, removedPaths_listing rfl,
        removedPaths_append, List.length_append]
      by_cases hnone : removedPaths deletes = []
      · rw [if_pos hnone]
        omega
      · have hsome := List.length_pos_iff.mpr hnone
        rw [if_neg hnone]
        omega

theorem Rounds.mem_removedPaths (h : Rounds cl machineId ids batches events q) :
    ∀ path ∈ removedPaths events, path ∈ ids.map fun id => (cl.deleteProcessRequest id).path := by
  induction h with
  | outOfBatches => exact nofun
  | ended =>
      rw [removedPaths_listing rfl]
      exact nofun
  | @round _ _ _ deletes _ _ _ _ hdeletes _ ih =>
      rw [removedPaths_listing rfl, removedPaths_append]
      intro path hmem
      rcases List.mem_append.mp hmem with hmem | hmem
      · obtain ⟨event, hevent, hremoved⟩ := List.mem_filterMap.mp hmem
        exact List.mem_map.mpr ((hdeletes event hevent).removedPath hremoved)
      · exact ih path hmem

/-- If no process is removed twice, no more are removed than there are. -/
theorem Rounds.length_removedPaths_le (h : Rounds cl machineId ids batches events q)
    (honce : (removedPaths events).Nodup) : (removedPaths events).length ≤ ids.length := by
  have hsubset : removedPaths events ⊆ ids.map fun id => (cl.deleteProcessRequest id).path :=
    fun path hmem => h.mem_removedPaths path hmem
  have hlength := (List.subperm_of_subset honce hsubset).length_le
  rwa [List.length_map] at hlength

/-- A sweep that is cut short has used up its batches, on the processes there are
and on fruitless listings. -/
theorem Rounds.batches_le (h : Rounds cl machineId ids batches events q)
    (honce : (removedPaths events).Nodup) (hstop : q = .stop) :
    batches ≤ ids.length + fruitless events := by
  have hlisted := h.countP_namesProcess.2 hstop
  have hnamed := h.countP_le
  have hremoved := h.length_removedPaths_le honce
  omega

end Rounds

section Sweeps

variable {machineId : cl.json.Uuid} {ids : List cl.json.Uuid}
  {server : List cl.Exchange → (op : Op) → Reply cl.reqwest op}

/-- All that is asked and answered of a sweep, and what it returns, if it may have
so many batches. -/
def sweep (machineId : cl.json.Uuid)
    (server : List cl.Exchange → (op : Op) → Reply cl.reqwest op) (batches : Nat) :
    List cl.Exchange × Option (Except cl.Error Nat) :=
  exec server [] (cl.deleteMachineProcesses batches machineId)

/-- There are only these processes to list, and each is removed at most once. -/
structure OnlyThese (machineId : cl.json.Uuid)
    (server : List cl.Exchange → (op : Op) → Reply cl.reqwest op) (ids : List cl.json.Uuid) :
    Prop where
  answers : ∀ batches, ∀ event ∈ (sweep machineId server batches).1,
    Answers machineId ids event
  once : ∀ batches, (removedPaths (sweep machineId server batches).1).Nodup

theorem OnlyThese.rounds (h : OnlyThese machineId server ids) (batches : Nat) :
    ∃ q, Rounds cl machineId ids batches (sweep machineId server batches).1 q ∧
      (sweep machineId server batches).2 = q.value? := by
  obtain ⟨events, q, hsteps, hend, hexec⟩ :=
    exec_steps server [] (cl.deleteMachineProcesses batches machineId)
  have hsweep : sweep machineId server batches = (events, q.value?) := hexec
  have hanswers := h.answers batches
  rw [hsweep] at hanswers ⊢
  exact ⟨q, rounds_of_steps batches hsteps hend hanswers, rfl⟩

theorem extends_deleteFrom (batches more deleted : Nat) :
    Extends (cl.deleteFrom machineId batches deleted)
      (cl.deleteFrom machineId (batches + more) deleted) := by
  induction batches generalizing deleted with
  | zero => exact .stop _
  | succ batches ih =>
      rw [Nat.add_right_comm, Client.deleteFrom, Client.deleteFrom]
      refine .andThen fun batch => ?_
      split
      · exact .refl _
      · exact .andThen ih

/-- Once a sweep returns, more batches change nothing. -/
theorem sweep_eq_of_returns {batches more : Nat} {outcome : Except cl.Error Nat}
    (hreturns : (sweep machineId server batches).2 = some outcome) (hmore : batches ≤ more) :
    sweep machineId server more = sweep machineId server batches := by
  obtain ⟨extra, rfl⟩ := Nat.exists_eq_add_of_le hmore
  exact (extends_deleteFrom batches extra 0).exec_eq hreturns

theorem OnlyThese.returns (h : OnlyThese machineId server ids) {batches : Nat}
    (hbatches : ids.length + fruitless (sweep machineId server batches).1 < batches) :
    ∃ deleted, (sweep machineId server batches).2 = some (.ok deleted) := by
  obtain ⟨q, hrounds, hvalue⟩ := h.rounds batches
  rw [hvalue]
  refine hrounds.returns_of_ne_stop fun hstop => ?_
  exact absurd hbatches (Nat.not_lt_of_le (hrounds.batches_le (h.once batches) hstop))

theorem OnlyThese.listings_le (h : OnlyThese machineId server ids) (batches : Nat) :
    (sweep machineId server batches).1.countP isListing ≤
      ids.length + fruitless (sweep machineId server batches).1 + 1 := by
  obtain ⟨q, hrounds, -⟩ := h.rounds batches
  have hlistings := hrounds.countP_isListing
  have hnamed := hrounds.countP_le
  have hremoved := hrounds.length_removedPaths_le (h.once batches)
  omega

theorem OnlyThese.fruitless_le (h : OnlyThese machineId server ids) (batches : Nat) :
    fruitless (sweep machineId server batches).1 ≤ batches := by
  obtain ⟨q, hrounds, -⟩ := h.rounds batches
  exact (SweepTermination.fruitless_le _).trans hrounds.countP_namesProcess.1

/-- A sweep that returns has only so many fruitless listings, however many batches
it may have. -/
theorem OnlyThese.fruitless_bounded (h : OnlyThese machineId server ids) {batches : Nat}
    {outcome : Except cl.Error Nat}
    (hreturns : (sweep machineId server batches).2 = some outcome) (more : Nat) :
    fruitless (sweep machineId server more).1 ≤ batches := by
  rcases Nat.le_total batches more with hmore | hless
  · rw [sweep_eq_of_returns hreturns hmore]
    exact h.fruitless_le batches
  · exact (h.fruitless_le more).trans hless

end Sweeps

section Recorded

variable {machineId : cl.json.Uuid} {batches deleted : Nat} {response : Response}
  {process : ProcessResource cl.json} {batch : List (ProcessResource cl.json)}

theorem steps_listing (hread : cl.readProcesses response = .ok batch) :
    Steps (cl.deleteFrom machineId (batches + 1) deleted)
      [⟨.send (batchRequest cl machineId), .ok response⟩]
      (afterListing machineId batches deleted (.ok response)) := by
  rw [deleteFrom_succ]
  exact (steps_sendWithRetry (status_ne_of_readProcesses hread)).bind (.refl _)

theorem steps_round {counted : Nat} {answer : Response}
    (hread : cl.readProcesses response = .ok [process])
    (hcounted : afterDelete machineId batches [] deleted (deleteOutcome cl (.ok answer)) =
      sweeping machineId batches [] counted) :
    Steps (cl.deleteFrom machineId (batches + 1) deleted)
      [⟨.send (batchRequest cl machineId), .ok response⟩,
        ⟨.send (cl.deleteProcessRequest process.id), .ok answer⟩]
      (cl.deleteFrom machineId batches counted) := by
  have hlisted := @steps_listing cl machineId batches deleted response [process] hread
  rw [afterListing_batch hread, sweeping_cons] at hlisted
  refine hlisted.append (.ask ?_)
  rw [hcounted, sweeping_nil]
  exact .refl _

def listedEvent (processes : List (ProcessResource blankClient.json)) : blankClient.Exchange :=
  ⟨.send (batchRequest blankClient blankMachineId), .ok (batchResponse processes)⟩

def deletedEvent (response : Response) : blankClient.Exchange :=
  ⟨.send (blankClient.deleteProcessRequest blankProcess.id), .ok response⟩

def lingeringServer : (op : Op) → Reply blankClient.reqwest op
  | .send request =>
      if request.method = .delete then .ok goneResponse else .ok (batchResponse [blankProcess])
  | .sleep _ => ()

/-- One process, which the first delete does not find and the next one removes. -/
def emptyingServer (seen : List blankClient.Exchange) : (op : Op) → Reply blankClient.reqwest op
  | .send request =>
      if request.method = .delete then
        .ok (if seen.any isDelete then ⟨204, [], none⟩ else goneResponse)
      else .ok (batchResponse (if (removedPaths seen).isEmpty then [blankProcess] else []))
  | .sleep _ => ()

def lingeringRound : List blankClient.Exchange :=
  [listedEvent [blankProcess], deletedEvent goneResponse]

def emptyingRound : List blankClient.Exchange :=
  [listedEvent [blankProcess], deletedEvent ⟨204, [], none⟩]

def emptyingSweep : List blankClient.Exchange :=
  lingeringRound ++ emptyingRound ++ [listedEvent []]

theorem steps_lingeringRound (batches deleted : Nat) :
    Steps (blankClient.deleteFrom blankMachineId (batches + 1) deleted) lingeringRound
      (blankClient.deleteFrom blankMachineId batches deleted) := by
  refine steps_round (readProcesses_batch roundTrips_blankClient [blankProcess]) ?_
  obtain ⟨err, herror, hgone⟩ := @deleteOutcome_notFound blankClient goneResponse rfl rfl
  rw [herror, afterDelete, if_pos hgone]

theorem steps_emptyingRound (batches deleted : Nat) :
    Steps (blankClient.deleteFrom blankMachineId (batches + 1) deleted) emptyingRound
      (blankClient.deleteFrom blankMachineId batches (deleted + 1)) := by
  refine steps_round (readProcesses_batch roundTrips_blankClient [blankProcess]) ?_
  rw [deleteOutcome_noContent rfl, afterDelete]

theorem answers_emptyingSweep :
    ∀ event ∈ emptyingSweep, Answers blankMachineId [blankProcess.id] event := by
  have hbatch := readProcesses_batch roundTrips_blankClient [blankProcess]
  have hnone := readProcesses_batch roundTrips_blankClient []
  have hlisted : Answers blankMachineId [blankProcess.id] (listedEvent [blankProcess]) :=
    ⟨fun _ => ⟨_, hbatch, List.forall_mem_singleton.mpr List.mem_cons_self⟩, nofun⟩
  rintro event (_ | ⟨_, _ | ⟨_, _ | ⟨_, _ | ⟨_, _ | ⟨_, ⟨⟩⟩⟩⟩⟩⟩)
  · exact hlisted
  · exact ⟨nofun, fun _ => Or.inr ⟨rfl, rfl⟩⟩
  · exact hlisted
  · exact ⟨nofun, fun _ => Or.inl rfl⟩
  · exact ⟨fun _ => ⟨_, hnone, nofun⟩, nofun⟩

theorem sweep_emptyingServer_first (batches : Nat) :
    sweep blankMachineId emptyingServer (batches + 1) =
      exec emptyingServer lingeringRound (blankClient.deleteFrom blankMachineId batches 0) :=
  exec_of_answered (steps_lingeringRound batches 0) [] ⟨rfl, rfl, trivial⟩

theorem sweep_emptyingServer_second (batches : Nat) :
    sweep blankMachineId emptyingServer (batches + 2) =
      exec emptyingServer (lingeringRound ++ emptyingRound)
        (blankClient.deleteFrom blankMachineId batches 1) := by
  rw [sweep_emptyingServer_first]
  exact exec_of_answered (steps_emptyingRound batches 0) lingeringRound ⟨rfl, rfl, trivial⟩

theorem sweep_emptyingServer_ended (batches : Nat) :
    sweep blankMachineId emptyingServer (batches + 3) = (emptyingSweep, some (.ok 1)) := by
  have hnone : blankClient.readProcesses (batchResponse []) = .ok [] :=
    readProcesses_batch roundTrips_blankClient []
  have hlisted := @steps_listing blankClient blankMachineId batches 1 (batchResponse []) [] hnone
  rw [afterListing_empty blankMachineId batches 1 hnone] at hlisted
  rw [sweep_emptyingServer_second]
  exact exec_of_answered hlisted (lingeringRound ++ emptyingRound) ⟨rfl, trivial⟩

theorem sweep_emptyingServer_within (batches : Nat) :
    (sweep blankMachineId emptyingServer batches).1 <+: emptyingSweep := by
  rcases batches with _ | _ | _ | batches
  · exact List.nil_prefix
  · rw [sweep_emptyingServer_first]
    exact ⟨emptyingRound ++ [listedEvent []], rfl⟩
  · rw [sweep_emptyingServer_second]
    exact List.prefix_append _ _
  · rw [sweep_emptyingServer_ended]

theorem onlyThese_emptyingServer :
    OnlyThese blankMachineId emptyingServer [blankProcess.id] where
  answers batches event hmem :=
    answers_emptyingSweep event ((sweep_emptyingServer_within batches).subset hmem)
  once batches := by
    have hnodup : (removedPaths emptyingSweep).Nodup :=
      List.nodup_singleton (processPath blankProcess)
    exact hnodup.sublist ((sweep_emptyingServer_within batches).sublist.filterMap _)

theorem exec_lingering (batches deleted : Nat) (seen : List blankClient.Exchange) :
    exec (fun _ => lingeringServer) seen
        (blankClient.deleteFrom blankMachineId batches deleted) =
      (seen ++ (List.replicate batches lingeringRound).flatten, none) := by
  induction batches generalizing seen with
  | zero =>
      rw [List.replicate_zero, List.flatten_nil, List.append_nil]
      rfl
  | succ batches ih =>
      rw [exec_of_answered (steps_lingeringRound batches deleted) seen ⟨rfl, rfl, trivial⟩, ih,
        List.append_assoc, List.replicate_succ, List.flatten_cons]

theorem sweep_lingeringServer (batches : Nat) :
    sweep blankMachineId (fun _ => lingeringServer) batches =
      ((List.replicate batches lingeringRound).flatten, none) :=
  exec_lingering batches 0 []

theorem mem_lingering {batches : Nat} {event : blankClient.Exchange}
    (h : event ∈ (List.replicate batches lingeringRound).flatten) : event ∈ lingeringRound := by
  obtain ⟨events, hevents, hmem⟩ := List.mem_flatten.mp h
  obtain rfl := List.eq_of_mem_replicate hevents
  exact hmem

theorem onlyThese_lingeringServer :
    OnlyThese blankMachineId (fun _ => lingeringServer) [blankProcess.id] where
  answers batches event hmem := by
    rw [sweep_lingeringServer] at hmem
    have hbatch := readProcesses_batch roundTrips_blankClient [blankProcess]
    rcases mem_lingering hmem with _ | ⟨_, _ | ⟨_, ⟨⟩⟩⟩
    · exact ⟨fun _ => ⟨_, hbatch, List.forall_mem_singleton.mpr List.mem_cons_self⟩, nofun⟩
    · exact ⟨nofun, fun _ => Or.inr ⟨rfl, rfl⟩⟩
  once batches := by
    rw [sweep_lingeringServer]
    have hnone : removedPaths (List.replicate batches lingeringRound).flatten = [] := by
      apply List.filterMap_eq_nil_iff.mpr
      intro event hmem
      rcases mem_lingering hmem with _ | ⟨_, _ | ⟨_, ⟨⟩⟩⟩ <;> rfl
    rw [hnone]
    exact List.nodup_nil

end Recorded

section Termination

/-- Where there are only so many processes to remove, a sweep returns exactly when
it meets only so many listings of which nothing is removed, and then it asks for no
more listings than there are of these and of processes, and one. -/
theorem sweep_returns_iff (cl : Client) (machineId : cl.json.Uuid)
    (server : List cl.Exchange → (op : Op) → Reply cl.reqwest op) (ids : List cl.json.Uuid)
    (h : OnlyThese machineId server ids) :
    ((∃ batches deleted, (sweep machineId server batches).2 = some (.ok deleted)) ↔
        ∃ bound, ∀ batches, fruitless (sweep machineId server batches).1 ≤ bound) ∧
      ∀ bound, (∀ batches, fruitless (sweep machineId server batches).1 ≤ bound) →
        ∀ batches,
          (sweep machineId server batches).1.countP isListing ≤ ids.length + bound + 1 ∧
            (ids.length + bound < batches →
              ∃ deleted, (sweep machineId server batches).2 = some (.ok deleted)) := by
  have hreturns : ∀ bound, (∀ batches, fruitless (sweep machineId server batches).1 ≤ bound) →
      ∀ batches, ids.length + bound < batches →
        ∃ deleted, (sweep machineId server batches).2 = some (.ok deleted) := by
    intro bound hbound batches hbatches
    exact h.returns (lt_of_le_of_lt (Nat.add_le_add_left (hbound batches) _) hbatches)
  refine ⟨⟨?_, ?_⟩, fun bound hbound batches => ⟨?_, hreturns bound hbound batches⟩⟩
  · rintro ⟨batches, deleted, hover⟩
    exact ⟨batches, h.fruitless_bounded hover⟩
  · rintro ⟨bound, hbound⟩
    exact ⟨_, hreturns bound hbound _ (Nat.lt_succ_self _)⟩
  · have hlistings := h.listings_le batches
    have hfruitless := hbound batches
    omega

/-- One process, which is listed, not found, listed again, removed, and not listed any
more. -/
theorem sweep_returns_iff_recorded :
    ((∃ batches deleted,
          (sweep blankMachineId emptyingServer batches).2 = some (.ok deleted)) ↔
        ∃ bound, ∀ batches, fruitless (sweep blankMachineId emptyingServer batches).1 ≤ bound) ∧
      ∀ bound, (∀ batches, fruitless (sweep blankMachineId emptyingServer batches).1 ≤ bound) →
        ∀ batches,
          (sweep blankMachineId emptyingServer batches).1.countP isListing ≤ 1 + bound + 1 ∧
            (1 + bound < batches →
              ∃ deleted, (sweep blankMachineId emptyingServer batches).2 = some (.ok deleted)) :=
  sweep_returns_iff blankClient blankMachineId emptyingServer [blankProcess.id]
    onlyThese_emptyingServer

/-- A sweep returns wherever there are only so many processes to remove. -/
def Terminates (cl : Client) : Prop :=
  ∀ (machineId : cl.json.Uuid) (server : List cl.Exchange → (op : Op) → Reply cl.reqwest op)
    (ids : List cl.json.Uuid), OnlyThese machineId server ids →
      ∃ batches outcome, (sweep machineId server batches).2 = some outcome

theorem not_terminates : ¬ Terminates blankClient := by
  intro h
  obtain ⟨batches, outcome, hover⟩ :=
    h blankMachineId (fun _ => lingeringServer) [blankProcess.id] onlyThese_lingeringServer
  rw [sweep_lingeringServer] at hover
  cases hover

end Termination

end Tamga.SweepTermination
