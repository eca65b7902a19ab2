import Tamga.ResourceCalls

namespace Tamga.MachineUpdates

open Library.Interaction
open Library.Interaction.Prog
open Library.Interleaving
open Library.Linearization
open Library.Serde
open Tamga.Client
open Tamga.Dependencies
open Tamga.Models
open Tamga.PayloadJson
open Tamga.ResourceCalls
open Tamga.ServerResponses
open Tamga.Transport

section Columns

variable {J : SerdeJson}

structure Columns (J : SerdeJson) where
  name : Option String
  ip : Option String
  hostname : Option String
  platform : Option String
  cores : Option Int32
  memory : Option Int64
  disk : Option Int64
  metadata : J.Value

def columnsOf (attributes : MachineAttributes J) : Columns J where
  name := attributes.name
  ip := attributes.ip
  hostname := attributes.hostname
  platform := attributes.platform
  cores := attributes.cores
  memory := attributes.memory
  disk := attributes.disk
  metadata := attributes.metadata

/-- Metadata that is null goes out as if there were none. -/
def sentMetadata (J : SerdeJson) : Option J.Value → Option J.Value
  | none => none
  | some value =>
      match J.printValue value with
      | .null => none
      | _ => some value

/-- Every column is `COALESCE($n, column)`. -/
def coalesce (opts : UpdateMachineOptions J) (columns : Columns J) : Columns J where
  name := opts.name.or columns.name
  ip := opts.ip.or columns.ip
  hostname := opts.hostname.or columns.hostname
  platform := opts.platform.or columns.platform
  cores := opts.cores.or columns.cores
  memory := opts.memory.or columns.memory
  disk := opts.disk.or columns.disk
  metadata := (sentMetadata J opts.metadata).getD columns.metadata

def latest {α : Type} (field : UpdateMachineOptions J → Option α)
    (updates : List (UpdateMachineOptions J)) : Option α :=
  updates.reverse.findSome? field

theorem latest_append {α : Type} (field : UpdateMachineOptions J → Option α)
    (updates : List (UpdateMachineOptions J)) (opts : UpdateMachineOptions J) :
    latest field (updates ++ [opts]) = (field opts).or (latest field updates) := by
  cases hfield : field opts <;> simp [latest, hfield]

/-- What these updates leave of a row, one column apart from the other. -/
def Columns.after (start : Columns J) (updates : List (UpdateMachineOptions J)) :
    Columns J where
  name := (latest (·.name) updates).or start.name
  ip := (latest (·.ip) updates).or start.ip
  hostname := (latest (·.hostname) updates).or start.hostname
  platform := (latest (·.platform) updates).or start.platform
  cores := (latest (·.cores) updates).or start.cores
  memory := (latest (·.memory) updates).or start.memory
  disk := (latest (·.disk) updates).or start.disk
  metadata := (latest (fun opts => sentMetadata J opts.metadata) updates).getD start.metadata

theorem after_nil (start : Columns J) : start.after [] = start := by
  simp [Columns.after, latest]

theorem after_append (start : Columns J) (updates : List (UpdateMachineOptions J))
    (opts : UpdateMachineOptions J) :
    start.after (updates ++ [opts]) = coalesce opts (start.after updates) := by
  simp only [Columns.after, coalesce, latest_append, Option.or_assoc, Columns.mk.injEq, true_and]
  cases sentMetadata J opts.metadata <;> simp

/-- A history of updates leaves what its order says, after each of them. -/
theorem columns_of_history {ι : Type} {opts : ι → UpdateMachineOptions J}
    {start columns : Columns J} {history : List (ι × Columns J)}
    (h : History (fun i columns after => coalesce (opts i) columns = after) start history
      columns) :
    columns = start.after ((history.map Prod.fst).map opts) ∧
      ∀ entry ∈ history, ∃ earlier, earlier ++ [entry.1] <+: history.map Prod.fst ∧
        entry.2 = start.after ((earlier ++ [entry.1]).map opts) := by
  induction h with
  | nil => simp [after_nil]
  | @snoc history columns after i _ heffect ih =>
      obtain ⟨hcolumns, hentries⟩ := ih
      have hafter : after = start.after (((history ++ [(i, after)]).map Prod.fst).map opts) := by
        simp only [List.map_append, List.map_cons, List.map_nil, after_append, ← hcolumns]
        exact heffect.symm
      refine ⟨hafter, fun entry hmem => ?_⟩
      rcases List.mem_append.mp hmem with hold | hnew
      · obtain ⟨earlier, hprefix, hleft⟩ := hentries entry hold
        refine ⟨earlier, ?_, hleft⟩
        rw [List.map_append]
        exact hprefix.trans (List.prefix_append _ _)
      · obtain rfl := List.mem_singleton.mp hnew
        refine ⟨history.map Prod.fst, ?_, ?_⟩
        · simp
        · simpa using hafter

end Columns

section Server

variable {cl : Client}

def updateAttributes (J : SerdeJson) : Deserialize (UpdateMachineOptions J) :=
  struct <| (Fields.done (@UpdateMachineOptions.mk J))
    |>.field "name" (option string)
    |>.field "ip" (option string)
    |>.field "hostname" (option string)
    |>.field "platform" (option string)
    |>.field "cores" (option i32)
    |>.field "memory" (option i64)
    |>.field "disk" (option i64)
    |>.field "metadata" (option (value J))

/-- How the server reads the body of an update. -/
def updateBody (J : SerdeJson) : Deserialize (UpdateMachineOptions J) :=
  envelope (struct <| (Fields.done id) |>.field "attributes" (updateAttributes J))

def updateRequest (machineId : cl.json.Uuid) (opts : UpdateMachineOptions cl.json) : Request where
  method := .patch
  path := "/machines/" ++ cl.json.printUuid machineId
  query := []
  otp := none
  body := some (objectJson [("data", objectJson [
    ("type", textJson "machines"),
    ("attributes", objectJson [
      ("name", optionJson textJson opts.name),
      ("ip", optionJson textJson opts.ip),
      ("hostname", optionJson textJson opts.hostname),
      ("platform", optionJson textJson opts.platform),
      ("cores", optionJson i32Json opts.cores),
      ("memory", optionJson i64Json opts.memory),
      ("disk", optionJson i64Json opts.disk),
      ("metadata", optionJson cl.json.printValue opts.metadata)])])])

def effect (machineId : cl.json.Uuid) (request : Request) (columns after : Columns cl.json) :
    Prop :=
  request.method = .patch ∧ request.path = "/machines/" ++ cl.json.printUuid machineId ∧
    ∃ opts, request.body.bind (updateBody cl.json).deserialize = some opts ∧
      coalesce opts columns = after

def readMachine (cl : Client) (response : Response) : Except cl.Error (MachineResource cl.json) :=
  cl.read "MachineResource" (envelope (machineResource cl.json)) response

def row (machineId : cl.json.Uuid) : Object (Columns cl.json) Op (Reply cl.reqwest) :=
  resource (effect machineId) (readMachine cl) fun machine columns =>
    columnsOf machine.attributes = columns

theorem insists_updateMachine (machineId : cl.json.Uuid) (opts : UpdateMachineOptions cl.json) :
    Insists (row machineId) (.send (updateRequest machineId opts)) (outcome (readMachine cl))
      (cl.updateMachine machineId opts) :=
  insists_sendJsonApi

attribute [local simp] struct objectJson Fields.field Fields.next Fields.done readField
  occurrences

theorem deserialize_sentMetadata {J : SerdeJson} (hround : RoundTrips J)
    (metadata : Option J.Value) :
    (option (value J)).deserialize (optionJson J.printValue metadata) =
      some (sentMetadata J metadata) := by
  cases metadata with
  | none => rfl
  | some v =>
      have hread := deserialize_value hround v
      rw [optionJson, sentMetadata, option]
      split <;> simp_all

/-- The server reads the update that the client was given, but for metadata of null. -/
theorem deserialize_updateRequest (hround : RoundTrips cl.json) (machineId : cl.json.Uuid)
    (opts : UpdateMachineOptions cl.json) :
    (updateRequest machineId opts).body.bind (updateBody cl.json).deserialize =
      some { opts with metadata := sentMetadata cl.json opts.metadata } := by
  simp [updateRequest, updateBody, envelope, updateAttributes, deserialize_sentMetadata hround]

theorem sentMetadata_sentMetadata (J : SerdeJson) (metadata : Option J.Value) :
    sentMetadata J (sentMetadata J metadata) = sentMetadata J metadata := by
  cases metadata with
  | none => rfl
  | some v =>
      cases hprint : J.printValue v <;> simp [sentMetadata, hprint]

theorem coalesce_sent (opts : UpdateMachineOptions cl.json) (columns : Columns cl.json) :
    coalesce { opts with metadata := sentMetadata cl.json opts.metadata } columns =
      coalesce opts columns := by
  simp only [coalesce, sentMetadata_sentMetadata]

theorem effect_updateRequest (hround : RoundTrips cl.json) (machineId : cl.json.Uuid)
    (opts : UpdateMachineOptions cl.json) :
    effect machineId (updateRequest machineId opts) =
      fun columns after => coalesce opts columns = after := by
  funext columns after
  rw [effect, deserialize_updateRequest hround]
  simp [updateRequest, coalesce_sent]

end Server

section Recorded

def blankUpdate (first : Bool) : UpdateMachineOptions blankClient.json where
  name := if first then some "Build" else none
  ip := none
  hostname := if first then none else some "build-7"
  platform := none
  cores := none
  memory := none
  disk := none
  metadata := none

def updatedMachine (first : Bool) : MachineResource blankClient.json :=
  { blankMachine "machine" "fp" with
    attributes := { (blankMachine "machine" "fp").attributes with
      name := some "Build"
      hostname := if first then none else some "build-7" } }

def blankColumns : Columns blankClient.json := columnsOf (blankMachine "machine" "fp").attributes

def updatedResponse (first : Bool) : Response :=
  ⟨200, [], some (machineDocument (updatedMachine first))⟩

theorem read_updated (first : Bool) :
    readMachine blankClient (updatedResponse first) = .ok (updatedMachine first) := by
  cases first <;> rfl

def blankRow : Object (Columns blankClient.json) Op (Reply blankClient.reqwest) := row "machine"

theorem run_blank :
    ∃ log, Run (closed blankRow.Serves) blankColumns
      (fun first => blankClient.updateMachine "machine" (blankUpdate first)) log
      (columnsOf (updatedMachine false).attributes)
      fun first => .ret (.ok (updatedMachine first)) := by
  have hstart : Run (closed blankRow.Serves) blankColumns
      (fun first => blankClient.updateMachine "machine" (blankUpdate first)) [] blankColumns _ :=
    .start
  have hsteps (first : Bool) : Steps (blankClient.updateMachine "machine" (blankUpdate first))
      [⟨.send (updateRequest "machine" (blankUpdate first)), .ok (updatedResponse first)⟩]
      (.ret (.ok (updatedMachine first))) := by
    rw [← read_updated]
    apply steps_sendJsonApi
    change 200 ≠ 429
    decide
  have hserves (first : Bool) {columns after : Columns blankClient.json}
      (hafter : coalesce (blankUpdate first) columns = after)
      (hshown : columnsOf (updatedMachine first).attributes = after) :
      (closed blankRow.Serves).serves columns
        ⟨.send (updateRequest "machine" (blankUpdate first)), .ok (updatedResponse first)⟩
        after := by
    have heffect := effect_updateRequest roundTrips_blankClient "machine" (blankUpdate first)
    refine .carriedOut ?_ ⟨rfl, _, read_updated first, hshown⟩
    exact (congrFun (congrFun heffect columns) after).mpr hafter
  have hnamed := hstart.serve_steps true (hsteps true) rfl
    (.cons (hserves true rfl rfl) (.nil (columnsOf (updatedMachine true).attributes)))
  have hboth := hnamed.serve_steps false (hsteps false)
    (Function.update_of_ne (by decide) _ _)
    (.cons (hserves false rfl rfl) (.nil (columnsOf (updatedMachine false).attributes)))
  have hnow : Function.update (Function.update
      (fun first => blankClient.updateMachine "machine" (blankUpdate first)) true
        (.ret (.ok (updatedMachine true)))) false (.ret (.ok (updatedMachine false))) =
      fun first => .ret (.ok (updatedMachine first)) := by
    funext first
    cases first
    · exact Function.update_self ..
    · rw [Function.update_of_ne (by decide), Function.update_self]
  exact ⟨_, hnow ▸ hboth⟩

end Recorded

section Updates

variable {cl : Client} {ι : Type} [DecidableEq ι] {machineId : cl.json.Uuid}
  {opts : ι → UpdateMachineOptions cl.json} {start columns : Columns cl.json}
  {log : List (ι × Event Op (Reply cl.reqwest))} {now : ι → cl.Call (MachineResource cl.json)}

/-- There is one order of the updates that took effect, and every column of the machine
has what the last of them that sets it wrote.  An update that succeeds reports the row as
of its place in the order; one that fails, other than in transport, has none. -/
theorem updates_linearize (hround : RoundTrips cl.json)
    (h : Run (closed (row machineId).Serves) start (fun i => cl.updateMachine machineId (opts i))
      log columns now) :
    ∃ order : List ι, order.Nodup ∧ order.Sublist (log.map Prod.fst) ∧
      columns = start.after (order.map opts) ∧
      (∀ i machine, now i = .ret (.ok machine) → ∃ earlier, earlier ++ [i] <+: order ∧
        columnsOf machine.attributes = start.after ((earlier ++ [i]).map opts)) ∧
      ∀ i err, now i = .ret (.error err) → (∀ e, err ≠ .http e) → i ∉ order := by
  obtain ⟨history, hhistory, hnodup, hsublist, hok, herror⟩ :=
    calls_linearize (fun i => insists_updateMachine machineId (opts i)) h
  simp only [effect_updateRequest hround] at hhistory
  obtain ⟨hcolumns, hentries⟩ := columns_of_history hhistory
  refine ⟨history.map Prod.fst, hnodup, hsublist, hcolumns, ?_, herror⟩
  intro i machine hnow
  obtain ⟨left, hmem, hshown⟩ := hok i machine hnow
  obtain ⟨earlier, hprefix, hleft⟩ := hentries (i, left) hmem
  exact ⟨earlier, hprefix, hshown.trans hleft⟩

theorem updates_linearize_blank :
    ∃ order : List Bool, order.Nodup ∧ true ∈ order ∧ false ∈ order ∧
      columnsOf (updatedMachine false).attributes =
        blankColumns.after (order.map blankUpdate) := by
  obtain ⟨log, hrun⟩ := run_blank
  obtain ⟨order, hnodup, -, hcolumns, hok, -⟩ :=
    updates_linearize roundTrips_blankClient hrun
  have hplace (first : Bool) : first ∈ order := by
    obtain ⟨earlier, hprefix, -⟩ := hok first (updatedMachine first) rfl
    exact hprefix.subset (List.mem_append_right _ List.mem_cons_self)
  exact ⟨order, hnodup, hplace true, hplace false, hcolumns⟩

end Updates

end Tamga.MachineUpdates
