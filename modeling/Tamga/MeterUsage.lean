import Tamga.ResourceCalls

namespace Tamga.MeterUsage

open Library.Interaction
open Library.Interaction.Prog
open Library.Interleaving
open Library.Linearization
open Library.Serde
open Tamga.ApiModels
open Tamga.Client
open Tamga.Models
open Tamga.ResourceCalls
open Tamga.ServerResponses
open Tamga.Transport

variable {cl : Client}

/-- A meter of a licence and its cap, if it has one. -/
structure Meter (cl : Client) where
  licenseId : cl.json.Uuid
  entitlementId : cl.json.Uuid
  cap : Option Int32

inductive Use where
  | increment (amount : Option Int64)
  | decrement (amount : Option Int64)
  | reset

namespace Use

def call (meter : Meter cl) : Use → cl.Call (LicenseEntitlement cl.json)
  | increment amount =>
      cl.incrementEntitlementUsage meter.licenseId meter.entitlementId amount
  | decrement amount =>
      cl.decrementEntitlementUsage meter.licenseId meter.entitlementId amount
  | reset => cl.resetEntitlementUsage meter.licenseId meter.entitlementId

def request (meter : Meter cl) (use : Use) : Request where
  method := .post
  path := cl.entitlementPath meter.licenseId meter.entitlementId <|
    match use with
    | increment _ => "increment"
    | decrement _ => "decrement"
    | reset => "reset"
  query := []
  otp := none
  body :=
    match use with
    | increment amount => amount.map fun amount => objectJson [("increment", i64Json amount)]
    | decrement amount => amount.map fun amount => objectJson [("decrement", i64Json amount)]
    | reset => none

def units (amount : Option Int64) : ℕ := max 1 (amount.getD 1).toInt.toNat

def withinCap (value : ℕ) : Option Int32 → Bool
  | none => true
  | some limit => value ≤ limit.toInt

theorem withinCap_iff {value : ℕ} {cap : Option Int32} :
    withinCap value cap = true ↔ ∀ limit ∈ cap, (value : ℤ) ≤ limit.toInt := by
  cases cap <;> simp [withinCap]

def effect (cap : Option Int32) : Use → ℕ → Option ℕ
  | increment amount, value =>
      if withinCap (value + units amount) cap then some (value + units amount) else none
  | decrement amount, value => some (value - units amount)
  | reset, _ => some 0

end Use

section Server

def readUnits (name : String) : Option Json → Option ℕ
  | none => some (Use.units none)
  | some body =>
      ((struct <| (Fields.done id) |>.field name i64).deserialize body).map fun amount =>
        Use.units (some amount)

def Meter.effect (meter : Meter cl) (request : Request) (value : ℕ) : Option ℕ :=
  if request.path = cl.entitlementPath meter.licenseId meter.entitlementId "increment" then
    (readUnits "increment" request.body).bind fun units =>
      if Use.withinCap (value + units) meter.cap then some (value + units) else none
  else if request.path = cl.entitlementPath meter.licenseId meter.entitlementId "decrement" then
    (readUnits "decrement" request.body).map fun units => value - units
  else if request.path = cl.entitlementPath meter.licenseId meter.entitlementId "reset" then
    some 0
  else none

def readMeter (cl : Client) (response : Response) :
    Except cl.Error (LicenseEntitlement cl.json) :=
  cl.read "LicenseEntitlement" (envelope (licenseEntitlement cl.json)) response

def Meter.object (meter : Meter cl) : Object ℕ Op (Reply cl.reqwest) :=
  resource (fun request value after => meter.effect request value = some after) (readMeter cl)
    fun entitlement value => entitlement.attributes.currentValue.toInt = value

theorem entitlementPath_inj {meter : Meter cl} {action action' : String} :
    cl.entitlementPath meter.licenseId meter.entitlementId action =
        cl.entitlementPath meter.licenseId meter.entitlementId action' ↔ action = action' := by
  rw [entitlementPath, entitlementPath, String.append_right_inj]

theorem readUnits_body (name : String) (amount : Option Int64) :
    readUnits name (amount.map fun amount => objectJson [(name, i64Json amount)]) =
      some (Use.units amount) := by
  cases amount with
  | none => rfl
  | some amount =>
      simp [readUnits, struct, objectJson, Fields.field, Fields.next, Fields.done, readField,
        occurrences]

theorem effect_request (meter : Meter cl) (use : Use) :
    meter.effect (use.request meter) = use.effect meter.cap := by
  funext value
  cases use with
  | increment amount => simp [Meter.effect, Use.request, Use.effect, readUnits_body]
  | decrement amount =>
      simp [Meter.effect, Use.request, Use.effect, readUnits_body, entitlementPath_inj]
  | reset => simp [Meter.effect, Use.request, Use.effect, entitlementPath_inj]

end Server

section Runs

variable {ι : Type} {meter : Meter cl} {use : ι → Use}

theorem insists_call (meter : Meter cl) (use : Use) :
    Insists meter.object (.send (use.request meter)) (outcome (readMeter cl))
      (use.call meter) := by
  cases use with
  | increment amount => exact insists_sendJsonApi
  | decrement amount => exact insists_sendJsonApi
  | reset => exact insists_sendJsonApi

theorem effect_within {cap : Option Int32} {limit : Int32} (hlimit : limit ∈ cap) (use : Use)
    {before after : ℕ} (hbefore : (before : ℤ) ≤ limit.toInt)
    (heffect : use.effect cap before = some after) : (after : ℤ) ≤ limit.toInt := by
  cases use with
  | increment amount =>
      rw [Use.effect] at heffect
      split at heffect
      · rename_i hwithin
        rw [← Option.some.inj heffect]
        exact Use.withinCap_iff.mp hwithin limit hlimit
      · cases heffect
  | decrement amount =>
      rw [← Option.some.inj heffect]
      omega
  | reset =>
      rw [← Option.some.inj heffect]
      omega

theorem history_increments {amount : ι → Option Int64} {cap : Option Int32}
    {start value : ℕ}
    (h : History (fun i value after => (Use.increment (amount i)).effect cap value = some after)
      start history value) :
    value = start + (history.map fun entry => Use.units (amount entry.1)).sum := by
  induction h with
  | nil => simp
  | snoc _ heffect ih =>
      rw [Use.effect] at heffect
      split at heffect
      · rw [← Option.some.inj heffect, ih]
        simp [Nat.add_assoc]
      · cases heffect

end Runs

section Recorded

def blankMeter : Meter blankClient := ⟨"license", "seats", some 1⟩

/-- The meter, used once. -/
def blankEntitlement : LicenseEntitlement blankClient.json where
  id := "seats"
  resourceType := "entitlements"
  attributes := {
    name := "Seats"
    code := "SEATS"
    kind := .meter
    metadata := objectJson []
    created := "2026-01-01T00:00:00Z"
    updated := "2026-01-01T00:00:00Z"
    inherited := false
    maxValue := some 1
    currentValue := 1 }

def blankMeterDocument : Json :=
  objectJson [("data", objectJson [
    ("id", textJson "seats"),
    ("type", textJson "entitlements"),
    ("attributes", objectJson [
      ("name", textJson "Seats"),
      ("code", textJson "SEATS"),
      ("kind", textJson "meter"),
      ("metadata", objectJson []),
      ("created", textJson "2026-01-01T00:00:00Z"),
      ("updated", textJson "2026-01-01T00:00:00Z"),
      ("max_value", i32Json 1),
      ("current_value", i32Json 1)])])]

theorem readMeter_blank :
    readMeter blankClient ⟨200, [], some blankMeterDocument⟩ = .ok blankEntitlement := rfl

/-- Of two calls the first takes the one unit that there is. -/
def blankResponse (first : Bool) : Response :=
  if first then ⟨200, [], some blankMeterDocument⟩
  else ⟨422, [], some (errorDocument "METER_LIMIT_EXCEEDED")⟩

def blankResult (first : Bool) : Except blankClient.Error (LicenseEntitlement blankClient.json) :=
  readMeter blankClient (blankResponse first)

theorem run_blank :
    ∃ log, Run (closed blankMeter.object.Serves) 0
      (fun _ : Bool => (Use.increment none).call blankMeter) log 1
      fun first => .ret (blankResult first) := by
  have hstart : Run (closed blankMeter.object.Serves) 0
      (fun _ : Bool => (Use.increment none).call blankMeter) [] 0 _ := .start
  have hsteps (first : Bool) : Steps ((Use.increment none).call blankMeter)
      [⟨.send (Use.request blankMeter (.increment none)), .ok (blankResponse first)⟩]
      (.ret (blankResult first)) :=
    steps_sendJsonApi (by cases first <;> decide)
  have htaken := hstart.serve_steps true (hsteps true) rfl
    (.cons (.carriedOut rfl ⟨rfl, blankEntitlement, readMeter_blank, rfl⟩) (.nil 1))
  have hrefused := htaken.serve_steps false (hsteps false)
    (Function.update_of_ne (by decide) _ _) (.cons (.refused rfl) (.nil 1))
  have hnow : Function.update (Function.update
      (fun _ : Bool => (Use.increment none).call blankMeter) true
        (.ret (blankResult true))) false (.ret (blankResult false)) =
      fun first => .ret (blankResult first) := by
    funext first
    cases first
    · exact Function.update_self ..
    · rw [Function.update_of_ne (by decide), Function.update_self]
  exact ⟨_, hnow ▸ hrefused⟩

end Recorded

section Usage

variable {ι : Type} [DecidableEq ι] {meter : Meter cl} {use : ι → Use} {start value : ℕ}
  {log : List (ι × Event Op (Reply cl.reqwest))} {now : ι → cl.Call (LicenseEntitlement cl.json)}

/-- However many calls use a meter and however they are interleaved, throttled, refused
or cut off, the meter and what the calls return are those of a sequential history. -/
theorem usage_linearizes (h : Run (closed meter.object.Serves) start
    (fun i => (use i).call meter) log value now) :
    ∃ history : List (ι × ℕ),
      History (fun i value after => (use i).effect meter.cap value = some after) start history
        value ∧
      (history.map Prod.fst).Nodup ∧ (history.map Prod.fst).Sublist (log.map Prod.fst) ∧
      (∀ i entitlement, now i = .ret (.ok entitlement) → ∃ left, (i, left) ∈ history ∧
        entitlement.attributes.currentValue.toInt = left) ∧
      (∀ i err, now i = .ret (.error err) → (∀ e, err ≠ .http e) → i ∉ history.map Prod.fst) ∧
      ∀ limit ∈ meter.cap, (start : ℤ) ≤ limit.toInt →
        (value : ℤ) ≤ limit.toInt ∧ ∀ entry ∈ history, (entry.2 : ℤ) ≤ limit.toInt := by
  obtain ⟨history, hhistory, hnodup, hsublist, hok, herror⟩ :=
    calls_linearize (fun i => insists_call meter (use i)) h
  simp only [effect_request] at hhistory
  refine ⟨history, hhistory, hnodup, hsublist, hok, herror, ?_⟩
  intro limit hlimit hstart
  exact hhistory.invariant (fun value => (value : ℤ) ≤ limit.toInt) hstart
    fun i before after hbefore heffect => effect_within hlimit (use i) hbefore heffect

theorem usage_linearizes_blank :
    ∃ history : List (Bool × ℕ), (history.map Prod.fst).Nodup ∧ (true, 1) ∈ history ∧
      false ∉ history.map Prod.fst := by
  obtain ⟨log, hrun⟩ := run_blank
  obtain ⟨history, -, hnodup, -, hok, herror, -⟩ := usage_linearizes hrun
  obtain ⟨left, hmem, hleft⟩ := hok true blankEntitlement rfl
  have hone : left = 1 := Int.ofNat_inj.mp hleft.symm
  exact ⟨history, hnodup, hone ▸ hmem, herror false _ rfl (by rintro e ⟨⟩)⟩

/-- Of concurrent increments that were all answered, the meter has counted those that
succeeded, once each, and no other. -/
theorem increments_counted [Fintype ι] {amount : ι → Option Int64}
    {result : ι → Except cl.Error (LicenseEntitlement cl.json)}
    (h : Run (closed meter.object.Serves) start (fun i => (Use.increment (amount i)).call meter)
      log value fun i => .ret (result i))
    (hanswered : ∀ i e, result i ≠ .error (.http e)) :
    value = start + ∑ i, if (result i).isOk then Use.units (amount i) else 0 := by
  obtain ⟨history, hhistory, hnodup, -, hok, herror⟩ :=
    calls_linearize (fun i => insists_call meter (.increment (amount i))) h
  simp only [effect_request] at hhistory
  have hplace (i : ι) : (result i).isOk = true ↔ i ∈ (history.map Prod.fst).toFinset := by
    rw [List.mem_toFinset]
    cases hresult : result i with
    | ok entitlement =>
        obtain ⟨left, hmem, -⟩ := hok i entitlement (congrArg Prog.ret hresult)
        exact iff_of_true rfl (List.mem_map_of_mem hmem)
    | error err =>
        refine iff_of_false (by simp [Except.isOk, Except.toBool]) ?_
        apply herror i err (congrArg Prog.ret hresult)
        rintro e rfl
        exact hanswered i e hresult
  calc
    value = start + (history.map fun entry => Use.units (amount entry.1)).sum :=
      history_increments hhistory
    _ = start + ∑ i ∈ (history.map Prod.fst).toFinset, Use.units (amount i) := by
      rw [List.sum_toFinset _ hnodup, List.map_map]
      rfl
    _ = start + ∑ i, if (result i).isOk then Use.units (amount i) else 0 := by
      simp only [hplace, Finset.sum_ite_mem, Finset.univ_inter]

theorem increments_counted_blank :
    1 = 0 + ∑ first : Bool,
      if (blankResult first).isOk then Use.units none else 0 := by
  obtain ⟨log, hrun⟩ := run_blank
  apply increments_counted hrun
  rintro (_ | _) e <;> rintro ⟨⟩

end Usage

end Tamga.MeterUsage
