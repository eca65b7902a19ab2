import Tamga.ClientReads
import Tamga.Library.Interleaving

namespace Tamga.Entitlements

open Library.Interaction.Prog
open Library.Interleaving
open Library.Prelude
open Library.Serde
open Tamga.Client
open Tamga.ClientReads
open Tamga.Models
open Tamga.ServerResponses
open Tamga.Transport

variable {cl : Client} {σ : Type}

def ceiling (limit : UInt32) : Nat := min limit.toNat maxEntitlementsPageSize.toNat

/-- The rows that are shown of those held.  Which are for a limit of 0 is left open. -/
structure FirstRows {α : Type} (limit : UInt32) (held rows : List α) : Prop where
  prefix_held : rows <+: held
  eq_take : limit ≠ 0 → rows = held.take (ceiling limit)

def readRows (cl : Client) (response : Response) :
    Except cl.Error (List (EntitlementResource cl.json)) :=
  cl.read "Envelope" (envelope (vec (entitlementResource cl.json))) response

def rowsRequest (cl : Client) (licenseId : cl.json.Uuid) (limit : UInt32) : Request :=
  cl.listingRequest (cl.entitlementsPath licenseId) (some limit) none

def Lists (held : σ → cl.json.Uuid → List (EntitlementResource cl.json)) (state : σ) :
    cl.Exchange → Prop
  | ⟨.send request, .ok response⟩ => ∀ licenseId limit rows,
      request = rowsRequest cl licenseId limit → readRows cl response = .ok rows →
        FirstRows limit (held state licenseId) rows
  | _ => True

/-- An account whose licences hold entitlements, by attachment or by their policy, which
may change at any time. -/
def listings (held : σ → cl.json.Uuid → List (EntitlementResource cl.json))
    (changes : σ → σ → Prop) : World σ Op (Reply cl.reqwest) where
  serves state exchange after := after = state ∧ Lists held state exchange
  drifts := changes

def Grants (rows : List (EntitlementResource cl.json)) (code : String) : Prop :=
  ∃ row ∈ rows, row.attributes.code = code

theorem hasEntitlement_eq (licenseId : cl.json.Uuid) (code : String) (limit : Option UInt32) :
    cl.hasEntitlement licenseId code limit =
      (cl.sendWithRetry
        (rowsRequest cl licenseId (limit.getD maxEntitlementsPageSize))).andThen fun response =>
          .ret ((readRows cl response).map fun rows =>
            rows.any fun row => row.attributes.code == code) :=
  andThen_ret_map _ _ _

theorem any_code_iff {rows : List (EntitlementResource cl.json)} {code : String} :
    (rows.any fun row => row.attributes.code == code) = true ↔ Grants rows code := by
  simp [Grants]

section Blank

def blankEntitlement : EntitlementResource blankClient.json where
  id := "entitlement"
  resourceType := "entitlements"
  attributes := {
    name := "Pro features"
    code := "pro"
    kind := .flag
    metadata := objectJson []
    created := "2026-01-01T00:00:00Z"
    updated := "2026-01-01T00:00:00Z" }

def blankDocument : Json :=
  objectJson [("data", .array [objectJson [
    ("id", textJson "entitlement"),
    ("type", textJson "entitlements"),
    ("attributes", objectJson [
      ("name", textJson "Pro features"),
      ("code", textJson "pro"),
      ("kind", textJson "flag"),
      ("metadata", objectJson []),
      ("created", textJson "2026-01-01T00:00:00Z"),
      ("updated", textJson "2026-01-01T00:00:00Z")])]])]

theorem readRows_blank : readRows blankClient ⟨200, [], some blankDocument⟩ =
    .ok [blankEntitlement] := rfl

/-- One licence, which may lose all that it holds. -/
def blankListings : World (List (EntitlementResource blankClient.json)) Op
    (Reply blankClient.reqwest) :=
  listings (fun rows _ => rows) fun _ after => after = []

theorem run_blank :
    ∃ log now, Run blankListings [blankEntitlement]
      (fun _ : Unit => blankClient.hasEntitlement blankLicenseId "pro" none) log [] now ∧
        now () = .ret (.ok true) := by
  have hsteps : Steps (blankClient.hasEntitlement blankLicenseId "pro" none)
      [⟨.send (rowsRequest blankClient blankLicenseId maxEntitlementsPageSize),
        .ok ⟨200, [], some blankDocument⟩⟩] (.ret (.ok true)) := by
    rw [hasEntitlement_eq]
    exact (steps_sendWithRetry (by decide)).bind (.refl _)
  have hlisted : blankListings.serves [blankEntitlement]
      ⟨.send (rowsRequest blankClient blankLicenseId maxEntitlementsPageSize),
        .ok ⟨200, [], some blankDocument⟩⟩ [blankEntitlement] := by
    refine ⟨rfl, fun licenseId limit rows _ hrows => ?_⟩
    obtain rfl := Except.ok.inj (readRows_blank.symm.trans hrows)
    refine ⟨List.prefix_rfl, fun hlimit => (List.take_of_length_le ?_).symm⟩
    have hpos : 0 < limit.toNat := Nat.pos_of_ne_zero fun hzero =>
      hlimit (UInt32.toNat_inj.mp hzero)
    exact le_min hpos (by decide)
  obtain ⟨log, hanswered⟩ := Run.alone hsteps (.cons hlisted (.nil _))
  exact ⟨log, _, hanswered.drift rfl, rfl⟩

end Blank

section Moments

variable {held : σ → cl.json.Uuid → List (EntitlementResource cl.json)}
  {changes : σ → σ → Prop} {ι : Type} [DecidableEq ι] {start after : σ}
  {progs now : ι → cl.Call Bool} {log : List (ι × cl.Exchange)} {i : ι}
  {licenseId : cl.json.Uuid} {code : String} {limit : Option UInt32} {answer : Bool}

/-- The answer is of one moment of the call.  That a licence is entitled was true then;
that it is not was true then of the rows shown, and of the licence where it held no more. -/
theorem has_entitlement_of_moment
    (h : Run (listings held changes) start progs log after now)
    (hcall : progs i = cl.hasEntitlement licenseId code limit)
    (hnow : now i = .ret (.ok answer)) :
    ∃ seen, Later (listings held changes) start seen ∧ Later (listings held changes) seen after ∧
      (answer = true → Grants (held seen licenseId) code) ∧
        (limit ≠ some 0 → (answer = true ↔ Grants ((held seen licenseId).take
          (ceiling (limit.getD maxEntitlementsPageSize))) code) ∧
            ((held seen licenseId).length ≤ ceiling (limit.getD maxEntitlementsPageSize) →
              (answer = true ↔ Grants (held seen licenseId) code))) := by
  have hsteps := h.steps i
  rw [hcall, hnow, hasEntitlement_eq] at hsteps
  obtain ⟨response, hasked, hread⟩ := read_asked hsteps
  obtain ⟨rows, hrows, rfl⟩ := map_eq_ok_iff.mp hread
  obtain ⟨seen, _, hseen, ⟨rfl, hlists⟩, hafter⟩ := h.served (mem_exchanges.mp hasked)
  have hfirst := hlists licenseId _ rows rfl hrows
  refine ⟨_, hseen, hafter, ?_, fun hlimit => ?_⟩
  · intro hanswer
    obtain ⟨row, hrow, hcode⟩ := any_code_iff.mp hanswer
    exact ⟨row, hfirst.prefix_held.subset hrow, hcode⟩
  · have hne : limit.getD maxEntitlementsPageSize ≠ 0 := by
      cases limit with
      | none => decide
      | some limit => exact fun hzero => hlimit (congrArg some hzero)
    rw [any_code_iff, ← hfirst.eq_take hne]
    refine ⟨Iff.rfl, fun hfew => ?_⟩
    rw [hfirst.eq_take hne, List.take_of_length_le hfew]

theorem has_entitlement_of_moment_blank :
    ∃ seen, Grants seen "pro" ∧ Later blankListings seen [] := by
  obtain ⟨log, now, hrun, hnow⟩ := run_blank
  obtain ⟨seen, -, hafter, htrue, -⟩ := has_entitlement_of_moment hrun rfl hnow
  exact ⟨seen, htrue rfl, hafter⟩

end Moments

end Tamga.Entitlements
