import Tamga.ClientReads
import Tamga.Library.Beats

namespace Tamga.HeartbeatSchedule

open Library.Beats
open Library.Interaction.Prog
open Library.Prelude
open Library.Serde
open Tamga.Client
open Tamga.ClientReads
open Tamga.Dependencies
open Tamga.Models
open Tamga.Policies
open Tamga.RetryBounds
open Tamga.ServerResponses
open Tamga.Transport

/-- How many pings in a row may be lost under a `heartbeat_duration`. -/
def toleratedLosses (heartbeatDuration : Option Int32) : ℕ :=
  if heartbeatDuration = some 1 then 0 else if heartbeatDuration = some 2 then 1 else 2

section Interval

variable {J : SerdeJson} (attributes : PolicyAttributes J)

theorem toNat_secs {secs : Int32} (h : 0 < secs) :
    (secs.toInt64.toUInt64.toNat : ℤ) = secs.toInt := by
  have hpos : 0 < secs.toInt := Int32.lt_iff_toInt_lt.mp h
  have hwide : 0 ≤ secs.toInt64 := by
    rw [Int64.le_iff_toInt_le, Int32.toInt_toInt64]
    exact hpos.le
  rw [Int64.toNat_toUInt64_of_le hwide, Int64.cast_toNatClampNeg _ hwide, Int32.toInt_toInt64]

theorem exists_windowSecs :
    ∃ secs : ℕ, 1 ≤ secs ∧ attributes.effectiveHeartbeatWindow.nanos = secs * 1000000000 ∧
      (secs = 1 ↔ attributes.heartbeatDuration = some 1) ∧
      (secs = 2 ↔ attributes.heartbeatDuration = some 2) := by
  have hdefault (h : attributes.heartbeatDuration.filter (fun secs => 0 < secs) = none) :
      attributes.effectiveHeartbeatWindow.nanos = 600 * 1000000000 := by
    rw [PolicyAttributes.effectiveHeartbeatWindow, h]
    rfl
  cases hduration : attributes.heartbeatDuration with
  | none => exact ⟨600, by omega, hdefault (by rw [hduration]; rfl), by simp, by simp⟩
  | some secs =>
      rcases Int32.lt_or_le 0 secs with hpos | hneg
      · have hwindow : attributes.effectiveHeartbeatWindow.nanos =
            secs.toInt64.toUInt64.toNat * 1000000000 := by
          rw [PolicyAttributes.effectiveHeartbeatWindow, hduration, Option.filter_some,
            if_pos (decide_eq_true hpos)]
          rfl
        have hsecs := toNat_secs hpos
        have hone : 0 < secs.toInt := Int32.lt_iff_toInt_lt.mp hpos
        refine ⟨_, by omega, hwindow, ?_, ?_⟩
        · rw [Option.some.injEq, ← Int32.toInt_inj, ← hsecs]
          exact ⟨fun h => by rw [h]; rfl, fun h => Int.ofNat_inj.mp h⟩
        · rw [Option.some.injEq, ← Int32.toInt_inj, ← hsecs]
          exact ⟨fun h => by rw [h]; rfl, fun h => Int.ofNat_inj.mp h⟩
      · have hfilter : attributes.heartbeatDuration.filter (fun secs => 0 < secs) = none := by
          rw [hduration, Option.filter_some, if_neg (by simpa using hneg)]
        refine ⟨600, by omega, hdefault hfilter, iff_of_false (by omega) ?_,
          iff_of_false (by omega) ?_⟩
        · rintro ⟨⟩
          exact absurd hneg (by decide)
        · rintro ⟨⟩
          exact absurd hneg (by decide)

theorem recommended_nanos :
    attributes.recommendedHeartbeatInterval.nanos =
      max (attributes.effectiveHeartbeatWindow.nanos / 3) 1000000000 := rfl

/-- A third of the window is pinged at, but not more often than every second. -/
theorem tolerates_recommended (losses : ℕ) :
    Tolerates attributes.recommendedHeartbeatInterval.nanos
        attributes.effectiveHeartbeatWindow.nanos losses ↔
      losses ≤ toleratedLosses attributes.heartbeatDuration := by
  obtain ⟨secs, hsecs, hwindow, hone, htwo⟩ := exists_windowSecs attributes
  have hinterval := recommended_nanos attributes
  have hcast : ((losses : ℚ) + 1) * attributes.recommendedHeartbeatInterval.nanos ≤
      attributes.effectiveHeartbeatWindow.nanos ↔
      (losses + 1) * attributes.recommendedHeartbeatInterval.nanos ≤
        attributes.effectiveHeartbeatWindow.nanos := by
    exact_mod_cast Iff.rfl
  rw [tolerates_iff (by rw [hinterval]; exact_mod_cast (by omega)), hcast, hinterval,
    hwindow, toleratedLosses]
  rcases Nat.lt_or_ge secs 3 with hshort | hlong
  · -- the window is shorter than three of the shortest intervals
    have hinterval : max (secs * 1000000000 / 3) 1000000000 = 1000000000 := by omega
    rw [hinterval]
    rcases hsecs.eq_or_lt with rfl | hmore
    · rw [if_pos (hone.mp rfl)]
      omega
    · have hsecs : secs = 2 := by omega
      subst hsecs
      rw [if_neg (fun h => by simpa using hone.mpr h), if_pos (htwo.mp rfl)]
      omega
  · have hinterval : max (secs * 1000000000 / 3) 1000000000 = secs * 1000000000 / 3 := by omega
    rw [hinterval, if_neg (fun h => by have := hone.mpr h; omega),
      if_neg (fun h => by have := htwo.mpr h; omega)]
    constructor
    · intro h
      by_contra! hmany
      have hfour : 4 * (secs * 1000000000 / 3) ≤ (losses + 1) * (secs * 1000000000 / 3) :=
        Nat.mul_le_mul_right _ (by omega)
      omega
    · intro h
      have hthree : (losses + 1) * (secs * 1000000000 / 3) ≤ 3 * (secs * 1000000000 / 3) :=
        Nat.mul_le_mul_right _ (by omega)
      omega

end Interval

section Schedule

variable {cl : Client} {licenseId : cl.json.Uuid} {events : List cl.Exchange} {interval : Nanos}

def policyRequest (cl : Client) (licenseId : cl.json.Uuid) : Request :=
  ⟨.get, "/licenses/" ++ cl.json.printUuid licenseId ++ "/policy", [], none, none⟩

def readPolicy (cl : Client) (response : Response) : Except cl.Error (Policy cl.json) :=
  cl.read "Policy" (envelope (policy cl.json)) response

theorem recommendedHeartbeatInterval_eq (licenseId : cl.json.Uuid) :
    cl.recommendedHeartbeatInterval licenseId =
      (cl.sendWithRetry (policyRequest cl licenseId)).andThen fun response =>
        .ret ((readPolicy cl response).map fun policy =>
          policy.attributes.recommendedHeartbeatInterval) := by
  rw [Client.recommendedHeartbeatInterval, getLicensePolicy, sendJsonApi, andThen_ret_map]
  rfl

def blankPolicy (heartbeatDuration : Option Int32) : Policy blankClient.json where
  id := "policy"
  resourceType := "policies"
  attributes := {
    productId := "product"
    name := "Default"
    duration := none
    strict := false
    floating := false
    scheme := none
    encrypted := false
    usePool := false
    «protected» := false
    requireCheckIn := false
    checkInInterval := some .week
    checkInIntervalCount := some 2
    requireHeartbeat := true
    heartbeatDuration := heartbeatDuration
    heartbeatCullStrategy := "DEACTIVATE_DEAD"
    heartbeatResurrectionStrategy := "NO_RESURRECTION"
    machineUniquenessStrategy := "UNIQUE_PER_LICENSE"
    expirationStrategy := ⟨"RESTRICT_ACCESS"⟩
    expirationBasis := "FROM_CREATION"
    renewalBasis := ⟨"FROM_EXPIRY"⟩
    authenticationStrategy := ⟨"TOKEN"⟩
    overageStrategy := "DENY_ACCESS"
    maxMachines := none
    maxCores := none
    maxProcesses := none
    maxUsers := none
    metadata := objectJson []
    created := "2026-01-01T00:00:00Z"
    updated := "2026-01-01T00:00:00Z" }

def blankPolicyDocument (heartbeatDuration : Option Int32) : Json :=
  objectJson [("data", objectJson [
    ("type", textJson "policies"),
    ("id", textJson "policy"),
    ("attributes", objectJson [
      ("product_id", textJson "product"),
      ("name", textJson "Default"),
      ("duration", .null),
      ("strict", .bool false),
      ("floating", .bool false),
      ("scheme", .null),
      ("encrypted", .bool false),
      ("use_pool", .bool false),
      ("protected", .bool false),
      ("require_check_in", .bool false),
      ("check_in_interval", textJson "weekly"),
      ("check_in_interval_count", i32Json 2),
      ("require_heartbeat", .bool true),
      ("heartbeat_duration", optionJson i32Json heartbeatDuration),
      ("heartbeat_cull_strategy", textJson "DEACTIVATE_DEAD"),
      ("heartbeat_resurrection_strategy", textJson "NO_RESURRECTION"),
      ("machine_uniqueness_strategy", textJson "UNIQUE_PER_LICENSE"),
      ("expiration_strategy", textJson "RESTRICT_ACCESS"),
      ("expiration_basis", textJson "FROM_CREATION"),
      ("renewal_basis", textJson "FROM_EXPIRY"),
      ("authentication_strategy", textJson "TOKEN"),
      ("overage_strategy", textJson "DENY_ACCESS"),
      ("max_machines", .null),
      ("max_cores", .null),
      ("max_processes", .null),
      ("max_users", .null),
      ("metadata", objectJson []),
      ("created", textJson "2026-01-01T00:00:00Z"),
      ("updated", textJson "2026-01-01T00:00:00Z")])])]

/-- A policy is read whose interval is stored under the adverb, and whose overage and
resurrection strategies are none of the known ones. -/
theorem readPolicy_blank :
    readPolicy blankClient ⟨200, [], some (blankPolicyDocument (some 90))⟩ =
      .ok (blankPolicy (some 90)) := rfl

/-- A client that pings at the interval it was told, and whose first ping is heard, stays
alive under the policy of the last answer, though so many pings in a row are lost, and
though no more. -/
theorem schedule_tolerates
    (h : Steps (cl.recommendedHeartbeatInterval licenseId) events (.ret (.ok interval))) :
    ∃ response policy, (outcomes events).getLast? = some (.ok response) ∧
      readPolicy cl response = .ok policy ∧
      interval = policy.attributes.recommendedHeartbeatInterval ∧ 1000000000 ≤ interval.nanos ∧
      ∀ losses, Tolerates interval.nanos policy.attributes.effectiveHeartbeatWindow.nanos losses ↔
        losses ≤ toleratedLosses policy.attributes.heartbeatDuration := by
  rw [recommendedHeartbeatInterval_eq] at h
  obtain ⟨response, hlast, hread⟩ := read_last h
  obtain ⟨policy, hpolicy, rfl⟩ := map_eq_ok_iff.mp hread
  exact ⟨response, policy, hlast, hpolicy, rfl, le_max_right _ _, tolerates_recommended _⟩

theorem schedule_tolerates_blank :
    Tolerates 30000000000 90000000000 2 ∧ ¬ Tolerates 30000000000 90000000000 3 := by
  have hsteps : Steps (blankClient.recommendedHeartbeatInterval blankLicenseId)
      [⟨.send (policyRequest blankClient blankLicenseId),
        .ok ⟨200, [], some (blankPolicyDocument (some 90))⟩⟩]
      (.ret (.ok (blankPolicy (some 90)).attributes.recommendedHeartbeatInterval)) := by
    rw [recommendedHeartbeatInterval_eq]
    exact (steps_sendWithRetry (by decide)).bind (.refl _)
  obtain ⟨response, policy, hlast, hread, -, -, htolerates⟩ := schedule_tolerates hsteps
  cases hlast
  rw [readPolicy_blank] at hread
  cases hread
  exact ⟨(htolerates 2).mpr (by decide), fun h => absurd ((htolerates 3).mp h) (by decide)⟩

end Schedule

end Tamga.HeartbeatSchedule
