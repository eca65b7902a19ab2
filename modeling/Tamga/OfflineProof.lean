import Tamga.Crypto
import Tamga.Library.JsonText
import Tamga.Library.Text
import Tamga.TableCrates

namespace Tamga.OfflineProof

open Library.Prelude
open Library.Text
open Library.JsonText
open Tamga.Dependencies
open Tamga.Errors
open Tamga.Crypto
open Tamga.TableCrates

structure OfflineProofVerified where
  deriving DecidableEq

def proofPrefix : String := "v1x0."

/-- A `serde_json::Value` of a dataset, listed as its maps were filled. -/
abbrev Dataset := { value : Value // DistinctKeys value }

section Payload

variable (J : SerdeJson)

def payload (accountId machineId : J.Uuid) (fingerprint : String) (dataset : Dataset) :
    Value :=
  .object [
    ("account", .object [("id", .string (J.printUuid accountId))]),
    ("machine", .object [
      ("id", .string (J.printUuid machineId)),
      ("fingerprint", .string fingerprint)]),
    ("dataset", dataset.val)]

def buildPayloadJson (accountId machineId : J.Uuid) (fingerprint : String)
    (dataset : Dataset) : String :=
  String.ofList (write (sorted (payload J accountId machineId fingerprint dataset)))

end Payload

def verifyOfflineProof (C : Crates) (proof : String) (accountId machineId : C.json.Uuid)
    (fingerprint : String) (dataset : Dataset) (rsaPubkey : List UInt8) :
    Except ProofError OfflineProofVerified := do
  let sigB64 ← okOr (stripPrefix proof proofPrefix) .malformedProof
  let sigBytes ← okOr (C.base64.decode sigB64) .invalidBase64
  let payloadJson := buildPayloadJson C.json accountId machineId fingerprint dataset
  (Rsa.verifyPkcs1 C rsaPubkey (asBytes payloadJson) sigBytes).mapError .crypto
  return OfflineProofVerified.mk

/-- The order of the members on the wire, which is not the order they are
listed in. -/
theorem sorted_payload (J : SerdeJson) (accountId machineId : J.Uuid) (fingerprint : String)
    (dataset : Dataset) :
    sorted (payload J accountId machineId fingerprint dataset) = .object [
      ("account", .object [("id", .string (J.printUuid accountId))]),
      ("dataset", sorted dataset.val),
      ("machine", .object [
        ("fingerprint", .string fingerprint),
        ("id", .string (J.printUuid machineId))])] := by
  have haccount : Library.Canonical.BytesLe "account" "dataset" := by decide
  have hmachine : ¬ Library.Canonical.BytesLe "machine" "dataset" := by decide
  have hid : ¬ Library.Canonical.BytesLe "id" "fingerprint" := by decide
  simp [payload, sorted, sortedMembers, List.insertionSort, List.orderedInsert, keyLe,
    haccount, hmachine, hid]

theorem buildPayloadJson_eq_iff (J : SerdeJson) (huuid : Function.Injective J.printUuid)
    {accountId accountId' machineId machineId' : J.Uuid} {fingerprint fingerprint' : String}
    {dataset dataset' : Dataset} :
    buildPayloadJson J accountId machineId fingerprint dataset =
        buildPayloadJson J accountId' machineId' fingerprint' dataset' ↔
      accountId = accountId' ∧ machineId = machineId' ∧ fingerprint = fingerprint' ∧
        Same dataset.val dataset'.val := by
  rw [← sorted_eq_iff dataset.property dataset'.property]
  constructor
  · intro h
    have hsorted := write_injective (String.ofList_inj.mp h)
    simp only [sorted_payload, Value.object.injEq, List.cons.injEq, Prod.mk.injEq,
      Value.string.injEq, true_and, and_true] at hsorted
    obtain ⟨haccount, hdataset, hfingerprint, hmachine⟩ := hsorted
    exact ⟨huuid haccount, huuid hmachine, hfingerprint, hdataset⟩
  · rintro ⟨rfl, rfl, rfl, hdataset⟩
    rw [buildPayloadJson, buildPayloadJson, sorted_payload, sorted_payload, hdataset]

/-- The signed payload is the tuple, up to the order of keys in the dataset, and
the verdict on a proof depends on no more. -/
theorem payload_identifies_tuple (C : Crates) (huuid : Function.Injective C.json.printUuid)
    (accountId accountId' machineId machineId' : C.json.Uuid)
    (fingerprint fingerprint' : String) (dataset dataset' : Dataset) :
    (buildPayloadJson C.json accountId machineId fingerprint dataset =
        buildPayloadJson C.json accountId' machineId' fingerprint' dataset' ↔
      accountId = accountId' ∧ machineId = machineId' ∧ fingerprint = fingerprint' ∧
        Same dataset.val dataset'.val) ∧
    (accountId = accountId' → machineId = machineId' → fingerprint = fingerprint' →
      Same dataset.val dataset'.val → ∀ proof rsaPubkey,
        verifyOfflineProof C proof accountId machineId fingerprint dataset rsaPubkey =
          verifyOfflineProof C proof accountId' machineId' fingerprint' dataset' rsaPubkey) := by
  refine ⟨buildPayloadJson_eq_iff C.json huuid, ?_⟩
  intro haccount hmachine hfingerprint hdataset proof rsaPubkey
  have hpayload := (buildPayloadJson_eq_iff C.json huuid).mpr
    ⟨haccount, hmachine, hfingerprint, hdataset⟩
  simp only [verifyOfflineProof, hpayload]

section Recorded

def account : String := "2f1c4d5e-0000-4000-8000-00000000000a"

def machine : String := "2f1c4d5e-0000-4000-8000-00000000000b"

theorem distinct_recorded :
    DistinctKeys (.object [("b", .int 1), ("a", .int 2)]) ∧
      DistinctKeys (.object [("a", .int 2), ("b", .int 1)]) := by
  simp [DistinctKeys, DistinctMembers]

theorem same_recorded :
    Same (.object [("b", .int 1), ("a", .int 2)]) (.object [("a", .int 2), ("b", .int 1)]) :=
  ⟨[("a", .int 2)], .int 1, [], rfl, rfl, [], .int 2, [], rfl, rfl, rfl⟩

example : buildPayloadJson (tableJson blankTables) "a1" "m1" "fp\"\n" ⟨_, distinct_recorded.1⟩ =
    "\x7b\"account\":\x7b\"id\":\"a1\"\x7d,\"dataset\":\x7b\"a\":2,\"b\":1\x7d," ++
      "\"machine\":\x7b\"fingerprint\":\"fp\\\"\\n\",\"id\":\"m1\"\x7d\x7d" := by
  decide

theorem payload_identifies_tuple_recorded :
    (buildPayloadJson (tableJson blankTables) account machine "fp" ⟨_, distinct_recorded.1⟩ =
      buildPayloadJson (tableJson blankTables) account machine "fp" ⟨_, distinct_recorded.2⟩) ∧
    buildPayloadJson (tableJson blankTables) account machine "fp" ⟨_, distinct_recorded.1⟩ ≠
      buildPayloadJson (tableJson blankTables) account machine "fp\",\"id\":\""
        ⟨_, distinct_recorded.2⟩ := by
  have hidentifies := payload_identifies_tuple (tableCrates blankTables) Function.injective_id
    account account machine machine "fp"
  constructor
  · exact (hidentifies "fp" ⟨_, distinct_recorded.1⟩ ⟨_, distinct_recorded.2⟩).1.mpr
      ⟨rfl, rfl, rfl, same_recorded⟩
  · intro h
    have htuple := (hidentifies _ ⟨_, distinct_recorded.1⟩ ⟨_, distinct_recorded.2⟩).1.mp h
    exact absurd htuple.2.2.1 (by decide)

end Recorded

end Tamga.OfflineProof
