import Tamga.Envelope

namespace Tamga.PayloadJson

open Library.Prelude
open Library.Serde
open Tamga.Dependencies
open Tamga.Envelope
open Tamga.Models

/-- The scalar types are read back from what is written for them. -/
structure RoundTrips (J : SerdeJson) : Prop where
  parseUuid_printUuid : ∀ id, J.parseUuid (J.printUuid id) = some id
  parseDateTime_printDateTime : ∀ t, J.parseDateTime (J.printDateTime t) = some t
  readValue_printValue : ∀ v, J.readValue (J.printValue v) = some v

/-- The `meta` of a payload.  A checkout without a `ttl` writes no `exp`. -/
def claimsJson (claims : LicenseFileClaims) : Json :=
  objectJson <|
    ("iat", i64Json claims.iat) ::
      (claims.exp.toList.map fun exp => ("exp", i64Json exp)) ++
        [("jti", textJson claims.jti), ("kid", textJson claims.kid)]

def payloadJson (data : Json) (claims : LicenseFileClaims) : Json :=
  objectJson [("data", data), ("meta", claimsJson claims)]

variable {J : SerdeJson}

attribute [local simp] struct objectJson Fields.field Fields.fieldDefault Fields.next
  Fields.done readField occurrences

@[simp] theorem deserialize_string (s : String) :
    string.deserialize (textJson s) = some s := rfl

@[simp] theorem deserialize_bool (b : Bool) : bool.deserialize (.bool b) = some b := rfl

@[simp] theorem deserialize_i64 (i : Int64) : i64.deserialize (i64Json i) = some i := by
  have hlow := i.le_toInt
  have hhigh := i.toInt_lt
  simp only [i64, integer, i64Json, Number.toInt_ofInt, Option.bind_eq_bind,
    Option.bind_some]
  rw [if_pos (by omega), Int64.ofInt_toInt]

@[simp] theorem deserialize_i32 (i : Int32) : i32.deserialize (i32Json i) = some i := by
  have hlow := i.le_toInt
  have hhigh := i.toInt_lt
  simp only [i32, integer, i32Json, Number.toInt_ofInt, Option.bind_eq_bind,
    Option.bind_some]
  rw [if_pos (by omega), Int32.ofInt_toInt]

theorem deserialize_option {α : Type} {inner : Deserialize α} {toJson : α → Json}
    (hread : ∀ a, inner.deserialize (toJson a) = some a)
    (hnull : ∀ a, toJson a ≠ .null) (value : Option α) :
    (option inner).deserialize (optionJson toJson value) = some value := by
  cases value with
  | none => rfl
  | some a =>
      have hvalue := hnull a
      simp only [option, optionJson, hread, Option.map_some]

@[simp] theorem deserialize_optionString (value : Option String) :
    (option string).deserialize (optionJson textJson value) = some value :=
  deserialize_option deserialize_string (fun _ => by simp [textJson]) value

@[simp] theorem deserialize_optionI32 (value : Option Int32) :
    (option i32).deserialize (optionJson i32Json value) = some value :=
  deserialize_option deserialize_i32 (fun _ => by simp [i32Json]) value

@[simp] theorem deserialize_optionI64 (value : Option Int64) :
    (option i64).deserialize (optionJson i64Json value) = some value :=
  deserialize_option deserialize_i64 (fun _ => by simp [i64Json]) value

theorem deserialize_uuid (h : RoundTrips J) (id : J.Uuid) :
    (uuid J).deserialize (textJson (J.printUuid id)) = some id := by
  simp [uuid, parsed, h.parseUuid_printUuid]

theorem deserialize_dateTime (h : RoundTrips J) (t : J.DateTime) :
    (dateTime J).deserialize (dateTimeJson t) = some t := by
  simp [dateTime, parsed, dateTimeJson, h.parseDateTime_printDateTime]

theorem deserialize_optionDateTime (h : RoundTrips J) (value : Option J.DateTime) :
    (option (dateTime J)).deserialize (optionJson dateTimeJson value) = some value :=
  deserialize_option (deserialize_dateTime h) (fun _ => by simp [dateTimeJson, textJson])
    value

theorem deserialize_value (h : RoundTrips J) (v : J.Value) :
    (value J).deserialize (J.printValue v) = some v :=
  h.readValue_printValue v

theorem deserialize_licenseAttributes (h : RoundTrips J) (a : LicenseAttributes J) :
    (licenseAttributes J).deserialize a.toJson = some a := by
  simp [licenseAttributes, LicenseAttributes.toJson, deserialize_dateTime h,
    deserialize_optionDateTime h, deserialize_value h]

theorem deserialize_licenseResource (h : RoundTrips J) (r : LicenseResource J) :
    (licenseResource J).deserialize r.toJson = some r := by
  simp [licenseResource, LicenseResource.toJson, deserialize_uuid h,
    deserialize_licenseAttributes h]

theorem deserialize_machineAttributes (h : RoundTrips J) (a : MachineAttributes J)
    (hstatus : heartbeatStatus.deserialize (textJson a.heartbeatStatus.wire) =
      some a.heartbeatStatus) :
    (machineAttributes J).deserialize a.toJson = some a := by
  simp [machineAttributes, MachineAttributes.toJson, deserialize_dateTime h,
    deserialize_optionDateTime h, deserialize_value h, hstatus]

/-- A status of `Unknown` must not spell one of the four known ones. -/
theorem deserialize_machineResource (h : RoundTrips J) (r : MachineResource J)
    (hstatus : heartbeatStatus.deserialize (textJson r.attributes.heartbeatStatus.wire) =
      some r.attributes.heartbeatStatus) :
    (machineResource J).deserialize r.toJson = some r := by
  simp [machineResource, MachineResource.toJson, deserialize_uuid h,
    deserialize_machineAttributes h _ hstatus]

theorem deserialize_claims (claims : LicenseFileClaims) :
    licenseFileClaims.deserialize (claimsJson claims) = some claims := by
  obtain ⟨iat, exp, jti, kid⟩ := claims
  cases exp with
  | none =>
      simp [licenseFileClaims, claimsJson]
  | some exp =>
      have hexp : (option i64).deserialize (i64Json exp) = some (some exp) :=
        deserialize_optionI64 (some exp)
      simp [licenseFileClaims, claimsJson, hexp]

theorem deserialize_payload {R : Type} {resource : Deserialize R} {data : Json} {r : R}
    (hread : resource.deserialize data = some r) (claims : LicenseFileClaims) :
    (dataPayload resource).deserialize (payloadJson data claims) =
      some { data := r, «meta» := claims } := by
  simp [dataPayload, payloadJson, hread, deserialize_claims]

theorem spells_payloadJson {R : Type} {resource : Deserialize R} {data : Json} {r : R}
    {plaintext : List UInt8} {claims : LicenseFileClaims}
    (hparse : J.parse plaintext = some (payloadJson data claims))
    (hread : resource.deserialize data = some r) :
    Spells J resource plaintext { data := r, «meta» := claims } :=
  ⟨_, hparse, deserialize_payload hread claims⟩

/-- A licence has no `fingerprint`. -/
theorem machineResource_ne_license (r : LicenseResource J) :
    (machineResource J).deserialize r.toJson = none := by
  have hattributes : (machineAttributes J).deserialize r.attributes.toJson = none := by
    simp [machineAttributes, LicenseAttributes.toJson, string]
  simp [machineResource, LicenseResource.toJson, hattributes]

/-- A machine has no `status`. -/
theorem licenseResource_ne_machine (r : MachineResource J) :
    (licenseResource J).deserialize r.toJson = none := by
  have hattributes : (licenseAttributes J).deserialize r.attributes.toJson = none := by
    simp [licenseAttributes, MachineAttributes.toJson, string]
  simp [licenseResource, MachineResource.toJson, hattributes]

end Tamga.PayloadJson
