import Tamga.Errors
import Tamga.Library.Text
import Tamga.Models

namespace Tamga.Envelope

open Library.Prelude
open Library.Serde
open Library.Text
open Tamga.Dependencies
open Tamga.Errors
open Tamga.Models

structure CertPayload where
  enc : String
  sig : String
  alg : String
  deriving DecidableEq

def certPayload : Deserialize CertPayload :=
  struct <| (Fields.done CertPayload.mk)
    |>.field "enc" string
    |>.field "sig" string
    |>.field "alg" string

/-- The `EncEncoding` of either module. -/
inductive EncEncoding where
  | plain
  | aes256Gcm
  deriving DecidableEq

def EncEncoding.name : EncEncoding → String
  | .plain => "base64"
  | .aes256Gcm => "aes-256-gcm"

/-- `<encoding>+<signing suffix>+v2`, what `alg` has to be. -/
def algName (encoding : EncEncoding) (signingSuffix : String) : String :=
  encoding.name ++ "+" ++ signingSuffix ++ "+v2"

/-- `parse_envelope`, with the markers of a format.  The markers are stripped
from the trimmed text, and what is between them is trimmed again. -/
def parseEnvelope (c : Crates) (header footer target pem : String) :
    Except (CheckoutError c.json) CertPayload := do
  let body ← okOr
    ((stripPrefix (trim pem) header).bind fun rest => stripSuffix rest footer)
    .malformedPem
  let certJson ← okOr (c.base64.decode (trim body)) .invalidBase64
  (c.json.fromSlice target certPayload certJson).mapError .invalidJson

def decodeSignature (c : Crates) (cert : CertPayload) :
    Except (CheckoutError c.json) (List UInt8) :=
  okOr (c.base64.decode cert.sig) .invalidBase64

def clockSkewToleranceSecs : Int64 := 60

/-- The check of `exp` that both `finish` functions make. -/
def enforceExp (J : SerdeJson) (claims : LicenseFileClaims) (nowUnix : Int64) :
    Except (CheckoutError J) Unit :=
  match claims.exp with
  | some exp =>
      if saturatingSub nowUnix clockSkewToleranceSecs > exp then .error (.expired exp)
      else .ok ()
  | none => .ok ()

/-- The `KidProbe` and `KidProbeMeta` of `probe_kid`, which name no other field. -/
def kidProbe : Deserialize String :=
  struct <| (Fields.done id) |>.field "meta"
    (struct <| (Fields.done id) |>.field "kid" string)

def probeKid (c : Crates) (plaintext : List UInt8) :
    Except (CheckoutError c.json) String :=
  (c.json.fromSlice "license_file::probe_kid::KidProbe" kidProbe plaintext).mapError
    .invalidJson

/-- A file with these claims has run out at `nowUnix`, in unbounded integers. -/
def Expired (claims : LicenseFileClaims) (nowUnix : Int64) : Prop :=
  ∃ exp, claims.exp = some exp ∧ nowUnix.toInt - 60 > exp.toInt

/-- The trimmed text is the two markers with a body between them, and the
trimmed body is base64 of a JSON document that reads as `cert`. -/
def Enveloped (c : Crates) (header footer pem : String) (cert : CertPayload) : Prop :=
  ∃ body certJson document, trim pem = header ++ body ++ footer ∧
    c.base64.decode (trim body) = some certJson ∧
    c.json.parse certJson = some document ∧
    certPayload.deserialize document = some cert

def Spells (J : SerdeJson) {R : Type} (resource : Deserialize R)
    (plaintext : List UInt8) (payload : DataPayload R) : Prop :=
  ∃ document, J.parse plaintext = some document ∧
    (dataPayload resource).deserialize document = some payload

theorem parseEnvelope_eq_ok_iff {c : Crates} {header footer target pem : String}
    {cert : CertPayload} :
    parseEnvelope c header footer target pem = .ok cert ↔
      Enveloped c header footer pem cert := by
  simp only [parseEnvelope, Enveloped, bind_eq_ok_iff, okOr_eq_ok_iff,
    mapError_eq_ok_iff, SerdeJson.fromSlice_eq_ok_iff, Option.bind_eq_some_iff,
    stripPrefix_eq_some_iff, stripSuffix_eq_some_iff]
  constructor
  · rintro ⟨body, ⟨rest, hrest, rfl⟩, certJson, hdecode, document, hparse, hread⟩
    exact ⟨body, certJson, document, by rw [hrest, String.append_assoc], hdecode,
      hparse, hread⟩
  · rintro ⟨body, certJson, document, htrim, hdecode, hparse, hread⟩
    exact ⟨body, ⟨body ++ footer, by rw [htrim, String.append_assoc], rfl⟩, certJson,
      hdecode, document, hparse, hread⟩

theorem fromSlice_eq_ok_iff_spells {J : SerdeJson} {R : Type} {target : String}
    {resource : Deserialize R} {plaintext : List UInt8} {payload : DataPayload R} :
    J.fromSlice target (dataPayload resource) plaintext = .ok payload ↔
      Spells J resource plaintext payload :=
  J.fromSlice_eq_ok_iff

theorem Spells.unique {J : SerdeJson} {R : Type} {resource : Deserialize R}
    {plaintext : List UInt8} {payload payload' : DataPayload R}
    (h : Spells J resource plaintext payload)
    (h' : Spells J resource plaintext payload') : payload = payload' := by
  obtain ⟨document, hparse, hread⟩ := h
  obtain ⟨document', hparse', hread'⟩ := h'
  obtain rfl := Option.some.inj (hparse.symm.trans hparse')
  exact Option.some.inj (hread.symm.trans hread')

theorem dataPayload_object_iff {R : Type} {resource : Deserialize R}
    {members : Members} {payload : DataPayload R} :
    (dataPayload resource).deserialize (.object members) = some payload ↔
      (∀ member ∈ members, member.1.isSome) ∧
        readField "data" resource resource.missingField members = some payload.data ∧
        readField "meta" licenseFileClaims none members = some payload.«meta» := by
  rw [dataPayload, struct_object_iff]
  constructor
  · rintro ⟨hkeys, hread⟩
    obtain ⟨_, claims, hresource, hclaims, rfl⟩ := Fields.next_ofMembers_iff.mp hread
    obtain ⟨_, data, hdone, hdata, rfl⟩ := Fields.next_ofMembers_iff.mp hresource
    obtain rfl := Option.some.inj hdone
    exact ⟨hkeys, hdata, hclaims⟩
  · rintro ⟨hkeys, hdata, hclaims⟩
    refine ⟨hkeys, Fields.next_ofMembers_iff.mpr
      ⟨DataPayload.mk payload.data, payload.«meta», ?_, hclaims, rfl⟩⟩
    exact Fields.next_ofMembers_iff.mpr ⟨DataPayload.mk, payload.data, rfl, hdata, rfl⟩

theorem past_exp_iff {nowUnix exp : Int64} :
    saturatingSub nowUnix clockSkewToleranceSecs > exp ↔
      nowUnix.toInt - 60 > exp.toInt :=
  saturatingSub_gt_iff (by decide)

theorem enforceExp_of_past {J : SerdeJson} {claims : LicenseFileClaims}
    {nowUnix exp : Int64} (hexp : claims.exp = some exp)
    (hpast : nowUnix.toInt - 60 > exp.toInt) :
    enforceExp J claims nowUnix = .error (.expired exp) := by
  simp only [enforceExp, hexp, if_pos (past_exp_iff.mpr hpast)]

theorem enforceExp_of_not_expired {J : SerdeJson} {claims : LicenseFileClaims}
    {nowUnix : Int64} (h : ¬Expired claims nowUnix) :
    enforceExp J claims nowUnix = .ok () := by
  rw [enforceExp]
  cases hexp : claims.exp with
  | none => rfl
  | some exp =>
      have hpast : ¬saturatingSub nowUnix clockSkewToleranceSecs > exp :=
        fun hgt => h ⟨exp, hexp, past_exp_iff.mp hgt⟩
      simp only [if_neg hpast]

theorem enforceExp_eq_ok_iff {J : SerdeJson} {claims : LicenseFileClaims}
    {nowUnix : Int64} :
    enforceExp J claims nowUnix = .ok () ↔ ¬Expired claims nowUnix := by
  refine ⟨?_, enforceExp_of_not_expired⟩
  rintro hok ⟨exp, hexp, hpast⟩
  rw [enforceExp_of_past hexp hpast] at hok
  cases hok

end Tamga.Envelope
