import Tamga.UnsignedAlg

/-!
Licence files and machine files are signed alike, over a bare string and by one
key.  What keeps them apart is what is signed: the layout of `enc`, and the
attributes of the resource in it.
-/

namespace Tamga.FormatSeparation

open Library.Prelude
open Library.Serde
open Tamga.Crypto
open Tamga.Dependencies
open Tamga.Envelope
open Tamga.Errors
open Tamga.KeySet
open Tamga.Models
open Tamga.PayloadJson
open Tamga.ServerFiles
open Tamga.TableCrates
open Tamga.UnsignedAlg

def Carries (J : SerdeJson) (plaintext : List UInt8) (data : Json) : Prop :=
  ∃ members, J.parse plaintext = some (.object members) ∧ (some "data", data) ∈ members

theorem not_spells_of_carries {J : SerdeJson} {R : Type} {resource : Deserialize R}
    {plaintext : List UInt8} {data : Json} (hcarries : Carries J plaintext data)
    (hforeign : resource.deserialize data = none) (payload : DataPayload R) :
    ¬Spells J resource plaintext payload := by
  rintro ⟨document, hdocument, hread⟩
  obtain ⟨members, hparse, hdata⟩ := hcarries
  obtain rfl := Option.some.inj (hdocument.symm.trans hparse)
  obtain ⟨-, hresource, -⟩ := dataPayload_object_iff.mp hread
  have hsome := (occurrences_eq_of_readField hresource hdata).2
  rw [hforeign] at hsome
  cases hsome

theorem not_spells_of_parse_eq_none {J : SerdeJson} {R : Type} {resource : Deserialize R}
    {plaintext : List UInt8} (hparse : J.parse plaintext = none)
    (payload : DataPayload R) : ¬Spells J resource plaintext payload := by
  rintro ⟨document, hdocument, -⟩
  rw [hparse] at hdocument
  cases hdocument

variable {c : Crates}

/-- When `enc` holds a seal under the licence key, the bytes of that seal are
not a JSON text by themselves. -/
def SealNotJson (c : Crates) (licenseKey enc : String) : Prop :=
  ∀ bytes, c.base64.decode enc = some bytes →
    IsSeal c (Hkdf.deriveLicenseFileKey c licenseKey) bytes → c.json.parse bytes = none

/-- A licence file is one run of base64, which a machine file is when it is
plain. -/
theorem plain_of_opens_licenseEnc {builtAs encoding : EncEncoding}
    {licenseKey : String} {nonce : Octets 12} {plaintext opened : List UInt8}
    {givenKey fingerprint : Option String}
    (h : MachineFile.Opens c givenKey fingerprint
      (licenseEnc c builtAs licenseKey nonce plaintext) opened encoding) :
    c.base64.decode (licenseEnc c builtAs licenseKey nonce plaintext) = some opened := by
  cases h with
  | plain hdecode => exact hdecode
  | aes256Gcm _ _ henc =>
      exfalso
      obtain ⟨bytes, hdecode, -⟩ := decode_licenseEnc builtAs licenseKey nonce plaintext
      apply c.base64.not_mem_of_decode (c := '.') hdecode (by decide)
      rw [henc]
      simp

theorem machine_not_spells_licenseEnc {builtAs encoding : EncEncoding}
    {licenseKey : String} {nonce : Octets 12} {plaintext opened : List UInt8}
    {givenKey fingerprint : Option String} {r : LicenseResource c.json}
    (hcarries : Carries c.json plaintext r.toJson)
    (hseal : SealNotJson c licenseKey (licenseEnc c builtAs licenseKey nonce plaintext))
    (hopened : MachineFile.Opens c givenKey fingerprint
      (licenseEnc c builtAs licenseKey nonce plaintext) opened encoding)
    (payload : DataPayload (MachineResource c.json)) :
    ¬Spells c.json (machineResource c.json) opened payload := by
  have hdecode := plain_of_opens_licenseEnc hopened
  cases builtAs with
  | plain =>
      obtain rfl := Option.some.inj ((c.base64.decode_encode plaintext).symm.trans hdecode)
      exact not_spells_of_carries hcarries (machineResource_ne_license r) payload
  | aes256Gcm =>
      obtain rfl := Option.some.inj ((c.base64.decode_encode _).symm.trans hdecode)
      exact not_spells_of_parse_eq_none (hseal _ hdecode ⟨nonce, plaintext, rfl⟩) payload

/-- Only a plain machine file is base64, and a licence key opens the payload of
one if it is a seal. -/
theorem license_not_spells_machineEnc {builtAs encoding : EncEncoding}
    {licenseKey fingerprint : String} {nonce : Octets 12}
    {plaintext opened : List UInt8} {givenKey : Option String}
    {r : MachineResource c.json} (hcarries : Carries c.json plaintext r.toJson)
    (hseal : ∀ key, givenKey = some key →
      SealNotJson c key (machineEnc c builtAs licenseKey fingerprint nonce plaintext))
    (hopened : LicenseFile.Opens c givenKey
      (machineEnc c builtAs licenseKey fingerprint nonce plaintext) opened encoding)
    (payload : DataPayload (LicenseResource c.json)) :
    ¬Spells c.json (licenseResource c.json) opened payload := by
  cases builtAs with
  | aes256Gcm =>
      exfalso
      have hdot : '.' ∈
          (machineEnc c .aes256Gcm licenseKey fingerprint nonce plaintext).toList := by
        simp [machineEnc]
      cases hopened with
      | plain hdecode =>
          exact c.base64.not_mem_of_decode hdecode (by decide) hdot
      | aes256Gcm _ hdecode =>
          exact c.base64.not_mem_of_decode hdecode (by decide) hdot
  | plain =>
      have hplain := c.base64.decode_encode plaintext
      cases hopened with
      | plain hdecode =>
          obtain rfl := Option.some.inj (hplain.symm.trans hdecode)
          exact not_spells_of_carries hcarries (licenseResource_ne_machine r) payload
      | @aes256Gcm key nonce' ciphertextAndTag hkey hdecode hdecrypt =>
          exfalso
          obtain rfl := Option.some.inj (hplain.symm.trans hdecode)
          obtain ⟨members, hparse, -⟩ := hcarries
          have hnone := hseal key hkey _ hdecode
            ⟨nonce', opened, by rw [c.aesGcm.encrypt_of_decrypt hdecrypt]⟩
          rw [hparse] at hnone
          cases hnone

/-- A call of either entry point for licence files, up to the licence key. -/
inductive LicenseCall where
  | singleKey (pem : String) (key : Octets 32) (nowUnix : Int64)
  | keySet (pem : String) (keys : SigningKeySet) (nowUnix : Int64)

def LicenseCall.pem : LicenseCall → String
  | .singleKey pem _ _ => pem
  | .keySet pem _ _ => pem

def LicenseCall.run (c : Crates) (licenseKey : Option String) :
    LicenseCall → Except (CheckoutError c.json) (LicenseFile.VerifiedLicenseFile c.json)
  | .singleKey pem key nowUnix =>
      LicenseFile.verifyLicenseFileAt c pem key licenseKey nowUnix
  | .keySet pem keys nowUnix =>
      LicenseFile.verifyLicenseFileWithKeySetAt c pem keys licenseKey nowUnix

theorem LicenseCall.accepted {licenseKey : Option String} {call : LicenseCall}
    {verified : LicenseFile.VerifiedLicenseFile c.json}
    (h : call.run c licenseKey = .ok verified) :
    ∃ key nowUnix cert encoding signature plaintext,
      LicenseFile.Accepted c call.pem key licenseKey nowUnix verified cert encoding
        signature plaintext := by
  cases call with
  | singleKey pem key nowUnix =>
      exact ⟨key, nowUnix, LicenseFile.verifyLicenseFileAt_eq_ok_iff.mp h⟩
  | keySet pem keys nowUnix =>
      obtain ⟨key, -, h⟩ := LicenseFile.verifyLicenseFileWithKeySetAt_eq_ok_iff.mp h
      exact ⟨key, nowUnix, LicenseFile.verifyLicenseFileAt_eq_ok_iff.mp h⟩

/-- The `enc` of a licence file is accepted by no entry point for machine files,
and the `enc` of a machine file by none for licence files, under any `sig`, any
`alg` and any key. -/
theorem no_cross_format_acceptance (c : Crates) :
    (∀ cert builtAs licenseKey nonce plaintext (r : LicenseResource c.json),
      cert.enc = licenseEnc c builtAs licenseKey nonce plaintext →
      Carries c.json plaintext r.toJson → SealNotJson c licenseKey cert.enc →
        ∀ givenKey fingerprint (call : MachineCall) verified,
          MachineFile.parseEnvelope c call.pem = .ok cert →
            call.run c givenKey fingerprint ≠ .ok verified) ∧
    (∀ cert builtAs licenseKey fingerprint nonce plaintext (r : MachineResource c.json),
      cert.enc = machineEnc c builtAs licenseKey fingerprint nonce plaintext →
      Carries c.json plaintext r.toJson →
        ∀ givenKey (call : LicenseCall) verified,
          (∀ key, givenKey = some key → SealNotJson c key cert.enc) →
          LicenseFile.parseEnvelope c call.pem = .ok cert →
            call.run c givenKey ≠ .ok verified) := by
  constructor
  · intro cert builtAs licenseKey nonce plaintext r henc hcarries hseal givenKey fingerprint
      call verified hcert hrun
    obtain ⟨_, _, _, _, _, _, _, h⟩ := MachineCall.accepted hrun
    obtain rfl := Except.ok.inj (hcert.symm.trans (parseEnvelope_eq_ok_iff.mpr h.envelope))
    have hopened := h.opened
    rw [henc] at hopened hseal
    exact machine_not_spells_licenseEnc hcarries hseal hopened _ h.payload
  · intro cert builtAs licenseKey fingerprint nonce plaintext r henc hcarries givenKey call
      verified hseal hcert hrun
    obtain ⟨_, _, _, _, _, _, h⟩ := LicenseCall.accepted hrun
    obtain rfl := Except.ok.inj (hcert.symm.trans (parseEnvelope_eq_ok_iff.mpr h.envelope))
    have hopened := h.opened
    rw [henc] at hopened hseal
    exact license_not_spells_machineEnc hcarries hseal hopened _ h.payload

theorem carries_of_payloadJson {J : SerdeJson} {plaintext : List UInt8} {data : Json}
    {claims : LicenseFileClaims}
    (h : J.parse plaintext = some (payloadJson data claims)) :
    Carries J plaintext data :=
  ⟨_, h, List.mem_cons_self⟩

theorem sealNotJson_recorded (r : Recording) (licenseKey enc : String) :
    SealNotJson r.crates licenseKey enc := by
  rintro bytes - ⟨nonce, plaintext, rfl⟩
  exact r.parse_seal _ nonce nonce.val plaintext

theorem no_cross_format_acceptance_recorded :
    (∃ e, MachineFile.verifyMachineFileWithKeySetAt licenseRecording.crates
        (machinePem licenseRecording.crates lines (licenseRecording.certText .plain))
        recordedKeys (some "LICENSE-KEY") (some "fp-abc123") 1767312060 = .error e) ∧
    (∃ e, LicenseFile.verifyLicenseFileWithKeySetAt machineRecording.crates
        (licensePem machineRecording.crates lines (machineRecording.certText .plain))
        recordedKeys (some "LICENSE-KEY") 1767312060 = .error e) := by
  have hlicense := carries_of_payloadJson licenseRecording.parse_payload
  have hmachine := carries_of_payloadJson machineRecording.parse_payload
  constructor
  · apply error_of_not_ok
    intro verified
    exact (no_cross_format_acceptance licenseRecording.crates).1 _ .plain "" zeroNonce _
      recordedLicense rfl hlicense (sealNotJson_recorded licenseRecording _ _) _ _
      (.keySet _ recordedKeys 1767312060) verified
      (parseEnvelope_machinePem licenseRecording.crates lines
        (licenseRecording.certText .plain))
  · apply error_of_not_ok
    intro verified
    exact (no_cross_format_acceptance machineRecording.crates).2 _ .plain "" "" zeroNonce _
      recordedMachine rfl hmachine _ (.keySet _ recordedKeys 1767312060) verified
      (fun key _ => sealNotJson_recorded machineRecording key _)
      (parseEnvelope_licensePem machineRecording.crates lines
        (machineRecording.certText .plain))

end Tamga.FormatSeparation
