import Tamga.FailureLabels

/-!
Verification through a set that holds no key: no signature is checked, and the
answer rests on what the unverified payload lets itself be read as.
-/

namespace Tamga.EmptyKeySet

open Library.Prelude
open Library.Serde
open Library.SignedFile
open Tamga.Dependencies
open Tamga.Envelope
open Tamga.Errors
open Tamga.FailureLabels
open Tamga.KeySet
open Tamga.MachineFile (schemeAlgSuffix)
open Tamga.Models
open Tamga.ServerFiles
open Tamga.SignatureStage
open Tamga.TableCrates

variable {c : Crates}

/-- `SigningKeySet::default`. -/
def emptyKeySet : SigningKeySet where
  entries := []

/-- No key is at hand, or an argument is missing. -/
inductive NotForged {J : SerdeJson} : CheckoutError J → Prop
  | unknownSigningKey (kid : String) : NotForged (.unknownSigningKey kid)
  | licenseKeyMissing : NotForged .licenseKeyMissing
  | fingerprintMissing : NotForged .fingerprintMissing

/-- An empty set never calls a well-formed file forged, in either format. -/
structure NeverForged (c : Crates) : Prop where
  license : ∀ pem cert encoding sigBytes licenseKey nowUnix,
    LicenseFile.parseEnvelope c pem = .ok cert →
    LicenseFile.validateAlg c.json cert.alg = .ok encoding →
    decodeSignature c cert = .ok sigBytes →
      ∃ e, LicenseFile.verifyLicenseFileWithKeySetAt c pem emptyKeySet licenseKey nowUnix =
        .error e ∧ NotForged e
  machine : ∀ pem cert encoding sigBytes licenseKey fingerprint nowUnix,
    MachineFile.parseEnvelope c pem = .ok cert →
    MachineFile.parseAlg c.json cert.alg = .ok (encoding, schemeAlgSuffix .ed25519Sign) →
    decodeSignature c cert = .ok sigBytes →
      ∃ e, MachineFile.verifyMachineFileWithKeySetAt c pem emptyKeySet licenseKey fingerprint
        nowUnix = .error e ∧ NotForged e

def kidlessRecording : Recording where
  inner := "0"
  document := objectJson [("data", i64Json 0)]
  key := recordedKey
  signature := zeroSignature
  derivedKey := zeroKey

theorem probeKid_kidless : probeKid kidlessRecording.crates kidlessRecording.payload =
    .error (.invalidJson ()) := by
  rw [probeKid, SerdeJson.fromSlice, kidlessRecording.parse_payload]
  rfl

theorem searchSet_emptyKeySet (file : SignedPart) : searchSet c emptyKeySet file = .ok none :=
  rfl

/-- What the payload comes to decides the label: a missing argument, a `kid`, or
neither of them. -/
structure Answered (c : Crates) (opened : Except (CheckoutError c.json) (List UInt8))
    (e : CheckoutError c.json) : Prop where
  licenseKeyMissing : opened = .error .licenseKeyMissing → e = .licenseKeyMissing
  fingerprintMissing : opened = .error .fingerprintMissing → e = .fingerprintMissing
  unknownSigningKey : ∀ plaintext kid, opened = .ok plaintext →
    probeKid c plaintext = .ok kid → e = .unknownSigningKey kid
  notForged_iff : NotForged e ↔ opened = .error .licenseKeyMissing ∨
    opened = .error .fingerprintMissing ∨
      ∃ plaintext kid, opened = .ok plaintext ∧ probeKid c plaintext = .ok kid
  otherwise : ¬NotForged e → e = .crypto .verificationFailed

theorem answered_labelFailure (opened : Except (CheckoutError c.json) (List UInt8)) :
    Answered c opened (labelFailure c emptyKeySet opened) := by
  rcases labelFailure_cases c emptyKeySet opened with ⟨hopened, hlabel⟩ | ⟨hopened, hlabel⟩ |
    ⟨plaintext, kid, hopened, hkid, -, hlabel⟩ | ⟨hkey, hfp, hkid, hlabel⟩
  · rw [hlabel, hopened]
    have hnot : NotForged (.licenseKeyMissing : CheckoutError c.json) := .licenseKeyMissing
    constructor <;> simp [hnot]
  · rw [hlabel, hopened]
    have hnot : NotForged (.fingerprintMissing : CheckoutError c.json) := .fingerprintMissing
    constructor <;> simp [hnot]
  · rw [hlabel, hopened]
    have hnot : NotForged (.unknownSigningKey kid : CheckoutError c.json) := .unknownSigningKey kid
    constructor <;> simp [hnot, hkid]
    rintro _ other rfl hother
    exact Except.ok.inj (hkid.symm.trans hother)
  · rw [hlabel]
    have hforged : ¬NotForged (.crypto .verificationFailed : CheckoutError c.json) := nofun
    have hnone : ¬∃ plaintext kid, opened = .ok plaintext ∧ probeKid c plaintext = .ok kid := by
      rintro ⟨plaintext, kid, hopened, hprobe⟩
      exact hkid ⟨plaintext, kid, hopened, hprobe, List.not_mem_nil⟩
    constructor <;> simp_all

/-- An empty set answers a well-formed file with an unknown key or a missing
argument, unless the payload does not open or names no `kid`: then the signature
failure stands. -/
theorem emptyKeySet_answers (c : Crates) :
    (∀ pem cert encoding sigBytes licenseKey nowUnix,
      LicenseFile.parseEnvelope c pem = .ok cert →
      LicenseFile.validateAlg c.json cert.alg = .ok encoding →
      decodeSignature c cert = .ok sigBytes →
        ∃ e, LicenseFile.verifyLicenseFileWithKeySetAt c pem emptyKeySet licenseKey nowUnix =
            .error e ∧
          Answered c (LicenseFile.decodePlaintext c cert encoding licenseKey) e) ∧
    (∀ pem cert encoding sigBytes licenseKey fingerprint nowUnix,
      MachineFile.parseEnvelope c pem = .ok cert →
      MachineFile.parseAlg c.json cert.alg = .ok (encoding, schemeAlgSuffix .ed25519Sign) →
      decodeSignature c cert = .ok sigBytes →
        ∃ e, MachineFile.verifyMachineFileWithKeySetAt c pem emptyKeySet licenseKey fingerprint
            nowUnix = .error e ∧
          Answered c (MachineFile.decodePlaintext c cert encoding licenseKey fingerprint) e) := by
  constructor
  · intro pem cert encoding sigBytes licenseKey nowUnix hcert halg hsig
    have hsigned : LicenseFile.signedPart c pem = .ok ⟨cert, encoding, sigBytes⟩ :=
      LicenseFile.signedPart_eq_ok_iff.mpr ⟨hcert, halg, okOr_eq_ok_iff.mp hsig⟩
    refine ⟨_, ?_, answered_labelFailure _⟩
    rw [LicenseFile.verifyLicenseFileWithKeySetAt_eq_verifyAny]
    exact verifyAny_of_none hsigned (searchSet_emptyKeySet _)
  · intro pem cert encoding sigBytes licenseKey fingerprint nowUnix hcert halg hsig
    have hsigned : MachineFile.signedPart c (schemeAlgSuffix .ed25519Sign)
        (MachineFile.keySetMismatch c) pem = .ok ⟨cert, encoding, sigBytes⟩ :=
      MachineFile.signedPart_eq_ok_iff.mpr ⟨hcert, halg, okOr_eq_ok_iff.mp hsig⟩
    refine ⟨_, ?_, answered_labelFailure _⟩
    rw [MachineFile.verifyMachineFileWithKeySetAt_eq_verifyAny]
    exact verifyAny_of_none hsigned (searchSet_emptyKeySet _)

theorem emptyKeySet_answers_recorded :
    ∃ e, LicenseFile.verifyLicenseFileWithKeySetAt kidlessRecording.crates
        (licensePem kidlessRecording.crates lines (licenseText kidlessRecording "" zeroNonce))
        emptyKeySet none 0 = .error e ∧
      Answered kidlessRecording.crates (LicenseFile.decodePlaintext kidlessRecording.crates
        (recordedPart kidlessRecording).cert (recordedPart kidlessRecording).encoding none) e := by
  obtain ⟨hcert, halg, hsig⟩ :=
    LicenseFile.signedPart_eq_ok_iff.mp (signedPart_recorded kidlessRecording lines)
  exact (emptyKeySet_answers kidlessRecording.crates).1 _ _ _ _ none 0 hcert halg
    (okOr_eq_ok_iff.mpr hsig)

theorem not_neverForged : ¬NeverForged kidlessRecording.crates := by
  intro h
  have hsigned := signedPart_recorded kidlessRecording lines
  obtain ⟨hcert, halg, hsig⟩ := LicenseFile.signedPart_eq_ok_iff.mp hsigned
  obtain ⟨e, he, hnot⟩ := h.license _ _ _ _ none 0 hcert halg (okOr_eq_ok_iff.mpr hsig)
  rw [LicenseFile.verifyLicenseFileWithKeySetAt_eq_verifyAny,
    verifyAny_of_none hsigned (searchSet_emptyKeySet _), LicenseFile.openPayload,
    decodePlaintext_recorded, labelFailure, probeKid_kidless] at he
  obtain rfl := Except.error.inj he
  cases hnot

end Tamga.EmptyKeySet
