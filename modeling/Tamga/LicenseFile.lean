import Tamga.SignatureStage

namespace Tamga.LicenseFile

open Library.Prelude
open Library.SignedFile
open Tamga.Crypto
open Tamga.Dependencies
open Tamga.Envelope
open Tamga.Errors
open Tamga.KeySet
open Tamga.Models
open Tamga.SignatureStage

def pemHeader : String := "-----BEGIN LICENSE FILE-----"

def pemFooter : String := "-----END LICENSE FILE-----"

structure VerifiedLicenseFile (J : SerdeJson) where
  license : LicenseResource J
  claims : LicenseFileClaims

def parseEnvelope (c : Crates) (pem : String) : Except (CheckoutError c.json) CertPayload :=
  Envelope.parseEnvelope c pemHeader pemFooter "license_file::CertPayload" pem

/-- `verify_signature`: over the octets of the string `enc`, as it stands. -/
def verifySignature (c : Crates) (ed25519Pubkey : Octets 32) (cert : CertPayload) :
    Except (CheckoutError c.json) Unit := do
  let sigBytes ← decodeSignature c cert
  (Ed25519.verify c ed25519Pubkey (asBytes cert.enc) sigBytes).mapError .crypto

def validateAlg (J : SerdeJson) (alg : String) : Except (CheckoutError J) EncEncoding :=
  match alg with
  | "base64+ed25519+v2" => .ok .plain
  | "aes-256-gcm+ed25519+v2" => .ok .aes256Gcm
  | other => .error (.unsupportedAlgorithm other)

/-- The `expect` of the source: twelve octets are there to be the nonce. -/
theorem length_nonce {encBytes : List UInt8} (h : ¬encBytes.length < 12 + 16) :
    (encBytes.take 12).length = 12 := by
  rw [List.length_take]
  omega

def decodePlaintext (c : Crates) (cert : CertPayload) (encoding : EncEncoding)
    (licenseKey : Option String) : Except (CheckoutError c.json) (List UInt8) := do
  let encBytes ← okOr (c.base64.decode cert.enc) .invalidBase64
  match encoding with
  | .plain => .ok encBytes
  | .aes256Gcm => do
      let keyStr ← okOr licenseKey .licenseKeyMissing
      let key := Hkdf.deriveLicenseFileKey c keyStr
      if h : encBytes.length < 12 + 16 then .error (.crypto .decryptionFailed)
      else
        let nonce : Octets 12 := ⟨encBytes.take 12, length_nonce h⟩
        (AesGcm.decrypt c key nonce (encBytes.drop 12)).mapError .crypto

def finish (c : Crates) (plaintext : List UInt8) (nowUnix : Int64) :
    Except (CheckoutError c.json) (VerifiedLicenseFile c.json) := do
  let payload ← (c.json.fromSlice "license_file::DataPayload"
    (dataPayload (licenseResource c.json)) plaintext).mapError .invalidJson
  enforceExp c.json payload.«meta» nowUnix
  return { license := payload.data, claims := payload.«meta» }

def verifyLicenseFileAt (c : Crates) (pem : String) (ed25519Pubkey : Octets 32)
    (licenseKey : Option String) (nowUnix : Int64) :
    Except (CheckoutError c.json) (VerifiedLicenseFile c.json) := do
  let cert ← parseEnvelope c pem
  let encoding ← validateAlg c.json cert.alg
  verifySignature c ed25519Pubkey cert
  let plaintext ← decodePlaintext c cert encoding licenseKey
  finish c plaintext nowUnix

def verifyLicenseFileWithKeySetAt (c : Crates) (pem : String) (keys : SigningKeySet)
    (licenseKey : Option String) (nowUnix : Int64) :
    Except (CheckoutError c.json) (VerifiedLicenseFile c.json) := do
  let cert ← parseEnvelope c pem
  let encoding ← validateAlg c.json cert.alg
  let sigBytes ← decodeSignature c cert
  match ← (findVerifyingKey c keys (asBytes cert.enc) sigBytes).mapError .crypto with
  | some _ => do
      let plaintext ← decodePlaintext c cert encoding licenseKey
      finish c plaintext nowUnix
  | none => .error (labelFailure c keys (decodePlaintext c cert encoding licenseKey))

/-- The stages before the signature check. -/
def signedPart (c : Crates) (pem : String) : Except (CheckoutError c.json) SignedPart := do
  let cert ← parseEnvelope c pem
  let encoding ← validateAlg c.json cert.alg
  let signature ← decodeSignature c cert
  return { cert, encoding, signature }

def openPayload (c : Crates) (licenseKey : Option String) (file : SignedPart) :
    Except (CheckoutError c.json) (List UInt8) :=
  decodePlaintext c file.cert file.encoding licenseKey

theorem verifyLicenseFileAt_eq_verify (c : Crates) (pem : String) (key : Octets 32)
    (licenseKey : Option String) (nowUnix : Int64) :
    verifyLicenseFileAt c pem key licenseKey nowUnix =
      verify (signedPart c pem) (checkKey c key) (openPayload c licenseKey)
        fun plaintext => finish c plaintext nowUnix := by
  simp only [verifyLicenseFileAt, verifySignature, verify, signedPart, openPayload,
    checkKey, bind_assoc, pure_bind]

theorem verifyLicenseFileWithKeySetAt_eq_verifyAny (c : Crates) (pem : String)
    (keys : SigningKeySet) (licenseKey : Option String) (nowUnix : Int64) :
    verifyLicenseFileWithKeySetAt c pem keys licenseKey nowUnix =
      verifyAny (signedPart c pem) (searchSet c keys) (openPayload c licenseKey)
        (fun plaintext => finish c plaintext nowUnix) (labelFailure c keys) := by
  simp only [verifyLicenseFileWithKeySetAt, verifyAny, signedPart, openPayload,
    searchSet, bind_assoc, pure_bind]
  refine bind_congr fun cert => bind_congr fun encoding => bind_congr fun sigBytes => ?_
  cases findVerifyingKey c keys (asBytes cert.enc) sigBytes with
  | error e => rfl
  | ok found => cases found <;> rfl

theorem signedPart_eq_ok_iff {c : Crates} {pem : String} {file : SignedPart} :
    signedPart c pem = .ok file ↔
      parseEnvelope c pem = .ok file.cert ∧
        validateAlg c.json file.cert.alg = .ok file.encoding ∧
          c.base64.decode file.cert.sig = some file.signature := by
  simp only [signedPart, bind_eq_ok_iff, decodeSignature, okOr_eq_ok_iff]
  constructor
  · rintro ⟨cert, hcert, encoding, halg, signature, hsig, ⟨⟩⟩
    exact ⟨hcert, halg, hsig⟩
  · rintro ⟨hcert, halg, hsig⟩
    exact ⟨_, hcert, _, halg, _, hsig, rfl⟩

theorem validateAlg_eq_ok_iff {J : SerdeJson} {alg : String} {encoding : EncEncoding} :
    validateAlg J alg = .ok encoding ↔
      (alg = "base64+ed25519+v2" ∧ encoding = .plain) ∨
        (alg = "aes-256-gcm+ed25519+v2" ∧ encoding = .aes256Gcm) := by
  unfold validateAlg
  split
  · cases encoding <;> simp
  · cases encoding <;> simp
  · rename_i hplain hsealed
    simpa using ⟨fun h => (hplain h).elim, fun h => (hsealed h).elim⟩

end Tamga.LicenseFile
