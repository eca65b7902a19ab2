import Tamga.SignatureStage

namespace Tamga.MachineFile

open Library.Prelude
open Library.SignedFile
open Library.Text
open Tamga.Crypto
open Tamga.Dependencies
open Tamga.Envelope
open Tamga.Errors
open Tamga.KeySet
open Tamga.Models
open Tamga.SignatureStage

def pemHeader : String := "-----BEGIN MACHINE FILE-----"

def pemFooter : String := "-----END MACHINE FILE-----"

def algVersionMarker : String := "v2"

def nonceLen : Nat := 12

def gcmTagLen : Nat := 16

inductive LicenseScheme where
  | ed25519Sign
  | rsa2048Pkcs1Sign
  | rsa2048Pkcs1PssSign
  | ecdsaP256Sign
  | rsa2048JwtRs256
  deriving DecidableEq

structure VerifiedMachineFile (J : SerdeJson) where
  machine : MachineResource J
  claims : LicenseFileClaims

def schemeAlgSuffix : LicenseScheme → String
  | .ed25519Sign => "ed25519"
  | .rsa2048Pkcs1Sign | .rsa2048JwtRs256 => "rsa-sha256"
  | .rsa2048Pkcs1PssSign => "rsa-pss-sha256"
  | .ecdsaP256Sign => "ecdsa-p256"

def parseAlg (J : SerdeJson) (alg : String) :
    Except (CheckoutError J) (EncEncoding × String) := do
  let (encoding, rest) ← okOr (splitOnce alg '+') (.unsupportedAlgorithm alg)
  let (signingSuffix, version) ← okOr (rsplitOnce rest '+') (.unsupportedAlgorithm alg)
  if version ≠ algVersionMarker then .error (.unsupportedAlgorithm alg)
  else if signingSuffix = "" ∨ '+' ∈ signingSuffix.toList then
    .error (.unsupportedAlgorithm alg)
  else
    match encoding with
    | "base64" => .ok (.plain, signingSuffix)
    | "aes-256-gcm" => .ok (.aes256Gcm, signingSuffix)
    | _ => .error (.unsupportedAlgorithm alg)

def parseEnvelope (c : Crates) (pem : String) : Except (CheckoutError c.json) CertPayload :=
  Envelope.parseEnvelope c pemHeader pemFooter "machine_file::CertPayload" pem

def decodePlaintext (c : Crates) (cert : CertPayload) (encoding : EncEncoding)
    (licenseKey fingerprint : Option String) :
    Except (CheckoutError c.json) (List UInt8) :=
  match encoding with
  | .plain => okOr (c.base64.decode cert.enc) .invalidBase64
  | .aes256Gcm => do
      let keyStr ← okOr licenseKey .licenseKeyMissing
      let fp ← okOr fingerprint .fingerprintMissing
      let key := Hkdf.deriveMachineFileKey c keyStr fp
      let (nonceB64, cipherB64) ← okOr (splitOnce cert.enc '.') (.crypto .decryptionFailed)
      let nonceBytes ← okOr (c.base64.decode nonceB64) .invalidBase64
      let nonce ← okOr (tryInto nonceLen nonceBytes) (.crypto .decryptionFailed)
      let ciphertextAndTag ← okOr (c.base64.decode cipherB64) .invalidBase64
      if ciphertextAndTag.length < gcmTagLen then .error (.crypto .decryptionFailed)
      else (AesGcm.decrypt c key nonce ciphertextAndTag).mapError .crypto

def finish (c : Crates) (plaintext : List UInt8) (nowUnix : Int64) :
    Except (CheckoutError c.json) (VerifiedMachineFile c.json) := do
  let payload ← (c.json.fromSlice "machine_file::DataPayload"
    (dataPayload (machineResource c.json)) plaintext).mapError .invalidJson
  enforceExp c.json payload.«meta» nowUnix
  return { machine := payload.data, claims := payload.«meta» }

/-- `format!("{:?}")` of a string. -/
def debugStr (c : Crates) (s : String) : String :=
  debug c.isGraphemeExtended c.isPrintable s

/-- The refusal of a suffix by `verify_machine_file_at`. -/
def schemeMismatch (c : Crates) (signingSuffix expectedSuffix : String) : String :=
  "file declares alg suffix " ++ debugStr c signingSuffix ++ ", expected " ++
    debugStr c expectedSuffix ++ " for the supplied scheme"

/-- The refusal of a suffix by `verify_machine_file_with_key_set_at`. -/
def keySetMismatch (c : Crates) (signingSuffix expectedSuffix : String) : String :=
  "file declares alg suffix " ++ debugStr c signingSuffix ++
    "; a signing key set can only verify " ++ debugStr c expectedSuffix ++
    " machine files"

/-- The `match scheme` of `verify_machine_file_at`: the caller's scheme selects
the primitive, nothing in the file does. -/
def verifySignature (c : Crates) (scheme : LicenseScheme)
    (pubkey message signature : List UInt8) : Except (CheckoutError c.json) Unit :=
  match scheme with
  | .ed25519Sign => do
      let pubkey32 ← okOr (tryInto 32 pubkey) (.crypto .invalidKey)
      (Ed25519.verify c pubkey32 message signature).mapError .crypto
  | .rsa2048Pkcs1Sign => (Rsa.verifyPkcs1 c pubkey message signature).mapError .crypto
  | .rsa2048Pkcs1PssSign => (Rsa.verifyPss c pubkey message signature).mapError .crypto
  | .ecdsaP256Sign => (Ecdsa.verify c pubkey message signature).mapError .crypto
  | .rsa2048JwtRs256 => .error .schemeNotSupported

def verifyMachineFileAt (c : Crates) (pem : String) (scheme : LicenseScheme)
    (pubkey : List UInt8) (licenseKey fingerprint : Option String) (nowUnix : Int64) :
    Except (CheckoutError c.json) (VerifiedMachineFile c.json) :=
  if scheme = .rsa2048JwtRs256 then .error .schemeNotSupported
  else do
    let cert ← parseEnvelope c pem
    let (encoding, signingSuffix) ← parseAlg c.json cert.alg
    let expectedSuffix := schemeAlgSuffix scheme
    if signingSuffix ≠ expectedSuffix then
      .error (.unsupportedAlgorithm (schemeMismatch c signingSuffix expectedSuffix))
    else do
      let sigBytes ← decodeSignature c cert
      verifySignature c scheme pubkey (asBytes cert.enc) sigBytes
      let plaintext ← decodePlaintext c cert encoding licenseKey fingerprint
      finish c plaintext nowUnix

def verifyMachineFileWithKeySetAt (c : Crates) (pem : String) (keys : SigningKeySet)
    (licenseKey fingerprint : Option String) (nowUnix : Int64) :
    Except (CheckoutError c.json) (VerifiedMachineFile c.json) := do
  let cert ← parseEnvelope c pem
  let (encoding, signingSuffix) ← parseAlg c.json cert.alg
  let expectedSuffix := schemeAlgSuffix .ed25519Sign
  if signingSuffix ≠ expectedSuffix then
    .error (.unsupportedAlgorithm (keySetMismatch c signingSuffix expectedSuffix))
  else do
    let sigBytes ← decodeSignature c cert
    match ← (findVerifyingKey c keys (asBytes cert.enc) sigBytes).mapError .crypto with
    | some _ => do
        let plaintext ← decodePlaintext c cert encoding licenseKey fingerprint
        finish c plaintext nowUnix
    | none =>
        .error (labelFailure c keys
          (decodePlaintext c cert encoding licenseKey fingerprint))

/-- The stages before the signature check, up to the text of the refusal of a
foreign suffix. -/
def signedPart (c : Crates) (expectedSuffix : String)
    (mismatch : String → String → String) (pem : String) :
    Except (CheckoutError c.json) SignedPart := do
  let cert ← parseEnvelope c pem
  let (encoding, signingSuffix) ← parseAlg c.json cert.alg
  if signingSuffix ≠ expectedSuffix then
    .error (.unsupportedAlgorithm (mismatch signingSuffix expectedSuffix))
  else do
    let signature ← decodeSignature c cert
    return { cert, encoding, signature }

def openPayload (c : Crates) (licenseKey fingerprint : Option String)
    (file : SignedPart) : Except (CheckoutError c.json) (List UInt8) :=
  decodePlaintext c file.cert file.encoding licenseKey fingerprint

def checkScheme (c : Crates) (scheme : LicenseScheme) (pubkey : List UInt8)
    (file : SignedPart) : Except (CheckoutError c.json) Unit :=
  verifySignature c scheme pubkey (asBytes file.cert.enc) file.signature

theorem verifyMachineFileAt_eq_verify (c : Crates) (pem : String)
    {scheme : LicenseScheme} (hscheme : scheme ≠ .rsa2048JwtRs256)
    (pubkey : List UInt8) (licenseKey fingerprint : Option String) (nowUnix : Int64) :
    verifyMachineFileAt c pem scheme pubkey licenseKey fingerprint nowUnix =
      verify (signedPart c (schemeAlgSuffix scheme) (schemeMismatch c) pem)
        (checkScheme c scheme pubkey) (openPayload c licenseKey fingerprint)
        fun plaintext => finish c plaintext nowUnix := by
  simp only [verifyMachineFileAt, if_neg hscheme, verify, signedPart, bind_assoc]
  refine bind_congr fun cert => bind_congr fun alg => ?_
  split
  · rfl
  · simp only [bind_assoc, pure_bind, checkScheme, openPayload]

theorem verifyMachineFileWithKeySetAt_eq_verifyAny (c : Crates) (pem : String)
    (keys : SigningKeySet) (licenseKey fingerprint : Option String) (nowUnix : Int64) :
    verifyMachineFileWithKeySetAt c pem keys licenseKey fingerprint nowUnix =
      verifyAny (signedPart c (schemeAlgSuffix .ed25519Sign) (keySetMismatch c) pem)
        (searchSet c keys) (openPayload c licenseKey fingerprint)
        (fun plaintext => finish c plaintext nowUnix) (labelFailure c keys) := by
  simp only [verifyMachineFileWithKeySetAt, verifyAny, signedPart, bind_assoc]
  refine bind_congr fun cert => bind_congr fun alg => ?_
  split
  · rfl
  · simp only [bind_assoc, pure_bind, searchSet, openPayload]
    refine bind_congr fun sigBytes => ?_
    cases findVerifyingKey c keys (asBytes cert.enc) sigBytes with
    | error e => rfl
    | ok found => cases found <;> rfl

end Tamga.MachineFile
