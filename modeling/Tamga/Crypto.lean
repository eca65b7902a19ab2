import Tamga.Errors
import Tamga.Library.Text

namespace Tamga.Crypto

open Library.Prelude
open Library.Text
open Tamga.Dependencies
open Tamga.Errors

namespace Ed25519

/-- `crypto::ed25519::verify`.  The key is looked at before the signature. -/
def verify (c : Crates) (pubkey : Octets 32) (message signature : List UInt8) :
    Except CryptoError Unit := do
  let verifyingKey ← okOr (c.dalek.verifyingKeyFromBytes pubkey) .invalidKey
  let sig ← okOr (c.dalek.signatureTryFrom signature) .invalidSignature
  if c.dalek.verify verifyingKey message sig then .ok () else .error .verificationFailed

/-- The `kid` of a key: over the base64 text of the key, not over its octets. -/
def keyId (c : Crates) (ed25519PublicKeyBase64 : String) : String :=
  let digest := c.sha256 (asBytes ed25519PublicKeyBase64)
  String.ofList ((digest.val.take 8).flatMap lowerHex)

def publicKeyFromBase64 (c : Crates) (b64 : String) : Except CryptoError (Octets 32) := do
  let bytes ← okOr (c.base64.decode b64) .invalidKey
  okOr (tryInto 32 bytes) .invalidKey

/-- A key that is a point of the curve. -/
def Usable (c : Crates) (pubkey : Octets 32) : Prop :=
  (c.dalek.verifyingKeyFromBytes pubkey).isSome

theorem verify_eq_invalidSignature_iff (c : Crates) {pubkey : Octets 32}
    {message signature : List UInt8} :
    verify c pubkey message signature = .error .invalidSignature ↔
      Usable c pubkey ∧ signature.length ≠ 64 := by
  rw [Usable, ne_eq, ← c.dalek.signatureTryFrom_isSome signature, verify]
  cases c.dalek.verifyingKeyFromBytes pubkey with
  | none => simp [okOr]
  | some point =>
      cases c.dalek.signatureTryFrom signature with
      | none => simp [okOr]
      | some sig => by_cases h : c.dalek.verify point message sig <;> simp [okOr, h]

theorem length_of_verify (c : Crates) {pubkey : Octets 32}
    {message signature : List UInt8} (h : verify c pubkey message signature = .ok ()) :
    signature.length = 64 := by
  obtain ⟨point, -, h⟩ := bind_eq_ok_iff.mp h
  obtain ⟨sig, hsig, -⟩ := bind_eq_ok_iff.mp h
  rw [okOr_eq_ok_iff] at hsig
  exact (c.dalek.signatureTryFrom_isSome signature).mp (by rw [hsig]; rfl)

@[simp] theorem publicKeyFromBase64_eq_ok_iff {c : Crates} {b64 : String} {key : Octets 32} :
    publicKeyFromBase64 c b64 = .ok key ↔ c.base64.decode b64 = some key.val := by
  simp [publicKeyFromBase64, bind_eq_ok_iff]

theorem publicKeyFromBase64_eq_error {c : Crates} {b64 : String}
    (h : ∀ key, publicKeyFromBase64 c b64 ≠ .ok key) :
    publicKeyFromBase64 c b64 = .error .invalidKey := by
  obtain ⟨e, he⟩ := error_of_not_ok h
  rw [he]
  rw [publicKeyFromBase64, bind_eq_error_iff] at he
  rcases he with he | ⟨bytes, -, he⟩ <;>
    exact congrArg Except.error (okOr_eq_error_iff.mp he).2.symm

/-- Base64 is canonical, so the text of a key is determined by the key. -/
theorem publicKeyFromBase64_inj {c : Crates} {a b : String} {key key' : Octets 32}
    (ha : publicKeyFromBase64 c a = .ok key) (hb : publicKeyFromBase64 c b = .ok key') :
    key = key' ↔ a = b := by
  rw [publicKeyFromBase64_eq_ok_iff] at ha hb
  constructor
  · rintro rfl
    rw [← c.base64.encode_of_decode ha, ← c.base64.encode_of_decode hb]
  · rintro rfl
    exact Subtype.ext (Option.some.inj (ha.symm.trans hb))

theorem usable_of_verify {c : Crates} {pubkey : Octets 32} {message signature : List UInt8}
    (h : verify c pubkey message signature ≠ .error .invalidKey) : Usable c pubkey := by
  rw [Usable, Option.isSome_iff_ne_none]
  intro hnone
  apply h
  rw [verify, hnone]
  rfl

theorem verify_ne_invalidKey {c : Crates} {pubkey : Octets 32} (h : Usable c pubkey)
    (message signature : List UInt8) :
    verify c pubkey message signature ≠ .error .invalidKey := by
  obtain ⟨point, hpoint⟩ := Option.isSome_iff_exists.mp h
  intro herror
  simp only [verify, hpoint, okOr, ok_bind] at herror
  obtain hsig | ⟨sig, -, hsig⟩ := bind_eq_error_iff.mp herror
  · exact absurd (okOr_eq_error_iff.mp hsig).2 (by decide)
  · split at hsig <;> cases hsig

end Ed25519

namespace Rsa

def verifyPkcs1 (c : Crates) (pubkeyDer message signature : List UInt8) :
    Except CryptoError Unit :=
  if c.awsLc.rsaPkcs1Sha256 pubkeyDer message signature then .ok ()
  else .error .verificationFailed

def verifyPss (c : Crates) (pubkeyDer message signature : List UInt8) :
    Except CryptoError Unit :=
  if c.awsLc.rsaPssSha256 pubkeyDer message signature then .ok ()
  else .error .verificationFailed

end Rsa

namespace Ecdsa

def verify (c : Crates) (pubkey message signature : List UInt8) :
    Except CryptoError Unit :=
  if c.awsLc.ecdsaP256Sha256Asn1 pubkey message signature then .ok ()
  else .error .verificationFailed

end Ecdsa

namespace AesGcm

def decrypt (c : Crates) (key : Octets 32) (nonce : Octets 12)
    (ciphertextAndTag : List UInt8) : Except CryptoError (List UInt8) :=
  okOr (c.aesGcm.decrypt key nonce ciphertextAndTag) .decryptionFailed

theorem decrypt_eq_ok_iff {c : Crates} {key : Octets 32} {nonce : Octets 12}
    {ciphertextAndTag plaintext : List UInt8} :
    decrypt c key nonce ciphertextAndTag = .ok plaintext ↔
      c.aesGcm.decrypt key nonce ciphertextAndTag = some plaintext :=
  okOr_eq_ok_iff

end AesGcm

namespace Hkdf

def machineSalt : List UInt8 := asBytes "tamga:machine-file-key-v1"

def licenseSalt : List UInt8 := asBytes "tamga:license-file-key-v1"

def licenseInfo : List UInt8 := asBytes "license-file"

def deriveMachineFileKey (c : Crates) (licenseKey fingerprint : String) : Octets 32 :=
  c.hkdf machineSalt (asBytes licenseKey) (asBytes fingerprint)

def deriveLicenseFileKey (c : Crates) (licenseKey : String) : Octets 32 :=
  c.hkdf licenseSalt (asBytes licenseKey) licenseInfo

end Hkdf

end Tamga.Crypto
