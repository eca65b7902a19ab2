import Tamga.KeySet
import Tamga.Library.SignedFile

namespace Tamga.SignatureStage

open Library.Prelude
open Library.SignedFile
open Tamga.Crypto
open Tamga.Dependencies
open Tamga.Envelope
open Tamga.Errors
open Tamga.KeySet

/-- A file of which the envelope, the `alg` gate and the base64 of `sig` have
passed.  The signature is over the string `enc`. -/
structure SignedPart where
  cert : CertPayload
  encoding : EncEncoding
  signature : List UInt8

def checkKey (c : Crates) (key : Octets 32) (file : SignedPart) :
    Except (CheckoutError c.json) Unit :=
  (Ed25519.verify c key (asBytes file.cert.enc) file.signature).mapError .crypto

def searchSet (c : Crates) (keys : SigningKeySet) (file : SignedPart) :
    Except (CheckoutError c.json) (Option (Octets 32)) :=
  (findVerifyingKey c keys (asBytes file.cert.enc) file.signature).mapError .crypto

@[simp] theorem checkKey_eq_ok_iff {c : Crates} {key : Octets 32} {file : SignedPart} :
    checkKey c key file = .ok () ↔
      Ed25519.verify c key (asBytes file.cert.enc) file.signature = .ok () := by
  rw [checkKey, mapError_eq_ok_iff]

theorem exact_searchSet (c : Crates) (keys : SigningKeySet) :
    Exact (· ∈ keys.keys) (checkKey c) (searchSet c keys) where
  sound hsearch := by
    rw [searchSet, mapError_eq_ok_iff] at hsearch
    rw [checkKey_eq_ok_iff]
    exact searchKeys_sound c hsearch
  complete hkey hcheck := by
    rw [checkKey_eq_ok_iff] at hcheck
    obtain ⟨found, hfound⟩ := searchKeys_complete c hkey hcheck
    exact ⟨found, mapError_eq_ok_iff.mpr hfound⟩

end Tamga.SignatureStage
