import Tamga.Crypto
import Tamga.Envelope

namespace Tamga.KeySet

open Library.Prelude
open Tamga.Crypto
open Tamga.Dependencies
open Tamga.Envelope
open Tamga.Errors

structure SigningKeySet where
  entries : List (String × Octets 32)

namespace SigningKeySet

def find (keys : SigningKeySet) (kid : String) : Option (Octets 32) :=
  (keys.entries.find? fun entry => entry.1 == kid).map Prod.snd

def len (keys : SigningKeySet) : Nat :=
  keys.entries.length

def isEmpty (keys : SigningKeySet) : Bool :=
  keys.entries.isEmpty

def kids (keys : SigningKeySet) : List String :=
  keys.entries.map Prod.fst

def keys (keys : SigningKeySet) : List (Octets 32) :=
  keys.entries.map Prod.snd

end SigningKeySet

/-- The loop of `find_verifying_key`: a key that verifies ends it, and so does
a signature that is malformed; any other failure moves on to the next key. -/
def searchKeys (c : Crates) (message signature : List UInt8) :
    List (Octets 32) → Except CryptoError (Option (Octets 32))
  | [] => .ok none
  | key :: rest =>
      match Ed25519.verify c key message signature with
      | .ok () => .ok (some key)
      | .error .invalidSignature => .error .invalidSignature
      | .error _ => searchKeys c message signature rest

def findVerifyingKey (c : Crates) (keys : SigningKeySet)
    (message signature : List UInt8) : Except CryptoError (Option (Octets 32)) :=
  searchKeys c message signature keys.keys

def labelFailure (c : Crates) (keys : SigningKeySet)
    (probe : Except (CheckoutError c.json) (List UInt8)) : CheckoutError c.json :=
  match probe with
  | .ok plaintext =>
      match probeKid c plaintext with
      | .ok kid =>
          if (keys.find kid).isSome then .crypto .verificationFailed
          else .unknownSigningKey kid
      | .error _ => .crypto .verificationFailed
  | .error .licenseKeyMissing => .licenseKeyMissing
  | .error .fingerprintMissing => .fingerprintMissing
  | .error _ => .crypto .verificationFailed

theorem find_isSome_iff (keys : SigningKeySet) (kid : String) :
    (keys.find kid).isSome ↔ kid ∈ keys.kids := by
  simp only [SigningKeySet.find, Option.isSome_map, List.find?_isSome, beq_iff_eq,
    SigningKeySet.kids, List.mem_map]

theorem searchKeys_sound (c : Crates) {message signature : List UInt8}
    {keys : List (Octets 32)} {key : Octets 32}
    (h : searchKeys c message signature keys = .ok (some key)) :
    key ∈ keys ∧ Ed25519.verify c key message signature = .ok () := by
  induction keys with
  | nil => simp [searchKeys] at h
  | cons first rest ih =>
      rw [searchKeys] at h
      split at h
      · rename_i hverify
        obtain rfl : first = key := by simpa using h
        exact ⟨List.mem_cons_self, hverify⟩
      · simp at h
      · obtain ⟨hmem, hverify⟩ := ih h
        exact ⟨List.mem_cons_of_mem _ hmem, hverify⟩

/-- A key that fails on the form of the signature would make every other key
fail on it, so the early exit cannot hide a key that verifies. -/
theorem searchKeys_complete (c : Crates) {message signature : List UInt8}
    {keys : List (Octets 32)} {key : Octets 32} (hkey : key ∈ keys)
    (hverify : Ed25519.verify c key message signature = .ok ()) :
    ∃ found, searchKeys c message signature keys = .ok (some found) := by
  have hlength := Ed25519.length_of_verify c hverify
  induction keys with
  | nil => simp at hkey
  | cons first rest ih =>
      rw [searchKeys]
      split
      · exact ⟨first, rfl⟩
      · rename_i hinvalid
        exact absurd hlength ((Ed25519.verify_eq_invalidSignature_iff c).mp hinvalid).2
      · rename_i hother
        rcases List.mem_cons.mp hkey with rfl | hmem
        · simp [hverify] at hother
        · exact ih hmem

theorem searchKeys_of_malformed (c : Crates) {message signature : List UInt8}
    {keys : List (Octets 32)} {key : Octets 32} (hkey : key ∈ keys)
    (husable : Ed25519.Usable c key) (hlength : signature.length ≠ 64) :
    searchKeys c message signature keys = .error .invalidSignature := by
  induction keys with
  | nil => simp at hkey
  | cons first rest ih =>
      rw [searchKeys]
      split
      · rename_i hverify
        exact absurd (Ed25519.length_of_verify c hverify) hlength
      · rfl
      · rename_i e hother hverify
        rcases List.mem_cons.mp hkey with rfl | hmem
        · rw [(Ed25519.verify_eq_invalidSignature_iff c).mpr ⟨husable, hlength⟩] at hverify
          cases hverify
          exact absurd rfl hother
        · exact ih hmem

theorem searchKeys_eq_none (c : Crates) {message signature : List UInt8}
    {keys : List (Octets 32)}
    (hnone : ∀ key ∈ keys, Ed25519.verify c key message signature ≠ .ok ())
    (hformed : ¬(signature.length ≠ 64 ∧ ∃ key ∈ keys, Ed25519.Usable c key)) :
    searchKeys c message signature keys = .ok none := by
  induction keys with
  | nil => rfl
  | cons first rest ih =>
      rw [searchKeys]
      split
      · rename_i hverify
        exact absurd hverify (hnone first List.mem_cons_self)
      · rename_i hverify
        obtain ⟨husable, hlength⟩ := (Ed25519.verify_eq_invalidSignature_iff c).mp hverify
        exact absurd ⟨hlength, first, List.mem_cons_self, husable⟩ hformed
      · apply ih (fun key hmem => hnone key (List.mem_cons_of_mem _ hmem))
        rintro ⟨hlength, key, hmem, husable⟩
        exact hformed ⟨hlength, key, List.mem_cons_of_mem _ hmem, husable⟩

/-- The five labels, each with the probe that it stands for. -/
theorem labelFailure_cases (c : Crates) (keys : SigningKeySet)
    (probe : Except (CheckoutError c.json) (List UInt8)) :
    (probe = .error .licenseKeyMissing ∧
        labelFailure c keys probe = .licenseKeyMissing) ∨
      (probe = .error .fingerprintMissing ∧
        labelFailure c keys probe = .fingerprintMissing) ∨
      (∃ plaintext kid, probe = .ok plaintext ∧ probeKid c plaintext = .ok kid ∧
        kid ∉ keys.kids ∧ labelFailure c keys probe = .unknownSigningKey kid) ∨
      (probe ≠ .error .licenseKeyMissing ∧ probe ≠ .error .fingerprintMissing ∧
        (¬∃ plaintext kid, probe = .ok plaintext ∧ probeKid c plaintext = .ok kid ∧
          kid ∉ keys.kids) ∧
        labelFailure c keys probe = .crypto .verificationFailed) := by
  cases probe with
  | error e => cases e <;> simp [labelFailure]
  | ok plaintext =>
      cases hkid : probeKid c plaintext with
      | error e => simp [labelFailure, hkid]
      | ok kid =>
          by_cases hheld : (keys.find kid).isSome
          · have hmem := (find_isSome_iff keys kid).mp hheld
            simp [labelFailure, hkid, hheld, hmem]
          · have hmem : kid ∉ keys.kids := mt (find_isSome_iff keys kid).mpr hheld
            simp [labelFailure, hkid, hheld, hmem]

end Tamga.KeySet
