import Tamga.LicenseFile

namespace Tamga.LicenseFile

open Library.Prelude
open Library.SignedFile
open Tamga.Crypto
open Tamga.Dependencies
open Tamga.Envelope
open Tamga.Errors
open Tamga.KeySet
open Tamga.Models
open Tamga.SignatureStage

/-- The layouts of `enc`: base64 of the payload, or base64 of
`nonce ‖ ciphertext ‖ tag` under the key that the licence key derives. -/
inductive Opens (c : Crates) (licenseKey : Option String) (enc : String)
    (plaintext : List UInt8) : EncEncoding → Prop
  | plain (hdecode : c.base64.decode enc = some plaintext) :
      Opens c licenseKey enc plaintext .plain
  | aes256Gcm {key : String} {nonce : Octets 12} {ciphertextAndTag : List UInt8}
      (hkey : licenseKey = some key)
      (hdecode : c.base64.decode enc = some (nonce.val ++ ciphertextAndTag))
      (hdecrypt : c.aesGcm.decrypt (Hkdf.deriveLicenseFileKey c key) nonce
        ciphertextAndTag = some plaintext) :
      Opens c licenseKey enc plaintext .aes256Gcm

/-- Everything that the acceptance of a licence file under `key` stands on. -/
structure Accepted (c : Crates) (pem : String) (key : Octets 32)
    (licenseKey : Option String) (nowUnix : Int64)
    (verified : VerifiedLicenseFile c.json) (cert : CertPayload)
    (encoding : EncEncoding) (signature plaintext : List UInt8) : Prop where
  envelope : Enveloped c pemHeader pemFooter pem cert
  alg : cert.alg = algName encoding "ed25519"
  sig : c.base64.decode cert.sig = some signature
  signed : Ed25519.verify c key (asBytes cert.enc) signature = .ok ()
  opened : Opens c licenseKey cert.enc plaintext encoding
  payload : Spells c.json (licenseResource c.json) plaintext
    { data := verified.license, «meta» := verified.claims }
  unexpired : ¬Expired verified.claims nowUnix

theorem validateAlg_eq_ok_iff_algName {J : SerdeJson} {alg : String}
    {encoding : EncEncoding} :
    validateAlg J alg = .ok encoding ↔ alg = algName encoding "ed25519" := by
  rw [validateAlg_eq_ok_iff]
  cases encoding with
  | plain => simp only [and_true, reduceCtorEq, and_false, or_false]; rfl
  | aes256Gcm => simp only [and_true, reduceCtorEq, and_false, false_or]; rfl

theorem decodePlaintext_eq_ok_iff {c : Crates} {cert : CertPayload}
    {encoding : EncEncoding} {licenseKey : Option String} {plaintext : List UInt8} :
    decodePlaintext c cert encoding licenseKey = .ok plaintext ↔
      Opens c licenseKey cert.enc plaintext encoding := by
  rw [decodePlaintext, bind_eq_ok_iff]
  simp only [okOr_eq_ok_iff]
  constructor
  · rintro ⟨encBytes, hdecode, h⟩
    cases encoding with
    | plain =>
        obtain rfl := Except.ok.inj h
        exact .plain hdecode
    | aes256Gcm =>
        obtain ⟨key, hkey, h⟩ := bind_eq_ok_iff.mp h
        split at h
        · cases h
        · rw [mapError_eq_ok_iff, AesGcm.decrypt_eq_ok_iff] at h
          refine .aes256Gcm (okOr_eq_ok_iff.mp hkey) ?_ h
          rw [hdecode, List.take_append_drop]
  · intro h
    cases h with
    | plain hdecode => exact ⟨plaintext, hdecode, rfl⟩
    | @aes256Gcm key nonce ciphertextAndTag hkey hdecode hdecrypt =>
        have hsealed := c.aesGcm.length_of_decrypt hdecrypt
        have hnonce := nonce.property
        have hlong : ¬(nonce.val ++ ciphertextAndTag).length < 12 + 16 := by
          rw [List.length_append]
          omega
        refine ⟨nonce.val ++ ciphertextAndTag, hdecode, ?_⟩
        simp only [hkey, okOr, ok_bind, dif_neg hlong]
        rw [mapError_eq_ok_iff, AesGcm.decrypt_eq_ok_iff]
        simp only [List.take_left' hnonce, List.drop_left' hnonce]
        exact hdecrypt

theorem finish_of_spells {c : Crates} {plaintext : List UInt8}
    {payload : DataPayload (LicenseResource c.json)} {nowUnix : Int64}
    (h : Spells c.json (licenseResource c.json) plaintext payload) :
    finish c plaintext nowUnix = (enforceExp c.json payload.«meta» nowUnix).map
      fun _ => { license := payload.data, claims := payload.«meta» } := by
  have hread : c.json.fromSlice "license_file::DataPayload"
      (dataPayload (licenseResource c.json)) plaintext = .ok payload :=
    fromSlice_eq_ok_iff_spells.mpr h
  simp only [finish, hread, Except.mapError, ok_bind]
  cases enforceExp c.json payload.«meta» nowUnix <;> rfl

theorem finish_eq_ok_iff {c : Crates} {plaintext : List UInt8} {nowUnix : Int64}
    {verified : VerifiedLicenseFile c.json} :
    finish c plaintext nowUnix = .ok verified ↔
      Spells c.json (licenseResource c.json) plaintext
          { data := verified.license, «meta» := verified.claims } ∧
        ¬Expired verified.claims nowUnix := by
  constructor
  · intro h
    obtain ⟨payload, hread, h⟩ := bind_eq_ok_iff.mp h
    obtain ⟨⟨⟩, hexp, h⟩ := bind_eq_ok_iff.mp h
    obtain rfl := Except.ok.inj h
    rw [mapError_eq_ok_iff, fromSlice_eq_ok_iff_spells] at hread
    exact ⟨hread, enforceExp_eq_ok_iff.mp hexp⟩
  · rintro ⟨hread, hexp⟩
    rw [finish_of_spells hread, enforceExp_of_not_expired hexp]
    rfl

theorem verifyLicenseFileAt_eq_ok_iff {c : Crates} {pem : String} {key : Octets 32}
    {licenseKey : Option String} {nowUnix : Int64}
    {verified : VerifiedLicenseFile c.json} :
    verifyLicenseFileAt c pem key licenseKey nowUnix = .ok verified ↔
      ∃ cert encoding signature plaintext,
        Accepted c pem key licenseKey nowUnix verified cert encoding signature
          plaintext := by
  rw [verifyLicenseFileAt_eq_verify, verify_eq_ok_iff]
  simp only [signedPart_eq_ok_iff, checkKey_eq_ok_iff, openPayload,
    decodePlaintext_eq_ok_iff, finish_eq_ok_iff, validateAlg_eq_ok_iff_algName]
  constructor
  · rintro ⟨file, plaintext, ⟨hcert, halg, hsig⟩, hsigned, hopened, hpayload, hexp⟩
    exact ⟨file.cert, file.encoding, file.signature, plaintext,
      parseEnvelope_eq_ok_iff.mp hcert, halg, hsig, hsigned, hopened, hpayload, hexp⟩
  · rintro ⟨cert, encoding, signature, plaintext, h⟩
    exact ⟨{ cert, encoding, signature }, plaintext,
      ⟨parseEnvelope_eq_ok_iff.mpr h.envelope, h.alg, h.sig⟩, h.signed, h.opened,
      h.payload, h.unexpired⟩

/-- The signature of a licence file was reached, and `key` accepts it. -/
def SignatureVerified (c : Crates) (pem : String) (key : Octets 32) : Prop :=
  ∃ cert encoding, parseEnvelope c pem = .ok cert ∧
    validateAlg c.json cert.alg = .ok encoding ∧ verifySignature c key cert = .ok ()

theorem checked_iff {c : Crates} {pem : String} {key : Octets 32} :
    Checked (signedPart c pem) (checkKey c key) ↔ SignatureVerified c pem key := by
  simp only [Checked, signedPart_eq_ok_iff, checkKey_eq_ok_iff,
    SignatureVerified, verifySignature, bind_eq_ok_iff, decodeSignature,
    okOr_eq_ok_iff, mapError_eq_ok_iff]
  constructor
  · rintro ⟨file, ⟨hcert, halg, hsig⟩, hcheck⟩
    exact ⟨file.cert, file.encoding, hcert, halg, file.signature, hsig, hcheck⟩
  · rintro ⟨cert, encoding, hcert, halg, signature, hsig, hcheck⟩
    exact ⟨{ cert, encoding, signature }, ⟨hcert, halg, hsig⟩, hcheck⟩

theorem verifyLicenseFileWithKeySetAt_eq_ok_iff {c : Crates} {pem : String}
    {keys : SigningKeySet} {licenseKey : Option String} {nowUnix : Int64}
    {verified : VerifiedLicenseFile c.json} :
    verifyLicenseFileWithKeySetAt c pem keys licenseKey nowUnix = .ok verified ↔
      ∃ key ∈ keys.keys, verifyLicenseFileAt c pem key licenseKey nowUnix =
        .ok verified := by
  rw [verifyLicenseFileWithKeySetAt_eq_verifyAny,
    verifyAny_eq_ok_iff (exact_searchSet c keys) fun _ => Iff.rfl]
  simp only [verifyLicenseFileAt_eq_verify]

theorem verifyLicenseFileWithKeySetAt_eq_single {c : Crates} {pem : String}
    {keys : SigningKeySet} {key : Octets 32} (hkey : key ∈ keys.keys)
    (hverified : SignatureVerified c pem key) (licenseKey : Option String)
    (nowUnix : Int64) :
    verifyLicenseFileWithKeySetAt c pem keys licenseKey nowUnix =
      verifyLicenseFileAt c pem key licenseKey nowUnix := by
  rw [verifyLicenseFileWithKeySetAt_eq_verifyAny, verifyLicenseFileAt_eq_verify]
  exact verifyAny_eq_verify (exact_searchSet c keys) (fun _ => Iff.rfl) hkey
    (checked_iff.mpr hverified)

end Tamga.LicenseFile
