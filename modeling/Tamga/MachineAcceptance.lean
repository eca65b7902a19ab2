import Tamga.MachineFile

namespace Tamga.MachineFile

open Library.Prelude
open Library.SignedFile
open Library.Text
open Tamga.Crypto
open Tamga.Dependencies
open Tamga.Envelope
open Tamga.Errors
open Tamga.KeySet
open Tamga.Models
open Tamga.SignatureStage

/-- The layouts of `enc`: base64 of the payload, or base64 of the nonce, a dot
and base64 of `ciphertext ‖ tag`. -/
inductive Opens (c : Crates) (licenseKey fingerprint : Option String) (enc : String)
    (plaintext : List UInt8) : EncEncoding → Prop
  | plain (hdecode : c.base64.decode enc = some plaintext) :
      Opens c licenseKey fingerprint enc plaintext .plain
  | aes256Gcm {key fp nonceB64 cipherB64 : String} {nonce : Octets 12}
      {ciphertextAndTag : List UInt8}
      (hkey : licenseKey = some key) (hfp : fingerprint = some fp)
      (henc : enc = nonceB64 ++ "." ++ cipherB64)
      (hnonce : c.base64.decode nonceB64 = some nonce.val)
      (hcipher : c.base64.decode cipherB64 = some ciphertextAndTag)
      (hdecrypt : c.aesGcm.decrypt (Hkdf.deriveMachineFileKey c key fp) nonce
        ciphertextAndTag = some plaintext) :
      Opens c licenseKey fingerprint enc plaintext .aes256Gcm

inductive SchemeAccepts (c : Crates) (pubkey message signature : List UInt8) :
    LicenseScheme → Prop
  | ed25519Sign {key : Octets 32} (hkey : pubkey = key.val)
      (h : Ed25519.verify c key message signature = .ok ()) :
      SchemeAccepts c pubkey message signature .ed25519Sign
  | rsa2048Pkcs1Sign (h : Rsa.verifyPkcs1 c pubkey message signature = .ok ()) :
      SchemeAccepts c pubkey message signature .rsa2048Pkcs1Sign
  | rsa2048Pkcs1PssSign (h : Rsa.verifyPss c pubkey message signature = .ok ()) :
      SchemeAccepts c pubkey message signature .rsa2048Pkcs1PssSign
  | ecdsaP256Sign (h : Ecdsa.verify c pubkey message signature = .ok ()) :
      SchemeAccepts c pubkey message signature .ecdsaP256Sign

/-- Everything that the acceptance of a machine file under a scheme and its
`pubkey` stands on. -/
structure Accepted (c : Crates) (pem : String) (scheme : LicenseScheme)
    (pubkey : List UInt8) (licenseKey fingerprint : Option String) (nowUnix : Int64)
    (verified : VerifiedMachineFile c.json) (cert : CertPayload)
    (encoding : EncEncoding) (signature plaintext : List UInt8) : Prop where
  envelope : Enveloped c pemHeader pemFooter pem cert
  alg : cert.alg = algName encoding (schemeAlgSuffix scheme)
  sig : c.base64.decode cert.sig = some signature
  signed : SchemeAccepts c pubkey (asBytes cert.enc) signature scheme
  opened : Opens c licenseKey fingerprint cert.enc plaintext encoding
  payload : Spells c.json (machineResource c.json) plaintext
    { data := verified.machine, «meta» := verified.claims }
  unexpired : ¬Expired verified.claims nowUnix

theorem toList_algName (encoding : EncEncoding) (signingSuffix : String) :
    (algName encoding signingSuffix).toList =
      encoding.name.toList ++ '+' :: (signingSuffix.toList ++ '+' :: "v2".toList) := by
  simp only [algName, String.toList_append, List.append_assoc]
  rfl

theorem parseAlg_algName {J : SerdeJson} {encoding : EncEncoding}
    {signingSuffix : String} (hne : signingSuffix ≠ "")
    (hplus : '+' ∉ signingSuffix.toList) :
    parseAlg J (algName encoding signingSuffix) = .ok (encoding, signingSuffix) := by
  have hfirst : splitOnce (algName encoding signingSuffix) '+' =
      some (encoding.name, signingSuffix ++ "+v2") := by
    rw [splitOnce_eq_some_iff, toList_algName, String.toList_append]
    refine ⟨rfl, ?_⟩
    cases encoding <;> decide
  have hlast : rsplitOnce (signingSuffix ++ "+v2") '+' = some (signingSuffix, "v2") := by
    rw [rsplitOnce_eq_some_iff, String.toList_append]
    exact ⟨rfl, by decide⟩
  have hversion : ¬"v2" ≠ algVersionMarker := by decide
  simp only [parseAlg, hfirst, hlast, okOr, ok_bind, if_neg hversion, hne, hplus,
    or_self, if_false]
  cases encoding <;> rfl

/-- The grammar of `alg` is exact: one spelling for each encoding and suffix. -/
theorem parseAlg_eq_ok_iff {J : SerdeJson} {alg signingSuffix : String}
    {encoding : EncEncoding} :
    parseAlg J alg = .ok (encoding, signingSuffix) ↔
      signingSuffix ≠ "" ∧ '+' ∉ signingSuffix.toList ∧
        alg = algName encoding signingSuffix := by
  constructor
  · intro h
    obtain ⟨⟨word, rest⟩, hfirst, h⟩ := bind_eq_ok_iff.mp h
    obtain ⟨⟨middle, version⟩, hlast, h⟩ := bind_eq_ok_iff.mp h
    rw [okOr_eq_ok_iff, splitOnce_eq_some_iff] at hfirst
    rw [okOr_eq_ok_iff, rsplitOnce_eq_some_iff] at hlast
    dsimp only at h
    split at h
    · cases h
    · rename_i hversion
      rw [not_not] at hversion
      split at h
      · cases h
      · rename_i hmiddle
        rw [not_or] at hmiddle
        have hnamed : word = encoding.name ∧ middle = signingSuffix := by
          split at h <;> cases h <;> exact ⟨rfl, rfl⟩
        obtain ⟨rfl, rfl⟩ := hnamed
        refine ⟨hmiddle.1, hmiddle.2, ?_⟩
        rw [← String.toList_inj, toList_algName, hfirst.1, hlast.1, hversion]
        rfl
  · rintro ⟨hne, hplus, rfl⟩
    exact parseAlg_algName hne hplus

theorem parseAlg_eq_ok_iff_of_scheme {J : SerdeJson} {alg : String}
    {encoding : EncEncoding} (scheme : LicenseScheme) :
    parseAlg J alg = .ok (encoding, schemeAlgSuffix scheme) ↔
      alg = algName encoding (schemeAlgSuffix scheme) := by
  have hsuffix : schemeAlgSuffix scheme ≠ "" ∧
      '+' ∉ (schemeAlgSuffix scheme).toList := by
    cases scheme <;> decide
  rw [parseAlg_eq_ok_iff]
  exact ⟨fun h => h.2.2, fun h => ⟨hsuffix.1, hsuffix.2, h⟩⟩

theorem verifySignature_eq_ok_iff {c : Crates} {scheme : LicenseScheme}
    {pubkey message signature : List UInt8} :
    verifySignature c scheme pubkey message signature = .ok () ↔
      SchemeAccepts c pubkey message signature scheme := by
  constructor
  · intro h
    cases scheme with
    | ed25519Sign =>
        obtain ⟨key, hkey, h⟩ := bind_eq_ok_iff.mp h
        rw [okOr_eq_ok_iff, tryInto_eq_some_iff] at hkey
        exact .ed25519Sign hkey (mapError_eq_ok_iff.mp h)
    | rsa2048Pkcs1Sign => exact .rsa2048Pkcs1Sign (mapError_eq_ok_iff.mp h)
    | rsa2048Pkcs1PssSign => exact .rsa2048Pkcs1PssSign (mapError_eq_ok_iff.mp h)
    | ecdsaP256Sign => exact .ecdsaP256Sign (mapError_eq_ok_iff.mp h)
    | rsa2048JwtRs256 => cases h
  · intro h
    cases h with
    | ed25519Sign hkey h =>
        exact bind_eq_ok_iff.mpr
          ⟨_, okOr_eq_ok_iff.mpr (tryInto_eq_some_iff.mpr hkey), mapError_eq_ok_iff.mpr h⟩
    | rsa2048Pkcs1Sign h => exact mapError_eq_ok_iff.mpr h
    | rsa2048Pkcs1PssSign h => exact mapError_eq_ok_iff.mpr h
    | ecdsaP256Sign h => exact mapError_eq_ok_iff.mpr h

/-- The text of a refusal has no part in what passes. -/
theorem signedPart_eq_ok_iff {c : Crates} {scheme : LicenseScheme}
    {mismatch : String → String → String} {pem : String} {file : SignedPart} :
    signedPart c (schemeAlgSuffix scheme) mismatch pem = .ok file ↔
      parseEnvelope c pem = .ok file.cert ∧
        parseAlg c.json file.cert.alg = .ok (file.encoding, schemeAlgSuffix scheme) ∧
          c.base64.decode file.cert.sig = some file.signature := by
  constructor
  · intro h
    obtain ⟨cert, hcert, h⟩ := bind_eq_ok_iff.mp h
    obtain ⟨⟨encoding, signingSuffix⟩, halg, h⟩ := bind_eq_ok_iff.mp h
    dsimp only at h
    split at h
    · cases h
    · rename_i hsuffix
      rw [not_not] at hsuffix
      obtain ⟨signature, hsig, h⟩ := bind_eq_ok_iff.mp h
      obtain rfl := Except.ok.inj h
      exact ⟨hcert, hsuffix ▸ halg, okOr_eq_ok_iff.mp hsig⟩
  · rintro ⟨hcert, halg, hsig⟩
    simp only [signedPart, hcert, halg, ok_bind, ne_eq, not_true_eq_false, if_false]
    rw [decodeSignature, hsig]
    rfl

theorem decodePlaintext_eq_ok_iff {c : Crates} {cert : CertPayload}
    {encoding : EncEncoding} {licenseKey fingerprint : Option String}
    {plaintext : List UInt8} :
    decodePlaintext c cert encoding licenseKey fingerprint = .ok plaintext ↔
      Opens c licenseKey fingerprint cert.enc plaintext encoding := by
  constructor
  · intro h
    cases encoding with
    | plain => exact .plain (okOr_eq_ok_iff.mp h)
    | aes256Gcm =>
        obtain ⟨key, hkey, h⟩ := bind_eq_ok_iff.mp h
        obtain ⟨fp, hfp, h⟩ := bind_eq_ok_iff.mp h
        obtain ⟨⟨nonceB64, cipherB64⟩, hsplit, h⟩ := bind_eq_ok_iff.mp h
        obtain ⟨nonceBytes, hnonceB64, h⟩ := bind_eq_ok_iff.mp h
        obtain ⟨nonce, hnonce, h⟩ := bind_eq_ok_iff.mp h
        obtain ⟨ciphertextAndTag, hcipher, h⟩ := bind_eq_ok_iff.mp h
        rw [okOr_eq_ok_iff] at hkey hfp hsplit hnonceB64 hnonce hcipher
        rw [tryInto_eq_some_iff] at hnonce
        rw [splitOnce_eq_some_iff] at hsplit
        have henc : cert.enc = nonceB64 ++ "." ++ cipherB64 := by
          rw [← String.toList_inj, hsplit.1, String.toList_append, String.toList_append,
            List.append_assoc]
          rfl
        split at h
        · cases h
        · have hdecrypt := AesGcm.decrypt_eq_ok_iff.mp (mapError_eq_ok_iff.mp h)
          exact .aes256Gcm hkey hfp henc (hnonce ▸ hnonceB64) hcipher hdecrypt
  · intro h
    cases h with
    | plain hdecode => exact okOr_eq_ok_iff.mpr hdecode
    | @aes256Gcm key fp nonceB64 cipherB64 nonce ciphertextAndTag hkey hfp henc
        hnonce hcipher hdecrypt =>
        have hdot := c.base64.not_mem_of_decode (c := '.') hnonce (by decide)
        have hsplit : splitOnce cert.enc '.' = some (nonceB64, cipherB64) := by
          refine splitOnce_eq_some_iff.mpr ⟨?_, hdot⟩
          rw [henc, String.toList_append, String.toList_append, List.append_assoc]
          rfl
        have htry : tryInto nonceLen nonce.val = some nonce :=
          tryInto_eq_some_iff.mpr rfl
        have hlong : ¬ciphertextAndTag.length < gcmTagLen := by
          rw [c.aesGcm.length_of_decrypt hdecrypt, gcmTagLen]
          omega
        simp only [decodePlaintext, hkey, hfp, hsplit, hnonce, hcipher, htry, okOr,
          ok_bind, if_neg hlong]
        exact mapError_eq_ok_iff.mpr (AesGcm.decrypt_eq_ok_iff.mpr hdecrypt)

theorem finish_of_spells {c : Crates} {plaintext : List UInt8}
    {payload : DataPayload (MachineResource c.json)} {nowUnix : Int64}
    (h : Spells c.json (machineResource c.json) plaintext payload) :
    finish c plaintext nowUnix = (enforceExp c.json payload.«meta» nowUnix).map
      fun _ => { machine := payload.data, claims := payload.«meta» } := by
  have hread : c.json.fromSlice "machine_file::DataPayload"
      (dataPayload (machineResource c.json)) plaintext = .ok payload :=
    fromSlice_eq_ok_iff_spells.mpr h
  simp only [finish, hread, Except.mapError, ok_bind]
  cases enforceExp c.json payload.«meta» nowUnix <;> rfl

theorem finish_eq_ok_iff {c : Crates} {plaintext : List UInt8} {nowUnix : Int64}
    {verified : VerifiedMachineFile c.json} :
    finish c plaintext nowUnix = .ok verified ↔
      Spells c.json (machineResource c.json) plaintext
          { data := verified.machine, «meta» := verified.claims } ∧
        ¬Expired verified.claims nowUnix := by
  constructor
  · intro h
    obtain ⟨payload, hread, h⟩ := bind_eq_ok_iff.mp h
    obtain ⟨⟨⟩, hexp, h⟩ := bind_eq_ok_iff.mp h
    obtain rfl := Except.ok.inj h
    rw [mapError_eq_ok_iff, fromSlice_eq_ok_iff_spells] at hread
    exact ⟨hread, enforceExp_eq_ok_iff.mp hexp⟩
  · rintro ⟨hread, hexp⟩
    rw [finish_of_spells hread, enforceExp_of_not_expired hexp]
    rfl

theorem verifyMachineFileAt_eq_ok_iff {c : Crates} {pem : String}
    {scheme : LicenseScheme} {pubkey : List UInt8}
    {licenseKey fingerprint : Option String} {nowUnix : Int64}
    {verified : VerifiedMachineFile c.json} :
    verifyMachineFileAt c pem scheme pubkey licenseKey fingerprint nowUnix =
        .ok verified ↔
      ∃ cert encoding signature plaintext,
        Accepted c pem scheme pubkey licenseKey fingerprint nowUnix verified cert
          encoding signature plaintext := by
  by_cases hscheme : scheme = .rsa2048JwtRs256
  · subst hscheme
    constructor
    · intro h
      cases h
    · rintro ⟨cert, encoding, signature, plaintext, h⟩
      cases h.signed
  rw [verifyMachineFileAt_eq_verify c pem hscheme, verify_eq_ok_iff]
  simp only [signedPart_eq_ok_iff, checkScheme, verifySignature_eq_ok_iff, openPayload,
    decodePlaintext_eq_ok_iff, finish_eq_ok_iff, parseAlg_eq_ok_iff_of_scheme]
  constructor
  · rintro ⟨file, plaintext, ⟨hcert, halg, hsig⟩, hsigned, hopened, hpayload, hexp⟩
    exact ⟨file.cert, file.encoding, file.signature, plaintext,
      parseEnvelope_eq_ok_iff.mp hcert, halg, hsig, hsigned, hopened, hpayload, hexp⟩
  · rintro ⟨cert, encoding, signature, plaintext, h⟩
    exact ⟨{ cert, encoding, signature }, plaintext,
      ⟨parseEnvelope_eq_ok_iff.mpr h.envelope, h.alg, h.sig⟩, h.signed, h.opened,
      h.payload, h.unexpired⟩

/-- The signature of a machine file was reached under a scheme, and its
primitive accepts it with `pubkey`. -/
def SignatureVerified (c : Crates) (pem : String) (scheme : LicenseScheme)
    (pubkey : List UInt8) : Prop :=
  ∃ cert encoding sigBytes, parseEnvelope c pem = .ok cert ∧
    parseAlg c.json cert.alg = .ok (encoding, schemeAlgSuffix scheme) ∧
    decodeSignature c cert = .ok sigBytes ∧
    verifySignature c scheme pubkey (asBytes cert.enc) sigBytes = .ok ()

theorem checked_iff {c : Crates} {pem : String} {scheme : LicenseScheme}
    {pubkey : List UInt8} (mismatch : String → String → String) :
    Checked (signedPart c (schemeAlgSuffix scheme) mismatch pem)
        (checkScheme c scheme pubkey) ↔
      SignatureVerified c pem scheme pubkey := by
  simp only [Checked, signedPart_eq_ok_iff, checkScheme, SignatureVerified,
    decodeSignature, okOr_eq_ok_iff]
  constructor
  · rintro ⟨file, ⟨hcert, halg, hsig⟩, hcheck⟩
    exact ⟨file.cert, file.encoding, file.signature, hcert, halg, hsig, hcheck⟩
  · rintro ⟨cert, encoding, signature, hcert, halg, hsig, hcheck⟩
    exact ⟨{ cert, encoding, signature }, ⟨hcert, halg, hsig⟩, hcheck⟩

/-- The two paths take in the same files, and differ in the words with which
they refuse a foreign suffix. -/
theorem signedPart_same {c : Crates} {scheme : LicenseScheme}
    (mismatch mismatch' : String → String → String) (pem : String) (file : SignedPart) :
    signedPart c (schemeAlgSuffix scheme) mismatch pem = .ok file ↔
      signedPart c (schemeAlgSuffix scheme) mismatch' pem = .ok file :=
  signedPart_eq_ok_iff.trans signedPart_eq_ok_iff.symm

theorem checkScheme_ed25519Sign (c : Crates) (key : Octets 32) :
    checkScheme c .ed25519Sign key.val = checkKey c key := by
  funext file
  have htry : tryInto 32 key.val = some key := tryInto_eq_some_iff.mpr rfl
  simp only [checkScheme, verifySignature, htry, okOr, ok_bind, checkKey]

theorem verifyMachineFileAt_ed25519_eq_verify (c : Crates) (pem : String)
    (key : Octets 32) (licenseKey fingerprint : Option String) (nowUnix : Int64) :
    verifyMachineFileAt c pem .ed25519Sign key.val licenseKey fingerprint nowUnix =
      verify (signedPart c (schemeAlgSuffix .ed25519Sign) (schemeMismatch c) pem)
        (checkKey c key) (openPayload c licenseKey fingerprint)
        fun plaintext => finish c plaintext nowUnix := by
  rw [verifyMachineFileAt_eq_verify c pem (by decide), checkScheme_ed25519Sign]

theorem verifyMachineFileWithKeySetAt_eq_ok_iff {c : Crates} {pem : String}
    {keys : SigningKeySet} {licenseKey fingerprint : Option String} {nowUnix : Int64}
    {verified : VerifiedMachineFile c.json} :
    verifyMachineFileWithKeySetAt c pem keys licenseKey fingerprint nowUnix =
        .ok verified ↔
      ∃ key ∈ keys.keys,
        verifyMachineFileAt c pem .ed25519Sign key.val licenseKey fingerprint nowUnix =
          .ok verified := by
  rw [verifyMachineFileWithKeySetAt_eq_verifyAny,
    verifyAny_eq_ok_iff (exact_searchSet c keys)
      (signedPart_same (keySetMismatch c) (schemeMismatch c) pem)]
  simp only [verifyMachineFileAt_ed25519_eq_verify]

theorem verifyMachineFileWithKeySetAt_eq_single {c : Crates} {pem : String}
    {keys : SigningKeySet} {key : Octets 32} (hkey : key ∈ keys.keys)
    (hverified : SignatureVerified c pem .ed25519Sign key.val)
    (licenseKey fingerprint : Option String) (nowUnix : Int64) :
    verifyMachineFileWithKeySetAt c pem keys licenseKey fingerprint nowUnix =
      verifyMachineFileAt c pem .ed25519Sign key.val licenseKey fingerprint nowUnix := by
  rw [verifyMachineFileWithKeySetAt_eq_verifyAny, verifyMachineFileAt_ed25519_eq_verify]
  refine verifyAny_eq_verify (exact_searchSet c keys)
    (signedPart_same (keySetMismatch c) (schemeMismatch c) pem) hkey ?_
  rw [← checkScheme_ed25519Sign]
  exact (checked_iff (schemeMismatch c)).mpr hverified

end Tamga.MachineFile
