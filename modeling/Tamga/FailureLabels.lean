import Tamga.KeySetRefinement
import Tamga.ServerFiles

namespace Tamga.FailureLabels

open Library.Prelude
open Library.Serde
open Library.SignedFile
open Tamga.Crypto
open Tamga.Dependencies
open Tamga.Envelope
open Tamga.Errors
open Tamga.KeySet
open Tamga.MachineFile (schemeAlgSuffix)
open Tamga.Models
open Tamga.PayloadJson
open Tamga.ServerFiles
open Tamga.SignatureStage
open Tamga.TableCrates

/-- A signature of the wrong length, with a key at hand to notice it. -/
def Malformed (c : Crates) (keys : SigningKeySet) (signature : List UInt8) : Prop :=
  signature.length ≠ 64 ∧ ∃ key ∈ keys.keys, Ed25519.Usable c key

/-- The error for a signature that no held key has made, where `opened` is the
outcome of opening `enc`.  Each of the five labels has its own condition. -/
structure ExactLabel (c : Crates) (keys : SigningKeySet) (signature : List UInt8)
    (opened : Except (CheckoutError c.json) (List UInt8)) (e : CheckoutError c.json) :
    Prop where
  invalidSignature : e = .crypto .invalidSignature ↔ Malformed c keys signature
  licenseKeyMissing : ¬Malformed c keys signature →
    (e = .licenseKeyMissing ↔ opened = .error .licenseKeyMissing)
  fingerprintMissing : ¬Malformed c keys signature →
    (e = .fingerprintMissing ↔ opened = .error .fingerprintMissing)
  unknownSigningKey : ¬Malformed c keys signature → ∀ kid,
    (e = .unknownSigningKey kid ↔ ∃ plaintext, opened = .ok plaintext ∧
      probeKid c plaintext = .ok kid ∧ kid ∉ keys.kids)
  otherwise : e ≠ .crypto .invalidSignature → e ≠ .licenseKeyMissing →
    e ≠ .fingerprintMissing → (∀ kid, e ≠ .unknownSigningKey kid) →
      e = .crypto .verificationFailed

theorem exactLabel_of_malformed {c : Crates} {keys : SigningKeySet}
    {signature : List UInt8} (h : Malformed c keys signature)
    (opened : Except (CheckoutError c.json) (List UInt8)) :
    ExactLabel c keys signature opened (.crypto .invalidSignature) where
  invalidSignature := ⟨fun _ => h, fun _ => rfl⟩
  licenseKeyMissing hformed := absurd h hformed
  fingerprintMissing hformed := absurd h hformed
  unknownSigningKey hformed := absurd h hformed
  otherwise hne := absurd rfl hne

theorem exactLabel_labelFailure {c : Crates} {keys : SigningKeySet}
    {signature : List UInt8} (h : ¬Malformed c keys signature)
    (opened : Except (CheckoutError c.json) (List UInt8)) :
    ExactLabel c keys signature opened (labelFailure c keys opened) := by
  rcases labelFailure_cases c keys opened with ⟨hopened, hlabel⟩ | ⟨hopened, hlabel⟩ |
    ⟨plaintext, kid, hopened, hkid, hheld, hlabel⟩ | ⟨hkey, hfp, hkid, hlabel⟩
  · rw [hlabel, hopened]
    constructor <;> simp [h]
  · rw [hlabel, hopened]
    constructor <;> simp [h]
  · rw [hlabel, hopened]
    constructor <;> simp [h]
    rintro other
    constructor
    · rintro rfl
      exact ⟨hkid, hheld⟩
    · rintro ⟨hother, -⟩
      exact Except.ok.inj (hkid.symm.trans hother)
  · rw [hlabel]
    constructor <;> simp [h, hkey, hfp]
    intro kid plaintext hopened hprobe
    by_contra hheld
    exact hkid ⟨plaintext, kid, hopened, hprobe, hheld⟩

/-- The label depends on a set through the kids it holds. -/
theorem labelFailure_congr {c : Crates} {keys keys' : SigningKeySet}
    (hkids : ∀ kid, kid ∈ keys.kids ↔ kid ∈ keys'.kids)
    (opened : Except (CheckoutError c.json) (List UInt8)) :
    labelFailure c keys opened = labelFailure c keys' opened := by
  have hfind : ∀ kid, (keys.find kid).isSome = (keys'.find kid).isSome := by
    intro kid
    rw [Bool.eq_iff_iff, find_isSome_iff, find_isSome_iff]
    exact hkids kid
  simp only [labelFailure, hfind]

section Search

variable {c : Crates} {keys : SigningKeySet}
  {signed : Except (CheckoutError c.json) SignedPart} {file : SignedPart}
  {Verdict : Type}
  {openPayload : SignedPart → Except (CheckoutError c.json) (List UInt8)}
  {finish : List UInt8 → Except (CheckoutError c.json) Verdict}

theorem verifyAny_of_malformed (hsigned : signed = .ok file)
    (h : Malformed c keys file.signature) :
    verifyAny signed (searchSet c keys) openPayload finish (labelFailure c keys) =
      .error (.crypto .invalidSignature) := by
  obtain ⟨hlength, key, hkey, husable⟩ := h
  apply verifyAny_of_search_error hsigned
  rw [searchSet, findVerifyingKey, searchKeys_of_malformed c hkey husable hlength]
  rfl

theorem verifyAny_of_not_malformed (hsigned : signed = .ok file)
    (hnone : ∀ key ∈ keys.keys,
      Ed25519.verify c key (asBytes file.cert.enc) file.signature ≠ .ok ())
    (h : ¬Malformed c keys file.signature) :
    verifyAny signed (searchSet c keys) openPayload finish (labelFailure c keys) =
      .error (labelFailure c keys (openPayload file)) := by
  apply verifyAny_of_none hsigned
  rw [searchSet, findVerifyingKey, searchKeys_eq_none c hnone h]
  rfl

/-- One label for the file, whatever the order of the entries and the payload's
verdict. -/
theorem exists_exactLabel
    (openPayload : SignedPart → Except (CheckoutError c.json) (List UInt8))
    (hsigned : signed = .ok file)
    (hnone : ∀ key ∈ keys.keys,
      Ed25519.verify c key (asBytes file.cert.enc) file.signature ≠ .ok ()) :
    ∃ e, ExactLabel c keys file.signature (openPayload file) e ∧
      ∀ {Verdict : Type} (keys' : SigningKeySet)
        (finish : List UInt8 → Except (CheckoutError c.json) Verdict),
        keys.entries.Perm keys'.entries →
          verifyAny signed (searchSet c keys') openPayload finish
            (labelFailure c keys') = .error e := by
  have hkeys : ∀ {keys' : SigningKeySet}, keys.entries.Perm keys'.entries →
      ∀ key, key ∈ keys'.keys ↔ key ∈ keys.keys := by
    intro keys' hperm key
    exact (hperm.map Prod.snd).mem_iff.symm
  by_cases h : Malformed c keys file.signature
  · refine ⟨_, exactLabel_of_malformed h _, ?_⟩
    intro _ keys' finish hperm
    obtain ⟨hlength, key, hkey, husable⟩ := h
    exact verifyAny_of_malformed hsigned
      ⟨hlength, key, (hkeys hperm key).mpr hkey, husable⟩
  · refine ⟨_, exactLabel_labelFailure h _, ?_⟩
    intro _ keys' finish hperm
    have hkids : ∀ kid, kid ∈ keys.kids ↔ kid ∈ keys'.kids :=
      fun kid => (hperm.map Prod.fst).mem_iff
    rw [labelFailure_congr hkids]
    apply verifyAny_of_not_malformed hsigned
    · intro key hkey
      exact hnone key ((hkeys hperm key).mp hkey)
    · rintro ⟨hlength, key, hkey, husable⟩
      exact h ⟨hlength, key, (hkeys hperm key).mp hkey, husable⟩

end Search

/-- A file that passes the envelope, the `alg` gate and the base64 of `sig`, and
that no held key has signed, gets exactly one label.  The time and the order of
the entries have no part in it. -/
theorem keySet_labels_exactly (c : Crates) :
    (∀ pem cert encoding sigBytes keys licenseKey,
      LicenseFile.parseEnvelope c pem = .ok cert →
      LicenseFile.validateAlg c.json cert.alg = .ok encoding →
      decodeSignature c cert = .ok sigBytes →
      (∀ key ∈ keys.keys, Ed25519.verify c key (asBytes cert.enc) sigBytes ≠ .ok ()) →
        ∃ e, ExactLabel c keys sigBytes
            (LicenseFile.decodePlaintext c cert encoding licenseKey) e ∧
          ∀ keys' nowUnix, keys.entries.Perm keys'.entries →
            LicenseFile.verifyLicenseFileWithKeySetAt c pem keys' licenseKey nowUnix =
              .error e) ∧
    (∀ pem cert encoding sigBytes keys licenseKey fingerprint,
      MachineFile.parseEnvelope c pem = .ok cert →
      MachineFile.parseAlg c.json cert.alg =
        .ok (encoding, schemeAlgSuffix .ed25519Sign) →
      decodeSignature c cert = .ok sigBytes →
      (∀ key ∈ keys.keys, Ed25519.verify c key (asBytes cert.enc) sigBytes ≠ .ok ()) →
        ∃ e, ExactLabel c keys sigBytes
            (MachineFile.decodePlaintext c cert encoding licenseKey fingerprint) e ∧
          ∀ keys' nowUnix, keys.entries.Perm keys'.entries →
            MachineFile.verifyMachineFileWithKeySetAt c pem keys' licenseKey fingerprint
              nowUnix = .error e) := by
  constructor
  · intro pem cert encoding sigBytes keys licenseKey hcert halg hsig hnone
    have hsigned : LicenseFile.signedPart c pem = .ok ⟨cert, encoding, sigBytes⟩ :=
      LicenseFile.signedPart_eq_ok_iff.mpr ⟨hcert, halg, okOr_eq_ok_iff.mp hsig⟩
    obtain ⟨e, hlabel, hall⟩ :=
      exists_exactLabel (LicenseFile.openPayload c licenseKey) hsigned hnone
    refine ⟨e, hlabel, ?_⟩
    intro keys' nowUnix hperm
    rw [LicenseFile.verifyLicenseFileWithKeySetAt_eq_verifyAny]
    exact hall keys' _ hperm
  · intro pem cert encoding sigBytes keys licenseKey fingerprint hcert halg hsig hnone
    have hsigned : MachineFile.signedPart c (schemeAlgSuffix .ed25519Sign)
        (MachineFile.keySetMismatch c) pem = .ok ⟨cert, encoding, sigBytes⟩ :=
      MachineFile.signedPart_eq_ok_iff.mpr ⟨hcert, halg, okOr_eq_ok_iff.mp hsig⟩
    obtain ⟨e, hlabel, hall⟩ :=
      exists_exactLabel (MachineFile.openPayload c licenseKey fingerprint) hsigned hnone
    refine ⟨e, hlabel, ?_⟩
    intro keys' nowUnix hperm
    rw [MachineFile.verifyMachineFileWithKeySetAt_eq_verifyAny]
    exact hall keys' _ hperm

theorem keySet_labels_exactly_recorded :
    ∃ e, ExactLabel licenseRecording.crates { entries := [("other-kid", foreignKey)] }
        (recordedPart licenseRecording).signature
        (LicenseFile.decodePlaintext licenseRecording.crates
          (recordedPart licenseRecording).cert (recordedPart licenseRecording).encoding
          none) e ∧
      ∀ keys' nowUnix, [("other-kid", foreignKey)].Perm keys'.entries →
        LicenseFile.verifyLicenseFileWithKeySetAt licenseRecording.crates
          recordedLicensePem keys' none nowUnix = .error e := by
  obtain ⟨hcert, halg, hsig⟩ :=
    LicenseFile.signedPart_eq_ok_iff.mp (signedPart_recorded licenseRecording lines)
  refine (keySet_labels_exactly licenseRecording.crates).1 _ _ _ _ _ none hcert halg
    (okOr_eq_ok_iff.mpr hsig) ?_
  intro held hheld
  exact foreignKey_not_verifies licenseRecording rfl (by decide) hheld

/-- The payload and its `meta` are written as JSON objects. -/
def ObjectText (J : SerdeJson) (plaintext : List UInt8) : Prop :=
  ∃ members metaMembers, J.parse plaintext = some (.object members) ∧
    (some "meta", .object metaMembers) ∈ members

theorem readField_kid_of_claims {metaMembers : Members} {claims : LicenseFileClaims}
    (h : licenseFileClaims.deserialize (.object metaMembers) = some claims) :
    (∀ member ∈ metaMembers, member.1.isSome) ∧
      readField "kid" string none metaMembers = some claims.kid := by
  rw [licenseFileClaims, struct_object_iff] at h
  obtain ⟨hkeys, h⟩ := h
  obtain ⟨_, kid, hjti, hkid, rfl⟩ := Fields.next_ofMembers_iff.mp h
  obtain ⟨_, jti, hexp, -, rfl⟩ := Fields.next_ofMembers_iff.mp hjti
  obtain ⟨_, exp, hiat, -, rfl⟩ := Fields.next_ofMembers_iff.mp hexp
  obtain ⟨_, iat, hdone, -, rfl⟩ := Fields.next_ofMembers_iff.mp hiat
  obtain rfl := Option.some.inj hdone
  exact ⟨hkeys, hkid⟩

theorem probeKid_of_spells {c : Crates} {R : Type} {resource : Deserialize R}
    {plaintext : List UInt8} {payload : DataPayload R}
    (hspells : Spells c.json resource plaintext payload)
    (hobject : ObjectText c.json plaintext) :
    probeKid c plaintext = .ok payload.«meta».kid := by
  obtain ⟨members, metaMembers, hparse, hmeta⟩ := hobject
  obtain ⟨document, hdocument, hread⟩ := hspells
  obtain rfl := Option.some.inj (hdocument.symm.trans hparse)
  obtain ⟨hkeys, -, hclaims⟩ := dataPayload_object_iff.mp hread
  obtain ⟨honly, hclaims⟩ := occurrences_eq_of_readField hclaims hmeta
  obtain ⟨hmetaKeys, hkid⟩ := readField_kid_of_claims hclaims
  have hprobe : kidProbe.deserialize (.object members) =
      some payload.«meta».kid := by
    rw [kidProbe, struct_object_iff]
    refine ⟨hkeys, Fields.next_ofMembers_iff.mpr ⟨id, _, rfl, ?_, rfl⟩⟩
    refine readField_eq_some_iff.mpr (Or.inr ⟨.object metaMembers, honly, ?_⟩)
    rw [struct_object_iff]
    exact ⟨hmetaKeys, Fields.next_ofMembers_iff.mpr ⟨id, _, rfl, hkid, rfl⟩⟩
  rw [probeKid, mapError_eq_ok_iff, SerdeJson.fromSlice_eq_ok_iff]
  exact ⟨.object members, hparse, hprobe⟩

/-- The answer to a file of another key: a stale set, or a forgery. -/
def rotationError {J : SerdeJson} (keys : SigningKeySet) (kid : String) :
    CheckoutError J :=
  if kid ∈ keys.kids then .crypto .verificationFailed else .unknownSigningKey kid

theorem labelFailure_of_probe {c : Crates} {keys : SigningKeySet}
    {plaintext : List UInt8} {kid : String} (h : probeKid c plaintext = .ok kid) :
    labelFailure c keys (.ok plaintext) = rotationError keys kid := by
  simp only [labelFailure, h, rotationError, find_isSome_iff]

section Rotation

variable {c : Crates} {keys : SigningKeySet}
  {signed : Except (CheckoutError c.json) SignedPart} {file : SignedPart}
  {Verdict R : Type} {openPayload : SignedPart → Except (CheckoutError c.json) (List UInt8)}
  {finish : List UInt8 → Except (CheckoutError c.json) Verdict}

theorem verifyAny_of_rotation {key : Octets 32} {plaintext : List UInt8}
    {resource : Deserialize R} {payload : DataPayload R} (hsigned : signed = .ok file)
    (hverify : Ed25519.verify c key (asBytes file.cert.enc) file.signature = .ok ())
    (hnone : ∀ key ∈ keys.keys,
      Ed25519.verify c key (asBytes file.cert.enc) file.signature ≠ .ok ())
    (hopened : openPayload file = .ok plaintext)
    (hspells : Spells c.json resource plaintext payload)
    (hobject : ObjectText c.json plaintext) :
    verifyAny signed (searchSet c keys) openPayload finish (labelFailure c keys) =
      .error (rotationError keys payload.«meta».kid) := by
  have hformed : ¬Malformed c keys file.signature := by
    rintro ⟨hlength, -⟩
    exact hlength (Ed25519.length_of_verify c hverify)
  rw [verifyAny_of_not_malformed hsigned hnone hformed, hopened,
    labelFailure_of_probe (probeKid_of_spells hspells hobject)]

end Rotation

/-- What a licence file carries, when its `alg` and the licence key are right. -/
def LicenseCarries (c : Crates) (pem : String) (licenseKey : Option String)
    (plaintext : List UInt8) : Prop :=
  ∃ cert encoding, LicenseFile.parseEnvelope c pem = .ok cert ∧
    LicenseFile.validateAlg c.json cert.alg = .ok encoding ∧
    LicenseFile.decodePlaintext c cert encoding licenseKey = .ok plaintext

def MachineCarries (c : Crates) (pem : String) (licenseKey fingerprint : Option String)
    (plaintext : List UInt8) : Prop :=
  ∃ cert encoding, MachineFile.parseEnvelope c pem = .ok cert ∧
    MachineFile.parseAlg c.json cert.alg = .ok (encoding, schemeAlgSuffix .ed25519Sign) ∧
    MachineFile.decodePlaintext c cert encoding licenseKey fingerprint = .ok plaintext

theorem objectText_of_payloadJson {J : SerdeJson} {plaintext : List UInt8} {data : Json}
    {claims : LicenseFileClaims}
    (h : J.parse plaintext = some (payloadJson data claims)) :
    ObjectText J plaintext :=
  ⟨_, _, h, List.mem_cons_of_mem _ List.mem_cons_self⟩

theorem payload_of_licenseCarries {r : Recording} {plaintext : List UInt8}
    (h : LicenseCarries r.crates
      (licensePem r.crates lines (licenseText r "" zeroNonce)) none plaintext) :
    plaintext = r.payload := by
  obtain ⟨cert, encoding, hcert, halg, hopened⟩ := h
  obtain ⟨hcert', halg', -⟩ :=
    LicenseFile.signedPart_eq_ok_iff.mp (signedPart_recorded r lines)
  obtain rfl := Except.ok.inj (hcert.symm.trans hcert')
  obtain rfl := Except.ok.inj (halg.symm.trans halg')
  exact Except.ok.inj (hopened.symm.trans (decodePlaintext_recorded r))

/-- A file that is good under some key, shown to a set that lacks this key, is
labelled by the `kid` that it would have been accepted with, at any time. -/
theorem rotation_labelled_by_kid (c : Crates) :
    (∀ {R : Type} (resource : Deserialize R) plaintext payload,
      Spells c.json resource plaintext payload → ObjectText c.json plaintext →
        probeKid c plaintext = .ok payload.«meta».kid) ∧
    (∀ pem key licenseKey nowUnix verified keys,
      LicenseFile.verifyLicenseFileAt c pem key licenseKey nowUnix = .ok verified →
      (∀ plaintext, LicenseCarries c pem licenseKey plaintext →
        ObjectText c.json plaintext) →
      (∀ held ∈ keys.keys, ¬LicenseFile.SignatureVerified c pem held) →
        ∀ nowUnix', LicenseFile.verifyLicenseFileWithKeySetAt c pem keys licenseKey
          nowUnix' = .error (rotationError keys verified.claims.kid)) ∧
    (∀ pem pubkey licenseKey fingerprint nowUnix verified keys,
      MachineFile.verifyMachineFileAt c pem .ed25519Sign pubkey licenseKey fingerprint
        nowUnix = .ok verified →
      (∀ plaintext, MachineCarries c pem licenseKey fingerprint plaintext →
        ObjectText c.json plaintext) →
      (∀ held ∈ keys.keys,
        ¬MachineFile.SignatureVerified c pem .ed25519Sign held.val) →
        ∀ nowUnix', MachineFile.verifyMachineFileWithKeySetAt c pem keys licenseKey
          fingerprint nowUnix' = .error (rotationError keys verified.claims.kid)) := by
  refine ⟨?_, ?_, ?_⟩
  · intro R resource plaintext payload hspells hobject
    exact probeKid_of_spells hspells hobject
  · intro pem key licenseKey nowUnix verified keys hverified hobject hnone nowUnix'
    rw [LicenseFile.verifyLicenseFileAt_eq_verify] at hverified
    obtain ⟨file, plaintext, hsigned, hcheck, hopened, hfinish⟩ :=
      verify_eq_ok_iff.mp hverified
    obtain ⟨hspells, -⟩ := LicenseFile.finish_eq_ok_iff.mp hfinish
    obtain ⟨hcert, halg, -⟩ := LicenseFile.signedPart_eq_ok_iff.mp hsigned
    rw [LicenseFile.verifyLicenseFileWithKeySetAt_eq_verifyAny]
    refine verifyAny_of_rotation hsigned (checkKey_eq_ok_iff.mp hcheck) ?_ hopened
      hspells (hobject plaintext ⟨file.cert, file.encoding, hcert, halg, hopened⟩)
    intro held hheld hverify
    exact hnone held hheld
      (LicenseFile.checked_iff.mp ⟨file, hsigned, checkKey_eq_ok_iff.mpr hverify⟩)
  · intro pem pubkey licenseKey fingerprint nowUnix verified keys hverified hobject hnone
      nowUnix'
    rw [MachineFile.verifyMachineFileAt_eq_verify c pem (by decide)] at hverified
    obtain ⟨file, plaintext, hsigned, hcheck, hopened, hfinish⟩ :=
      verify_eq_ok_iff.mp hverified
    obtain ⟨hspells, -⟩ := MachineFile.finish_eq_ok_iff.mp hfinish
    obtain ⟨hcert, halg, -⟩ := MachineFile.signedPart_eq_ok_iff.mp hsigned
    have hset := (MachineFile.signedPart_same _ (MachineFile.keySetMismatch c) pem file).mp
      hsigned
    rw [MachineFile.checkScheme, MachineFile.verifySignature_eq_ok_iff] at hcheck
    cases hcheck with
    | ed25519Sign hpubkey hverify =>
        rw [MachineFile.verifyMachineFileWithKeySetAt_eq_verifyAny]
        refine verifyAny_of_rotation hset hverify ?_ hopened hspells
          (hobject plaintext ⟨file.cert, file.encoding, hcert, halg, hopened⟩)
        intro held hheld hverify
        apply hnone held hheld
        refine (MachineFile.checked_iff _).mp ⟨file, hsigned, ?_⟩
        rw [MachineFile.checkScheme_ed25519Sign]
        exact checkKey_eq_ok_iff.mpr hverify

theorem rotation_labelled_by_kid_recorded :
    (∀ nowUnix, LicenseFile.verifyLicenseFileWithKeySetAt licenseRecording.crates
        recordedLicensePem { entries := [("other-kid", foreignKey)] } none nowUnix =
      .error (.unknownSigningKey "test-kid")) ∧
    (∀ nowUnix, LicenseFile.verifyLicenseFileWithKeySetAt licenseRecording.crates
        recordedLicensePem { entries := [("test-kid", foreignKey)] } none nowUnix =
      .error (.crypto .verificationFailed)) := by
  have hlabel := fun kid => (rotation_labelled_by_kid licenseRecording.crates).2.1
    recordedLicensePem recordedKey none 1767312060 _ { entries := [(kid, foreignKey)] }
    verifyLicenseFileAt_recorded
    (fun plaintext hcarries => payload_of_licenseCarries hcarries ▸
      objectText_of_payloadJson licenseRecording.parse_payload)
    (fun held hheld =>
      foreignKey_not_signatureVerified licenseRecording rfl (by decide) hheld lines)
  constructor
  · exact hlabel "other-kid"
  · exact hlabel "test-kid"

end Tamga.FailureLabels
