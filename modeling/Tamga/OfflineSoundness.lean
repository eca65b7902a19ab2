import Tamga.KeySetRefinement
import Tamga.ServerFiles

namespace Tamga.OfflineSoundness

open Library.Prelude
open Library.SignedFile
open Tamga.Crypto
open Tamga.Dependencies
open Tamga.Envelope
open Tamga.Errors
open Tamga.KeySet
open Tamga.MachineFile (LicenseScheme schemeAlgSuffix)
open Tamga.ServerFiles
open Tamga.SignatureStage

/-- What any of the four entry points accepts is enveloped as its format says,
names the version and the suffix that the caller's scheme fixes, is signed under
a key that the caller holds, and spells the result, which has not run out. -/
theorem accepted_of_verified (c : Crates) :
    (∀ pem key licenseKey nowUnix verified,
      LicenseFile.verifyLicenseFileAt c pem key licenseKey nowUnix = .ok verified →
        ∃ cert encoding signature plaintext,
          LicenseFile.Accepted c pem key licenseKey nowUnix verified cert encoding
            signature plaintext) ∧
    (∀ pem keys licenseKey nowUnix verified,
      LicenseFile.verifyLicenseFileWithKeySetAt c pem keys licenseKey nowUnix =
          .ok verified →
        ∃ key ∈ keys.keys, ∃ cert encoding signature plaintext,
          LicenseFile.Accepted c pem key licenseKey nowUnix verified cert encoding
            signature plaintext) ∧
    (∀ pem scheme pubkey licenseKey fingerprint nowUnix verified,
      MachineFile.verifyMachineFileAt c pem scheme pubkey licenseKey fingerprint
          nowUnix = .ok verified →
        scheme ≠ .rsa2048JwtRs256 ∧ ∃ cert encoding signature plaintext,
          MachineFile.Accepted c pem scheme pubkey licenseKey fingerprint nowUnix
            verified cert encoding signature plaintext) ∧
    (∀ pem keys licenseKey fingerprint nowUnix verified,
      MachineFile.verifyMachineFileWithKeySetAt c pem keys licenseKey fingerprint
          nowUnix = .ok verified →
        ∃ key ∈ keys.keys, ∃ cert encoding signature plaintext,
          MachineFile.Accepted c pem .ed25519Sign key.val licenseKey fingerprint
            nowUnix verified cert encoding signature plaintext) := by
  refine ⟨?_, ?_, ?_, ?_⟩
  · intro pem key licenseKey nowUnix verified h
    exact LicenseFile.verifyLicenseFileAt_eq_ok_iff.mp h
  · intro pem keys licenseKey nowUnix verified h
    obtain ⟨key, hkey, h⟩ := LicenseFile.verifyLicenseFileWithKeySetAt_eq_ok_iff.mp h
    exact ⟨key, hkey, LicenseFile.verifyLicenseFileAt_eq_ok_iff.mp h⟩
  · intro pem scheme pubkey licenseKey fingerprint nowUnix verified h
    refine ⟨?_, MachineFile.verifyMachineFileAt_eq_ok_iff.mp h⟩
    rintro rfl
    cases h
  · intro pem keys licenseKey fingerprint nowUnix verified h
    obtain ⟨key, hkey, h⟩ := MachineFile.verifyMachineFileWithKeySetAt_eq_ok_iff.mp h
    exact ⟨key, hkey, MachineFile.verifyMachineFileAt_eq_ok_iff.mp h⟩

theorem accepted_of_verified_recorded :
    (∃ cert encoding signature plaintext,
      LicenseFile.Accepted licenseRecording.crates recordedLicensePem recordedKey none
        1767312060 { license := recordedLicense, claims := recordedClaims } cert encoding
        signature plaintext) ∧
    (∃ cert encoding signature plaintext,
      MachineFile.Accepted machineRecording.crates recordedMachinePem .ed25519Sign
        recordedKey.val none none 1767312060
        { machine := recordedMachine, claims := recordedClaims } cert encoding signature
        plaintext) :=
  ⟨(accepted_of_verified licenseRecording.crates).1 _ _ _ _ _ verifyLicenseFileAt_recorded,
    ((accepted_of_verified machineRecording.crates).2.2.1 _ _ _ _ _ _ _
      verifyMachineFileAt_recorded).2⟩

/-- The faults that the envelope, the `alg` gate and the base64 of `sig` show. -/
inductive GateFault {J : SerdeJson} : CheckoutError J → Prop
  | malformedPem : GateFault .malformedPem
  | invalidBase64 : GateFault .invalidBase64
  | invalidJson (error : J.Error) : GateFault (.invalidJson error)
  | unsupportedAlgorithm (alg : String) : GateFault (.unsupportedAlgorithm alg)

/-- The faults that need a look at the arguments or at the payload. -/
inductive PayloadFault {J : SerdeJson} : CheckoutError J → Prop
  | decryptionFailed : PayloadFault (.crypto .decryptionFailed)
  | expired (exp : Int64) : PayloadFault (.expired exp)
  | licenseKeyMissing : PayloadFault .licenseKeyMissing
  | fingerprintMissing : PayloadFault .fingerprintMissing

theorem GateFault.not_payloadFault {J : SerdeJson} {e : CheckoutError J}
    (h : GateFault e) : ¬PayloadFault e := by
  intro hpayload
  cases h <;> cases hpayload

theorem gateFault_of_parseEnvelope {c : Crates} {header footer target pem : String}
    {e : CheckoutError c.json}
    (h : Envelope.parseEnvelope c header footer target pem = .error e) : GateFault e := by
  rcases bind_eq_error_iff.mp h with hbody | ⟨body, -, h⟩
  · obtain ⟨-, rfl⟩ := okOr_eq_error_iff.mp hbody
    exact .malformedPem
  rcases bind_eq_error_iff.mp h with hdecode | ⟨certJson, -, h⟩
  · obtain ⟨-, rfl⟩ := okOr_eq_error_iff.mp hdecode
    exact .invalidBase64
  · obtain ⟨error, -, rfl⟩ := mapError_eq_error_iff.mp h
    exact .invalidJson error

theorem gateFault_of_decodeSignature {c : Crates} {cert : CertPayload}
    {e : CheckoutError c.json} (h : decodeSignature c cert = .error e) :
    GateFault e := by
  obtain ⟨-, rfl⟩ := okOr_eq_error_iff.mp h
  exact .invalidBase64

theorem gateFault_of_validateAlg {J : SerdeJson} {alg : String} {e : CheckoutError J}
    (h : LicenseFile.validateAlg J alg = .error e) : GateFault e := by
  unfold LicenseFile.validateAlg at h
  split at h <;> cases h
  exact .unsupportedAlgorithm alg

theorem parseAlg_eq_error {J : SerdeJson} {alg : String} {e : CheckoutError J}
    (h : MachineFile.parseAlg J alg = .error e) : e = .unsupportedAlgorithm alg := by
  rcases bind_eq_error_iff.mp h with hfirst | ⟨⟨encoding, rest⟩, -, h⟩
  · exact (okOr_eq_error_iff.mp hfirst).2.symm
  rcases bind_eq_error_iff.mp h with hlast | ⟨⟨signingSuffix, version⟩, -, h⟩
  · exact (okOr_eq_error_iff.mp hlast).2.symm
  dsimp only at h
  split at h
  · exact (Except.error.inj h).symm
  split at h
  · exact (Except.error.inj h).symm
  split at h <;> cases h
  rfl

theorem gateFault_of_licenseSignedPart {c : Crates} {pem : String}
    {e : CheckoutError c.json} (h : LicenseFile.signedPart c pem = .error e) :
    GateFault e := by
  rcases bind_eq_error_iff.mp h with hcert | ⟨cert, -, h⟩
  · exact gateFault_of_parseEnvelope hcert
  rcases bind_eq_error_iff.mp h with halg | ⟨encoding, -, h⟩
  · exact gateFault_of_validateAlg halg
  rcases bind_eq_error_iff.mp h with hsig | ⟨signature, -, h⟩
  · exact gateFault_of_decodeSignature hsig
  · cases h

theorem gateFault_of_machineSignedPart {c : Crates} {expectedSuffix pem : String}
    {mismatch : String → String → String} {e : CheckoutError c.json}
    (h : MachineFile.signedPart c expectedSuffix mismatch pem = .error e) :
    GateFault e := by
  rcases bind_eq_error_iff.mp h with hcert | ⟨cert, -, h⟩
  · exact gateFault_of_parseEnvelope hcert
  rcases bind_eq_error_iff.mp h with halg | ⟨⟨encoding, signingSuffix⟩, -, h⟩
  · rw [parseAlg_eq_error halg]
    exact .unsupportedAlgorithm _
  dsimp only at h
  split at h
  · cases h
    exact .unsupportedAlgorithm _
  rcases bind_eq_error_iff.mp h with hsig | ⟨signature, -, h⟩
  · exact gateFault_of_decodeSignature hsig
  · cases h

theorem verify_ne_decryptionFailed (c : Crates) (pubkey : Octets 32)
    (message signature : List UInt8) :
    Ed25519.verify c pubkey message signature ≠ .error .decryptionFailed := by
  intro h
  rcases bind_eq_error_iff.mp h with hkey | ⟨point, -, h⟩
  · cases (okOr_eq_error_iff.mp hkey).2
  rcases bind_eq_error_iff.mp h with hsig | ⟨sig, -, h⟩
  · cases (okOr_eq_error_iff.mp hsig).2
  split at h <;> cases h

theorem not_payloadFault_of_crypto {J : SerdeJson} {x : Except CryptoError Unit}
    (hx : x ≠ .error .decryptionFailed) {e : CheckoutError J}
    (h : x.mapError .crypto = .error e) : ¬PayloadFault e := by
  obtain ⟨error, herror, rfl⟩ := mapError_eq_error_iff.mp h
  rintro ⟨⟩
  exact hx herror

theorem not_payloadFault_of_verifySignature {c : Crates} {scheme : LicenseScheme}
    {pubkey message signature : List UInt8} {e : CheckoutError c.json}
    (h : MachineFile.verifySignature c scheme pubkey message signature = .error e) :
    ¬PayloadFault e := by
  cases scheme with
  | ed25519Sign =>
      rcases bind_eq_error_iff.mp h with hkey | ⟨key, -, h⟩
      · obtain ⟨-, rfl⟩ := okOr_eq_error_iff.mp hkey
        rintro ⟨⟩
      · exact not_payloadFault_of_crypto (verify_ne_decryptionFailed c key message _) h
  | rsa2048Pkcs1Sign =>
      refine not_payloadFault_of_crypto ?_ h
      rw [Rsa.verifyPkcs1]
      split <;> simp
  | rsa2048Pkcs1PssSign =>
      refine not_payloadFault_of_crypto ?_ h
      rw [Rsa.verifyPss]
      split <;> simp
  | ecdsaP256Sign =>
      refine not_payloadFault_of_crypto ?_ h
      rw [Ecdsa.verify]
      split <;> simp
  | rsa2048JwtRs256 =>
      cases h
      rintro ⟨⟩

def LicenseGate (c : Crates) (pem : String) : Prop :=
  ∃ cert encoding, LicenseFile.parseEnvelope c pem = .ok cert ∧
    LicenseFile.validateAlg c.json cert.alg = .ok encoding

def MachineGate (c : Crates) (pem : String) : Prop :=
  ∃ cert encoding, MachineFile.parseEnvelope c pem = .ok cert ∧
    MachineFile.parseAlg c.json cert.alg = .ok (encoding, schemeAlgSuffix .ed25519Sign)

/-- The same variant; only the text of an unsupported algorithm may differ. -/
inductive SameFault {J : SerdeJson} : CheckoutError J → CheckoutError J → Prop
  | refl (e : CheckoutError J) : SameFault e e
  | unsupportedAlgorithm (alg alg' : String) :
      SameFault (.unsupportedAlgorithm alg) (.unsupportedAlgorithm alg')

theorem licenseFile_error_of_not_verified (c : Crates) {pem : String} {key : Octets 32}
    (h : ¬LicenseFile.SignatureVerified c pem key) :
    ∃ e, ¬PayloadFault e ∧ ∀ licenseKey nowUnix,
      LicenseFile.verifyLicenseFileAt c pem key licenseKey nowUnix = .error e := by
  rw [← LicenseFile.checked_iff] at h
  obtain ⟨e, hstage, hall⟩ := exists_error_of_not_checked h
  refine ⟨e, ?_, ?_⟩
  · rcases hstage with hsigned | ⟨file, -, hcheck⟩
    · exact (gateFault_of_licenseSignedPart hsigned).not_payloadFault
    · exact not_payloadFault_of_crypto (verify_ne_decryptionFailed c key _ _) hcheck
  · intro licenseKey nowUnix
    rw [LicenseFile.verifyLicenseFileAt_eq_verify]
    exact hall _ _

theorem machineFile_error_of_not_verified (c : Crates) {pem : String}
    {scheme : LicenseScheme} {pubkey : List UInt8}
    (h : ¬MachineFile.SignatureVerified c pem scheme pubkey) :
    ∃ e, ¬PayloadFault e ∧ ∀ licenseKey fingerprint nowUnix,
      MachineFile.verifyMachineFileAt c pem scheme pubkey licenseKey fingerprint nowUnix =
        .error e := by
  by_cases hscheme : scheme = .rsa2048JwtRs256
  · subst hscheme
    refine ⟨.schemeNotSupported, ?_, fun _ _ _ => rfl⟩
    rintro ⟨⟩
  rw [← MachineFile.checked_iff (MachineFile.schemeMismatch c)] at h
  obtain ⟨e, hstage, hall⟩ := exists_error_of_not_checked h
  refine ⟨e, ?_, ?_⟩
  · rcases hstage with hsigned | ⟨file, -, hcheck⟩
    · exact (gateFault_of_machineSignedPart hsigned).not_payloadFault
    · exact not_payloadFault_of_verifySignature hcheck
  · intro licenseKey fingerprint nowUnix
    rw [MachineFile.verifyMachineFileAt_eq_verify c pem hscheme]
    exact hall _ _

theorem licenseFile_error_of_not_gate (c : Crates) {pem : String}
    (h : ¬LicenseGate c pem) :
    ∃ e, GateFault e ∧
      (∀ key licenseKey nowUnix,
        LicenseFile.verifyLicenseFileAt c pem key licenseKey nowUnix = .error e) ∧
      (∀ keys licenseKey nowUnix,
        LicenseFile.verifyLicenseFileWithKeySetAt c pem keys licenseKey nowUnix =
          .error e) := by
  cases hcert : LicenseFile.parseEnvelope c pem with
  | error e =>
      refine ⟨e, gateFault_of_parseEnvelope hcert, ?_, ?_⟩
      · intro key licenseKey nowUnix
        rw [LicenseFile.verifyLicenseFileAt, hcert, error_bind]
      · intro keys licenseKey nowUnix
        rw [LicenseFile.verifyLicenseFileWithKeySetAt, hcert, error_bind]
  | ok cert =>
      cases halg : LicenseFile.validateAlg c.json cert.alg with
      | error e =>
          refine ⟨e, gateFault_of_validateAlg halg, ?_, ?_⟩
          · intro key licenseKey nowUnix
            rw [LicenseFile.verifyLicenseFileAt, hcert, ok_bind, halg, error_bind]
          · intro keys licenseKey nowUnix
            rw [LicenseFile.verifyLicenseFileWithKeySetAt, hcert, ok_bind, halg,
              error_bind]
      | ok encoding => exact absurd ⟨cert, encoding, hcert, halg⟩ h

theorem machineFile_error_of_not_gate (c : Crates) {pem : String}
    (h : ¬MachineGate c pem) :
    ∃ e e', GateFault e ∧ SameFault e e' ∧
      (∀ pubkey licenseKey fingerprint nowUnix,
        MachineFile.verifyMachineFileAt c pem .ed25519Sign pubkey licenseKey fingerprint
          nowUnix = .error e) ∧
      (∀ keys licenseKey fingerprint nowUnix,
        MachineFile.verifyMachineFileWithKeySetAt c pem keys licenseKey fingerprint
          nowUnix = .error e') := by
  have hjwt : LicenseScheme.ed25519Sign ≠ .rsa2048JwtRs256 := by decide
  cases hcert : MachineFile.parseEnvelope c pem with
  | error e =>
      refine ⟨e, e, gateFault_of_parseEnvelope hcert, .refl e, ?_, ?_⟩
      · intro pubkey licenseKey fingerprint nowUnix
        rw [MachineFile.verifyMachineFileAt, if_neg hjwt, hcert, error_bind]
      · intro keys licenseKey fingerprint nowUnix
        rw [MachineFile.verifyMachineFileWithKeySetAt, hcert, error_bind]
  | ok cert =>
      cases halg : MachineFile.parseAlg c.json cert.alg with
      | error e =>
          obtain rfl := parseAlg_eq_error halg
          refine ⟨_, _, .unsupportedAlgorithm cert.alg, .refl _, ?_, ?_⟩
          · intro pubkey licenseKey fingerprint nowUnix
            rw [MachineFile.verifyMachineFileAt, if_neg hjwt, hcert, ok_bind, halg,
              error_bind]
          · intro keys licenseKey fingerprint nowUnix
            rw [MachineFile.verifyMachineFileWithKeySetAt, hcert, ok_bind, halg,
              error_bind]
      | ok alg =>
          obtain ⟨encoding, signingSuffix⟩ := alg
          have hsuffix : signingSuffix ≠ schemeAlgSuffix .ed25519Sign := by
            rintro rfl
            exact h ⟨cert, encoding, hcert, halg⟩
          let expectedSuffix := schemeAlgSuffix .ed25519Sign
          refine ⟨
            .unsupportedAlgorithm (MachineFile.schemeMismatch c signingSuffix expectedSuffix),
            .unsupportedAlgorithm (MachineFile.keySetMismatch c signingSuffix expectedSuffix),
            .unsupportedAlgorithm _, .unsupportedAlgorithm _ _, ?_, ?_⟩
          · intro pubkey licenseKey fingerprint nowUnix
            rw [MachineFile.verifyMachineFileAt, if_neg hjwt, hcert, ok_bind, halg,
              ok_bind]
            exact if_pos hsuffix
          · intro keys licenseKey fingerprint nowUnix
            rw [MachineFile.verifyMachineFileWithKeySetAt, hcert, ok_bind, halg, ok_bind]
            exact if_pos hsuffix

/-- Before a signature has verified, nothing but the file and the key has a part
in the error, and it is none that tells of the payload.  What the envelope and
the `alg` gate refuse is refused in the same way whatever the keys are. -/
theorem unverified_has_no_influence (c : Crates) :
    (∀ pem key, ¬LicenseFile.SignatureVerified c pem key →
      ∃ e, ¬PayloadFault e ∧ ∀ licenseKey nowUnix,
        LicenseFile.verifyLicenseFileAt c pem key licenseKey nowUnix = .error e) ∧
    (∀ pem scheme pubkey, ¬MachineFile.SignatureVerified c pem scheme pubkey →
      ∃ e, ¬PayloadFault e ∧ ∀ licenseKey fingerprint nowUnix,
        MachineFile.verifyMachineFileAt c pem scheme pubkey licenseKey fingerprint
          nowUnix = .error e) ∧
    (∀ pem, ¬LicenseGate c pem →
      ∃ e, GateFault e ∧
        (∀ key licenseKey nowUnix,
          LicenseFile.verifyLicenseFileAt c pem key licenseKey nowUnix = .error e) ∧
        (∀ keys licenseKey nowUnix,
          LicenseFile.verifyLicenseFileWithKeySetAt c pem keys licenseKey nowUnix =
            .error e)) ∧
    (∀ pem, ¬MachineGate c pem →
      ∃ e e', GateFault e ∧ SameFault e e' ∧
        (∀ pubkey licenseKey fingerprint nowUnix,
          MachineFile.verifyMachineFileAt c pem .ed25519Sign pubkey licenseKey
            fingerprint nowUnix = .error e) ∧
        (∀ keys licenseKey fingerprint nowUnix,
          MachineFile.verifyMachineFileWithKeySetAt c pem keys licenseKey fingerprint
            nowUnix = .error e')) := by
  refine ⟨?_, ?_, ?_, ?_⟩
  · intro pem key h
    exact licenseFile_error_of_not_verified c h
  · intro pem scheme pubkey h
    exact machineFile_error_of_not_verified c h
  · intro pem h
    exact licenseFile_error_of_not_gate c h
  · intro pem h
    exact machineFile_error_of_not_gate c h

theorem unverified_has_no_influence_foreignKey :
    ∃ e, ¬PayloadFault e ∧ ∀ licenseKey nowUnix,
      LicenseFile.verifyLicenseFileAt licenseRecording.crates recordedLicensePem
        foreignKey licenseKey nowUnix = .error e := by
  have hheld : foreignKey ∈ (SigningKeySet.mk [("other-kid", foreignKey)]).keys :=
    List.mem_cons_self
  exact (unverified_has_no_influence licenseRecording.crates).1 _ _
    (foreignKey_not_signatureVerified licenseRecording rfl (by decide) hheld lines)

end Tamga.OfflineSoundness
