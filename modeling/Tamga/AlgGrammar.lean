import Tamga.OfflineSoundness

namespace Tamga.AlgGrammar

open Library.Prelude
open Tamga.Dependencies
open Tamga.Envelope
open Tamga.Errors
open Tamga.KeySet
open Tamga.MachineFile (LicenseScheme schemeAlgSuffix)
open Tamga.Models
open Tamga.OfflineSoundness
open Tamga.ServerFiles
open Tamga.SignatureStage
open Tamga.TableCrates

inductive EncodingWord : String → EncEncoding → Prop
  | base64 : EncodingWord "base64" .plain
  | aes256Gcm : EncodingWord "aes-256-gcm" .aes256Gcm

theorem encodingWord_iff {word : String} {encoding : EncEncoding} :
    EncodingWord word encoding ↔ word = encoding.name := by
  constructor
  · intro h
    cases h <;> rfl
  · rintro rfl
    cases encoding
    · exact .base64
    · exact .aes256Gcm

def schemeAlgs (scheme : LicenseScheme) : List String :=
  [algName .plain (schemeAlgSuffix scheme), algName .aes256Gcm (schemeAlgSuffix scheme)]

theorem mem_schemeAlgs_iff {scheme : LicenseScheme} {alg : String} :
    alg ∈ schemeAlgs scheme ↔ ∃ encoding, alg = algName encoding (schemeAlgSuffix scheme) := by
  simp only [schemeAlgs, List.mem_cons, List.not_mem_nil, or_false]
  constructor
  · rintro (rfl | rfl)
    · exact ⟨.plain, rfl⟩
    · exact ⟨.aes256Gcm, rfl⟩
  · rintro ⟨encoding, rfl⟩
    cases encoding
    · exact Or.inl rfl
    · exact Or.inr rfl

theorem nodup_schemeAlgs (scheme : LicenseScheme) : (schemeAlgs scheme).Nodup := by
  cases scheme <;> decide

variable {J : SerdeJson}

theorem parseAlg_eq_ok_iff_word {alg signingSuffix : String} {encoding : EncEncoding} :
    MachineFile.parseAlg J alg = .ok (encoding, signingSuffix) ↔
      ∃ word, EncodingWord word encoding ∧ signingSuffix ≠ "" ∧ '+' ∉ signingSuffix.toList ∧
        alg = word ++ "+" ++ signingSuffix ++ "+v2" := by
  rw [MachineFile.parseAlg_eq_ok_iff]
  constructor
  · rintro ⟨hne, hplus, halg⟩
    exact ⟨encoding.name, encodingWord_iff.mpr rfl, hne, hplus, halg⟩
  · rintro ⟨word, hword, hne, hplus, halg⟩
    rw [encodingWord_iff] at hword
    subst hword
    exact ⟨hne, hplus, halg⟩

theorem validateAlg_eq_ok_iff_parseAlg {alg : String} {encoding : EncEncoding} :
    LicenseFile.validateAlg J alg = .ok encoding ↔
      MachineFile.parseAlg J alg = .ok (encoding, "ed25519") :=
  LicenseFile.validateAlg_eq_ok_iff_algName.trans
    (MachineFile.parseAlg_eq_ok_iff_of_scheme .ed25519Sign).symm

theorem validateAlg_eq_error {alg : String} {e : CheckoutError J}
    (h : LicenseFile.validateAlg J alg = .error e) : e = .unsupportedAlgorithm alg := by
  unfold LicenseFile.validateAlg at h
  split at h <;> cases h
  rfl

/-- The error is about something else than `alg`. -/
def PastAlg (e : CheckoutError J) : Prop :=
  ∀ text, e ≠ .unsupportedAlgorithm text

theorem raises_crypto {α : Type} (x : Except CryptoError α) :
    Raises PastAlg (x.mapError (CheckoutError.crypto : CryptoError → CheckoutError J)) :=
  .mapError fun _ => nofun

theorem raises_enforceExp (claims : LicenseFileClaims) (nowUnix : Int64) :
    Raises PastAlg (enforceExp J claims nowUnix) := by
  rw [enforceExp]
  split
  · refine .ite (.error ?_) (.ok ())
    rintro _ ⟨⟩
  · exact .ok ()

section Stages

variable {c : Crates} {V : Type}

theorem raises_decodeSignature (cert : CertPayload) : Raises PastAlg (decodeSignature c cert) := by
  apply Raises.okOr
  rintro _ ⟨⟩

theorem raises_license_decodePlaintext (cert : CertPayload) (encoding : EncEncoding)
    (licenseKey : Option String) :
    Raises PastAlg (LicenseFile.decodePlaintext c cert encoding licenseKey) := by
  refine .bind (.okOr nofun) fun encBytes => ?_
  cases encoding with
  | plain => exact .ok encBytes
  | aes256Gcm =>
      refine .bind (.okOr nofun) fun keyStr => ?_
      dsimp only
      split
      · exact .error nofun
      · apply raises_crypto

theorem raises_machine_decodePlaintext (cert : CertPayload) (encoding : EncEncoding)
    (licenseKey fingerprint : Option String) :
    Raises PastAlg (MachineFile.decodePlaintext c cert encoding licenseKey fingerprint) := by
  cases encoding with
  | plain => exact .okOr nofun
  | aes256Gcm =>
      refine .bind (.okOr nofun) fun keyStr => ?_
      refine .bind (.okOr nofun) fun fp => ?_
      refine .bind (.okOr nofun) fun split => ?_
      refine .bind (.okOr nofun) fun nonceBytes => ?_
      refine .bind (.okOr nofun) fun nonce => ?_
      refine .bind (.okOr nofun) fun ciphertextAndTag => ?_
      refine .ite (.error nofun) ?_
      apply raises_crypto

theorem raises_license_finish (plaintext : List UInt8) (nowUnix : Int64) :
    Raises PastAlg (LicenseFile.finish c plaintext nowUnix) := by
  refine .bind (.mapError fun _ => nofun) fun payload => ?_
  exact .bind (raises_enforceExp payload.«meta» nowUnix) fun _ => .ok _

theorem raises_machine_finish (plaintext : List UInt8) (nowUnix : Int64) :
    Raises PastAlg (MachineFile.finish c plaintext nowUnix) := by
  refine .bind (.mapError fun _ => nofun) fun payload => ?_
  exact .bind (raises_enforceExp payload.«meta» nowUnix) fun _ => .ok _

theorem raises_verifySignature (scheme : LicenseScheme) (pubkey message signature : List UInt8) :
    Raises PastAlg (MachineFile.verifySignature c scheme pubkey message signature) := by
  cases scheme with
  | ed25519Sign =>
      refine .bind (.okOr nofun) fun key => ?_
      apply raises_crypto
  | rsa2048JwtRs256 => exact .error nofun
  | _ => apply raises_crypto

theorem raises_labelFailure (keys : SigningKeySet)
    (opened : Except (CheckoutError c.json) (List UInt8)) :
    Raises PastAlg (.error (labelFailure c keys opened) : Except (CheckoutError c.json) V) := by
  refine .error fun text => ?_
  rcases labelFailure_cases c keys opened with ⟨-, h⟩ | ⟨-, h⟩ | ⟨_, _, -, -, -, h⟩ |
    ⟨-, -, -, h⟩ <;> rw [h] <;> exact nofun

/-- An entry point that goes on past its `alg` stage does not speak of `alg` again. -/
theorem unsupported_iff {stage : Except (CheckoutError J) EncEncoding}
    {rest : EncEncoding → Except (CheckoutError J) V}
    (hstage : Raises (fun e => ∃ text, e = .unsupportedAlgorithm text) stage)
    (hrest : ∀ encoding, Raises PastAlg (rest encoding)) :
    (∃ text, stage >>= rest = .error (.unsupportedAlgorithm text)) ↔
      ∀ encoding, stage ≠ .ok encoding := by
  constructor
  · rintro ⟨text, h⟩ encoding hok
    rw [hok, ok_bind] at h
    exact hrest encoding _ h text rfl
  · intro hnone
    obtain ⟨e, he⟩ := error_of_not_ok hnone
    obtain ⟨text, rfl⟩ := hstage e he
    exact ⟨text, by rw [he, error_bind]⟩

/-- The `alg` stage of the entry points for machine files, up to the words of the
cross-check. -/
def algStage (c : Crates) (mismatch : String → String → String) (scheme : LicenseScheme)
    (alg : String) : Except (CheckoutError c.json) EncEncoding := do
  let (encoding, signingSuffix) ← MachineFile.parseAlg c.json alg
  if signingSuffix ≠ schemeAlgSuffix scheme then
    .error (.unsupportedAlgorithm (mismatch signingSuffix (schemeAlgSuffix scheme)))
  else .ok encoding

variable {mismatch : String → String → String} {scheme : LicenseScheme}

theorem algStage_eq_ok_iff {alg : String} {encoding : EncEncoding} :
    algStage c mismatch scheme alg = .ok encoding ↔
      alg = algName encoding (schemeAlgSuffix scheme) := by
  rw [← MachineFile.parseAlg_eq_ok_iff_of_scheme (J := c.json), algStage, bind_eq_ok_iff]
  constructor
  · rintro ⟨⟨found, signingSuffix⟩, hparse, h⟩
    dsimp only at h
    split at h
    · cases h
    · rename_i hsuffix
      rw [not_not] at hsuffix
      rw [hparse, hsuffix, Except.ok.inj h]
  · intro h
    exact ⟨_, h, by simp⟩

theorem raises_algStage (alg : String) :
    Raises (fun e => ∃ text, e = .unsupportedAlgorithm text)
      (algStage c mismatch scheme alg) := by
  refine .bind (fun e he => ⟨alg, parseAlg_eq_error he⟩) ?_
  rintro ⟨encoding, signingSuffix⟩
  exact .ite (.error ⟨_, rfl⟩) (.ok encoding)

theorem verifyMachineFileAt_eq_algStage {pem : String} {cert : CertPayload}
    (hscheme : scheme ≠ .rsa2048JwtRs256) (hcert : MachineFile.parseEnvelope c pem = .ok cert)
    (pubkey : List UInt8) (licenseKey fingerprint : Option String) (nowUnix : Int64) :
    MachineFile.verifyMachineFileAt c pem scheme pubkey licenseKey fingerprint nowUnix =
      (do
        let encoding ← algStage c (MachineFile.schemeMismatch c) scheme cert.alg
        let sigBytes ← decodeSignature c cert
        MachineFile.verifySignature c scheme pubkey (asBytes cert.enc) sigBytes
        let plaintext ← MachineFile.decodePlaintext c cert encoding licenseKey fingerprint
        MachineFile.finish c plaintext nowUnix) := by
  simp only [MachineFile.verifyMachineFileAt, if_neg hscheme, hcert, ok_bind, algStage, bind_assoc]
  apply bind_congr
  rintro ⟨encoding, signingSuffix⟩
  dsimp only
  split <;> rfl

section EntryPoints

variable {pem : String} {cert : CertPayload}

theorem machineFile_unsupported_iff (hscheme : scheme ≠ .rsa2048JwtRs256)
    (hcert : MachineFile.parseEnvelope c pem = .ok cert) (pubkey : List UInt8)
    (licenseKey fingerprint : Option String) (nowUnix : Int64) :
    (∃ text, MachineFile.verifyMachineFileAt c pem scheme pubkey licenseKey fingerprint nowUnix =
        .error (.unsupportedAlgorithm text)) ↔ cert.alg ∉ schemeAlgs scheme := by
  rw [verifyMachineFileAt_eq_algStage hscheme hcert, unsupported_iff (raises_algStage _),
    mem_schemeAlgs_iff, not_exists]
  · exact forall_congr' fun encoding => not_congr algStage_eq_ok_iff
  · intro encoding
    refine .bind (raises_decodeSignature cert) fun sigBytes => ?_
    refine .bind (raises_verifySignature _ _ _ _) fun _ => ?_
    refine .bind (raises_machine_decodePlaintext _ _ _ _) fun plaintext => ?_
    apply raises_machine_finish

theorem machineKeySet_unsupported_iff (hcert : MachineFile.parseEnvelope c pem = .ok cert)
    (keys : SigningKeySet) (licenseKey fingerprint : Option String) (nowUnix : Int64) :
    (∃ text, MachineFile.verifyMachineFileWithKeySetAt c pem keys licenseKey fingerprint nowUnix =
        .error (.unsupportedAlgorithm text)) ↔ cert.alg ∉ schemeAlgs .ed25519Sign := by
  have heq : MachineFile.verifyMachineFileWithKeySetAt c pem keys licenseKey fingerprint nowUnix =
      (do
        let encoding ← algStage c (MachineFile.keySetMismatch c) .ed25519Sign cert.alg
        let sigBytes ← decodeSignature c cert
        let found ← searchSet c keys ⟨cert, encoding, sigBytes⟩
        found.elim
          (.error (labelFailure c keys
            (MachineFile.decodePlaintext c cert encoding licenseKey fingerprint)))
          fun _ => do
            let plaintext ← MachineFile.decodePlaintext c cert encoding licenseKey fingerprint
            MachineFile.finish c plaintext nowUnix) := by
    simp only [MachineFile.verifyMachineFileWithKeySetAt, hcert, ok_bind, algStage, bind_assoc,
      searchSet]
    apply bind_congr
    rintro ⟨encoding, signingSuffix⟩
    dsimp only
    split
    · rfl
    · rw [ok_bind]
      refine bind_congr fun sigBytes => bind_congr fun found => ?_
      cases found <;> rfl
  rw [heq, unsupported_iff (raises_algStage _), mem_schemeAlgs_iff, not_exists]
  · exact forall_congr' fun encoding => not_congr algStage_eq_ok_iff
  · intro encoding
    refine .bind (raises_decodeSignature cert) fun sigBytes => ?_
    refine .bind (raises_crypto _) fun found => ?_
    cases found with
    | none => apply raises_labelFailure
    | some key =>
        refine .bind (raises_machine_decodePlaintext _ _ _ _) fun plaintext => ?_
        apply raises_machine_finish

theorem raises_validateAlg (alg : String) :
    Raises (fun e => ∃ text, e = .unsupportedAlgorithm text) (LicenseFile.validateAlg J alg) :=
  fun _ he => ⟨alg, validateAlg_eq_error he⟩

theorem mem_schemeAlgs_ed25519_iff {alg : String} :
    alg ∈ schemeAlgs .ed25519Sign ↔ ∃ encoding, LicenseFile.validateAlg J alg = .ok encoding := by
  rw [mem_schemeAlgs_iff]
  exact exists_congr fun encoding => LicenseFile.validateAlg_eq_ok_iff_algName.symm

theorem licenseFile_unsupported_iff (hcert : LicenseFile.parseEnvelope c pem = .ok cert)
    (key : Octets 32) (licenseKey : Option String) (nowUnix : Int64) :
    (∃ text, LicenseFile.verifyLicenseFileAt c pem key licenseKey nowUnix =
        .error (.unsupportedAlgorithm text)) ↔ cert.alg ∉ schemeAlgs .ed25519Sign := by
  rw [LicenseFile.verifyLicenseFileAt, hcert, ok_bind, unsupported_iff (raises_validateAlg _),
    mem_schemeAlgs_ed25519_iff (J := c.json), not_exists]
  intro encoding
  refine .bind (.bind (raises_decodeSignature cert) fun sigBytes => raises_crypto _) fun _ => ?_
  refine .bind (raises_license_decodePlaintext _ _ _) fun plaintext => ?_
  apply raises_license_finish

theorem licenseKeySet_unsupported_iff (hcert : LicenseFile.parseEnvelope c pem = .ok cert)
    (keys : SigningKeySet) (licenseKey : Option String) (nowUnix : Int64) :
    (∃ text, LicenseFile.verifyLicenseFileWithKeySetAt c pem keys licenseKey nowUnix =
        .error (.unsupportedAlgorithm text)) ↔ cert.alg ∉ schemeAlgs .ed25519Sign := by
  rw [LicenseFile.verifyLicenseFileWithKeySetAt, hcert, ok_bind,
    unsupported_iff (raises_validateAlg _), mem_schemeAlgs_ed25519_iff (J := c.json), not_exists]
  intro encoding
  refine .bind (raises_decodeSignature cert) fun sigBytes => ?_
  refine .bind (raises_crypto _) fun found => ?_
  cases found with
  | none => apply raises_labelFailure
  | some key =>
      refine .bind (raises_license_decodePlaintext _ _ _) fun plaintext => ?_
      apply raises_license_finish

end EntryPoints

end Stages

/-- `alg` has one spelling for each encoding and suffix, in either format; under a
scheme two of them are let through, and everything else is refused as an
unsupported algorithm, by every entry point. -/
theorem alg_grammar_exact (c : Crates) :
    (∀ alg encoding signingSuffix,
      MachineFile.parseAlg c.json alg = .ok (encoding, signingSuffix) ↔
        ∃ word, EncodingWord word encoding ∧ signingSuffix ≠ "" ∧ '+' ∉ signingSuffix.toList ∧
          alg = word ++ "+" ++ signingSuffix ++ "+v2") ∧
    (∀ alg encoding, LicenseFile.validateAlg c.json alg = .ok encoding ↔
      MachineFile.parseAlg c.json alg = .ok (encoding, "ed25519")) ∧
    (∀ alg, (∀ parsed, MachineFile.parseAlg c.json alg ≠ .ok parsed) →
      MachineFile.parseAlg c.json alg = .error (.unsupportedAlgorithm alg)) ∧
    (∀ alg, (∀ encoding, LicenseFile.validateAlg c.json alg ≠ .ok encoding) →
      LicenseFile.validateAlg c.json alg = .error (.unsupportedAlgorithm alg)) ∧
    (∀ scheme, (schemeAlgs scheme).Nodup ∧ (schemeAlgs scheme).length = 2) ∧
    (∀ alg, alg ∈ schemeAlgs .ed25519Sign ↔
      ∃ encoding, LicenseFile.validateAlg c.json alg = .ok encoding) ∧
    (∀ pem cert, MachineFile.parseEnvelope c pem = .ok cert →
      (∀ scheme pubkey licenseKey fingerprint nowUnix, scheme ≠ .rsa2048JwtRs256 →
        ((∃ text, MachineFile.verifyMachineFileAt c pem scheme pubkey licenseKey fingerprint
            nowUnix = .error (.unsupportedAlgorithm text)) ↔ cert.alg ∉ schemeAlgs scheme)) ∧
      (∀ keys licenseKey fingerprint nowUnix,
        (∃ text, MachineFile.verifyMachineFileWithKeySetAt c pem keys licenseKey fingerprint
            nowUnix = .error (.unsupportedAlgorithm text)) ↔
          cert.alg ∉ schemeAlgs .ed25519Sign)) ∧
    (∀ pem cert, LicenseFile.parseEnvelope c pem = .ok cert →
      (∀ key licenseKey nowUnix,
        (∃ text, LicenseFile.verifyLicenseFileAt c pem key licenseKey nowUnix =
            .error (.unsupportedAlgorithm text)) ↔ cert.alg ∉ schemeAlgs .ed25519Sign) ∧
      (∀ keys licenseKey nowUnix,
        (∃ text, LicenseFile.verifyLicenseFileWithKeySetAt c pem keys licenseKey nowUnix =
            .error (.unsupportedAlgorithm text)) ↔ cert.alg ∉ schemeAlgs .ed25519Sign)) := by
  refine ⟨?_, ?_, ?_, ?_, ?_, ?_, ?_, ?_⟩
  · intro alg encoding signingSuffix
    exact parseAlg_eq_ok_iff_word
  · intro alg encoding
    exact validateAlg_eq_ok_iff_parseAlg
  · intro alg hnone
    obtain ⟨e, he⟩ := error_of_not_ok hnone
    rw [he, parseAlg_eq_error he]
  · intro alg hnone
    obtain ⟨e, he⟩ := error_of_not_ok hnone
    rw [he, validateAlg_eq_error he]
  · intro scheme
    exact ⟨nodup_schemeAlgs scheme, rfl⟩
  · intro alg
    exact mem_schemeAlgs_ed25519_iff
  · intro pem cert hcert
    constructor
    · intro scheme pubkey licenseKey fingerprint nowUnix hscheme
      exact machineFile_unsupported_iff hscheme hcert pubkey licenseKey fingerprint nowUnix
    · intro keys licenseKey fingerprint nowUnix
      exact machineKeySet_unsupported_iff hcert keys licenseKey fingerprint nowUnix
  · intro pem cert hcert
    constructor
    · intro key licenseKey nowUnix
      exact licenseFile_unsupported_iff hcert key licenseKey nowUnix
    · intro keys licenseKey nowUnix
      exact licenseKeySet_unsupported_iff hcert keys licenseKey nowUnix

theorem alg_grammar_exact_recorded :
    (∃ text, MachineFile.verifyMachineFileAt machineRecording.crates recordedMachinePem
        .rsa2048Pkcs1PssSign [] none none 0 = .error (.unsupportedAlgorithm text)) ∧
    (∀ keys nowUnix, ¬∃ text, LicenseFile.verifyLicenseFileWithKeySetAt licenseRecording.crates
        recordedLicensePem keys none nowUnix = .error (.unsupportedAlgorithm text)) ∧
    MachineFile.parseAlg machineRecording.crates.json "base64+ed25519" =
      .error (.unsupportedAlgorithm "base64+ed25519") := by
  have hmachine := parseEnvelope_machinePem machineRecording.crates lines
    (machineText machineRecording "" "" zeroNonce)
  have hlicense := parseEnvelope_licensePem licenseRecording.crates lines
    (licenseText licenseRecording "" zeroNonce)
  obtain ⟨-, -, hparse, -, -, -, hmachineEntry, -⟩ := alg_grammar_exact machineRecording.crates
  obtain ⟨-, -, -, -, -, -, -, hlicenseEntry⟩ := alg_grammar_exact licenseRecording.crates
  refine ⟨?_, ?_, ?_⟩
  · refine ((hmachineEntry _ _ hmachine).1 .rsa2048Pkcs1PssSign [] none none 0
      (by decide)).mpr ?_
    decide
  · intro keys nowUnix hunsupported
    exact ((hlicenseEntry _ _ hlicense).2 keys none nowUnix).mp hunsupported List.mem_cons_self
  · apply hparse
    rintro ⟨encoding, signingSuffix⟩ h
    cases h

end Tamga.AlgGrammar
