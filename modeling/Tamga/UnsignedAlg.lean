import Tamga.OfflineSoundness

namespace Tamga.UnsignedAlg

open Library.Prelude
open Library.Text
open Tamga.Crypto
open Tamga.Dependencies
open Tamga.Envelope
open Tamga.Errors
open Tamga.KeySet
open Tamga.MachineFile (LicenseScheme schemeAlgSuffix)
open Tamga.Models
open Tamga.OfflineSoundness
open Tamga.ServerFiles
open Tamga.TableCrates

section Machine

/-- A string with a dot in it is no base64, and a string without one has no
ciphertext. -/
theorem not_opens_both {c : Crates} {licenseKey licenseKey' fp fp' : Option String}
    {enc : String} {plaintext plaintext' : List UInt8}
    (hplain : MachineFile.Opens c licenseKey fp enc plaintext .plain) :
    ¬MachineFile.Opens c licenseKey' fp' enc plaintext' .aes256Gcm := by
  intro hsealed
  cases hplain with
  | plain hdecode =>
      cases hsealed with
      | aes256Gcm _ _ henc =>
          apply c.base64.not_mem_of_decode (c := '.') hdecode (by decide)
          rw [henc]
          simp

theorem opens_unique {c : Crates} {licenseKey fingerprint : Option String} {enc : String}
    {encoding encoding' : EncEncoding} {plaintext plaintext' : List UInt8}
    (h : MachineFile.Opens c licenseKey fingerprint enc plaintext encoding)
    (h' : MachineFile.Opens c licenseKey fingerprint enc plaintext' encoding') :
    plaintext = plaintext' := by
  have hsame : encoding = encoding' := by
    cases encoding <;> cases encoding'
    · rfl
    · exact absurd h' (not_opens_both h)
    · exact absurd h (not_opens_both h')
    · rfl
  subst hsame
  have hdecode : ∀ {p}, MachineFile.Opens c licenseKey fingerprint enc p encoding →
      MachineFile.decodePlaintext c ⟨enc, "", ""⟩ encoding licenseKey fingerprint =
        .ok p :=
    fun h => MachineFile.decodePlaintext_eq_ok_iff.mpr h
  exact Except.ok.inj ((hdecode h).symm.trans (hdecode h'))

/-- A call of either entry point for machine files, up to the arguments that
open the payload. -/
inductive MachineCall where
  | singleKey (pem : String) (scheme : LicenseScheme) (pubkey : List UInt8)
      (nowUnix : Int64)
  | keySet (pem : String) (keys : SigningKeySet) (nowUnix : Int64)

def MachineCall.pem : MachineCall → String
  | .singleKey pem _ _ _ => pem
  | .keySet pem _ _ => pem

def MachineCall.run (c : Crates) (licenseKey fingerprint : Option String) :
    MachineCall → Except (CheckoutError c.json) (MachineFile.VerifiedMachineFile c.json)
  | .singleKey pem scheme pubkey nowUnix =>
      MachineFile.verifyMachineFileAt c pem scheme pubkey licenseKey fingerprint nowUnix
  | .keySet pem keys nowUnix =>
      MachineFile.verifyMachineFileWithKeySetAt c pem keys licenseKey fingerprint nowUnix

theorem MachineCall.accepted {c : Crates} {licenseKey fingerprint : Option String}
    {call : MachineCall} {verified : MachineFile.VerifiedMachineFile c.json}
    (h : call.run c licenseKey fingerprint = .ok verified) :
    ∃ scheme pubkey nowUnix cert encoding signature plaintext,
      MachineFile.Accepted c call.pem scheme pubkey licenseKey fingerprint nowUnix
        verified cert encoding signature plaintext := by
  cases call with
  | singleKey pem scheme pubkey nowUnix =>
      exact ⟨scheme, pubkey, nowUnix, MachineFile.verifyMachineFileAt_eq_ok_iff.mp h⟩
  | keySet pem keys nowUnix =>
      obtain ⟨key, -, h⟩ := MachineFile.verifyMachineFileWithKeySetAt_eq_ok_iff.mp h
      exact ⟨.ed25519Sign, key.val, nowUnix,
        MachineFile.verifyMachineFileAt_eq_ok_iff.mp h⟩

/-- Two accepting calls on files with one `enc` say the same, whatever the
envelopes hold besides; no `enc` opens under both encodings. -/
theorem accepted_machine_determined_by_enc (c : Crates) :
    (∀ licenseKey fingerprint (call call' : MachineCall) cert cert' verified verified',
      MachineFile.parseEnvelope c call.pem = .ok cert →
      MachineFile.parseEnvelope c call'.pem = .ok cert' → cert.enc = cert'.enc →
      call.run c licenseKey fingerprint = .ok verified →
      call'.run c licenseKey fingerprint = .ok verified' →
        verified.machine = verified'.machine ∧ verified.claims = verified'.claims) ∧
    (∀ cert cert' licenseKey licenseKey' fingerprint fingerprint' plaintext plaintext',
      cert.enc = cert'.enc →
      MachineFile.decodePlaintext c cert .plain licenseKey fingerprint = .ok plaintext →
        MachineFile.decodePlaintext c cert' .aes256Gcm licenseKey' fingerprint' ≠
          .ok plaintext') := by
  constructor
  · intro licenseKey fingerprint call call' cert cert' verified verified' hcert hcert' henc
      hrun hrun'
    obtain ⟨_, _, _, _, _, _, _, h⟩ := MachineCall.accepted hrun
    obtain ⟨_, _, _, _, _, _, _, h'⟩ := MachineCall.accepted hrun'
    obtain rfl := Except.ok.inj (hcert.symm.trans (parseEnvelope_eq_ok_iff.mpr h.envelope))
    obtain rfl :=
      Except.ok.inj (hcert'.symm.trans (parseEnvelope_eq_ok_iff.mpr h'.envelope))
    obtain rfl := opens_unique h.opened (henc ▸ h'.opened)
    have hpayload := Spells.unique h.payload h'.payload
    exact DataPayload.mk.inj hpayload
  · intro cert cert' _ _ _ _ plaintext plaintext' henc hplain hsealed
    rw [MachineFile.decodePlaintext_eq_ok_iff] at hplain hsealed
    exact not_opens_both (henc ▸ hplain) hsealed

def recordedSingleKey : MachineCall :=
  .singleKey recordedMachinePem .ed25519Sign recordedKey.val 1767312060

def recordedKeys : SigningKeySet where
  entries := [("test-kid", recordedKey)]

def recordedKeySet : MachineCall :=
  .keySet recordedMachinePem recordedKeys 1767312060

theorem accepted_machine_determined_by_enc_recorded :
    ∃ verified verified',
      recordedSingleKey.run machineRecording.crates none none = .ok verified ∧
      recordedKeySet.run machineRecording.crates none none = .ok verified' ∧
      verified.machine = verified'.machine ∧ verified.claims = verified'.claims := by
  have hcert := parseEnvelope_machinePem machineRecording.crates lines
    (machineText machineRecording "" "" zeroNonce)
  have hsingle : recordedSingleKey.run machineRecording.crates none none = .ok _ :=
    verifyMachineFileAt_recorded
  have hkeySet : recordedKeySet.run machineRecording.crates none none = .ok _ :=
    MachineFile.verifyMachineFileWithKeySetAt_eq_ok_iff.mpr
      ⟨recordedKey, List.mem_cons_self, verifyMachineFileAt_recorded⟩
  refine ⟨_, _, hsingle, hkeySet, ?_⟩
  exact (accepted_machine_determined_by_enc machineRecording.crates).1 none none
    recordedSingleKey recordedKeySet _ _ _ _ hcert hcert rfl hsingle hkeySet

end Machine

section Genuine

variable {c : Crates}

/-- The `enc` and `sig` of a licence file that the server has built and signed
with `key`; `alg` is whatever it is. -/
structure GenuineLicense (c : Crates) (cert : CertPayload) (key : Octets 32)
    (builtAs : EncEncoding) (licenseKey : String) (plaintext : List UInt8) : Prop where
  enc : ∃ nonce, cert.enc = licenseEnc c builtAs licenseKey nonce plaintext
  sig : ∃ keyPair : Ed25519KeyPair c, keyPair.pubkey = key ∧
    cert.sig = c.base64.encode (keyPair.sign (asBytes cert.enc))

structure GenuineMachine (c : Crates) (cert : CertPayload) (key : Octets 32)
    (builtAs : EncEncoding) (licenseKey fingerprint : String)
    (plaintext : List UInt8) : Prop where
  enc : ∃ nonce, cert.enc = machineEnc c builtAs licenseKey fingerprint nonce plaintext
  sig : ∃ keyPair : Ed25519KeyPair c, keyPair.pubkey = key ∧
    cert.sig = c.base64.encode (keyPair.sign (asBytes cert.enc))

/-- The server built `enc` plain, and `alg` declares it a seal. -/
def PlainDeclaredSealed (builtAs : EncEncoding) (cert : CertPayload) : Prop :=
  builtAs = .plain ∧ cert.alg = algName .aes256Gcm "ed25519"

/-- `nonce ‖ ciphertext ‖ tag` under `key`. -/
def IsSeal (c : Crates) (key : Octets 32) (bytes : List UInt8) : Prop :=
  ∃ nonce plaintext, bytes = nonce.val ++ c.aesGcm.encrypt key nonce plaintext

theorem bind_eq_decryptionFailed_iff {J : SerdeJson} {α β : Type}
    {x : Except (CheckoutError J) α} {f : α → Except (CheckoutError J) β}
    (hf : ∀ a, f a ≠ .error (.crypto .decryptionFailed)) :
    (x >>= f) = .error (.crypto .decryptionFailed) ↔
      x = .error (.crypto .decryptionFailed) := by
  rw [bind_eq_error_iff]
  constructor
  · rintro (hx | ⟨a, -, ha⟩)
    · exact hx
    · exact absurd ha (hf a)
  · intro hx
    exact Or.inl hx

theorem enforceExp_ne_decryptionFailed {J : SerdeJson} (claims : LicenseFileClaims)
    (nowUnix : Int64) :
    enforceExp J claims nowUnix ≠ .error (.crypto .decryptionFailed) := by
  rw [enforceExp]
  split
  · split <;> simp
  · simp

theorem license_finish_ne_decryptionFailed (nowUnix : Int64) (plaintext : List UInt8) :
    LicenseFile.finish c plaintext nowUnix ≠ .error (.crypto .decryptionFailed) := by
  intro h
  rcases bind_eq_error_iff.mp h with hread | ⟨payload, -, h⟩
  · obtain ⟨_, -, ⟨⟩⟩ := mapError_eq_error_iff.mp hread
  rcases bind_eq_error_iff.mp h with hexp | ⟨_, -, ⟨⟩⟩
  exact enforceExp_ne_decryptionFailed _ _ hexp

theorem machine_finish_ne_decryptionFailed (nowUnix : Int64) (plaintext : List UInt8) :
    MachineFile.finish c plaintext nowUnix ≠ .error (.crypto .decryptionFailed) := by
  intro h
  rcases bind_eq_error_iff.mp h with hread | ⟨payload, -, h⟩
  · obtain ⟨_, -, ⟨⟩⟩ := mapError_eq_error_iff.mp hread
  rcases bind_eq_error_iff.mp h with hexp | ⟨_, -, ⟨⟩⟩
  exact enforceExp_ne_decryptionFailed _ _ hexp

theorem decrypt_eq_none_of_not_isSeal {key : Octets 32} (nonce : Octets 12)
    {bytes rest : List UInt8} (hseal : ¬IsSeal c key bytes)
    (hbytes : nonce.val ++ rest = bytes) : c.aesGcm.decrypt key nonce rest = none := by
  rw [Option.eq_none_iff_forall_ne_some]
  intro plaintext hdecrypt
  apply hseal
  refine ⟨nonce, plaintext, ?_⟩
  rw [c.aesGcm.encrypt_of_decrypt hdecrypt, hbytes]

/-- With the licence key at hand, bytes read as a seal fail to decrypt exactly
when they are none. -/
theorem license_decryptionFailed_iff_isSeal {cert : CertPayload} {bytes : List UInt8}
    (hdecode : c.base64.decode cert.enc = some bytes) (encoding : EncEncoding)
    (licenseKey : String) :
    LicenseFile.decodePlaintext c cert encoding (some licenseKey) =
        .error (.crypto .decryptionFailed) ↔
      encoding = .aes256Gcm ∧
        ¬IsSeal c (Hkdf.deriveLicenseFileKey c licenseKey) bytes := by
  cases encoding with
  | plain =>
      simp [LicenseFile.decodePlaintext, hdecode, okOr]
  | aes256Gcm =>
      constructor
      · intro h
        refine ⟨rfl, ?_⟩
        rintro ⟨nonce, plaintext, rfl⟩
        have hopened := LicenseFile.decodePlaintext_eq_ok_iff.mpr
          (.aes256Gcm rfl hdecode (c.aesGcm.decrypt_encrypt _ nonce plaintext))
        rw [h] at hopened
        cases hopened
      · rintro ⟨-, hseal⟩
        rw [LicenseFile.decodePlaintext, hdecode]
        simp only [okOr, ok_bind]
        split
        · rfl
        · have hnonce : (bytes.take 12).length = 12 := by
            rw [List.length_take]
            omega
          have hnone := decrypt_eq_none_of_not_isSeal ⟨bytes.take 12, hnonce⟩ hseal
            (List.take_append_drop 12 bytes)
          rw [Crypto.AesGcm.decrypt, hnone]
          rfl

theorem decode_licenseEnc (builtAs : EncEncoding) (licenseKey : String)
    (nonce : Octets 12) (plaintext : List UInt8) :
    ∃ bytes, c.base64.decode (licenseEnc c builtAs licenseKey nonce plaintext) =
        some bytes ∧
      (IsSeal c (Hkdf.deriveLicenseFileKey c licenseKey) bytes ↔
        builtAs = .plain →
          IsSeal c (Hkdf.deriveLicenseFileKey c licenseKey) plaintext) := by
  cases builtAs with
  | plain => exact ⟨plaintext, c.base64.decode_encode _, by simp⟩
  | aes256Gcm =>
      refine ⟨_, c.base64.decode_encode _, ?_⟩
      simp only [reduceCtorEq, false_implies, iff_true]
      exact ⟨nonce, plaintext, rfl⟩

theorem license_decryptionFailed_iff {cert : CertPayload} {key : Octets 32}
    {builtAs : EncEncoding} {licenseKey : String} {plaintext : List UInt8}
    (h : GenuineLicense c cert key builtAs licenseKey plaintext)
    (encoding : EncEncoding) :
    LicenseFile.decodePlaintext c cert encoding (some licenseKey) =
        .error (.crypto .decryptionFailed) ↔
      encoding = .aes256Gcm ∧ builtAs = .plain ∧
        ¬IsSeal c (Hkdf.deriveLicenseFileKey c licenseKey) plaintext := by
  obtain ⟨nonce, henc⟩ := h.enc
  obtain ⟨bytes, hdecode, hseal⟩ := decode_licenseEnc builtAs licenseKey nonce plaintext
  rw [license_decryptionFailed_iff_isSeal (henc ▸ hdecode), hseal, Classical.not_imp]

/-- A machine file that was built plain has no dot, and no key is at fault. -/
theorem machine_decryptionFailed_iff {cert : CertPayload} {key : Octets 32}
    {builtAs : EncEncoding} {licenseKey fingerprint : String} {plaintext : List UInt8}
    (h : GenuineMachine c cert key builtAs licenseKey fingerprint plaintext)
    (encoding : EncEncoding) :
    MachineFile.decodePlaintext c cert encoding (some licenseKey) (some fingerprint) =
        .error (.crypto .decryptionFailed) ↔
      encoding = .aes256Gcm ∧ builtAs = .plain := by
  obtain ⟨nonce, henc⟩ := h.enc
  cases encoding with
  | plain => simp [MachineFile.decodePlaintext]
  | aes256Gcm =>
      cases builtAs with
      | plain =>
          have hdot : splitOnce cert.enc '.' = none := by
            rw [splitOnce_eq_none_iff, henc]
            exact c.base64.not_mem_of_decode (c.base64.decode_encode plaintext) (by decide)
          simp [MachineFile.decodePlaintext, hdot, okOr]
      | aes256Gcm =>
          have hopened := MachineFile.decodePlaintext_eq_ok_iff.mpr (henc ▸
            opens_machineEnc c (fun _ => ⟨rfl, rfl⟩) nonce plaintext)
          simp [hopened]

theorem GenuineLicense.verifySignature {cert : CertPayload} {key : Octets 32}
    {builtAs : EncEncoding} {licenseKey : String} {plaintext : List UInt8}
    (h : GenuineLicense c cert key builtAs licenseKey plaintext) :
    LicenseFile.verifySignature c key cert = .ok () := by
  obtain ⟨keyPair, rfl, hsig⟩ := h.sig
  rw [LicenseFile.verifySignature, decodeSignature, hsig, c.base64.decode_encode]
  exact mapError_eq_ok_iff.mpr (keyPair.verify_sign (asBytes cert.enc))

theorem GenuineMachine.verifySignature {cert : CertPayload} {key : Octets 32}
    {builtAs : EncEncoding} {licenseKey fingerprint : String} {plaintext : List UInt8}
    (h : GenuineMachine c cert key builtAs licenseKey fingerprint plaintext) :
    ∃ sigBytes, decodeSignature c cert = .ok sigBytes ∧
      MachineFile.verifySignature c .ed25519Sign key.val (asBytes cert.enc) sigBytes =
        .ok () := by
  obtain ⟨keyPair, rfl, hsig⟩ := h.sig
  refine ⟨keyPair.sign (asBytes cert.enc), ?_, ?_⟩
  · rw [decodeSignature, hsig, c.base64.decode_encode, okOr]
  · exact MachineFile.verifySignature_eq_ok_iff.mpr
      (.ed25519Sign rfl (keyPair.verify_sign (asBytes cert.enc)))

/-- Past the `alg` gate a genuine file stands and falls with the opening of its
payload. -/
theorem GenuineLicense.verifyLicenseFileAt_eq {pem : String} {cert : CertPayload}
    {key : Octets 32} {builtAs encoding : EncEncoding} {builtFor : String}
    {plaintext : List UInt8} (h : GenuineLicense c cert key builtAs builtFor plaintext)
    (hcert : LicenseFile.parseEnvelope c pem = .ok cert)
    (halg : LicenseFile.validateAlg c.json cert.alg = .ok encoding)
    (licenseKey : Option String) (nowUnix : Int64) :
    LicenseFile.verifyLicenseFileAt c pem key licenseKey nowUnix =
      LicenseFile.decodePlaintext c cert encoding licenseKey >>=
        fun plaintext => LicenseFile.finish c plaintext nowUnix := by
  rw [LicenseFile.verifyLicenseFileAt, hcert, ok_bind, halg, ok_bind,
    h.verifySignature, ok_bind]

theorem GenuineMachine.verifyMachineFileAt_eq {pem : String} {cert : CertPayload}
    {key : Octets 32} {builtAs encoding : EncEncoding} {builtFor builtOn : String}
    {plaintext : List UInt8}
    (h : GenuineMachine c cert key builtAs builtFor builtOn plaintext)
    (hcert : MachineFile.parseEnvelope c pem = .ok cert)
    (halg : MachineFile.parseAlg c.json cert.alg =
      .ok (encoding, schemeAlgSuffix .ed25519Sign))
    (licenseKey fingerprint : Option String) (nowUnix : Int64) :
    MachineFile.verifyMachineFileAt c pem .ed25519Sign key.val licenseKey fingerprint
        nowUnix =
      MachineFile.decodePlaintext c cert encoding licenseKey fingerprint >>=
        fun plaintext => MachineFile.finish c plaintext nowUnix := by
  obtain ⟨sigBytes, hsig, hverified⟩ := h.verifySignature
  rw [MachineFile.verifyMachineFileAt, if_neg (by decide), hcert, ok_bind, halg, ok_bind]
  simp only [ne_eq, not_true_eq_false, if_false, hsig, ok_bind, hverified]

/-- Both entry points fail to decrypt a genuine `enc` exactly when it was built
plain and `alg` has it read as a seal. -/
theorem licenseFile_decryptionFailed_iff {pem : String} {cert : CertPayload}
    {key : Octets 32} {builtAs : EncEncoding} {licenseKey : String}
    {plaintext : List UInt8} {keys : SigningKeySet}
    (hcert : LicenseFile.parseEnvelope c pem = .ok cert)
    (h : GenuineLicense c cert key builtAs licenseKey plaintext)
    (hkey : key ∈ keys.keys) (nowUnix : Int64) :
    (LicenseFile.verifyLicenseFileAt c pem key (some licenseKey) nowUnix =
        .error (.crypto .decryptionFailed) ↔
      PlainDeclaredSealed builtAs cert ∧
        ¬IsSeal c (Hkdf.deriveLicenseFileKey c licenseKey) plaintext) ∧
    (LicenseFile.verifyLicenseFileWithKeySetAt c pem keys (some licenseKey) nowUnix =
        .error (.crypto .decryptionFailed) ↔
      PlainDeclaredSealed builtAs cert ∧
        ¬IsSeal c (Hkdf.deriveLicenseFileKey c licenseKey) plaintext) := by
  have hgrammar : ∀ {encoding}, LicenseFile.validateAlg c.json cert.alg = .ok encoding ↔
      cert.alg = algName encoding "ed25519" :=
    LicenseFile.validateAlg_eq_ok_iff_algName
  by_cases hgate : LicenseGate c pem
  · obtain ⟨cert', encoding, hcert', halg⟩ := hgate
    obtain rfl := Except.ok.inj (hcert.symm.trans hcert')
    have hread : encoding = .aes256Gcm ↔ cert.alg = algName .aes256Gcm "ed25519" := by
      constructor
      · rintro rfl
        exact hgrammar.mp halg
      · intro hname
        exact Except.ok.inj (halg.symm.trans (hgrammar.mpr hname))
    rw [LicenseFile.verifyLicenseFileWithKeySetAt_eq_single hkey
        ⟨cert, encoding, hcert, halg, h.verifySignature⟩,
      h.verifyLicenseFileAt_eq hcert halg,
      bind_eq_decryptionFailed_iff (license_finish_ne_decryptionFailed nowUnix),
      license_decryptionFailed_iff h, hread, and_self, PlainDeclaredSealed, and_assoc]
    exact and_left_comm
  · have hname : cert.alg ≠ algName .aes256Gcm "ed25519" := fun hname =>
      hgate ⟨cert, .aes256Gcm, hcert, hgrammar.mpr hname⟩
    obtain ⟨e, hfault, hsingle, hkeySet⟩ := licenseFile_error_of_not_gate c hgate
    have hne : e ≠ .crypto .decryptionFailed := by
      rintro rfl
      exact hfault.not_payloadFault .decryptionFailed
    rw [hsingle, hkeySet]
    simp [hne, hname, PlainDeclaredSealed]

theorem machineFile_decryptionFailed_iff {pem : String} {cert : CertPayload}
    {key : Octets 32} {builtAs : EncEncoding} {licenseKey fingerprint : String}
    {plaintext : List UInt8} {keys : SigningKeySet}
    (hcert : MachineFile.parseEnvelope c pem = .ok cert)
    (h : GenuineMachine c cert key builtAs licenseKey fingerprint plaintext)
    (hkey : key ∈ keys.keys) (nowUnix : Int64) :
    (MachineFile.verifyMachineFileAt c pem .ed25519Sign key.val (some licenseKey)
        (some fingerprint) nowUnix = .error (.crypto .decryptionFailed) ↔
      PlainDeclaredSealed builtAs cert) ∧
    (MachineFile.verifyMachineFileWithKeySetAt c pem keys (some licenseKey)
        (some fingerprint) nowUnix = .error (.crypto .decryptionFailed) ↔
      PlainDeclaredSealed builtAs cert) := by
  have hgrammar : ∀ {encoding}, MachineFile.parseAlg c.json cert.alg =
      .ok (encoding, schemeAlgSuffix .ed25519Sign) ↔
        cert.alg = algName encoding "ed25519" :=
    MachineFile.parseAlg_eq_ok_iff_of_scheme .ed25519Sign
  by_cases hgate : MachineGate c pem
  · obtain ⟨cert', encoding, hcert', halg⟩ := hgate
    obtain rfl := Except.ok.inj (hcert.symm.trans hcert')
    obtain ⟨sigBytes, hsig, hverified⟩ := h.verifySignature
    have hread : encoding = .aes256Gcm ↔ cert.alg = algName .aes256Gcm "ed25519" := by
      constructor
      · rintro rfl
        exact hgrammar.mp halg
      · intro hname
        have hsealed := halg.symm.trans (hgrammar.mpr hname)
        exact (Prod.mk.inj (Except.ok.inj hsealed)).1
    rw [MachineFile.verifyMachineFileWithKeySetAt_eq_single hkey
        ⟨cert, encoding, sigBytes, hcert, halg, hsig, hverified⟩,
      h.verifyMachineFileAt_eq hcert halg,
      bind_eq_decryptionFailed_iff (machine_finish_ne_decryptionFailed nowUnix),
      machine_decryptionFailed_iff h, hread, and_self]
    exact and_comm
  · have hname : cert.alg ≠ algName .aes256Gcm "ed25519" := fun hname =>
      hgate ⟨cert, .aes256Gcm, hcert, hgrammar.mpr hname⟩
    obtain ⟨e, e', hfault, hsame, hsingle, hkeySet⟩ := machineFile_error_of_not_gate c hgate
    have hne : e ≠ .crypto .decryptionFailed := by
      rintro rfl
      exact hfault.not_payloadFault .decryptionFailed
    have hne' : e' ≠ .crypto .decryptionFailed := by
      rintro rfl
      cases hsame
      exact hne rfl
    rw [hsingle, hkeySet]
    simp [hne, hne', hname, PlainDeclaredSealed]

/-- With the right arguments, a genuine `enc` and `sig` never fail to decrypt,
unless a payload that was built plain is declared a seal and is none. -/
theorem decryptionFailed_iff_plainDeclaredSealed (c : Crates) :
    (∀ pem cert key builtAs licenseKey plaintext keys nowUnix,
      LicenseFile.parseEnvelope c pem = .ok cert →
      GenuineLicense c cert key builtAs licenseKey plaintext → key ∈ keys.keys →
        (LicenseFile.verifyLicenseFileAt c pem key (some licenseKey) nowUnix ≠
            .error (.crypto .decryptionFailed) ↔
          ¬(PlainDeclaredSealed builtAs cert ∧
            ¬IsSeal c (Hkdf.deriveLicenseFileKey c licenseKey) plaintext)) ∧
        (LicenseFile.verifyLicenseFileWithKeySetAt c pem keys (some licenseKey)
            nowUnix ≠ .error (.crypto .decryptionFailed) ↔
          ¬(PlainDeclaredSealed builtAs cert ∧
            ¬IsSeal c (Hkdf.deriveLicenseFileKey c licenseKey) plaintext))) ∧
    (∀ pem cert key builtAs licenseKey fingerprint plaintext keys nowUnix,
      MachineFile.parseEnvelope c pem = .ok cert →
      GenuineMachine c cert key builtAs licenseKey fingerprint plaintext →
      key ∈ keys.keys →
        (MachineFile.verifyMachineFileAt c pem .ed25519Sign key.val (some licenseKey)
            (some fingerprint) nowUnix ≠ .error (.crypto .decryptionFailed) ↔
          ¬PlainDeclaredSealed builtAs cert) ∧
        (MachineFile.verifyMachineFileWithKeySetAt c pem keys (some licenseKey)
            (some fingerprint) nowUnix ≠ .error (.crypto .decryptionFailed) ↔
          ¬PlainDeclaredSealed builtAs cert)) := by
  constructor
  · intro pem cert key builtAs licenseKey plaintext keys nowUnix hcert h hkey
    obtain ⟨hsingle, hkeySet⟩ := licenseFile_decryptionFailed_iff hcert h hkey nowUnix
    exact ⟨not_congr hsingle, not_congr hkeySet⟩
  · intro pem cert key builtAs licenseKey fingerprint plaintext keys nowUnix hcert h hkey
    obtain ⟨hsingle, hkeySet⟩ := machineFile_decryptionFailed_iff hcert h hkey nowUnix
    exact ⟨not_congr hsingle, not_congr hkeySet⟩

def redeclaredLicensePem : String :=
  licensePem licenseRecording.crates lines (licenseRecording.certText .aes256Gcm)

def redeclaredMachinePem : String :=
  machinePem machineRecording.crates lines (machineRecording.certText .aes256Gcm)

theorem genuineLicense_recorded (r : Recording) (encoding : EncEncoding)
    (licenseKey : String) :
    GenuineLicense r.crates (r.cert encoding) r.key .plain licenseKey r.payload where
  enc := ⟨zeroNonce, rfl⟩
  sig := ⟨keyPair r, rfl, rfl⟩

theorem genuineMachine_recorded (r : Recording) (encoding : EncEncoding)
    (licenseKey fingerprint : String) :
    GenuineMachine r.crates (r.cert encoding) r.key .plain licenseKey fingerprint
      r.payload where
  enc := ⟨zeroNonce, rfl⟩
  sig := ⟨keyPair r, rfl, rfl⟩

theorem not_isSeal_recorded (r : Recording) (key : Octets 32) :
    ¬IsSeal r.crates key r.payload := by
  rintro ⟨nonce, plaintext, hpayload⟩
  have hnone := r.parse_seal key nonce nonce.val plaintext
  rw [← hpayload, r.parse_payload] at hnone
  cases hnone

/-- The genuine payloads under a rewritten `alg` fail to decrypt with the right
arguments, after the signature has verified. -/
theorem decryptionFailed_redeclared :
    (LicenseFile.parseEnvelope licenseRecording.crates redeclaredLicensePem =
        .ok (licenseRecording.cert .aes256Gcm) ∧
      GenuineLicense licenseRecording.crates (licenseRecording.cert .aes256Gcm)
        recordedKey .plain "LICENSE-KEY" licenseRecording.payload ∧
      LicenseFile.verifyLicenseFileWithKeySetAt licenseRecording.crates
        redeclaredLicensePem recordedKeys (some "LICENSE-KEY") 1767312060 =
          .error (.crypto .decryptionFailed)) ∧
    (MachineFile.parseEnvelope machineRecording.crates redeclaredMachinePem =
        .ok (machineRecording.cert .aes256Gcm) ∧
      GenuineMachine machineRecording.crates (machineRecording.cert .aes256Gcm)
        recordedKey .plain "LICENSE-KEY" "fp-abc123" machineRecording.payload ∧
      MachineFile.verifyMachineFileWithKeySetAt machineRecording.crates
        redeclaredMachinePem recordedKeys (some "LICENSE-KEY") (some "fp-abc123")
        1767312060 = .error (.crypto .decryptionFailed)) := by
  have hlicense := genuineLicense_recorded licenseRecording .aes256Gcm "LICENSE-KEY"
  have hmachine := genuineMachine_recorded machineRecording .aes256Gcm "LICENSE-KEY"
    "fp-abc123"
  have hlicenseCert := parseEnvelope_licensePem licenseRecording.crates lines
    (licenseRecording.certText .aes256Gcm)
  have hmachineCert := parseEnvelope_machinePem machineRecording.crates lines
    (machineRecording.certText .aes256Gcm)
  have hkey : recordedKey ∈ recordedKeys.keys := List.mem_cons_self
  refine ⟨⟨hlicenseCert, hlicense, ?_⟩, hmachineCert, hmachine, ?_⟩
  · exact (licenseFile_decryptionFailed_iff hlicenseCert hlicense hkey _).2.mpr
      ⟨⟨rfl, rfl⟩, not_isSeal_recorded licenseRecording _⟩
  · exact (machineFile_decryptionFailed_iff hmachineCert hmachine hkey _).2.mpr ⟨rfl, rfl⟩

theorem parseEnvelope_licenseText (r : Recording) :
    LicenseFile.parseEnvelope r.crates
      (licensePem r.crates lines (licenseText r "" zeroNonce)) = .ok (r.cert .plain) :=
  parseEnvelope_licensePem r.crates lines (r.certText .plain)

theorem parseEnvelope_machineText (r : Recording) :
    MachineFile.parseEnvelope r.crates
      (machinePem r.crates lines (machineText r "" "" zeroNonce)) = .ok (r.cert .plain) :=
  parseEnvelope_machinePem r.crates lines (r.certText .plain)

theorem not_plainDeclaredSealed_recorded (r : Recording) :
    ¬PlainDeclaredSealed .plain (r.cert .plain) := by
  rintro ⟨-, halg⟩
  have hnames : algName .plain "ed25519" ≠ algName .aes256Gcm "ed25519" := by decide
  exact hnames halg

theorem decryptionFailed_iff_plainDeclaredSealed_recorded :
    LicenseFile.verifyLicenseFileWithKeySetAt licenseRecording.crates recordedLicensePem
        recordedKeys (some "LICENSE-KEY") 1767312060 ≠
      .error (.crypto .decryptionFailed) ∧
    MachineFile.verifyMachineFileWithKeySetAt machineRecording.crates recordedMachinePem
        recordedKeys (some "LICENSE-KEY") (some "fp-abc123") 1767312060 ≠
      .error (.crypto .decryptionFailed) := by
  have hlicense := genuineLicense_recorded licenseRecording .plain "LICENSE-KEY"
  have hmachine := genuineMachine_recorded machineRecording .plain "LICENSE-KEY"
    "fp-abc123"
  have hkey : recordedKey ∈ recordedKeys.keys := List.mem_cons_self
  constructor
  · refine ((decryptionFailed_iff_plainDeclaredSealed licenseRecording.crates).1 _ _ _ _ _ _
      _ _ (parseEnvelope_licenseText licenseRecording) hlicense hkey).2.mpr ?_
    rintro ⟨hdeclared, -⟩
    exact not_plainDeclaredSealed_recorded licenseRecording hdeclared
  · exact ((decryptionFailed_iff_plainDeclaredSealed machineRecording.crates).2 _ _ _ _ _ _
      _ _ _ (parseEnvelope_machineText machineRecording) hmachine hkey).2.mpr
      (not_plainDeclaredSealed_recorded machineRecording)

end Genuine

end Tamga.UnsignedAlg
