import Tamga.FailureLabels

namespace Tamga.ExpiryDecision

open Library.Prelude
open Library.Serde
open Library.SignedFile
open Tamga.Crypto
open Tamga.Dependencies
open Tamga.Envelope
open Tamga.Errors
open Tamga.FailureLabels
open Tamga.KeySet
open Tamga.MachineFile (LicenseScheme schemeAlgSuffix)
open Tamga.Models
open Tamga.PayloadJson
open Tamga.ServerFiles
open Tamga.SignatureStage
open Tamga.TableCrates

/-- How `exp` may be written: not at all, as `null`, or as an integer of `i64`. -/
inductive ExpWritten (metaMembers : Members) : Option Int64 → Prop
  | absent (h : occurrences "exp" metaMembers = []) : ExpWritten metaMembers none
  | null (h : occurrences "exp" metaMembers = [.null]) : ExpWritten metaMembers none
  | integer {number : Number} {exp : Int64}
      (h : occurrences "exp" metaMembers = [.number number])
      (hvalue : number.toInt? = some exp.toInt) : ExpWritten metaMembers (some exp)

theorem deserialize_i64_iff {value : Json} {i : Int64} :
    i64.deserialize value = some i ↔
      ∃ number, value = .number number ∧ number.toInt? = some i.toInt := by
  constructor
  · intro h
    cases value with
    | number number =>
        obtain ⟨read, hread, h⟩ := Option.bind_eq_some_iff.mp h
        split at h
        · rename_i hrange
          refine ⟨number, rfl, ?_⟩
          rw [hread, ← Option.some.inj h, Int64.toInt_ofInt_of_le hrange.1 (by omega)]
        · cases h
    | _ => cases h
  · rintro ⟨number, rfl, hvalue⟩
    have hlow := i.le_toInt
    have hhigh := i.toInt_lt
    simp only [i64, integer, hvalue, Option.bind_eq_bind, Option.bind_some]
    rw [if_pos (by omega), Int64.ofInt_toInt]

theorem deserialize_exp_iff {value : Json} {exp : Option Int64} :
    (option i64).deserialize value = some exp ↔
      (value = .null ∧ exp = none) ∨ ∃ i, exp = some i ∧ i64.deserialize value = some i := by
  cases value with
  | null => simp [option, i64, integer, eq_comm]
  | _ => simp [option, eq_comm, and_comm]

theorem readField_exp_iff {metaMembers : Members} {exp : Option Int64} :
    readField "exp" (option i64) (some none) metaMembers = some exp ↔
      ExpWritten metaMembers exp := by
  rw [readField_eq_some_iff]
  constructor
  · rintro (⟨habsent, heq⟩ | ⟨value, honly, hread⟩)
    · obtain rfl := Option.some.inj heq
      exact .absent habsent
    · rcases deserialize_exp_iff.mp hread with ⟨rfl, rfl⟩ | ⟨i, rfl, hi⟩
      · exact .null honly
      · obtain ⟨number, rfl, hvalue⟩ := deserialize_i64_iff.mp hi
        exact .integer honly hvalue
  · intro h
    cases h with
    | absent habsent => exact Or.inl ⟨habsent, rfl⟩
    | null honly => exact Or.inr ⟨.null, honly, rfl⟩
    | integer honly hvalue =>
        refine Or.inr ⟨_, honly, deserialize_exp_iff.mpr (Or.inr ⟨_, rfl, ?_⟩)⟩
        exact deserialize_i64_iff.mpr ⟨_, rfl, hvalue⟩

theorem ExpWritten.unique {metaMembers : Members} {exp exp' : Option Int64}
    (h : ExpWritten metaMembers exp) (h' : ExpWritten metaMembers exp') : exp = exp' := by
  rw [← readField_exp_iff] at h h'
  exact Option.some.inj (h.symm.trans h')

theorem expWritten_of_claims {metaMembers : Members} {claims : LicenseFileClaims}
    (h : licenseFileClaims.deserialize (.object metaMembers) = some claims) :
    ExpWritten metaMembers claims.exp := by
  rw [licenseFileClaims, struct_object_iff] at h
  obtain ⟨_, _, hjti, -, rfl⟩ := Fields.next_ofMembers_iff.mp h.2
  obtain ⟨_, _, hexp, -, rfl⟩ := Fields.next_ofMembers_iff.mp hjti
  obtain ⟨_, exp, hiat, hread, rfl⟩ := Fields.next_ofMembers_iff.mp hexp
  obtain ⟨_, _, hdone, -, rfl⟩ := Fields.next_ofMembers_iff.mp hiat
  obtain rfl := Option.some.inj hdone
  exact readField_exp_iff.mp hread

/-- The payload is the JSON object `members`, with the object `metaMembers` as its
`meta`. -/
structure PayloadText (J : SerdeJson) (plaintext : List UInt8) (members metaMembers : Members) :
    Prop where
  parse : J.parse plaintext = some (.object members)
  meta_mem : (some "meta", .object metaMembers) ∈ members

section Payload

variable {J : SerdeJson} {R : Type} {resource : Deserialize R} {plaintext : List UInt8}
  {members metaMembers : Members}

theorem PayloadText.expWritten {payload : DataPayload R}
    (htext : PayloadText J plaintext members metaMembers)
    (hspells : Spells J resource plaintext payload) :
    ExpWritten metaMembers payload.«meta».exp := by
  obtain ⟨document, hdocument, hread⟩ := hspells
  obtain rfl := Option.some.inj (hdocument.symm.trans htext.parse)
  obtain ⟨-, -, hclaims⟩ := dataPayload_object_iff.mp hread
  exact expWritten_of_claims (occurrences_eq_of_readField hclaims htext.meta_mem).2

theorem PayloadText.fromSlice_error (htext : PayloadText J plaintext members metaMembers)
    (hexp : ∀ exp, ¬ExpWritten metaMembers exp) (target : String) (resource : Deserialize R) :
    ∃ e, J.fromSlice target (dataPayload resource) plaintext = .error e := by
  apply error_of_not_ok
  intro payload hread
  exact hexp _ (htext.expWritten (fromSlice_eq_ok_iff_spells.mp hread))

end Payload

/-- What the verdict of an entry point is at each time, for a payload that reads as
`claims` from `metaMembers` and would be accepted as `verified`. -/
structure Decided {J : SerdeJson} {V : Type} (metaMembers : Members)
    (claims : LicenseFileClaims) (verified : V)
    (verdict : Int64 → Except (CheckoutError J) V) : Prop where
  expired_iff : ∀ nowUnix exp, verdict nowUnix = .error (.expired exp) ↔
    ExpWritten metaMembers (some exp) ∧ nowUnix.toInt - 60 > exp.toInt
  accepted : ∀ nowUnix, (∀ exp, verdict nowUnix ≠ .error (.expired exp)) →
    verdict nowUnix = .ok verified
  monotone : ∀ nowUnix later exp, nowUnix ≤ later →
    verdict nowUnix = .error (.expired exp) → verdict later = .error (.expired exp)
  exp_none_iff : claims.exp = none ↔
    occurrences "exp" metaMembers = [] ∨ occurrences "exp" metaMembers = [.null]

section Verdict

variable {J : SerdeJson} {V : Type} {claims : LicenseFileClaims} {verified : V}
  {verdict : Int64 → Except (CheckoutError J) V}

theorem enforceExp_eq_expired_iff {nowUnix exp : Int64} :
    enforceExp J claims nowUnix = .error (.expired exp) ↔
      claims.exp = some exp ∧ nowUnix.toInt - 60 > exp.toInt := by
  constructor
  · intro h
    have hexpired : Expired claims nowUnix := by
      by_contra hnot
      rw [enforceExp_of_not_expired hnot] at h
      cases h
    obtain ⟨signed, hsigned, hpast⟩ := hexpired
    rw [enforceExp_of_past hsigned hpast] at h
    cases h
    exact ⟨hsigned, hpast⟩
  · rintro ⟨hexp, hpast⟩
    exact enforceExp_of_past hexp hpast

theorem map_eq_expired_iff
    (hverdict : ∀ nowUnix, verdict nowUnix = (enforceExp J claims nowUnix).map fun _ => verified)
    {nowUnix exp : Int64} :
    verdict nowUnix = .error (.expired exp) ↔
      claims.exp = some exp ∧ nowUnix.toInt - 60 > exp.toInt := by
  rw [hverdict, ← enforceExp_eq_expired_iff (J := J)]
  cases enforceExp J claims nowUnix <;> simp [Except.map]

theorem decided_of_enforceExp {metaMembers : Members}
    (hverdict : ∀ nowUnix, verdict nowUnix = (enforceExp J claims nowUnix).map fun _ => verified)
    (hwritten : ExpWritten metaMembers claims.exp) :
    Decided metaMembers claims verified verdict where
  expired_iff nowUnix exp := by
    rw [map_eq_expired_iff hverdict]
    apply and_congr_left'
    constructor
    · intro hexp
      exact hexp ▸ hwritten
    · exact hwritten.unique
  accepted nowUnix hnot := by
    have hlive : ¬Expired claims nowUnix := by
      rintro ⟨exp, hexp⟩
      exact hnot exp ((map_eq_expired_iff hverdict).mpr hexp)
    rw [hverdict, enforceExp_of_not_expired hlive]
    rfl
  monotone nowUnix later exp hle hexpired := by
    rw [map_eq_expired_iff hverdict] at hexpired ⊢
    have hlater := Int64.le_iff_toInt_le.mp hle
    exact ⟨hexpired.1, by omega⟩
  exp_none_iff := by
    constructor
    · intro hnone
      rw [hnone] at hwritten
      cases hwritten with
      | absent h => exact Or.inl h
      | null h => exact Or.inr h
    · rintro (h | h)
      · exact hwritten.unique (.absent h)
      · exact hwritten.unique (.null h)

end Verdict

variable {c : Crates}

/-- An entry point for licence files that a key of the caller leads to
`plaintext`. -/
inductive LicenseReads (c : Crates) (plaintext : List UInt8) :
    (Int64 → Except (CheckoutError c.json) (LicenseFile.VerifiedLicenseFile c.json)) → Prop
  | singleKey {pem : String} {key : Octets 32} {licenseKey : Option String}
      (hverified : LicenseFile.SignatureVerified c pem key)
      (hcarries : LicenseCarries c pem licenseKey plaintext) :
      LicenseReads c plaintext (LicenseFile.verifyLicenseFileAt c pem key licenseKey)
  | keySet {pem : String} {keys : SigningKeySet} {key : Octets 32} {licenseKey : Option String}
      (hkey : key ∈ keys.keys) (hverified : LicenseFile.SignatureVerified c pem key)
      (hcarries : LicenseCarries c pem licenseKey plaintext) :
      LicenseReads c plaintext (LicenseFile.verifyLicenseFileWithKeySetAt c pem keys licenseKey)

def SchemeCarries (c : Crates) (pem : String) (scheme : LicenseScheme)
    (licenseKey fingerprint : Option String) (plaintext : List UInt8) : Prop :=
  ∃ cert encoding, MachineFile.parseEnvelope c pem = .ok cert ∧
    MachineFile.parseAlg c.json cert.alg = .ok (encoding, schemeAlgSuffix scheme) ∧
    MachineFile.decodePlaintext c cert encoding licenseKey fingerprint = .ok plaintext

inductive MachineReads (c : Crates) (plaintext : List UInt8) :
    (Int64 → Except (CheckoutError c.json) (MachineFile.VerifiedMachineFile c.json)) → Prop
  | singleKey {pem : String} {scheme : LicenseScheme} {pubkey : List UInt8}
      {licenseKey fingerprint : Option String}
      (hverified : MachineFile.SignatureVerified c pem scheme pubkey)
      (hcarries : SchemeCarries c pem scheme licenseKey fingerprint plaintext) :
      MachineReads c plaintext
        (MachineFile.verifyMachineFileAt c pem scheme pubkey licenseKey fingerprint)
  | keySet {pem : String} {keys : SigningKeySet} {key : Octets 32}
      {licenseKey fingerprint : Option String} (hkey : key ∈ keys.keys)
      (hverified : MachineFile.SignatureVerified c pem .ed25519Sign key.val)
      (hcarries : SchemeCarries c pem .ed25519Sign licenseKey fingerprint plaintext) :
      MachineReads c plaintext
        (MachineFile.verifyMachineFileWithKeySetAt c pem keys licenseKey fingerprint)

theorem verifyLicenseFileAt_eq_finish {pem : String} {key : Octets 32}
    {licenseKey : Option String} {plaintext : List UInt8}
    (hverified : LicenseFile.SignatureVerified c pem key)
    (hcarries : LicenseCarries c pem licenseKey plaintext) (nowUnix : Int64) :
    LicenseFile.verifyLicenseFileAt c pem key licenseKey nowUnix =
      LicenseFile.finish c plaintext nowUnix := by
  obtain ⟨cert, encoding, hcert, halg, hcheck⟩ := hverified
  obtain ⟨cert', encoding', hcert', halg', hopened⟩ := hcarries
  obtain rfl := Except.ok.inj (hcert.symm.trans hcert')
  obtain rfl := Except.ok.inj (halg.symm.trans halg')
  simp only [LicenseFile.verifyLicenseFileAt, hcert, halg, hcheck, hopened, ok_bind]

theorem LicenseReads.eq_finish {plaintext : List UInt8}
    {verdict : Int64 → Except (CheckoutError c.json) (LicenseFile.VerifiedLicenseFile c.json)}
    (h : LicenseReads c plaintext verdict) (nowUnix : Int64) :
    verdict nowUnix = LicenseFile.finish c plaintext nowUnix := by
  cases h with
  | singleKey hverified hcarries => exact verifyLicenseFileAt_eq_finish hverified hcarries nowUnix
  | keySet hkey hverified hcarries =>
      rw [LicenseFile.verifyLicenseFileWithKeySetAt_eq_single hkey hverified]
      exact verifyLicenseFileAt_eq_finish hverified hcarries nowUnix

theorem verifyMachineFileAt_eq_finish {pem : String} {scheme : LicenseScheme}
    {pubkey : List UInt8} {licenseKey fingerprint : Option String} {plaintext : List UInt8}
    (hverified : MachineFile.SignatureVerified c pem scheme pubkey)
    (hcarries : SchemeCarries c pem scheme licenseKey fingerprint plaintext) (nowUnix : Int64) :
    MachineFile.verifyMachineFileAt c pem scheme pubkey licenseKey fingerprint nowUnix =
      MachineFile.finish c plaintext nowUnix := by
  obtain ⟨cert, encoding, sigBytes, hcert, halg, hsig, hcheck⟩ := hverified
  obtain ⟨cert', encoding', hcert', halg', hopened⟩ := hcarries
  obtain rfl := Except.ok.inj (hcert.symm.trans hcert')
  obtain ⟨rfl, -⟩ := Prod.mk.inj (Except.ok.inj (halg.symm.trans halg'))
  have hscheme : scheme ≠ .rsa2048JwtRs256 := by
    rintro rfl
    cases hcheck
  simp only [MachineFile.verifyMachineFileAt, if_neg hscheme, hcert, halg, hsig, hcheck, hopened,
    ok_bind, ne_eq, not_true_eq_false, if_false]

theorem MachineReads.eq_finish {plaintext : List UInt8}
    {verdict : Int64 → Except (CheckoutError c.json) (MachineFile.VerifiedMachineFile c.json)}
    (h : MachineReads c plaintext verdict) (nowUnix : Int64) :
    verdict nowUnix = MachineFile.finish c plaintext nowUnix := by
  cases h with
  | singleKey hverified hcarries => exact verifyMachineFileAt_eq_finish hverified hcarries nowUnix
  | keySet hkey hverified hcarries =>
      rw [MachineFile.verifyMachineFileWithKeySetAt_eq_single hkey hverified]
      exact verifyMachineFileAt_eq_finish hverified hcarries nowUnix

def SameVerdict {J : SerdeJson} {V V' : Type} (result : Except (CheckoutError J) V)
    (result' : Except (CheckoutError J) V') : Prop :=
  (∀ exp, result = .error (.expired exp) ↔ result' = .error (.expired exp)) ∧
    ((∃ verified, result = .ok verified) ↔ ∃ verified, result' = .ok verified)

theorem sameVerdict_map {J : SerdeJson} {V V' : Type} (result : Except (CheckoutError J) Unit)
    (verified : V) (verified' : V') :
    SameVerdict (result.map fun _ => verified) (result.map fun _ => verified') := by
  constructor <;> cases result <;> simp [Except.map]

/-- A verified file is decided by `exp` alone, in unbounded integers, once and for
all later times, and alike in both formats; what is no `exp` that the claims know
is an error of the JSON at any time. -/
theorem expiry_decided (c : Crates) :
    (∀ plaintext members metaMembers payload verdict,
      PayloadText c.json plaintext members metaMembers →
      Spells c.json (licenseResource c.json) plaintext payload →
      LicenseReads c plaintext verdict →
        Decided metaMembers payload.«meta»
          { license := payload.data, claims := payload.«meta» } verdict) ∧
    (∀ plaintext members metaMembers payload verdict,
      PayloadText c.json plaintext members metaMembers →
      Spells c.json (machineResource c.json) plaintext payload →
      MachineReads c plaintext verdict →
        Decided metaMembers payload.«meta»
          { machine := payload.data, claims := payload.«meta» } verdict) ∧
    (∀ plaintext plaintext' payload payload' verdict verdict',
      Spells c.json (licenseResource c.json) plaintext payload →
      Spells c.json (machineResource c.json) plaintext' payload' →
      payload.«meta» = payload'.«meta» →
      LicenseReads c plaintext verdict → MachineReads c plaintext' verdict' →
        ∀ nowUnix, SameVerdict (verdict nowUnix) (verdict' nowUnix)) ∧
    (∀ plaintext members metaMembers,
      PayloadText c.json plaintext members metaMembers →
      (∀ exp, ¬ExpWritten metaMembers exp) →
        (∀ verdict, LicenseReads c plaintext verdict →
          ∃ e, ∀ nowUnix, verdict nowUnix = .error (.invalidJson e)) ∧
        (∀ verdict, MachineReads c plaintext verdict →
          ∃ e, ∀ nowUnix, verdict nowUnix = .error (.invalidJson e))) := by
  refine ⟨?_, ?_, ?_, ?_⟩
  · intro plaintext members metaMembers payload verdict htext hspells hreads
    apply decided_of_enforceExp _ (htext.expWritten hspells)
    intro nowUnix
    rw [hreads.eq_finish, LicenseFile.finish_of_spells hspells]
  · intro plaintext members metaMembers payload verdict htext hspells hreads
    apply decided_of_enforceExp _ (htext.expWritten hspells)
    intro nowUnix
    rw [hreads.eq_finish, MachineFile.finish_of_spells hspells]
  · intro plaintext plaintext' payload payload' verdict verdict' hspells hspells' hclaims
      hreads hreads' nowUnix
    rw [hreads.eq_finish, hreads'.eq_finish, LicenseFile.finish_of_spells hspells,
      MachineFile.finish_of_spells hspells', hclaims]
    apply sameVerdict_map
  · intro plaintext members metaMembers htext hexp
    constructor
    · intro verdict hreads
      obtain ⟨e, he⟩ := htext.fromSlice_error hexp "license_file::DataPayload"
        (licenseResource c.json)
      refine ⟨e, fun nowUnix => ?_⟩
      rw [hreads.eq_finish, LicenseFile.finish, he]
      rfl
    · intro verdict hreads
      obtain ⟨e, he⟩ := htext.fromSlice_error hexp "machine_file::DataPayload"
        (machineResource c.json)
      refine ⟨e, fun nowUnix => ?_⟩
      rw [hreads.eq_finish, MachineFile.finish, he]
      rfl

theorem licenseCarries_recorded (r : Recording) :
    LicenseCarries r.crates (licensePem r.crates lines (licenseText r "" zeroNonce)) none
      r.payload := by
  obtain ⟨hcert, halg, -⟩ := LicenseFile.signedPart_eq_ok_iff.mp (signedPart_recorded r lines)
  exact ⟨_, _, hcert, halg, decodePlaintext_recorded r⟩

theorem signatureVerified_recorded (r : Recording) :
    LicenseFile.SignatureVerified r.crates
      (licensePem r.crates lines (licenseText r "" zeroNonce)) r.key :=
  LicenseFile.checked_iff.mp
    ⟨_, signedPart_recorded r lines, checkKey_licenseSigned r.crates (keyPair r) .plain _⟩

theorem licenseReads_recorded (r : Recording) :
    LicenseReads r.crates r.payload (LicenseFile.verifyLicenseFileAt r.crates
      (licensePem r.crates lines (licenseText r "" zeroNonce)) r.key none) :=
  .singleKey (signatureVerified_recorded r) (licenseCarries_recorded r)

theorem machineReads_recorded :
    MachineReads machineRecording.crates machineRecording.payload
      (MachineFile.verifyMachineFileWithKeySetAt machineRecording.crates recordedMachinePem
        { entries := [("test-kid", recordedKey)] } none none) := by
  have hkey : recordedKey ∈ (SigningKeySet.mk [("test-kid", recordedKey)]).keys :=
    List.mem_cons_self
  have hverified := signatureVerified_machinePem machineRecording.crates
    (machineText machineRecording "" "" zeroNonce) lines
  refine .keySet hkey hverified ?_
  obtain ⟨hcert, halg, -⟩ := MachineFile.signedPart_eq_ok_iff.mp
    (signedPart_machinePem machineRecording.crates lines
      (machineText machineRecording "" "" zeroNonce)
      (MachineFile.schemeMismatch machineRecording.crates))
  exact ⟨_, _, hcert, halg, MachineFile.decodePlaintext_eq_ok_iff.mpr
    (.plain (machineRecording.crates.base64.decode_encode machineRecording.payload))⟩

def quotedRecording : Recording where
  inner := "0,\"meta\":\x7b\"exp\":\"1767312000\"\x7d"
  document := objectJson
    [("data", i64Json 0), ("meta", objectJson [("exp", textJson "1767312000")])]
  key := recordedKey
  signature := zeroSignature
  derivedKey := zeroKey

theorem expiry_decided_recorded :
    (LicenseFile.verifyLicenseFileAt licenseRecording.crates recordedLicensePem recordedKey none
        1767312061 = .error (.expired 1767312000)) ∧
    (MachineFile.verifyMachineFileWithKeySetAt machineRecording.crates recordedMachinePem
        { entries := [("test-kid", recordedKey)] } none none 1767312061 =
      .error (.expired 1767312000)) ∧
    (∃ e, ∀ nowUnix, LicenseFile.verifyLicenseFileAt quotedRecording.crates
        (licensePem quotedRecording.crates lines (licenseText quotedRecording "" zeroNonce))
        recordedKey none nowUnix = .error (.invalidJson e)) := by
  have hexp : ExpWritten [(some "iat", i64Json 1767225600), (some "exp", i64Json 1767312000),
      (some "jti", textJson "test-jti"), (some "kid", textJson "test-kid")]
      (some 1767312000) :=
    .integer rfl (by decide)
  refine ⟨?_, ?_, ?_⟩
  · have hdecided := (expiry_decided licenseRecording.crates).1 _ _ _ _ _
      ⟨licenseRecording.parse_payload, List.mem_cons_of_mem _ List.mem_cons_self⟩
      spells_recordedLicense (licenseReads_recorded licenseRecording)
    exact (hdecided.expired_iff 1767312061 1767312000).mpr ⟨hexp, by decide⟩
  · have hdecided := (expiry_decided machineRecording.crates).2.1 _ _ _ _ _
      ⟨machineRecording.parse_payload, List.mem_cons_of_mem _ List.mem_cons_self⟩
      spells_recordedMachine machineReads_recorded
    exact (hdecided.expired_iff 1767312061 1767312000).mpr ⟨hexp, by decide⟩
  · refine ((expiry_decided quotedRecording.crates).2.2.2 _ _ _
      ⟨quotedRecording.parse_payload, List.mem_cons_of_mem _ List.mem_cons_self⟩ ?_).1 _
      (licenseReads_recorded quotedRecording)
    rintro exp (habsent | hnull | ⟨hnumber, -⟩)
    · cases habsent
    · cases hnull
    · cases hnumber

end Tamga.ExpiryDecision
