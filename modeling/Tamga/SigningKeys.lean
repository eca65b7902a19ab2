import Tamga.FailureLabels

namespace Tamga.SigningKeys

open Library.Prelude
open Library.SignedFile
open Library.Text
open Tamga.Crypto
open Tamga.Dependencies
open Tamga.Envelope
open Tamga.Errors
open Tamga.FailureLabels
open Tamga.KeySet
open Tamga.MachineFile (schemeAlgSuffix)
open Tamga.ServerFiles
open Tamga.SignatureStage
open Tamga.TableCrates

structure SigningKeyAttributes (J : SerdeJson) where
  algorithm : String
  publicKey : String
  status : String
  created : J.DateTime
  retired : Option J.DateTime

structure SigningKeyResource (J : SerdeJson) where
  id : String
  resourceType : String
  attributes : SigningKeyAttributes J

def ed25519Algorithm : String := "ed25519"

section Constructors

variable (c : Crates)

/-- The loop of `from_public_keys`: a key that does not decode ends it. -/
def publicKeyEntries : List String → Except CryptoError (List (String × Octets 32))
  | [] => .ok []
  | b64 :: publicKeys => do
      let bytes ← Ed25519.publicKeyFromBase64 c b64
      let entries ← publicKeyEntries publicKeys
      return (Ed25519.keyId c b64, bytes) :: entries

def fromPublicKeys (publicKeys : List String) : Except CryptoError SigningKeySet := do
  let entries ← publicKeyEntries c publicKeys
  return { entries }

/-- A row that does not decode is skipped. -/
def fromResources (resources : List (SigningKeyResource c.json)) : SigningKeySet where
  entries :=
    (resources.filter fun r => eqIgnoreAsciiCase r.attributes.algorithm ed25519Algorithm)
      |>.filterMap fun r =>
        (Ed25519.publicKeyFromBase64 c r.attributes.publicKey).toOption.map fun bytes =>
          (r.id, bytes)

def isPublicKey (b64 : String) : Bool :=
  match c.base64.decode b64 with
  | some bytes => bytes.length == 32
  | none => false

/-- A row that `from_resources` does not skip. -/
def isKept (row : SigningKeyResource c.json) : Bool :=
  eqIgnoreAsciiCase row.attributes.algorithm ed25519Algorithm &&
    isPublicKey c row.attributes.publicKey

end Constructors

variable {c : Crates}

theorem isPublicKey_iff {b64 : String} :
    isPublicKey c b64 = true ↔ ∃ key, Ed25519.publicKeyFromBase64 c b64 = .ok key := by
  simp only [isPublicKey, Ed25519.publicKeyFromBase64_eq_ok_iff]
  cases c.base64.decode b64 with
  | none => simp
  | some bytes =>
      rw [beq_iff_eq]
      constructor
      · intro hlength
        exact ⟨⟨bytes, hlength⟩, rfl⟩
      · rintro ⟨key, hkey⟩
        rw [Option.some.inj hkey, key.property]

section Pinned

theorem publicKeyEntries_eq_ok_iff {publicKeys : List String}
    {entries : List (String × Octets 32)} :
    publicKeyEntries c publicKeys = .ok entries ↔
      List.Forall₂ (fun b64 entry => entry.1 = Ed25519.keyId c b64 ∧
        Ed25519.publicKeyFromBase64 c b64 = .ok entry.2) publicKeys entries := by
  induction publicKeys generalizing entries with
  | nil => simp [publicKeyEntries, eq_comm]
  | cons b64 publicKeys ih =>
      simp only [publicKeyEntries, bind_eq_ok_iff, ih, pure, Except.pure, Except.ok.injEq,
        List.forall₂_cons_left_iff]
      constructor
      · rintro ⟨key, hkey, entries, hentries, rfl⟩
        exact ⟨_, _, ⟨rfl, hkey⟩, hentries, rfl⟩
      · rintro ⟨⟨kid, key⟩, entries, ⟨rfl, hkey⟩, hentries, rfl⟩
        exact ⟨key, hkey, entries, hentries, rfl⟩

theorem fromPublicKeys_eq_ok_iff {publicKeys : List String} {keys : SigningKeySet} :
    fromPublicKeys c publicKeys = .ok keys ↔
      List.Forall₂ (fun b64 entry => entry.1 = Ed25519.keyId c b64 ∧
        Ed25519.publicKeyFromBase64 c b64 = .ok entry.2) publicKeys keys.entries := by
  simp only [fromPublicKeys, bind_eq_ok_iff, publicKeyEntries_eq_ok_iff, pure, Except.pure,
    Except.ok.injEq]
  constructor
  · rintro ⟨entries, hentries, rfl⟩
    exact hentries
  · intro hentries
    exact ⟨keys.entries, hentries, rfl⟩

theorem publicKeyEntries_of_forall {publicKeys : List String}
    (h : ∀ b64 ∈ publicKeys, isPublicKey c b64 = true) :
    ∃ entries, publicKeyEntries c publicKeys = .ok entries := by
  induction publicKeys with
  | nil => exact ⟨[], rfl⟩
  | cons b64 publicKeys ih =>
      obtain ⟨key, hkey⟩ := isPublicKey_iff.mp (h b64 List.mem_cons_self)
      obtain ⟨entries, hentries⟩ :=
        ih fun other hmem => h other (List.mem_cons_of_mem _ hmem)
      refine ⟨(Ed25519.keyId c b64, key) :: entries, ?_⟩
      rw [publicKeyEntries, hkey, hentries]
      rfl

theorem publicKeyEntries_of_not_forall {publicKeys : List String}
    (h : ¬∀ b64 ∈ publicKeys, isPublicKey c b64 = true) :
    publicKeyEntries c publicKeys = .error .invalidKey := by
  induction publicKeys with
  | nil => exact absurd (fun b64 hmem => by cases hmem) h
  | cons b64 publicKeys ih =>
      cases hkey : Ed25519.publicKeyFromBase64 c b64 with
      | error e =>
          have hnone : ∀ key, Ed25519.publicKeyFromBase64 c b64 ≠ .ok key := by
            rw [hkey]
            rintro _ ⟨⟩
          have herror := Ed25519.publicKeyFromBase64_eq_error hnone
          rw [publicKeyEntries, herror]
          rfl
      | ok key =>
          have hrest : ¬∀ other ∈ publicKeys, isPublicKey c other = true := by
            intro hall
            exact h (List.forall_mem_cons.mpr ⟨isPublicKey_iff.mpr ⟨key, hkey⟩, hall⟩)
          rw [publicKeyEntries, hkey, ih hrest]
          rfl

/-- Strict: one key that does not decode refuses the whole list. -/
theorem fromPublicKeys_of_not_forall {publicKeys : List String}
    (h : ¬∀ b64 ∈ publicKeys, isPublicKey c b64 = true) :
    fromPublicKeys c publicKeys = .error .invalidKey := by
  rw [fromPublicKeys, publicKeyEntries_of_not_forall h]
  rfl

theorem exists_fromPublicKeys_iff {publicKeys : List String} :
    (∃ keys, fromPublicKeys c publicKeys = .ok keys) ↔
      ∀ b64 ∈ publicKeys, isPublicKey c b64 = true := by
  constructor
  · rintro ⟨keys, hkeys⟩
    by_contra h
    rw [fromPublicKeys_of_not_forall h] at hkeys
    cases hkeys
  · intro h
    obtain ⟨entries, hentries⟩ := publicKeyEntries_of_forall h
    exact ⟨{ entries }, by rw [fromPublicKeys, hentries]; rfl⟩

end Pinned

section Published

variable {rows front back : List (SigningKeyResource c.json)} {row : SigningKeyResource c.json}

theorem entries_append :
    (fromResources c (front ++ back)).entries =
      (fromResources c front).entries ++ (fromResources c back).entries := by
  simp only [fromResources, List.filter_append, List.filterMap_append]

theorem entries_of_kept (h : isKept c row = true) {key : Octets 32}
    (hkey : Ed25519.publicKeyFromBase64 c row.attributes.publicKey = .ok key) :
    (fromResources c [row]).entries = [(row.id, key)] := by
  rw [isKept, Bool.and_eq_true] at h
  simp [fromResources, h.1, hkey, Except.toOption]

theorem entries_of_not_kept (h : isKept c row ≠ true) :
    (fromResources c [row]).entries = [] := by
  rw [ne_eq, isKept, Bool.and_eq_true, not_and] at h
  by_cases halgorithm : eqIgnoreAsciiCase row.attributes.algorithm ed25519Algorithm = true
  · have hkey : (Ed25519.publicKeyFromBase64 c row.attributes.publicKey).toOption = none := by
      cases hkey : Ed25519.publicKeyFromBase64 c row.attributes.publicKey with
      | error e => rfl
      | ok key => exact absurd (isPublicKey_iff.mpr ⟨key, hkey⟩) (h halgorithm)
    simp [fromResources, hkey]
  · simp [fromResources, halgorithm]

theorem fromResources_skip (h : isKept c row ≠ true) :
    fromResources c (front ++ row :: back) = fromResources c (front ++ back) := by
  have hentries : (fromResources c (front ++ row :: back)).entries =
      (fromResources c (front ++ back)).entries := by
    rw [← List.singleton_append, entries_append, entries_append, entries_append,
      entries_of_not_kept h, List.nil_append]
  exact congrArg SigningKeySet.mk hentries

theorem mem_entries_iff {entry : String × Octets 32} :
    entry ∈ (fromResources c rows).entries ↔ ∃ row ∈ rows, isKept c row = true ∧
      row.id = entry.1 ∧
        Ed25519.publicKeyFromBase64 c row.attributes.publicKey = .ok entry.2 := by
  induction rows with
  | nil => simp [fromResources]
  | cons row rows ih =>
      rw [← List.singleton_append, entries_append, List.mem_append, ih]
      simp only [List.singleton_append, List.mem_cons, exists_eq_or_imp]
      apply or_congr_left
      by_cases hkept : isKept c row = true
      · obtain ⟨key, hkey⟩ := isPublicKey_iff.mp (Bool.and_eq_true_iff.mp hkept).2
        rw [entries_of_kept hkept hkey, List.mem_singleton, hkey, Except.ok.injEq]
        constructor
        · rintro rfl
          exact ⟨hkept, rfl, rfl⟩
        · rintro ⟨-, hid, rfl⟩
          exact Prod.ext hid.symm rfl
      · simp [entries_of_not_kept hkept, hkept]

theorem mem_kids_iff {kid : String} :
    kid ∈ (fromResources c rows).kids ↔ ∃ row ∈ rows, isKept c row = true ∧ row.id = kid := by
  simp only [SigningKeySet.kids, List.mem_map, mem_entries_iff]
  constructor
  · rintro ⟨entry, ⟨row, hmem, hkept, hid, -⟩, rfl⟩
    exact ⟨row, hmem, hkept, hid⟩
  · rintro ⟨row, hmem, hkept, rfl⟩
    obtain ⟨key, hkey⟩ := isPublicKey_iff.mp (Bool.and_eq_true_iff.mp hkept).2
    exact ⟨(row.id, key), ⟨row, hmem, hkept, rfl, hkey⟩, rfl⟩

/-- The lenient constructor keeps what the strict one would have taken. -/
theorem publicKeyEntries_kept
    (hids : ∀ row ∈ rows, row.id = Ed25519.keyId c row.attributes.publicKey) :
    publicKeyEntries c ((rows.filter (isKept c)).map (·.attributes.publicKey)) =
      .ok (fromResources c rows).entries := by
  induction rows with
  | nil => rfl
  | cons row rows ih =>
      have hrest := ih fun other hmem => hids other (List.mem_cons_of_mem _ hmem)
      rw [← List.singleton_append, entries_append, List.singleton_append]
      by_cases hkept : isKept c row = true
      · obtain ⟨key, hkey⟩ := isPublicKey_iff.mp (Bool.and_eq_true_iff.mp hkept).2
        rw [List.filter_cons_of_pos hkept, List.map_cons, publicKeyEntries, hkey, hrest,
          entries_of_kept hkept hkey, hids row List.mem_cons_self]
        rfl
      · rw [List.filter_cons_of_neg hkept, hrest, entries_of_not_kept hkept, List.nil_append]

theorem fromPublicKeys_kept
    (hids : ∀ row ∈ rows, row.id = Ed25519.keyId c row.attributes.publicKey) :
    fromPublicKeys c ((rows.filter (isKept c)).map (·.attributes.publicKey)) =
      .ok (fromResources c rows) := by
  rw [fromPublicKeys, publicKeyEntries_kept hids]
  rfl

end Published

/-- A well-formed file that opens and names `kid`, with a signature of 64 octets
that no key of the set has made, is reported as signed by an unknown key. -/
structure ReportedUnknown (c : Crates) (keys : SigningKeySet) (kid : String) : Prop where
  license : ∀ pem cert encoding sigBytes licenseKey plaintext nowUnix,
    LicenseFile.parseEnvelope c pem = .ok cert →
    LicenseFile.validateAlg c.json cert.alg = .ok encoding →
    decodeSignature c cert = .ok sigBytes → sigBytes.length = 64 →
    LicenseFile.decodePlaintext c cert encoding licenseKey = .ok plaintext →
    probeKid c plaintext = .ok kid →
    (∀ key ∈ keys.keys, Ed25519.verify c key (asBytes cert.enc) sigBytes ≠ .ok ()) →
      LicenseFile.verifyLicenseFileWithKeySetAt c pem keys licenseKey nowUnix =
        .error (.unknownSigningKey kid)
  machine : ∀ pem cert encoding sigBytes licenseKey fingerprint plaintext nowUnix,
    MachineFile.parseEnvelope c pem = .ok cert →
    MachineFile.parseAlg c.json cert.alg = .ok (encoding, schemeAlgSuffix .ed25519Sign) →
    decodeSignature c cert = .ok sigBytes → sigBytes.length = 64 →
    MachineFile.decodePlaintext c cert encoding licenseKey fingerprint = .ok plaintext →
    probeKid c plaintext = .ok kid →
    (∀ key ∈ keys.keys, Ed25519.verify c key (asBytes cert.enc) sigBytes ≠ .ok ()) →
      MachineFile.verifyMachineFileWithKeySetAt c pem keys licenseKey fingerprint nowUnix =
        .error (.unknownSigningKey kid)

theorem verifyAny_of_unknown {keys : SigningKeySet} {kid : String} (hkid : kid ∉ keys.kids)
    {Verdict : Type} {signed : Except (CheckoutError c.json) SignedPart} {file : SignedPart}
    {openPayload : SignedPart → Except (CheckoutError c.json) (List UInt8)}
    {finish : List UInt8 → Except (CheckoutError c.json) Verdict} {plaintext : List UInt8}
    (hsigned : signed = .ok file) (hlength : file.signature.length = 64)
    (hopened : openPayload file = .ok plaintext) (hprobe : probeKid c plaintext = .ok kid)
    (hnone : ∀ key ∈ keys.keys,
      Ed25519.verify c key (asBytes file.cert.enc) file.signature ≠ .ok ()) :
    verifyAny signed (searchSet c keys) openPayload finish (labelFailure c keys) =
      .error (.unknownSigningKey kid) := by
  have hformed : ¬Malformed c keys file.signature := fun h => h.1 hlength
  rw [verifyAny_of_not_malformed hsigned hnone hformed, hopened, labelFailure_of_probe hprobe,
    rotationError, if_neg hkid]

theorem reportedUnknown_of_not_mem {keys : SigningKeySet} {kid : String}
    (hkid : kid ∉ keys.kids) : ReportedUnknown c keys kid where
  license pem cert encoding sigBytes licenseKey plaintext nowUnix hcert halg hsig hlength
      hopened hprobe hnone := by
    rw [LicenseFile.verifyLicenseFileWithKeySetAt_eq_verifyAny]
    have hsigned : LicenseFile.signedPart c pem = .ok ⟨cert, encoding, sigBytes⟩ :=
      LicenseFile.signedPart_eq_ok_iff.mpr ⟨hcert, halg, okOr_eq_ok_iff.mp hsig⟩
    exact verifyAny_of_unknown hkid hsigned hlength hopened hprobe hnone
  machine pem cert encoding sigBytes licenseKey fingerprint plaintext nowUnix hcert halg hsig
      hlength hopened hprobe hnone := by
    rw [MachineFile.verifyMachineFileWithKeySetAt_eq_verifyAny]
    have hsigned : MachineFile.signedPart c (schemeAlgSuffix .ed25519Sign)
        (MachineFile.keySetMismatch c) pem = .ok ⟨cert, encoding, sigBytes⟩ :=
      MachineFile.signedPart_eq_ok_iff.mpr ⟨hcert, halg, okOr_eq_ok_iff.mp hsig⟩
    exact verifyAny_of_unknown hkid hsigned hlength hopened hprobe hnone

/-- The strict constructor and the lenient one build the same set from the keys
that both can use, and a row that the lenient one skips leaves no trace. -/
theorem constructors_agree (c : Crates) :
    (∀ rows : List (SigningKeyResource c.json),
      (∀ row ∈ rows, row.id = Ed25519.keyId c row.attributes.publicKey) →
        fromPublicKeys c ((rows.filter (isKept c)).map (·.attributes.publicKey)) =
            .ok (fromResources c rows) ∧
          ∀ keys, fromPublicKeys c ((rows.filter (isKept c)).map (·.attributes.publicKey)) =
              .ok keys →
            (∀ pem licenseKey nowUnix,
              LicenseFile.verifyLicenseFileWithKeySetAt c pem keys licenseKey nowUnix =
                LicenseFile.verifyLicenseFileWithKeySetAt c pem (fromResources c rows)
                  licenseKey nowUnix) ∧
            (∀ pem licenseKey fingerprint nowUnix,
              MachineFile.verifyMachineFileWithKeySetAt c pem keys licenseKey fingerprint
                  nowUnix =
                MachineFile.verifyMachineFileWithKeySetAt c pem (fromResources c rows)
                  licenseKey fingerprint nowUnix)) ∧
    (∀ publicKeys, (∃ keys, fromPublicKeys c publicKeys = .ok keys) ↔
      ∀ b64 ∈ publicKeys, isPublicKey c b64 = true) ∧
    (∀ publicKeys keys, fromPublicKeys c publicKeys = .ok keys →
      List.Forall₂ (fun b64 entry => entry.1 = Ed25519.keyId c b64 ∧
        c.base64.decode b64 = some entry.2.val) publicKeys keys.entries) ∧
    (∀ a b key key', Ed25519.publicKeyFromBase64 c a = .ok key →
      Ed25519.publicKeyFromBase64 c b = .ok key' →
        (key = key' ↔ a = b) ∧ (key = key' → Ed25519.keyId c a = Ed25519.keyId c b)) ∧
    (∀ (front : List (SigningKeyResource c.json)) row back, isKept c row ≠ true →
      fromResources c (front ++ row :: back) = fromResources c (front ++ back) ∧
        ((∀ other ∈ front ++ back, isKept c other = true → other.id ≠ row.id) →
          ReportedUnknown c (fromResources c (front ++ row :: back)) row.id)) := by
  refine ⟨?_, fun publicKeys => exists_fromPublicKeys_iff, ?_, ?_, ?_⟩
  · intro rows hids
    refine ⟨fromPublicKeys_kept hids, ?_⟩
    intro keys hkeys
    obtain rfl := Except.ok.inj (hkeys.symm.trans (fromPublicKeys_kept hids))
    exact ⟨fun _ _ _ => rfl, fun _ _ _ _ => rfl⟩
  · intro publicKeys keys hkeys
    refine (fromPublicKeys_eq_ok_iff.mp hkeys).imp fun b64 entry hentry => ?_
    exact ⟨hentry.1, Ed25519.publicKeyFromBase64_eq_ok_iff.mp hentry.2⟩
  · intro a b key key' ha hb
    have htext := Ed25519.publicKeyFromBase64_inj ha hb
    exact ⟨htext, fun hkey => congrArg (Ed25519.keyId c) (htext.mp hkey)⟩
  · intro front row back hskipped
    refine ⟨fromResources_skip hskipped, fun hids => reportedUnknown_of_not_mem ?_⟩
    rw [fromResources_skip hskipped, mem_kids_iff]
    rintro ⟨other, hmem, hkept, hid⟩
    exact hids other hmem hkept hid

def recordedRow (algorithm : String) (key : Octets 32) :
    SigningKeyResource licenseRecording.crates.json where
  id := Ed25519.keyId licenseRecording.crates (Library.Base64.encode key.val)
  resourceType := "signing-keys"
  attributes := {
    algorithm := algorithm, publicKey := Library.Base64.encode key.val, status := "retired"
    created := "2026-01-01T00:00:00Z", retired := none }

/-- A row that names the recorded file, of an algorithm that is not Ed25519. -/
def skippedRow : SigningKeyResource licenseRecording.crates.json :=
  { recordedRow "ml-dsa-44" recordedKey with id := "test-kid" }

theorem length_recordedSignature (r : Recording) : (recordedPart r).signature.length = 64 :=
  (r.sign r.key (asBytes r.enc)).property

theorem constructors_agree_recorded :
    (fromPublicKeys licenseRecording.crates
        [Library.Base64.encode recordedKey.val, Library.Base64.encode foreignKey.val] =
      .ok (fromResources licenseRecording.crates
        [recordedRow "Ed25519" recordedKey, recordedRow "ml-dsa-44" recordedKey,
          recordedRow "ed25519" foreignKey])) ∧
    (∀ nowUnix, LicenseFile.verifyLicenseFileWithKeySetAt licenseRecording.crates
        recordedLicensePem (fromResources licenseRecording.crates
          [skippedRow, recordedRow "Ed25519" foreignKey]) none nowUnix =
      .error (.unknownSigningKey "test-kid")) := by
  obtain ⟨hagree, -, -, -, hskip⟩ := constructors_agree licenseRecording.crates
  constructor
  · refine (hagree [recordedRow "Ed25519" recordedKey, recordedRow "ml-dsa-44" recordedKey,
      recordedRow "ed25519" foreignKey] ?_).1
    rintro row (_ | ⟨_, _ | ⟨_, _ | ⟨_, ⟨⟩⟩⟩⟩) <;> decide +kernel
  · intro nowUnix
    obtain ⟨hcert, halg, hsig⟩ :=
      LicenseFile.signedPart_eq_ok_iff.mp (signedPart_recorded licenseRecording lines)
    obtain ⟨-, hreported⟩ := hskip [] skippedRow [recordedRow "Ed25519" foreignKey]
      (by decide +kernel)
    have hunknown := hreported (by rintro row (_ | ⟨_, ⟨⟩⟩) -; decide +kernel)
    refine hunknown.license recordedLicensePem _ _ _ none licenseRecording.payload nowUnix hcert
      halg (okOr_eq_ok_iff.mpr hsig) ?_ ?_ ?_ ?_
    · exact length_recordedSignature licenseRecording
    · exact decodePlaintext_recorded licenseRecording
    · exact probeKid_of_spells spells_recordedLicense
        (objectText_of_payloadJson licenseRecording.parse_payload)
    · have hkeys : (fromResources licenseRecording.crates
          ([] ++ skippedRow :: [recordedRow "Ed25519" foreignKey])).keys = [foreignKey] := by
        decide +kernel
      intro held hheld
      rw [hkeys] at hheld
      exact @foreignKey_not_verifies licenseRecording rfl (by decide) "" held hheld

section Usable

def IsPoint (c : Crates) (b64 : String) : Prop :=
  ∃ key, Ed25519.publicKeyFromBase64 c b64 = .ok key ∧ Ed25519.Usable c key

/-- No key of the set is refused by the verifier, and `len` counts such keys. -/
structure CountsUsable (c : Crates) (keys : SigningKeySet) : Prop where
  usable : ∀ entry ∈ keys.entries, ∀ message signature,
    Ed25519.verify c entry.2 message signature ≠ .error .invalidKey
  counted : keys.len =
    keys.entries.countP fun entry => (c.dalek.verifyingKeyFromBytes entry.2).isSome

/-- What pinning keys promises: a set of usable keys, or a failure at once. -/
structure PinnedUsable (c : Crates) (publicKeys : List String) : Prop where
  counts : ∀ keys, fromPublicKeys c publicKeys = .ok keys → CountsUsable c keys
  loud : ∀ b64 ∈ publicKeys, ¬IsPoint c b64 →
    fromPublicKeys c publicKeys = .error .invalidKey

def UsableRow (c : Crates) (row : SigningKeyResource c.json) : Prop :=
  eqIgnoreAsciiCase row.attributes.algorithm ed25519Algorithm = true ∧
    IsPoint c row.attributes.publicKey

/-- What a fetched set promises: the usable keys, and for a file that names
another row the report that its key is not known. -/
structure PublishedUsable (c : Crates) (rows : List (SigningKeyResource c.json)) : Prop where
  counts : CountsUsable c (fromResources c rows)
  reported : ∀ row ∈ rows, ¬UsableRow c row →
    (∀ other ∈ rows, UsableRow c other → other.id ≠ row.id) →
      ReportedUnknown c (fromResources c rows) row.id

theorem countsUsable_iff {keys : SigningKeySet} :
    CountsUsable c keys ↔ ∀ entry ∈ keys.entries, Ed25519.Usable c entry.2 := by
  constructor
  · intro h entry hentry
    exact Ed25519.usable_of_verify (h.usable entry hentry [] [])
  · intro h
    refine ⟨fun entry hentry => Ed25519.verify_ne_invalidKey (h entry hentry), ?_⟩
    exact (List.countP_eq_length.mpr h).symm

theorem countsUsable_fromPublicKeys_iff {publicKeys : List String} {keys : SigningKeySet}
    (hkeys : fromPublicKeys c publicKeys = .ok keys) :
    CountsUsable c keys ↔ ∀ b64 ∈ publicKeys, IsPoint c b64 := by
  rw [fromPublicKeys_eq_ok_iff] at hkeys
  rw [countsUsable_iff]
  generalize keys.entries = entries at hkeys ⊢
  induction hkeys with
  | nil => simp
  | cons hhead _ ih =>
      rw [List.forall_mem_cons, List.forall_mem_cons, ih]
      apply and_congr_left'
      constructor
      · intro husable
        exact ⟨_, hhead.2, husable⟩
      · rintro ⟨key, hkey, husable⟩
        obtain rfl := Except.ok.inj (hkey.symm.trans hhead.2)
        exact husable

theorem countsUsable_fromResources_iff {rows : List (SigningKeyResource c.json)} :
    CountsUsable c (fromResources c rows) ↔
      ∀ row ∈ rows, isKept c row = true → IsPoint c row.attributes.publicKey := by
  rw [countsUsable_iff]
  constructor
  · intro h row hmem hkept
    obtain ⟨key, hkey⟩ := isPublicKey_iff.mp (Bool.and_eq_true_iff.mp hkept).2
    exact ⟨key, hkey, h (row.id, key) (mem_entries_iff.mpr ⟨row, hmem, hkept, rfl, hkey⟩)⟩
  · intro h entry hentry
    obtain ⟨row, hmem, hkept, -, hkey⟩ := mem_entries_iff.mp hentry
    obtain ⟨key, hkey', husable⟩ := h row hmem hkept
    obtain rfl := Except.ok.inj (hkey'.symm.trans hkey)
    exact husable

/-- Construction looks at the length of a key and the verifier at the curve, so
the promises hold of the lists on which the two checks come to the same. -/
theorem keys_usable_iff (c : Crates) :
    (∀ publicKeys, PinnedUsable c publicKeys ↔
      ((∀ b64 ∈ publicKeys, isPublicKey c b64 = true) →
        ∀ b64 ∈ publicKeys, IsPoint c b64)) ∧
    (∀ rows, PublishedUsable c rows ↔
      ∀ row ∈ rows, isKept c row = true → IsPoint c row.attributes.publicKey) := by
  constructor
  · intro publicKeys
    constructor
    · intro h hall
      obtain ⟨keys, hkeys⟩ := exists_fromPublicKeys_iff.mpr hall
      exact (countsUsable_fromPublicKeys_iff hkeys).mp (h.counts keys hkeys)
    · intro h
      constructor
      · intro keys hkeys
        apply (countsUsable_fromPublicKeys_iff hkeys).mpr
        exact h (exists_fromPublicKeys_iff.mp ⟨keys, hkeys⟩)
      · intro b64 hmem hpoint
        apply fromPublicKeys_of_not_forall
        intro hall
        exact hpoint (h hall b64 hmem)
  · intro rows
    constructor
    · intro h
      exact countsUsable_fromResources_iff.mp h.counts
    · intro h
      refine ⟨countsUsable_fromResources_iff.mpr h, ?_⟩
      intro row hmem hunusable hids
      apply reportedUnknown_of_not_mem
      rw [mem_kids_iff]
      rintro ⟨other, hother, hkept, hid⟩
      exact hids other hother ⟨(Bool.and_eq_true_iff.mp hkept).1, h other hother hkept⟩ hid

end Usable

section OffCurve

def fieldPrime : Nat := Nat.pow 2 255 - 19

/-- `base ^ exponent` in the field, for an exponent of so many bits. -/
def fieldPow : Nat → Nat → Nat → Nat
  | 0, _, _ => 1
  | bits + 1, base, exponent =>
      let rest := fieldPow bits (base * base % fieldPrime) (exponent / 2)
      if exponent % 2 = 1 then base * rest % fieldPrime else rest

/-- The constant of the curve, `-121665 / 121666`. -/
def edwardsD : Nat :=
  (fieldPrime - 121665) * fieldPow 255 121666 (fieldPrime - 2) % fieldPrime

def littleEndian (bytes : List UInt8) : Nat :=
  bytes.foldr (fun byte rest => byte.toNat + 256 * rest) 0

/-- The octets are the compressed form of a point: with the `y` they hold, less
the bit for the sign of `x`, `(y² - 1) / (d y² + 1)` is a square. -/
def isCompressedPoint (bytes : List UInt8) : Bool :=
  let y := littleEndian bytes % Nat.pow 2 255
  let u := (y * y + (fieldPrime - 1)) % fieldPrime
  let v := (edwardsD * (y * y) + 1) % fieldPrime
  let root := u * Nat.pow v 3 * fieldPow 255 (u * Nat.pow v 7 % fieldPrime) ((fieldPrime - 5) / 8)
  let square := v * (root * root) % fieldPrime
  square = u ∨ square = (fieldPrime - u) % fieldPrime

/-- Keys are decompressed as they are; no signature is ever looked at. -/
def pointDalek : Ed25519Dalek where
  VerifyingKey := Octets 32
  Signature := Octets 64
  verifyingKeyFromBytes key := if isCompressedPoint key.val then some key else none
  signatureTryFrom := tryInto 64
  verify _ _ _ := false
  signatureTryFrom_isSome := (tableDalek blankTables).signatureTryFrom_isSome

def pointCrates : Crates := { tableCrates blankTables with dalek := pointDalek }

/-- Thirty-two octets for `y = 2`, which no point of the curve has. -/
def offCurveKey : Octets 32 := ⟨2 :: List.replicate 31 0, by decide⟩

def offCurveText : String := "AgAAAAAAAAAAAAAAAAAAAAAAAAAAAAAAAAAAAAAAAAA="

def offCurveRow : SigningKeyResource pointCrates.json where
  id := "0000000000000000"
  resourceType := "signing-keys"
  attributes := {
    algorithm := "ed25519", publicKey := offCurveText, status := "active"
    created := "2026-01-01T00:00:00Z", retired := none }

theorem decode_offCurveText :
    Ed25519.publicKeyFromBase64 pointCrates offCurveText = .ok offCurveKey :=
  Ed25519.publicKeyFromBase64_eq_ok_iff.mpr (by decide +kernel)

theorem not_isPoint_offCurveText : ¬IsPoint pointCrates offCurveText := by
  rintro ⟨key, hkey, husable⟩
  obtain rfl := Except.ok.inj (hkey.symm.trans decode_offCurveText)
  have hrefused : (pointCrates.dalek.verifyingKeyFromBytes offCurveKey).isSome = false := by
    decide +kernel
  rw [Ed25519.Usable, hrefused] at husable
  cases husable

/-- A key of the right length that is no point is taken by both constructors. -/
theorem not_keysUsable :
    ¬PinnedUsable pointCrates [offCurveText] ∧ ¬PublishedUsable pointCrates [offCurveRow] := by
  have hlength : isPublicKey pointCrates offCurveText = true :=
    isPublicKey_iff.mpr ⟨offCurveKey, decode_offCurveText⟩
  constructor
  · intro h
    obtain ⟨keys, hkeys⟩ := exists_fromPublicKeys_iff.mpr
      (List.forall_mem_singleton.mpr hlength)
    have herror := h.loud offCurveText List.mem_cons_self not_isPoint_offCurveText
    cases hkeys.symm.trans herror
  · intro h
    have hkept : isKept pointCrates offCurveRow = true :=
      Bool.and_eq_true_iff.mpr ⟨by decide, hlength⟩
    exact not_isPoint_offCurveText
      (countsUsable_fromResources_iff.mp h.counts offCurveRow List.mem_cons_self hkept)

end OffCurve

end Tamga.SigningKeys
