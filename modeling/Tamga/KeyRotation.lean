import Tamga.ClientReads
import Tamga.Library.Interleaving

namespace Tamga.KeyRotation

open Library.Interaction.Prog
open Library.Interleaving
open Library.Prelude
open Library.Serde
open Tamga.Client
open Tamga.ClientReads
open Tamga.Crypto
open Tamga.Dependencies
open Tamga.Envelope
open Tamga.FailureLabels
open Tamga.KeySet
open Tamga.Models
open Tamga.ServerFiles
open Tamga.ServerResponses
open Tamga.SigningKeys
open Tamga.TableCrates
open Tamga.Transport
open Tamga.Wrapping

section Files

/-- A signing key of the account, with the id that it is published under. -/
structure Signer (c : Crates) extends Ed25519KeyPair c where
  kid : String

def Signer.scheme {c : Crates} (signer : Signer c) : SchemeKeyPair c .ed25519Sign where
  pubkey := signer.pubkey.val
  sign := signer.sign
  accepts_sign message := .ed25519Sign rfl (signer.verify_sign message)

/-- A licence file that the account has signed, and names the key in. -/
structure IssuedLicense (c : Crates) where
  signer : Signer c
  encoding : EncEncoding
  licenseKey : String
  nonce : Octets 12
  plaintext : List UInt8
  payload : DataPayload (LicenseResource c.json)
  spells : Spells c.json (licenseResource c.json) plaintext payload
  object : ObjectText c.json plaintext
  named : payload.«meta».kid = signer.kid
  text : CertText c.json (licenseCert c signer.toEd25519KeyPair encoding
    (licenseEnc c encoding licenseKey nonce plaintext))
  spacing : Spacing

structure IssuedMachine (c : Crates) where
  signer : Signer c
  encoding : EncEncoding
  licenseKey : String
  fingerprint : String
  nonce : Octets 12
  plaintext : List UInt8
  payload : DataPayload (MachineResource c.json)
  spells : Spells c.json (machineResource c.json) plaintext payload
  object : ObjectText c.json plaintext
  named : payload.«meta».kid = signer.kid
  text : CertText c.json (machineCert c signer.scheme encoding
    (machineEnc c encoding licenseKey fingerprint nonce plaintext))
  spacing : Spacing

inductive IssuedFile (c : Crates) where
  | license (file : IssuedLicense c)
  | machine (file : IssuedMachine c)

namespace IssuedFile

variable {c : Crates}

def signer : IssuedFile c → Signer c
  | license file => file.signer
  | machine file => file.signer

def enc : IssuedFile c → String
  | license file => licenseEnc c file.encoding file.licenseKey file.nonce file.plaintext
  | machine file =>
      machineEnc c file.encoding file.licenseKey file.fingerprint file.nonce file.plaintext

def signature (file : IssuedFile c) : List UInt8 := file.signer.sign (asBytes file.enc)

/-- The set gives the verdict that the file deserves, at any time, to whoever has the
secrets that it is sealed with. -/
def Verifies (keys : SigningKeySet) : IssuedFile c → Prop
  | license file => ∀ given nowUnix, (file.encoding = .aes256Gcm → given = some file.licenseKey) →
      Judged file.payload.«meta» nowUnix
        { license := file.payload.data, claims := file.payload.«meta» }
        (LicenseFile.verifyLicenseFileWithKeySetAt c (licensePem c file.spacing file.text) keys
          given nowUnix)
  | machine file => ∀ given givenFp nowUnix,
      (file.encoding = .aes256Gcm →
        given = some file.licenseKey ∧ givenFp = some file.fingerprint) →
      Judged file.payload.«meta» nowUnix
        { machine := file.payload.data, claims := file.payload.«meta» }
        (MachineFile.verifyMachineFileWithKeySetAt c (machinePem c file.spacing file.text) keys
          given givenFp nowUnix)

/-- The set reports the file as signed by a key that it does not hold, and by which. -/
def Unknown (keys : SigningKeySet) : IssuedFile c → Prop
  | license file => ∀ given nowUnix, (file.encoding = .aes256Gcm → given = some file.licenseKey) →
      LicenseFile.verifyLicenseFileWithKeySetAt c (licensePem c file.spacing file.text) keys
        given nowUnix = .error (.unknownSigningKey file.signer.kid)
  | machine file => ∀ given givenFp nowUnix,
      (file.encoding = .aes256Gcm →
        given = some file.licenseKey ∧ givenFp = some file.fingerprint) →
      MachineFile.verifyMachineFileWithKeySetAt c (machinePem c file.spacing file.text) keys
        given givenFp nowUnix = .error (.unknownSigningKey file.signer.kid)

variable {keys : SigningKeySet}

theorem verifies_of_mem (file : IssuedFile c) (hkey : file.signer.pubkey ∈ keys.keys) :
    file.Verifies keys := by
  cases file with
  | license file =>
      intro given nowUnix hgiven
      have hverified : LicenseFile.SignatureVerified c (licensePem c file.spacing file.text)
          file.signer.pubkey :=
        LicenseFile.checked_iff.mp ⟨_, signedPart_licensePem c file.spacing file.text,
          checkKey_licenseSigned c file.signer.toEd25519KeyPair file.encoding _⟩
      rw [LicenseFile.verifyLicenseFileWithKeySetAt_eq_single hkey hverified]
      exact judged_licensePem c _ file.spells file.text file.spacing given hgiven nowUnix
  | machine file =>
      intro given givenFp nowUnix hgiven
      have hverified := signatureVerified_machinePem c file.text file.spacing
      rw [MachineFile.verifyMachineFileWithKeySetAt_eq_single hkey hverified]
      exact judged_machinePem c file.signer.scheme file.spells file.text file.spacing given
        givenFp hgiven nowUnix

/-- No key of the set made the signature, nor is one held under the name that the file
gives. -/
theorem unknown_of_not_mem (file : IssuedFile c) (hkid : file.signer.kid ∉ keys.kids)
    (hnone : ∀ key ∈ keys.keys,
      Ed25519.verify c key (asBytes file.enc) file.signature ≠ .ok ()) :
    file.Unknown keys := by
  have herror {named : String} (h : named = file.signer.kid) :
      rotationError (J := c.json) keys named = .unknownSigningKey file.signer.kid := by
    rw [h, rotationError, if_neg hkid]
  cases file with
  | license file =>
      intro given nowUnix hgiven
      rw [LicenseFile.verifyLicenseFileWithKeySetAt_eq_verifyAny,
        verifyAny_of_rotation (signedPart_licensePem c file.spacing file.text)
          (file.signer.verify_sign _) hnone (decodePlaintext_licenseEnc c hgiven rfl)
          file.spells file.object]
      exact congrArg Except.error (herror file.named)
  | machine file =>
      intro given givenFp nowUnix hgiven
      rw [MachineFile.verifyMachineFileWithKeySetAt_eq_verifyAny,
        verifyAny_of_rotation (signedPart_machinePem c file.spacing file.text _)
          (file.signer.verify_sign _) hnone
          (MachineFile.decodePlaintext_eq_ok_iff.mpr
            (opens_machineEnc c hgiven file.nonce file.plaintext))
          file.spells file.object]
      exact congrArg Except.error (herror file.named)

end IssuedFile

end Files

section Accounts

/-- The keys of an account from the oldest to the current one, and the files that they
have signed.  No two keys share an id, and a file has the signature of no key but its own. -/
structure Account (c : Crates) where
  signers : List (Signer c)
  files : List (IssuedFile c)
  distinct : (signers.map Signer.kid).Nodup
  signed : ∀ file ∈ files, file.signer ∈ signers
  sole : ∀ file ∈ files, ∀ signer ∈ signers, signer.kid ≠ file.signer.kid →
    Ed25519.verify c signer.pubkey (asBytes file.enc) file.signature ≠ .ok ()

namespace Account

variable {c : Crates}

/-- A rotation adds a key, and a file is signed by the key that is current. -/
inductive Drifts (before after : Account c) : Prop
  | rotates (signer : Signer c) (hsigners : after.signers = before.signers ++ [signer])
      (hfiles : after.files = before.files)
  | signs (file : IssuedFile c) (hcurrent : before.signers.getLast? = some file.signer)
      (hsigners : after.signers = before.signers) (hfiles : after.files = before.files ++ [file])

/-- The rows that the account publishes: all of its keys, and of Ed25519 no others. -/
structure Publishes (account : Account c) (rows : List (SigningKeyResource c.json)) : Prop where
  listed : ∀ signer ∈ account.signers, ∃ row ∈ rows, row.id = signer.kid ∧
    row.attributes.algorithm = ed25519Algorithm ∧
      row.attributes.publicKey = c.base64.encode signer.pubkey.val
  only : ∀ row ∈ rows, isKept c row = true → ∃ signer ∈ account.signers, row.id = signer.kid ∧
    row.attributes.publicKey = c.base64.encode signer.pubkey.val

/-- An account that has only gone on. -/
structure Before (before after : Account c) : Prop where
  signers : before.signers <+: after.signers
  files : before.files <+: after.files

theorem Before.refl (account : Account c) : account.Before account :=
  ⟨List.prefix_rfl, List.prefix_rfl⟩

theorem Before.trans {a b d : Account c} (h : a.Before b) (h' : b.Before d) : a.Before d :=
  ⟨h.signers.trans h'.signers, h.files.trans h'.files⟩

theorem Drifts.before {before after : Account c} (h : before.Drifts after) :
    before.Before after := by
  cases h with
  | rotates signer hsigners hfiles =>
      exact ⟨hsigners ▸ List.prefix_append _ _, hfiles ▸ List.prefix_rfl⟩
  | signs file _ hsigners hfiles =>
      exact ⟨hsigners ▸ List.prefix_rfl, hfiles ▸ List.prefix_append _ _⟩

theorem eq_of_kid {account : Account c} {signer signer' : Signer c}
    (hmem : signer ∈ account.signers) (hmem' : signer' ∈ account.signers)
    (h : signer.kid = signer'.kid) : signer = signer' :=
  List.inj_on_of_nodup_map account.distinct hmem hmem' h

section Published

variable {seen account : Account c} {rows : List (SigningKeyResource c.json)} {file : IssuedFile c}

theorem pubkey_of_row {row : SigningKeyResource c.json} {signer : Signer c}
    (h : row.attributes.publicKey = c.base64.encode signer.pubkey.val) :
    Ed25519.publicKeyFromBase64 c row.attributes.publicKey = .ok signer.pubkey := by
  rw [Ed25519.publicKeyFromBase64_eq_ok_iff, h, c.base64.decode_encode]

theorem Publishes.verifies (h : seen.Publishes rows) (hsigner : file.signer ∈ seen.signers) :
    file.Verifies (fromResources c rows) := by
  obtain ⟨row, hrow, hid, halgorithm, hkey⟩ := h.listed file.signer hsigner
  have hpubkey := pubkey_of_row hkey
  have hkept : isKept c row = true := by
    rw [isKept, Bool.and_eq_true, isPublicKey_iff, halgorithm]
    exact ⟨rfl, _, hpubkey⟩
  apply file.verifies_of_mem
  exact List.mem_map.mpr ⟨(row.id, file.signer.pubkey),
    mem_entries_iff.mpr ⟨row, hrow, hkept, rfl, hpubkey⟩, rfl⟩

theorem Publishes.unknown (h : seen.Publishes rows) (hlater : seen.Before account)
    (hfile : file ∈ account.files) (hsigner : file.signer ∉ seen.signers) :
    file.Unknown (fromResources c rows) := by
  have hother {signer : Signer c} (hmem : signer ∈ seen.signers) :
      signer.kid ≠ file.signer.kid := by
    intro hkid
    apply hsigner
    rwa [← account.eq_of_kid (hlater.signers.subset hmem) (account.signed file hfile) hkid]
  apply file.unknown_of_not_mem
  · rw [mem_kids_iff]
    rintro ⟨row, hrow, hkept, hid⟩
    obtain ⟨signer, hmem, hkid, -⟩ := h.only row hrow hkept
    exact hother hmem (hkid.symm.trans hid)
  · intro key hkey
    obtain ⟨entry, hentry, rfl⟩ := List.mem_map.mp hkey
    obtain ⟨row, hrow, hkept, -, hread⟩ := mem_entries_iff.mp hentry
    obtain ⟨signer, hmem, -, hpublished⟩ := h.only row hrow hkept
    rw [pubkey_of_row hpublished] at hread
    rw [← Except.ok.inj hread]
    exact account.sole file hfile signer (hlater.signers.subset hmem) (hother hmem)

end Published

end Account

end Accounts

section Runs

variable {c : Crates} {cl : Client}

def readKeys (c : Crates) (cl : Client) (response : Response) :
    Except (overCrates c cl).Error (List (SigningKeyResource c.json)) :=
  (overCrates c cl).read "Vec<SigningKeyResource>"
    (envelope (vec (signingKeyResource c.json))) response

/-- Whatever rows are read from an answer, the account publishes them. -/
def answers (account : Account c) : (overCrates c cl).Exchange → Prop
  | ⟨.send _, .ok response⟩ => ∀ rows, readKeys c cl response = .ok rows → account.Publishes rows
  | _ => True

def keyServer (c : Crates) (cl : Client) :
    World (Account c) Op (Reply (overCrates c cl).reqwest) where
  serves account exchange after := after = account ∧ answers account exchange
  drifts := Account.Drifts

theorem signingKeySet_eq :
    cl.signingKeySet c =
      ((overCrates c cl).sendWithRetry ⟨.get, "/signing-keys", [], none, none⟩).andThen
        fun response => .ret ((readKeys c cl response).map (fromResources c)) :=
  andThen_ret_map _ _ _

theorem before_of_later {before after : Account c} (h : Later (keyServer c cl) before after) :
    before.Before after := by
  apply h.grows id Account.Before.refl Account.Before.trans
  intro before after hmoves
  cases hmoves with
  | serves h => exact h.1 ▸ Account.Before.refl _
  | drifts h => exact h.before

section Recorded

def firstSigner : Signer licenseRecording.crates where
  pubkey := foreignKey
  sign message := (licenseRecording.sign foreignKey message).val
  verify_sign message := (verify_tableCrates licenseRecording.tables foreignKey message _).mpr rfl
  kid := "7a4765795a5e2ce6"

def recordedSigner : Signer licenseRecording.crates :=
  { keyPair licenseRecording with kid := "test-kid" }

def recordedFile : IssuedFile licenseRecording.crates :=
  .license {
    signer := recordedSigner
    encoding := .plain
    licenseKey := ""
    nonce := zeroNonce
    plaintext := licenseRecording.payload
    payload := { data := recordedLicense, «meta» := recordedClaims }
    spells := spells_recordedLicense
    object := objectText_of_payloadJson licenseRecording.parse_payload
    named := rfl
    text := licenseText licenseRecording "" zeroNonce
    spacing := lines }

def firstAccount : Account licenseRecording.crates where
  signers := [firstSigner]
  files := []
  distinct := List.nodup_singleton _
  signed := by simp
  sole := by simp

def rotatedAccount : Account licenseRecording.crates :=
  { firstAccount with
    signers := [firstSigner, recordedSigner]
    distinct := by simp [firstSigner, recordedSigner]
    signed := by simp [firstAccount]
    sole := by simp [firstAccount] }

theorem not_verifies_recordedFile :
    Ed25519.verify licenseRecording.crates firstSigner.pubkey (asBytes recordedFile.enc)
      recordedFile.signature ≠ .ok () := by
  have henc : recordedFile.enc = licenseRecording.enc := rfl
  have hsign : recordedFile.signer.sign =
      fun message => (licenseRecording.sign licenseRecording.key message).val := rfl
  rw [IssuedFile.signature, henc, hsign]
  exact licenseRecording.verify_signature_of_ne (by decide) (by decide)

def signedAccount : Account licenseRecording.crates :=
  { rotatedAccount with
    files := [recordedFile]
    signed := by
      intro file hfile
      rw [List.mem_singleton.mp hfile]
      exact List.mem_cons_of_mem _ List.mem_cons_self
    sole := by
      intro file hfile signer hsigner hkid
      obtain rfl := List.mem_singleton.mp hfile
      rcases List.mem_pair.mp hsigner with rfl | rfl
      · exact not_verifies_recordedFile
      · exact absurd rfl hkid }

def publishedDocument : Json :=
  objectJson [("data", .array [objectJson [
    ("id", textJson "7a4765795a5e2ce6"),
    ("type", textJson "signing-keys"),
    ("attributes", objectJson [
      ("algorithm", textJson "ed25519"),
      ("publicKey", textJson (Library.Base64.encode foreignKey.val)),
      ("status", textJson "retired"),
      ("created", textJson "2026-01-01T00:00:00Z")])]])]

def publishedResponse : Response := ⟨200, [], some publishedDocument⟩

theorem readKeys_published :
    readKeys licenseRecording.crates blankClient publishedResponse =
      .ok [recordedRow "ed25519" foreignKey] := rfl

theorem publishes_firstAccount :
    firstAccount.Publishes [recordedRow "ed25519" foreignKey] where
  listed signer hsigner := by
    rw [List.mem_singleton.mp hsigner]
    exact ⟨_, List.mem_cons_self, rfl, rfl, rfl⟩
  only row hrow _ := by
    rw [List.mem_singleton.mp hrow]
    exact ⟨firstSigner, List.mem_cons_self, rfl, rfl⟩

theorem run_recorded :
    ∃ log, Run (keyServer licenseRecording.crates blankClient) firstAccount
      (fun _ : Unit => blankClient.signingKeySet licenseRecording.crates) log firstAccount
      fun _ => .ret (.ok (fromResources licenseRecording.crates
        [recordedRow "ed25519" foreignKey])) := by
  have hsteps : Steps (blankClient.signingKeySet licenseRecording.crates)
      [⟨.send ⟨.get, "/signing-keys", [], none, none⟩, .ok publishedResponse⟩]
      (.ret (.ok (fromResources licenseRecording.crates
        [recordedRow "ed25519" foreignKey]))) := by
    rw [signingKeySet_eq]
    exact (steps_sendWithRetry (by decide)).bind (.refl _)
  have hanswered : (keyServer licenseRecording.crates blankClient).serves firstAccount
      ⟨.send ⟨.get, "/signing-keys", [], none, none⟩, .ok publishedResponse⟩ firstAccount := by
    refine ⟨rfl, fun rows hrows => ?_⟩
    rw [← Except.ok.inj (readKeys_published.symm.trans hrows)]
    exact publishes_firstAccount
  exact Run.alone hsteps (.cons hanswered (.nil _))

theorem before_recorded : firstAccount.Before signedAccount := by
  have hrotates : firstAccount.Drifts rotatedAccount := .rotates recordedSigner rfl rfl
  have hsigns : rotatedAccount.Drifts signedAccount := .signs recordedFile rfl rfl rfl
  exact hrotates.before.trans hsigns.before

end Recorded

section Staleness

variable {ι : Type} [DecidableEq ι] {start fetched account : Account c}
  {log : List (ι × (overCrates c cl).Exchange)} {now : ι → (overCrates c cl).Call SigningKeySet}
  {i : ι} {keys : SigningKeySet}

/-- A client that got the keys of an account got those of one moment of its call.  All
that was signed until then they verify, and of what else the account will ever sign they
tell apart what they verify from what a key has signed that was added since. -/
theorem key_set_tells_files_apart
    (h : Run (keyServer c cl) start (fun _ => cl.signingKeySet c) log fetched now)
    (hnow : now i = .ret (.ok keys)) (hlater : fetched.Before account) :
    ∃ seen, start.Before seen ∧ seen.Before fetched ∧ (∀ file ∈ seen.files, file.Verifies keys) ∧
      ∀ file ∈ account.files, (file.signer ∈ seen.signers ∧ file.Verifies keys) ∨
        (file.signer ∉ seen.signers ∧ file.Unknown keys) := by
  have hsteps := h.steps i
  rw [hnow, signingKeySet_eq] at hsteps
  obtain ⟨response, hasked, hread⟩ := read_asked hsteps
  obtain ⟨rows, hrows, rfl⟩ := map_eq_ok_iff.mp hread
  obtain ⟨_, seen, hseen, ⟨rfl, hanswers⟩, hafter⟩ := h.served (mem_exchanges.mp hasked)
  have hpublished := hanswers rows hrows
  have hfetched := before_of_later hafter
  refine ⟨seen, before_of_later hseen, hfetched, ?_, ?_⟩
  · intro file hfile
    exact hpublished.verifies (seen.signed file hfile)
  · intro file hfile
    by_cases hsigner : file.signer ∈ seen.signers
    · exact Or.inl ⟨hsigner, hpublished.verifies hsigner⟩
    · exact Or.inr ⟨hsigner, hpublished.unknown (hfetched.trans hlater) hfile hsigner⟩

theorem key_set_tells_files_apart_recorded :
    LicenseFile.verifyLicenseFileWithKeySetAt licenseRecording.crates recordedLicensePem
      (fromResources licenseRecording.crates [recordedRow "ed25519" foreignKey]) none 0 =
        .error (.unknownSigningKey "test-kid") := by
  obtain ⟨log, hrun⟩ := run_recorded
  obtain ⟨seen, -, hseen, -, hfiles⟩ :=
    key_set_tells_files_apart (i := ()) hrun rfl before_recorded
  rcases hfiles recordedFile List.mem_cons_self with ⟨hsigner, -⟩ | ⟨-, hunknown⟩
  · have hfirst := List.mem_singleton.mp (hseen.signers.subset hsigner)
    exact absurd (congrArg Signer.kid hfirst) (by decide)
  · exact hunknown none 0 nofun

end Staleness

end Runs

end Tamga.KeyRotation
