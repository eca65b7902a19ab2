import Tamga.LicenseAcceptance
import Tamga.MachineAcceptance
import Tamga.TableCrates

namespace Tamga.ServerFiles

open Library.Prelude
open Library.Serde
open Library.SignedFile
open Library.Text
open Tamga.Crypto
open Tamga.Dependencies
open Tamga.Envelope
open Tamga.Errors
open Tamga.KeySet
open Tamga.MachineFile (LicenseScheme schemeAlgSuffix)
open Tamga.Models
open Tamga.PayloadJson
open Tamga.SignatureStage
open Tamga.TableCrates
open Tamga.Wrapping

/-- The verdict on a payload with these claims at `nowUnix`, in unbounded
integers. -/
structure Judged {J : SerdeJson} {V : Type} (claims : LicenseFileClaims)
    (nowUnix : Int64) (verified : V) (result : Except (CheckoutError J) V) : Prop where
  valid : (∀ exp, claims.exp = some exp → nowUnix.toInt - 60 ≤ exp.toInt) →
    result = .ok verified
  expired : ∀ exp, claims.exp = some exp → exp.toInt < nowUnix.toInt - 60 →
    result = .error (.expired exp)

theorem judged_map_enforceExp {J : SerdeJson} {V : Type} (claims : LicenseFileClaims)
    (nowUnix : Int64) (verified : V) :
    Judged claims nowUnix verified
      ((enforceExp J claims nowUnix).map fun _ => verified) where
  valid hvalid := by
    rw [enforceExp_of_not_expired]
    · rfl
    · rintro ⟨exp, hexp, hpast⟩
      have := hvalid exp hexp
      omega
  expired exp hexp hpast := by
    rw [enforceExp_of_past hexp hpast]
    rfl

section License

structure Ed25519KeyPair (c : Crates) where
  pubkey : Octets 32
  sign : List UInt8 → List UInt8
  verify_sign : ∀ message, Ed25519.verify c pubkey message (sign message) = .ok ()

def licenseEnc (c : Crates) (encoding : EncEncoding) (licenseKey : String)
    (nonce : Octets 12) (plaintext : List UInt8) : String :=
  match encoding with
  | .plain => c.base64.encode plaintext
  | .aes256Gcm => c.base64.encode
      (nonce.val ++ c.aesGcm.encrypt (Hkdf.deriveLicenseFileKey c licenseKey) nonce plaintext)

/-- The envelope of a licence file, signed over the octets of the string `enc`. -/
def licenseCert (c : Crates) (keyPair : Ed25519KeyPair c) (encoding : EncEncoding)
    (enc : String) : CertPayload where
  enc := enc
  sig := c.base64.encode (keyPair.sign (asBytes enc))
  alg := algName encoding "ed25519"

def licensePem (c : Crates) (spacing : Spacing) {cert : CertPayload}
    (text : CertText c.json cert) : String :=
  spacing.wrap LicenseFile.pemHeader LicenseFile.pemFooter (c.base64.encode text.bytes)

theorem parseEnvelope_licensePem (c : Crates) (spacing : Spacing) {cert : CertPayload}
    (text : CertText c.json cert) :
    LicenseFile.parseEnvelope c (licensePem c spacing text) = .ok cert :=
  parseEnvelope_eq_ok_iff.mpr (enveloped_wrap (by decide) (by decide) spacing text)

def licenseSigned (c : Crates) (keyPair : Ed25519KeyPair c) (encoding : EncEncoding)
    (enc : String) : SignedPart where
  cert := licenseCert c keyPair encoding enc
  encoding := encoding
  signature := keyPair.sign (asBytes enc)

theorem signedPart_licensePem (c : Crates) (spacing : Spacing)
    {keyPair : Ed25519KeyPair c} {encoding : EncEncoding} {enc : String}
    (text : CertText c.json (licenseCert c keyPair encoding enc)) :
    LicenseFile.signedPart c (licensePem c spacing text) =
      .ok (licenseSigned c keyPair encoding enc) := by
  rw [LicenseFile.signedPart_eq_ok_iff]
  refine ⟨parseEnvelope_licensePem c spacing text, ?_, ?_⟩
  · exact LicenseFile.validateAlg_eq_ok_iff_algName.mpr rfl
  · exact c.base64.decode_encode _

theorem checkKey_licenseSigned (c : Crates) (keyPair : Ed25519KeyPair c)
    (encoding : EncEncoding) (enc : String) :
    checkKey c keyPair.pubkey (licenseSigned c keyPair encoding enc) = .ok () :=
  checkKey_eq_ok_iff.mpr (keyPair.verify_sign (asBytes enc))

theorem opens_licenseEnc (c : Crates) {encoding : EncEncoding} {licenseKey : String}
    {given : Option String} (hgiven : encoding = .aes256Gcm → given = some licenseKey)
    (nonce : Octets 12) (plaintext : List UInt8) :
    LicenseFile.Opens c given (licenseEnc c encoding licenseKey nonce plaintext)
      plaintext encoding := by
  cases encoding with
  | plain => exact .plain (c.base64.decode_encode plaintext)
  | aes256Gcm =>
      exact .aes256Gcm (hgiven rfl) (c.base64.decode_encode _)
        (c.aesGcm.decrypt_encrypt _ nonce plaintext)

theorem decodePlaintext_licenseEnc (c : Crates) {encoding : EncEncoding}
    {licenseKey : String} {given : Option String}
    (hgiven : encoding = .aes256Gcm → given = some licenseKey) {nonce : Octets 12}
    {plaintext : List UInt8} {cert : CertPayload}
    (henc : cert.enc = licenseEnc c encoding licenseKey nonce plaintext) :
    LicenseFile.decodePlaintext c cert encoding given = .ok plaintext := by
  rw [LicenseFile.decodePlaintext_eq_ok_iff, henc]
  exact opens_licenseEnc c hgiven nonce plaintext

theorem judged_licensePem (c : Crates) (keyPair : Ed25519KeyPair c)
    {encoding : EncEncoding} {licenseKey : String} {nonce : Octets 12}
    {plaintext : List UInt8} {payload : DataPayload (LicenseResource c.json)}
    (hspells : Spells c.json (licenseResource c.json) plaintext payload)
    (text : CertText c.json (licenseCert c keyPair encoding
      (licenseEnc c encoding licenseKey nonce plaintext)))
    (spacing : Spacing) (given : Option String)
    (hgiven : encoding = .aes256Gcm → given = some licenseKey) (nowUnix : Int64) :
    Judged payload.«meta» nowUnix
      { license := payload.data, claims := payload.«meta» }
      (LicenseFile.verifyLicenseFileAt c (licensePem c spacing text) keyPair.pubkey
        given nowUnix) := by
  rw [LicenseFile.verifyLicenseFileAt_eq_verify,
    verify_of_checked (signedPart_licensePem c spacing text)
      (checkKey_licenseSigned c keyPair encoding _),
    LicenseFile.openPayload, licenseSigned,
    decodePlaintext_licenseEnc c hgiven rfl, ok_bind,
    LicenseFile.finish_of_spells hspells]
  exact judged_map_enforceExp _ _ _

/-- Every licence file that the server writes is accepted, as the resource and
the claims it was made from, until it runs out.  Every plaintext comes back from
its encoding, the empty one of 28 octets included. -/
theorem verifyLicenseFileAt_of_built (c : Crates) (keyPair : Ed25519KeyPair c)
    (encoding : EncEncoding) (licenseKey : String) (nonce : Octets 12)
    (plaintext : List UInt8) (payload : DataPayload (LicenseResource c.json))
    (hspells : Spells c.json (licenseResource c.json) plaintext payload)
    (text : CertText c.json (licenseCert c keyPair encoding
      (licenseEnc c encoding licenseKey nonce plaintext)))
    (spacing : Spacing) (given : Option String)
    (hgiven : encoding = .aes256Gcm → given = some licenseKey) (nowUnix : Int64) :
    Judged payload.«meta» nowUnix
        { license := payload.data, claims := payload.«meta» }
        (LicenseFile.verifyLicenseFileAt c (licensePem c spacing text) keyPair.pubkey
          given nowUnix) ∧
      (∀ plaintext cert, cert.enc = licenseEnc c encoding licenseKey nonce plaintext →
        LicenseFile.decodePlaintext c cert encoding given = .ok plaintext) ∧
      (nonce.val ++ c.aesGcm.encrypt (Hkdf.deriveLicenseFileKey c licenseKey) nonce
        []).length = 28 := by
  refine ⟨?_, ?_, ?_⟩
  · exact judged_licensePem c keyPair hspells text spacing given hgiven nowUnix
  · intro plaintext cert henc
    exact decodePlaintext_licenseEnc c hgiven henc
  · rw [List.length_append, nonce.property, c.aesGcm.length_encrypt]
    rfl

def keyPair (r : Recording) : Ed25519KeyPair r.crates where
  pubkey := r.key
  sign message := (r.sign r.key message).val
  verify_sign message := (verify_tableCrates r.tables r.key message _).mpr rfl

def licenseText (r : Recording) (licenseKey : String) (nonce : Octets 12) :
    CertText r.crates.json (licenseCert r.crates (keyPair r) .plain
      (licenseEnc r.crates .plain licenseKey nonce r.payload)) :=
  r.certText .plain

def zeroNonce : Octets 12 :=
  ⟨List.replicate 12 0, rfl⟩

def zeroSignature : Octets 64 :=
  ⟨List.replicate 64 0, rfl⟩

def zeroKey : Octets 32 :=
  ⟨List.replicate 32 0, rfl⟩

def recordedPart (r : Recording) : SignedPart :=
  licenseSigned r.crates (keyPair r) .plain
    (licenseEnc r.crates .plain "" zeroNonce r.payload)

theorem signedPart_recorded (r : Recording) (spacing : Spacing) :
    LicenseFile.signedPart r.crates
        (licensePem r.crates spacing (licenseText r "" zeroNonce)) =
      .ok (recordedPart r) :=
  signedPart_licensePem r.crates spacing (licenseText r "" zeroNonce)

theorem decodePlaintext_recorded (r : Recording) :
    LicenseFile.decodePlaintext r.crates (recordedPart r).cert (recordedPart r).encoding none =
      .ok r.payload :=
  LicenseFile.decodePlaintext_eq_ok_iff.mpr (.plain (r.crates.base64.decode_encode r.payload))

/-- The markers on lines of their own. -/
def lines : Spacing where
  outerLeft := ""
  outerRight := ""
  innerLeft := "\n"
  innerRight := "\n"
  blank_outerLeft := by decide
  blank_outerRight := by decide
  blank_innerLeft := by decide
  blank_innerRight := by decide

def recordedClaims : LicenseFileClaims where
  iat := 1767225600
  exp := some 1767312000
  jti := "test-jti"
  kid := "test-kid"

def recordedKey : Octets 32 :=
  ⟨[
    215, 90, 152, 1, 130, 177, 10, 183, 213, 75, 254, 211, 201, 100, 7, 58, 14, 225,
    114, 243, 218, 166, 35, 37, 175, 2, 26, 104, 247, 7, 81, 26], rfl⟩

/-- A key that has signed nothing. -/
def foreignKey : Octets 32 :=
  ⟨[
    61, 64, 23, 195, 232, 67, 137, 90, 146, 183, 10, 167, 77, 27, 126, 188, 156, 152,
    44, 207, 46, 196, 150, 140, 192, 205, 85, 241, 42, 244, 102, 12], rfl⟩

def licenseJson : Json :=
  objectJson [
    ("id", textJson "01926b3e-0000-7000-8000-000000000000"),
    ("type", textJson "licenses"),
    ("attributes", objectJson [
      ("name", .null), ("key", .null), ("status", textJson "ACTIVE"),
      ("expiry", .null), ("suspended", .bool false), ("protected", .bool false),
      ("scheme", .null), ("encrypted", .bool false), ("strict", .bool false),
      ("floating", .bool false), ("max_machines", .null), ("max_users", .null),
      ("last_validated_at", .null), ("last_check_in_at", .null),
      ("last_check_out_at", .null), ("machines_count", i32Json 0),
      ("metadata", .object []), ("created", textJson "2026-01-01T00:00:00Z"),
      ("updated", textJson "2026-01-01T00:00:00Z")])]

def licenseRecording : Recording where
  inner := "\x7b\"id\":\"01926b3e-0000-7000-8000-000000000000\"," ++
    "\"type\":\"licenses\",\"attributes\":\x7b\"name\":null,\"key\":null," ++
    "\"status\":\"ACTIVE\",\"expiry\":null,\"suspended\":false,\"protected\":false," ++
    "\"scheme\":null,\"encrypted\":false,\"strict\":false,\"floating\":false," ++
    "\"max_machines\":null,\"max_users\":null,\"last_validated_at\":null," ++
    "\"last_check_in_at\":null,\"last_check_out_at\":null,\"machines_count\":0," ++
    "\"metadata\":\x7b\x7d,\"created\":\"2026-01-01T00:00:00Z\"," ++
    "\"updated\":\"2026-01-01T00:00:00Z\"\x7d\x7d,\"meta\":\x7b\"iat\":1767225600," ++
    "\"exp\":1767312000,\"jti\":\"test-jti\",\"kid\":\"test-kid\"\x7d"
  document := payloadJson licenseJson recordedClaims
  key := recordedKey
  signature :=
    ⟨[
      208, 223, 189, 1, 53, 215, 67, 59, 75, 19, 196, 144, 227, 48, 211, 251, 121, 17,
      149, 100, 254, 136, 227, 162, 174, 7, 131, 168, 74, 236, 237, 92, 144, 82, 63, 150,
      52, 167, 128, 48, 116, 218, 237, 54, 175, 57, 38, 217, 215, 198, 48, 214, 232, 253,
      36, 189, 118, 206, 141, 134, 181, 43, 125, 1], rfl⟩
  derivedKey :=
    ⟨[
      11, 190, 178, 72, 139, 141, 177, 229, 211, 252, 254, 186, 47, 222, 79, 34, 100, 204,
      164, 111, 214, 98, 112, 247, 145, 107, 99, 223, 138, 250, 103, 246], rfl⟩

def recordedLicense : LicenseResource licenseRecording.crates.json where
  id := "01926b3e-0000-7000-8000-000000000000"
  resourceType := "licenses"
  attributes := {
    name := none, key := none, status := "ACTIVE", expiry := none, suspended := false
    «protected» := false, scheme := none, encrypted := false, strict := false
    floating := false, maxMachines := none, maxUsers := none, lastValidatedAt := none
    lastCheckInAt := none, lastCheckOutAt := none, machinesCount := 0
    metadata := Json.object [], created := "2026-01-01T00:00:00Z"
    updated := "2026-01-01T00:00:00Z" }

theorem spells_recordedLicense :
    Spells licenseRecording.crates.json (licenseResource licenseRecording.crates.json)
      licenseRecording.payload { data := recordedLicense, «meta» := recordedClaims } :=
  spells_payloadJson licenseRecording.parse_payload
    (deserialize_licenseResource (roundTrips_tableJson _) recordedLicense)

theorem claims_valid {exp : Int64} (h : recordedClaims.exp = some exp) :
    (1767312060 : Int64).toInt - 60 ≤ exp.toInt := by
  obtain rfl := Option.some.inj h
  decide

def recordedLicensePem : String :=
  licensePem licenseRecording.crates lines (licenseText licenseRecording "" zeroNonce)

theorem verifyLicenseFileAt_of_built_recorded :
    LicenseFile.verifyLicenseFileAt licenseRecording.crates recordedLicensePem recordedKey
        none 1767312060 =
      .ok { license := recordedLicense, claims := recordedClaims } ∧
    LicenseFile.verifyLicenseFileAt licenseRecording.crates recordedLicensePem recordedKey
        none 1767312061 =
      .error (.expired 1767312000) := by
  have hbuilt := fun nowUnix => (verifyLicenseFileAt_of_built licenseRecording.crates
    (keyPair licenseRecording) .plain "" zeroNonce licenseRecording.payload _
    spells_recordedLicense (licenseText licenseRecording "" zeroNonce) lines none nofun
    nowUnix).1
  constructor
  · apply (hbuilt 1767312060).valid
    intro exp hexp
    exact claims_valid hexp
  · apply (hbuilt 1767312061).expired 1767312000 rfl
    decide

theorem verifyLicenseFileAt_recorded :
    LicenseFile.verifyLicenseFileAt licenseRecording.crates recordedLicensePem recordedKey
        none 1767312060 =
      .ok { license := recordedLicense, claims := recordedClaims } := by
  have hjudged := judged_licensePem licenseRecording.crates (keyPair licenseRecording)
    spells_recordedLicense (licenseText licenseRecording "" zeroNonce) lines
    none nofun 1767312060
  exact hjudged.valid fun exp hexp => claims_valid hexp

theorem foreignKey_not_verifies (r : Recording) (hkey : r.key = recordedKey)
    (hsignature : r.signature.val ≠ List.replicate 64 0) {kid : String} {held : Octets 32}
    (hheld : held ∈ (SigningKeySet.mk [(kid, foreignKey)]).keys) :
    Ed25519.verify r.crates held (asBytes (recordedPart r).cert.enc)
      (recordedPart r).signature ≠ .ok () := by
  have hne : foreignKey ≠ recordedKey := by decide
  obtain rfl := List.mem_singleton.mp hheld
  exact r.verify_signature_of_ne (hkey ▸ hne) hsignature

theorem foreignKey_not_signatureVerified (r : Recording) (hkey : r.key = recordedKey)
    (hsignature : r.signature.val ≠ List.replicate 64 0) {kid : String} {held : Octets 32}
    (hheld : held ∈ (SigningKeySet.mk [(kid, foreignKey)]).keys) (spacing : Spacing) :
    ¬LicenseFile.SignatureVerified r.crates
      (licensePem r.crates spacing (licenseText r "" zeroNonce)) held := by
  rw [← LicenseFile.checked_iff]
  rintro ⟨file, hsigned, hcheck⟩
  obtain rfl := Except.ok.inj ((signedPart_recorded r spacing).symm.trans hsigned)
  exact foreignKey_not_verifies r hkey hsignature hheld (checkKey_eq_ok_iff.mp hcheck)

end License

section Machine

structure SchemeKeyPair (c : Crates) (scheme : LicenseScheme) where
  pubkey : List UInt8
  sign : List UInt8 → List UInt8
  accepts_sign : ∀ message,
    MachineFile.SchemeAccepts c pubkey message (sign message) scheme

def machineEnc (c : Crates) (encoding : EncEncoding) (licenseKey fingerprint : String)
    (nonce : Octets 12) (plaintext : List UInt8) : String :=
  match encoding with
  | .plain => c.base64.encode plaintext
  | .aes256Gcm => c.base64.encode nonce.val ++ "." ++ c.base64.encode
      (c.aesGcm.encrypt (Hkdf.deriveMachineFileKey c licenseKey fingerprint) nonce
        plaintext)

def machineCert (c : Crates) {scheme : LicenseScheme} (keyPair : SchemeKeyPair c scheme)
    (encoding : EncEncoding) (enc : String) : CertPayload where
  enc := enc
  sig := c.base64.encode (keyPair.sign (asBytes enc))
  alg := algName encoding (schemeAlgSuffix scheme)

def machinePem (c : Crates) (spacing : Spacing) {cert : CertPayload}
    (text : CertText c.json cert) : String :=
  spacing.wrap MachineFile.pemHeader MachineFile.pemFooter (c.base64.encode text.bytes)

theorem parseEnvelope_machinePem (c : Crates) (spacing : Spacing) {cert : CertPayload}
    (text : CertText c.json cert) :
    MachineFile.parseEnvelope c (machinePem c spacing text) = .ok cert :=
  parseEnvelope_eq_ok_iff.mpr (enveloped_wrap (by decide) (by decide) spacing text)

def machineSigned (c : Crates) {scheme : LicenseScheme}
    (keyPair : SchemeKeyPair c scheme) (encoding : EncEncoding) (enc : String) :
    SignedPart where
  cert := machineCert c keyPair encoding enc
  encoding := encoding
  signature := keyPair.sign (asBytes enc)

theorem signedPart_machinePem (c : Crates) (spacing : Spacing) {scheme : LicenseScheme}
    {keyPair : SchemeKeyPair c scheme} {encoding : EncEncoding} {enc : String}
    (text : CertText c.json (machineCert c keyPair encoding enc))
    (mismatch : String → String → String) :
    MachineFile.signedPart c (schemeAlgSuffix scheme) mismatch
        (machinePem c spacing text) =
      .ok (machineSigned c keyPair encoding enc) := by
  rw [MachineFile.signedPart_eq_ok_iff]
  refine ⟨parseEnvelope_machinePem c spacing text, ?_, ?_⟩
  · exact (MachineFile.parseAlg_eq_ok_iff_of_scheme scheme).mpr rfl
  · exact c.base64.decode_encode _

theorem checkScheme_machineSigned (c : Crates) {scheme : LicenseScheme}
    (keyPair : SchemeKeyPair c scheme) (encoding : EncEncoding) (enc : String) :
    MachineFile.checkScheme c scheme keyPair.pubkey
      (machineSigned c keyPair encoding enc) = .ok () :=
  MachineFile.verifySignature_eq_ok_iff.mpr (keyPair.accepts_sign (asBytes enc))

theorem SchemeKeyPair.scheme_ne_jwt {c : Crates} {scheme : LicenseScheme}
    (keyPair : SchemeKeyPair c scheme) : scheme ≠ .rsa2048JwtRs256 := by
  rintro rfl
  cases keyPair.accepts_sign []

theorem opens_machineEnc (c : Crates) {encoding : EncEncoding}
    {licenseKey fingerprint : String} {givenKey givenFp : Option String}
    (hgiven : encoding = .aes256Gcm →
      givenKey = some licenseKey ∧ givenFp = some fingerprint)
    (nonce : Octets 12) (plaintext : List UInt8) :
    MachineFile.Opens c givenKey givenFp
      (machineEnc c encoding licenseKey fingerprint nonce plaintext) plaintext
      encoding := by
  cases encoding with
  | plain => exact .plain (c.base64.decode_encode plaintext)
  | aes256Gcm =>
      obtain ⟨hkey, hfp⟩ := hgiven rfl
      exact .aes256Gcm hkey hfp rfl (c.base64.decode_encode _) (c.base64.decode_encode _)
        (c.aesGcm.decrypt_encrypt _ nonce plaintext)

theorem judged_machinePem (c : Crates) {scheme : LicenseScheme}
    (keyPair : SchemeKeyPair c scheme) {encoding : EncEncoding}
    {licenseKey fingerprint : String} {nonce : Octets 12}
    {plaintext : List UInt8} {payload : DataPayload (MachineResource c.json)}
    (hspells : Spells c.json (machineResource c.json) plaintext payload)
    (text : CertText c.json (machineCert c keyPair encoding
      (machineEnc c encoding licenseKey fingerprint nonce plaintext)))
    (spacing : Spacing) (givenKey givenFp : Option String)
    (hgiven : encoding = .aes256Gcm →
      givenKey = some licenseKey ∧ givenFp = some fingerprint) (nowUnix : Int64) :
    Judged payload.«meta» nowUnix
      { machine := payload.data, claims := payload.«meta» }
      (MachineFile.verifyMachineFileAt c (machinePem c spacing text) scheme
        keyPair.pubkey givenKey givenFp nowUnix) := by
  rw [MachineFile.verifyMachineFileAt_eq_verify c _ keyPair.scheme_ne_jwt,
    verify_of_checked (signedPart_machinePem c spacing text _)
      (checkScheme_machineSigned c keyPair encoding _),
    MachineFile.openPayload, machineSigned,
    MachineFile.decodePlaintext_eq_ok_iff.mpr (opens_machineEnc c hgiven nonce plaintext),
    ok_bind, MachineFile.finish_of_spells hspells]
  exact judged_map_enforceExp _ _ _

theorem signatureVerified_machinePem (c : Crates) {scheme : LicenseScheme}
    {keyPair : SchemeKeyPair c scheme} {encoding : EncEncoding} {enc : String}
    (text : CertText c.json (machineCert c keyPair encoding enc)) (spacing : Spacing) :
    MachineFile.SignatureVerified c (machinePem c spacing text) scheme keyPair.pubkey :=
  (MachineFile.checked_iff (MachineFile.schemeMismatch c)).mp
    ⟨_, signedPart_machinePem c spacing text _,
      checkScheme_machineSigned c keyPair encoding enc⟩

/-- Every machine file that the server writes is accepted under its scheme, as
the resource and the claims it was made from, until it runs out.  A key set
that holds the key says the same of an Ed25519 file. -/
theorem verifyMachineFileAt_of_built (c : Crates) (scheme : LicenseScheme)
    (keyPair : SchemeKeyPair c scheme) (encoding : EncEncoding)
    (licenseKey fingerprint : String) (nonce : Octets 12)
    (plaintext : List UInt8) (payload : DataPayload (MachineResource c.json))
    (hspells : Spells c.json (machineResource c.json) plaintext payload)
    (text : CertText c.json (machineCert c keyPair encoding
      (machineEnc c encoding licenseKey fingerprint nonce plaintext)))
    (spacing : Spacing) (givenKey givenFp : Option String)
    (hgiven : encoding = .aes256Gcm →
      givenKey = some licenseKey ∧ givenFp = some fingerprint) (nowUnix : Int64) :
    Judged payload.«meta» nowUnix
        { machine := payload.data, claims := payload.«meta» }
        (MachineFile.verifyMachineFileAt c (machinePem c spacing text) scheme
          keyPair.pubkey givenKey givenFp nowUnix) ∧
      (scheme = .ed25519Sign → ∀ keys key, key ∈ keys.keys →
        key.val = keyPair.pubkey →
          Judged payload.«meta» nowUnix
            { machine := payload.data, claims := payload.«meta» }
            (MachineFile.verifyMachineFileWithKeySetAt c (machinePem c spacing text)
              keys givenKey givenFp nowUnix)) := by
  have hsingle := judged_machinePem c keyPair hspells text spacing givenKey givenFp hgiven
    nowUnix
  refine ⟨hsingle, ?_⟩
  rintro rfl keys key hkey hpubkey
  have hverified := signatureVerified_machinePem c text spacing
  rw [← hpubkey] at hverified hsingle
  rw [MachineFile.verifyMachineFileWithKeySetAt_eq_single hkey hverified]
  exact hsingle

def schemeKeyPair (r : Recording) : SchemeKeyPair r.crates .ed25519Sign where
  pubkey := r.key.val
  sign message := (r.sign r.key message).val
  accepts_sign message :=
    .ed25519Sign rfl ((verify_tableCrates r.tables r.key message _).mpr rfl)

def machineText (r : Recording) (licenseKey fingerprint : String) (nonce : Octets 12) :
    CertText r.crates.json (machineCert r.crates (schemeKeyPair r) .plain
      (machineEnc r.crates .plain licenseKey fingerprint nonce r.payload)) :=
  r.certText .plain

def machineJson : Json :=
  objectJson [
    ("id", textJson "01926b3e-2222-7000-8000-000000000000"),
    ("type", textJson "machines"),
    ("attributes", objectJson [
      ("fingerprint", textJson "fp-abc123"), ("cores", i32Json 4), ("memory", .null),
      ("disk", .null), ("ip", .null), ("hostname", textJson "host1"),
      ("platform", textJson "linux"), ("name", .null),
      ("heartbeat_status", textJson "NOT_STARTED"), ("last_heartbeat_at", .null),
      ("next_heartbeat_at", .null), ("last_check_out_at", .null),
      ("metadata", .object []), ("created", textJson "2026-01-01T00:00:00Z"),
      ("updated", textJson "2026-01-01T00:00:00Z")])]

def machineRecording : Recording where
  inner := "\x7b\"id\":\"01926b3e-2222-7000-8000-000000000000\"," ++
    "\"type\":\"machines\",\"attributes\":\x7b\"fingerprint\":\"fp-abc123\"," ++
    "\"cores\":4,\"memory\":null,\"disk\":null,\"ip\":null,\"hostname\":\"host1\"," ++
    "\"platform\":\"linux\",\"name\":null,\"heartbeat_status\":\"NOT_STARTED\"," ++
    "\"last_heartbeat_at\":null,\"next_heartbeat_at\":null," ++
    "\"last_check_out_at\":null,\"metadata\":\x7b\x7d," ++
    "\"created\":\"2026-01-01T00:00:00Z\"," ++
    "\"updated\":\"2026-01-01T00:00:00Z\"\x7d\x7d,\"meta\":\x7b\"iat\":1767225600," ++
    "\"exp\":1767312000,\"jti\":\"test-jti\",\"kid\":\"test-kid\"\x7d"
  document := payloadJson machineJson recordedClaims
  key := recordedKey
  signature :=
    ⟨[
      208, 13, 204, 181, 241, 192, 57, 176, 184, 162, 251, 252, 130, 59, 22, 104, 65, 198,
      41, 242, 31, 210, 224, 168, 224, 120, 11, 190, 111, 128, 28, 191, 195, 33, 98, 41,
      146, 232, 245, 117, 110, 66, 146, 123, 150, 202, 145, 137, 102, 155, 230, 133, 110,
      154, 146, 110, 156, 209, 218, 94, 4, 56, 242, 15], rfl⟩
  derivedKey :=
    ⟨[
      153, 90, 35, 121, 205, 127, 65, 188, 104, 181, 142, 244, 185, 98, 51, 152, 99, 225,
      138, 33, 45, 41, 100, 111, 156, 9, 239, 72, 253, 220, 207, 110], rfl⟩

def recordedMachine : MachineResource machineRecording.crates.json where
  id := "01926b3e-2222-7000-8000-000000000000"
  resourceType := "machines"
  attributes := {
    fingerprint := "fp-abc123", cores := some 4, memory := none, disk := none, ip := none
    hostname := some "host1", platform := some "linux", name := none
    heartbeatStatus := .notStarted, lastHeartbeatAt := none, nextHeartbeatAt := none
    lastCheckOutAt := none, metadata := Json.object []
    created := "2026-01-01T00:00:00Z", updated := "2026-01-01T00:00:00Z" }

theorem spells_recordedMachine :
    Spells machineRecording.crates.json (machineResource machineRecording.crates.json)
      machineRecording.payload { data := recordedMachine, «meta» := recordedClaims } :=
  spells_payloadJson machineRecording.parse_payload
    (deserialize_machineResource (roundTrips_tableJson _) recordedMachine rfl)

def recordedMachinePem : String :=
  machinePem machineRecording.crates lines (machineText machineRecording "" "" zeroNonce)

theorem verifyMachineFileAt_of_built_recorded :
    MachineFile.verifyMachineFileAt machineRecording.crates recordedMachinePem
        .ed25519Sign recordedKey.val none none 1767312060 =
      .ok { machine := recordedMachine, claims := recordedClaims } ∧
    MachineFile.verifyMachineFileWithKeySetAt machineRecording.crates recordedMachinePem
        { entries := [("test-kid", recordedKey)] } none none 1767312061 =
      .error (.expired 1767312000) := by
  have hbuilt := fun nowUnix => verifyMachineFileAt_of_built machineRecording.crates
    .ed25519Sign (schemeKeyPair machineRecording) .plain "" "" zeroNonce
    machineRecording.payload _ spells_recordedMachine
    (machineText machineRecording "" "" zeroNonce) lines none none nofun nowUnix
  constructor
  · apply (hbuilt 1767312060).1.valid
    intro exp hexp
    exact claims_valid hexp
  · have hset := (hbuilt 1767312061).2 rfl { entries := [("test-kid", recordedKey)] }
      recordedKey List.mem_cons_self rfl
    apply hset.expired 1767312000 rfl
    decide

theorem verifyMachineFileAt_recorded :
    MachineFile.verifyMachineFileAt machineRecording.crates recordedMachinePem
        .ed25519Sign recordedKey.val none none 1767312060 =
      .ok { machine := recordedMachine, claims := recordedClaims } := by
  have hjudged := judged_machinePem machineRecording.crates
    (schemeKeyPair machineRecording) spells_recordedMachine
    (machineText machineRecording "" "" zeroNonce) lines none none nofun 1767312060
  exact hjudged.valid fun exp hexp => claims_valid hexp

end Machine

end Tamga.ServerFiles
