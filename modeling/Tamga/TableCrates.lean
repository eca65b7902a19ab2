import Tamga.Crypto
import Tamga.PayloadJson
import Tamga.Wrapping

/-!
Crates over a table of JSON texts.  They keep every law, so the assumptions on
the crates can be met, and a recorded file can be run through the verifier.
-/

namespace Tamga.TableCrates

open Library.Prelude
open Library.Serde
open Tamga.Crypto
open Tamga.Dependencies
open Tamga.Envelope
open Tamga.Models
open Tamga.PayloadJson
open Tamga.Wrapping

/-- The JSON texts that parse, what a key signs, the key that HKDF derives, and the
SHA-256 digests of texts. -/
structure Tables where
  documents : List (List UInt8 × Json)
  sign : Octets 32 → List UInt8 → Octets 64
  derivedKey : Octets 32
  digests : List (String × Octets 32)

def tableBase64 : Base64Engine where
  encode := Library.Base64.encode
  decode := Library.Base64.decode
  decode_encode := Library.Base64.decode_encode
  encode_of_decode := Library.Base64.encode_of_decode
  mem_encode := Library.Base64.mem_encode

def tableJson (tables : Tables) : SerdeJson where
  parse bytes := tables.documents.lookup bytes
  Error := Unit
  error _ _ := ()
  Uuid := String
  parseUuid := some
  printUuid := id
  DateTime := String
  parseDateTime := some
  printDateTime := id
  Value := Json
  readValue := some
  printValue := id

def tableDalek (tables : Tables) : Ed25519Dalek where
  VerifyingKey := Octets 32
  Signature := Octets 64
  verifyingKeyFromBytes := some
  signatureTryFrom := tryInto 64
  verify key message signature := signature = tables.sign key message
  signatureTryFrom_isSome bytes := by
    rw [tryInto]
    split <;> simp_all

/-- The tag of a seal is sixteen zero octets. -/
def tableTag : List UInt8 :=
  List.replicate 16 0

def tableAesGcm : AesGcm where
  encrypt _ _ plaintext := plaintext ++ tableTag
  decrypt _ _ sealed := sealed.dropSuffix? tableTag
  decrypt_encrypt _ _ plaintext :=
    List.dropSuffix?_eq_some_iff.mpr ⟨tableTag, rfl, beq_self_eq_true tableTag⟩
  encrypt_of_decrypt h := by
    obtain ⟨tag, rfl, htag⟩ := List.dropSuffix?_eq_some_iff.mp h
    rw [eq_of_beq htag]
  length_encrypt _ _ plaintext := by
    rw [List.length_append, tableTag, List.length_replicate]

/-- Zeros stand for the digests that are not in the table. -/
def tableSha256 (tables : Tables) (message : List UInt8) : Octets 32 :=
  ((tables.digests.find? fun entry => asBytes entry.1 = message).map Prod.snd).getD
    ⟨List.replicate 32 0, List.length_replicate⟩

def tableCrates (tables : Tables) : Crates where
  base64 := tableBase64
  json := tableJson tables
  dalek := tableDalek tables
  awsLc := ⟨fun _ _ _ => false, fun _ _ _ => false, fun _ _ _ => false⟩
  aesGcm := tableAesGcm
  hkdf _ _ _ := tables.derivedKey
  sha256 := tableSha256 tables
  isGraphemeExtended _ := false
  isPrintable _ := true

/-- No text that parses, and zeros for every signature. -/
def blankTables : Tables where
  documents := []
  sign _ _ := ⟨List.replicate 64 0, List.length_replicate⟩
  derivedKey := ⟨List.replicate 32 0, List.length_replicate⟩
  digests := []

theorem roundTrips_tableJson (tables : Tables) : RoundTrips (tableJson tables) where
  parseUuid_printUuid _ := rfl
  parseDateTime_printDateTime _ := rfl
  readValue_printValue _ := rfl

theorem verify_tableCrates (tables : Tables) (key : Octets 32)
    (message signature : List UInt8) :
    Ed25519.verify (tableCrates tables) key message signature = .ok () ↔
      signature = (tables.sign key message).val := by
  simp only [Ed25519.verify, tableCrates, tableDalek, bind_eq_ok_iff, okOr_eq_ok_iff,
    tryInto_eq_some_iff]
  constructor
  · rintro ⟨point, ⟨⟩, octets, rfl, h⟩
    by_cases hsigned : octets = tables.sign key message
    · rw [hsigned]
    · simp [hsigned] at h
  · rintro rfl
    exact ⟨key, rfl, tables.sign key message, rfl, by simp⟩

/-- No seal is a JSON text when none of the texts ends as seals do. -/
theorem parse_seal_eq_none {tables : Tables}
    (htexts : ∀ entry ∈ tables.documents, entry.1.getLast? ≠ some 0)
    (key : Octets 32) (nonce : Octets 12) (front plaintext : List UInt8) :
    (tableCrates tables).json.parse
      (front ++ (tableCrates tables).aesGcm.encrypt key nonce plaintext) = none := by
  refine List.lookup_eq_none_iff.mpr fun entry hentry => ?_
  rw [bne_iff_ne]
  intro heq
  apply htexts entry hentry
  rw [← heq]
  simp [tableCrates, tableAesGcm, tableTag]

def keyDigests : List (String × Octets 32) := [
  ("11qYAYKxCrfVS/7TyWQHOg7hcvPapiMlrwIaaPcHURo=", ⟨[
    201, 252, 47, 21, 242, 36, 1, 101, 95, 155, 38, 34, 168, 163, 118, 81, 201, 226, 11,
    116, 220, 48, 92, 200, 223, 149, 186, 0, 94, 29, 100, 249], rfl⟩),
  ("PUAXw+hDiVqStwqnTRt+vJyYLM8uxJaMwM1V8Sr0Zgw=", ⟨[
    122, 71, 101, 121, 90, 94, 44, 230, 114, 205, 92, 199, 5, 228, 154, 159, 243, 120, 96,
    100, 35, 207, 149, 162, 36, 48, 209, 36, 77, 59, 138, 25], rfl⟩)]

/-- A plain file with its payload and the signature of `key` over its `enc`.
The payload is kept without the key and the braces that stand around it. -/
structure Recording where
  inner : String
  document : Json
  key : Octets 32
  signature : Octets 64
  derivedKey : Octets 32

def certBytes (cert : CertPayload) : List UInt8 :=
  asBytes "\x7b\"alg\":\"" ++ (asBytes cert.alg ++ (asBytes "\",\"enc\":\"" ++
    asBytes cert.enc ++ asBytes "\",\"sig\":\"" ++ asBytes cert.sig ++
      asBytes "\"\x7d"))

def certMembers (cert : CertPayload) : Members :=
  [(some "alg", textJson cert.alg), (some "enc", textJson cert.enc),
    (some "sig", textJson cert.sig)]

namespace Recording

variable (r : Recording)

def payload : List UInt8 :=
  asBytes "\x7b\"data\":" ++ (asBytes r.inner ++ asBytes "\x7d")

def enc : String :=
  Library.Base64.encode r.payload

/-- Zeros stand for the signatures that are not recorded. -/
def sign (key : Octets 32) (message : List UInt8) : Octets 64 :=
  if key = r.key ∧ message = asBytes r.enc then r.signature
  else ⟨List.replicate 64 0, by simp⟩

/-- The envelope of the file, when `alg` is written for `encoding`. -/
def cert (encoding : EncEncoding) : CertPayload where
  enc := r.enc
  sig := Library.Base64.encode (r.sign r.key (asBytes r.enc)).val
  alg := algName encoding "ed25519"

def tables : Tables where
  documents := [(r.payload, r.document),
    (certBytes (r.cert .plain), .object (certMembers (r.cert .plain))),
    (certBytes (r.cert .aes256Gcm), .object (certMembers (r.cert .aes256Gcm)))]
  sign := r.sign
  derivedKey := r.derivedKey
  digests := keyDigests

def crates : Crates :=
  tableCrates r.tables

theorem parse_payload : r.crates.json.parse r.payload = some r.document :=
  List.lookup_cons_self

theorem certBytes_ne_payload (encoding : EncEncoding) :
    certBytes (r.cert encoding) ≠ r.payload := by
  intro h
  have htake := congrArg (List.take 3) h
  rw [payload, certBytes, List.take_append_of_le_length (by decide +kernel),
    List.take_append_of_le_length (by decide +kernel)] at htake
  exact absurd htake (by decide +kernel)

theorem certBytes_plain_ne_aes256Gcm :
    certBytes (r.cert .aes256Gcm) ≠ certBytes (r.cert .plain) := by
  intro h
  have halg := List.append_cancel_left h
  have htake := congrArg (List.take 1) halg
  rw [List.take_append_of_le_length (by simp only [cert]; decide +kernel),
    List.take_append_of_le_length (by simp only [cert]; decide +kernel)] at htake
  simp only [cert] at htake
  exact absurd htake (by decide +kernel)

theorem parse_certBytes (encoding : EncEncoding) :
    r.crates.json.parse (certBytes (r.cert encoding)) =
      some (.object (certMembers (r.cert encoding))) := by
  have hpayload := beq_eq_false_iff_ne.mpr (r.certBytes_ne_payload encoding)
  have hlookup : r.crates.json.parse (certBytes (r.cert encoding)) =
      r.tables.documents.lookup (certBytes (r.cert encoding)) := rfl
  rw [hlookup, tables, List.lookup_cons, hpayload]
  cases encoding with
  | plain => exact List.lookup_cons_self
  | aes256Gcm =>
      have hplain := beq_eq_false_iff_ne.mpr r.certBytes_plain_ne_aes256Gcm
      dsimp only
      rw [List.lookup_cons, hplain]
      exact List.lookup_cons_self

/-- The text of the envelope, in the order in which the tests write its keys. -/
def certText (encoding : EncEncoding) : CertText r.crates.json (r.cert encoding) where
  bytes := certBytes (r.cert encoding)
  members := certMembers (r.cert encoding)
  parse_bytes := r.parse_certBytes encoding
  perm := (List.perm_append_singleton _ [_, _]).symm

theorem sign_enc : r.sign r.key (asBytes r.enc) = r.signature :=
  if_pos ⟨rfl, rfl⟩

theorem verify_signature_of_ne {key : Octets 32} (hkey : key ≠ r.key)
    (hsignature : r.signature.val ≠ List.replicate 64 0) :
    Ed25519.verify r.crates key (asBytes r.enc) (r.sign r.key (asBytes r.enc)).val ≠
      .ok () := by
  rw [ne_eq, crates, verify_tableCrates, r.sign_enc]
  simp only [tables, sign, hkey, false_and, if_false]
  exact hsignature

theorem parse_seal (key : Octets 32) (nonce : Octets 12) (front plaintext : List UInt8) :
    r.crates.json.parse (front ++ r.crates.aesGcm.encrypt key nonce plaintext) = none := by
  refine parse_seal_eq_none ?_ key nonce front plaintext
  have hcert : ∀ cert, (certBytes cert).getLast? ≠ some 0 := by
    intro cert
    have hlast : (asBytes "\"\x7d").getLast? = some 0x7d := by decide +kernel
    simp [certBytes, List.getLast?_append, hlast]
  have hpayload : r.payload.getLast? ≠ some 0 := by
    have hlast : (asBytes "\x7d").getLast? = some 0x7d := by decide +kernel
    simp [payload, List.getLast?_append, hlast]
  simp only [tables, List.mem_cons, List.not_mem_nil, or_false, forall_eq_or_imp,
    forall_eq]
  exact ⟨hpayload, hcert _, hcert _⟩

end Recording

end Tamga.TableCrates
