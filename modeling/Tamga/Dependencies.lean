import Tamga.Library.Base64
import Tamga.Library.Prelude
import Tamga.Library.Serde

/-!
The third-party crates under the offline-file verifier and the client, as
parameters.  A field that is a proposition states what the crate documents;
nothing else is known about the functions.
-/

namespace Tamga.Dependencies

open Library.Prelude
open Library.Serde

/-- `base64::engine::general_purpose::STANDARD`, which decodes only what it
encodes. -/
structure Base64Engine where
  encode : List UInt8 → String
  decode : String → Option (List UInt8)
  decode_encode : ∀ bytes, decode (encode bytes) = some bytes
  encode_of_decode : ∀ {text bytes}, decode text = some bytes → encode bytes = text
  mem_encode : ∀ {bytes c}, c ∈ (encode bytes).toList →
    c ∈ '=' :: Library.Base64.alphabet

/-- `serde_json` up to the syntax tree, and the scalar types of `uuid` and
`chrono` that the resources hold.  `error` is the `serde_json::Error` of a
failed read: it depends on the type that was asked for and on the input. -/
structure SerdeJson where
  parse : List UInt8 → Option Json
  Error : Type
  error : String → List UInt8 → Error
  Uuid : Type
  parseUuid : String → Option Uuid
  printUuid : Uuid → String
  DateTime : Type
  parseDateTime : String → Option DateTime
  printDateTime : DateTime → String
  Value : Type
  readValue : Json → Option Value
  printValue : Value → Json

def SerdeJson.fromSlice (J : SerdeJson) {α : Type} (target : String)
    (inner : Deserialize α) (bytes : List UInt8) : Except J.Error α :=
  okOr ((J.parse bytes).bind inner.deserialize) (J.error target bytes)

structure Ed25519Dalek where
  VerifyingKey : Type
  Signature : Type
  verifyingKeyFromBytes : Octets 32 → Option VerifyingKey
  signatureTryFrom : List UInt8 → Option Signature
  verify : VerifyingKey → List UInt8 → Signature → Bool
  signatureTryFrom_isSome : ∀ bytes,
    (signatureTryFrom bytes).isSome ↔ bytes.length = 64

/-- The three verification algorithms used of `aws_lc_rs::signature`, each on a
public key, a message and a signature. -/
structure AwsLc where
  rsaPkcs1Sha256 : List UInt8 → List UInt8 → List UInt8 → Bool
  rsaPssSha256 : List UInt8 → List UInt8 → List UInt8 → Bool
  ecdsaP256Sha256Asn1 : List UInt8 → List UInt8 → List UInt8 → Bool

/-- AES-256-GCM of `aes_gcm`: a seal is the ciphertext with its tag behind it,
and it opens to the one plaintext it was made from. -/
structure AesGcm where
  encrypt : Octets 32 → Octets 12 → List UInt8 → List UInt8
  decrypt : Octets 32 → Octets 12 → List UInt8 → Option (List UInt8)
  decrypt_encrypt : ∀ key nonce plaintext,
    decrypt key nonce (encrypt key nonce plaintext) = some plaintext
  encrypt_of_decrypt : ∀ {key nonce sealed plaintext},
    decrypt key nonce sealed = some plaintext → encrypt key nonce plaintext = sealed
  length_encrypt : ∀ key nonce plaintext,
    (encrypt key nonce plaintext).length = plaintext.length + 16

/-- `reqwest`: the error of a request that failed on the way, `decode` the error
of a body that is not the JSON of the type asked for, and the reason phrase
that a status is displayed with. -/
structure Reqwest where
  Error : Type
  decode : String → Option Json → Error
  canonicalReason : Nat → Option String

/-- `hkdf` is HKDF-SHA256 to 32 octets of salt, key material and info.  The two
character classes are the Unicode tables behind the `Debug` form of a string. -/
structure Crates where
  base64 : Base64Engine
  json : SerdeJson
  dalek : Ed25519Dalek
  awsLc : AwsLc
  aesGcm : AesGcm
  hkdf : List UInt8 → List UInt8 → List UInt8 → Octets 32
  sha256 : List UInt8 → Octets 32
  isGraphemeExtended : Char → Bool
  isPrintable : Char → Bool

theorem Base64Engine.not_mem_of_decode (B : Base64Engine) {text : String}
    {bytes : List UInt8} {c : Char} (h : B.decode text = some bytes)
    (hc : c ∉ '=' :: Library.Base64.alphabet) : c ∉ text.toList := by
  rw [← B.encode_of_decode h]
  exact fun hmem => hc (B.mem_encode hmem)

theorem AesGcm.length_of_decrypt (A : AesGcm) {key : Octets 32} {nonce : Octets 12}
    {sealed plaintext : List UInt8} (h : A.decrypt key nonce sealed = some plaintext) :
    sealed.length = plaintext.length + 16 := by
  rw [← A.encrypt_of_decrypt h, A.length_encrypt]

theorem SerdeJson.fromSlice_eq_ok_iff (J : SerdeJson) {α : Type} {target : String}
    {inner : Deserialize α} {bytes : List UInt8} {value : α} :
    J.fromSlice target inner bytes = .ok value ↔
      ∃ document, J.parse bytes = some document ∧
        inner.deserialize document = some value := by
  simp [fromSlice, Option.bind_eq_some_iff]

end Tamga.Dependencies
