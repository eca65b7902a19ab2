import Tamga.Dependencies

namespace Tamga.Errors

open Tamga.Dependencies

inductive CryptoError where
  | invalidKey
  | invalidSignature
  | verificationFailed
  | decryptionFailed
  deriving DecidableEq

inductive CheckoutError (J : SerdeJson) where
  | malformedPem
  | invalidBase64
  | invalidJson (error : J.Error)
  | unsupportedAlgorithm (alg : String)
  | expired (exp : Int64)
  | licenseKeyMissing
  | fingerprintMissing
  | schemeNotSupported
  | ttlOutOfRange (reason : String)
  | unknownSigningKey (kid : String)
  | crypto (error : CryptoError)

inductive ProofError where
  | malformedProof
  | invalidBase64
  | crypto (error : CryptoError)
  deriving DecidableEq

inductive FingerprintError where
  | noComponents
  | emptyLabel
  | invalidLabel (label : String)
  | duplicateLabel (label : String)
  | controlCharacterInValue (label : String)
  deriving DecidableEq

end Tamga.Errors
