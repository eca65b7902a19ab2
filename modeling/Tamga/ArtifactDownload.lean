import Tamga.Library.ChunkedBody
import Tamga.ServerResponses

namespace Tamga

open Library.Serde
open Library.Interaction
open Library.Interaction.Prog
open Library.ChunkedBody
open Library.Loops
open Tamga.Dependencies
open Tamga.ApiModels
open Tamga.ApiErrors
open Tamga.Transport

/-- `reqwest::Url`. -/
structure UrlCrate where
  Url : Type
  parse : String → Option Url
  scheme : Url → String

/-- The answer of a storage host: its body as the transport hands it over, chunk
by chunk, with the failure that the transport may end on. -/
structure StorageResponse (R : Reqwest) where
  status : Nat
  contentLength : Option UInt64
  chunks : List (List UInt8)
  failure : Option R.Error

def StorageResponse.isSuccess {R : Reqwest} (response : StorageResponse R) : Bool :=
  200 ≤ response.status && response.status < 300

/-- What a download asks for: the operations of the API client, and a GET of the
storage host, which carries no credential. -/
inductive DownloadOp (U : UrlCrate) where
  | api (op : Op)
  | fetch (url : U.Url)

abbrev DownloadReply (R : Reqwest) (U : UrlCrate) : DownloadOp U → Type
  | .api op => Reply R op
  | .fetch _ => Except R.Error (StorageResponse R)

namespace Client

variable (cl : Client)

abbrev DownloadError := ArtifactDownloadError cl.json cl.reqwest

/-- It goes out on the client that follows no redirect. -/
def artifactDownloadUrlRequest (artifactId : cl.json.Uuid) (ttl : Option Duration) : Request where
  method := .get
  path := "/artifacts/" ++ cl.json.printUuid artifactId ++ "/actions/download"
  query := ("redirect", "false") ::
    ttl.toList.map fun ttl => ("ttl", toString (ttl.millis / 1000))
  otp := none
  body := none

def artifactDownloadUrl (artifactId : cl.json.Uuid) (ttl : Option Duration) :
    cl.Call (ArtifactResource cl.json) :=
  (cl.sendWithRetry (cl.artifactDownloadUrlRequest artifactId ttl)).andThen fun response =>
    .ret (cl.read "Envelope" (envelope (artifactResource cl.json)) response)

/-- One turn of the `while let` loop of `download_artifact`.  A buffer and a chunk are
shorter than `2 ^ 63` octets, so that the sum of their lengths does not overflow. -/
def readChunk (maxBytes : UInt64) (response : StorageResponse cl.reqwest) :
    Point UInt8 → Point UInt8 ⊕ Except cl.DownloadError (List UInt8) :=
  addChunk maxBytes.toNat (.tooLarge maxBytes) (response.failure.map .fetch)

def readBody (maxBytes : UInt64) (response : StorageResponse cl.reqwest) :
    Except cl.DownloadError (List UInt8) :=
  run (cl.readChunk maxBytes response) (fun point => point.rest.length)
    (fun _ _ => length_rest_lt) ⟨[], response.chunks⟩

/-- What `download_artifact` does with the answer of the storage host. -/
def readStorage (maxBytes : UInt64) (response : StorageResponse cl.reqwest) :
    Except cl.DownloadError (List UInt8) :=
  if response.isSuccess then
    match response.contentLength with
    | some len =>
        if len > maxBytes then .error (.tooLarge maxBytes) else cl.readBody maxBytes response
    | none => cl.readBody maxBytes response
  else .error (.storageStatus response.status)

def fetchUrl {U : UrlCrate} (maxBytes : UInt64) (parsed : U.Url) :
    Prog (DownloadOp U) (DownloadReply cl.reqwest U) (Except cl.DownloadError (List UInt8)) :=
  .ask (.fetch parsed) fun
    | .ok response => .ret (cl.readStorage maxBytes response)
    | .error e => .ret (.error (.fetch e))

/-- `download_artifact`, once the API has answered. -/
def fetchArtifact (U : UrlCrate) (maxBytes : UInt64) (redirectUrl : Option String) :
    Prog (DownloadOp U) (DownloadReply cl.reqwest U) (Except cl.DownloadError (List UInt8)) :=
  match redirectUrl with
  | none => .ret (.error .missingRedirectUrl)
  | some url =>
      match U.parse url with
      | none => .ret (.error .malformedRedirectUrl)
      | some parsed =>
          match U.scheme parsed with
          | "http" | "https" => cl.fetchUrl maxBytes parsed
          | scheme => .ret (.error (.unsupportedRedirectScheme scheme))

def downloadArtifact (U : UrlCrate) (artifactId : cl.json.Uuid) (ttl : Option Duration)
    (maxBytes : UInt64) :
    Prog (DownloadOp U) (DownloadReply cl.reqwest U) (Except cl.DownloadError (List UInt8)) :=
  ((cl.artifactDownloadUrl artifactId ttl).lift .api fun _ reply => reply).bind fun
    | .ok artifact => cl.fetchArtifact U maxBytes artifact.attributes.redirectUrl
    | .error e => .ret (.error (.api e))

end Client

namespace ArtifactDownload

open Library.Text
open Tamga.Client
open Tamga.Models
open Tamga.RetryBounds
open Tamga.ServerResponses

variable {cl : Client} {U : UrlCrate} {maxBytes : UInt64}

end ArtifactDownload

end Tamga
