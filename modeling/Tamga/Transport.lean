import Tamga.Dependencies
import Tamga.Library.Text

/-!
`transport.rs`, and what it uses of `reqwest`: requests, responses and their
headers.  A body is kept as the JSON document that it spells, if it spells one.
-/

namespace Tamga.Transport

open Library.Serde
open Library.Text

inductive Method where
  | get
  | post
  | patch
  | delete
  deriving DecidableEq

/-- A request, less what the client puts on every request alike: the base URL,
its credential and `Tamga-Version`. -/
structure Request where
  method : Method
  path : String
  query : List (String × String)
  otp : Option String
  body : Option Json

/-- `HeaderMap`, with the names in lower case as it stores them. -/
abbrev HeaderMap := List (String × List UInt8)

/-- `HeaderMap::get`. -/
def HeaderMap.get (headers : HeaderMap) (name : String) : Option (List UInt8) :=
  headers.lookup (String.ofList (name.toList.map Char.toLower))

/-- `HeaderValue::to_str`: visible ASCII only. -/
def toStr (value : List UInt8) : Option String :=
  if value.all fun byte => byte == 9 || (32 ≤ byte && byte < 127) then
    some (String.ofList (value.map fun byte => Char.ofNat byte.toNat))
  else none

structure Response where
  status : Nat
  headers : HeaderMap
  body : Option Json

def tooManyRequests : Nat := 429

/-- `StatusCode::is_success`. -/
def Response.isSuccess (response : Response) : Bool :=
  200 ≤ response.status && response.status < 300

def numHeader (headers : HeaderMap) (name : String) : Option UInt64 := do
  let value ← headers.get name
  let text ← toStr value
  parseU64 (trim text)

structure RateLimitInfo where
  limit : Option UInt64
  remaining : Option UInt64
  reset : Option UInt64
  window : Option UInt64

def RateLimitInfo.fromHeaders (headers : HeaderMap) : RateLimitInfo where
  limit := numHeader headers "x-ratelimit-limit"
  remaining := numHeader headers "x-ratelimit-remaining"
  reset := numHeader headers "x-ratelimit-reset"
  window := numHeader headers "x-ratelimit-window"

structure ResponseInfo where
  tamgaVersion : Option String
  tamgaEdition : Option String
  tamgaMode : Option String
  requestId : Option String
  rateLimit : RateLimitInfo

def ResponseInfo.fromHeaders (headers : HeaderMap) : ResponseInfo where
  tamgaVersion := (headers.get "Tamga-Version").bind toStr
  tamgaEdition := (headers.get "Tamga-Edition").bind toStr
  tamgaMode := (headers.get "Tamga-Mode").bind toStr
  requestId := (headers.get "X-Request-Id").bind toStr
  rateLimit := RateLimitInfo.fromHeaders headers

/-- `Duration`, in milliseconds. -/
structure Duration where
  millis : Nat
  deriving DecidableEq

def Duration.fromSecs (secs : UInt64) : Duration := ⟨secs.toNat * 1000⟩

def Duration.fromMillis (millis : UInt64) : Duration := ⟨millis.toNat⟩

/-- `*` and `+` wrap, as `wrapping_mul` and `wrapping_add` do. -/
def jitterMillis (processId attempt : UInt32) : UInt64 :=
  let seed := processId.toUInt64 * 2654435761 + attempt.toUInt64 * 40503
  seed % 1000

theorem jitterMillis_lt (processId attempt : UInt32) :
    (jitterMillis processId attempt).toNat < 1000 := by
  rw [jitterMillis, UInt64.toNat_mod]
  exact Nat.mod_lt _ (by decide)

example : numHeader [("retry-after", [32, 52, 50])] "Retry-After" = some 42 := by decide

end Tamga.Transport
