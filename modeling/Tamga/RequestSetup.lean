import Tamga.Transport

namespace Tamga.Transport

open Library.Prelude
open Library.Serde
open Library.Text
open Tamga.Dependencies

inductive BasicAuth where
  | emailPassword (email password : String)
  | token (token : String)
  | licenseKey (key : String)
  deriving DecidableEq

inductive AuthTransport where
  | bearer (token : String)
  | basic (auth : BasicAuth)
  | license (key : String)
  | query (token : String)
  deriving DecidableEq

def BasicAuth.toUserPass : BasicAuth → String
  | .emailPassword email password => email ++ ":" ++ password
  | .token username => username ++ ":"
  | .licenseKey key => "license:" ++ key

def BasicAuth.toBase64 (engine : Base64Engine) (auth : BasicAuth) : String :=
  engine.encode (asBytes auth.toUserPass)

def authorization : String := "Authorization"

def queryParamToken : String := "token"

namespace AuthTransport

def header (engine : Base64Engine) : AuthTransport → Option (String × String)
  | .bearer token => some (authorization, "Bearer " ++ token)
  | .basic auth => some (authorization, "Basic " ++ auth.toBase64 engine)
  | .license key => some (authorization, "License " ++ key)
  | .query _ => none

def queryParam : AuthTransport → Option (String × String)
  | .query token => some (queryParamToken, token)
  | _ => none

end AuthTransport

def isVersionChar (c : Char) : Bool :=
  c.isAlphanum || c == '.' || c == '-'

def sanitizeVersion (version : String) : String :=
  String.ofList ((version.toList.filter isVersionChar).take 32)

def defaultApiVersion : String := "1.8"

structure ClientConfig where
  accountId : String
  host : String
  apiVersion : String
  timeout : Duration
  auth : AuthTransport
  maxRetries : UInt32

def defaultTimeout : Duration := .fromSecs 45

def defaultMaxRetries : UInt32 := 3

namespace ClientConfig

def trimSlashes (host : String) : String := trimEndMatches (· == '/') host

def origin (host : String) : String :=
  match stripPrefix (trimSlashes host) "http://" with
  | some host => "http://" ++ host
  | none =>
      "https://" ++ (stripPrefix (trimSlashes host) "https://").getD (trimSlashes host)

def originUrl (config : ClientConfig) : String := origin config.host

def baseUrl (config : ClientConfig) : String :=
  config.originUrl ++ "/v1/accounts/" ++ config.accountId

end ClientConfig

structure ClientConfigBuilder where
  accountId : String
  host : String
  apiVersion : String
  timeout : Duration
  auth : Option AuthTransport
  maxRetries : UInt32

namespace ClientConfigBuilder

/-- `ClientConfig::builder`. -/
def new (accountId host : String) : ClientConfigBuilder where
  accountId := accountId
  host := host
  apiVersion := defaultApiVersion
  timeout := defaultTimeout
  auth := none
  maxRetries := defaultMaxRetries

def setApiVersion (builder : ClientConfigBuilder) (version : String) : ClientConfigBuilder :=
  { builder with apiVersion := version }

def setTimeout (builder : ClientConfigBuilder) (timeout : Duration) : ClientConfigBuilder :=
  { builder with timeout := timeout }

def setAuth (builder : ClientConfigBuilder) (auth : AuthTransport) : ClientConfigBuilder :=
  { builder with auth := some auth }

def setMaxRetries (builder : ClientConfigBuilder) (retries : UInt32) : ClientConfigBuilder :=
  { builder with maxRetries := retries }

/-- Without a credential the builder panics. -/
def build (builder : ClientConfigBuilder) : Option ClientConfig :=
  builder.auth.map fun auth => {
    accountId := builder.accountId
    host := builder.host
    apiVersion := builder.apiVersion
    timeout := builder.timeout
    auth := auth
    maxRetries := builder.maxRetries }

end ClientConfigBuilder

/-- `reqwest::RequestBuilder`, as the client fills it: texts that are not parsed yet. -/
structure RequestBuilder where
  method : Method
  url : String
  headers : List (String × String)
  query : List (String × String)
  body : Option Json

/-- `request_on`, and the query and the body that an endpoint adds, as they are handed to
`reqwest`: it parses the URL, so that `..`, `?` and `#` in an account lead elsewhere, and
refuses a header value that has a newline. -/
def requestOn (engine : Base64Engine) (config : ClientConfig) (request : Request) :
    RequestBuilder where
  method := request.method
  url := config.baseUrl ++ request.path
  headers := (config.auth.header engine).toList ++
    [("Tamga-Version", sanitizeVersion config.apiVersion)] ++
      request.otp.toList.map (Prod.mk "Tamga-OTP")
  query := config.auth.queryParam.toList ++ request.query
  body := request.body

def RateLimitInfo.isPresent (info : RateLimitInfo) : Bool :=
  info.limit.isSome || info.remaining.isSome || info.reset.isSome || info.window.isSome

def RateLimitInfo.secondsUntilReset (info : RateLimitInfo) (nowUnix : UInt64) : Option UInt64 :=
  info.reset.map fun reset => if nowUnix ≤ reset then reset - nowUnix else 0

section Settings

/-- What may be set of a configuration before it is built. -/
inductive Setting where
  | apiVersion (version : String)
  | timeout (timeout : Duration)
  | auth (auth : AuthTransport)
  | maxRetries (retries : UInt32)

def ClientConfigBuilder.set (builder : ClientConfigBuilder) : Setting → ClientConfigBuilder
  | .apiVersion value => builder.setApiVersion value
  | .timeout value => builder.setTimeout value
  | .auth value => builder.setAuth value
  | .maxRetries value => builder.setMaxRetries value

def Setting.apiVersion? : Setting → Option String
  | .apiVersion value => some value
  | _ => none

def Setting.timeout? : Setting → Option Duration
  | .timeout value => some value
  | _ => none

def Setting.auth? : Setting → Option AuthTransport
  | .auth value => some value
  | _ => none

def Setting.maxRetries? : Setting → Option UInt32
  | .maxRetries value => some value
  | _ => none

/-- In a builder the last value given counts, or else the default. -/
theorem foldl_set (accountId host : String) (settings : List Setting) :
    settings.foldl .set (.new accountId host) = ({
      accountId := accountId
      host := host
      apiVersion := (settings.reverse.findSome? Setting.apiVersion?).getD defaultApiVersion
      timeout := (settings.reverse.findSome? Setting.timeout?).getD defaultTimeout
      auth := settings.reverse.findSome? Setting.auth?
      maxRetries := (settings.reverse.findSome? Setting.maxRetries?).getD defaultMaxRetries } :
        ClientConfigBuilder) := by
  induction settings using List.reverseRecOn with
  | nil => rfl
  | append_singleton settings setting ih =>
      rw [List.foldl_append, ih, List.reverse_append]
      cases setting <;> rfl

end Settings

section Budget

theorem isPresent_eq_false_iff {info : RateLimitInfo} :
    info.isPresent = false ↔ info = ⟨none, none, none, none⟩ := by
  obtain ⟨limit, remaining, reset, window⟩ := info
  simp [RateLimitInfo.isPresent, and_assoc]

theorem secondsUntilReset_toNat {info : RateLimitInfo} {nowUnix secs : UInt64}
    (h : info.secondsUntilReset nowUnix = some secs) :
    ∃ reset, info.reset = some reset ∧ secs.toNat = reset.toNat - nowUnix.toNat := by
  obtain ⟨reset, hreset, rfl⟩ := Option.map_eq_some_iff.mp h
  refine ⟨reset, hreset, ?_⟩
  split
  · rename_i hle
    exact UInt64.toNat_sub_of_le _ _ hle
  · rename_i hlt
    rw [UInt64.le_iff_toNat_le] at hlt
    rw [UInt64.toNat_zero]
    omega

end Budget

end Tamga.Transport

namespace Tamga.RequestSetup

open Library.Prelude
open Library.Serde
open Library.Text
open Tamga.Dependencies
open Tamga.Transport

section Origin

open Tamga.Transport.ClientConfig

def Bare (host : String) : Prop :=
  stripPrefix (trimSlashes host) "http://" = none ∧
    stripPrefix (trimSlashes host) "https://" = none

theorem origin_of_bare {host : String} (h : Bare host) :
    origin host = "https://" ++ trimSlashes host := by
  rw [origin, h.1, h.2]
  rfl

theorem origin_of_not_bare {host : String} (h : ¬Bare host) : origin host = trimSlashes host := by
  rw [origin]
  split
  · rename_i rest hrest
    exact (stripPrefix_eq_some_iff.mp hrest).symm
  · rename_i hnone
    cases hsome : stripPrefix (trimSlashes host) "https://" with
    | none => exact absurd ⟨hnone, hsome⟩ h
    | some rest => exact (stripPrefix_eq_some_iff.mp hsome).symm

theorem trimSlashes_origin {host : String} (h : trimSlashes host ≠ "") :
    trimSlashes (origin host) = origin host := by
  by_cases hbare : Bare host
  · rw [origin_of_bare hbare, trimSlashes, trimEndMatches_append_of_ne]
    · rw [trimSlashes, trimEndMatches_idem]
    · rwa [trimSlashes, trimEndMatches_idem]
  · rw [origin_of_not_bare hbare, trimSlashes, trimSlashes, trimEndMatches_idem]

theorem not_bare_https {host : String} (h : trimSlashes host ≠ "") :
    ¬Bare ("https://" ++ host) := by
  rintro ⟨-, hnone⟩
  rw [trimSlashes, trimEndMatches_append_of_ne h] at hnone
  cases hnone.symm.trans (stripPrefix_eq_some_iff.mpr rfl)

theorem origin_https {host : String} (h : trimSlashes host ≠ "") :
    origin ("https://" ++ host) = "https://" ++ trimSlashes host := by
  rw [origin_of_not_bare (not_bare_https h), trimSlashes, trimEndMatches_append_of_ne h]
  rfl

theorem origin_of_empty {host : String} (h : trimSlashes host = "") : origin host = "https://" := by
  rw [origin_of_bare ⟨by rw [h]; rfl, by rw [h]; rfl⟩, h]
  rfl

theorem origin_https_of_empty {host : String} (h : trimSlashes host = "") :
    origin ("https://" ++ host) = "https://https:" := by
  have htrim : trimSlashes ("https://" ++ host) = "https:" :=
    (trimEndMatches_append_of_forall (trimEndMatches_eq_empty_iff.mp h)).trans (by decide)
  rw [origin_of_bare ⟨by rw [htrim]; decide, by rw [htrim]; decide⟩, htrim]
  rfl

theorem not_bare_origin {host : String} (h : trimSlashes host ≠ "") : ¬Bare (origin host) := by
  by_cases hbare : Bare host
  · rw [origin_of_bare hbare]
    apply not_bare_https
    rwa [trimSlashes, trimSlashes, trimEndMatches_idem]
  · rw [Bare, trimSlashes_origin h, origin_of_not_bare hbare]
    exact hbare

/-- Plain HTTP is neither dropped nor added. -/
theorem isSome_stripPrefix_origin (host : String) :
    (stripPrefix (origin host) "http://").isSome =
      (stripPrefix (trimSlashes host) "http://").isSome := by
  by_cases hbare : Bare host
  · rw [origin_of_bare hbare, hbare.1, stripPrefix_append_of_not _ (by decide) (by decide)]
  · rw [origin_of_not_bare hbare]

/-- One origin for a host however it is given: with slashes at its end, with the scheme
that it gets by default, or as the origin itself.  The last two need a host that is not
all slashes, and the scheme one that has none yet. -/
theorem origin_normal (host : String) (n : Nat) :
    origin (host ++ String.ofList (List.replicate n '/')) = origin host ∧
      (origin ("https://" ++ host) = origin host ↔ trimSlashes host ≠ "" ∧ Bare host) ∧
        (origin (origin host) = origin host ↔ trimSlashes host ≠ "") ∧
          (stripPrefix (origin host) "http://").isSome =
            (stripPrefix (trimSlashes host) "http://").isSome := by
  refine ⟨?_, ⟨fun heq => ?_, fun ⟨h, hbare⟩ => ?_⟩, ⟨fun heq hempty => ?_, fun h => ?_⟩,
    isSome_stripPrefix_origin host⟩
  · have htrim : trimSlashes (host ++ String.ofList (List.replicate n '/')) = trimSlashes host :=
      trimEndMatches_append_of_forall (by simp +contextual [List.mem_replicate])
    rw [origin, htrim, origin]
  · have hne : trimSlashes host ≠ "" := by
      intro hempty
      rw [origin_https_of_empty hempty, origin_of_empty hempty] at heq
      exact absurd heq (by decide)
    refine ⟨hne, ?_⟩
    by_contra hbare
    rw [origin_https hne, origin_of_not_bare hbare] at heq
    have hscheme : "https://".length = 8 := by decide
    have hlength := congrArg String.length heq
    rw [String.length_append] at hlength
    omega
  · rw [origin_https h, origin_of_bare hbare]
  · rw [origin_of_empty hempty] at heq
    exact absurd heq (by decide)
  · rw [origin_of_not_bare (not_bare_origin h), trimSlashes_origin h]

end Origin

section Credentials

variable {engine : Base64Engine}

/-- `String::from_utf8`. -/
def fromUtf8 (bytes : List UInt8) : Option String := String.fromUTF8? ⟨bytes.toArray⟩

theorem fromUtf8_asBytes (s : String) : fromUtf8 (asBytes s) = some s := by
  have hvalid : s.toUTF8.IsValidUTF8 := s.isValidUTF8
  rw [fromUtf8, asBytes, Array.toArray_toList, String.fromUTF8?, dif_pos hvalid]
  rfl

/-- The three sub-forms of Basic, told apart by what is before the first colon and by
whether anything is after it. -/
def readUserPass (userPass : String) : Option BasicAuth :=
  (splitOnce userPass ':').map fun (user, pass) =>
    if user = "license" then .licenseKey pass
    else if pass = "" then .token user
    else .emailPassword user pass

/-- The credentials that are not written like another one. -/
def PlainBasic : BasicAuth → Prop
  | .emailPassword email password => ':' ∉ email.toList ∧ email ≠ "license" ∧ password ≠ ""
  | .token username => ':' ∉ username.toList ∧ username ≠ "license"
  | .licenseKey _ => True

theorem splitOnce_toUserPass {user pass : String} (h : ':' ∉ user.toList) :
    splitOnce (user ++ ":" ++ pass) ':' = some (user, pass) :=
  splitOnce_eq_some_iff.mpr ⟨by simp, h⟩

theorem readUserPass_of_plain {auth : BasicAuth} (h : PlainBasic auth) :
    readUserPass auth.toUserPass = some auth := by
  cases auth with
  | emailPassword email password =>
      obtain ⟨hcolon, hlicense, hpassword⟩ := h
      rw [readUserPass, BasicAuth.toUserPass, splitOnce_toUserPass hcolon]
      simp [hlicense, hpassword]
  | token username =>
      obtain ⟨hcolon, hlicense⟩ := h
      have hsplit : splitOnce (username ++ ":" ++ "") ':' = some (username, "") :=
        splitOnce_toUserPass hcolon
      rw [String.append_empty] at hsplit
      rw [readUserPass, BasicAuth.toUserPass, hsplit]
      simp [hlicense]
  | licenseKey key =>
      have hsplit : splitOnce ("license" ++ ":" ++ key) ':' = some ("license", key) :=
        splitOnce_toUserPass (by decide)
      rw [readUserPass, BasicAuth.toUserPass]
      exact congrArg _ hsplit

theorem plain_of_readUserPass {userPass : String} {auth : BasicAuth}
    (h : readUserPass userPass = some auth) : PlainBasic auth := by
  obtain ⟨⟨user, pass⟩, hsplit, hauth⟩ := Option.map_eq_some_iff.mp h
  obtain ⟨-, hcolon⟩ := splitOnce_eq_some_iff.mp hsplit
  dsimp only at hauth
  split at hauth
  · rw [← hauth]
    trivial
  · rename_i hlicense
    split at hauth
    · rw [← hauth]
      exact ⟨hcolon, hlicense⟩
    · rename_i hpass
      rw [← hauth]
      exact ⟨hcolon, hlicense, hpass⟩

def readHeader (engine : Base64Engine) (value : String) : Option AuthTransport :=
  (stripPrefix value "Bearer ").map .bearer <|>
    (stripPrefix value "License ").map .license <|>
      ((((stripPrefix value "Basic ").bind engine.decode).bind fromUtf8).bind readUserPass).map
        .basic

/-- The header goes before the query parameter. -/
def readCredential (engine : Base64Engine) (builder : RequestBuilder) : Option AuthTransport :=
  match builder.headers.lookup authorization with
  | some value => readHeader engine value
  | none => (builder.query.lookup queryParamToken).map .query

def Plain : AuthTransport → Prop
  | .basic auth => PlainBasic auth
  | _ => True

theorem readHeader_basic (auth : BasicAuth) :
    readHeader engine ("Basic " ++ auth.toBase64 engine) =
      (readUserPass auth.toUserPass).map .basic := by
  have hbearer : stripPrefix ("Basic " ++ auth.toBase64 engine) "Bearer " = none :=
    stripPrefix_append_of_not _ (by decide) (by decide)
  have hlicense : stripPrefix ("Basic " ++ auth.toBase64 engine) "License " = none :=
    stripPrefix_append_of_not _ (by decide) (by decide)
  have hbasic : stripPrefix ("Basic " ++ auth.toBase64 engine) "Basic " =
      some (auth.toBase64 engine) := stripPrefix_eq_some_iff.mpr rfl
  rw [readHeader, hbearer, hlicense, hbasic, Option.bind_some, BasicAuth.toBase64,
    engine.decode_encode, Option.bind_some, fromUtf8_asBytes]
  rfl

theorem readHeader_bearer (token : String) :
    readHeader engine ("Bearer " ++ token) = some (.bearer token) := by
  have hbearer : stripPrefix ("Bearer " ++ token) "Bearer " = some token :=
    stripPrefix_eq_some_iff.mpr rfl
  rw [readHeader, hbearer]
  rfl

theorem readHeader_license (key : String) :
    readHeader engine ("License " ++ key) = some (.license key) := by
  have hbearer : stripPrefix ("License " ++ key) "Bearer " = none :=
    stripPrefix_append_of_not _ (by decide) (by decide)
  have hlicense : stripPrefix ("License " ++ key) "License " = some key :=
    stripPrefix_eq_some_iff.mpr rfl
  rw [readHeader, hbearer, hlicense]
  rfl

theorem lookup_authorization (config : ClientConfig) (request : Request) :
    (requestOn engine config request).headers.lookup authorization =
      (config.auth.header engine).map Prod.snd := by
  have hversion : (authorization == "Tamga-Version") = false := by decide
  have hotp : (authorization == "Tamga-OTP") = false := by decide
  have hrest (otp : Option String) : ([("Tamga-Version", sanitizeVersion config.apiVersion)] ++
      otp.toList.map (Prod.mk "Tamga-OTP")).lookup authorization = none := by
    cases otp <;> simp [List.lookup_cons, hversion, hotp]
  rw [requestOn, List.append_assoc]
  cases hauth : config.auth with
  | query token => exact hrest request.otp
  | bearer | basic | license => exact List.lookup_cons_self

/-- A credential is read back, but for the Basic ones that are written like another one. -/
theorem readCredential_requestOn (config : ClientConfig) (request : Request) :
    readCredential engine (requestOn engine config request) =
      match config.auth with
      | .basic auth => (readUserPass auth.toUserPass).map .basic
      | auth => some auth := by
  rw [readCredential, lookup_authorization, requestOn]
  cases config.auth with
  | bearer token => exact readHeader_bearer token
  | basic auth => exact readHeader_basic auth
  | license key => exact readHeader_license key
  | query token => exact congrArg (Option.map _) List.lookup_cons_self

theorem readCredential_eq_some_iff (engine : Base64Engine) (config : ClientConfig)
    (request : Request) :
    readCredential engine (requestOn engine config request) = some config.auth ↔
      Plain config.auth := by
  rw [readCredential_requestOn]
  cases config.auth with
  | basic auth =>
      constructor
      · intro h
        obtain ⟨_, hread, ⟨⟩⟩ := Option.map_eq_some_iff.mp h
        exact plain_of_readUserPass hread
      · intro h
        exact congrArg (Option.map AuthTransport.basic) (readUserPass_of_plain h)
  | bearer | license | query => exact iff_of_true rfl trivial

end Credentials

section Received

variable {engine : Base64Engine}

def Sanitary (version : String) : Prop :=
  (∀ c ∈ version.toList, isVersionChar c = true) ∧ version.length ≤ 32

theorem sanitizeVersion_eq_self_iff (version : String) :
    sanitizeVersion version = version ↔ Sanitary version := by
  rw [sanitizeVersion, ← String.toList_inj, String.toList_ofList, Sanitary, ← List.filter_eq_self,
    ← String.length_toList]
  constructor
  · intro h
    have htake := List.take_sublist 32 (version.toList.filter isVersionChar)
    rw [h] at htake
    have hfilter := htake.antisymm List.filter_sublist
    refine ⟨hfilter.symm, ?_⟩
    rw [← h]
    exact List.length_take_le _ _
  · rintro ⟨hfilter, hlength⟩
    rw [hfilter, List.take_of_length_le hlength]

theorem sanitary_sanitizeVersion (version : String) : Sanitary (sanitizeVersion version) := by
  rw [Sanitary, sanitizeVersion, ← String.length_toList, String.toList_ofList]
  refine ⟨fun c hc => ?_, List.length_take_le _ _⟩
  exact (List.mem_filter.mp (List.mem_of_mem_take hc)).2

structure Received where
  accountId : String
  version : String
  auth : AuthTransport
  request : Request

def ownQuery (auth : AuthTransport) (query : List (String × String)) : List (String × String) :=
  match auth with
  | .query _ => query.tail
  | _ => query

/-- The account is what the path has before its next slash. -/
def receive (engine : Base64Engine) (originUrl : String) (builder : RequestBuilder) :
    Option Received := do
  let rest ← stripPrefix builder.url (originUrl ++ "/v1/accounts/")
  let (accountId, path) ← splitOnce rest '/'
  let auth ← readCredential engine builder
  let version ← builder.headers.lookup "Tamga-Version"
  return {
    accountId := accountId
    version := version
    auth := auth
    request := {
      method := builder.method
      path := "/" ++ path
      query := ownQuery auth builder.query
      otp := builder.headers.lookup "Tamga-OTP"
      body := builder.body } }

theorem stripPrefix_url (config : ClientConfig) (request : Request) :
    stripPrefix (requestOn engine config request).url (config.originUrl ++ "/v1/accounts/") =
      some (config.accountId ++ request.path) := by
  apply stripPrefix_eq_some_iff.mpr
  rw [requestOn, ClientConfig.baseUrl, String.append_assoc]

theorem lookup_of_ne (config : ClientConfig) (request : Request) {name : String}
    (h : (name == authorization) = false) :
    (requestOn engine config request).headers.lookup name =
      ([("Tamga-Version", sanitizeVersion config.apiVersion)] ++
        request.otp.toList.map (Prod.mk "Tamga-OTP")).lookup name := by
  rw [requestOn, List.append_assoc]
  cases config.auth with
  | query token => rfl
  | bearer | basic | license => simp [AuthTransport.header, List.lookup_cons, h]

theorem lookup_version (config : ClientConfig) (request : Request) :
    (requestOn engine config request).headers.lookup "Tamga-Version" =
      some (sanitizeVersion config.apiVersion) := by
  rw [lookup_of_ne config request (by decide)]
  exact List.lookup_cons_self

theorem lookup_otp (config : ClientConfig) (request : Request) :
    (requestOn engine config request).headers.lookup "Tamga-OTP" = request.otp := by
  rw [lookup_of_ne config request (by decide)]
  cases request.otp <;> rfl

theorem ownQuery_requestOn (config : ClientConfig) (request : Request) :
    ownQuery config.auth (requestOn engine config request).query = request.query := by
  rw [requestOn]
  cases config.auth <;> rfl

/-- All that the client was given for a request is read back from the texts that the
builder is given, exactly when the account has no slash, the version is one that is not
cut, and the credential is not one that is written like another. -/
theorem receive_requestOn_iff (engine : Base64Engine) (config : ClientConfig) (method : Method)
    (path : String) (query : List (String × String)) (otp : Option String) (body : Option Json) :
    receive engine config.originUrl
        (requestOn engine config ⟨method, "/" ++ path, query, otp, body⟩) =
        some ⟨config.accountId, config.apiVersion, config.auth,
          ⟨method, "/" ++ path, query, otp, body⟩⟩ ↔
      '/' ∉ config.accountId.toList ∧ Sanitary config.apiVersion ∧ Plain config.auth := by
  rw [receive, stripPrefix_url, lookup_version, lookup_otp, ← sanitizeVersion_eq_self_iff,
    ← readCredential_eq_some_iff engine config ⟨method, "/" ++ path, query, otp, body⟩]
  constructor
  · intro h
    obtain ⟨rest, hrest, h⟩ := Option.bind_eq_some_iff.mp h
    obtain ⟨⟨accountId, tail⟩, hsplit, h⟩ := Option.bind_eq_some_iff.mp h
    obtain ⟨auth, hauth, h⟩ := Option.bind_eq_some_iff.mp h
    obtain ⟨version, hversion, h⟩ := Option.bind_eq_some_iff.mp h
    obtain ⟨haccount, hsent, hcredential, -⟩ := Received.mk.inj (Option.some.inj h)
    refine ⟨?_, (Option.some.inj hversion).trans hsent, hauth.trans (congrArg some hcredential)⟩
    rw [← haccount]
    exact (splitOnce_eq_some_iff.mp hsplit).2
  · rintro ⟨hslash, hversion, hauth⟩
    have hsplit : splitOnce (config.accountId ++ ("/" ++ path)) '/' =
        some (config.accountId, path) := splitOnce_eq_some_iff.mpr ⟨by simp, hslash⟩
    simp only [Option.bind_eq_bind, Option.bind_some, hsplit, hauth, hversion,
      ownQuery_requestOn]
    rfl

end Received

end Tamga.RequestSetup
