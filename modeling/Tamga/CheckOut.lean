import Tamga.KeyRotation
import Tamga.ResourceCalls

namespace Tamga

open Library.Interaction
open Library.Interaction.Prog
open Library.Serde
open Tamga.Dependencies
open Tamga.Errors
open Tamga.Models
open Tamga.Transport

/-- `LicenseFile` of `checkout::license_file` and `MachineFile` of
`checkout::machine_file`, which have the same fields. -/
structure CertificateFile (J : SerdeJson) where
  certificate : String
  algorithm : String
  includes : List String
  ttl : Option Int64
  expiry : Option J.DateTime
  issued : J.DateTime

structure FileResource (J : SerdeJson) where
  id : J.Uuid
  resourceType : String
  attributes : CertificateFile J

abbrev LicenseFileResource (J : SerdeJson) := FileResource J

abbrev MachineFileResource (J : SerdeJson) := FileResource J

def certificateFile (J : SerdeJson) : Deserialize (CertificateFile J) :=
  struct <| (Fields.done (@CertificateFile.mk J))
    |>.field "certificate" string
    |>.field "algorithm" string
    |>.field "includes" (vec string)
    |>.field "ttl" (option i64)
    |>.field "expiry" (option (dateTime J))
    |>.field "issued" (dateTime J)

def fileResource (J : SerdeJson) : Deserialize (FileResource J) :=
  struct <| (Fields.done (@FileResource.mk J))
    |>.field "id" (uuid J)
    |>.field "type" string
    |>.field "attributes" (certificateFile J)

namespace MachineFile

def maxTtlSecs : UInt64 := 365 * 24 * 3600

def checkTtl {J : SerdeJson} (ttl : UInt64) : Except (CheckoutError J) Unit :=
  if ttl = 0 ∨ ttl > maxTtlSecs then
    .error (.ttlOutOfRange
      ("must be > 0 and <= " ++ toString maxTtlSecs.toNat ++ ", got " ++ toString ttl.toNat))
  else .ok ()

end MachineFile

def u64Json (i : UInt64) : Json := .number (.ofInt i.toNat)

/-- What a raw check-out asks for: the operations of the client, and the text of a
response that it got. -/
inductive FileOp where
  | api (op : Op)
  | text (response : Response)

abbrev FileReply (R : Reqwest) : FileOp → Type
  | .api op => Reply R op
  | .text _ => Except R.Error String

namespace Client

variable (cl : Client)

def licenseCheckOutPath (licenseId : cl.json.Uuid) : String :=
  "/licenses/" ++ cl.json.printUuid licenseId ++ "/actions/check-out"

def machineCheckOutPath (machineId : cl.json.Uuid) : String :=
  "/machines/" ++ cl.json.printUuid machineId ++ "/actions/check-out"

section Json

def checkOutBody (encrypt : Bool) (ttl : Option UInt64) : Json :=
  objectJson [("meta", objectJson [("encrypt", .bool encrypt), ("ttl", optionJson u64Json ttl)])]

def checkOutLicenseJson (licenseId : cl.json.Uuid) (encrypt : Bool) (ttl : Option UInt64) :
    cl.Call (LicenseFileResource cl.json) :=
  cl.sendJsonApi "LicenseFileResource" (fileResource cl.json) .post
    (cl.licenseCheckOutPath licenseId) (some (checkOutBody encrypt ttl)) none

def checkingTtl {Op : Type} {Reply : Op → Type} {α : Type} (ttl : Option UInt64)
    (rest : Prog Op Reply (Except cl.Error α)) : Prog Op Reply (Except cl.Error α) :=
  match ttl with
  | none => rest
  | some ttl =>
      match MachineFile.checkTtl ttl with
      | .ok () => rest
      | .error e => .ret (.error (.checkout e))

def checkOutMachineJson (machineId : cl.json.Uuid) (encrypt : Bool) (ttl : Option UInt64) :
    cl.Call (MachineFileResource cl.json) :=
  cl.checkingTtl ttl <|
    cl.sendJsonApi "MachineFileResource" (fileResource cl.json) .post
      (cl.machineCheckOutPath machineId) (some (checkOutBody encrypt ttl)) none

end Json

section Raw

def checkOutRequest (path : String) (encrypt : Bool) (ttl : Option UInt64) : Request where
  method := .get
  path := path
  query := ("encrypt", toString encrypt) ::
    ttl.toList.map fun ttl => ("ttl", toString ttl.toNat)
  otp := none
  body := none

/-- `response.text()` of a success. -/
def readText (response : Response) :
    Prog FileOp (FileReply cl.reqwest) (Except cl.Error String) :=
  if response.isSuccess then .ask (.text response) fun reply => .ret (reply.mapError .http)
  else .ret (.error (ApiErrors.apiError cl.json cl.reqwest response))

def checkOutRaw (request : Request) :
    Prog FileOp (FileReply cl.reqwest) (Except cl.Error String) :=
  ((cl.sendWithRetry request).lift .api fun _ reply => reply).andThen cl.readText

def checkOutLicense (licenseId : cl.json.Uuid) (encrypt : Bool) (ttl : Option UInt64) :
    Prog FileOp (FileReply cl.reqwest) (Except cl.Error String) :=
  cl.checkOutRaw (checkOutRequest (cl.licenseCheckOutPath licenseId) encrypt ttl)

def checkOutMachine (machineId : cl.json.Uuid) (encrypt : Bool) (ttl : Option UInt64) :
    Prog FileOp (FileReply cl.reqwest) (Except cl.Error String) :=
  cl.checkingTtl ttl <|
    cl.checkOutRaw (checkOutRequest (cl.machineCheckOutPath machineId) encrypt ttl)

end Raw

end Client

namespace CheckOut

open Library.Interleaving
open Library.Linearization
open Tamga.Client
open Tamga.KeyRotation
open Tamga.PayloadJson
open Tamga.ResourceCalls
open Tamga.ServerFiles
open Tamga.ServerResponses

section Ttl

theorem checkTtl_eq_ok_iff {J : SerdeJson} {ttl : UInt64} :
    MachineFile.checkTtl (J := J) ttl = .ok () ↔ 0 < ttl.toNat ∧ ttl.toNat ≤ 31536000 := by
  have hmax : MachineFile.maxTtlSecs.toNat = 31536000 := by decide
  rw [MachineFile.checkTtl]
  split
  · rename_i h
    rw [gt_iff_lt, UInt64.lt_iff_toNat_lt, ← UInt64.toNat_inj, hmax, UInt64.toNat_zero] at h
    exact iff_of_false (by simp) (by omega)
  · rename_i h
    rw [gt_iff_lt, UInt64.lt_iff_toNat_lt, ← UInt64.toNat_inj, hmax, UInt64.toNat_zero] at h
    exact iff_of_true rfl (by omega)

/-- A `ttl` out of range ends a check-out before anything is sent. -/
theorem checkingTtl_of_not {cl : Client} {Op : Type} {Reply : Op → Type} {α : Type}
    {ttl : UInt64} (h : ¬(0 < ttl.toNat ∧ ttl.toNat ≤ 31536000))
    (rest : Prog Op Reply (Except cl.Error α)) :
    cl.checkingTtl (some ttl) rest = .ret (.error (.checkout (.ttlOutOfRange
      ("must be > 0 and <= 31536000, got " ++ toString ttl.toNat)))) := by
  rw [← checkTtl_eq_ok_iff (J := cl.json)] at h
  rw [checkingTtl]
  cases hcheck : MachineFile.checkTtl (J := cl.json) ttl with
  | ok u => exact absurd hcheck h
  | error e =>
      rw [MachineFile.checkTtl] at hcheck
      split at hcheck
      · cases hcheck
        rfl
      · cases hcheck

theorem checkingTtl_of_checked {cl : Client} {Op : Type} {Reply : Op → Type} {α : Type}
    {ttl : Option UInt64} (h : ∀ secs ∈ ttl, 0 < secs.toNat ∧ secs.toNat ≤ 31536000)
    (rest : Prog Op Reply (Except cl.Error α)) : cl.checkingTtl ttl rest = rest := by
  cases ttl with
  | none => rfl
  | some secs =>
      have hcheck := (checkTtl_eq_ok_iff (J := cl.json)).mpr (h secs rfl)
      rw [checkingTtl]
      simp only [hcheck]

end Ttl

section Issuing

variable {cl : Client}

inductive Kind where
  | license
  | machine

structure Order (J : SerdeJson) where
  id : J.Uuid
  encrypt : Bool
  ttl : Option UInt64

namespace Kind

def target : Kind → String
  | license => "LicenseFileResource"
  | machine => "MachineFileResource"

def path (kind : Kind) (cl : Client) (id : cl.json.Uuid) : String :=
  match kind with
  | license => cl.licenseCheckOutPath id
  | machine => cl.machineCheckOutPath id

def call (kind : Kind) (cl : Client) (order : Order cl.json) :
    cl.Call (FileResource cl.json) :=
  match kind with
  | license => cl.checkOutLicenseJson order.id order.encrypt order.ttl
  | machine => cl.checkOutMachineJson order.id order.encrypt order.ttl

/-- An order that the client sends; it looks at the `ttl` of a machine file only. -/
def Admits {J : SerdeJson} (kind : Kind) (order : Order J) : Prop :=
  match kind with
  | license => True
  | machine => ∀ secs ∈ order.ttl, 0 < secs.toNat ∧ secs.toNat ≤ 31536000

theorem exists_admitted {J : SerdeJson} (kind : Kind) (order : Order J) :
    ∃ sent, kind.Admits sent ∧ (kind.Admits order → sent = order) := by
  by_cases h : kind.Admits order
  · exact ⟨order, h, fun _ => rfl⟩
  · refine ⟨{ order with ttl := none }, ?_, fun hadmits => absurd hadmits h⟩
    cases kind with
    | license => exact trivial
    | machine => rintro _ ⟨⟩

def request (kind : Kind) (cl : Client) (order : Order cl.json) : Request :=
  ⟨.post, kind.path cl order.id, [], none, some (checkOutBody order.encrypt order.ttl)⟩

def readFile (kind : Kind) (cl : Client) (response : Response) :
    Except cl.Error (FileResource cl.json) :=
  cl.read kind.target (envelope (fileResource cl.json)) response

end Kind

/-- How the server reads the body of a check-out. -/
def orderBody : Deserialize (Bool × Option UInt64) :=
  struct <| (Fields.done id)
    |>.field "meta" (struct <| (Fields.done Prod.mk)
      |>.field "encrypt" bool
      |>.field "ttl" (option u64))

/-- Every check-out adds one certificate to those issued, made as it was asked for. -/
def effect (kind : Kind) (made : Order cl.json → String → Prop) (request : Request)
    (issued after : List String) : Prop :=
  ∃ order certificate, request.path = kind.path cl order.id ∧
    request.body.bind orderBody.deserialize = some (order.encrypt, order.ttl) ∧
      made order certificate ∧ after = issued ++ [certificate]

def issuer (kind : Kind) (made : Order cl.json → String → Prop) :
    Object (List String) Op (Reply cl.reqwest) :=
  resource (effect kind made) (kind.readFile cl) fun file issued =>
    issued.getLast? = some file.attributes.certificate

attribute [local simp] struct objectJson Fields.field Fields.next Fields.done readField
  occurrences

theorem deserialize_u64 (i : UInt64) : u64.deserialize (u64Json i) = some i := by
  have hhigh := i.toNat_lt
  simp only [u64, integer, u64Json, Number.toInt_ofInt, Option.bind_eq_bind, Option.bind_some]
  rw [if_pos (by omega), Int.toNat_natCast, UInt64.ofNat_toNat]

theorem deserialize_checkOutBody (encrypt : Bool) (ttl : Option UInt64) :
    orderBody.deserialize (checkOutBody encrypt ttl) = some (encrypt, ttl) := by
  have httl : (option u64).deserialize (optionJson u64Json ttl) = some ttl :=
    deserialize_option deserialize_u64 (fun _ => by simp [u64Json]) ttl
  simp [orderBody, checkOutBody, httl]

theorem path_inj (hround : RoundTrips cl.json) {kind : Kind} {id id' : cl.json.Uuid}
    (h : kind.path cl id = kind.path cl id') : id = id' := by
  have hprint : cl.json.printUuid id = cl.json.printUuid id' := by
    cases kind with
    | license =>
        exact String.append_right_inj _ |>.mp (String.append_left_inj _ |>.mp h)
    | machine =>
        exact String.append_right_inj _ |>.mp (String.append_left_inj _ |>.mp h)
  have hparse := hround.parseUuid_printUuid id
  rw [hprint, hround.parseUuid_printUuid] at hparse
  exact (Option.some.inj hparse).symm

theorem made_of_effect (hround : RoundTrips cl.json) {kind : Kind}
    {made : Order cl.json → String → Prop} {order : Order cl.json} {issued after : List String}
    (h : effect kind made (kind.request cl order) issued after) :
    ∃ certificate, made order certificate ∧ after = issued ++ [certificate] := by
  obtain ⟨asked, certificate, hpath, hbody, hmade, hafter⟩ := h
  have hid := path_inj hround hpath
  have hread : some (order.encrypt, order.ttl) = some (asked.encrypt, asked.ttl) :=
    (deserialize_checkOutBody order.encrypt order.ttl).symm.trans hbody
  have horder : asked = order := by
    cases asked
    cases order
    simp_all
  exact ⟨certificate, horder ▸ hmade, hafter⟩

theorem insists_call {kind : Kind} {made : Order cl.json → String → Prop}
    {order : Order cl.json} (h : kind.Admits order) :
    Insists (issuer kind made) (.send (kind.request cl order)) (outcome (kind.readFile cl))
      (kind.call cl order) := by
  cases kind with
  | license => exact insists_sendJsonApi
  | machine =>
      rw [Kind.call, checkOutMachineJson, checkingTtl_of_checked h]
      exact insists_sendJsonApi

theorem call_of_not_admits {kind : Kind} {order : Order cl.json} (h : ¬kind.Admits order) :
    ∃ e, kind.call cl order = .ret (.error (.checkout e)) := by
  cases kind with
  | license => exact absurd trivial h
  | machine =>
      have hsome : ∃ secs, order.ttl = some secs ∧ ¬(0 < secs.toNat ∧ secs.toNat ≤ 31536000) := by
        by_contra hnone
        refine h fun secs hsecs => ?_
        by_contra hrange
        exact hnone ⟨secs, hsecs, hrange⟩
      obtain ⟨secs, httl, hrange⟩ := hsome
      rw [Kind.call, checkOutMachineJson, httl, checkingTtl_of_not hrange]
      exact ⟨_, rfl⟩

theorem steps_call (cl : Client) {kind : Kind} {order : Order cl.json} (h : kind.Admits order)
    (response : Response) (hstatus : response.status ≠ tooManyRequests) :
    Steps (kind.call cl order) [⟨.send (kind.request cl order), .ok response⟩]
      (.ret (kind.readFile cl response)) := by
  cases kind with
  | license => exact steps_sendJsonApi hstatus
  | machine =>
      rw [Kind.call, checkOutMachineJson, checkingTtl_of_checked h]
      exact steps_sendJsonApi hstatus

end Issuing

section Recorded

def recordedOrder : Order machineRecording.crates.json where
  id := recordedMachine.id
  encrypt := false
  ttl := some 86400

def recordedResource : FileResource machineRecording.crates.json where
  id := "01926b3e-4444-7000-8000-000000000000"
  resourceType := "machine-files"
  attributes := {
    certificate := recordedMachinePem
    algorithm := "base64+ed25519+v2"
    includes := []
    ttl := some 86400
    expiry := some "2026-01-02T00:00:00Z"
    issued := "2026-01-01T00:00:00Z" }

def recordedDocument : Json :=
  objectJson [("data", objectJson [
    ("id", textJson "01926b3e-4444-7000-8000-000000000000"),
    ("type", textJson "machine-files"),
    ("attributes", objectJson [
      ("certificate", textJson recordedMachinePem),
      ("algorithm", textJson "base64+ed25519+v2"),
      ("includes", .array []),
      ("ttl", i64Json 86400),
      ("expiry", textJson "2026-01-02T00:00:00Z"),
      ("issued", textJson "2026-01-01T00:00:00Z")])])]

def recordedClient : Client := overCrates machineRecording.crates blankClient

theorem readFile_recorded : Kind.machine.readFile recordedClient
    ⟨200, [], some recordedDocument⟩ = .ok recordedResource := rfl

theorem admits_recorded : Kind.machine.Admits recordedOrder := by
  rintro _ ⟨⟩
  decide

theorem run_recorded (made : Order recordedClient.json → String → Prop)
    (hmade : made recordedOrder recordedMachinePem) :
    ∃ log, Run (closed (issuer .machine made).Serves) []
      (fun _ : Unit => Kind.machine.call recordedClient recordedOrder) log [recordedMachinePem]
      fun _ => .ret (.ok recordedResource) := by
  have hsteps := steps_call recordedClient admits_recorded ⟨200, [], some recordedDocument⟩
    (by decide)
  rw [readFile_recorded] at hsteps
  have hissued : (closed (issuer .machine made).Serves).serves []
      ⟨.send (Kind.machine.request recordedClient recordedOrder),
        .ok ⟨200, [], some recordedDocument⟩⟩ [recordedMachinePem] :=
    .carriedOut
      ⟨recordedOrder, recordedMachinePem, rfl, deserialize_checkOutBody _ _, hmade, rfl⟩
      ⟨rfl, recordedResource, readFile_recorded, rfl⟩
  exact Run.alone hsteps (.cons hissued (.nil _))

end Recorded

section Issued

variable {cl : Client} {kind : Kind} {made : Order cl.json → String → Prop} {ι : Type}
  {orders : ι → Order cl.json} {issued after : List String}

variable [DecidableEq ι] {log : List (ι × Event Op (Reply cl.reqwest))}
  {now : ι → cl.Call (FileResource cl.json)}

/-- The check-outs that are sent may be told from those that are refused at once, in the
place of which others may stand that are never sent. -/
theorem exists_admitted_run
    (h : Run (closed (issuer kind made).Serves) issued (fun i => kind.call cl (orders i)) log after
      now) :
    ∃ (sent : ι → Order cl.json) (now' : ι → cl.Call (FileResource cl.json)),
      (∀ i, kind.Admits (sent i)) ∧
      Run (closed (issuer kind made).Serves) issued (fun i => kind.call cl (sent i)) log after
        now' ∧
      ∀ i, (kind.Admits (orders i) ∧ sent i = orders i ∧ now' i = now i) ∨
        (¬kind.Admits (orders i) ∧ (∃ e, now i = .ret (.error (.checkout e))) ∧
          i ∉ log.map Prod.fst) := by
  choose sent hsent hsame using fun i => Kind.exists_admitted kind (orders i)
  have hreplace : ∀ i, kind.call cl (sent i) = kind.call cl (orders i) ∨
      ∃ value, kind.call cl (orders i) = .ret value := by
    intro i
    by_cases hadmits : kind.Admits (orders i)
    · exact Or.inl (congrArg _ (hsame i hadmits))
    · obtain ⟨e, he⟩ := call_of_not_admits hadmits
      exact Or.inr ⟨_, he⟩
  obtain ⟨now', hrun, hnow⟩ := h.replace hreplace
  refine ⟨sent, now', hsent, hrun, fun i => ?_⟩
  by_cases hadmits : kind.Admits (orders i)
  · exact Or.inl ⟨hadmits, hsame i hadmits, hnow i (congrArg _ (hsame i hadmits))⟩
  · obtain ⟨e, he⟩ := call_of_not_admits hadmits
    exact Or.inr ⟨hadmits, ⟨e, (h.returned he).1⟩, (h.returned he).2⟩

/-- Of any number of check-outs each adds one certificate or none, however often it was
throttled; the one that it returns is its own, made as it was asked for.  One that the
client refuses to send returns at once. -/
theorem check_outs_issue_once (hround : RoundTrips cl.json)
    (h : Run (closed (issuer kind made).Serves) issued (fun i => kind.call cl (orders i)) log after
      now) :
    ∃ certificates : List (ι × String), (certificates.map Prod.fst).Nodup ∧
      (certificates.map Prod.fst).Sublist (log.map Prod.fst) ∧
      after = issued ++ certificates.map Prod.snd ∧
      (∀ entry ∈ certificates, made (orders entry.1) entry.2) ∧
      (∀ i file, now i = .ret (.ok file) → (i, file.attributes.certificate) ∈ certificates) ∧
      (∀ i err, now i = .ret (.error err) → (∀ e, err ≠ .http e) →
        i ∉ certificates.map Prod.fst) ∧
      ∀ i, ¬kind.Admits (orders i) →
        (∃ e, now i = .ret (.error (.checkout e))) ∧ i ∉ log.map Prod.fst := by
  obtain ⟨sent, now', hsent, hrun, hcases⟩ := exists_admitted_run h
  obtain ⟨certificates, hnodup, hsublist, hafter, hmade, hok, herror⟩ :=
    calls_issue_once (fun i => insists_call (hsent i)) (fun _ _ _ h => made_of_effect hround h) hrun
  refine ⟨certificates, hnodup, hsublist, hafter, ?_, ?_, ?_, ?_⟩
  · intro entry hentry
    rcases hcases entry.1 with ⟨-, hsame, -⟩ | ⟨-, -, hunasked⟩
    · exact hsame ▸ hmade entry hentry
    · exact absurd (hsublist.subset (List.mem_map_of_mem hentry)) hunasked
  · intro i file hfile
    rcases hcases i with ⟨-, -, hnow⟩ | ⟨-, ⟨e, he⟩, -⟩
    · exact hok i file (hnow.trans hfile)
    · cases he.symm.trans hfile
  · intro i err herr hhttp hmem
    rcases hcases i with ⟨-, -, hnow⟩ | ⟨-, -, hunasked⟩
    · exact herror i err (hnow.trans herr) hhttp hmem
    · exact hunasked (hsublist.subset hmem)
  · intro i hrefused
    rcases hcases i with ⟨hadmits, -, -⟩ | ⟨-, hended, hunasked⟩
    · exact absurd hadmits hrefused
    · exact ⟨hended, hunasked⟩

theorem check_outs_issue_once_recorded :
    ∃ certificates : List (Unit × String), (certificates.map Prod.fst).Nodup ∧
      [recordedMachinePem] = certificates.map Prod.snd ∧
        ((), recordedMachinePem) ∈ certificates := by
  obtain ⟨log, hrun⟩ := run_recorded
    (fun order certificate => order = recordedOrder ∧ certificate = recordedMachinePem) ⟨rfl, rfl⟩
  obtain ⟨certificates, hnodup, -, hissued, -, hreturned, -, -⟩ :=
    check_outs_issue_once (TableCrates.roundTrips_tableJson _) hrun
  exact ⟨certificates, hnodup, hissued, hreturned () recordedResource rfl⟩

end Issued

section Verdicts

variable {c : Crates} {cl : Client}

/-- The expiry that a file is issued with: the `ttl` from when it was issued, or none. -/
def Expires (claims : LicenseFileClaims) : Option UInt64 → Prop
  | none => claims.exp = none
  | some secs => ∃ exp, claims.exp = some exp ∧ exp.toInt = claims.iat.toInt + secs.toNat

/-- A machine file as it was asked for. -/
def Answers (file : IssuedMachine c) (order : Order c.json) : Prop :=
  file.payload.data.id = order.id ∧
    file.encoding = (if order.encrypt then .aes256Gcm else .plain) ∧
      Expires file.payload.«meta» order.ttl

def AnswersMachine (c : Crates) (order : Order c.json) (certificate : String) : Prop :=
  ∃ file : IssuedMachine c, Answers file order ∧ machinePem c file.spacing file.text = certificate

def machineIssuer (c : Crates) (cl : Client) :
    Object (List String) Op (Reply (overCrates c cl).reqwest) :=
  issuer .machine (AnswersMachine c)

/-- The verdict on a file at `nowUnix`, which it is accepted by for as long as it was
asked for and a minute more. -/
structure Lasts {J : SerdeJson} {V : Type} (claims : LicenseFileClaims) (ttl : Option UInt64)
    (nowUnix : Int64) (verified : V) (verdict : Except (CheckoutError J) V) : Prop where
  accepted : (∀ secs ∈ ttl, nowUnix.toInt ≤ claims.iat.toInt + secs.toNat + 60) →
    verdict = .ok verified
  expired : ∀ secs ∈ ttl, claims.iat.toInt + secs.toNat + 60 < nowUnix.toInt →
    ∃ exp, verdict = .error (.expired exp)

theorem lasts_of_judged {J : SerdeJson} {V : Type} {claims : LicenseFileClaims}
    {ttl : Option UInt64} {nowUnix : Int64} {verified : V} {verdict : Except (CheckoutError J) V}
    (hexpires : Expires claims ttl) (h : Judged claims nowUnix verified verdict) :
    Lasts claims ttl nowUnix verified verdict := by
  cases ttl with
  | none =>
      refine ⟨fun _ => h.valid ?_, by simp⟩
      intro exp hexp
      cases hexp.symm.trans hexpires
  | some secs =>
      obtain ⟨exp, hexp, hsum⟩ := hexpires
      constructor
      · intro hwithin
        have hlast := hwithin secs rfl
        apply h.valid
        intro exp' hexp'
        obtain rfl := Option.some.inj (hexp'.symm.trans hexp)
        omega
      · rintro _ ⟨⟩ hlate
        exact ⟨exp, h.expired exp hexp (by omega)⟩

section Machine

def recordedMachineFile : IssuedMachine machineRecording.crates where
  signer := { keyPair machineRecording with kid := "test-kid" }
  encoding := .plain
  licenseKey := ""
  fingerprint := ""
  nonce := zeroNonce
  plaintext := machineRecording.payload
  payload := { data := recordedMachine, «meta» := recordedClaims }
  spells := spells_recordedMachine
  object := FailureLabels.objectText_of_payloadJson machineRecording.parse_payload
  named := rfl
  text := machineText machineRecording "" "" zeroNonce
  spacing := lines

theorem answers_recorded : Answers recordedMachineFile recordedOrder :=
  ⟨rfl, rfl, 1767312000, rfl, by decide⟩

variable {ι : Type} [DecidableEq ι] {orders : ι → Order c.json} {issued after : List String}
  {log : List (ι × (overCrates c cl).Exchange)}
  {now : ι → (overCrates c cl).Call (FileResource c.json)} {i : ι}
  {answered : FileResource c.json}

/-- The certificate that a machine check-out returns is that of a file made for it, which
every set with the key of the file accepts until the `ttl` is over.  With a `ttl` that is
within a year of its issue. -/
theorem checked_out_machine_expires (hround : RoundTrips c.json)
    (h : Run (closed (machineIssuer c cl).Serves) issued
      (fun i => Kind.machine.call (overCrates c cl) (orders i)) log after now)
    (hnow : now i = .ret (.ok answered)) :
    ∃ file : IssuedMachine c, file.payload.data.id = (orders i).id ∧
      ∀ (keys : KeySet.SigningKeySet) given givenFp (nowUnix : Int64),
        file.signer.pubkey ∈ keys.keys →
        ((orders i).encrypt = true →
          given = some file.licenseKey ∧ givenFp = some file.fingerprint) →
        Lasts file.payload.«meta» (orders i).ttl nowUnix
            { machine := file.payload.data, claims := file.payload.«meta» }
            (MachineFile.verifyMachineFileWithKeySetAt c answered.attributes.certificate keys
              given givenFp nowUnix) ∧
          ((orders i).ttl ≠ none → file.payload.«meta».iat.toInt + 31536060 < nowUnix.toInt →
            ∃ exp, MachineFile.verifyMachineFileWithKeySetAt c answered.attributes.certificate
              keys given givenFp nowUnix = .error (.expired exp)) := by
  obtain ⟨sent, now', hsent, hrun, hcases⟩ := @exists_admitted_run (overCrates c cl) _ _ _ _ _ _ _
    _ _ h
  obtain ⟨certificates, -, -, -, hmade, hok, -⟩ :=
    calls_issue_once (fun i => insists_call (hsent i))
      (fun _ _ _ h => @made_of_effect (overCrates c cl) hround _ _ _ _ _ h) hrun
  -- a call with a `ttl` that is refused has returned an error, and nothing else
  rcases hcases i with ⟨hadmits, hsame, hnow'⟩ | ⟨-, ⟨e, he⟩, -⟩
  swap
  · cases he.symm.trans hnow
  have hown := hmade _ (hok i answered (hnow'.trans hnow))
  rw [hsame] at hown
  obtain ⟨file, ⟨hid, hencoding, hexpires⟩, hpem⟩ := hown
  refine ⟨file, hid, fun keys given givenFp nowUnix hkey hgiven => ?_⟩
  have hsealed : file.encoding = .aes256Gcm →
      given = some file.licenseKey ∧ givenFp = some file.fingerprint := by
    intro hseal
    apply hgiven
    by_contra hplain
    rw [hencoding, if_neg hplain] at hseal
    cases hseal
  have hjudged := (IssuedFile.machine file).verifies_of_mem hkey given givenFp nowUnix hsealed
  rw [hpem] at hjudged
  have hlasts := lasts_of_judged hexpires hjudged
  refine ⟨hlasts, fun httl hlate => ?_⟩
  obtain ⟨secs, hsecs⟩ := Option.ne_none_iff_exists'.mp httl
  have hyear := (hadmits secs hsecs).2
  exact hlasts.expired secs hsecs (by omega)

theorem checked_out_machine_expires_recorded :
    ∃ (file : IssuedMachine machineRecording.crates) (verified : _),
      MachineFile.verifyMachineFileWithKeySetAt machineRecording.crates recordedMachinePem
        ⟨[("test-kid", file.signer.pubkey)]⟩ none none Int64.minValue = .ok verified ∧
      verified.machine.id = recordedMachine.id := by
  obtain ⟨log, hrun⟩ := run_recorded (AnswersMachine _)
    ⟨recordedMachineFile, answers_recorded, rfl⟩
  obtain ⟨file, hid, hfile⟩ := checked_out_machine_expires (i := ())
    (TableCrates.roundTrips_tableJson _) hrun rfl
  have hlasts := (hfile ⟨[("test-kid", file.signer.pubkey)]⟩ none none Int64.minValue
    List.mem_cons_self nofun).1
  refine ⟨file, _, hlasts.accepted fun secs _ => ?_, hid⟩
  have hiat := file.payload.«meta».iat.minValue_le_toInt
  omega

end Machine

end Verdicts

end CheckOut

end Tamga
