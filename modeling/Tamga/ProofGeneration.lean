import Tamga.ClientReads
import Tamga.Library.JsonTree
import Tamga.OfflineProof
import Tamga.ResourceCalls

namespace Tamga.ProofGeneration

open Library.Canonical
open Library.Interaction.Prog
open Library.Interleaving
open Library.JsonText
open Library.JsonTree
open Library.Linearization
open Library.Prelude
open Library.Serde (Json)
open Library.Text
open Tamga.Client
open Tamga.Crypto
open Tamga.Dependencies
open Tamga.Errors
open Tamga.Models
open Tamga.OfflineProof
open Tamga.ResourceCalls
open Tamga.ServerResponses
open Tamga.TableCrates
open Tamga.Transport

section Proving

structure Subject (J : SerdeJson) where
  accountId : J.Uuid
  machineId : J.Uuid
  fingerprint : String
  dataset : Dataset

namespace Subject

variable {J : SerdeJson}

def payload (subject : Subject J) : List UInt8 :=
  asBytes (buildPayloadJson J subject.accountId subject.machineId subject.fingerprint
    subject.dataset)

/-- The same up to the order of keys in the data set. -/
def Agrees (subject subject' : Subject J) : Prop :=
  subject.accountId = subject'.accountId ∧ subject.machineId = subject'.machineId ∧
    subject.fingerprint = subject'.fingerprint ∧ Same subject.dataset.val subject'.dataset.val

theorem payload_eq_iff (huuid : Function.Injective J.printUuid) {subject subject' : Subject J} :
    subject.payload = subject'.payload ↔ subject.Agrees subject' :=
  asBytes_inj.trans (buildPayloadJson_eq_iff J huuid)

def verify {c : Crates} (subject : Subject c.json) (pubkey : List UInt8) (proof : String) :
    Except ProofError OfflineProofVerified :=
  verifyOfflineProof c proof subject.accountId subject.machineId subject.fingerprint
    subject.dataset pubkey

end Subject

variable {c : Crates}

/-- An account with the RSA key of its proofs.  A signature of PKCS #1 v1.5 is one of the
SHA-256 digest. -/
structure Prover (c : Crates) where
  accountId : c.json.Uuid
  pubkey : List UInt8
  sign : List UInt8 → List UInt8
  verify_sign : ∀ message message', c.awsLc.rsaPkcs1Sha256 pubkey message' (sign message) = true ↔
    c.sha256 message' = c.sha256 message

def Prover.prove (prover : Prover c) (subject : Subject c.json) : String :=
  proofPrefix ++ c.base64.encode (prover.sign subject.payload)

def Collide (c : Crates) (message message' : List UInt8) : Prop :=
  message ≠ message' ∧ c.sha256 message = c.sha256 message'

theorem verify_prove (prover : Prover c) (subject subject' : Subject c.json) :
    subject'.verify prover.pubkey (prover.prove subject) =
      if c.sha256 subject'.payload = c.sha256 subject.payload then .ok .mk
      else .error (.crypto .verificationFailed) := by
  have hstrip : okOr (stripPrefix (prover.prove subject) proofPrefix) ProofError.malformedProof =
      .ok (c.base64.encode (prover.sign subject.payload)) :=
    okOr_eq_ok_iff.mpr (stripPrefix_eq_some_iff.mpr rfl)
  have hdecode : okOr (c.base64.decode (c.base64.encode (prover.sign subject.payload)))
      ProofError.invalidBase64 = .ok (prover.sign subject.payload) :=
    okOr_eq_ok_iff.mpr (c.base64.decode_encode _)
  rw [Subject.verify, verifyOfflineProof, hstrip, ok_bind, hdecode, ok_bind]
  change ((Rsa.verifyPkcs1 c prover.pubkey subject'.payload _).mapError _ >>= _) = _
  rw [Rsa.verifyPkcs1]
  simp only [prover.verify_sign]
  split
  · rfl
  · rfl

/-- A text that proves one subject: what it is accepted for, and how it is refused for
anything else. -/
structure Proves (prover : Prover c) (text : String) (subject : Subject c.json) : Prop where
  accepted_iff : ∀ subject' : Subject c.json, subject'.verify prover.pubkey text = .ok .mk ↔
    subject'.Agrees subject ∨ Collide c subject'.payload subject.payload
  refused : ∀ (subject' : Subject c.json) e, subject'.verify prover.pubkey text = .error e →
    e = .crypto .verificationFailed

theorem proves_prove (huuid : Function.Injective c.json.printUuid) (prover : Prover c)
    (subject : Subject c.json) : Proves prover (prover.prove subject) subject where
  accepted_iff subject' := by
    rw [verify_prove, ← Subject.payload_eq_iff huuid, Collide]
    split
    · rename_i hdigest
      exact iff_of_true rfl (or_iff_not_imp_left.mpr fun hne => ⟨hne, hdigest⟩)
    · rename_i hdigest
      refine iff_of_false nofun ?_
      rintro (heq | ⟨-, hcollide⟩)
      · exact hdigest (congrArg c.sha256 heq)
      · exact hdigest hcollide
  refused subject' e h := by
    rw [verify_prove] at h
    split at h
    · cases h
    · exact (Except.error.inj h).symm

end Proving

section Generating

variable {c : Crates} {cl : Client}

/-- What a call asks a proof for; `sent` is the data set in its body. -/
structure Ask (cl : Client) where
  machineId : cl.json.Uuid
  dataset : Option cl.json.Value
  sent : Dataset
  printed : cl.metadataJson dataset = tree sent.val

structure IssuedProof where
  fingerprint : String
  text : String

def proofPath (J : SerdeJson) (machineId : J.Uuid) : String :=
  "/machines/" ++ J.printUuid machineId ++ "/actions/generate-offline-proof"

def proofBody (dataset : Json) : Json :=
  objectJson [("meta", objectJson [("dataset", dataset)])]

def proofRequest (ask : Ask cl) : Request :=
  ⟨.post, proofPath cl.json ask.machineId, [], none,
    some (proofBody (cl.metadataJson ask.dataset))⟩

def readProof (cl : Client) (response : Response) :
    Except cl.Error (MachineResource cl.json × String) :=
  cl.read "MachineResource" (envelopeWithMeta (machineResource cl.json) proofMeta) response

/-- The proof of a request, with the fingerprint that the machine has at the time. -/
def effect (prover : Prover c) (request : Request) (issued after : List IssuedProof) : Prop :=
  ∃ (machineId : c.json.Uuid) (dataset : Dataset) (fingerprint : String),
    request.path = proofPath c.json machineId ∧
    request.body = some (proofBody (tree dataset.val)) ∧
    after = issued ++
      [⟨fingerprint, prover.prove ⟨prover.accountId, machineId, fingerprint, dataset⟩⟩]

def proofServer (prover : Prover c) (cl : Client) :
    Object (List IssuedProof) Op (Reply (overCrates c cl).reqwest) :=
  resource (effect prover) (readProof (overCrates c cl)) fun answered issued =>
    issued.getLast? = some ⟨answered.1.attributes.fingerprint, answered.2⟩

def subjectOf (prover : Prover c) (ask : Ask (overCrates c cl)) (fingerprint : String) :
    Subject c.json :=
  ⟨prover.accountId, ask.machineId, fingerprint, ask.sent⟩

theorem proof_of_effect (huuid : Function.Injective c.json.printUuid) {prover : Prover c}
    {ask : Ask (overCrates c cl)} {issued after : List IssuedProof}
    (h : effect prover (proofRequest ask) issued after) :
    ∃ proof : IssuedProof, proof.text = prover.prove (subjectOf prover ask proof.fingerprint) ∧
      after = issued ++ [proof] := by
  obtain ⟨machineId, dataset, fingerprint, hpath, hbody, hafter⟩ := h
  have hid : ask.machineId = machineId :=
    huuid (String.append_right_inj _ |>.mp (String.append_left_inj _ |>.mp hpath))
  have hprinted : proofBody (tree ask.sent.val) = proofBody (tree dataset.val) := by
    rw [← ask.printed]
    exact Option.some.inj hbody
  have hdataset : ask.sent = dataset := by
    simp only [proofBody, objectJson, List.map_cons, List.map_nil, Json.object.injEq,
      List.cons.injEq, Prod.mk.injEq, and_true, true_and] at hprinted
    exact Subtype.ext (tree_injective hprinted)
  subst hid hdataset
  exact ⟨_, rfl, hafter⟩

theorem insists_generateOfflineProof {prover : Prover c} (ask : Ask (overCrates c cl)) :
    Insists (proofServer prover cl) (.send (proofRequest ask))
      (outcome (readProof (overCrates c cl)))
      ((overCrates c cl).generateOfflineProof ask.machineId ask.dataset) :=
  insists_sendFrom _ _ 0

section Recorded

/-- The length of a message, in every octet. -/
def recordedDigest (message : List UInt8) : Octets 32 :=
  ⟨List.replicate 32 (.ofNat message.length), List.length_replicate⟩

def recordedCrates : Crates :=
  { tableCrates blankTables with
    awsLc := ⟨fun _ message signature => signature = (recordedDigest message).val,
      fun _ _ _ => false, fun _ _ _ => false⟩
    sha256 := recordedDigest }

def recordedProver : Prover recordedCrates where
  accountId := account
  pubkey := []
  sign message := (recordedDigest message).val
  verify_sign _ _ := (decide_eq_true_iff.trans eq_comm).trans Subtype.val_inj

def recordedAsk : Ask (overCrates recordedCrates blankClient) where
  machineId := machine
  dataset := some (tree (.object [("b", .int 1), ("a", .int 2)]))
  sent := ⟨_, distinct_recorded.1⟩
  printed := rfl

def recordedSubject (fingerprint : String) : Subject recordedCrates.json :=
  @subjectOf recordedCrates blankClient recordedProver recordedAsk fingerprint

def recordedProof : IssuedProof := ⟨"fp", recordedProver.prove (recordedSubject "fp")⟩

def proofDocument : Json :=
  objectJson [
    ("data", (blankMachine machine "fp").toJson),
    ("meta", objectJson [("proof", textJson recordedProof.text)])]

theorem readProof_recorded :
    readProof (overCrates recordedCrates blankClient) ⟨200, [], some proofDocument⟩ =
      .ok (blankMachine machine "fp", recordedProof.text) := rfl

theorem run_recorded :
    ∃ log, Run (closed (proofServer recordedProver blankClient).Serves) []
      (fun _ : Unit => (overCrates recordedCrates blankClient).generateOfflineProof
        recordedAsk.machineId recordedAsk.dataset) log [recordedProof]
      fun _ => .ret (.ok (blankMachine machine "fp", recordedProof.text)) := by
  have hsteps : Steps ((overCrates recordedCrates blankClient).generateOfflineProof
        recordedAsk.machineId recordedAsk.dataset)
      [⟨.send (proofRequest recordedAsk), .ok ⟨200, [], some proofDocument⟩⟩]
      (.ret (.ok (blankMachine machine "fp", recordedProof.text))) :=
    (steps_sendWithRetry (by decide)).bind (.refl _)
  have hissued : (closed (proofServer recordedProver blankClient).Serves).serves []
      ⟨.send (proofRequest recordedAsk), .ok ⟨200, [], some proofDocument⟩⟩ [recordedProof] :=
    .carriedOut ⟨recordedAsk.machineId, recordedAsk.sent, "fp", rfl, rfl, rfl⟩
      ⟨rfl, _, readProof_recorded, rfl⟩
  exact Run.alone hsteps (.cons hissued (.nil _))

end Recorded

variable {ι : Type} [DecidableEq ι] {prover : Prover c} {asks : ι → Ask (overCrates c cl)}
  {issued after : List IssuedProof} {log : List (ι × (overCrates c cl).Exchange)}
  {now : ι → (overCrates c cl).Call (MachineResource c.json × String)}

/-- Every call is issued one proof or none, and the one that it returns proves what the call
asked for, of the machine that comes with it. -/
theorem generated_proofs_prove (huuid : Function.Injective c.json.printUuid)
    (h : Run (closed (proofServer prover cl).Serves) issued
      (fun i => (overCrates c cl).generateOfflineProof (asks i).machineId (asks i).dataset)
      log after now) :
    ∃ proofs : List (ι × IssuedProof), (proofs.map Prod.fst).Nodup ∧
      after = issued ++ proofs.map Prod.snd ∧
      (∀ i machine text, now i = .ret (.ok (machine, text)) →
        (i, ⟨machine.attributes.fingerprint, text⟩) ∈ proofs ∧
          Proves prover text (subjectOf prover (asks i) machine.attributes.fingerprint)) ∧
      ∀ i err, now i = .ret (.error err) → (∀ e, err ≠ .http e) → i ∉ proofs.map Prod.fst := by
  obtain ⟨proofs, hnodup, -, hafter, hmade, hok, herror⟩ :=
    calls_issue_once (fun i => insists_generateOfflineProof (asks i))
      (fun _ _ _ h => proof_of_effect huuid h) h
  refine ⟨proofs, hnodup, hafter, fun i machine text hnow => ?_, herror⟩
  have hmem := hok i (machine, text) hnow
  have htext := hmade _ hmem
  refine ⟨hmem, ?_⟩
  rw [show text = _ from htext]
  exact proves_prove huuid prover _

theorem generated_proofs_prove_recorded :
    ∃ proofs : List (Unit × IssuedProof), [recordedProof] = proofs.map Prod.snd ∧
      ((), recordedProof) ∈ proofs ∧
      (recordedSubject "fp").verify recordedProver.pubkey recordedProof.text = .ok .mk ∧
      (recordedSubject "fp2").verify recordedProver.pubkey recordedProof.text ≠ .ok .mk := by
  obtain ⟨log, hrun⟩ := run_recorded
  obtain ⟨proofs, -, hproofs, hok, -⟩ := generated_proofs_prove Function.injective_id hrun
  obtain ⟨hmem, hproves⟩ := hok () _ recordedProof.text rfl
  refine ⟨proofs, hproofs, hmem, ?_, ?_⟩
  · exact (hproves.accepted_iff (recordedSubject "fp")).mpr
      (Or.inl ((Subject.payload_eq_iff Function.injective_id).mp rfl))
  · rw [Ne, hproves.accepted_iff]
    rintro (⟨-, -, hfingerprint, -⟩ | ⟨-, hcollide⟩)
    · exact absurd hfingerprint (by decide)
    · exact absurd (congrArg (fun digest => digest.val.head?) hcollide) (by decide +kernel)

end Generating

end Tamga.ProofGeneration
