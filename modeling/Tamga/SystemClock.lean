import Tamga.ServerFiles

namespace Tamga

open Library.Prelude
open Tamga.Dependencies
open Tamga.Errors
open Tamga.KeySet
open Tamga.Models

/-- `SystemTime`: seconds from the Unix epoch, and the part of a second after them. -/
structure SystemTime where
  secs : Int64
  nanos : Fin 1000000000

/-- `unix_now`.  Before the epoch `duration_since` fails. -/
def unixNow (clock : SystemTime) : Int64 :=
  if 0 ≤ clock.secs then clock.secs else 0

namespace LicenseFile

variable (c : Crates) (pem : String)

def verifyLicenseFileWithClaims (ed25519Pubkey : Octets 32) (licenseKey : Option String)
    (clock : SystemTime) : Except (CheckoutError c.json) (VerifiedLicenseFile c.json) :=
  verifyLicenseFileAt c pem ed25519Pubkey licenseKey (unixNow clock)

def verifyLicenseFile (ed25519Pubkey : Octets 32) (licenseKey : Option String)
    (clock : SystemTime) : Except (CheckoutError c.json) (LicenseResource c.json) :=
  (verifyLicenseFileWithClaims c pem ed25519Pubkey licenseKey clock).map
    VerifiedLicenseFile.license

def verifyLicenseFileWithKeySet (keys : SigningKeySet) (licenseKey : Option String)
    (clock : SystemTime) : Except (CheckoutError c.json) (VerifiedLicenseFile c.json) :=
  verifyLicenseFileWithKeySetAt c pem keys licenseKey (unixNow clock)

end LicenseFile

namespace MachineFile

variable (c : Crates) (pem : String)

def verifyMachineFileWithClaims (scheme : LicenseScheme) (pubkey : List UInt8)
    (licenseKey fingerprint : Option String) (clock : SystemTime) :
    Except (CheckoutError c.json) (VerifiedMachineFile c.json) :=
  verifyMachineFileAt c pem scheme pubkey licenseKey fingerprint (unixNow clock)

def verifyMachineFile (scheme : LicenseScheme) (pubkey : List UInt8)
    (licenseKey fingerprint : Option String) (clock : SystemTime) :
    Except (CheckoutError c.json) (MachineResource c.json) :=
  (verifyMachineFileWithClaims c pem scheme pubkey licenseKey fingerprint clock).map
    VerifiedMachineFile.machine

def verifyMachineFileWithKeySet (keys : SigningKeySet)
    (licenseKey fingerprint : Option String) (clock : SystemTime) :
    Except (CheckoutError c.json) (VerifiedMachineFile c.json) :=
  verifyMachineFileWithKeySetAt c pem keys licenseKey fingerprint (unixNow clock)

end MachineFile

namespace SystemClock

open Tamga.Envelope
open Tamga.MachineFile (LicenseScheme)
open Tamga.ServerFiles

section Timelines

variable {J : SerdeJson} {α β V W : Type}

def NotExpired (x : Except (CheckoutError J) α) : Prop := ∀ exp, x ≠ .error (.expired exp)

theorem notExpired_ok (a : α) : NotExpired (.ok a : Except (CheckoutError J) α) := nofun

theorem NotExpired.bind {x : Except (CheckoutError J) α} {f : α → Except (CheckoutError J) β}
    (hx : NotExpired x) (hf : ∀ a, NotExpired (f a)) : NotExpired (x >>= f) := by
  cases x with
  | error e => exact fun exp h => hx exp (congrArg _ (Except.error.inj h))
  | ok a => exact hf a

theorem notExpired_okOr {value : Option α} {e : CheckoutError J} (h : ∀ exp, e ≠ .expired exp) :
    NotExpired (okOr value e) :=
  fun exp heq => h exp (okOr_eq_error_iff.mp heq).2

theorem notExpired_mapError {ε : Type} {x : Except ε α} {f : ε → CheckoutError J}
    (h : ∀ e exp, f e ≠ .expired exp) : NotExpired (x.mapError f) := by
  cases x with
  | error e => exact fun exp heq => h e exp (Except.error.inj heq)
  | ok a => exact notExpired_ok a

/-- What a verification makes of a file at all times: the same error or the same value, or
a value until a minute after an `exp`, and from then on that it has expired. -/
inductive Timeline (verdict : Int64 → Except (CheckoutError J) V) : Prop
  | refused (e : CheckoutError J) (hexp : ∀ exp, e ≠ .expired exp)
      (h : ∀ nowUnix, verdict nowUnix = .error e)
  | accepted (verified : V) (h : ∀ nowUnix, verdict nowUnix = .ok verified)
  | expires (verified : V) (exp : Int64) (h : ∀ nowUnix, verdict nowUnix =
      if nowUnix.toInt ≤ exp.toInt + 60 then .ok verified else .error (.expired exp))

theorem Timeline.bind {x : Except (CheckoutError J) α} (hx : NotExpired x)
    {verdict : α → Int64 → Except (CheckoutError J) V} (h : ∀ a, Timeline (verdict a)) :
    Timeline fun nowUnix => x >>= fun a => verdict a nowUnix := by
  cases x with
  | error e => exact .refused e (fun exp heq => hx exp (congrArg _ heq)) fun _ => rfl
  | ok a => exact h a

theorem Timeline.map {verdict : Int64 → Except (CheckoutError J) V} (h : Timeline verdict)
    (f : V → W) : Timeline fun nowUnix => (verdict nowUnix).map f := by
  cases h with
  | refused e hexp h => exact .refused e hexp fun nowUnix => by rw [h]; rfl
  | accepted verified h => exact .accepted (f verified) fun nowUnix => by rw [h]; rfl
  | expires verified exp h =>
      refine .expires (f verified) exp fun nowUnix => ?_
      rw [h]
      split <;> rfl

theorem timeline_enforceExp (claims : LicenseFileClaims) (verified : V) :
    Timeline fun nowUnix => enforceExp J claims nowUnix >>= fun _ => pure verified := by
  cases hexp : claims.exp with
  | none =>
      refine .accepted verified fun nowUnix => ?_
      rw [enforceExp, hexp]
      rfl
  | some exp =>
      refine .expires verified exp fun nowUnix => ?_
      split
      · rename_i hwithin
        rw [enforceExp_of_not_expired]
        · rfl
        · rintro ⟨_, hsome, hpast⟩
          obtain rfl := Option.some.inj (hexp.symm.trans hsome)
          omega
      · rename_i hlate
        rw [enforceExp_of_past hexp (by omega)]
        rfl

end Timelines

section Steps

variable {c : Crates}

theorem notExpired_parseEnvelope (header footer target pem : String) :
    NotExpired (Envelope.parseEnvelope c header footer target pem) :=
  (notExpired_okOr (by nofun)).bind fun _ => (notExpired_okOr (by nofun)).bind fun _ =>
    notExpired_mapError (by nofun)

theorem notExpired_decodeSignature (cert : CertPayload) : NotExpired (decodeSignature c cert) :=
  notExpired_okOr (by nofun)

theorem notExpired_labelFailure (keys : SigningKeySet)
    (probe : Except (CheckoutError c.json) (List UInt8)) (exp : Int64) :
    labelFailure c keys probe ≠ .expired exp := by
  unfold labelFailure
  split
  · split
    · split <;> nofun
    · nofun
  all_goals nofun

theorem notExpired_validateAlg (J : SerdeJson) (alg : String) :
    NotExpired (LicenseFile.validateAlg J alg) := by
  unfold LicenseFile.validateAlg
  split <;> nofun

theorem notExpired_decodeLicense (cert : CertPayload) (encoding : EncEncoding)
    (licenseKey : Option String) :
    NotExpired (LicenseFile.decodePlaintext c cert encoding licenseKey) := by
  refine (notExpired_okOr (by nofun)).bind fun encBytes => ?_
  cases encoding with
  | plain => exact notExpired_ok _
  | aes256Gcm =>
      refine (notExpired_okOr (by nofun)).bind fun keyStr => ?_
      dsimp only
      split
      · nofun
      · exact notExpired_mapError (by nofun)

theorem notExpired_parseAlg (J : SerdeJson) (alg : String) :
    NotExpired (MachineFile.parseAlg J alg) := by
  refine (notExpired_okOr (by nofun)).bind fun cut => (notExpired_okOr (by nofun)).bind fun cut' => ?_
  dsimp only
  split
  · nofun
  · split
    · nofun
    · split <;> nofun

theorem notExpired_decodeMachine (cert : CertPayload) (encoding : EncEncoding)
    (licenseKey fingerprint : Option String) :
    NotExpired (MachineFile.decodePlaintext c cert encoding licenseKey fingerprint) := by
  cases encoding with
  | plain => exact notExpired_okOr (by nofun)
  | aes256Gcm =>
      refine (notExpired_okOr (by nofun)).bind fun _ => (notExpired_okOr (by nofun)).bind fun _ =>
        (notExpired_okOr (by nofun)).bind fun _ => (notExpired_okOr (by nofun)).bind fun _ =>
          (notExpired_okOr (by nofun)).bind fun _ => (notExpired_okOr (by nofun)).bind fun _ => ?_
      split
      · nofun
      · exact notExpired_mapError (by nofun)

theorem notExpired_verifySignature (scheme : LicenseScheme)
    (pubkey message signature : List UInt8) :
    NotExpired (MachineFile.verifySignature c scheme pubkey message signature) := by
  cases scheme with
  | ed25519Sign =>
      exact (notExpired_okOr (by nofun)).bind fun _ => notExpired_mapError (by nofun)
  | rsa2048Pkcs1Sign | rsa2048Pkcs1PssSign | ecdsaP256Sign =>
      exact notExpired_mapError (by nofun)
  | rsa2048JwtRs256 => nofun

end Steps

section Files

variable (c : Crates) (pem : String)

theorem timeline_licenseFinish (plaintext : List UInt8) :
    Timeline fun nowUnix => LicenseFile.finish c plaintext nowUnix :=
  .bind (notExpired_mapError (by nofun)) fun _ => timeline_enforceExp _ _

theorem timeline_machineFinish (plaintext : List UInt8) :
    Timeline fun nowUnix => MachineFile.finish c plaintext nowUnix :=
  .bind (notExpired_mapError (by nofun)) fun _ => timeline_enforceExp _ _

theorem timeline_verifyLicenseFileAt (key : Octets 32) (licenseKey : Option String) :
    Timeline (LicenseFile.verifyLicenseFileAt c pem key licenseKey) := by
  refine .bind (notExpired_parseEnvelope _ _ _ _) fun cert =>
    .bind (notExpired_validateAlg _ _) fun encoding => .bind ?_ fun _ =>
      .bind (notExpired_decodeLicense cert encoding licenseKey) fun plaintext =>
        timeline_licenseFinish c plaintext
  exact (notExpired_decodeSignature cert).bind fun _ => notExpired_mapError (by nofun)

theorem timeline_verifyLicenseFileWithKeySetAt (keys : SigningKeySet)
    (licenseKey : Option String) :
    Timeline (LicenseFile.verifyLicenseFileWithKeySetAt c pem keys licenseKey) := by
  refine .bind (notExpired_parseEnvelope _ _ _ _) fun cert =>
    .bind (notExpired_validateAlg _ _) fun encoding =>
      .bind (notExpired_decodeSignature cert) fun _ => .bind (notExpired_mapError (by nofun)) ?_
  rintro (_ | key)
  · exact .refused _ (notExpired_labelFailure keys _) fun _ => rfl
  · exact .bind (notExpired_decodeLicense cert encoding licenseKey) fun plaintext =>
      timeline_licenseFinish c plaintext

theorem timeline_verifyMachineFileAt (scheme : LicenseScheme) (pubkey : List UInt8)
    (licenseKey fingerprint : Option String) :
    Timeline (MachineFile.verifyMachineFileAt c pem scheme pubkey licenseKey fingerprint) := by
  unfold MachineFile.verifyMachineFileAt
  split
  · exact .refused _ (by nofun) fun _ => rfl
  · refine .bind (notExpired_parseEnvelope _ _ _ _) fun cert =>
      .bind (notExpired_parseAlg _ _) fun alg => ?_
    dsimp only
    split
    · exact .refused _ (by nofun) fun _ => rfl
    · exact .bind (notExpired_decodeSignature cert) fun _ =>
        .bind (notExpired_verifySignature scheme pubkey _ _) fun _ =>
          .bind (notExpired_decodeMachine cert alg.1 licenseKey fingerprint) fun plaintext =>
            timeline_machineFinish c plaintext

theorem timeline_verifyMachineFileWithKeySetAt (keys : SigningKeySet)
    (licenseKey fingerprint : Option String) :
    Timeline (MachineFile.verifyMachineFileWithKeySetAt c pem keys licenseKey fingerprint) := by
  refine .bind (notExpired_parseEnvelope _ _ _ _) fun cert =>
    .bind (notExpired_parseAlg _ _) fun alg => ?_
  dsimp only
  split
  · exact .refused _ (by nofun) fun _ => rfl
  · refine .bind (notExpired_decodeSignature cert) fun _ =>
      .bind (notExpired_mapError (by nofun)) ?_
    rintro (_ | key)
    · exact .refused _ (notExpired_labelFailure keys _) fun _ => rfl
    · exact .bind (notExpired_decodeMachine cert alg.1 licenseKey fingerprint) fun plaintext =>
        timeline_machineFinish c plaintext

/-- A file and all that it is checked with, but for the clock. -/
inductive Check : {V : Type} → (SystemTime → Except (CheckoutError c.json) V) → Prop
  | licenseFile (key : Octets 32) (licenseKey : Option String) :
      Check (LicenseFile.verifyLicenseFile c pem key licenseKey)
  | licenseFileWithClaims (key : Octets 32) (licenseKey : Option String) :
      Check (LicenseFile.verifyLicenseFileWithClaims c pem key licenseKey)
  | licenseFileWithKeySet (keys : SigningKeySet) (licenseKey : Option String) :
      Check (LicenseFile.verifyLicenseFileWithKeySet c pem keys licenseKey)
  | machineFile (scheme : LicenseScheme) (pubkey : List UInt8)
      (licenseKey fingerprint : Option String) :
      Check (MachineFile.verifyMachineFile c pem scheme pubkey licenseKey fingerprint)
  | machineFileWithClaims (scheme : LicenseScheme) (pubkey : List UInt8)
      (licenseKey fingerprint : Option String) :
      Check (MachineFile.verifyMachineFileWithClaims c pem scheme pubkey licenseKey fingerprint)
  | machineFileWithKeySet (keys : SigningKeySet) (licenseKey fingerprint : Option String) :
      Check (MachineFile.verifyMachineFileWithKeySet c pem keys licenseKey fingerprint)

theorem Check.timeline {V : Type} {check : SystemTime → Except (CheckoutError c.json) V}
    (h : Check c pem check) :
    ∃ verdict, Timeline verdict ∧ ∀ clock, check clock = verdict (unixNow clock) := by
  cases h with
  | licenseFile key licenseKey =>
      exact ⟨_, (timeline_verifyLicenseFileAt c pem key licenseKey).map _, fun _ => rfl⟩
  | licenseFileWithClaims key licenseKey =>
      exact ⟨_, timeline_verifyLicenseFileAt c pem key licenseKey, fun _ => rfl⟩
  | licenseFileWithKeySet keys licenseKey =>
      exact ⟨_, timeline_verifyLicenseFileWithKeySetAt c pem keys licenseKey, fun _ => rfl⟩
  | machineFile scheme pubkey licenseKey fingerprint =>
      exact ⟨_, (timeline_verifyMachineFileAt c pem scheme pubkey licenseKey fingerprint).map _,
        fun _ => rfl⟩
  | machineFileWithClaims scheme pubkey licenseKey fingerprint =>
      exact ⟨_, timeline_verifyMachineFileAt c pem scheme pubkey licenseKey fingerprint,
        fun _ => rfl⟩
  | machineFileWithKeySet keys licenseKey fingerprint =>
      exact ⟨_, timeline_verifyMachineFileWithKeySetAt c pem keys licenseKey fingerprint,
        fun _ => rfl⟩

end Files

section Readings

variable {c : Crates} {pem : String} {V : Type}
  {check : SystemTime → Except (CheckoutError c.json) V} {clocks : List SystemTime}

theorem toInt_unixNow (clock : SystemTime) :
    (unixNow clock).toInt = max 0 clock.secs.toInt := by
  rw [unixNow]
  split
  · rename_i h
    rw [Int64.le_iff_toInt_le] at h
    exact (max_eq_right h).symm
  · rename_i h
    rw [Int64.le_iff_toInt_le, not_le] at h
    exact (max_eq_left h.le).symm

/-- A list that is in order is cut in two by what holds ever less. -/
theorem exists_cut {α : Type} {r : α → α → Prop} {p : α → Prop} [DecidablePred p] {l : List α}
    (hdown : ∀ a b, r a b → p b → p a) (h : l.Pairwise r) :
    ∃ front back, l = front ++ back ∧ (∀ a ∈ front, p a) ∧ ∀ a ∈ back, ¬p a := by
  induction l with
  | nil => exact ⟨[], [], rfl, by simp, by simp⟩
  | cons a rest ih =>
      obtain ⟨hfirst, hrest⟩ := List.pairwise_cons.mp h
      by_cases ha : p a
      · obtain ⟨front, back, rfl, hfront, hback⟩ := ih hrest
        exact ⟨a :: front, back, rfl, List.forall_mem_cons.mpr ⟨ha, hfront⟩, hback⟩
      · refine ⟨[], a :: rest, rfl, by simp, List.forall_mem_cons.mpr ⟨ha, fun b hb hpb => ?_⟩⟩
        exact ha (hdown a b (hfirst b hb) hpb)

/-- What has expired was refused for nothing else.  The reading of the clock decides, and
whoever puts it back has the file accepted again. -/
theorem accepted_again_iff (h : Check c pem check) {clock : SystemTime} {exp : Int64}
    (hexpired : check clock = .error (.expired exp)) :
    ∃ verified, ∀ reading, check reading =
      if (unixNow reading).toInt ≤ exp.toInt + 60 then .ok verified
      else .error (.expired exp) := by
  obtain ⟨verdict, htimeline, hverdict⟩ := h.timeline
  rw [hverdict] at hexpired
  cases htimeline with
  | refused e hexp hrefused =>
      exact absurd (Except.error.inj ((hrefused _).symm.trans hexpired)) (hexp exp)
  | accepted verified haccepted => cases (haccepted _).symm.trans hexpired
  | expires verified exp' hexpires =>
      have hsame : exp' = exp := by
        rw [hexpires] at hexpired
        split at hexpired
        · cases hexpired
        · exact CheckoutError.expired.inj (Except.error.inj hexpired)
      subst hsame
      exact ⟨verified, fun reading => (hverdict reading).trans (hexpires _)⟩

theorem accepted_again_iff_recorded :
    ∃ verified, LicenseFile.verifyLicenseFileWithClaims licenseRecording.crates
      recordedLicensePem recordedKey none ⟨-1, 0⟩ = .ok verified := by
  have hjudged := judged_licensePem licenseRecording.crates (keyPair licenseRecording)
    spells_recordedLicense (licenseText licenseRecording "" zeroNonce) lines none nofun 1767312061
  have hexpired : LicenseFile.verifyLicenseFileWithClaims licenseRecording.crates
      recordedLicensePem recordedKey none ⟨1767312061, 0⟩ = .error (.expired 1767312000) :=
    hjudged.expired 1767312000 rfl (by decide)
  obtain ⟨verified, hreadings⟩ :=
    accepted_again_iff (.licenseFileWithClaims recordedKey none) hexpired
  exact ⟨verified, hreadings ⟨-1, 0⟩⟩

/-- Checked again and again by a clock that is not put back, a file is refused for one
reason throughout, or accepted until it has expired and never after. -/
theorem checks_only_expire (h : Check c pem check)
    (hforward : clocks.Pairwise fun earlier later => earlier.secs ≤ later.secs) :
    (∃ e, (∀ exp, e ≠ .expired exp) ∧ ∀ clock ∈ clocks, check clock = .error e) ∨
      ∃ verified exp front back, clocks = front ++ back ∧
        (∀ clock ∈ front, check clock = .ok verified) ∧
          ∀ clock ∈ back, check clock = .error (.expired exp) ∧
            exp.toInt + 60 < max 0 clock.secs.toInt := by
  obtain ⟨verdict, htimeline, hverdict⟩ := h.timeline
  cases htimeline with
  | refused e hexp hrefused =>
      exact Or.inl ⟨e, hexp, fun clock _ => (hverdict clock).trans (hrefused _)⟩
  | accepted verified haccepted =>
      refine Or.inr ⟨verified, 0, clocks, [], (List.append_nil _).symm, fun clock _ => ?_, nofun⟩
      exact (hverdict clock).trans (haccepted _)
  | expires verified exp hexpires =>
      have hdown (earlier later : SystemTime) (hle : earlier.secs ≤ later.secs)
          (hlater : (unixNow later).toInt ≤ exp.toInt + 60) :
          (unixNow earlier).toInt ≤ exp.toInt + 60 := by
        rw [toInt_unixNow] at *
        rw [Int64.le_iff_toInt_le] at hle
        omega
      obtain ⟨front, back, hclocks, hfront, hback⟩ := exists_cut hdown hforward
      refine Or.inr ⟨verified, exp, front, back, hclocks, fun clock hclock => ?_,
        fun clock hclock => ?_⟩
      · rw [hverdict, hexpires, if_pos (hfront clock hclock)]
      · rw [hverdict, hexpires, if_neg (hback clock hclock), ← toInt_unixNow]
        exact ⟨rfl, not_le.mp (hback clock hclock)⟩

theorem checks_only_expire_recorded :
    ∃ verified exp front back, [⟨1767312060, 0⟩, ⟨1767312061, 0⟩] = front ++ back ∧
      (∀ clock ∈ front, LicenseFile.verifyLicenseFileWithClaims licenseRecording.crates
        recordedLicensePem recordedKey none clock = .ok verified) ∧
      ∀ clock ∈ back, LicenseFile.verifyLicenseFileWithClaims licenseRecording.crates
        recordedLicensePem recordedKey none clock = .error (.expired exp) ∧
          exp.toInt + 60 < max 0 clock.secs.toInt := by
  have hforward : [SystemTime.mk 1767312060 0, SystemTime.mk 1767312061 0].Pairwise
      fun earlier later => earlier.secs ≤ later.secs := by decide
  rcases checks_only_expire (.licenseFileWithClaims recordedKey none) hforward with
    ⟨e, -, hrefused⟩ | hcut
  · cases (hrefused _ List.mem_cons_self).symm.trans verifyLicenseFileAt_recorded
  · exact hcut

end Readings

end SystemClock

end Tamga
