import Tamga.Library.Prelude

/-!
Verification of a signed file in stages: find out what is signed, check the
signature, and only then open the payload and judge it.  The signature is
checked under one key, or a set of keys is searched for one that accepts it;
when the search comes back empty, what the payload says labels the failure.
-/

namespace Library.SignedFile

open Library.Prelude

variable {Signed Payload Verdict Key ε : Type}

def verify (signed : Except ε Signed) (check : Signed → Except ε Unit)
    (openPayload : Signed → Except ε Payload)
    (finish : Payload → Except ε Verdict) : Except ε Verdict := do
  let file ← signed
  check file
  let payload ← openPayload file
  finish payload

def verifyAny (signed : Except ε Signed) (search : Signed → Except ε (Option Key))
    (openPayload : Signed → Except ε Payload)
    (finish : Payload → Except ε Verdict)
    (label : Except ε Payload → ε) : Except ε Verdict := do
  let file ← signed
  match ← search file with
  | some _ => do
      let payload ← openPayload file
      finish payload
  | none => .error (label (openPayload file))

/-- The signature check ran under `check` and passed. -/
def Checked (signed : Except ε Signed) (check : Signed → Except ε Unit) : Prop :=
  ∃ file, signed = .ok file ∧ check file = .ok ()

/-- A search that finds a key of the set which accepts the signature, and does
not miss one when there is one. -/
structure Exact (held : Key → Prop) (check : Key → Signed → Except ε Unit)
    (search : Signed → Except ε (Option Key)) : Prop where
  sound : ∀ {file key}, search file = .ok (some key) →
    held key ∧ check key file = .ok ()
  complete : ∀ {file key}, held key → check key file = .ok () →
    ∃ found, search file = .ok (some found)

section One

variable {signed : Except ε Signed} {check : Signed → Except ε Unit}
  {openPayload : Signed → Except ε Payload} {finish : Payload → Except ε Verdict}

theorem verify_eq_ok_iff {verdict : Verdict} :
    verify signed check openPayload finish = .ok verdict ↔
      ∃ file payload, signed = .ok file ∧ check file = .ok () ∧
        openPayload file = .ok payload ∧ finish payload = .ok verdict := by
  simp only [verify, bind_eq_ok_iff]
  constructor
  · rintro ⟨file, hsigned, ⟨⟩, hcheck, payload, hopen, hfinish⟩
    exact ⟨file, payload, hsigned, hcheck, hopen, hfinish⟩
  · rintro ⟨file, payload, hsigned, hcheck, hopen, hfinish⟩
    exact ⟨file, hsigned, (), hcheck, payload, hopen, hfinish⟩

theorem verify_of_checked {file : Signed} (hsigned : signed = .ok file)
    (hcheck : check file = .ok ()) :
    verify signed check openPayload finish = openPayload file >>= finish := by
  simp [verify, hsigned, hcheck]

/-- Without a passed check there is one error, and neither the opening nor the
judging of the payload has a part in it. -/
theorem exists_error_of_not_checked (h : ¬Checked signed check) :
    ∃ e, (signed = .error e ∨ ∃ file, signed = .ok file ∧ check file = .error e) ∧
      ∀ {Payload Verdict : Type} (openPayload : Signed → Except ε Payload)
        (finish : Payload → Except ε Verdict),
        verify signed check openPayload finish = .error e := by
  cases hsigned : signed with
  | error e => exact ⟨e, Or.inl rfl, fun _ _ => rfl⟩
  | ok file =>
      cases hcheck : check file with
      | ok u => exact absurd ⟨file, hsigned, hcheck⟩ h
      | error e =>
          refine ⟨e, Or.inr ⟨file, rfl, hcheck⟩, fun _ _ => ?_⟩
          simp [verify, hcheck]

end One

section Any

variable {signed single : Except ε Signed} {held : Key → Prop}
  {check : Key → Signed → Except ε Unit}
  {search : Signed → Except ε (Option Key)}
  {openPayload : Signed → Except ε Payload} {finish : Payload → Except ε Verdict}
  {label : Except ε Payload → ε}

theorem verifyAny_of_found {file : Signed} {key : Key} (hsigned : signed = .ok file)
    (hsearch : search file = .ok (some key)) :
    verifyAny signed search openPayload finish label =
      openPayload file >>= finish := by
  simp [verifyAny, hsigned, hsearch]

theorem verifyAny_of_none {file : Signed} (hsigned : signed = .ok file)
    (hsearch : search file = .ok none) :
    verifyAny signed search openPayload finish label =
      .error (label (openPayload file)) := by
  simp [verifyAny, hsigned, hsearch]

theorem verifyAny_of_search_error {file : Signed} {e : ε} (hsigned : signed = .ok file)
    (hsearch : search file = .error e) :
    verifyAny signed search openPayload finish label = .error e := by
  simp [verifyAny, hsigned, hsearch]

/-- Under any held key that accepts the signature, the set gives the answer
that this key alone gives.  The two paths may refuse a file with different
words, as long as they take in the same files. -/
theorem verifyAny_eq_verify (hexact : Exact held check search)
    (hsame : ∀ file, signed = .ok file ↔ single = .ok file) {key : Key}
    (hheld : held key) (hchecked : Checked single (check key)) :
    verifyAny signed search openPayload finish label =
      verify single (check key) openPayload finish := by
  obtain ⟨file, hsingle, hcheck⟩ := hchecked
  obtain ⟨found, hfound⟩ := hexact.complete hheld hcheck
  rw [verifyAny_of_found ((hsame file).mpr hsingle) hfound,
    verify_of_checked hsingle hcheck]

theorem verifyAny_eq_ok_iff (hexact : Exact held check search)
    (hsame : ∀ file, signed = .ok file ↔ single = .ok file) {verdict : Verdict} :
    verifyAny signed search openPayload finish label = .ok verdict ↔
      ∃ key, held key ∧
        verify single (check key) openPayload finish = .ok verdict := by
  constructor
  · intro h
    obtain ⟨file, hsigned, h⟩ := bind_eq_ok_iff.mp h
    obtain ⟨result, hsearch, h⟩ := bind_eq_ok_iff.mp h
    cases result with
    | none => cases h
    | some key =>
        obtain ⟨hheld, hcheck⟩ := hexact.sound hsearch
        refine ⟨key, hheld, ?_⟩
        rw [verify_of_checked ((hsame file).mp hsigned) hcheck]
        exact h
  · rintro ⟨key, hheld, h⟩
    obtain ⟨file, payload, hsingle, hcheck, hopen, hfinish⟩ := verify_eq_ok_iff.mp h
    rw [verifyAny_eq_verify hexact hsame hheld ⟨file, hsingle, hcheck⟩]
    exact h

end Any

end Library.SignedFile
