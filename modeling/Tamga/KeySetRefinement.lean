import Tamga.LicenseAcceptance
import Tamga.MachineAcceptance

namespace Tamga.KeySetRefinement

open Library.Prelude
open Tamga.Dependencies
open Tamga.KeySet

/-- Changes of the entries of a set that keep the keys it holds. -/
inductive Relisted : List (String × Octets 32) → List (String × Octets 32) → Prop
  | permute {entries entries'} (h : entries.Perm entries') : Relisted entries entries'
  | duplicate {entry entries} (h : entry ∈ entries) : Relisted entries (entry :: entries)
  | relabel {front back kid kid' key} :
      Relisted (front ++ (kid, key) :: back) (front ++ (kid', key) :: back)
  | symm {entries entries'} (h : Relisted entries entries') : Relisted entries' entries
  | trans {entries entries' entries''} (h : Relisted entries entries')
      (h' : Relisted entries' entries'') : Relisted entries entries''

theorem Relisted.mem_keys_iff {entries entries' : List (String × Octets 32)}
    (h : Relisted entries entries') (key : Octets 32) :
    key ∈ entries.map Prod.snd ↔ key ∈ entries'.map Prod.snd := by
  induction h with
  | permute hperm => exact (hperm.map Prod.snd).mem_iff
  | duplicate hmem =>
      rw [List.map_cons, List.mem_cons]
      constructor
      · intro hkey
        exact Or.inr hkey
      · rintro (rfl | hkey)
        · exact List.mem_map_of_mem hmem
        · exact hkey
  | relabel => simp only [List.map_append, List.map_cons]
  | symm _ ih => exact ih.symm
  | trans _ _ ih ih' => exact ih.trans ih'

/-- The key-set verification `set` of a file against the single-key verification
`single` of the same file: `set` accepts what some held key accepts and repeats
the answer of a held key that has verified the signature. -/
structure Refines {ε V : Type} (set : SigningKeySet → Except ε V)
    (single : Octets 32 → Except ε V) (verified : Octets 32 → Prop) : Prop where
  accepts : ∀ {keys v}, set keys = .ok v ↔ ∃ key ∈ keys.keys, single key = .ok v
  agrees : ∀ {keys key}, key ∈ keys.keys → verified key → set keys = single key
  relisted : ∀ {keys keys' v}, Relisted keys.entries keys'.entries →
    (set keys = .ok v ↔ set keys' = .ok v)
  monotone : ∀ {keys keys' v}, (∀ entry ∈ keys.entries, entry ∈ keys'.entries) →
    set keys = .ok v → set keys' = .ok v

/-- The accepted values depend on a set through the keys it holds, so the last
two laws follow from the first. -/
theorem Refines.of_accepts {ε V : Type} {set : SigningKeySet → Except ε V}
    {single : Octets 32 → Except ε V} {verified : Octets 32 → Prop}
    (haccepts : ∀ {keys v}, set keys = .ok v ↔ ∃ key ∈ keys.keys, single key = .ok v)
    (hagrees : ∀ {keys key}, key ∈ keys.keys → verified key → set keys = single key) :
    Refines set single verified where
  accepts := haccepts
  agrees := hagrees
  relisted hrelisted := by
    simp only [haccepts, SigningKeySet.keys, hrelisted.mem_keys_iff]
  monotone hsubset h := by
    obtain ⟨key, hkey, hsingle⟩ := haccepts.mp h
    obtain ⟨entry, hentry, rfl⟩ := List.mem_map.mp hkey
    exact haccepts.mpr ⟨entry.2, List.mem_map_of_mem (hsubset entry hentry), hsingle⟩

theorem keySet_refines_singleKey (c : Crates) :
    (∀ pem licenseKey nowUnix,
      Refines
        (fun keys =>
          LicenseFile.verifyLicenseFileWithKeySetAt c pem keys licenseKey nowUnix)
        (fun key => LicenseFile.verifyLicenseFileAt c pem key licenseKey nowUnix)
        (LicenseFile.SignatureVerified c pem)) ∧
    (∀ pem licenseKey fingerprint nowUnix,
      Refines
        (fun keys =>
          MachineFile.verifyMachineFileWithKeySetAt c pem keys licenseKey fingerprint
            nowUnix)
        (fun key =>
          MachineFile.verifyMachineFileAt c pem .ed25519Sign key.val licenseKey
            fingerprint nowUnix)
        (fun key => MachineFile.SignatureVerified c pem .ed25519Sign key.val)) := by
  constructor
  · intro pem licenseKey nowUnix
    apply Refines.of_accepts
    · intro keys verified
      exact LicenseFile.verifyLicenseFileWithKeySetAt_eq_ok_iff
    · intro keys key hkey hverified
      exact LicenseFile.verifyLicenseFileWithKeySetAt_eq_single hkey hverified _ _
  · intro pem licenseKey fingerprint nowUnix
    apply Refines.of_accepts
    · intro keys verified
      exact MachineFile.verifyMachineFileWithKeySetAt_eq_ok_iff
    · intro keys key hkey hverified
      exact MachineFile.verifyMachineFileWithKeySetAt_eq_single hkey hverified _ _ _

end Tamga.KeySetRefinement
