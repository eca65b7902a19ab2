import Tamga.Envelope

namespace Tamga.Wrapping

open Library.Prelude
open Library.Serde
open Library.Text
open Tamga.Dependencies
open Tamga.Envelope
open Tamga.Models

/-- The whitespace outside the markers and around the body. -/
structure Spacing where
  outerLeft : String
  outerRight : String
  innerLeft : String
  innerRight : String
  blank_outerLeft : Blank outerLeft
  blank_outerRight : Blank outerRight
  blank_innerLeft : Blank innerLeft
  blank_innerRight : Blank innerRight

def Spacing.wrap (spacing : Spacing) (header footer body : String) : String :=
  spacing.outerLeft ++
    (header ++ (spacing.innerLeft ++ body ++ spacing.innerRight) ++ footer) ++
      spacing.outerRight

/-- A JSON text of `{ enc, sig, alg }`, with the keys in any order. -/
structure CertText (J : SerdeJson) (cert : CertPayload) where
  bytes : List UInt8
  members : Members
  parse_bytes : J.parse bytes = some (.object members)
  perm : members.Perm [(some "enc", textJson cert.enc), (some "sig", textJson cert.sig),
    (some "alg", textJson cert.alg)]

theorem CertText.deserialize_members {J : SerdeJson} {cert : CertPayload}
    (text : CertText J cert) :
    certPayload.deserialize (.object text.members) = some cert := by
  have hkeys : (text.members.map Prod.fst).Nodup := by
    rw [(text.perm.map Prod.fst).nodup_iff]
    simp
  have hfield : ∀ {name value}, (some name, textJson value) ∈
      [(some "enc", textJson cert.enc), (some "sig", textJson cert.sig),
        (some "alg", textJson cert.alg)] →
      readField name string none text.members = some value := by
    intro name value hmem
    rw [readField_of_mem hkeys (text.perm.mem_iff.mpr hmem)]
    rfl
  rw [certPayload, struct_object_iff]
  constructor
  · intro member hmember
    have hlisted := text.perm.mem_iff.mp hmember
    simp only [List.mem_cons, List.not_mem_nil, or_false] at hlisted
    rcases hlisted with rfl | rfl | rfl <;> rfl
  · refine Fields.next_ofMembers_iff.mpr ⟨CertPayload.mk cert.enc cert.sig, cert.alg,
      Fields.next_ofMembers_iff.mpr ⟨CertPayload.mk cert.enc, cert.sig,
        Fields.next_ofMembers_iff.mpr ⟨CertPayload.mk, cert.enc, rfl, ?_, rfl⟩,
        ?_, rfl⟩, ?_, rfl⟩
    · exact hfield (by simp)
    · exact hfield (by simp)
    · exact hfield (by simp)

theorem isWhitespace_eq_false_of_mem {c : Char}
    (h : c ∈ '=' :: Library.Base64.alphabet) : isWhitespace c = false := by
  have hall : ('=' :: Library.Base64.alphabet).all (fun c => !isWhitespace c) = true := by
    decide +kernel
  have hblack := List.all_eq_true.mp hall c h
  rwa [Bool.not_eq_true'] at hblack

/-- Between markers that begin and end with a dash, the whitespace is stripped
and the body is found again. -/
theorem enveloped_wrap {c : Crates} {header footer : String} {cert : CertPayload}
    (hheader : header.toList.head? = some '-')
    (hfooter : footer.toList.getLast? = some '-') (spacing : Spacing)
    (text : CertText c.json cert) :
    Enveloped c header footer
      (spacing.wrap header footer (c.base64.encode text.bytes)) cert := by
  refine ⟨spacing.innerLeft ++ c.base64.encode text.bytes ++ spacing.innerRight,
    text.bytes, .object text.members, ?_, ?_, text.parse_bytes,
    text.deserialize_members⟩
  · exact trim_surround spacing.blank_outerLeft spacing.blank_outerRight
      (tight_bracket hheader hfooter (by decide) (by decide))
  · have htight : Tight (c.base64.encode text.bytes) :=
      tight_of_forall fun _ hmem =>
        isWhitespace_eq_false_of_mem (c.base64.mem_encode hmem)
    rw [trim_surround spacing.blank_innerLeft spacing.blank_innerRight htight,
      c.base64.decode_encode]

end Tamga.Wrapping
