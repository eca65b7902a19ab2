import Mathlib.Data.List.GetD
import Mathlib.Logic.Relation
import Tamga.Dependencies
import Tamga.Errors
import Tamga.Library.Canonical
import Tamga.Library.Text

namespace Tamga.Fingerprint

open Library.Prelude
open Library.Text
open Library.Canonical
open Tamga.Dependencies
open Tamga.Errors

def domain : String := "tamga-fingerprint-v1"

def unitSeparator : Char := '\x1f'

def asciiWhitespace : List Char := [' ', '\t', '\r', '\n', '\x0b', '\x0c']

def validateLabel (label : String) : Except FingerprintError Unit :=
  if label = "" then .error .emptyLabel
  else if label.toList.all fun c => isAsciiGraphic c && c != '=' then .ok ()
  else .error (.invalidLabel label)

/-- One turn of the loop: the part that a component adds. -/
def part (seenLabels : List String) (label value : String) :
    Except FingerprintError String := do
  validateLabel label
  if label ∈ seenLabels then .error (.duplicateLabel label) else
  -- trimmed before it is checked, so that a tab at its end is no fault
  let value := trimMatches asciiWhitespace.contains value
  if value.toList.any isAsciiControl then .error (.controlCharacterInValue label) else
  return label ++ "=" ++ value

def parts (seenLabels : List String) :
    List (String × String) → Except FingerprintError (List String)
  | [] => .ok []
  | (label, value) :: components => do
      let first ← part seenLabels label value
      let rest ← parts (label :: seenLabels) components
      return first :: rest

def canonical (components : List (String × String)) : Except FingerprintError String := do
  let parts ← parts [] components
  if parts.isEmpty then .error .noComponents else
  return domain ++
    String.join ((sortUnstable parts).map fun part => unitSeparator.toString ++ part)

def hex : List Char := "0123456789abcdef".toList

def hexByte (byte : UInt8) : List Char :=
  [hex.getD (byte >>> 4).toNat ' ', hex.getD (byte &&& 0x0f).toNat ' ']

def compute (C : Crates) (components : List (String × String)) :
    Except FingerprintError String := do
  let canonical ← canonical components
  let digest := C.sha256 (asBytes canonical)
  return String.ofList (digest.val.flatMap hexByte)

example : canonical [("a", " 1\t"), ("Z", "2")] =
    .ok "tamga-fingerprint-v1\x1fZ=2\x1fa=1" := by decide

def trimmed (component : String × String) : String × String :=
  (component.1, trimMatches asciiWhitespace.contains component.2)

/-- What a list of components is about: the value of each label, up to ASCII
whitespace around it. -/
def componentMap (components : List (String × String)) : String → Option String :=
  mapOf (components.map trimmed)

def ValidLabel (label : String) : Prop :=
  label ≠ "" ∧ ∀ c ∈ label.toList, isAsciiGraphic c = true ∧ c ≠ '='

def CleanValue (value : String) : Prop :=
  ∀ c ∈ value.toList, isAsciiControl c = false

/-- Components that pass every check, given the labels seen before them. -/
structure Accepted (seenLabels : List String) (entries : List (String × String)) : Prop where
  labels : ∀ entry ∈ entries, ValidLabel entry.1
  values : ∀ entry ∈ entries, CleanValue entry.2
  fresh : ∀ entry ∈ entries, entry.1 ∉ seenLabels
  distinct : (entries.map Prod.fst).Nodup

def spelled (entry : String × String) : String := entry.1 ++ "=" ++ entry.2

/-- The canonical string of checked and trimmed components. -/
def encode (entries : List (String × String)) : String :=
  domain ++ String.join
    ((sortUnstable (entries.map spelled)).map fun part => unitSeparator.toString ++ part)

theorem validateLabel_eq_ok_iff {label : String} {result : Unit} :
    validateLabel label = .ok result ↔ ValidLabel label := by
  rw [validateLabel, ValidLabel]
  split
  next hempty => simp [hempty]
  next hne =>
    split
    next hall =>
      simp only [List.all_eq_true, Bool.and_eq_true, bne_iff_ne] at hall
      simp only [true_iff]
      exact ⟨hne, hall⟩
    next hall =>
      simp only [List.all_eq_true, Bool.and_eq_true, bne_iff_ne] at hall
      simp only [reduceCtorEq, false_iff]
      exact fun hvalid => hall hvalid.2

theorem part_eq_ok_iff {seenLabels : List String} {component : String × String}
    {text : String} :
    part seenLabels component.1 component.2 = .ok text ↔
      ValidLabel component.1 ∧ component.1 ∉ seenLabels ∧
        CleanValue (trimmed component).2 ∧ text = spelled (trimmed component) := by
  simp only [part, bind_eq_ok_iff, validateLabel_eq_ok_iff, exists_and_left, exists_const]
  apply and_congr_right
  intro _
  split
  next hseen => simp [hseen]
  next hfresh =>
    simp only [hfresh, not_false_eq_true, true_and]
    split
    next hcontrol =>
      simp only [List.any_eq_true] at hcontrol
      obtain ⟨c, hc, hcontrol⟩ := hcontrol
      simp only [reduceCtorEq, false_iff, not_and]
      intro hclean
      exact absurd hcontrol (by simp [hclean c hc])
    next hclean =>
      have hvalue : CleanValue (trimmed component).2 := by
        intro c hc
        by_contra hcontrol
        exact hclean (List.any_eq_true.mpr ⟨c, hc, by simpa using hcontrol⟩)
      simp only [pure, Except.pure, Except.ok.injEq, hvalue, true_and]
      exact eq_comm

theorem accepted_cons_iff {seenLabels : List String} {entry : String × String}
    {entries : List (String × String)} :
    Accepted seenLabels (entry :: entries) ↔
      (ValidLabel entry.1 ∧ entry.1 ∉ seenLabels ∧ CleanValue entry.2) ∧
        Accepted (entry.1 :: seenLabels) entries := by
  constructor
  · rintro ⟨hlabels, hvalues, hfresh, hdistinct⟩
    rw [List.map_cons, List.nodup_cons] at hdistinct
    refine ⟨⟨hlabels _ List.mem_cons_self, hfresh _ List.mem_cons_self,
      hvalues _ List.mem_cons_self⟩, ?_, ?_, ?_, hdistinct.2⟩
    · exact fun other hmem => hlabels other (List.mem_cons_of_mem _ hmem)
    · exact fun other hmem => hvalues other (List.mem_cons_of_mem _ hmem)
    · intro other hmem hseen
      rcases List.mem_cons.mp hseen with heq | hseen
      · exact hdistinct.1 (heq ▸ List.mem_map_of_mem hmem)
      · exact hfresh other (List.mem_cons_of_mem _ hmem) hseen
  · rintro ⟨⟨hlabel, hnew, hvalue⟩, hlabels, hvalues, hfresh, hdistinct⟩
    refine ⟨?_, ?_, ?_, ?_⟩
    · exact List.forall_mem_cons.mpr ⟨hlabel, hlabels⟩
    · exact List.forall_mem_cons.mpr ⟨hvalue, hvalues⟩
    · refine List.forall_mem_cons.mpr ⟨hnew, fun other hmem hseen => ?_⟩
      exact hfresh other hmem (List.mem_cons_of_mem _ hseen)
    · rw [List.map_cons, List.nodup_cons]
      refine ⟨fun hmem => ?_, hdistinct⟩
      obtain ⟨other, hother, heq⟩ := List.mem_map.mp hmem
      exact hfresh other hother (heq ▸ List.mem_cons_self)

theorem parts_eq_ok_iff {seenLabels : List String} {components : List (String × String)}
    {texts : List String} :
    parts seenLabels components = .ok texts ↔
      Accepted seenLabels (components.map trimmed) ∧
        texts = (components.map trimmed).map spelled := by
  induction components generalizing seenLabels texts with
  | nil =>
      have hnil : Accepted seenLabels [] := ⟨by simp, by simp, by simp, by simp⟩
      simp [parts, hnil, eq_comm]
  | cons component components ih =>
      simp only [parts, bind_eq_ok_iff, part_eq_ok_iff, ih, List.map_cons, accepted_cons_iff,
        pure, Except.pure, Except.ok.injEq]
      constructor
      · rintro ⟨first, ⟨hlabel, hnew, hvalue, rfl⟩, rest, ⟨haccepted, rfl⟩, rfl⟩
        exact ⟨⟨⟨hlabel, hnew, hvalue⟩, haccepted⟩, rfl⟩
      · rintro ⟨⟨⟨hlabel, hnew, hvalue⟩, haccepted⟩, rfl⟩
        exact ⟨_, ⟨hlabel, hnew, hvalue, rfl⟩, _, ⟨haccepted, rfl⟩, rfl⟩

theorem canonical_eq_ok_iff {components : List (String × String)} {text : String} :
    canonical components = .ok text ↔
      components ≠ [] ∧ Accepted [] (components.map trimmed) ∧
        text = encode (components.map trimmed) := by
  simp only [canonical, bind_eq_ok_iff, parts_eq_ok_iff]
  constructor
  · rintro ⟨texts, ⟨haccepted, rfl⟩, htext⟩
    cases components with
    | nil => simp at htext
    | cons component components =>
        refine ⟨by simp, haccepted, ?_⟩
        simpa [pure, Except.pure, encode, eq_comm] using htext
  · rintro ⟨hne, haccepted, rfl⟩
    refine ⟨_, ⟨haccepted, rfl⟩, ?_⟩
    simp [hne, pure, Except.pure, encode]

theorem Accepted.perm {seenLabels : List String} {a b : List (String × String)}
    (h : a.Perm b) (ha : Accepted seenLabels a) : Accepted seenLabels b where
  labels := fun entry hmem => ha.labels entry (h.mem_iff.mpr hmem)
  values := fun entry hmem => ha.values entry (h.mem_iff.mpr hmem)
  fresh := fun entry hmem => ha.fresh entry (h.mem_iff.mpr hmem)
  distinct := (h.map Prod.fst).nodup_iff.mp ha.distinct

section Injectivity

theorem unitSeparator_not_mem_spelled {entry : String × String}
    (hlabel : ValidLabel entry.1) (hvalue : CleanValue entry.2) :
    unitSeparator ∉ (spelled entry).toList := by
  simp only [spelled, String.toList_append, List.mem_append, not_or]
  refine ⟨⟨fun hmem => ?_, by decide⟩, fun hmem => ?_⟩
  · exact absurd (hlabel.2 _ hmem).1 (by decide)
  · exact absurd (hvalue _ hmem) (by decide)

theorem splitOnce_spelled {entry : String × String} (hlabel : ValidLabel entry.1) :
    splitOnce (spelled entry) '=' = some entry := by
  apply splitOnce_eq_some_iff.mpr
  refine ⟨by simp [spelled], fun hmem => ?_⟩
  exact (hlabel.2 _ hmem).2 rfl

theorem map_splitOnce_spelled {seenLabels : List String} {entries : List (String × String)}
    (h : Accepted seenLabels entries) :
    (entries.map spelled).map (splitOnce · '=') = entries.map some := by
  rw [List.map_map]
  apply List.map_congr_left
  intro entry hmem
  exact splitOnce_spelled (h.labels entry hmem)

theorem exists_of_mem_sortUnstable {entries : List (String × String)} {text : String}
    (h : text ∈ sortUnstable (entries.map spelled)) : ∃ entry ∈ entries, spelled entry = text :=
  List.mem_map.mp ((sortUnstable_perm _).mem_iff.mp h)

theorem Accepted.unitSeparator_not_mem {seenLabels : List String}
    {entries : List (String × String)} (h : Accepted seenLabels entries) :
    ∀ block ∈ (sortUnstable (entries.map spelled)).map String.toList,
      unitSeparator ∉ block := by
  intro block hblock
  obtain ⟨text, htext, rfl⟩ := List.mem_map.mp hblock
  obtain ⟨entry, hentry, rfl⟩ := exists_of_mem_sortUnstable htext
  exact unitSeparator_not_mem_spelled (h.labels entry hentry) (h.values entry hentry)

theorem toList_encode (entries : List (String × String)) :
    (encode entries).toList = domain.toList ++ frame unitSeparator
      ((sortUnstable (entries.map spelled)).map String.toList) := by
  simp [encode, frame, List.flatMap_map, String.toList_append]

/-- The canonical string forgets the order of the components and nothing else. -/
theorem encode_eq_iff {a b : List (String × String)}
    (ha : Accepted [] a) (hb : Accepted [] b) : encode a = encode b ↔ a.Perm b := by
  constructor
  · intro h
    have hframes := congrArg String.toList h
    rw [toList_encode, toList_encode] at hframes
    have hblocks := frame_injective ha.unitSeparator_not_mem hb.unitSeparator_not_mem
      (List.append_cancel_left hframes)
    have htexts := List.map_injective_iff.mpr (fun _ _ => String.toList_inj.mp) hblocks
    have hspelled := (sortUnstable_eq_iff.mp htexts).map (splitOnce · '=')
    rw [map_splitOnce_spelled ha, map_splitOnce_spelled hb] at hspelled
    exact (List.map_perm_map_iff (Option.some_injective _)).mp hspelled
  · intro h
    rw [encode, encode, sortUnstable_eq_iff.mpr (h.map spelled)]

end Injectivity

theorem canonical_eq_iff {a b : List (String × String)} {textA textB : String}
    (ha : canonical a = .ok textA) (hb : canonical b = .ok textB) :
    textA = textB ↔ componentMap a = componentMap b := by
  obtain ⟨-, haccepted, rfl⟩ := canonical_eq_ok_iff.mp ha
  obtain ⟨-, hbaccepted, rfl⟩ := canonical_eq_ok_iff.mp hb
  rw [encode_eq_iff haccepted hbaccepted, componentMap, componentMap,
    mapOf_eq_iff_perm haccepted.distinct hbaccepted.distinct]

theorem canonical_perm {a b : List (String × String)} {text : String} (h : a.Perm b)
    (ha : canonical a = .ok text) : canonical b = .ok text := by
  obtain ⟨hne, haccepted, rfl⟩ := canonical_eq_ok_iff.mp ha
  have htrimmed : (a.map trimmed).Perm (b.map trimmed) := h.map trimmed
  apply canonical_eq_ok_iff.mpr
  refine ⟨?_, haccepted.perm htrimmed, ?_⟩
  · rintro rfl
    exact hne h.eq_nil
  · exact (encode_eq_iff haccepted (haccepted.perm htrimmed)).mpr htrimmed

def Padding (value padded : String) : Prop :=
  ∃ left right : String, (∀ c ∈ left.toList, c ∈ asciiWhitespace) ∧
    (∀ c ∈ right.toList, c ∈ asciiWhitespace) ∧ padded = left ++ value ++ right

/-- What a caller may do to the components without changing the machine: list
them in another order, or put whitespace around their values. -/
inductive Rearranged (a b : List (String × String)) : Prop where
  | permuted (h : a.Perm b)
  | padded (h : List.Forall₂ (fun c d => c.1 = d.1 ∧ Padding c.2 d.2) a b)

theorem trimmed_of_padding {value padded : String} (h : Padding value padded) :
    trimMatches asciiWhitespace.contains padded =
      trimMatches asciiWhitespace.contains value := by
  obtain ⟨left, right, hleft, hright, rfl⟩ := h
  apply trimMatches_surround
  · exact fun c hc => List.contains_iff_mem.mpr (hleft c hc)
  · exact fun c hc => List.contains_iff_mem.mpr (hright c hc)

theorem map_trimmed_of_padded {a b : List (String × String)}
    (h : List.Forall₂ (fun c d => c.1 = d.1 ∧ Padding c.2 d.2) a b) :
    a.map trimmed = b.map trimmed := by
  induction h with
  | nil => rfl
  | cons hhead _ ih =>
      rw [List.map_cons, List.map_cons, ih, trimmed, trimmed, hhead.1,
        trimmed_of_padding hhead.2]

theorem canonical_rearranged {a b : List (String × String)} {text : String}
    (h : Rearranged a b) : canonical a = .ok text ↔ canonical b = .ok text := by
  cases h with
  | permuted h =>
      constructor
      · exact canonical_perm h
      · exact canonical_perm h.symm
  | padded h =>
      have hlength : a = [] ↔ b = [] := by
        rw [← List.length_eq_zero_iff, h.length_eq, List.length_eq_zero_iff]
      rw [canonical_eq_ok_iff, canonical_eq_ok_iff, map_trimmed_of_padded h, ne_eq, ne_eq,
        hlength]

theorem canonical_of_rearrangements {a b : List (String × String)}
    (h : Relation.EqvGen Rearranged a b) (text : String) :
    canonical a = .ok text ↔ canonical b = .ok text := by
  induction h with
  | rel _ _ h => exact canonical_rearranged h
  | refl _ => exact Iff.rfl
  | symm _ _ _ ih => exact ih.symm
  | trans _ _ _ _ _ ih₁ ih₂ => exact ih₁.trans ih₂

section Hex

theorem length_hexByte (byte : UInt8) : (hexByte byte).length = 2 := rfl

theorem getD_hex_mem {n : Nat} (h : n < 16) : hex.getD n ' ' ∈ hex := by
  rw [List.getD_eq_getElem hex ' ' (show n < hex.length from h)]
  exact List.getElem_mem _

theorem getD_hex_inj {m n : Nat} (hm : m < 16) (hn : n < 16)
    (h : hex.getD m ' ' = hex.getD n ' ') : m = n := by
  have hdistinct : hex.Nodup := by decide
  rw [List.getD_eq_getElem hex ' ' (show m < hex.length from hm),
    List.getD_eq_getElem hex ' ' (show n < hex.length from hn)] at h
  exact (hdistinct.getElem_inj_iff).mp h

theorem toNat_high (byte : UInt8) : (byte >>> 4).toNat = byte.toNat / 16 := by
  rw [UInt8.toNat_shiftRight]
  exact Nat.shiftRight_eq_div_pow byte.toNat 4

theorem toNat_low (byte : UInt8) : (byte &&& 0x0f).toNat = byte.toNat % 16 := by
  rw [UInt8.toNat_and]
  exact Nat.and_two_pow_sub_one_eq_mod byte.toNat 4

theorem mem_hexByte {byte : UInt8} {c : Char} (h : c ∈ hexByte byte) : c ∈ hex := by
  have hbyte := byte.toNat_lt
  simp only [hexByte, List.mem_cons, List.not_mem_nil, or_false, toNat_high, toNat_low] at h
  rcases h with rfl | rfl
  · exact getD_hex_mem (by omega)
  · exact getD_hex_mem (by omega)

theorem hexByte_injective {a b : UInt8} (h : hexByte a = hexByte b) : a = b := by
  have ha := a.toNat_lt
  have hb := b.toNat_lt
  simp only [hexByte, List.cons.injEq, and_true, toNat_high, toNat_low] at h
  have hhigh := getD_hex_inj (by omega) (by omega) h.1
  have hlow := getD_hex_inj (by omega) (by omega) h.2
  apply UInt8.toNat_inj.mp
  omega

theorem flatMap_hexByte_injective {a b : List UInt8}
    (h : a.flatMap hexByte = b.flatMap hexByte) : a = b := by
  induction a generalizing b with
  | nil =>
      cases b with
      | nil => rfl
      | cons y b => simp [hexByte] at h
  | cons x a ih =>
      cases b with
      | nil => simp [hexByte] at h
      | cons y b =>
          rw [List.flatMap_cons, List.flatMap_cons] at h
          obtain ⟨hhead, hrest⟩ := List.append_inj h rfl
          rw [hexByte_injective hhead, ih hrest]

end Hex

theorem compute_eq_ok_iff (C : Crates) {components : List (String × String)}
    {fingerprint : String} :
    compute C components = .ok fingerprint ↔ ∃ text, canonical components = .ok text ∧
      fingerprint = String.ofList ((C.sha256 (asBytes text)).val.flatMap hexByte) := by
  simp only [compute, bind_eq_ok_iff, pure, Except.pure, Except.ok.injEq]
  simp only [eq_comm]

theorem fingerprint_shape (digest : Octets 32) :
    (String.ofList (digest.val.flatMap hexByte)).length = 64 ∧
      ∀ c ∈ (String.ofList (digest.val.flatMap hexByte)).toList, c ∈ hex := by
  constructor
  · simp [List.length_flatMap, length_hexByte, digest.property]
  · intro c hc
    rw [String.toList_ofList, List.mem_flatMap] at hc
    obtain ⟨byte, -, hbyte⟩ := hc
    exact mem_hexByte hbyte

theorem digest_of_fingerprint {d e : Octets 32}
    (h : String.ofList (d.val.flatMap hexByte) = String.ofList (e.val.flatMap hexByte)) :
    d = e :=
  Subtype.ext (flatMap_hexByte_injective (String.ofList_inj.mp h))

/-- The canonical string and the fingerprint stand for the map from labels to
trimmed values.  That SHA-256 does not collide is asked of the two strings
hashed, since no function to 32 octets is injective. -/
theorem fingerprint_identifies_components (C : Crates) :
    (∀ a b textA textB, canonical a = .ok textA → canonical b = .ok textB →
      (textA = textB ↔ componentMap a = componentMap b)) ∧
    (∀ a b, Relation.EqvGen Rearranged a b →
      ∀ text, canonical a = .ok text ↔ canonical b = .ok text) ∧
    (∀ a b textA textB, canonical a = .ok textA → canonical b = .ok textB →
      (C.sha256 (asBytes textA) = C.sha256 (asBytes textB) →
        asBytes textA = asBytes textB) →
      (compute C a = compute C b ↔ componentMap a = componentMap b)) ∧
    (∀ a fingerprint, compute C a = .ok fingerprint →
      fingerprint.length = 64 ∧ (∀ c ∈ fingerprint.toList, c ∈ "0123456789abcdef".toList) ∧
      ∀ b textA textB, canonical a = .ok textA → canonical b = .ok textB →
        compute C b = .ok fingerprint →
        C.sha256 (asBytes textA) = C.sha256 (asBytes textB)) := by
  refine ⟨fun a b textA textB => canonical_eq_iff, fun a b => canonical_of_rearrangements,
    ?_, ?_⟩
  · intro a b textA textB ha hb hcollision
    have hcomputeA := (compute_eq_ok_iff C).mpr ⟨textA, ha, rfl⟩
    have hcomputeB := (compute_eq_ok_iff C).mpr ⟨textB, hb, rfl⟩
    rw [← canonical_eq_iff ha hb, hcomputeA, hcomputeB, Except.ok.injEq]
    constructor
    · intro h
      exact asBytes_inj.mp (hcollision (digest_of_fingerprint h))
    · rintro rfl
      rfl
  · intro a fingerprint h
    obtain ⟨text, htext, rfl⟩ := (compute_eq_ok_iff C).mp h
    refine ⟨(fingerprint_shape _).1, (fingerprint_shape _).2, ?_⟩
    intro b textA textB ha hb hcompute
    obtain ⟨other, hother, hsame⟩ := (compute_eq_ok_iff C).mp hcompute
    rw [htext] at ha
    rw [hother] at hb
    cases ha
    cases hb
    exact digest_of_fingerprint hsame

end Tamga.Fingerprint
