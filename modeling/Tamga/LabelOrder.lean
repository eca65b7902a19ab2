import Tamga.Fingerprint
import Tamga.Library.WordOrder

/-!
The order of the components in a canonical string.  The whole parts are sorted, but
no value ever has a say in it: the order is that of the labels with the `=` behind
them, which is not quite that of the labels.
-/

namespace Tamga.LabelOrder

open Library.Prelude
open Library.Text
open Library.Canonical
open Library.WordOrder
open Tamga.Fingerprint

def equalsSign : UInt8 := 0x3d

/-- Labels are compared with the `=` behind them. -/
def LabelLe (l m : String) : Prop := BytesLe (l ++ "=") (m ++ "=")

instance : DecidableRel LabelLe := fun _ _ => inferInstanceAs (Decidable (BytesLe _ _))

instance : Std.Total LabelLe := ⟨fun _ _ => Std.Total.total (r := BytesLe) _ _⟩

instance : IsTrans String LabelLe := ⟨fun _ _ _ => List.le_trans⟩

def labelOf (part : List Char) : String := String.ofList (part.takeWhile (· != '='))

def labelsIn (text : String) : List String :=
  ((text.toList.splitOn unitSeparator).drop 1).map labelOf

theorem LabelLe.antisymm {l m : String} (h : LabelLe l m) (h' : LabelLe m l) : l = m :=
  (String.append_left_inj "=").mp (BytesLe.antisymm h h')

section Bytes

variable {l : String}

theorem asBytes_label_append : asBytes (l ++ "=") = asBytes l ++ [equalsSign] :=
  asBytes_append l "="

theorem ascii_of_validLabel (h : ValidLabel l) : ∀ c ∈ l.toList, c.toNat < 0x80 := by
  intro c hc
  have hgraphic := (h.2 c hc).1
  simp only [isAsciiGraphic, Bool.and_eq_true, decide_eq_true_eq] at hgraphic
  omega

theorem lt_of_mem_label (h : ValidLabel l) {byte : UInt8} (hbyte : byte ∈ asBytes l) :
    byte < 0x80 := by
  obtain ⟨c, hc, hnat⟩ := exists_of_mem_asBytes (ascii_of_validLabel h) hbyte
  rw [UInt8.lt_iff_toNat_lt, hnat]
  exact ascii_of_validLabel h c hc

theorem lt_of_mem_closed (h : ValidLabel l) {byte : UInt8} (hbyte : byte ∈ asBytes (l ++ "=")) :
    byte < 0x80 := by
  rw [asBytes_label_append, List.mem_append, List.mem_singleton] at hbyte
  rcases hbyte with hbyte | rfl
  · exact lt_of_mem_label h hbyte
  · decide

theorem equalsSign_not_mem_label (h : ValidLabel l) : equalsSign ∉ asBytes l := by
  intro hmem
  obtain ⟨c, hc, hnat⟩ := exists_of_mem_asBytes (ascii_of_validLabel h) hmem
  have heq : c = '=' := Char.toNat_inj.mp hnat.symm
  exact (h.2 c hc).2 heq

end Bytes

section Pairs

variable {l m : String}

/-- Two parts differ within the labels or at the `=` behind the shorter of them,
whatever their values are. -/
theorem firstDifference_labels (hl : ValidLabel l) (hm : ValidLabel m) (h : l ≠ m) :
    ∃ i c d, i ≤ min (asBytes l).length (asBytes m).length ∧ c < 0x80 ∧ d < 0x80 ∧
      FirstDifference (asBytes (l ++ "=")) (asBytes (m ++ "=")) i c d := by
  obtain ⟨i, c, d, hi, hfirst⟩ := firstDifference_of_terminated (equalsSign_not_mem_label hl)
    (equalsSign_not_mem_label hm) fun heq => h (asBytes_inj.mp heq)
  rw [← asBytes_label_append, ← asBytes_label_append] at hfirst
  refine ⟨i, c, d, hi, ?_, ?_, hfirst⟩
  · exact lt_of_mem_closed hl (List.mem_of_getElem? hfirst.left)
  · exact lt_of_mem_closed hm (List.mem_of_getElem? hfirst.right)

theorem asBytes_spelled_eq_append (label value : String) :
    asBytes (spelled (label, value)) = asBytes (label ++ "=") ++ asBytes value :=
  asBytes_append (label ++ "=") value

theorem spelled_le_iff (hl : ValidLabel l) (hm : ValidLabel m) (h : l ≠ m) (v w : String) :
    BytesLe (spelled (l, v)) (spelled (m, w)) ↔ LabelLe l m := by
  obtain ⟨i, c, d, -, -, -, hfirst⟩ := firstDifference_labels hl hm h
  rw [BytesLe, asBytes_spelled_eq_append, asBytes_spelled_eq_append]
  exact hfirst.append_le_append_iff _ _

/-- The labels alone are sorted otherwise just where one of two is the beginning of
the other, which goes on with a byte before `=`. -/
theorem labelLe_reorders_iff (hl : ValidLabel l) (hm : ValidLabel m) (h : l ≠ m) :
    ¬ (LabelLe l m ↔ BytesLe l m) ↔
      Overtakes equalsSign (asBytes l) (asBytes m) ∨
        Overtakes equalsSign (asBytes m) (asBytes l) := by
  rw [LabelLe, BytesLe, BytesLe, asBytes_label_append, asBytes_label_append]
  exact terminated_reorders_iff (equalsSign_not_mem_label hl) (equalsSign_not_mem_label hm)
    fun heq => h (asBytes_inj.mp heq)

end Pairs

section Canonical

variable {entries : List (String × String)}

theorem labelOf_spelled {entry : String × String} (h : ValidLabel entry.1) :
    labelOf (spelled entry).toList = entry.1 := by
  have hlabel : ∀ c ∈ entry.1.toList, (c != '=') = true :=
    fun c hc => bne_iff_ne.mpr (h.2 c hc).2
  rw [labelOf, spelled, String.toList_append, String.toList_append, List.append_assoc,
    List.takeWhile_append_of_pos hlabel]
  simp

theorem labelsIn_encode (h : Accepted [] entries) :
    labelsIn (encode entries) =
      (sortUnstable (entries.map spelled)).map fun part => labelOf part.toList := by
  have hdomain : unitSeparator ∉ domain.toList := by decide
  rw [labelsIn, toList_encode, splitOn_append_frame hdomain h.unitSeparator_not_mem,
    List.drop_one, List.tail_cons, List.map_map]
  rfl

theorem perm_labelsIn_encode (h : Accepted [] entries) :
    (labelsIn (encode entries)).Perm (entries.map Prod.fst) := by
  have hlabels : (entries.map spelled).map (fun part => labelOf part.toList) =
      entries.map Prod.fst := by
    rw [List.map_map]
    apply List.map_congr_left
    intro entry hmem
    exact labelOf_spelled (h.labels entry hmem)
  rw [labelsIn_encode h, ← hlabels]
  exact (sortUnstable_perm _).map _

theorem pairwise_labelsIn_encode (h : Accepted [] entries) :
    (labelsIn (encode entries)).Pairwise LabelLe := by
  rw [labelsIn_encode h, List.pairwise_map]
  apply (List.pairwise_insertionSort BytesLe (entries.map spelled)).imp_of_mem
  intro part other hpart hother hle
  obtain ⟨entry, hentry, rfl⟩ := exists_of_mem_sortUnstable hpart
  obtain ⟨next, hnext, rfl⟩ := exists_of_mem_sortUnstable hother
  have hlabel := h.labels entry hentry
  have hnextLabel := h.labels next hnext
  rw [labelOf_spelled hlabel, labelOf_spelled hnextLabel]
  by_cases hsame : entry.1 = next.1
  · rw [hsame]
    exact List.le_refl _
  · exact (spelled_le_iff hlabel hnextLabel hsame entry.2 next.2).mp hle

/-- The labels come out as they are sorted by themselves, each with its `=`. -/
theorem labelsIn_encode_eq (h : Accepted [] entries) :
    labelsIn (encode entries) = (entries.map Prod.fst).insertionSort LabelLe := by
  have hperm := (perm_labelsIn_encode h).trans (List.perm_insertionSort LabelLe _).symm
  apply hperm.eq_of_pairwise
  · exact fun _ _ _ _ => LabelLe.antisymm
  · exact pairwise_labelsIn_encode h
  · exact List.pairwise_insertionSort LabelLe _

end Canonical

section Statement

variable {a b : List (String × String)} {text textA textB : String}

theorem map_fst_trimmed (components : List (String × String)) :
    (components.map trimmed).map Prod.fst = components.map Prod.fst := by
  rw [List.map_map]
  rfl

theorem labelsIn_canonical (ha : canonical a = .ok text) :
    labelsIn text = (a.map Prod.fst).insertionSort LabelLe := by
  obtain ⟨-, haccepted, rfl⟩ := canonical_eq_ok_iff.mp ha
  rw [labelsIn_encode_eq haccepted, map_fst_trimmed]

theorem nodup_labels (ha : canonical a = .ok text) : (a.map Prod.fst).Nodup := by
  obtain ⟨-, haccepted, -⟩ := canonical_eq_ok_iff.mp ha
  rw [← map_fst_trimmed]
  exact haccepted.distinct

theorem validLabel_of_mem (ha : canonical a = .ok text) {label : String}
    (h : label ∈ a.map Prod.fst) : ValidLabel label := by
  obtain ⟨-, haccepted, -⟩ := canonical_eq_ok_iff.mp ha
  rw [← map_fst_trimmed] at h
  obtain ⟨entry, hentry, rfl⟩ := List.mem_map.mp h
  exact haccepted.labels entry hentry

theorem labelsIn_eq_of_labels (ha : canonical a = .ok textA) (hb : canonical b = .ok textB)
    (h : ∀ label, label ∈ a.map Prod.fst ↔ label ∈ b.map Prod.fst) :
    labelsIn textA = labelsIn textB := by
  have hperm := (List.perm_ext_iff_of_nodup (nodup_labels ha) (nodup_labels hb)).mpr h
  rw [labelsIn_canonical ha, labelsIn_canonical hb]
  exact insertionSort_eq_of_perm hperm fun _ _ _ _ => LabelLe.antisymm

def StandsBefore (labels : List String) (l m : String) : Prop := [l, m].Sublist labels

theorem standsBefore_insertionSort_iff {r : String → String → Prop} [DecidableRel r]
    [Std.Total r] [IsTrans String r] (hanti : ∀ {l m}, r l m → r m l → l = m)
    {labels : List String} {l m : String} (hl : l ∈ labels) (hm : m ∈ labels) (h : l ≠ m) :
    StandsBefore (labels.insertionSort r) l m ↔ r l m :=
  pair_sublist_iff_of_pairwise (List.pairwise_insertionSort r labels) hanti
    ((List.mem_insertionSort r).mpr hl) ((List.mem_insertionSort r).mpr hm) h

theorem reordered_iff (ha : canonical a = .ok text) {l m : String} (hl : l ∈ a.map Prod.fst)
    (hm : m ∈ a.map Prod.fst) (h : l ≠ m) :
    ¬ (StandsBefore (labelsIn text) l m ↔
        StandsBefore ((a.map Prod.fst).insertionSort BytesLe) l m) ↔
      Overtakes equalsSign (asBytes l) (asBytes m) ∨
        Overtakes equalsSign (asBytes m) (asBytes l) := by
  rw [labelsIn_canonical ha, standsBefore_insertionSort_iff LabelLe.antisymm hl hm h,
    standsBefore_insertionSort_iff BytesLe.antisymm hl hm h]
  exact labelLe_reorders_iff (validLabel_of_mem ha hl) (validLabel_of_mem ha hm) h

/-- Values never decide the canonical order: the labels stand in the order that they
have with the `=` behind them, two parts differ first within the labels or at an `=`,
where both bytes are ASCII, and the order is that of the bare labels except where one
label is the beginning of another that goes on with a byte below `=`. -/
theorem values_never_decide_order :
    (∀ a text, canonical a = .ok text →
      labelsIn text = (a.map Prod.fst).insertionSort LabelLe) ∧
    (∀ a b textA textB, canonical a = .ok textA → canonical b = .ok textB →
      (∀ label, label ∈ a.map Prod.fst ↔ label ∈ b.map Prod.fst) →
        labelsIn textA = labelsIn textB) ∧
    (∀ l m v w, ValidLabel l → ValidLabel m → l ≠ m →
      (∃ i c d, i ≤ min (asBytes l).length (asBytes m).length ∧ c < 0x80 ∧ d < 0x80 ∧
        FirstDifference (asBytes (spelled (l, v))) (asBytes (spelled (m, w))) i c d) ∧
      (BytesLe (spelled (l, v)) (spelled (m, w)) ↔ LabelLe l m)) ∧
    (∀ a text, canonical a = .ok text →
      ∀ l ∈ a.map Prod.fst, ∀ m ∈ a.map Prod.fst, l ≠ m →
        (¬ (StandsBefore (labelsIn text) l m ↔
            StandsBefore ((a.map Prod.fst).insertionSort BytesLe) l m) ↔
          Overtakes equalsSign (asBytes l) (asBytes m) ∨
            Overtakes equalsSign (asBytes m) (asBytes l))) := by
  refine ⟨fun a text => labelsIn_canonical, fun a b textA textB => labelsIn_eq_of_labels,
    ?_, fun a text ha l hl m hm => reordered_iff ha hl hm⟩
  intro l m v w hl hm h
  refine ⟨?_, spelled_le_iff hl hm h v w⟩
  obtain ⟨i, c, d, hi, hc, hd, hfirst⟩ := firstDifference_labels hl hm h
  refine ⟨i, c, d, hi, hc, hd, ?_⟩
  rw [asBytes_spelled_eq_append, asBytes_spelled_eq_append]
  exact hfirst.append _ _

def diskComponents : List (String × String) := [("disk", "1"), ("disk-id", "2")]

def otherDiskComponents : List (String × String) := [("disk-id", "é"), ("disk", "0\t")]

/-- `-` comes before `=`, so that the longer label stands first. -/
theorem canonical_diskComponents :
    canonical diskComponents = .ok "tamga-fingerprint-v1\x1fdisk-id=2\x1fdisk=1" := by
  decide

theorem canonical_otherDiskComponents :
    canonical otherDiskComponents = .ok "tamga-fingerprint-v1\x1fdisk-id=é\x1fdisk=0" := by
  decide

theorem values_never_decide_order_recorded :
    labelsIn "tamga-fingerprint-v1\x1fdisk-id=2\x1fdisk=1" =
        ["disk", "disk-id"].insertionSort LabelLe ∧
    labelsIn "tamga-fingerprint-v1\x1fdisk-id=2\x1fdisk=1" =
        labelsIn "tamga-fingerprint-v1\x1fdisk-id=é\x1fdisk=0" ∧
    ((∃ i c d, i ≤ min (asBytes "disk").length (asBytes "disk-id").length ∧
        c < 0x80 ∧ d < 0x80 ∧
        FirstDifference (asBytes (spelled ("disk", "1"))) (asBytes (spelled ("disk-id", "é")))
          i c d) ∧
      (BytesLe (spelled ("disk", "1")) (spelled ("disk-id", "é")) ↔
        LabelLe "disk" "disk-id")) ∧
    (¬ (StandsBefore (labelsIn "tamga-fingerprint-v1\x1fdisk-id=2\x1fdisk=1") "disk" "disk-id" ↔
        StandsBefore (["disk", "disk-id"].insertionSort BytesLe) "disk" "disk-id") ↔
      Overtakes equalsSign (asBytes "disk") (asBytes "disk-id") ∨
        Overtakes equalsSign (asBytes "disk-id") (asBytes "disk")) := by
  obtain ⟨hlabels, hsame, hpair, horder⟩ := values_never_decide_order
  refine ⟨hlabels _ _ canonical_diskComponents,
    hsame _ _ _ _ canonical_diskComponents canonical_otherDiskComponents ?_, ?_, ?_⟩
  · intro label
    simp [diskComponents, otherDiskComponents, or_comm]
  · have hdisk := validLabel_of_mem canonical_diskComponents List.mem_cons_self
    have hdiskId := validLabel_of_mem canonical_otherDiskComponents List.mem_cons_self
    exact hpair _ _ "1" "é" hdisk hdiskId (by decide)
  · exact horder _ _ canonical_diskComponents "disk" (by decide) "disk-id" (by decide) (by decide)

example : labelsIn "tamga-fingerprint-v1\x1fdisk-id=2\x1fdisk=1" = ["disk-id", "disk"] := by decide

end Statement

end Tamga.LabelOrder
