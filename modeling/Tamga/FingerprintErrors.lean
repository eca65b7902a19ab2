import Tamga.Fingerprint
import Tamga.TableCrates

namespace Tamga.FingerprintErrors

open Library.Prelude
open Library.Text
open Tamga.Dependencies
open Tamga.Errors
open Tamga.Fingerprint
open Tamga.TableCrates

def LabelChar (c : Char) : Prop :=
  0x21 ≤ c.toNat ∧ c.toNat ≤ 0x7E ∧ c ≠ '='

instance : DecidablePred LabelChar := fun _ => inferInstanceAs (Decidable (_ ∧ _ ∧ _))

def ControlChar (c : Char) : Prop :=
  c.toNat ≤ 0x1F ∨ c.toNat = 0x7F

def Trims (value core : String) : Prop :=
  TrimsTo asciiWhitespace.contains value core

/-- How a component breaks a rule, given the labels before it, and the error that
says so. -/
inductive Offence (seenLabels : List String) (label value : String) : FingerprintError → Prop
  | emptyLabel (hempty : label = "") : Offence seenLabels label value .emptyLabel
  | invalidLabel (hne : label ≠ "") {c : Char} (hc : c ∈ label.toList)
      (hinvalid : ¬LabelChar c) : Offence seenLabels label value (.invalidLabel label)
  | duplicateLabel (hne : label ≠ "") (hvalid : ∀ c ∈ label.toList, LabelChar c)
      (hseen : label ∈ seenLabels) : Offence seenLabels label value (.duplicateLabel label)
  | controlCharacterInValue (hne : label ≠ "") (hvalid : ∀ c ∈ label.toList, LabelChar c)
      (hfresh : label ∉ seenLabels) {core : String} (htrim : Trims value core) {c : Char}
      (hc : c ∈ core.toList) (hcontrol : ControlChar c) :
      Offence seenLabels label value (.controlCharacterInValue label)

def labels (components : List (String × String)) : List String :=
  components.map Prod.fst

/-- The first component, in input order, that breaks a rule given the labels before
it breaks the one that `e` stands for. -/
inductive FirstOffence (components : List (String × String)) (e : FingerprintError) : Prop
  | intro {before after : List (String × String)} {label value : String}
      (hsplit : components = before ++ (label, value) :: after)
      (hbefore : ∀ front earlier back, before = front ++ earlier :: back →
        ∀ other, ¬Offence (labels front) earlier.1 earlier.2 other)
      (hoffence : Offence (labels before) label value e)

structure Acceptable (components : List (String × String)) : Prop where
  nonempty : components ≠ []
  labels_valid : ∀ component ∈ components,
    component.1 ≠ "" ∧ ∀ c ∈ component.1.toList, LabelChar c
  labels_distinct : (labels components).Nodup
  values_clean : ∀ component ∈ components,
    ∃ core, Trims component.2 core ∧ ∀ c ∈ core.toList, ¬ControlChar c

theorem validLabel_iff {label : String} :
    ValidLabel label ↔ label ≠ "" ∧ ∀ c ∈ label.toList, LabelChar c := by
  simp only [ValidLabel, isAsciiGraphic, LabelChar, Bool.and_eq_true, decide_eq_true_eq, and_assoc]

theorem cleanValue_iff {value : String} :
    CleanValue value ↔ ∀ c ∈ value.toList, ¬ControlChar c := by
  simp only [CleanValue, isAsciiControl, ControlChar, Bool.or_eq_false_iff, decide_eq_false_iff_not,
    beq_eq_false_iff_ne, not_or, ne_eq]

theorem trims_iff {component : String × String} {core : String} :
    Trims component.2 core ↔ core = (trimmed component).2 :=
  trimsTo_iff

theorem not_cleanValue_iff {component : String × String} :
    ¬CleanValue (trimmed component).2 ↔
      ∃ core, Trims component.2 core ∧ ∃ c ∈ core.toList, ControlChar c := by
  rw [cleanValue_iff]
  constructor
  · intro h
    push Not at h
    exact ⟨_, trims_iff.mpr rfl, h⟩
  · rintro ⟨core, htrim, c, hc, hcontrol⟩ hclean
    obtain rfl := trims_iff.mp htrim
    exact hclean c hc hcontrol

theorem validateLabel_eq_error_iff {label : String} {e : FingerprintError} :
    validateLabel label = .error e ↔
      (label = "" ∧ e = .emptyLabel) ∨
        (label ≠ "" ∧ e = .invalidLabel label ∧ ∃ c ∈ label.toList, ¬LabelChar c) := by
  rw [validateLabel]
  split
  next hempty => simp [hempty, eq_comm]
  next hne =>
    have hvalid : (label.toList.all fun c => isAsciiGraphic c && c != '=') = true ↔
        ∀ c ∈ label.toList, LabelChar c := by
      simp only [List.all_eq_true, Bool.and_eq_true, bne_iff_ne, isAsciiGraphic, LabelChar,
        decide_eq_true_eq, and_assoc]
    split
    next hall =>
      have hchars := hvalid.mp hall
      simp only [reduceCtorEq, hne, false_and, ne_eq, not_false_eq_true, true_and, false_or,
        false_iff, not_and]
      rintro - ⟨c, hc, hinvalid⟩
      exact hinvalid (hchars c hc)
    next hall =>
      rw [hvalid] at hall
      push Not at hall
      simp only [Except.error.injEq, hne, false_and, ne_eq, not_false_eq_true, true_and, false_or]
      constructor
      · rintro rfl
        exact ⟨rfl, hall⟩
      · rintro ⟨rfl, -⟩
        rfl

/-- One turn of the loop fails exactly on an offence. -/
theorem part_eq_error_iff {seenLabels : List String} {component : String × String}
    {e : FingerprintError} :
    part seenLabels component.1 component.2 = .error e ↔
      Offence seenLabels component.1 component.2 e := by
  rw [part, bind_eq_error_iff, validateLabel_eq_error_iff]
  simp only [validateLabel_eq_ok_iff, exists_const, validLabel_iff]
  constructor
  · rintro ((⟨hempty, rfl⟩ | ⟨hne, rfl, c, hc, hinvalid⟩) | ⟨⟨hne, hvalid⟩, h⟩)
    · exact .emptyLabel hempty
    · exact .invalidLabel hne hc hinvalid
    · split at h
      next hseen =>
        obtain rfl := Except.error.inj h
        exact .duplicateLabel hne hvalid hseen
      next hfresh =>
        split at h
        next hcontrol =>
          obtain rfl := Except.error.inj h
          have hclean : ¬CleanValue (trimmed component).2 := by
            intro hclean
            obtain ⟨c, hc, hcontrol⟩ := List.any_eq_true.mp hcontrol
            exact absurd hcontrol (by simp [hclean c hc])
          obtain ⟨core, htrim, c, hc, hcontrol⟩ := not_cleanValue_iff.mp hclean
          exact .controlCharacterInValue hne hvalid hfresh htrim hc hcontrol
        next => cases h
  · intro h
    cases h with
    | emptyLabel hempty => exact Or.inl (Or.inl ⟨hempty, rfl⟩)
    | invalidLabel hne hc hinvalid => exact Or.inl (Or.inr ⟨hne, rfl, _, hc, hinvalid⟩)
    | duplicateLabel hne hvalid hseen =>
        refine Or.inr ⟨⟨hne, hvalid⟩, ?_⟩
        rw [if_pos hseen]
    | controlCharacterInValue hne hvalid hfresh htrim hc hcontrol =>
        refine Or.inr ⟨⟨hne, hvalid⟩, ?_⟩
        rw [if_neg hfresh, if_pos]
        obtain rfl := trims_iff.mp htrim
        refine List.any_eq_true.mpr ⟨_, hc, ?_⟩
        simpa [isAsciiControl, ControlChar] using hcontrol

theorem Offence.congr {seenLabels seenLabels' : List String} {label value : String}
    {e : FingerprintError} (hseen : ∀ other, other ∈ seenLabels ↔ other ∈ seenLabels')
    (h : Offence seenLabels label value e) : Offence seenLabels' label value e := by
  cases h with
  | emptyLabel hempty => exact .emptyLabel hempty
  | invalidLabel hne hc hinvalid => exact .invalidLabel hne hc hinvalid
  | duplicateLabel hne hvalid hmem => exact .duplicateLabel hne hvalid ((hseen label).mp hmem)
  | controlCharacterInValue hne hvalid hfresh htrim hc hcontrol =>
      exact .controlCharacterInValue hne hvalid (mt (hseen label).mpr hfresh) htrim hc hcontrol

structure Offends (seenLabels : List String) (components : List (String × String))
    (e : FingerprintError) (before after : List (String × String)) (label value : String) :
    Prop where
  split : components = before ++ (label, value) :: after
  earlier : ∀ front component back, before = front ++ component :: back →
    ∀ other, ¬Offence (labels front ++ seenLabels) component.1 component.2 other
  offence : Offence (labels before ++ seenLabels) label value e

theorem mem_labels_cons_iff {component : String × String} {front : List (String × String)}
    {seenLabels : List String} (other : String) :
    other ∈ labels (component :: front) ++ seenLabels ↔
      other ∈ labels front ++ component.1 :: seenLabels := by
  simp only [labels, List.map_cons, List.cons_append, List.mem_cons, List.mem_append]
  exact or_left_comm

theorem offends_cons_iff {seenLabels : List String} {first : String × String}
    {components before after : List (String × String)} {e : FingerprintError}
    {label value : String} :
    Offends seenLabels (first :: components) e (first :: before) after label value ↔
      (∀ other, ¬Offence seenLabels first.1 first.2 other) ∧
        Offends (first.1 :: seenLabels) components e before after label value := by
  constructor
  · rintro ⟨hsplit, hearlier, hoffence⟩
    refine ⟨hearlier [] first before rfl, List.cons.inj hsplit |>.2, ?_,
      hoffence.congr mem_labels_cons_iff⟩
    rintro front component back rfl other hother
    exact hearlier (first :: front) component back rfl other
      (hother.congr fun name => (mem_labels_cons_iff name).symm)
  · rintro ⟨hfirst, rfl, hearlier, hoffence⟩
    refine ⟨rfl, ?_, hoffence.congr fun name => (mem_labels_cons_iff name).symm⟩
    intro front component back hbefore other hother
    cases front with
    | nil =>
        obtain ⟨rfl, -⟩ := List.cons.inj hbefore
        exact hfirst other hother
    | cons head front =>
        obtain ⟨rfl, hrest⟩ := List.cons.inj hbefore
        exact hearlier front component back hrest other (hother.congr mem_labels_cons_iff)

theorem parts_eq_error_iff {seenLabels : List String} {components : List (String × String)}
    {e : FingerprintError} :
    parts seenLabels components = .error e ↔
      ∃ before after label value, Offends seenLabels components e before after label value := by
  induction components generalizing seenLabels with
  | nil =>
      simp only [parts, reduceCtorEq, false_iff]
      rintro ⟨before, after, label, value, hsplit, -⟩
      simp at hsplit
  | cons first components ih =>
      have hstep : parts seenLabels (first :: components) = .error e ↔
          Offence seenLabels first.1 first.2 e ∨
            (∀ other, ¬Offence seenLabels first.1 first.2 other) ∧
              parts (first.1 :: seenLabels) components = .error e := by
        rw [parts, bind_eq_error_iff, part_eq_error_iff]
        apply or_congr_right
        cases hpart : part seenLabels first.1 first.2 with
        | error found =>
            simp only [reduceCtorEq, false_and, exists_false, false_iff, not_and]
            exact fun hnone => absurd (part_eq_error_iff.mp hpart) (hnone found)
        | ok text =>
            have hnone : ∀ other, ¬Offence seenLabels first.1 first.2 other := by
              intro other hother
              rw [← part_eq_error_iff, hpart] at hother
              cases hother
            simp only [Except.ok.injEq, exists_eq_left', hnone, not_false_eq_true, implies_true,
              true_and]
            rw [bind_eq_error_iff]
            simp [pure, Except.pure]
      rw [hstep, ih]
      constructor
      · rintro (hoffence | ⟨hnone, before, after, label, value, h⟩)
        · exact ⟨[], components, first.1, first.2, rfl, by simp, hoffence⟩
        · exact ⟨first :: before, after, label, value, offends_cons_iff.mpr ⟨hnone, h⟩⟩
      · rintro ⟨before, after, label, value, h⟩
        cases before with
        | nil =>
            obtain ⟨rfl, -⟩ := List.cons.inj h.split
            exact Or.inl h.offence
        | cons head before =>
            obtain ⟨rfl, -⟩ := List.cons.inj h.split
            obtain ⟨hnone, h⟩ := offends_cons_iff.mp h
            exact Or.inr ⟨hnone, before, after, label, value, h⟩

theorem firstOffence_iff {components : List (String × String)} {e : FingerprintError} :
    FirstOffence components e ↔ parts [] components = .error e := by
  rw [parts_eq_error_iff]
  constructor
  · rintro ⟨hsplit, hbefore, hoffence⟩
    refine ⟨_, _, _, _, hsplit, ?_, ?_⟩
    · simpa only [List.append_nil] using hbefore
    · simpa only [List.append_nil] using hoffence
  · rintro ⟨before, after, label, value, hsplit, hbefore, hoffence⟩
    simp only [List.append_nil] at hbefore hoffence
    exact .intro hsplit hbefore hoffence

theorem acceptable_iff {components : List (String × String)} :
    Acceptable components ↔ components ≠ [] ∧ Accepted [] (components.map trimmed) := by
  constructor
  · rintro ⟨hne, hlabels, hdistinct, hvalues⟩
    refine ⟨hne, ?_, ?_, by simp, ?_⟩
    · rintro entry hentry
      obtain ⟨component, hcomponent, rfl⟩ := List.mem_map.mp hentry
      exact validLabel_iff.mpr (hlabels component hcomponent)
    · rintro entry hentry
      obtain ⟨component, hcomponent, rfl⟩ := List.mem_map.mp hentry
      obtain ⟨core, htrim, hclean⟩ := hvalues component hcomponent
      obtain rfl := trims_iff.mp htrim
      exact cleanValue_iff.mpr hclean
    · rwa [List.map_map]
  · rintro ⟨hne, hlabels, hvalues, -, hdistinct⟩
    refine ⟨hne, ?_, ?_, ?_⟩
    · intro component hcomponent
      exact validLabel_iff.mp (hlabels (trimmed component) (List.mem_map_of_mem hcomponent))
    · rwa [List.map_map] at hdistinct
    · intro component hcomponent
      exact ⟨_, trims_iff.mpr rfl,
        cleanValue_iff.mp (hvalues (trimmed component) (List.mem_map_of_mem hcomponent))⟩

theorem canonical_eq_error_iff {components : List (String × String)} {e : FingerprintError} :
    canonical components = .error e ↔
      (components = [] ∧ e = .noComponents) ∨ parts [] components = .error e := by
  rw [canonical, bind_eq_error_iff, or_comm]
  apply or_congr_left
  constructor
  · rintro ⟨texts, hparts, h⟩
    split at h
    next hempty =>
      obtain ⟨-, rfl⟩ := parts_eq_ok_iff.mp hparts
      simp only [List.isEmpty_iff, List.map_eq_nil_iff] at hempty
      exact ⟨hempty, (Except.error.inj h).symm⟩
    next => cases h
  · rintro ⟨rfl, rfl⟩
    exact ⟨[], rfl, rfl⟩

/-- Components are accepted when they keep every rule; otherwise the error is that
of the first one that breaks a rule, and the digest adds none of its own. -/
theorem errors_attributed (C : Crates) :
    (∀ components, (∃ text, canonical components = .ok text) ↔ Acceptable components) ∧
    (∀ components, canonical components = .error .noComponents ↔ components = []) ∧
    (∀ components e, components ≠ [] →
      (canonical components = .error e ↔ FirstOffence components e)) ∧
    (∀ components e, compute C components = .error e ↔ canonical components = .error e) := by
  refine ⟨?_, ?_, ?_, ?_⟩
  · intro components
    rw [acceptable_iff]
    simp only [canonical_eq_ok_iff, exists_and_left, exists_eq, and_true]
  · intro components
    rw [canonical_eq_error_iff, ← firstOffence_iff]
    constructor
    · rintro (⟨hempty, -⟩ | ⟨-, -, hoffence⟩)
      · exact hempty
      · cases hoffence
    · intro hempty
      exact Or.inl ⟨hempty, rfl⟩
  · intro components e hne
    rw [canonical_eq_error_iff, firstOffence_iff]
    simp only [hne, false_and, false_or]
  · intro components e
    rw [compute, bind_eq_error_iff]
    simp [pure, Except.pure]

theorem errors_attributed_duplicate :
    canonical [("cpu", "\t1"), ("cpu", "\x00"), ("", "2")] = .error (.duplicateLabel "cpu") := by
  refine ((errors_attributed (tableCrates blankTables)).2.2.1 _ _ (List.cons_ne_nil _ _)).mpr ?_
  have hvalid : ∀ c ∈ "cpu".toList, LabelChar c := by
    refine List.forall_iff_forall_mem.mp ?_
    decide
  have hsplit : [("cpu", "\t1"), ("cpu", "\x00"), ("", "2")] =
      [("cpu", "\t1")] ++ ("cpu", "\x00") :: [("", "2")] := rfl
  refine .intro hsplit ?_ (.duplicateLabel (by decide) hvalid List.mem_cons_self)
  intro front earlier back hbefore other hother
  have hpasses : part [] "cpu" "\t1" = .ok "cpu=1" := by decide
  obtain ⟨rfl, rfl⟩ : front = [] ∧ earlier = ("cpu", "\t1") := by
    cases front <;> simp_all
  rw [← part_eq_error_iff] at hother
  exact absurd (hpasses.symm.trans hother) nofun

end Tamga.FingerprintErrors
