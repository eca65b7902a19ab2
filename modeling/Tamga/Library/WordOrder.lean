import Mathlib.Data.List.Basic

namespace Library.WordOrder

variable {α : Type} {x y : List α} {i : Nat} {c d : α}

/-- The words agree up to position `i`, where they go on with `c` and with `d`. -/
structure FirstDifference (x y : List α) (i : Nat) (c d : α) : Prop where
  before : x.take i = y.take i
  left : x[i]? = some c
  right : y[i]? = some d
  ne : c ≠ d

namespace FirstDifference

theorem symm (h : FirstDifference x y i c d) : FirstDifference y x i d c :=
  ⟨h.before.symm, h.right, h.left, h.ne.symm⟩

theorem of_append (common u v : List α) (h : c ≠ d) :
    FirstDifference (common ++ c :: u) (common ++ d :: v) common.length c d where
  before := by simp
  left := by simp
  right := by simp
  ne := h

theorem cons (e : α) (h : FirstDifference x y i c d) :
    FirstDifference (e :: x) (e :: y) (i + 1) c d where
  before := by rw [List.take_succ_cons, List.take_succ_cons, h.before]
  left := h.left
  right := h.right
  ne := h.ne

theorem eq_append (h : x[i]? = some c) : x = x.take i ++ c :: x.drop (i + 1) := by
  obtain ⟨hi, rfl⟩ := List.getElem?_eq_some_iff.mp h
  rw [← List.drop_eq_getElem_cons hi, List.take_append_drop]

theorem exists_common (h : FirstDifference x y i c d) :
    ∃ common u v, common.length = i ∧ x = common ++ c :: u ∧ y = common ++ d :: v := by
  obtain ⟨hi, -⟩ := List.getElem?_eq_some_iff.mp h.left
  refine ⟨x.take i, x.drop (i + 1), y.drop (i + 1), ?_, eq_append h.left, ?_⟩
  · exact List.length_take_of_le (Nat.le_of_lt hi)
  · rw [h.before]
    exact eq_append h.right

theorem append (h : FirstDifference x y i c d) (u v : List α) :
    FirstDifference (x ++ u) (y ++ v) i c d := by
  obtain ⟨common, s, t, rfl, rfl, rfl⟩ := h.exists_common
  rw [List.append_assoc, List.append_assoc]
  exact of_append common (s ++ u) (t ++ v) h.ne

theorem lt_length (h : FirstDifference x y i c d) : i < x.length :=
  (List.getElem?_eq_some_iff.mp h.left).1

end FirstDifference

/-- Two words differ somewhere, or one of them goes on where the other is over. -/
theorem firstDifference_or_extends (h : x ≠ y) :
    (∃ i c d, FirstDifference x y i c d) ∨ (∃ d v, y = x ++ d :: v) ∨
      ∃ c u, x = y ++ c :: u := by
  induction x generalizing y with
  | nil =>
      cases y with
      | nil => exact absurd rfl h
      | cons d v => exact Or.inr (Or.inl ⟨d, v, rfl⟩)
  | cons c x ih =>
      cases y with
      | nil => exact Or.inr (Or.inr ⟨c, x, rfl⟩)
      | cons d y =>
          by_cases hcd : c = d
          · subst hcd
            rcases ih (fun heq => h (congrArg _ heq)) with ⟨i, e, f, hfirst⟩ |
              ⟨e, v, rfl⟩ | ⟨e, u, rfl⟩
            · exact Or.inl ⟨i + 1, e, f, hfirst.cons c⟩
            · exact Or.inr (Or.inl ⟨e, v, rfl⟩)
            · exact Or.inr (Or.inr ⟨e, u, rfl⟩)
          · exact Or.inl ⟨0, c, d, .of_append [] x y hcd⟩

section Order

variable [LT α] [Std.Asymm (· < · : α → α → Prop)]

theorem append_lt_append_left_iff {common u v : List α} :
    common ++ u < common ++ v ↔ u < v := by
  induction common with
  | nil => rfl
  | cons c common ih => rw [List.cons_append, List.cons_append, List.cons_lt_cons_self, ih]

theorem FirstDifference.lt_iff (h : FirstDifference x y i c d) : x < y ↔ c < d := by
  obtain ⟨common, u, v, -, rfl, rfl⟩ := h.exists_common
  rw [append_lt_append_left_iff, List.cons_lt_cons_iff]
  exact or_iff_left fun hsame => h.ne hsame.1

theorem FirstDifference.le_iff (h : FirstDifference x y i c d) : x ≤ y ↔ ¬ d < c := by
  rw [← List.not_lt, h.symm.lt_iff]

/-- What comes after a difference does not change the order. -/
theorem FirstDifference.append_le_append_iff (h : FirstDifference x y i c d) (u v : List α) :
    x ++ u ≤ y ++ v ↔ x ≤ y := by
  rw [(h.append u v).le_iff, h.le_iff]

theorem lt_append_cons : x < x ++ d :: y := by
  have hnil : x ++ [] < x ++ d :: y := append_lt_append_left_iff.mpr (List.nil_lt_cons d y)
  rwa [List.append_nil] at hnil

end Order

section Terminated

variable {last : α}

theorem firstDifference_of_extends (hy : last ∉ x ++ d :: y) :
    FirstDifference (x ++ [last]) (x ++ d :: y ++ [last]) x.length last d := by
  have hne : last ≠ d := by
    rintro rfl
    exact hy (List.mem_append_right _ List.mem_cons_self)
  rw [List.append_assoc]
  exact .of_append x [] (y ++ [last]) hne

/-- Words that end alike, and only there, differ no later than where the shorter of
them ends. -/
theorem firstDifference_of_terminated (hx : last ∉ x) (hy : last ∉ y) (h : x ≠ y) :
    ∃ i c d, i ≤ min x.length y.length ∧
      FirstDifference (x ++ [last]) (y ++ [last]) i c d := by
  rcases firstDifference_or_extends h with ⟨i, c, d, hfirst⟩ | ⟨d, v, rfl⟩ | ⟨c, u, rfl⟩
  · have hleft := hfirst.lt_length
    have hright := hfirst.symm.lt_length
    exact ⟨i, c, d, by omega, hfirst.append _ _⟩
  · exact ⟨x.length, last, d, by simp, firstDifference_of_extends hy⟩
  · exact ⟨y.length, c, last, by simp, (firstDifference_of_extends hx).symm⟩

variable [LT α]

/-- `y` goes on after `x`, with a letter that comes before the last one. -/
def Overtakes (last : α) (x y : List α) : Prop :=
  ∃ d v, y = x ++ d :: v ∧ d < last

theorem overtakes_append_iff : Overtakes last x (x ++ d :: y) ↔ d < last := by
  constructor
  · rintro ⟨e, v, heq, hlt⟩
    obtain ⟨rfl, -⟩ := List.cons.inj (List.append_cancel_left heq)
    exact hlt
  · exact fun hlt => ⟨d, y, rfl, hlt⟩

theorem not_overtakes_append : ¬ Overtakes last (x ++ d :: y) x := by
  rintro ⟨e, v, heq, -⟩
  have hlength := congrArg List.length heq
  simp only [List.length_append, List.length_cons] at hlength
  omega

theorem FirstDifference.not_overtakes (h : FirstDifference x y i c d) :
    ¬ Overtakes last x y := by
  rintro ⟨e, v, rfl, -⟩
  have hright := h.right
  rw [List.getElem?_append_left h.lt_length, h.left] at hright
  exact h.ne (Option.some.inj hright)

variable [Std.Asymm (· < · : α → α → Prop)] [Std.Trichotomous (· < · : α → α → Prop)]

theorem not_lt_iff_of_ne (h : c ≠ d) : ¬ d < c ↔ c < d := by
  constructor
  · intro hnot
    by_contra hlt
    exact h (Std.Trichotomous.trichotomous c d hlt hnot)
  · exact fun hlt hgt => Std.Asymm.asymm _ _ hlt hgt

/-- The last letter changes the order of two words just where one of them is the
beginning of the other, which goes on with a letter before it. -/
theorem terminated_reorders_iff (hx : last ∉ x) (hy : last ∉ y) (h : x ≠ y) :
    ¬ (x ++ [last] ≤ y ++ [last] ↔ x ≤ y) ↔ Overtakes last x y ∨ Overtakes last y x := by
  rcases firstDifference_or_extends h with ⟨i, c, d, hfirst⟩ | ⟨d, v, rfl⟩ | ⟨c, u, rfl⟩
  · apply iff_of_false
    · exact not_not_intro (hfirst.append_le_append_iff _ _)
    · rintro (hover | hover)
      · exact hfirst.not_overtakes hover
      · exact hfirst.symm.not_overtakes hover
  · have hfirst := firstDifference_of_extends hy
    rw [overtakes_append_iff, or_iff_left not_overtakes_append, hfirst.le_iff,
      iff_true_intro List.le_append_left, iff_true, not_not]
  · have hfirst := (firstDifference_of_extends hx).symm
    have hlater : ¬ y ++ c :: u ≤ y := List.not_le.mpr lt_append_cons
    rw [overtakes_append_iff, or_iff_right not_overtakes_append, hfirst.le_iff,
      not_lt_iff_of_ne hfirst.ne, iff_false_intro hlater, iff_false, not_not]

end Terminated

end Library.WordOrder
