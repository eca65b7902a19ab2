import Mathlib.Data.List.Basic
import Mathlib.Logic.Relation

namespace Library.Paging

variable {α : Type}

def page (size : Nat) (rows : List α) (k : Nat) : List α :=
  (rows.drop (size * k)).take size

def pageCount (size : Nat) (rows : List α) : Nat := (rows.length + (size - 1)) / size

section Fixed

variable {size : Nat} {rows : List α} {p : α → Bool}

theorem lt_pageCount_iff (hsize : 0 < size) {k : Nat} :
    k < pageCount size rows ↔ size * k < rows.length := by
  rw [pageCount, Nat.lt_iff_add_one_le, Nat.le_div_iff_mul_le hsize, Nat.mul_comm, Nat.mul_add]
  omega

theorem take_succ_page (k : Nat) :
    rows.take (size * (k + 1)) = rows.take (size * k) ++ page size rows k := by
  rw [Nat.mul_add, Nat.mul_one, List.take_add, page]

theorem page_append {k : Nat} {front : List α} (h : front.length = size * k) (back : List α) :
    page size (front ++ back) k = back.take size := by
  rw [page, ← h, List.drop_left]

theorem mem_page {k i : Nat} {row : α} (hrow : rows[i]? = some row) (hlow : size * k ≤ i)
    (hhigh : i < size * (k + 1)) : row ∈ page size rows k := by
  rw [Nat.mul_add, Nat.mul_one] at hhigh
  refine List.mem_iff_getElem?.mpr ⟨i - size * k, ?_⟩
  rw [page, List.getElem?_take_of_lt (by omega), List.getElem?_drop,
    Nat.add_sub_cancel' hlow, hrow]

theorem find?_take_eq_none {k : Nat} (h : ∀ i < k, (page size rows i).find? p = none) :
    (rows.take (size * k)).find? p = none := by
  induction k with
  | zero => rfl
  | succ k ih =>
      rw [take_succ_page, List.find?_append, ih fun i hi => h i (Nat.lt_succ_of_lt hi),
        h k (Nat.lt_succ_self k)]
      rfl

/-- The first match of a list is the first match of the first page that has one. -/
theorem find?_eq_some_of_page {k : Nat} {row : α}
    (h : ∀ i < k, (page size rows i).find? p = none)
    (hrow : (page size rows k).find? p = some row) : rows.find? p = some row := by
  rw [← List.take_append_drop (size * (k + 1)) rows, List.find?_append, take_succ_page,
    List.find?_append, find?_take_eq_none h, hrow]
  rfl

theorem find?_eq_none_of_pages {k : Nat} (h : ∀ i < k, (page size rows i).find? p = none)
    (hlast : rows.length ≤ size * k) : rows.find? p = none := by
  have hnone := find?_take_eq_none h
  rwa [List.take_of_length_le hlast] at hnone

end Fixed

section Changing

/-- What stands before and after one row of a list. -/
structure Around (α : Type) where
  before : List α
  after : List α

def Around.rows (around : Around α) (row : α) : List α := around.before ++ row :: around.after

inductive Change : Around α → Around α → Prop
  | insertBefore (front back after : List α) (other : α) :
      Change ⟨front ++ back, after⟩ ⟨front ++ other :: back, after⟩
  | deleteBefore (front back after : List α) (other : α) :
      Change ⟨front ++ other :: back, after⟩ ⟨front ++ back, after⟩
  | insertAfter (before front back : List α) (other : α) :
      Change ⟨before, front ++ back⟩ ⟨before, front ++ other :: back⟩
  | deleteAfter (before front back : List α) (other : α) :
      Change ⟨before, front ++ other :: back⟩ ⟨before, front ++ back⟩

/-- The change takes a row from before the one that stands first among the rows
that are still to be read: that one moves onto what was read already. -/
def Skips (read : Nat) (a b : Around α) : Prop :=
  a.before.length = read ∧ b.before.length < read

/-- The changes that leave the row ahead of the reader. -/
def Spares (read : Nat) (a b : Around α) : Prop := Change a b ∧ ¬ Skips read a b

variable {read : Nat} {a b : Around α}

theorem Change.length_before_le (h : Change a b) :
    a.before.length ≤ b.before.length + 1 := by
  cases h <;> simp only [List.length_append, List.length_cons] <;> omega

theorem Spares.ahead (h : Spares read a b) (ha : read ≤ a.before.length) :
    read ≤ b.before.length := by
  have hstep := h.1.length_before_le
  by_contra hb
  exact h.2 ⟨by omega, by omega⟩

theorem ahead_of_spares (h : Relation.ReflTransGen (Spares read) a b)
    (ha : read ≤ a.before.length) : read ≤ b.before.length := by
  induction h with
  | refl => exact ha
  | tail _ hstep ih => exact hstep.ahead ih

theorem Around.getElem?_rows (around : Around α) (row : α) :
    (around.rows row)[around.before.length]? = some row := by
  rw [rows, List.getElem?_append_right (Nat.le_refl _), Nat.sub_self, List.getElem?_cons_zero]

theorem Around.length_rows (around : Around α) (row : α) :
    around.before.length < (around.rows row).length := by
  rw [rows, List.length_append, List.length_cons]
  omega

/-- A row ahead of the reader that is not on the page read next stays ahead, and
there is a page after that one. -/
theorem Around.ahead_of_not_mem_page {size k : Nat} (hsize : 0 < size) {around : Around α}
    {row : α} (hahead : size * k ≤ around.before.length)
    (hpage : row ∉ page size (around.rows row) k) :
    size * (k + 1) ≤ around.before.length ∧ k + 1 < pageCount size (around.rows row) := by
  have hnext : size * (k + 1) ≤ around.before.length := by
    by_contra hlt
    exact hpage (mem_page (around.getElem?_rows row) hahead (Nat.lt_of_not_le hlt))
  exact ⟨hnext, (lt_pageCount_iff hsize).mpr
    (Nat.lt_of_le_of_lt hnext (around.length_rows row))⟩

end Changing

section Numbers

/-- There are only so many numbers in an increasing list. -/
theorem add_length_le {first bound : Int} {numbers : List Int}
    (hincreasing : (first :: numbers).Pairwise (· < ·))
    (hbound : ∀ number ∈ numbers, number ≤ bound) :
    first + numbers.length ≤ max first bound := by
  induction numbers generalizing first with
  | nil =>
      rw [List.length_nil, Int.natCast_zero, Int.add_zero]
      exact Int.le_max_left first bound
  | cons next numbers ih =>
      obtain ⟨hfirst, hrest⟩ := List.pairwise_cons.mp hincreasing
      obtain ⟨hnext, hothers⟩ := List.forall_mem_cons.mp hbound
      have hlt : first < next := hfirst next List.mem_cons_self
      have hlength := ih hrest hothers
      rw [Int.max_eq_right hnext] at hlength
      rw [List.length_cons]
      omega

end Numbers

end Library.Paging
