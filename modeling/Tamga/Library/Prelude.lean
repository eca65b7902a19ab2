import Mathlib.Data.List.Basic

namespace Library.Prelude

/-- `Option::ok_or`. -/
def okOr {α ε : Type} (value : Option α) (error : ε) : Except ε α :=
  match value with
  | some a => .ok a
  | none => .error error

/-- `[u8; n]`. -/
abbrev Octets (n : Nat) := { bytes : List UInt8 // bytes.length = n }

/-- `<[u8; n]>::try_from` on a slice. -/
def tryInto (n : Nat) (bytes : List UInt8) : Option (Octets n) :=
  if h : bytes.length = n then some ⟨bytes, h⟩ else none

/-- `str::as_bytes`. -/
def asBytes (s : String) : List UInt8 :=
  s.toUTF8.data.toList

/-- `i64::saturating_sub`. -/
def saturatingSub (a b : Int64) : Int64 :=
  Int64.ofIntClamp (a.toInt - b.toInt)

section Results

variable {α β ε δ : Type}

@[simp] theorem okOr_eq_ok_iff {value : Option α} {error : ε} {a : α} :
    okOr value error = .ok a ↔ value = some a := by
  cases value <;> simp [okOr]

@[simp] theorem okOr_eq_error_iff {value : Option α} {error e : ε} :
    okOr value error = .error e ↔ value = none ∧ error = e := by
  cases value <;> simp [okOr]

theorem bind_eq_ok_iff {x : Except ε α} {f : α → Except ε β} {b : β} :
    (x >>= f) = .ok b ↔ ∃ a, x = .ok a ∧ f a = .ok b := by
  cases x <;> simp [bind, Except.bind]

theorem bind_eq_error_iff {x : Except ε α} {f : α → Except ε β} {e : ε} :
    (x >>= f) = .error e ↔ x = .error e ∨ ∃ a, x = .ok a ∧ f a = .error e := by
  cases x <;> simp [bind, Except.bind]

@[simp] theorem ok_bind (a : α) (f : α → Except ε β) :
    ((Except.ok a : Except ε α) >>= f) = f a := rfl

@[simp] theorem error_bind (e : ε) (f : α → Except ε β) :
    ((Except.error e : Except ε α) >>= f) = .error e := rfl

theorem map_eq_ok_iff {x : Except ε α} {f : α → β} {b : β} :
    x.map f = .ok b ↔ ∃ a, x = .ok a ∧ f a = b := by
  cases x <;> simp [Except.map]

@[simp] theorem mapError_eq_ok_iff {x : Except δ α} {f : δ → ε} {a : α} :
    x.mapError f = .ok a ↔ x = .ok a := by
  cases x <;> simp [Except.mapError]

@[simp] theorem mapError_eq_error_iff {x : Except δ α} {f : δ → ε} {e : ε} :
    x.mapError f = .error e ↔ ∃ d, x = .error d ∧ f d = e := by
  cases x <;> simp [Except.mapError]

theorem error_of_not_ok {x : Except ε α} (h : ∀ a, x ≠ .ok a) : ∃ e, x = .error e := by
  cases x with
  | error e => exact ⟨e, rfl⟩
  | ok a => exact absurd rfl (h a)

def Raises (P : ε → Prop) (x : Except ε α) : Prop :=
  ∀ e, x = .error e → P e

variable {P : ε → Prop}

theorem Raises.ok (a : α) : Raises P (.ok a : Except ε α) :=
  nofun

theorem Raises.error {e : ε} (h : P e) : Raises P (.error e : Except ε α) := by
  intro _ heq
  exact Except.error.inj heq ▸ h

theorem Raises.okOr {value : Option α} {e : ε} (h : P e) : Raises P (okOr value e) := by
  intro _ heq
  exact (okOr_eq_error_iff.mp heq).2 ▸ h

theorem Raises.mapError {x : Except δ α} {f : δ → ε} (h : ∀ d, P (f d)) :
    Raises P (x.mapError f) := by
  intro _ heq
  obtain ⟨d, -, rfl⟩ := mapError_eq_error_iff.mp heq
  exact h d

theorem Raises.bind {x : Except ε α} {f : α → Except ε β} (hx : Raises P x)
    (hf : ∀ a, Raises P (f a)) : Raises P (x >>= f) := by
  intro e heq
  rcases bind_eq_error_iff.mp heq with h | ⟨a, -, h⟩
  · exact hx e h
  · exact hf a e h

theorem Raises.ite {p : Prop} [Decidable p] {x y : Except ε α} (hx : Raises P x)
    (hy : Raises P y) : Raises P (if p then x else y) := by
  split
  · exact hx
  · exact hy

end Results

@[simp] theorem tryInto_eq_some_iff {n : Nat} {bytes : List UInt8} {octets : Octets n} :
    tryInto n bytes = some octets ↔ bytes = octets.val := by
  constructor
  · intro h
    by_cases hn : bytes.length = n
    · rw [tryInto, dif_pos hn, Option.some.injEq] at h
      exact congrArg Subtype.val h
    · rw [tryInto, dif_neg hn] at h
      cases h
  · rintro rfl
    rw [tryInto, dif_pos octets.property]

/-- Saturation does not change how `a - b` compares with an `i64`, as long as
`b` is not negative. -/
theorem saturatingSub_gt_iff {a b limit : Int64} (hb : 0 ≤ b.toInt) :
    saturatingSub a b > limit ↔ a.toInt - b.toInt > limit.toInt := by
  have hlimit := limit.minValue_le_toInt
  have ha := a.toInt_le
  rw [gt_iff_lt, Int64.lt_iff_toInt_lt, saturatingSub]
  by_cases hmin : Int64.minValue.toInt ≤ a.toInt - b.toInt
  · rw [Int64.toInt_ofIntClamp hmin (by omega)]
  · rw [Int64.ofIntClamp, dif_neg hmin]
    omega

end Library.Prelude
