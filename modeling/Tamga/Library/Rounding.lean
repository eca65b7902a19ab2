import Mathlib.Algebra.Order.Floor.Ring
import Mathlib.Data.Int.Log
import Mathlib.Tactic.Linarith
import Mathlib.Tactic.Positivity
import Mathlib.Tactic.Ring

namespace Library.Rounding

variable {K : Type} [Field K] [LinearOrder K] [FloorRing K]

section Integers

/-- The nearest integer, and of two the even one. -/
def halfEven (x : K) : ℤ :=
  if 2 * Int.fract x < 1 then ⌊x⌋
  else if 2 * Int.fract x = 1 then ⌊x⌋ + ⌊x⌋ % 2
  else ⌊x⌋ + 1

variable {x y : K}

theorem floor_le_halfEven (x : K) : ⌊x⌋ ≤ halfEven x := by
  rw [halfEven]
  split
  · exact le_refl _
  · split <;> omega

theorem halfEven_le (x : K) : halfEven x ≤ ⌊x⌋ + 1 := by
  rw [halfEven]
  split
  · omega
  · split <;> omega

variable [IsStrictOrderedRing K]

@[simp] theorem halfEven_intCast (n : ℤ) : halfEven (n : K) = n := by
  rw [halfEven, Int.fract_intCast, if_pos (by simp), Int.floor_intCast]

theorem halfEven_mono (h : x ≤ y) : halfEven x ≤ halfEven y := by
  rcases (Int.floor_mono h).lt_or_eq with hlt | heq
  · exact (halfEven_le x).trans ((Int.add_one_le_of_lt hlt).trans (floor_le_halfEven y))
  · -- in one unit interval the fractions are ordered as the numbers are
    have hfract : Int.fract x ≤ Int.fract y := by
      rw [Int.fract, Int.fract, heq]
      exact sub_le_sub_right h _
    rw [halfEven, halfEven, heq]
    split_ifs <;> first | omega | grind

theorem halfEven_neg (x : K) : halfEven (-x) = -halfEven x := by
  by_cases hint : Int.fract x = 0
  · obtain ⟨n, rfl⟩ := Int.fract_eq_zero_iff.mp hint
    rw [← Int.cast_neg, halfEven_intCast, halfEven_intCast]
  · have hfract : Int.fract (-x) = 1 - Int.fract x := Int.fract_neg hint
    have hfloor : ⌊-x⌋ = -⌊x⌋ - 1 := by
      have hceil := Int.ceil_eq_add_one_sub_fract hint
      have hcast : (⌈x⌉ : K) = ((⌊x⌋ + 1 : ℤ) : K) := by
        rw [hceil, Int.cast_add, Int.cast_one]
        linarith [Int.self_sub_floor x]
      have := Int.cast_injective hcast
      rw [Int.floor_neg]
      omega
    rw [halfEven, halfEven, hfract, hfloor]
    split_ifs <;> first | omega | grind

/-- On a quotient of natural numbers it is read off the remainder. -/
theorem halfEven_natCast_div (m : ℕ) {d : ℕ} (hd : 0 < d) :
    halfEven ((m : K) / (d : K)) =
      if 2 * (m % d) < d then ((m / d : ℕ) : ℤ)
      else if 2 * (m % d) = d then ((m / d : ℕ) : ℤ) + ((m / d : ℕ) : ℤ) % 2
      else ((m / d : ℕ) : ℤ) + 1 := by
  have hpos : (0 : K) < d := Nat.cast_pos.mpr hd
  have hfloor : ⌊(m : K) / (d : K)⌋ = ((m / d : ℕ) : ℤ) := by
    rw [Int.floor_div_natCast, Int.floor_natCast, Int.natCast_div]
  have hfract : 2 * Int.fract ((m : K) / (d : K)) = ((2 * (m % d) : ℕ) : K) / (d : K) := by
    rw [Int.fract_div_natCast_eq_div_natCast_mod]
    push_cast
    ring
  rw [halfEven, hfract, hfloor]
  simp only [div_lt_one hpos, div_eq_one_iff_eq hpos.ne', Nat.cast_lt, Nat.cast_inj]

end Integers

section Digits

def ulp (p : ℕ) (x : K) : K := 2 ^ (Int.log 2 |x| + 1 - p)

def nearest (p : ℕ) (x : K) : K := halfEven (x / ulp p x) * ulp p x

variable {p : ℕ} {x y : K} {e : ℤ}

theorem ulp_neg (p : ℕ) (x : K) : ulp p (-x) = ulp p x := by rw [ulp, abs_neg, ulp]

variable [IsStrictOrderedRing K]

theorem ulp_pos (p : ℕ) (x : K) : 0 < ulp p x := zpow_pos (by norm_num) _

theorem nearest_neg (p : ℕ) (x : K) : nearest p (-x) = -nearest p x := by
  rw [nearest, nearest, ulp_neg, neg_div, halfEven_neg, Int.cast_neg, neg_mul]

@[simp] theorem nearest_zero (p : ℕ) : nearest p (0 : K) = 0 := by
  rw [nearest, zero_div, ← Int.cast_zero, halfEven_intCast, Int.cast_zero, zero_mul]

theorem ulp_eq (hlow : 2 ^ (p + e) ≤ |x|) (hhigh : |x| < 2 ^ (p + e + 1)) :
    ulp (p + 1) x = 2 ^ e := by
  have hpos : 0 < |x| := lt_of_lt_of_le (zpow_pos (by norm_num) _) hlow
  have hle : (p : ℤ) + e ≤ Int.log 2 |x| := by
    apply (Int.zpow_le_iff_le_log Nat.one_lt_two hpos).mp
    exact_mod_cast hlow
  have hlt : Int.log 2 |x| < p + e + 1 := by
    apply (Int.lt_zpow_iff_log_lt Nat.one_lt_two hpos).mp
    exact_mod_cast hhigh
  have hlog : Int.log 2 |x| = p + e := by omega
  rw [ulp, hlog]
  congr 1
  push_cast
  omega

/-- What has no more digits than are kept is kept as it is. -/
theorem nearest_of_digits {n k : ℤ} (hn : |n| < 2 ^ p) :
    nearest p ((n : K) * 2 ^ k) = n * 2 ^ k := by
  by_cases hzero : n = 0
  · rw [hzero, Int.cast_zero, zero_mul, nearest_zero]
  · have htwo : (0 : K) < 2 := by norm_num
    have habs : |(n : K) * 2 ^ k| = |n| * 2 ^ k := by
      rw [abs_mul, abs_of_pos (zpow_pos htwo k), Int.cast_abs]
    have hpos : 0 < |(n : K) * 2 ^ k| := by
      rw [abs_pos]
      exact mul_ne_zero (Int.cast_ne_zero.mpr hzero) (zpow_pos htwo k).ne'
    have hlt : Int.log 2 |(n : K) * 2 ^ k| < p + k := by
      apply (Int.lt_zpow_iff_log_lt Nat.one_lt_two hpos).mp
      rw [habs, Nat.cast_ofNat, zpow_add₀ htwo.ne', zpow_natCast]
      apply mul_lt_mul_of_pos_right _ (zpow_pos htwo k)
      exact_mod_cast hn
    obtain ⟨j, hj⟩ := Int.eq_ofNat_of_zero_le (a := k - (Int.log 2 |(n : K) * 2 ^ k| + 1 - p))
      (by omega)
    have hquotient : (n : K) * 2 ^ k / ulp p ((n : K) * 2 ^ k) = ((n * 2 ^ j : ℤ) : K) := by
      rw [ulp, mul_div_assoc, ← zpow_sub₀ htwo.ne', hj]
      push_cast
      rw [zpow_natCast]
    rw [nearest, hquotient, halfEven_intCast, ← hquotient,
      div_mul_cancel₀ _ (ulp_pos p _).ne']

theorem nearest_of_digits_le {n k : ℤ} (hn : |n| ≤ 2 ^ (p + 1)) :
    nearest (p + 1) ((n : K) * 2 ^ k) = n * 2 ^ k := by
  rcases hn.lt_or_eq with hlt | heq
  · exact nearest_of_digits hlt
  · -- a power of two, which one digit spells
    have hdigit : ∃ s : ℤ, |s| < 2 ^ (p + 1) ∧ (n : K) * 2 ^ k = s * 2 ^ (k + (p + 1 : ℕ)) := by
      have hone : (1 : ℤ) < 2 ^ (p + 1) := one_lt_pow₀ (by norm_num) (by omega)
      have hpow : (2 : K) ^ (k + (p + 1 : ℕ)) = ((2 ^ (p + 1) : ℤ) : K) * 2 ^ k := by
        rw [zpow_add₀ two_ne_zero, zpow_natCast, mul_comm]
        push_cast
        rfl
      rcases (abs_eq (by positivity)).mp heq with rfl | rfl
      · exact ⟨1, by simpa using hone, by rw [hpow, Int.cast_one, one_mul]⟩
      · exact ⟨-1, by simpa using hone, by rw [hpow]; push_cast; ring⟩
    obtain ⟨s, hs, hspelt⟩ := hdigit
    rw [hspelt, nearest_of_digits hs]

/-- The binade of a number holds what the number is rounded to, and the end of it. -/
theorem nearest_mem (hlow : 2 ^ (p + e) ≤ x) (hhigh : x < 2 ^ (p + e + 1)) :
    2 ^ (p + e) ≤ nearest (p + 1) x ∧ nearest (p + 1) x ≤ 2 ^ (p + e + 1) := by
  have htwo : (0 : K) < 2 := by norm_num
  have hpow : (0 : K) < 2 ^ e := zpow_pos htwo e
  have hx : 0 < x := lt_of_lt_of_le (zpow_pos htwo _) hlow
  have hulp : ulp (p + 1) x = 2 ^ e := by
    apply ulp_eq <;> rwa [abs_of_pos hx]
  have hfirst : (2 : K) ^ (p + e) = ((2 ^ p : ℤ) : K) * 2 ^ e := by
    rw [zpow_add₀ htwo.ne']
    push_cast
    rw [zpow_natCast]
  have hlast : (2 : K) ^ (p + e + 1) = ((2 ^ (p + 1) : ℤ) : K) * 2 ^ e := by
    rw [zpow_add_one₀ htwo.ne', hfirst]
    push_cast
    ring
  rw [nearest, hulp, hfirst, hlast]
  constructor
  · apply mul_le_mul_of_nonneg_right _ hpow.le
    rw [Int.cast_le, ← halfEven_intCast (K := K) (2 ^ p)]
    apply halfEven_mono
    rw [le_div_iff₀ hpow, ← hfirst]
    exact hlow
  · apply mul_le_mul_of_nonneg_right _ hpow.le
    rw [Int.cast_le, ← halfEven_intCast (K := K) (2 ^ (p + 1))]
    apply halfEven_mono
    rw [div_le_iff₀ hpow, ← hlast]
    exact hhigh.le

theorem exists_binade (p : ℕ) (hx : 0 < x) : ∃ e : ℤ, 2 ^ (p + e) ≤ x ∧ x < 2 ^ (p + e + 1) := by
  refine ⟨Int.log 2 x - p, ?_, ?_⟩
  · rw [add_sub_cancel]
    exact_mod_cast Int.zpow_log_le_self Nat.one_lt_two hx
  · rw [add_sub_cancel]
    exact_mod_cast Int.lt_zpow_succ_log_self Nat.one_lt_two x

theorem nearest_nonneg (p : ℕ) (hx : 0 ≤ x) : 0 ≤ nearest (p + 1) x := by
  rcases hx.eq_or_lt with rfl | hpos
  · rw [nearest_zero]
  · obtain ⟨e, hlow, hhigh⟩ := exists_binade p hpos
    exact le_trans (zpow_nonneg (by norm_num) _) (nearest_mem hlow hhigh).1

theorem nearest_mono_of_pos (p : ℕ) (hx : 0 < x) (h : x ≤ y) :
    nearest (p + 1) x ≤ nearest (p + 1) y := by
  obtain ⟨e, hlow, hhigh⟩ := exists_binade p hx
  obtain ⟨f, hlow', hhigh'⟩ := exists_binade p (hx.trans_le h)
  have hle : e ≤ f := by
    have hlt : (2 : K) ^ (p + e) < 2 ^ (p + f + 1) := (hlow.trans h).trans_lt hhigh'
    rw [zpow_lt_zpow_iff_right₀ (by norm_num)] at hlt
    omega
  rcases hle.lt_or_eq with hlt | rfl
  · -- a power of two stands between the two binades
    calc
      nearest (p + 1) x ≤ 2 ^ (p + e + 1) := (nearest_mem hlow hhigh).2
      _ ≤ 2 ^ (p + f) := zpow_le_zpow_right₀ (by norm_num) (by omega)
      _ ≤ nearest (p + 1) y := (nearest_mem hlow' hhigh').1
  · have hpow : (0 : K) < 2 ^ e := zpow_pos (by norm_num) e
    have hulp : ulp (p + 1) x = 2 ^ e := by
      apply ulp_eq <;> rwa [abs_of_pos hx]
    have hulp' : ulp (p + 1) y = 2 ^ e := by
      apply ulp_eq <;> rwa [abs_of_pos (hx.trans_le h)]
    rw [nearest, nearest, hulp, hulp']
    apply mul_le_mul_of_nonneg_right _ hpow.le
    exact_mod_cast halfEven_mono (div_le_div_of_nonneg_right h hpow.le)

theorem nearest_mono (p : ℕ) (h : x ≤ y) : nearest (p + 1) x ≤ nearest (p + 1) y := by
  rcases lt_or_ge 0 x with hx | hx
  · exact nearest_mono_of_pos p hx h
  · rcases lt_or_ge y 0 with hy | hy
    · have hneg := nearest_mono_of_pos p (neg_pos.mpr hy) (neg_le_neg h)
      rwa [nearest_neg, nearest_neg, neg_le_neg_iff] at hneg
    · have hneg := nearest_nonneg p (neg_nonneg.mpr hx)
      rw [nearest_neg, neg_nonneg] at hneg
      exact hneg.trans (nearest_nonneg p hy)

theorem abs_nearest (p : ℕ) (x : K) : |nearest (p + 1) x| = nearest (p + 1) |x| := by
  rcases le_total 0 x with hx | hx
  · rw [abs_of_nonneg hx, abs_of_nonneg (nearest_nonneg p hx)]
  · have hneg := nearest_nonneg p (neg_nonneg.mpr hx)
    rw [nearest_neg] at hneg
    rw [abs_of_nonpos hx, nearest_neg, abs_of_nonpos (neg_nonneg.mp hneg)]

@[simp] theorem nearest_nearest (p : ℕ) (x : K) :
    nearest (p + 1) (nearest (p + 1) x) = nearest (p + 1) x := by
  rcases eq_or_ne x 0 with rfl | hne
  · rw [nearest_zero, nearest_zero]
  · obtain ⟨e, hlow, hhigh⟩ := exists_binade p (abs_pos.mpr hne)
    have hpow : (0 : K) < 2 ^ e := zpow_pos (by norm_num) e
    have hulp : ulp (p + 1) x = 2 ^ e := ulp_eq hlow hhigh
    have hbound : |nearest (p + 1) x| ≤ 2 ^ (p + e + 1) := by
      rw [abs_nearest]
      exact (nearest_mem hlow hhigh).2
    have hspelt : nearest (p + 1) x = halfEven (x / 2 ^ e) * 2 ^ e := by rw [nearest, hulp]
    rw [hspelt] at hbound ⊢
    apply nearest_of_digits_le
    have hlast : (2 : K) ^ (p + e + 1) = ((2 ^ (p + 1) : ℤ) : K) * 2 ^ e := by
      rw [add_right_comm, zpow_add₀ two_ne_zero]
      push_cast
      rw [← zpow_natCast]
      push_cast
      rfl
    rw [abs_mul, abs_of_pos hpow, hlast] at hbound
    exact_mod_cast le_of_mul_le_mul_right hbound hpow

theorem nearest_intCast {n : ℤ} (hn : |n| ≤ 2 ^ (p + 1)) : nearest (p + 1) (n : K) = n := by
  have hdigits := nearest_of_digits_le (K := K) (p := p) (n := n) (k := 0) hn
  simpa using hdigits

/-- An integer that is rounded compares with an exact number as the integer does. -/
theorem nearest_intCast_le_iff {n : ℤ} (hy : |y| < 2 ^ (p + 1)) (hexact : nearest (p + 1) y = y) :
    nearest (p + 1) (n : K) ≤ y ↔ (n : K) ≤ y := by
  obtain ⟨hlow, hhigh⟩ := abs_lt.mp hy
  constructor
  · contrapose!
    intro hlt
    have hmin : -(2 ^ (p + 1)) ≤ n := by
      have hcast : ((-(2 ^ (p + 1)) : ℤ) : K) < n := by
        push_cast
        exact hlow.trans hlt
      exact (Int.cast_lt.mp hcast).le
    rcases le_or_gt n (2 ^ (p + 1)) with hmax | hmax
    · rw [nearest_intCast (abs_le.mpr ⟨hmin, hmax⟩)]
      exact hlt
    · calc
        y < ((2 ^ (p + 1) : ℤ) : K) := by
          push_cast
          exact hhigh
        _ = nearest (p + 1) ((2 ^ (p + 1) : ℤ) : K) :=
          (nearest_intCast (abs_of_pos (by positivity)).le).symm
        _ ≤ nearest (p + 1) (n : K) := nearest_mono p (Int.cast_le.mpr hmax.le)
  · intro hle
    rw [← hexact]
    exact nearest_mono p hle

end Digits

end Library.Rounding
