import Tamga.Policies
import Tamga.Library.Binary64

namespace Tamga.Policies

open Library.Binary64
open Library.Rounding

def OverageStrategy.allows (strategy : OverageStrategy) (count max : Int64) : Bool :=
  match strategy with
  | .noOverage => count ≤ max
  | .allow1_25xOverage => ofInt64 count ≤ ofInt64 max * 1.25
  | .allow1_5xOverage => ofInt64 count ≤ ofInt64 max * 1.5
  | .allow2xOverage => ofInt64 count ≤ ofInt64 max * 2.0
  | .alwaysAllowOverage => true

/-- How many times the limit a strategy goes up to. -/
def OverageStrategy.multiplier : OverageStrategy → WithTop ℚ
  | .noOverage => (1 : ℚ)
  | .allow1_25xOverage => (5 / 4 : ℚ)
  | .allow1_5xOverage => (3 / 2 : ℚ)
  | .allow2xOverage => (2 : ℚ)
  | .alwaysAllowOverage => ⊤

def OverageStrategy.Permits (strategy : OverageStrategy) (count max : ℤ) : Prop :=
  ∀ r : ℚ, strategy.multiplier = r → (count : ℚ) ≤ max * r

section Products

variable {f : Float} {r : ℚ} {count max : Int64}

theorem nearest_abs_bounds (n : Int64) :
    |nearest 53 (n.toInt : ℚ)| ≤ 2 ^ 63 ∧
      (nearest 53 (n.toInt : ℚ) ≠ 0 → 1 ≤ |nearest 53 (n.toInt : ℚ)|) := by
  have hrange := n.le_toInt
  have hrange' := n.toInt_lt
  rw [abs_nearest 52]
  constructor
  · have hlast : nearest 53 (2 ^ 63 : ℚ) = 2 ^ 63 := by
      have hdigits := nearest_of_digits (K := ℚ) (p := 53) (n := 1) (k := 63) (by norm_num)
      norm_num at hdigits ⊢
      exact hdigits
    rw [← hlast]
    apply nearest_mono 52
    rw [← Int.cast_abs]
    exact_mod_cast abs_le.mpr ⟨hrange, hrange'.le⟩
  · intro hne
    have hfirst : nearest 53 (1 : ℚ) = 1 := by
      have hdigits := nearest_of_digits (K := ℚ) (p := 53) (n := 1) (k := 0) (by norm_num)
      simpa using hdigits
    have hzero : n.toInt ≠ 0 := by
      rintro hzero
      rw [hzero, Int.cast_zero, nearest_zero] at hne
      exact hne rfl
    nth_rewrite 1 [← hfirst]
    apply nearest_mono 52
    rw [← Int.cast_abs]
    exact_mod_cast Int.one_le_abs hzero

/-- The limit is rounded to a float and so is its multiple; the count is rounded once. -/
theorem ofInt64_le_mul_iff (hf : Denotes f r) (hr : 1 ≤ r ∧ r ≤ 2) :
    ofInt64 count ≤ ofInt64 max * f ↔
      nearest 53 (count.toInt : ℚ) ≤ nearest 53 (nearest 53 (max.toInt : ℚ) * r) := by
  apply (denotes_ofInt64 count).le_iff
  apply (denotes_ofInt64 max).mul hf
  intro hne
  obtain ⟨hlast, hfirst⟩ := nearest_abs_bounds max
  have hone := hfirst (left_ne_zero_of_mul hne)
  rw [abs_mul, abs_of_nonneg (zero_le_one.trans hr.1)]
  constructor
  · calc
      (2 : ℚ) ^ (-1022 : ℤ) ≤ 2 ^ (0 : ℤ) := zpow_le_zpow_right₀ one_le_two (by norm_num)
      _ = 1 * 1 := by norm_num
      _ ≤ |nearest 53 (max.toInt : ℚ)| * r := mul_le_mul hone hr.1 zero_le_one (abs_nonneg _)
  · calc
      |nearest 53 (max.toInt : ℚ)| * r ≤ 2 ^ 63 * 2 :=
        mul_le_mul hlast hr.2 (zero_le_one.trans hr.1) (by norm_num)
      _ = 2 ^ (64 : ℤ) := by norm_num
      _ < 2 ^ (1023 : ℤ) := zpow_lt_zpow_right₀ one_lt_two (by norm_num)

end Products

section Verdict

variable {strategy strategy' : OverageStrategy} {count count' max max' : Int64} {r : ℚ}

theorem allows_noOverage_iff :
    OverageStrategy.noOverage.allows count max = true ↔ count.toInt ≤ max.toInt := by
  rw [OverageStrategy.allows, decide_eq_true_iff, Int64.le_iff_toInt_le]

theorem multiplier_mem (hr : strategy.multiplier = r) : 1 ≤ r ∧ r ≤ 2 := by
  cases strategy <;>
    simp only [OverageStrategy.multiplier, WithTop.coe_inj, WithTop.top_ne_coe] at hr
  all_goals subst hr; norm_num

/-- The verdict of the three strategies that multiply, in terms of rounding. -/
theorem allows_iff_nearest (hr : strategy.multiplier = r) (hmore : strategy ≠ .noOverage) :
    strategy.allows count max = true ↔
      nearest 53 (count.toInt : ℚ) ≤ nearest 53 (nearest 53 (max.toInt : ℚ) * r) := by
  have hbounds := multiplier_mem hr
  cases strategy with
  | noOverage => exact absurd rfl hmore
  | alwaysAllowOverage => exact absurd hr WithTop.top_ne_coe
  | allow1_25xOverage =>
      have hfactor : Denotes (1.25 : Float) r := by
        rw [← WithTop.coe_inj.mp hr]
        exact denotes_of_unpack (m := 5 * 2 ^ 50) (e := -52) (by norm_num) rfl (by norm_num)
          (by norm_num) (by norm_num)
      rw [OverageStrategy.allows, decide_eq_true_iff]
      exact ofInt64_le_mul_iff hfactor hbounds
  | allow1_5xOverage =>
      have hfactor : Denotes (1.5 : Float) r := by
        rw [← WithTop.coe_inj.mp hr]
        exact denotes_of_unpack (m := 3 * 2 ^ 51) (e := -52) (by norm_num) rfl (by norm_num)
          (by norm_num) (by norm_num)
      rw [OverageStrategy.allows, decide_eq_true_iff]
      exact ofInt64_le_mul_iff hfactor hbounds
  | allow2xOverage =>
      have hfactor : Denotes (2.0 : Float) r := by
        rw [← WithTop.coe_inj.mp hr]
        exact denotes_of_unpack (m := 2 ^ 52) (e := -51) (by norm_num) rfl (by norm_num)
          (by norm_num) (by norm_num)
      rw [OverageStrategy.allows, decide_eq_true_iff]
      exact ofInt64_le_mul_iff hfactor hbounds

theorem exists_multiplier (h : strategy ≠ .alwaysAllowOverage) :
    ∃ r : ℚ, strategy.multiplier = r := by
  cases strategy with
  | alwaysAllowOverage => exact absurd rfl h
  | _ => exact ⟨_, rfl⟩

theorem multiplier_spelt (hr : strategy.multiplier = r) :
    ∃ n k : ℤ, |n| ≤ 5 ∧ r = n * 2 ^ k := by
  cases strategy with
  | noOverage => exact ⟨1, 0, by norm_num, by rw [← WithTop.coe_inj.mp hr]; norm_num⟩
  | allow1_25xOverage => exact ⟨5, -2, by norm_num, by rw [← WithTop.coe_inj.mp hr]; norm_num⟩
  | allow1_5xOverage => exact ⟨3, -1, by norm_num, by rw [← WithTop.coe_inj.mp hr]; norm_num⟩
  | allow2xOverage => exact ⟨1, 1, by norm_num, by rw [← WithTop.coe_inj.mp hr]; norm_num⟩
  | alwaysAllowOverage => exact absurd hr WithTop.top_ne_coe

theorem permits_iff (hr : strategy.multiplier = r) (count max : ℤ) :
    strategy.Permits count max ↔ (count : ℚ) ≤ max * r := by
  constructor
  · intro h
    exact h r hr
  · intro h r' hr'
    rwa [← WithTop.coe_inj.mp (hr.symm.trans hr')]

theorem nearest_multiple {max : ℤ} (hr : strategy.multiplier = r) (hmax : 5 * |max| ≤ 2 ^ 53) :
    nearest 53 (nearest 53 (max : ℚ) * r) = max * r ∧ |(max : ℚ) * r| < 2 ^ 53 := by
  obtain ⟨n, k, hn, hspelt⟩ := multiplier_spelt hr
  obtain ⟨hfirst, hlast⟩ := multiplier_mem hr
  constructor
  · have hproduct : (max : ℚ) * r = (max * n : ℤ) * 2 ^ k := by
      rw [hspelt, Int.cast_mul, mul_assoc]
    have hdigits : |max * n| ≤ 2 ^ 53 := by
      rw [abs_mul]
      nlinarith [abs_nonneg max]
    rw [nearest_intCast (p := 52) (by omega), hproduct, nearest_of_digits_le hdigits]
  · have hcast : (5 : ℚ) * |(max : ℚ)| ≤ 2 ^ 53 := by exact_mod_cast hmax
    rw [abs_mul, abs_of_nonneg (zero_le_one.trans hfirst)]
    nlinarith [abs_nonneg (max : ℚ)]

theorem allows_iff_permits (strategy : OverageStrategy) (count max : Int64)
    (hmax : 5 * |max.toInt| ≤ 2 ^ 53) :
    strategy.allows count max = true ↔ strategy.Permits count.toInt max.toInt := by
  rcases eq_or_ne strategy .noOverage with rfl | hmore
  · rw [allows_noOverage_iff, permits_iff rfl, mul_one, Int.cast_le]
  · rcases eq_or_ne strategy .alwaysAllowOverage with rfl | hlimited
    · exact iff_of_true rfl fun _ hr => absurd hr WithTop.top_ne_coe
    · obtain ⟨r, hr⟩ := exists_multiplier hlimited
      obtain ⟨hexact, hbound⟩ := nearest_multiple hr hmax
      rw [allows_iff_nearest hr hmore, permits_iff hr, hexact]
      apply nearest_intCast_le_iff hbound
      rw [← hexact, nearest_nearest 52]

/-- At the next limit the multiple has one digit too many, and so a count is let through. -/
theorem allows_of_not_permits :
    OverageStrategy.allow1_25xOverage.allows 2251799813685249 1801439850948199 = true ∧
      ¬ OverageStrategy.allow1_25xOverage.Permits 2251799813685249 1801439850948199 := by
  constructor
  · decide +kernel
  · rw [permits_iff rfl]
    norm_num

/-- Up to a limit that every `i32` keeps, the verdict is that of exact numbers, for every
count.  Beyond it the strategies that multiply compare rounded numbers, and no larger
limit would do. -/
theorem allows_exactly :
    (∀ (strategy : OverageStrategy) (count max : Int64), 5 * |max.toInt| ≤ 2 ^ 53 →
        (strategy.allows count max = true ↔ strategy.Permits count.toInt max.toInt)) ∧
      (∀ (strategy : OverageStrategy) (count max : Int64) (r : ℚ),
        strategy.multiplier = r → strategy ≠ .noOverage →
          (strategy.allows count max = true ↔
            nearest 53 (count.toInt : ℚ) ≤ nearest 53 (nearest 53 (max.toInt : ℚ) * r))) ∧
        ∀ limit : ℤ,
          (∀ (strategy : OverageStrategy) (count max : Int64), |max.toInt| ≤ limit →
            (strategy.allows count max = true ↔ strategy.Permits count.toInt max.toInt)) ↔
              5 * limit ≤ 2 ^ 53 := by
  refine ⟨allows_iff_permits, fun _ _ _ _ => allows_iff_nearest, fun limit => ⟨fun h => ?_,
    fun hlimit strategy count max hmax => ?_⟩⟩
  · by_contra! hlarger
    have hnext : |(1801439850948199 : Int64).toInt| ≤ limit := by
      have hvalue : |(1801439850948199 : Int64).toInt| = 1801439850948199 := by decide
      rw [hvalue]
      omega
    obtain ⟨hallows, hpermits⟩ := allows_of_not_permits
    exact hpermits ((h _ _ _ hnext).mp hallows)
  · apply allows_iff_permits
    exact (mul_le_mul_of_nonneg_left hmax (by decide)).trans hlimit

theorem allows_exactly_ten :
    (OverageStrategy.allow1_25xOverage.allows 13 10 = true ↔
        OverageStrategy.allow1_25xOverage.Permits (13 : Int64).toInt (10 : Int64).toInt) ∧
      (OverageStrategy.allow1_25xOverage.allows 13 10 = true ↔
        nearest 53 ((13 : Int64).toInt : ℚ) ≤
          nearest 53 (nearest 53 ((10 : Int64).toInt : ℚ) * (5 / 4))) ∧
        ¬ ∀ (strategy : OverageStrategy) (count max : Int64), |max.toInt| ≤ 1801439850948199 →
          (strategy.allows count max = true ↔ strategy.Permits count.toInt max.toInt) := by
  obtain ⟨hexact, hrounded, hlargest⟩ := allows_exactly
  refine ⟨hexact _ 13 10 (by decide), hrounded _ 13 10 _ rfl (by decide), fun h => ?_⟩
  exact absurd ((hlargest _).mp h) (by decide)

theorem nearest_le_of_allows (hr : strategy.multiplier = r)
    (h : strategy.allows count max = true) :
    nearest 53 (count.toInt : ℚ) ≤ nearest 53 (nearest 53 (max.toInt : ℚ) * r) := by
  rcases eq_or_ne strategy .noOverage with rfl | hmore
  · rw [← WithTop.coe_inj.mp hr, mul_one, nearest_nearest 52]
    exact nearest_mono 52 (Int.cast_le.mpr (allows_noOverage_iff.mp h))
  · exact (allows_iff_nearest hr hmore).mp h

theorem noOverage_of_multiplier_le
    (h : strategy.multiplier ≤ OverageStrategy.noOverage.multiplier) :
    strategy = .noOverage := by
  cases strategy with
  | noOverage => rfl
  | alwaysAllowOverage => exact absurd h (WithTop.coe_lt_top _).not_ge
  | _ =>
      rw [OverageStrategy.multiplier, OverageStrategy.multiplier, WithTop.coe_le_coe] at h
      norm_num at h

/-- A laxer strategy permits what a stricter one does, of smaller counts and larger
limits too, and that whatever the floats are rounded to. -/
theorem allows_of_laxer (hlax : strategy.multiplier ≤ strategy'.multiplier)
    (hnonneg : strategy = strategy' ∨ 0 ≤ max) (hcount : count' ≤ count) (hmax : max ≤ max')
    (h : strategy.allows count max = true) : strategy'.allows count' max' = true := by
  rcases eq_or_ne strategy' .alwaysAllowOverage with rfl | hlimited
  · rfl
  · have hcounts : count'.toInt ≤ count.toInt := Int64.le_iff_toInt_le.mp hcount
    have hlimits : max.toInt ≤ max'.toInt := Int64.le_iff_toInt_le.mp hmax
    rcases eq_or_ne strategy' .noOverage with rfl | hmore
    · have hstrict := noOverage_of_multiplier_le hlax
      subst hstrict
      rw [allows_noOverage_iff] at h ⊢
      exact hcounts.trans (h.trans hlimits)
    · obtain ⟨r', hr'⟩ := exists_multiplier hlimited
      obtain ⟨r, hr⟩ := WithTop.ne_top_iff_exists.mp
        (ne_top_of_le_ne_top (hr' ▸ WithTop.coe_ne_top) hlax)
      have hle : r ≤ r' := by rwa [← hr, hr', WithTop.coe_le_coe] at hlax
      have hfirst := (multiplier_mem hr.symm).1
      have hrounded : nearest 53 (max.toInt : ℚ) ≤ nearest 53 (max'.toInt : ℚ) :=
        nearest_mono 52 (Int.cast_le.mpr hlimits)
      have hmultiple : nearest 53 (max.toInt : ℚ) * r ≤ nearest 53 (max'.toInt : ℚ) * r' := by
        rcases hnonneg with rfl | hpositive
        · rw [WithTop.coe_inj.mp (hr.trans hr')]
          exact mul_le_mul_of_nonneg_right hrounded (zero_le_one.trans (hfirst.trans hle))
        · have hmaxNonneg : (0 : ℚ) ≤ max.toInt :=
            Int.cast_nonneg (Int64.le_iff_toInt_le.mp hpositive)
          exact mul_le_mul hrounded hle (zero_le_one.trans hfirst)
            ((nearest_nonneg 52 hmaxNonneg).trans hrounded)
      rw [allows_iff_nearest hr' hmore]
      calc
        nearest 53 (count'.toInt : ℚ) ≤ nearest 53 (count.toInt : ℚ) :=
          nearest_mono 52 (Int.cast_le.mpr hcounts)
        _ ≤ nearest 53 (nearest 53 (max.toInt : ℚ) * r) := nearest_le_of_allows hr.symm h
        _ ≤ nearest 53 (nearest 53 (max'.toInt : ℚ) * r') := nearest_mono 52 hmultiple

theorem allows_of_laxer_ten :
    OverageStrategy.allow1_25xOverage.allows 12 10 = true ∧
      OverageStrategy.allow2xOverage.allows 11 10 = true := by
  have hstricter : OverageStrategy.allow1_25xOverage.allows 12 10 = true := by decide +kernel
  refine ⟨hstricter, allows_of_laxer ?_ (.inr (by decide)) (by decide) (by decide) hstricter⟩
  rw [OverageStrategy.multiplier, OverageStrategy.multiplier, WithTop.coe_le_coe]
  norm_num

theorem noOverage_le (strategy : OverageStrategy) :
    OverageStrategy.noOverage.multiplier ≤ strategy.multiplier := by
  rcases eq_or_ne strategy .alwaysAllowOverage with rfl | hlimited
  · exact le_top
  · obtain ⟨r, hr⟩ := exists_multiplier hlimited
    rw [hr, OverageStrategy.multiplier, WithTop.coe_le_coe]
    exact (multiplier_mem hr).1

/-- A text that names no strategy is not refused but read as the strictest one, that of
a new policy (`"DENY_ACCESS"`) among them. -/
theorem overageStrategy_of_unknown {wire : String}
    (h : wire ∉ ["ALLOW_1_25X_OVERAGE", "ALLOW_1_5X_OVERAGE", "ALLOW_2X_OVERAGE",
      "ALWAYS_ALLOW_OVERAGE"]) :
    ∃ strategy, overageStrategy.deserialize (.string (some wire)) = some strategy ∧
      ∀ other : OverageStrategy, strategy.multiplier ≤ other.multiplier := by
  refine ⟨.noOverage, ?_, noOverage_le⟩
  simp only [List.mem_cons, List.not_mem_nil, or_false, not_or] at h
  obtain ⟨hfirst, hsecond, hthird, hfourth⟩ := h
  change some _ = _
  split
  · rfl
  · exact absurd rfl hfirst
  · exact absurd rfl hsecond
  · exact absurd rfl hthird
  · exact absurd rfl hfourth
  · rfl

end Verdict

end Tamga.Policies
