import Mathlib
import Tamga.Library.Rounding

/-!
`Float` as numbers.  Of the floats only zeros and normal numbers are looked at; on
these an operation is the exact one, rounded to 53 digits, as long as the result
is normal again.
-/

namespace Library.Binary64

open Float.Model
open Float.Model.UnpackedFloat
open Library.Rounding

def ofInt64 (n : Int64) : Float := .ofModel (.ofInt64 n)

/-- The number that an unpacked float spells, if it is finite. -/
def value : UnpackedFloat → ℚ
  | .finite sign mantissa exponent _ => (sign.apply mantissa : ℤ) * 2 ^ exponent
  | _ => 0

/-- A zero, or a normal number. -/
inductive Regular : UnpackedFloat → Prop
  | zero (sign : Sign) : Regular (.zero sign)
  | normal (sign : Sign) {mantissa : ℕ} {exponent : ℤ} (hpos : 0 < mantissa)
      (hmantissa : 2 ^ 52 ≤ mantissa ∧ mantissa < 2 ^ 53)
      (hexponent : -1074 ≤ exponent ∧ exponent ≤ 971) :
      Regular (.finite sign mantissa exponent hpos)

def Denotes (f : Float) (x : ℚ) : Prop :=
  Regular f.toModel.unpack ∧ value f.toModel.unpack = x

section Packing

theorem log2_of_normal {mantissa : ℕ} (h : 2 ^ 52 ≤ mantissa ∧ mantissa < 2 ^ 53) :
    mantissa.log2 = 52 :=
  (Nat.log2_eq_iff (by omega)).mpr h

theorem unpack_pack_normal (sign : Sign) {mantissa : ℕ} {exponent : ℤ} (hpos : 0 < mantissa)
    (hmantissa : 2 ^ 52 ≤ mantissa ∧ mantissa < 2 ^ 53)
    (hexponent : -1074 ≤ exponent ∧ exponent ≤ 971) :
    UnpackedFloat.unpack .binary64 (UnpackedFloat.pack .binary64
      (.finite sign mantissa exponent hpos)) = .finite sign mantissa exponent hpos := by
  have hbiased : (exponent + Format.binary64.exponentBias +
      Format.binary64.mantissaBitsWithoutImplicit).toNat = (exponent + 1075).toNat := by
    change (exponent + (1023 : ℕ) + (52 : ℕ)).toNat = _
    congr 1
    omega
  have htoNat : (BitVec.ofNat 11 (exponent + 1075).toNat).toNat = (exponent + 1075).toNat := by
    rw [BitVec.toNat_ofNat]
    exact Nat.mod_eq_of_lt (by omega)
  have hones : BitVec.ofNat 11 (exponent + 1075).toNat ≠ -1#11 := by
    intro heq
    have hnat := congrArg BitVec.toNat heq
    rw [htoNat] at hnat
    change _ = 2047 at hnat
    omega
  have hzero : BitVec.ofNat 11 (exponent + 1075).toNat ≠ 0#11 := by
    intro heq
    have hnat := congrArg BitVec.toNat heq
    rw [htoNat] at hnat
    change _ = 0 at hnat
    omega
  have hsignificand : (1#1 ++ BitVec.ofNat 52 mantissa).toNat = mantissa := by
    rw [BitVec.toNat_append, ← Nat.shiftLeft_add_eq_or_of_lt (BitVec.ofNat 52 mantissa).isLt,
      BitVec.toNat_ofNat, Nat.shiftLeft_eq]
    change 1 * 2 ^ 52 + mantissa % 2 ^ 52 = mantissa
    omega
  rw [UnpackedFloat.pack]
  simp only [log2_of_normal hmantissa, hbiased]
  rw [if_neg (by omega), if_pos (show 52 + 1 = Format.binary64.mantissaBits from rfl),
    UnpackedFloat.unpack]
  simp only [unpackMantissa_packComponents, unpackExponent_packComponents,
    unpackSign_packComponents, Sign.ofBitVec_toBitVec]
  rw [if_neg hones, if_neg hzero]
  simp only [hsignificand, htoNat]
  congr 1
  change ((exponent + 1075).toNat : ℤ) - ((1023 : ℕ) + (52 : ℕ)) = exponent
  omega

theorem unpack_pack {u : UnpackedFloat} (h : Regular u) : (Float.Model.pack u).unpack = u := by
  change UnpackedFloat.unpack .binary64 (UnpackedFloat.pack .binary64 u) = u
  cases h with
  | zero sign => cases sign <;> rfl
  | normal sign hpos hmantissa hexponent =>
      exact unpack_pack_normal sign hpos hmantissa hexponent

theorem denotes_pack {u : UnpackedFloat} (h : Regular u) :
    Denotes (.ofModel (Float.Model.pack u)) (value u) := by
  rw [Denotes, unpack_pack h]
  exact ⟨h, rfl⟩

end Packing

section Shifting

/-- A mantissa and its two residual bits after so many shifts. -/
theorem repeat_shiftRightOne (n k : ℕ) :
    Nat.repeat ExtendedMantissa.shiftRightOne (k + 1) ⟨n, false, false⟩ =
      ⟨n / 2 ^ (k + 1), n / 2 ^ k % 2 != 0, n % 2 ^ k != 0⟩ := by
  induction k with
  | zero => simp [Nat.repeat, ExtendedMantissa.shiftRightOne, Nat.mod_one]
  | succ k ih =>
      rw [Nat.repeat, ih, ExtendedMantissa.shiftRightOne]
      congr 1
      · rw [Nat.div_div_eq_div_mul, ← Nat.pow_succ]
      · rw [Nat.mod_pow_succ]
        have hpow : 0 < 2 ^ k := Nat.two_pow_pos k
        rcases Nat.mod_two_eq_zero_or_one (n / 2 ^ k) with hbit | hbit
        · simp [hbit]
        · simp [hbit, bne_iff_ne]

theorem roundedMantissa_mk (mantissa : ℕ) (roundBit stickyBit : Bool) :
    (⟨mantissa, roundBit, stickyBit⟩ : ExtendedMantissa).roundedMantissa =
      if roundBit then if stickyBit then mantissa + 1 else mantissa + mantissa % 2
      else mantissa := by
  cases roundBit <;> cases stickyBit <;> rfl

/-- The mantissa that is left after a shift is rounded to nearest. -/
theorem roundedMantissa_shift (n k : ℕ) :
    (((⟨n, false, false⟩ : ExtendedMantissa) >>> k).roundedMantissa : ℤ) =
      halfEven ((n : ℚ) / (2 ^ k : ℕ)) := by
  rw [halfEven_natCast_div n (Nat.two_pow_pos k)]
  change ((ExtendedMantissa.roundedMantissa (Nat.repeat _ k _) : ℕ) : ℤ) = _
  cases k with
  | zero => simp [Nat.repeat, Nat.mod_one, roundedMantissa_mk]
  | succ k =>
      have hpow : 0 < 2 ^ k := Nat.two_pow_pos k
      have hlow : n % 2 ^ k < 2 ^ k := Nat.mod_lt _ hpow
      have hdouble : 2 ^ (k + 1) = 2 * 2 ^ k := Nat.pow_succ'
      have hrest : n % 2 ^ (k + 1) = n % 2 ^ k + 2 ^ k * (n / 2 ^ k % 2) := Nat.mod_pow_succ
      rw [repeat_shiftRightOne, roundedMantissa_mk]
      rcases Nat.mod_two_eq_zero_or_one (n / 2 ^ k) with hbit | hbit
      · have hbelow : 2 * (n % 2 ^ (k + 1)) < 2 ^ (k + 1) := by
          rw [hrest, hbit]
          omega
        simp only [hbit, if_pos hbelow, bne_self_eq_false, Bool.false_eq_true, if_false]
      · have habove : ¬ 2 * (n % 2 ^ (k + 1)) < 2 ^ (k + 1) := by
          rw [hrest, hbit]
          omega
        by_cases hzero : n % 2 ^ k = 0
        · have htie : 2 * (n % 2 ^ (k + 1)) = 2 ^ (k + 1) := by
            rw [hrest, hbit, hzero]
            omega
          simp [hbit, hzero, htie]
        · have hmore : ¬ 2 * (n % 2 ^ (k + 1)) = 2 ^ (k + 1) := by
            rw [hrest, hbit]
            omega
          simp [hbit, hzero, habove, hmore]

end Shifting

section Rounding

variable {n : ℕ} {e : ℤ}

theorem shiftToTargetExponent_exact (hn : 52 ≤ n.log2) (he : -1074 ≤ e + (n.log2 - 52 : ℕ)) :
    shiftToTargetExponent .binary64 n e .exact =
      ((⟨n, false, false⟩ : ExtendedMantissa) >>> (n.log2 - 52), e + (n.log2 - 52 : ℕ)) := by
  have htarget : Format.binary64.targetExponent (totalExponent n e) - e = (n.log2 - 52 : ℕ) := by
    change max ((n.log2 : ℤ) + 1 + e - 53) (-1074) - e = _
    omega
  rw [shiftToTargetExponent, shiftToExponent]
  simp only [htarget, Int.toNat_natCast]
  rfl

theorem two_zpow_add_natCast (k : ℕ) (e : ℤ) : (2 : ℚ) ^ (k + e) = (2 ^ k : ℕ) * 2 ^ e := by
  rw [zpow_add₀ two_ne_zero, zpow_natCast, Nat.cast_pow, Nat.cast_ofNat]

/-- The mantissa that the kept digits of a number give, rounded. -/
theorem nearest_natCast_mul (hn : 52 ≤ n.log2) (e : ℤ) :
    nearest 53 ((n : ℚ) * 2 ^ e) =
      halfEven ((n : ℚ) / (2 ^ (n.log2 - 52) : ℕ)) * 2 ^ (e + (n.log2 - 52 : ℕ)) := by
  have hpow : (0 : ℚ) < 2 ^ e := zpow_pos two_pos e
  have hne : n ≠ 0 := by
    rintro rfl
    simp at hn
  have hulp : ulp (52 + 1) ((n : ℚ) * 2 ^ e) = 2 ^ (e + (n.log2 - 52 : ℕ)) := by
    apply ulp_eq <;> rw [abs_of_nonneg (by positivity)]
    · have hexponent : ((52 : ℕ) : ℤ) + (e + (n.log2 - 52 : ℕ)) = (n.log2 : ℕ) + e := by omega
      rw [hexponent, two_zpow_add_natCast]
      exact mul_le_mul_of_nonneg_right (Nat.cast_le.mpr (Nat.log2_self_le hne)) hpow.le
    · have hexponent : ((52 : ℕ) : ℤ) + (e + (n.log2 - 52 : ℕ)) + 1 = (n.log2 + 1 : ℕ) + e := by
        omega
      rw [hexponent, two_zpow_add_natCast]
      exact mul_lt_mul_of_pos_right (Nat.cast_lt.mpr Nat.lt_log2_self) hpow
  have hquotient : (n : ℚ) * 2 ^ e / 2 ^ (e + (n.log2 - 52 : ℕ)) =
      (n : ℚ) / (2 ^ (n.log2 - 52) : ℕ) := by
    rw [add_comm e, two_zpow_add_natCast, mul_div_mul_right _ _ hpow.ne']
  rw [nearest, hulp, hquotient]

theorem halfEven_mem (hn : 52 ≤ n.log2) :
    2 ^ 52 ≤ halfEven ((n : ℚ) / (2 ^ (n.log2 - 52) : ℕ)) ∧
      halfEven ((n : ℚ) / (2 ^ (n.log2 - 52) : ℕ)) ≤ 2 ^ 53 := by
  have hne : n ≠ 0 := by
    rintro rfl
    simp at hn
  have hfloor : ⌊(n : ℚ) / (2 ^ (n.log2 - 52) : ℕ)⌋ = ((n / 2 ^ (n.log2 - 52) : ℕ) : ℤ) := by
    rw [Int.floor_div_natCast, Int.floor_natCast, Int.natCast_div]
  have hlow : 2 ^ 52 ≤ n / 2 ^ (n.log2 - 52) := by
    rw [Nat.le_div_iff_mul_le (Nat.two_pow_pos _), ← Nat.pow_add, Nat.add_sub_cancel' hn]
    exact Nat.log2_self_le hne
  have hhigh : n / 2 ^ (n.log2 - 52) < 2 ^ 53 := by
    rw [Nat.div_lt_iff_lt_mul (Nat.two_pow_pos _), ← Nat.pow_add]
    have hsum : 53 + (n.log2 - 52) = n.log2 + 1 := by omega
    rw [hsum]
    exact Nat.lt_log2_self
  have hfirst := floor_le_halfEven ((n : ℚ) / (2 ^ (n.log2 - 52) : ℕ))
  have hlast := halfEven_le ((n : ℚ) / (2 ^ (n.log2 - 52) : ℕ))
  rw [hfloor] at hfirst hlast
  omega

theorem value_finite (sign : Sign) {mantissa : ℕ} {exponent : ℤ} (hpos : 0 < mantissa) :
    value (.finite sign mantissa exponent hpos) =
      (sign.apply 1 : ℤ) * ((mantissa : ℚ) * 2 ^ exponent) := by
  cases sign <;> simp [value, Sign.apply]

theorem nearest_apply (sign : Sign) (x : ℚ) :
    nearest 53 ((sign.apply 1 : ℤ) * x) = (sign.apply 1 : ℤ) * nearest 53 x := by
  cases sign
  · simp [Sign.apply, nearest_neg]
  · simp [Sign.apply]

theorem roundWithAccuracy_of_shifts (sign : Sign) {em em' : ExtendedMantissa} {e₁ e₂ : ℤ}
    (hfirst : shiftToTargetExponent .binary64 n e .exact = (em, e₁))
    (hagain : shiftToTargetExponent .binary64 em.roundedMantissa e₁ .exact = (em', e₂))
    (hpos : 0 < em'.mantissa) :
    roundWithAccuracy .binary64 sign n e .exact = .finite sign em'.mantissa e₂ hpos := by
  rw [roundWithAccuracy]
  simp only [hfirst, hagain]
  rw [dif_neg (Nat.pos_iff_ne_zero.mp hpos)]

/-- A rounded mantissa of 53 digits is kept, and one that has grown to 54 gives up a zero. -/
theorem shiftToTargetExponent_rounded {mantissa : ℕ} {exponent : ℤ}
    (hfirst : 2 ^ 52 ≤ mantissa) (hlast : mantissa ≤ 2 ^ 53) (hlow : -1074 ≤ exponent) :
    ∃ em e', shiftToTargetExponent .binary64 mantissa exponent .exact = (em, e') ∧
      (2 ^ 52 ≤ em.mantissa ∧ em.mantissa < 2 ^ 53) ∧ exponent ≤ e' ∧ e' ≤ exponent + 1 ∧
      (em.mantissa : ℚ) * 2 ^ e' = mantissa * 2 ^ exponent := by
  rcases lt_or_eq_of_le hlast with hlt | rfl
  · have hlog : mantissa.log2 = 52 := log2_of_normal ⟨hfirst, hlt⟩
    refine ⟨_, _, shiftToTargetExponent_exact (by omega) (by omega), ?_⟩
    rw [hlog]
    simp only [Nat.sub_self, Nat.cast_zero, add_zero]
    exact ⟨⟨hfirst, hlt⟩, le_refl _, by omega, rfl⟩
  · have hlog : (2 ^ 53 : ℕ).log2 = 53 := Nat.log2_two_pow
    refine ⟨_, _, shiftToTargetExponent_exact (by omega) (by omega), ?_⟩
    rw [hlog]
    have hmantissa : ((⟨2 ^ 53, false, false⟩ : ExtendedMantissa) >>> (53 - 52)).mantissa =
        2 ^ 52 := rfl
    rw [hmantissa]
    refine ⟨by omega, by omega, by omega, ?_⟩
    rw [add_comm, two_zpow_add_natCast, ← mul_assoc]
    norm_num

/-- A mantissa of 53 digits or more is rounded to nearest, and the result is normal. -/
theorem roundWithAccuracy_exact (sign : Sign) (hn : 52 ≤ n.log2)
    (hlow : -1074 ≤ e + (n.log2 - 52 : ℕ)) (hhigh : e + (n.log2 - 52 : ℕ) ≤ 970) :
    Regular (roundWithAccuracy .binary64 sign n e .exact) ∧
      value (roundWithAccuracy .binary64 sign n e .exact) =
        nearest 53 ((sign.apply 1 : ℤ) * ((n : ℚ) * 2 ^ e)) := by
  obtain ⟨hfirst, hlast⟩ := halfEven_mem hn
  have hrounded := roundedMantissa_shift n (n.log2 - 52)
  rw [← hrounded] at hfirst hlast
  obtain ⟨em, e', hagain, hmantissa, hup, hdown, hvalue⟩ :=
    shiftToTargetExponent_rounded (by exact_mod_cast hfirst) (by exact_mod_cast hlast) hlow
  have hpos : 0 < em.mantissa := by omega
  rw [roundWithAccuracy_of_shifts sign (shiftToTargetExponent_exact hn hlow) hagain hpos]
  constructor
  · apply Regular.normal
    · exact hmantissa
    · omega
  · rw [value_finite, nearest_apply, nearest_natCast_mul hn, hvalue, ← hrounded, Int.cast_natCast]

theorem log2_shiftLeft (hn : n ≠ 0) (k : ℕ) : (n <<< k).log2 = n.log2 + k := by
  have hpow : 0 < 2 ^ k := Nat.two_pow_pos k
  rw [Nat.shiftLeft_eq, Nat.log2_eq_iff (Nat.mul_ne_zero hn hpow.ne')]
  constructor
  · rw [Nat.pow_add]
    exact Nat.mul_le_mul_right _ (Nat.log2_self_le hn)
  · rw [Nat.add_right_comm, Nat.pow_add]
    exact Nat.mul_lt_mul_of_pos_right Nat.lt_log2_self hpow

theorem round_exact (sign : Sign) {n : ℕ} (hpos : 0 < n) (hn : n < 2 ^ 64) :
    Regular (UnpackedFloat.round .binary64 sign n 0) ∧
      value (UnpackedFloat.round .binary64 sign n 0) =
        nearest 53 ((sign.apply 1 : ℤ) * (n : ℚ)) := by
  have hlog : n.log2 < 64 := (Nat.log2_lt hpos.ne').mpr hn
  have htarget : (0 - Format.binary64.targetExponent (totalExponent n 0)).toNat = 52 - n.log2 := by
    change (0 - max ((n.log2 : ℤ) + 1 + 0 - 53) (-1074)).toNat = _
    omega
  have hlonger : (n <<< (52 - n.log2)).log2 = n.log2 + (52 - n.log2) :=
    log2_shiftLeft hpos.ne' _
  have hvalue : ((n <<< (52 - n.log2) : ℕ) : ℚ) * 2 ^ (0 - (52 - n.log2 : ℕ) : ℤ) = n := by
    rw [Nat.shiftLeft_eq, Nat.cast_mul, Nat.cast_pow, Nat.cast_ofNat, zero_sub, zpow_neg,
      zpow_natCast, mul_assoc, mul_inv_cancel₀ (pow_ne_zero _ two_ne_zero), mul_one]
  rw [UnpackedFloat.round]
  simp only [decreaseExponent, htarget]
  have hrounded := roundWithAccuracy_exact (n := n <<< (52 - n.log2))
    (e := 0 - (52 - n.log2 : ℕ)) sign (by omega) (by omega) (by omega)
  rwa [hvalue] at hrounded

end Rounding

section Operations

variable {f g : Float} {x y : ℚ}

theorem denotes_ofInt64 (n : Int64) : Denotes (ofInt64 n) (nearest 53 (n.toInt : ℚ)) := by
  have hrange := n.le_toInt
  have hrange' := n.toInt_lt
  suffices hnormalize : Regular (UnpackedFloat.normalize .binary64 n.toInt 0 .positive) ∧
      value (UnpackedFloat.normalize .binary64 n.toInt 0 .positive) = nearest 53 (n.toInt : ℚ) by
    have hdenotes := denotes_pack hnormalize.1
    rwa [hnormalize.2] at hdenotes
  generalize n.toInt = z at hrange hrange' ⊢
  rw [UnpackedFloat.normalize]
  rcases lt_trichotomy z 0 with hneg | rfl | hpos
  · rw [compare_lt_iff_lt.mpr hneg]
    obtain ⟨hregular, hvalue⟩ := round_exact .negative (n := (-z).toNat) (by omega) (by omega)
    refine ⟨hregular, hvalue.trans ?_⟩
    congr 1
    have hcast : ((-z).toNat : ℤ) = -z := by omega
    rw [← Int.cast_natCast, hcast]
    simp [Sign.apply]
  · exact ⟨.zero .positive, by simp [value]⟩
  · rw [compare_gt_iff_gt.mpr hpos]
    obtain ⟨hregular, hvalue⟩ := round_exact .positive (n := z.toNat) (by omega) (by omega)
    refine ⟨hregular, hvalue.trans ?_⟩
    congr 1
    have hcast : (z.toNat : ℤ) = z := by omega
    rw [← Int.cast_natCast, hcast]
    simp [Sign.apply]

theorem apply_mul (sign sign' : Sign) :
    (((sign * sign').apply 1 : ℤ) : ℚ) = (sign.apply 1 : ℤ) * (sign'.apply 1 : ℤ) := by
  have happly : (sign * sign').apply 1 = sign.apply 1 * sign'.apply 1 := by
    cases sign <;> cases sign' <;> rfl
  rw [happly, Int.cast_mul]

theorem magnitude_pos {m : ℕ} (e : ℤ) (hpos : 0 < m) : (0 : ℚ) < m * 2 ^ e :=
  mul_pos (Nat.cast_pos.mpr hpos) (zpow_pos two_pos e)

/-- The exponents in which the product of two normal numbers is normal. -/
theorem exponent_mem_of_range {n : ℕ} {e : ℤ} (hn : 52 ≤ n.log2)
    (hlow : (2 : ℚ) ^ (-1022 : ℤ) ≤ n * 2 ^ e) (hhigh : (n : ℚ) * 2 ^ e < 2 ^ (1023 : ℤ)) :
    -1074 ≤ e + (n.log2 - 52 : ℕ) ∧ e + (n.log2 - 52 : ℕ) ≤ 970 := by
  have hne : n ≠ 0 := by
    rintro rfl
    simp at hn
  have hpow : (0 : ℚ) < 2 ^ e := zpow_pos two_pos e
  have hbelow : (2 : ℚ) ^ (-1022 : ℤ) < 2 ^ ((n.log2 + 1 : ℕ) + e) := by
    rw [two_zpow_add_natCast]
    exact hlow.trans_lt (mul_lt_mul_of_pos_right (Nat.cast_lt.mpr Nat.lt_log2_self) hpow)
  have habove : (2 : ℚ) ^ ((n.log2 : ℕ) + e) < 2 ^ (1023 : ℤ) := by
    rw [two_zpow_add_natCast]
    exact (mul_le_mul_of_nonneg_right (Nat.cast_le.mpr (Nat.log2_self_le hne)) hpow.le).trans_lt
      hhigh
  rw [zpow_lt_zpow_iff_right₀ one_lt_two] at hbelow habove
  omega

theorem Denotes.mul (hf : Denotes f x) (hg : Denotes g y)
    (hrange : x * y ≠ 0 → 2 ^ (-1022 : ℤ) ≤ |x * y| ∧ |x * y| < 2 ^ (1023 : ℤ)) :
    Denotes (f * g) (nearest 53 (x * y)) := by
  obtain ⟨hregular, rfl⟩ := hf
  obtain ⟨hregular', rfl⟩ := hg
  suffices hmul : Regular (UnpackedFloat.mul .binary64 f.toModel.unpack g.toModel.unpack) ∧
      value (UnpackedFloat.mul .binary64 f.toModel.unpack g.toModel.unpack) =
        nearest 53 (value f.toModel.unpack * value g.toModel.unpack) by
    have hdenotes := denotes_pack hmul.1
    rwa [hmul.2] at hdenotes
  generalize f.toModel.unpack = u at hregular hrange ⊢
  generalize g.toModel.unpack = v at hregular' hrange ⊢
  cases hregular with
  | zero sign =>
      cases hregular' with
      | zero sign' => exact ⟨.zero _, by simp [UnpackedFloat.mul, value]⟩
      | normal sign' => exact ⟨.zero _, by simp [UnpackedFloat.mul, value]⟩
  | @normal sign m e hpos hm he =>
      cases hregular' with
      | zero sign' => exact ⟨.zero _, by simp [UnpackedFloat.mul, value]⟩
      | @normal sign' m' e' hpos' hm' he' =>
          have hn : 52 ≤ (m * m').log2 := by
            rw [Nat.le_log2 (Nat.mul_ne_zero hpos.ne' hpos'.ne')]
            calc
              2 ^ 52 ≤ 2 ^ 52 * 2 ^ 52 := by norm_num
              _ ≤ m * m' := Nat.mul_le_mul hm.1 hm'.1
          have hproduct : value (.finite sign m e hpos) * value (.finite sign' m' e' hpos') =
              ((sign * sign').apply 1 : ℤ) * (((m * m' : ℕ) : ℚ) * 2 ^ (e + e')) := by
            rw [value_finite, value_finite, apply_mul, zpow_add₀ two_ne_zero]
            push_cast
            ring
          have hmagnitude := magnitude_pos (e + e') (Nat.mul_pos hpos hpos')
          have habs : |value (.finite sign m e hpos) * value (.finite sign' m' e' hpos')| =
              ((m * m' : ℕ) : ℚ) * 2 ^ (e + e') := by
            rw [hproduct, abs_mul, abs_of_pos hmagnitude]
            cases sign * sign' <;> simp [Sign.apply]
          have hne : value (.finite sign m e hpos) * value (.finite sign' m' e' hpos') ≠ 0 := by
            rw [← abs_pos, habs]
            exact hmagnitude
          obtain ⟨hlow, hhigh⟩ := hrange hne
          rw [habs] at hlow hhigh
          obtain ⟨hlow', hhigh'⟩ := exponent_mem_of_range hn hlow hhigh
          rw [hproduct]
          exact roundWithAccuracy_exact (sign * sign') hn hlow' hhigh'

theorem mul_zpow_le_iff {m m' : ℕ} {e e' : ℤ} (hm : 2 ^ 52 ≤ m ∧ m < 2 ^ 53)
    (hm' : 2 ^ 52 ≤ m' ∧ m' < 2 ^ 53) :
    (m : ℚ) * 2 ^ e ≤ m' * 2 ^ e' ↔ ((compare e e').then (compare m m')).isLE := by
  have hlt {a b : ℕ} {k l : ℤ} (ha : a < 2 ^ 53) (hb : 2 ^ 52 ≤ b) (hkl : k < l) :
      (a : ℚ) * 2 ^ k < b * 2 ^ l := by
    calc
      (a : ℚ) * 2 ^ k < (2 ^ 53 : ℕ) * 2 ^ k :=
        mul_lt_mul_of_pos_right (Nat.cast_lt.mpr ha) (zpow_pos two_pos k)
      _ = 2 ^ ((53 : ℕ) + k) := (two_zpow_add_natCast 53 k).symm
      _ ≤ 2 ^ ((52 : ℕ) + l) := zpow_le_zpow_right₀ one_le_two (by omega)
      _ = (2 ^ 52 : ℕ) * 2 ^ l := two_zpow_add_natCast 52 l
      _ ≤ b * 2 ^ l := mul_le_mul_of_nonneg_right (Nat.cast_le.mpr hb) (zpow_pos two_pos l).le
  rcases lt_trichotomy e e' with h | rfl | h
  · rw [compare_lt_iff_lt.mpr h]
    exact iff_of_true (hlt hm.2 hm'.1 h).le rfl
  · rw [compare_eq_iff_eq.mpr rfl, mul_le_mul_iff_left₀ (zpow_pos two_pos e), Nat.cast_le]
    exact Std.isLE_compare.symm
  · rw [compare_gt_iff_gt.mpr h]
    exact iff_of_false (not_le.mpr (hlt hm'.2 hm.1 h)) (by simp)

theorem value_positive {m : ℕ} {e : ℤ} (hpos : 0 < m) :
    value (.finite .positive m e hpos) = m * 2 ^ e := by
  rw [value_finite]
  simp [Sign.apply]

theorem value_negative {m : ℕ} {e : ℤ} (hpos : 0 < m) :
    value (.finite .negative m e hpos) = -(m * 2 ^ e) := by
  rw [value_finite]
  simp [Sign.apply]

theorem isLE_swap_then {α β : Type} [LinearOrder α] [LinearOrder β] (a b : α) (c d : β) :
    (((compare a b).then (compare c d)).swap).isLE = ((compare b a).then (compare d c)).isLE := by
  rw [Ordering.swap_then, ← Std.OrientedOrd.eq_swap, ← Std.OrientedOrd.eq_swap]

/-- On canonical floats the order of exponents and mantissas is that of the numbers. -/
theorem Regular.le_iff {u v : UnpackedFloat} (hu : Regular u) (hv : Regular v) :
    u.le v = true ↔ value u ≤ value v := by
  cases hu with
  | zero sign =>
      cases hv with
      | zero sign' => exact iff_of_true rfl (le_refl _)
      | @normal sign' m' e' hpos' =>
          have hmagnitude' := magnitude_pos e' hpos'
          cases sign'
          · rw [value_negative]
            exact iff_of_false (by simp [UnpackedFloat.le, UnpackedFloat.compare])
              (not_le.mpr (neg_neg_of_pos hmagnitude'))
          · rw [value_positive]
            exact iff_of_true rfl hmagnitude'.le
  | @normal sign m e hpos hm =>
      have hmagnitude := magnitude_pos e hpos
      cases hv with
      | zero sign' =>
          cases sign
          · rw [value_negative]
            exact iff_of_true rfl (neg_neg_of_pos hmagnitude).le
          · rw [value_positive]
            exact iff_of_false (by simp [UnpackedFloat.le, UnpackedFloat.compare])
              (not_le.mpr hmagnitude)
      | @normal sign' m' e' hpos' hm' =>
          have hmagnitude' := magnitude_pos e' hpos'
          cases sign <;> cases sign'
          · rw [value_negative, value_negative, neg_le_neg_iff, mul_zpow_le_iff hm' hm,
              ← isLE_swap_then]
            rfl
          · rw [value_negative, value_positive]
            exact iff_of_true rfl ((neg_neg_of_pos hmagnitude).trans hmagnitude').le
          · rw [value_negative, value_positive]
            exact iff_of_false (by simp [UnpackedFloat.le, UnpackedFloat.compare])
              (not_le.mpr ((neg_neg_of_pos hmagnitude').trans hmagnitude))
          · rw [value_positive, value_positive, mul_zpow_le_iff hm hm']
            rfl

theorem Denotes.le_iff (hf : Denotes f x) (hg : Denotes g y) : f ≤ g ↔ x ≤ y := by
  obtain ⟨hregular, rfl⟩ := hf
  obtain ⟨hregular', rfl⟩ := hg
  rw [← hregular.le_iff hregular']
  exact decide_eq_true_iff

/-- A positive float that is given by its mantissa and its exponent. -/
theorem denotes_of_unpack {m : ℕ} {e : ℤ} (hpos : 0 < m)
    (hunpack : f.toModel.unpack = .finite .positive m e hpos)
    (hm : 2 ^ 52 ≤ m ∧ m < 2 ^ 53) (he : -1074 ≤ e ∧ e ≤ 971) (hvalue : (m : ℚ) * 2 ^ e = x) :
    Denotes f x := by
  rw [Denotes, hunpack, value_positive]
  exact ⟨.normal .positive hpos hm he, hvalue⟩

end Operations

end Library.Binary64
