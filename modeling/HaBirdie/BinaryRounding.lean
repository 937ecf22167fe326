import HaBirdie.BinaryFloats

/-!
# Rounding of binary64 quotients

How far Lean's model of `Float` may be off, for numbers that need all 53 bits and are far from
the smallest and the largest:

* `Normal` — a mantissa of 53 bits;
* `roundWithAccuracy_near` — whatever is known of the bits that were cut off, rounding moves a
  mantissa of 53 or 54 bits by at most two;
* `unpack_pack_normal` — packing keeps such numbers;
* `exists_ofInt` — integers below `2 ^ 53` are exact;
* `exists_div_ofInt` — the quotient of two of them, times the divisor, is the dividend but for a
  small error.
-/

namespace BinaryFloats

open Float.Model Float.Model.UnpackedFloat

/-- A mantissa of 53 bits. -/
def Normal (m : Nat) : Prop := 2 ^ 52 ≤ m ∧ m < 2 ^ 53

/-- A normal mantissa is not zero. -/
theorem Normal.pos {m : Nat} (h : Normal m) : 0 < m := Nat.lt_of_lt_of_le (by decide) h.1

/-- A normal mantissa has 53 bits. -/
theorem Normal.log2 {m : Nat} (h : Normal m) : m.log2 = 52 :=
  (Nat.log2_eq_iff (Nat.ne_of_gt h.pos)).mpr h

/-! ## Rounding -/

/-- A mantissa with `j` bits too many is shifted by `j`, as long as the exponent is one of a normal
number. -/
theorem targetExponent_of_log2 {m j : Nat} {e : Int} (hlog : m.log2 = 52 + j) (he : -1074 ≤ e) :
    Format.binary64.targetExponent (totalExponent m e) = e + j := by
  simp only [Format.targetExponent, totalExponent, Format.mantissaBits, Format.minExponent, hlog]
  norm_num
  omega

/-- With 53 bits nothing is cut off. -/
theorem shift_normal {m : Nat} {e : Int} {a : Accuracy} (h : Normal m) (he : -1074 ≤ e) :
    shiftToTargetExponent Format.binary64 m e a = (.ofMantissaAndAccuracy m a, e) := by
  have htarget := targetExponent_of_log2 (j := 0) (by simpa using h.log2) he
  have hzero : (Format.binary64.targetExponent (totalExponent m e) - e).toNat = 0 := by omega
  unfold shiftToTargetExponent shiftToExponent
  dsimp only
  rw [hzero]
  simp [HShiftRight.hShiftRight, Nat.repeat]

/-- With 54 bits the last one is cut off. -/
theorem shift_double {m : Nat} {e : Int} {a : Accuracy} (hm : 2 ^ 53 ≤ m) (hlt : m < 2 ^ 54)
    (he : -1074 ≤ e) :
    shiftToTargetExponent Format.binary64 m e a =
      ((ExtendedMantissa.ofMantissaAndAccuracy m a).shiftRightOne, e + 1) := by
  have hlog : m.log2 = 52 + 1 :=
    (Nat.log2_eq_iff (Nat.ne_of_gt (Nat.lt_of_lt_of_le (by decide) hm))).mpr ⟨hm, hlt⟩
  have htarget := targetExponent_of_log2 hlog he
  have hone : (Format.binary64.targetExponent (totalExponent m e) - e).toNat = 1 := by omega
  unfold shiftToTargetExponent shiftToExponent
  dsimp only
  rw [hone]
  rfl

/-- Noting what was cut off leaves the mantissa. -/
theorem ofMantissaAndAccuracy_mantissa (m : Nat) (a : Accuracy) :
    (ExtendedMantissa.ofMantissaAndAccuracy m a).mantissa = m := by
  rcases a with _ | o
  · rfl
  · cases o <;> rfl

/-- Rounding takes the mantissa or the next one. -/
theorem roundedMantissa_cases (em : ExtendedMantissa) :
    em.roundedMantissa = em.mantissa ∨ em.roundedMantissa = em.mantissa + 1 := by
  obtain ⟨m, roundBit, stickyBit⟩ := em
  cases roundBit <;> cases stickyBit
  · exact Or.inl rfl
  · exact Or.inl rfl
  · show m + m % 2 = m ∨ m + m % 2 = m + 1
    omega
  · exact Or.inr rfl

/-- What remains after a first shift to 53 bits.  The rounded mantissa may have 54 bits, and is
then shifted once more. -/
theorem finish_rounding {s : Sign} {m m' : Nat} {e e' : Int} {a : Accuracy} {em : ExtendedMantissa}
    (hshift : shiftToTargetExponent Format.binary64 m e a = (em, e')) (hem : Normal em.mantissa)
    (he : -1074 ≤ e') (hm' : em.roundedMantissa = m') :
    ∃ (r k : Nat) (hr : 0 < r), Normal r ∧ k ≤ 1 ∧ r * 2 ^ k = m' ∧
      roundWithAccuracy Format.binary64 s m e a = .finite s r (e' + k) hr := by
  subst hm'
  unfold roundWithAccuracy
  rw [hshift]
  dsimp only
  by_cases hnormal : em.roundedMantissa < 2 ^ 53
  · have hr : Normal em.roundedMantissa := by
      refine ⟨?_, hnormal⟩
      have hlow := hem.1
      rcases roundedMantissa_cases em with h | h <;> omega
    refine ⟨em.roundedMantissa, 0, hr.pos, hr, by omega, by omega, ?_⟩
    rw [shift_normal hr he]
    simp [ExtendedMantissa.ofMantissaAndAccuracy, Nat.ne_of_gt hr.pos]
  · -- rounding up made a bit more of it
    have hpower : em.roundedMantissa = 2 ^ 53 := by
      have hhigh := hem.2
      rcases roundedMantissa_cases em with h | h <;> omega
    refine ⟨2 ^ 52, 1, by decide, ⟨by decide, by decide⟩, by omega, by omega, ?_⟩
    rw [hpower, shift_double (by decide) (by decide) he]
    rfl

/-- **Rounding** moves a mantissa of 53 or 54 bits by at most two.  A mantissa of 53 bits is
rounded to a neighbour, one of 54 bits loses its last bit first. -/
theorem roundWithAccuracy_near {s : Sign} {m : Nat} {e : Int} {a : Accuracy} (hm : 2 ^ 52 ≤ m)
    (hlt : m < 2 ^ 54) (he : -1074 ≤ e) :
    ∃ (r k : Nat) (hr : 0 < r), Normal r ∧ k ≤ 2 ∧ r * 2 ^ k ≤ m + 2 ∧ m ≤ r * 2 ^ k + 1 ∧
      roundWithAccuracy Format.binary64 s m e a = .finite s r (e + k) hr := by
  by_cases hnormal : m < 2 ^ 53
  · have hmantissa := ofMantissaAndAccuracy_mantissa m a
    obtain ⟨r, k, hr, hrn, hk, hvalue, hround⟩ := finish_rounding (s := s) (a := a)
      (shift_normal ⟨hm, hnormal⟩ he) (hmantissa.symm ▸ ⟨hm, hnormal⟩) he rfl
    refine ⟨r, k, hr, hrn, by omega, ?_, ?_, hround⟩
    · rcases roundedMantissa_cases (.ofMantissaAndAccuracy m a) with h | h <;> omega
    · rcases roundedMantissa_cases (.ofMantissaAndAccuracy m a) with h | h <;> omega
  · have hmantissa :
        (ExtendedMantissa.ofMantissaAndAccuracy m a).shiftRightOne.mantissa = m / 2 := by
      show (ExtendedMantissa.ofMantissaAndAccuracy m a).mantissa / 2 = m / 2
      rw [ofMantissaAndAccuracy_mantissa]
    obtain ⟨r, k, hr, hrn, hk, hvalue, hround⟩ := finish_rounding (s := s) (a := a)
      (shift_double (by omega) hlt he) (by rw [hmantissa]; constructor <;> omega)
      (by omega) rfl
    have hpow : r * 2 ^ (k + 1) = r * 2 ^ k * 2 := by rw [Nat.pow_succ, Nat.mul_assoc]
    refine ⟨r, k + 1, hr, hrn, by omega, ?_, ?_, ?_⟩
    · rw [hpow]
      rcases roundedMantissa_cases (ExtendedMantissa.ofMantissaAndAccuracy m a).shiftRightOne
        with h | h <;> omega
    · rw [hpow]
      rcases roundedMantissa_cases (ExtendedMantissa.ofMantissaAndAccuracy m a).shiftRightOne
        with h | h <;> omega
    · rw [hround]
      congr 1
      push_cast
      omega

/-! ## Exact results -/

/-- Bits that are zero are cut off without a trace. -/
theorem repeat_shiftRightOne (m s : Nat) :
    s.repeat ExtendedMantissa.shiftRightOne ⟨m * 2 ^ s, false, false⟩ = ⟨m, false, false⟩ := by
  induction s generalizing m with
  | zero => simp [Nat.repeat]
  | succ s ih =>
      rw [Nat.repeat, show m * 2 ^ (s + 1) = m * 2 * 2 ^ s by rw [Nat.pow_succ]; ac_rfl, ih]
      simp [ExtendedMantissa.shiftRightOne]

/-- Shifting out zeros loses nothing: the round bit and the sticky bit stay clear. -/
theorem shift_zeros {m s : Nat} {e : Int} (h : Normal m) (he : -1074 ≤ e) :
    shiftToTargetExponent Format.binary64 (m * 2 ^ s) e .exact = (⟨m, false, false⟩, e + s) := by
  have hlog : (m * 2 ^ s).log2 = 52 + s := by
    obtain ⟨hlow, hhigh⟩ := h
    refine (Nat.log2_eq_iff (by positivity)).mpr ⟨?_, ?_⟩
    · rw [Nat.pow_add]
      exact Nat.mul_le_mul_right _ hlow
    · rw [show 52 + s + 1 = 53 + s by omega, Nat.pow_add]
      exact Nat.mul_lt_mul_of_pos_right hhigh (by positivity)
  have hshift : (Format.binary64.targetExponent (totalExponent (m * 2 ^ s) e) - e).toNat = s := by
    rw [targetExponent_of_log2 hlog he]
    omega
  unfold shiftToTargetExponent shiftToExponent
  dsimp only
  rw [hshift]
  exact Prod.ext (repeat_shiftRightOne m s) rfl

/-- **Exact rounding.**  53 bits and zeros after them are not rounded. -/
theorem roundWithAccuracy_zeros {s : Sign} {m k : Nat} {e : Int} (h : Normal m) (he : -1074 ≤ e) :
    roundWithAccuracy Format.binary64 s (m * 2 ^ k) e .exact = .finite s m (e + k) h.pos := by
  unfold roundWithAccuracy
  rw [shift_zeros h he]
  dsimp only
  rw [show (⟨m, false, false⟩ : ExtendedMantissa).roundedMantissa = m from rfl,
    shift_normal h (by omega)]
  simp [ExtendedMantissa.ofMantissaAndAccuracy, Nat.ne_of_gt h.pos]

/-! ## Packing -/

/-- A sign is one bit, which packing and unpacking keep. -/
theorem sign_ofBitVec_toBitVec (s : Sign) : Sign.ofBitVec s.toBitVec = s := by
  cases s <;> rfl

/-- The components of a normal number come back. -/
theorem unpack_packComponents {spec : Format} {s : Sign} {x : BitVec spec.exponentBits}
    {y : BitVec spec.mantissaBitsWithoutImplicit} (hones : x ≠ -1#_) (hzero : x ≠ 0#_) :
    UnpackedFloat.unpack spec (packComponents spec s x y) =
      .finite s (1#1 ++ y).toNat
        ((x.toNat : Int) - (spec.exponentBias + spec.mantissaBitsWithoutImplicit)) (by simp) := by
  unfold UnpackedFloat.unpack
  simp only [unpackMantissa_packComponents, unpackExponent_packComponents,
    unpackSign_packComponents, sign_ofBitVec_toBitVec, if_neg hones, if_neg hzero]

/-- **Packing** keeps numbers of 53 bits.  The leading bit is left out of the word and put back by
the exponent, which is not zero. -/
theorem unpack_pack_normal {s : Sign} {m : Nat} {e : Int} (h : Normal m) (hlow : -1074 ≤ e)
    (hhigh : e ≤ 971) (hm : 0 < m) :
    (Float.Model.pack (.finite s m e hm)).unpack = .finite s m e hm := by
  obtain ⟨b, hb⟩ : ∃ b : Nat, e + 1075 = b := ⟨(e + 1075).toNat, by omega⟩
  have hbits : UnpackedFloat.pack Format.binary64 (.finite s m e hm) =
      packComponents Format.binary64 s (BitVec.ofNat 11 b) (BitVec.ofNat 52 m) := by
    have hbias : (e + (Format.binary64.exponentBias : Nat) +
        (Format.binary64.mantissaBitsWithoutImplicit : Nat)).toNat = b := by
      simp [Format.exponentBias]
      omega
    unfold UnpackedFloat.pack
    dsimp only
    rw [hbias, if_neg (by simp; omega), if_pos (by rw [h.log2]; rfl)]
  have hexponent : (BitVec.ofNat 11 b).toNat = b := Nat.mod_eq_of_lt (by omega)
  have hmantissa : (1#1 ++ BitVec.ofNat 52 m).toNat = m := by
    obtain ⟨hm1, hm2⟩ := h
    rw [BitVec.toNat_append, ← Nat.shiftLeft_add_eq_or_of_lt (BitVec.isLt _)]
    simp [Nat.shiftLeft_eq]
    omega
  have hones : BitVec.ofNat 11 b ≠ -1#11 := by
    intro hb
    have htop := congrArg BitVec.toNat hb
    rw [hexponent] at htop
    simp at htop
    omega
  have hzero : BitVec.ofNat 11 b ≠ 0#11 := by
    intro hb
    have hbottom := congrArg BitVec.toNat hb
    rw [hexponent] at hbottom
    simp at hbottom
    omega
  show UnpackedFloat.unpack Format.binary64 (UnpackedFloat.pack Format.binary64 _) = _
  rw [hbits, unpack_packComponents hones hzero]
  congr 1
  rw [hexponent]
  simp [Format.exponentBias]
  omega

/-! ## Integers and their quotients -/

/-- The sign of an integer, positive for `0`. -/
def signOf (n : Int) : Sign := if n < 0 then .negative else .positive

/-- The bits of a small number are moved to the top.  There are at most 52 places to go, and the
exponent pays for them. -/
theorem exists_round {s : Sign} {n : Nat} (hn : 0 < n) (hlt : n < 2 ^ 53) :
    ∃ (m j : Nat) (hm : 0 < m), Normal m ∧ m = n * 2 ^ j ∧ j ≤ 52 ∧
      UnpackedFloat.round Format.binary64 s n 0 = .finite s m (-j) hm := by
  obtain ⟨hlow, hhigh⟩ := (Nat.log2_eq_iff (Nat.ne_of_gt hn)).mp rfl
  have hlog : n.log2 ≤ 52 := by
    by_contra hover
    have hbig : 2 ^ 53 ≤ 2 ^ n.log2 := Nat.pow_le_pow_right (by decide) (by omega)
    omega
  obtain ⟨j, hj⟩ : ∃ j, n.log2 + j = 52 := ⟨52 - n.log2, by omega⟩
  have hnormal : Normal (n * 2 ^ j) := by
    constructor
    · calc 2 ^ 52 = 2 ^ n.log2 * 2 ^ j := by rw [← Nat.pow_add, hj]
        _ ≤ n * 2 ^ j := Nat.mul_le_mul_right _ hlow
    · calc n * 2 ^ j < 2 ^ (n.log2 + 1) * 2 ^ j := Nat.mul_lt_mul_of_pos_right hhigh (by positivity)
        _ = 2 ^ 53 := by rw [← Nat.pow_add, show n.log2 + 1 + j = 53 by omega]
  have htarget : Format.binary64.targetExponent (totalExponent n 0) = -j := by
    simp only [Format.targetExponent, totalExponent, Format.mantissaBits, Format.minExponent]
    norm_num
    omega
  refine ⟨n * 2 ^ j, j, hnormal.pos, hnormal, rfl, by omega, ?_⟩
  have hshift : ((0 : Int) - -(j : Int)).toNat = j := by omega
  unfold UnpackedFloat.round decreaseExponent
  dsimp only
  rw [htarget, hshift, Nat.shiftLeft_eq, Int.zero_sub]
  simpa using roundWithAccuracy_zeros (s := s) (k := 0) hnormal (e := -j) (by omega)

/-- An integer below 2^53 in size is its own mantissa, shifted up until that is normal; nothing is
rounded. -/
theorem ofInt_finite {n : Int} (hn : n ≠ 0) (hlt : n.natAbs < 2 ^ 53) :
    ∃ (m j : Nat) (hm : 0 < m), Normal m ∧ m = n.natAbs * 2 ^ j ∧ j ≤ 52 ∧
      UnpackedFloat.ofInt Format.binary64 n = .finite (signOf n) m (-j) hm := by
  obtain ⟨m, j, hm, hnormal, hvalue, hj, hround⟩ :=
    exists_round (s := signOf n) (Int.natAbs_pos.mpr hn) hlt
  refine ⟨m, j, hm, hnormal, hvalue, hj, ?_⟩
  unfold UnpackedFloat.ofInt UnpackedFloat.normalize
  rcases Int.lt_or_gt_of_ne hn with hneg | hpos
  · rw [show compare n 0 = .lt from Int.compare_eq_lt.mpr hneg]
    simp only
    rw [show (-n).toNat = n.natAbs by omega]
    simpa [signOf, hneg] using hround
  · rw [show compare n 0 = .gt from Int.compare_eq_gt.mpr hpos]
    simp only
    rw [show n.toNat = n.natAbs by omega]
    simpa [signOf, Int.not_lt.mpr hpos.le] using hround

/-- **Integers** below `2 ^ 53` are exact. -/
theorem exists_ofInt {n : Int} (hn : n ≠ 0) (hlt : n.natAbs < 2 ^ 53) :
    ∃ (m j : Nat) (hm : 0 < m), Normal m ∧ m = n.natAbs * 2 ^ j ∧ j ≤ 52 ∧
      (Float.ofModel (Float.Model.ofInt n)).toModel.unpack = .finite (signOf n) m (-j) hm := by
  obtain ⟨m, j, hm, hnormal, hvalue, hj, hofInt⟩ := ofInt_finite hn hlt
  refine ⟨m, j, hm, hnormal, hvalue, hj, ?_⟩
  show (Float.Model.pack (UnpackedFloat.ofInt Format.binary64 n)).unpack = _
  rw [hofInt]
  exact unpack_pack_normal hnormal (by omega) (by omega) hm

/-- The quotient of two mantissas of 53 bits has 53 or 54. -/
theorem quotient_bounds {m d : Nat} (hm : Normal m) (hd : Normal d) :
    2 ^ 52 ≤ m * 2 ^ 53 / d ∧ m * 2 ^ 53 / d < 2 ^ 54 := by
  obtain ⟨hm1, hm2⟩ := hm
  obtain ⟨hd1, hd2⟩ := hd
  constructor
  · rw [Nat.le_div_iff_mul_le (by omega)]
    calc 2 ^ 52 * d ≤ 2 ^ 52 * 2 ^ 53 := Nat.mul_le_mul_left _ hd2.le
      _ ≤ m * 2 ^ 53 := Nat.mul_le_mul_right _ hm1
  · rw [Nat.div_lt_iff_lt_mul (by omega)]
    calc m * 2 ^ 53 < 2 ^ 53 * 2 ^ 53 := Nat.mul_lt_mul_of_pos_right hm2 (by positivity)
      _ = 2 ^ 54 * 2 ^ 52 := by norm_num
      _ ≤ 2 ^ 54 * d := Nat.mul_le_mul_left _ hd1

/-- The quotient of two normal numbers before it is rounded: 53 more bits of it, and whether
anything is left. -/
theorem div_normal {s t : Sign} {m d i j : Nat} (hm : Normal m) (hd : Normal d) (hi : i ≤ 52)
    (hj : j ≤ 52) (hm' : 0 < m) (hd' : 0 < d) :
    UnpackedFloat.div Format.binary64 (.finite s m (-i) hm') (.finite t d (-j) hd') =
      roundWithAccuracy Format.binary64 (s / t) (m * 2 ^ 53 / d) (j - i - 53)
        (accuracyOfFraction (m * 2 ^ 53 % d) d) := by
  have htarget : min (-(i : Int) - -(j : Int)) (Format.binary64.targetExponent
      (totalExponent m (-i) - totalExponent d (-j))) = j - i - 53 := by
    simp only [Format.targetExponent, totalExponent, Format.mantissaBits, Format.minExponent,
      hm.log2, hd.log2]
    norm_num
    omega
  have hshift : (-(i : Int) - -(j : Int) - (j - i - 53)).toNat = 53 := by omega
  show (match divCore Format.binary64 m (-i) d (-j) with
    | (m, e, acc) => roundWithAccuracy Format.binary64 (s / t) m e acc) = _
  unfold divCore
  dsimp only
  rw [htarget, hshift, Nat.shiftLeft_eq]

/-- The exponent of a quotient of mantissas. -/
theorem two_zpow_quotient (i j k : Nat) :
    (2 : ℚ) ^ ((j : Int) - i - 53 + k) = 2 ^ j * 2 ^ k / (2 ^ i * 2 ^ 53) := by
  rw [zpow_add₀ two_ne_zero, zpow_sub₀ two_ne_zero, zpow_sub₀ two_ne_zero, zpow_natCast,
    zpow_natCast, zpow_natCast, show ((2 : ℚ) ^ (53 : Int)) = 2 ^ (53 : Nat) from zpow_natCast 2 53]
  field_simp

/-- The error of a quotient that is at most two off in its last place.  The quotient has at least
52 bits, so this is a small part of it. -/
theorem quotient_error {n d m c i j q r k : Nat} (hm : Normal m) (hc : Normal c)
    (hmv : m = n * 2 ^ i) (hcv : c = d * 2 ^ j) (hle : q * c ≤ m * 2 ^ 53)
    (hlt : m * 2 ^ 53 < (q + 1) * c) (hupper : r * 2 ^ k ≤ q + 2) (hlower : q ≤ r * 2 ^ k + 1) :
    |(r : ℚ) * 2 ^ ((j : Int) - i - 53 + k) * d - n| * 2 ^ 51 ≤ n := by
  have hi : (2 : ℚ) ^ i ≠ 0 := by positivity
  have hmq : (m : ℚ) = n * 2 ^ i := by exact_mod_cast hmv
  have hcq : (c : ℚ) = d * 2 ^ j := by exact_mod_cast hcv
  -- the difference over the common denominator
  have hdiff : (r : ℚ) * 2 ^ ((j : Int) - i - 53 + k) * d - n =
      ((r * 2 ^ k : ℚ) * c - m * 2 ^ 53) / (2 ^ i * 2 ^ 53) := by
    rw [two_zpow_quotient, hcq, hmq]
    field_simp
  have hcbound : (c : ℚ) ≤ 2 ^ 53 := by exact_mod_cast hc.2.le
  have hmbound : (2 : ℚ) ^ 52 ≤ m := by exact_mod_cast hm.1
  have hle' : (q : ℚ) * c ≤ m * 2 ^ 53 := by exact_mod_cast hle
  have hlt' : (m : ℚ) * 2 ^ 53 < (q + 1) * c := by exact_mod_cast hlt
  have hupper' : (r * 2 ^ k : ℚ) ≤ q + 2 := by exact_mod_cast hupper
  have hlower' : (q : ℚ) ≤ r * 2 ^ k + 1 := by exact_mod_cast hlower
  have hc0 : (0 : ℚ) ≤ c := by positivity
  have hnum : |(r * 2 ^ k : ℚ) * c - m * 2 ^ 53| ≤ 2 ^ 54 := by
    have h1 : (r * 2 ^ k : ℚ) * c ≤ (q + 2) * c := mul_le_mul_of_nonneg_right hupper' hc0
    have h2 : (q : ℚ) * c ≤ (r * 2 ^ k + 1) * c := mul_le_mul_of_nonneg_right hlower' hc0
    rw [abs_le]
    constructor <;> linarith
  rw [hdiff, abs_div, abs_of_pos (by positivity : (0 : ℚ) < 2 ^ i * 2 ^ 53), div_mul_eq_mul_div,
    div_le_iff₀ (by positivity)]
  calc |(r * 2 ^ k : ℚ) * c - m * 2 ^ 53| * 2 ^ 51 ≤ 2 ^ 54 * 2 ^ 51 := by gcongr
    _ = 2 ^ 52 * 2 ^ 53 := by norm_num
    _ ≤ m * 2 ^ 53 := by gcongr
    _ = n * (2 ^ i * 2 ^ 53) := by rw [hmq]; ring

/-- **A quotient of integers** below `2 ^ 53`, times the divisor, is the dividend but for one part
in `2 ^ 51`. -/
theorem exists_div_ofInt {n d : Int} (hn : n ≠ 0) (hd : d ≠ 0) (hnlt : n.natAbs < 2 ^ 53)
    (hdlt : d.natAbs < 2 ^ 53) :
    ∃ (r : Nat) (e : Int) (hr : 0 < r), Normal r ∧
      (Float.ofModel (Float.Model.ofInt n) / Float.ofModel (Float.Model.ofInt d)).toModel.unpack =
        .finite (signOf n / signOf d) r e hr ∧
      |(r : ℚ) * 2 ^ e * d.natAbs - n.natAbs| * 2 ^ 51 ≤ n.natAbs := by
  obtain ⟨m, i, hm, hmn, hmv, hi, hmu⟩ := exists_ofInt hn hnlt
  obtain ⟨c, j, hc, hcn, hcv, hj, hcu⟩ := exists_ofInt hd hdlt
  obtain ⟨hq1, hq2⟩ := quotient_bounds hmn hcn
  obtain ⟨r, k, hr, hrn, hk, hupper, hlower, hround⟩ := roundWithAccuracy_near
    (s := signOf n / signOf d) (e := j - i - 53) (a := accuracyOfFraction (m * 2 ^ 53 % c) c)
    hq1 hq2 (by omega)
  refine ⟨r, j - i - 53 + k, hr, hrn, ?_, ?_⟩
  · show (Float.Model.pack (UnpackedFloat.div Format.binary64
      (Float.ofModel (Float.Model.ofInt n)).toModel.unpack
      (Float.ofModel (Float.Model.ofInt d)).toModel.unpack)).unpack = _
    rw [hmu, hcu, div_normal hmn hcn hi hj hm hc, hround]
    exact unpack_pack_normal hrn (by omega) (by omega) hr
  · have hrest : m * 2 ^ 53 < (m * 2 ^ 53 / c + 1) * c := by
      rw [Nat.mul_comm (m * 2 ^ 53 / c + 1) c]
      exact Nat.lt_mul_div_succ _ hc
    exact quotient_error hmn hcn hmv hcv (Nat.div_mul_le_self ..) hrest hupper hlower

/-- **An exact quotient.**  A whole or half quotient of 53 bits is not rounded: the division leaves
no remainder, and its last bits are zeros. -/
theorem exists_div_ofInt_exact {n d : Int} {c t : Nat} (hn : n ≠ 0) (hd : d ≠ 0)
    (hnlt : n.natAbs < 2 ^ 53) (hdlt : d.natAbs < 2 ^ 53) (hc : c < 2 ^ 53) (ht : t ≤ 1)
    (hexact : n.natAbs * 2 ^ t = c * d.natAbs) :
    ∃ (r : Nat) (e : Int) (hr : 0 < r), Normal r ∧
      (Float.ofModel (Float.Model.ofInt n) / Float.ofModel (Float.Model.ofInt d)).toModel.unpack =
        .finite (signOf n / signOf d) r e hr ∧
      (r : ℚ) * 2 ^ e * d.natAbs = n.natAbs := by
  obtain ⟨m, i, hm, hmn, hmv, hi, hmu⟩ := exists_ofInt hn hnlt
  obtain ⟨b, j, hb, hbn, hbv, hj, hbu⟩ := exists_ofInt hd hdlt
  obtain ⟨u, hu⟩ : ∃ u, i + 53 = j + t + u := ⟨i + 53 - j - t, by omega⟩
  -- the division of the mantissas has no remainder
  have hquot : m * 2 ^ 53 = c * 2 ^ u * b := by
    have hpow : 2 ^ i * 2 ^ 53 = 2 ^ t * 2 ^ u * 2 ^ j := by
      rw [← Nat.pow_add, ← Nat.pow_add, ← Nat.pow_add]
      congr 1
      omega
    calc m * 2 ^ 53 = n.natAbs * (2 ^ i * 2 ^ 53) := by rw [hmv, Nat.mul_assoc]
      _ = n.natAbs * 2 ^ t * 2 ^ u * 2 ^ j := by rw [hpow]; ac_rfl
      _ = c * 2 ^ u * b := by rw [hexact, hbv]; ac_rfl
  have hdiv : m * 2 ^ 53 / b = c * 2 ^ u := by rw [hquot, Nat.mul_div_cancel _ hb]
  have hmod : m * 2 ^ 53 % b = 0 := by rw [hquot, Nat.mul_mod_left]
  obtain ⟨hlow, hhigh⟩ := quotient_bounds hmn hbn
  rw [hdiv] at hlow hhigh
  obtain ⟨r, k, hrn, hk, hr⟩ : ∃ r k, Normal r ∧ k ≤ 1 ∧ c * 2 ^ u = r * 2 ^ k := by
    by_cases hnormal : c * 2 ^ u < 2 ^ 53
    · exact ⟨c * 2 ^ u, 0, ⟨hlow, hnormal⟩, by omega, by omega⟩
    · cases u with
      | zero => omega
      | succ u =>
          have hdouble : c * 2 ^ (u + 1) = c * 2 ^ u * 2 := by rw [Nat.pow_succ, Nat.mul_assoc]
          exact ⟨c * 2 ^ u, 1, ⟨by omega, by omega⟩, le_refl 1, hdouble⟩
  have hround : UnpackedFloat.div Format.binary64 (.finite (signOf n) m (-i) hm)
      (.finite (signOf d) b (-j) hb) =
        .finite (signOf n / signOf d) r (j - i - 53 + k) hrn.pos := by
    rw [div_normal hmn hbn hi hj hm hb, hdiv, hmod, hr]
    exact roundWithAccuracy_zeros hrn (by omega)
  refine ⟨r, j - i - 53 + k, hrn.pos, hrn, ?_, ?_⟩
  · show (Float.Model.pack (UnpackedFloat.div Format.binary64
      (Float.ofModel (Float.Model.ofInt n)).toModel.unpack
      (Float.ofModel (Float.Model.ofInt d)).toModel.unpack)).unpack = _
    rw [hmu, hbu, hround]
    exact unpack_pack_normal hrn (by omega) (by omega) hrn.pos
  · have hvalue : (r : ℚ) * 2 ^ k * (d.natAbs * 2 ^ j) = n.natAbs * 2 ^ i * 2 ^ 53 := by
      have hnat : r * 2 ^ k * (d.natAbs * 2 ^ j) = n.natAbs * 2 ^ i * 2 ^ 53 := by
        rw [← hr, ← hbv, ← hmv, ← hquot]
      exact_mod_cast hnat
    rw [two_zpow_quotient]
    field_simp
    linarith

/-! ## Products -/

/-- The sign of a product is the product of the signs. -/
theorem signOf_mul {a b : Int} (ha : a ≠ 0) (hb : b ≠ 0) :
    signOf a * signOf b = signOf (a * b) := by
  unfold signOf
  rcases Int.lt_or_gt_of_ne ha with ha | ha <;> rcases Int.lt_or_gt_of_ne hb with hb | hb
  · rw [if_pos ha, if_pos hb,
      if_neg (Int.not_lt.mpr (Int.mul_nonneg_of_nonpos_of_nonpos ha.le hb.le))]
    rfl
  · rw [if_pos ha, if_neg (by omega), if_pos (Int.mul_neg_of_neg_of_pos ha hb)]
    rfl
  · rw [if_neg (by omega), if_pos hb, if_pos (Int.mul_neg_of_pos_of_neg ha hb)]
    rfl
  · rw [if_neg (by omega), if_neg (by omega), if_neg (Int.not_lt.mpr (Int.mul_pos ha hb).le)]
    rfl

/-- **A product of integers** that stays below `2 ^ 53` is exact.  Both sides have the same
mantissa once they are brought to 53 bits. -/
theorem mul_ofInt {a b : Int} (ha : a ≠ 0) (hb : b ≠ 0) (hlt : (a * b).natAbs < 2 ^ 53) :
    Float.ofModel (Float.Model.ofInt a) * Float.ofModel (Float.Model.ofInt b) =
      Float.ofModel (Float.Model.ofInt (a * b)) := by
  have hab : (a * b).natAbs = a.natAbs * b.natAbs := Int.natAbs_mul a b
  have halt : a.natAbs < 2 ^ 53 :=
    Nat.lt_of_le_of_lt (Nat.le_mul_of_pos_right _ (Int.natAbs_pos.mpr hb)) (hab ▸ hlt)
  have hblt : b.natAbs < 2 ^ 53 :=
    Nat.lt_of_le_of_lt (Nat.le_mul_of_pos_left _ (Int.natAbs_pos.mpr ha)) (hab ▸ hlt)
  obtain ⟨m, i, hm, hmn, hmv, _, hmu⟩ := exists_ofInt ha halt
  obtain ⟨c, j, hc, hcn, hcv, _, hcu⟩ := exists_ofInt hb hblt
  obtain ⟨p, l, hp, hpn, hpv, _, hpu⟩ := ofInt_finite (Int.mul_ne_zero ha hb) hlt
  have hprod : m * c = (a * b).natAbs * 2 ^ (i + j) := by
    rw [hmv, hcv, hab, Nat.pow_add]
    ac_rfl
  obtain ⟨k, hk⟩ : ∃ k, i + j = l + k := by
    refine ⟨i + j - l, ?_⟩
    by_contra hless
    have hp' : p = m * c * 2 ^ (l - (i + j)) := by
      rw [hprod, hpv, Nat.mul_assoc, ← Nat.pow_add]
      congr 2
      omega
    have hmc : 2 ^ 52 * 2 ^ 52 ≤ m * c := Nat.mul_le_mul hmn.1 hcn.1
    have hle : m * c ≤ p := hp' ▸ Nat.le_mul_of_pos_right _ (by positivity)
    have hsmall := hpn.2
    omega
  have hround : UnpackedFloat.mul Format.binary64 (.finite (signOf a) m (-i) hm)
      (.finite (signOf b) c (-j) hc) = UnpackedFloat.ofInt Format.binary64 (a * b) := by
    have hzeros : m * c = p * 2 ^ k := by rw [hprod, hk, Nat.pow_add, hpv]; ac_rfl
    show roundWithAccuracy Format.binary64 _ (m * c) (-i + -j) .exact = _
    rw [hzeros, roundWithAccuracy_zeros hpn (by omega), hpu, signOf_mul ha hb]
    congr 1
    omega
  show Float.ofModel (Float.Model.pack (UnpackedFloat.mul Format.binary64
    (Float.ofModel (Float.Model.ofInt a)).toModel.unpack
    (Float.ofModel (Float.Model.ofInt b)).toModel.unpack)) = _
  rw [hmu, hcu, hround]
  rfl

/-! ## Order -/

/-- A larger exponent outweighs the mantissa. -/
theorem value_lt_of_exponent_lt {m c : Nat} {e f : Int} (hm : m < 2 ^ 53) (hc : 2 ^ 52 ≤ c)
    (hef : e < f) : (m : ℚ) * 2 ^ e < c * 2 ^ f := by
  have hmq : (m : ℚ) < 2 ^ 53 := by exact_mod_cast hm
  have hcq : (2 : ℚ) ^ 52 ≤ c := by exact_mod_cast hc
  have hpow : (2 : ℚ) ^ (e + 1) ≤ 2 ^ f := zpow_le_zpow_right₀ (by norm_num) hef
  calc (m : ℚ) * 2 ^ e < 2 ^ 53 * 2 ^ e := by gcongr
    _ = 2 ^ 52 * 2 ^ (e + 1) := by rw [zpow_add_one₀ two_ne_zero]; ring
    _ ≤ c * 2 ^ f := by gcongr

/-- Positive floats are compared by their exponents, and only then by their mantissas. -/
theorem finite_lt_cases {m c : Nat} {e f : Int} (hm : 0 < m) (hc : 0 < c) :
    UnpackedFloat.lt (.finite .positive m e hm) (.finite .positive c f hc) = true ↔
      e < f ∨ e = f ∧ m < c := by
  unfold UnpackedFloat.lt UnpackedFloat.compare
  rcases lt_trichotomy e f with hef | rfl | hef
  · simp [Int.compare_eq_lt.mpr hef, hef]
  · simp [Nat.compare_eq_lt]
  · have hne : ¬ e < f ∧ e ≠ f := by omega
    simp [Int.compare_eq_gt.mpr hef, hne]

/-- What is smaller has the smaller value. -/
theorem value_lt_of_lt {m c : Nat} {e f : Int} {hm : 0 < m} {hc : 0 < c} (hmlt : m < 2 ^ 53)
    (hcn : Normal c)
    (h : UnpackedFloat.lt (.finite .positive m e hm) (.finite .positive c f hc) = true) :
    (m : ℚ) * 2 ^ e < c * 2 ^ f := by
  rcases (finite_lt_cases hm hc).mp h with hef | ⟨rfl, hmc⟩
  · exact value_lt_of_exponent_lt hmlt hcn.1 hef
  · gcongr

/-- The order of numbers of 53 bits is that of their values. -/
theorem finite_lt_iff {m c : Nat} {e f : Int} (hm : 0 < m) (hc : 0 < c) (hmn : Normal m)
    (hcn : Normal c) :
    UnpackedFloat.lt (.finite .positive m e hm) (.finite .positive c f hc) = true ↔
      (m : ℚ) * 2 ^ e < c * 2 ^ f := by
  refine ⟨value_lt_of_lt hmn.2 hcn, fun h => (finite_lt_cases hm hc).mpr ?_⟩
  rcases lt_trichotomy e f with hef | rfl | hef
  · exact Or.inl hef
  · have hpos : (0 : ℚ) < 2 ^ e := by positivity
    exact Or.inr ⟨rfl, by exact_mod_cast (mul_lt_mul_iff_left₀ hpos).mp h⟩
  · exact absurd (value_lt_of_exponent_lt hcn.2 hmn.1 hef) (not_lt.mpr h.le)

/-- No mantissa has more than 53 bits: 52 are in the word, and the leading one is implied. -/
theorem unpack_mantissa_lt {x : Float} {s : Sign} {m : Nat} {e : Int} {hm : 0 < m}
    (h : x.toModel.unpack = .finite s m e hm) : m < 2 ^ 53 := by
  have hbits : UnpackedFloat.unpack Format.binary64 x.toModel.toBits.toBitVec =
      .finite s m e hm := h
  unfold UnpackedFloat.unpack at hbits
  dsimp only at hbits
  split at hbits
  · split at hbits <;> exact nomatch hbits
  · split at hbits
    · split at hbits
      · exact nomatch hbits
      · obtain ⟨_, rfl, _⟩ := UnpackedFloat.finite.inj hbits
        exact Nat.lt_trans (BitVec.isLt _) (by decide)
    · obtain ⟨_, rfl, _⟩ := UnpackedFloat.finite.inj hbits
      exact BitVec.isLt _

end BinaryFloats
