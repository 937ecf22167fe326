import HaBirdie.BinaryRounding
import HaBirdie.FilterLife

/-!
# The filter life in floats

`from_dps` computes the filter life with floats: the remaining minutes times `100.0`, divided by
the total, capped at `100.0` and rounded.  Two of these steps round, and a quotient next to a half
could be taken for one.

* `quotient_round`: for a dividend below `2 ^ 50` it is not, ties included, so that only the last
  rounding counts.
* `filter_life_exact`: decoding shows what exact arithmetic does, for all counters that a device
  can count up to, and for any others still a percentage.
-/

namespace Purifier

open Python BinaryFloats Float.Model

/-! ## The quotient -/

/-- The quotient of two positive numbers is positive. -/
theorem signOf_div {n d : Int} (hn : 0 < n) (hd : 0 < d) :
    signOf n / signOf d = .positive := by
  unfold signOf
  rw [if_neg (by omega), if_neg (by omega)]
  rfl

/-- Twice the distance of a quotient to its rounding is a number of `d`-th parts, at most `d`. -/
theorem roundHalfEven_parts {n d : Int} (hd : 0 < d) :
    |2 * n - 2 * roundHalfEven ((n : ℚ) / d) * d| ≤ d := by
  have hdpos : (0 : ℚ) < d := by exact_mod_cast hd
  obtain ⟨k, hk⟩ : ∃ k, roundHalfEven ((n : ℚ) / d) = k := ⟨_, rfl⟩
  have hhalf := roundHalfEven_within ((n : ℚ) / d)
  rw [hk] at hhalf ⊢
  have hparts : (|2 * n - 2 * k * d| : ℚ) = 2 * d * |(n : ℚ) / d - k| := by
    rw [show (2 * n - 2 * k * d : ℚ) = 2 * d * ((n : ℚ) / d - k) by field_simp, abs_mul,
      abs_of_pos (by positivity)]
  have hle : (|2 * n - 2 * k * d| : ℚ) ≤ d := by
    rw [hparts]
    nlinarith
  exact_mod_cast hle

/-- What is `d`-th parts away from a tie stays on its side of it.  An error of less than half such
a part cannot carry it across. -/
theorem near_of_parts {n d k : Int} {x : ℚ} (hd : 0 < d) (hparts : |2 * n - 2 * k * d| < d)
    (hx : 2 * |x * d - n| < 1) : |x - k| < 1 / 2 := by
  have hdpos : (0 : ℚ) < d := by exact_mod_cast hd
  have hless : |2 * n - 2 * k * d| ≤ d - 1 := by omega
  have hless' : (|2 * n - 2 * k * d| : ℚ) ≤ d - 1 := by exact_mod_cast hless
  have htriangle := abs_add_le (2 * (x * d - n)) (2 * n - 2 * k * d : ℚ)
  rw [abs_mul, abs_of_pos (show (0 : ℚ) < 2 by norm_num)] at htriangle
  have hsum : 2 * d * |x - k| ≤ 2 * |x * d - n| + |(2 * n - 2 * k * d : ℚ)| := by
    calc 2 * d * |x - k| = |2 * d * (x - k)| := by
          rw [abs_mul, abs_of_pos (show (0 : ℚ) < 2 * d by positivity)]
      _ = |2 * (x * d - n) + (2 * n - 2 * k * d)| := by
          congr 1
          ring
      _ ≤ _ := htriangle
  have hdist : 2 * d * |x - k| < d := by linarith
  rw [lt_div_iff₀ (by norm_num)]
  nlinarith

/-- A quotient halfway between two integers is half an integer, of no more bits than `2 * n`. -/
theorem halves_of_tie {n d k : Int} (hn : 0 < n) (hd : 0 < d) (htie : |2 * n - 2 * k * d| = d) :
    ∃ c, 0 < c ∧ c ≤ 2 * n ∧ 2 * n = c * d := by
  obtain ⟨c, hc⟩ : ∃ c : Int, 2 * n = c * d := by
    rcases abs_eq hd.le |>.mp htie with h | h
    · exact ⟨2 * k + 1, by linarith⟩
    · exact ⟨2 * k - 1, by linarith⟩
  have hcpos : 0 < c := by
    by_contra hneg
    have hprod : c * d ≤ 0 := Int.mul_nonpos_of_nonpos_of_nonneg (not_lt.mp hneg) hd.le
    omega
  have hle : c ≤ c * d := le_mul_of_one_le_right hcpos.le hd
  exact ⟨c, hcpos, by omega, hc⟩

/-- **A rounded quotient.**  Rounding the quotient of two floats to an integer gives what rounding
the exact one does. -/
theorem quotient_round {n d : Int} (hn : 0 < n) (hnlt : n < 2 ^ 50) (hd : 0 < d)
    (hdlt : d < 2 ^ 53) :
    ∃ (r : Nat) (e : Int) (hr : 0 < r), Normal r ∧
      (Float.ofModel (Float.Model.ofInt n) / Float.ofModel (Float.Model.ofInt d)).toModel.unpack =
        .finite .positive r e hr ∧
      roundHalfEven (r * 2 ^ e) = roundHalfEven ((n : ℚ) / d) := by
  have hnq : ((n.natAbs : Nat) : ℚ) = n := by rw [Nat.cast_natAbs, abs_of_pos hn]
  have hdq : ((d.natAbs : Nat) : ℚ) = d := by rw [Nat.cast_natAbs, abs_of_pos hd]
  have hdpos : (0 : ℚ) < d := by exact_mod_cast hd
  have hwithin := roundHalfEven_parts (n := n) hd
  by_cases htie : |2 * n - 2 * roundHalfEven ((n : ℚ) / d) * d| = d
  · -- a tie is a float
    obtain ⟨c, hcpos, hcle, hc⟩ := halves_of_tie hn hd htie
    have hexact : n.natAbs * 2 ^ 1 = c.natAbs * d.natAbs := by
      rw [← Int.natAbs_mul, ← hc, Int.natAbs_mul]
      exact Nat.mul_comm _ _
    obtain ⟨r, e, hr, hrn, hunpack, hvalue⟩ := exists_div_ofInt_exact (by omega) (by omega)
      (by omega) (by omega) (show c.natAbs < 2 ^ 53 by omega) (le_refl 1) hexact
    refine ⟨r, e, hr, hrn, ?_, ?_⟩
    · rw [hunpack, signOf_div hn hd]
    · rw [hnq, hdq] at hvalue
      rw [← hvalue, mul_div_cancel_right₀ _ hdpos.ne']
  · -- off a tie the relative error is too small to reach one
    obtain ⟨r, e, hr, hrn, hunpack, herror⟩ :=
      exists_div_ofInt (show n ≠ 0 by omega) (show d ≠ 0 by omega) (by omega) (by omega)
    refine ⟨r, e, hr, hrn, ?_, ?_⟩
    · rw [hunpack, signOf_div hn hd]
    · rw [hnq, hdq] at herror
      have hnlt' : (n : ℚ) < 2 ^ 50 := by exact_mod_cast hnlt
      have hsmall : 2 * |(r : ℚ) * 2 ^ e * d - n| < 1 := by linarith
      exact roundHalfEven_near (near_of_parts hd (lt_of_le_of_ne hwithin htie) hsmall)

/-! ## The cap -/

/-- The exact value of a positive float is its mantissa times a power of two. -/
theorem floatExact?_positive {x : Float} {r : Nat} {e : Int} {hr : 0 < r}
    (h : x.toModel.unpack = .finite .positive r e hr) : floatExact? x = some ((r : ℚ) * 2 ^ e) := by
  unfold floatExact?
  rw [h]

/-- The literal is the integer 100 as a float. -/
theorem hundred_eq : (100.0 : Float) = Float.ofModel (Float.Model.ofInt 100) := rfl

/-- The float 100 has a normal mantissa, and its exact value is 100. -/
theorem unpack_hundred : ∃ (c : Nat) (f : Int) (hc : 0 < c), Normal c ∧
    (100.0 : Float).toModel.unpack = .finite .positive c f hc ∧ (c : ℚ) * 2 ^ f = 100 := by
  obtain ⟨c, j, hc, hcn, hcv, _, hcu⟩ := exists_ofInt (show (100 : Int) ≠ 0 by decide) (by decide)
  refine ⟨c, -j, hc, hcn, ?_, ?_⟩
  · rw [hundred_eq]
    exact hcu
  · rw [hcv, zpow_neg, zpow_natCast]
    push_cast
    field_simp

/-- Capping a float of 53 bits caps its value. -/
theorem floatMin_hundred {x : Float} {r : Nat} {e : Int} {hr : 0 < r} (hrn : Normal r)
    (hx : x.toModel.unpack = .finite .positive r e hr) :
    floatExact? (floatMin 100.0 x) = some (min 100 ((r : ℚ) * 2 ^ e)) := by
  obtain ⟨c, f, hc, hcn, hcu, hcv⟩ := unpack_hundred
  have hlt : x < 100.0 ↔ (r : ℚ) * 2 ^ e < 100 := by
    rw [← hcv, ← finite_lt_iff hr hc hrn hcn, ← hx, ← hcu]
    exact ⟨of_decide_eq_true, decide_eq_true⟩
  unfold floatMin
  by_cases h : x < 100.0
  · rw [if_pos h, floatExact?_positive hx, min_eq_right (hlt.mp h).le]
  · have hle : (100 : ℚ) ≤ r * 2 ^ e := not_lt.mp fun hv => h (hlt.mpr hv)
    rw [if_neg h, floatExact?_positive hcu, hcv, min_eq_left hle]

/-- The cap keeps whatever is not negative between `0` and `100`.  What is larger is replaced by
the cap, infinity included. -/
theorem floatMin_bounds {x : Float} (hx : NonNegativeFloat x) :
    ∃ q, floatExact? (floatMin 100.0 x) = some q ∧ 0 ≤ q ∧ q ≤ 100 := by
  obtain ⟨c, f, hc, hcn, hcu, hcv⟩ := unpack_hundred
  unfold floatMin
  by_cases h : x < 100.0
  · have hlt : UnpackedFloat.lt x.toModel.unpack (100.0 : Float).toModel.unpack = true :=
      of_decide_eq_true h
    have hpos : NonNegative x.toModel.unpack := hx
    rw [hcu] at hlt
    rw [if_pos h]
    cases hxu : x.toModel.unpack with
    | notANumber =>
        rw [hxu] at hlt
        simp [UnpackedFloat.lt, UnpackedFloat.compare] at hlt
    | infinity s =>
        rw [hxu] at hlt hpos
        obtain rfl : s = .positive := hpos
        simp [UnpackedFloat.lt, UnpackedFloat.compare] at hlt
    | zero s =>
        refine ⟨0, ?_, le_refl 0, by norm_num⟩
        unfold floatExact?
        rw [hxu]
    | finite s m e hm =>
        rw [hxu] at hlt hpos
        obtain rfl : s = .positive := hpos
        refine ⟨m * 2 ^ e, floatExact?_positive hxu, by positivity, ?_⟩
        rw [← hcv]
        exact (value_lt_of_lt (unpack_mantissa_lt hxu) hcn hlt).le
  · rw [if_neg h]
    exact ⟨100, by rw [floatExact?_positive hcu, hcv], by norm_num, le_refl _⟩

/-! ## The percentage -/

/-- An integer below 2^53 in size can be converted to a float. -/
theorem not_tooLarge {n : Int} (h : n.natAbs < 2 ^ 53) : tooLarge n = false := by
  by_cases hn : n = 0
  · subst hn
    rfl
  · obtain ⟨m, j, hm, _, _, _, hu⟩ := exists_ofInt hn h
    show (Float.ofModel (Float.Model.ofInt n)).toModel.unpack.isInf = false
    rw [hu]
    rfl

/-- The life in percent, as the source computes it in floats: the product, the quotient, the cap
and the rounding, without an exception. -/
theorem lifePercent_eq {remaining total : Int} (hrem : tooLarge remaining = false)
    (htotal : tooLarge total = false) (hne : total ≠ 0) :
    lifePercent remaining total =
      floatRound (floatMin 100.0 (Float.ofModel (Float.Model.ofInt remaining) * 100.0 /
        Float.ofModel (Float.Model.ofInt total))) := by
  unfold lifePercent
  rw [floatOfInt_eq, hrem]
  show (floatDivInt _ total >>= _) = _
  rw [floatDivInt_eq hne, htotal]
  rfl

/-- A percentage that is computed is one.  The rounding is monotone, so it stays between the bounds
of what is rounded. -/
theorem lifePercent_bounds {remaining total percent : Int} (hrem : 0 ≤ remaining)
    (htotal : 0 < total) (h : lifePercent remaining total = .ok percent) :
    0 ≤ percent ∧ percent ≤ 100 := by
  have hfloats : (tooLarge remaining || tooLarge total) = false :=
    (lifePercent_isOk hrem htotal).mp (isOk_iff.mpr ⟨_, h⟩)
  obtain ⟨hfirst, hsecond⟩ := Bool.or_eq_false_iff.mp hfloats
  have hhundred : NonNegativeFloat 100.0 := by
    obtain ⟨c, f, hc, _, hcu, _⟩ := unpack_hundred
    show NonNegative (100.0 : Float).toModel.unpack
    rw [hcu]
    rfl
  have hquot := ((NonNegativeFloat.ofInt hrem).mul hhundred).div
    (NonNegativeFloat.ofInt (n := total) (by omega))
  obtain ⟨q, hq, hlow, hhigh⟩ := floatMin_bounds hquot
  rw [lifePercent_eq hfirst hsecond (by omega)] at h
  unfold floatRound at h
  rw [hq] at h
  obtain rfl := Except.ok.inj h
  have hzero := roundHalfEven_mono (q := ((0 : Int) : ℚ)) (by simpa using hlow)
  have htop := roundHalfEven_mono (r := ((100 : Int) : ℚ)) (by simpa using hhigh)
  rw [roundHalfEven_intCast] at hzero htop
  exact ⟨hzero, htop⟩

/-- Packing and unpacking keep zero. -/
theorem unpack_pack_zero :
    (Float.Model.pack (.zero .positive)).unpack = .zero .positive := by rfl

/-- A filter that is used up, in floats.  The quotient is zero, whatever the total. -/
theorem lifePercent_zero {total : Int} (htotal : 0 < total) (hlt : total < 2 ^ 53) :
    lifePercent 0 total = .ok 0 := by
  obtain ⟨c, f, hc, hcn, hcu, _⟩ := unpack_hundred
  obtain ⟨m, j, hm, _, _, _, hu⟩ := exists_ofInt (show total ≠ 0 by omega) (by omega)
  have hnothing : (Float.ofModel (Float.Model.ofInt 0) * 100.0).toModel.unpack =
      .zero .positive := by rfl
  obtain ⟨x, hx⟩ : ∃ x, x = Float.ofModel (Float.Model.ofInt 0) * 100.0 /
    Float.ofModel (Float.Model.ofInt total) := ⟨_, rfl⟩
  have hzero : x.toModel.unpack = .zero .positive := by
    subst hx
    show (Float.Model.pack (UnpackedFloat.div Format.binary64
      (Float.ofModel (Float.Model.ofInt 0) * 100.0).toModel.unpack
      (Float.ofModel (Float.Model.ofInt total)).toModel.unpack)).unpack = _
    rw [hnothing, hu, show signOf total = .positive from if_neg (by omega)]
    exact unpack_pack_zero
  have hless : x < 100.0 := by
    refine decide_eq_true
      (?_ : UnpackedFloat.lt x.toModel.unpack (100.0 : Float).toModel.unpack = true)
    rw [hzero, hcu]
    rfl
  rw [lifePercent_eq (not_tooLarge (by decide)) (not_tooLarge (by omega)) (by omega), ← hx]
  unfold floatMin floatRound floatExact?
  rw [if_pos hless, hzero]
  exact congrArg Except.ok roundHalfEven_zero

/-- **The floats do not show.**  The filter life is computed as with exact arithmetic, since the
error is smaller than the distance to the next tie, and ties themselves are exact. -/
theorem lifePercent_exact {remaining total : Int} (hrem : 0 ≤ remaining)
    (hlt : remaining * 100 < 2 ^ 50) (htotal : 0 < total) (htlt : total < 2 ^ 53) :
    lifePercent remaining total = exactLife remaining total := by
  rw [exactLife_eq htotal]
  by_cases hzero : remaining = 0
  · subst hzero
    rw [lifePercent_zero htotal htlt]
    rw [show min 100 (((0 : Int) : ℚ) * 100 / total) = 0 by simp, roundHalfEven_zero]
  · have hmul : Float.ofModel (Float.Model.ofInt remaining) * 100.0 =
        Float.ofModel (Float.Model.ofInt (remaining * 100)) := by
      rw [hundred_eq]
      exact mul_ofInt hzero (by decide) (by omega)
    obtain ⟨r, e, hr, hrn, hunpack, hround⟩ :=
      quotient_round (show 0 < remaining * 100 by omega) hlt htotal htlt
    rw [lifePercent_eq (not_tooLarge (by omega)) (not_tooLarge (by omega)) (by omega), hmul]
    unfold floatRound
    rw [floatMin_hundred hrn hunpack]
    have hcap : ∀ q : ℚ, roundHalfEven (min 100 q) = min 100 (roundHalfEven q) := by
      intro q
      simpa using roundHalfEven_min 100 q
    show Except.ok _ = Except.ok _
    rw [hcap, hcap, hround]
    push_cast
    rfl

/-! ## The whole report -/

/-- The counters of a report, where both are numbers, do not go beyond what 42 bits can count.
A device counts to 129600. -/
def SmallCounters (dps : PyDict) : Prop :=
  ∀ total used, toInt (dps.get dpFilterTotalMinutes) = .ok (some total) →
    toInt (dps.get dpFilterUsedMinutes) = .ok (some used) → total < 2 ^ 42 ∧ -2 ^ 42 < used

/-- Decoding depends on the life only for the two counters that the DPs have.  Everything else it
does is the same for both. -/
theorem fromDpsWith_congr {life life' : Int → Int → Except PyException Int} {dps : PyDict}
    (h : ∀ total used, toInt (dps.get dpFilterTotalMinutes) = .ok total →
      toInt (dps.get dpFilterUsedMinutes) = .ok used →
      filterLife life total (remainingMinutes total used) =
        filterLife life' total (remainingMinutes total used)) :
    fromDpsWith life dps = fromDpsWith life' dps := by
  unfold fromDpsWith
  refine bind_congr fun mode => ?_
  cases htotal : toInt (dps.get dpFilterTotalMinutes) with
  | error e => rfl
  | ok total =>
      cases hused : toInt (dps.get dpFilterUsedMinutes) with
      | error e => rfl
      | ok used =>
          show (filterLife life total (remainingMinutes total used) >>= _) =
            (filterLife life' total (remainingMinutes total used) >>= _)
          rw [h total used htotal hused]

/-- The filter life of a report is a percentage, where there is one.  The remaining minutes are
capped below by zero, as the source has it. -/
theorem filterLife_bounds {total used : Option Int} {percent : Int}
    (h : filterLife lifePercent total (remainingMinutes total used) = .ok (some percent)) :
    0 ≤ percent ∧ percent ≤ 100 := by
  cases total with
  | none => exact absurd h (by simp [filterLife])
  | some total =>
      cases used with
      | none => exact absurd h (by simp [filterLife, remainingMinutes])
      | some used =>
          simp only [filterLife, remainingMinutes] at h
          split at h
          · rename_i htotal
            cases hvalue : lifePercent (max 0 (total - used)) total with
            | error e =>
                rw [hvalue] at h
                exact absurd h (by simp [Except.map])
            | ok value =>
                rw [hvalue] at h
                obtain rfl : value = percent := by simpa [Except.map] using h
                exact lifePercent_bounds (le_max_left 0 _) htotal hvalue
          · exact absurd h (by simp)

/-- For counters within 42 bits the floats give the exact life: the product with 100 is an integer
below 2^53, so only the quotient is rounded. -/
theorem filterLife_lifePercent {total used : Int} (htlt : total < 2 ^ 42)
    (hulow : -2 ^ 42 < used) :
    filterLife lifePercent (some total) (remainingMinutes (some total) (some used)) =
      filterLife exactLife (some total) (remainingMinutes (some total) (some used)) := by
  simp only [filterLife, remainingMinutes]
  split
  · rename_i hpos
    rw [lifePercent_exact (le_max_left 0 _) (by omega) hpos (by omega)]
  · rfl

/-- **What is shown of the filter is exact.**  Whatever a device reports, a filter life that is
shown is a percentage; and for counters of up to 42 bits decoding shows what it would if the
quotient was taken exactly and rounded once. -/
theorem filter_life_exact (dps : PyDict) :
    (∀ s percent, fromDps dps = .ok s → s.filterLifePercent = some percent →
      0 ≤ percent ∧ percent ≤ 100) ∧
    (SmallCounters dps → fromDps dps = fromDpsWith exactLife dps) := by
  constructor
  · intro s percent hs hpercent
    obtain ⟨total, used, _, _, _, hlife⟩ := fromDpsWith_filter hs
    rw [hpercent] at hlife
    exact filterLife_bounds hlife
  · intro hsmall
    refine fromDpsWith_congr fun total used htotal hused => ?_
    cases total with
    | none => rfl
    | some total =>
        cases used with
        | none => rfl
        | some used =>
            obtain ⟨htlt, hulow⟩ := hsmall total used htotal hused
            exact filterLife_lifePercent htlt hulow

/-- Twelve and a half percent are rounded to the even twelve. -/
theorem filter_life_exact_tie :
    ∃ s, fromDps (PyDict.ofMembers
        [(dpFilterTotalMinutes, .int 129600), (dpFilterUsedMinutes, .int 113400)]) = .ok s ∧
      s.filterLifePercent = some 12 := by
  obtain ⟨_, hexact⟩ := filter_life_exact (PyDict.ofMembers
    [(dpFilterTotalMinutes, .int 129600), (dpFilterUsedMinutes, .int 113400)])
  have hcounters : SmallCounters (PyDict.ofMembers
      [(dpFilterTotalMinutes, .int 129600), (dpFilterUsedMinutes, .int 113400)]) := by
    intro total used htotal hused
    obtain rfl := Option.some.inj (Except.ok.inj htotal)
    obtain rfl := Option.some.inj (Except.ok.inj hused)
    decide
  rw [hexact hcounters]
  exact ⟨_, rfl, by decide +kernel⟩

end Purifier
