import HaBirdie.PurifierDecoding
import HaBirdie.RationalRounding

/-!
# The filter life

`from_dps` derives the remaining minutes and the filter life in percent from two counters of the
device.  Here the quotient is taken exactly (`exactLife`); the float arithmetic of the source is
`lifePercent`.

The one fact about rounding is that it is monotone and leaves integers alone: bounds between
integers then pass through it.
-/

namespace Purifier

open Python

/-! ## The percentage -/

/-- The filter life with the quotient taken exactly. -/
def exactLife (remaining total : Int) : Except PyException Int :=
  if total = 0 then .error .zeroDivisionError
  else .ok (roundHalfEven (min 100 ((remaining : ℚ) * 100 / total)))

/-- The exact percentage for a positive total. -/
theorem exactLife_eq {remaining total : Int} (h : 0 < total) :
    exactLife remaining total =
      .ok (roundHalfEven (min 100 ((remaining : ℚ) * 100 / total))) := by
  unfold exactLife
  rw [if_neg (by omega)]

/-- The filter life that is shown for two counters. -/
theorem filterLife_exact (total used : Int) :
    filterLife exactLife (some total) (remainingMinutes (some total) (some used)) =
      .ok (if 0 < total then
        some (roundHalfEven (min 100 (((max 0 (total - used) : Int) : ℚ) * 100 / total)))
        else none) := by
  simp only [filterLife, remainingMinutes]
  split
  · rename_i htotal
    rw [exactLife_eq htotal]
    rfl
  · rfl

/-- The percentage does not increase with the used minutes. -/
theorem percent_antitone {total used used' : Int} (htotal : 0 < total) (hused : used ≤ used') :
    roundHalfEven (min 100 (((max 0 (total - used') : Int) : ℚ) * 100 / total)) ≤
      roundHalfEven (min 100 (((max 0 (total - used) : Int) : ℚ) * 100 / total)) := by
  have hpos : (0 : ℚ) < total := by exact_mod_cast htotal
  have hremaining : max 0 (total - used') ≤ max 0 (total - used) := by omega
  have hcast : ((max 0 (total - used') : Int) : ℚ) ≤ ((max 0 (total - used) : Int) : ℚ) :=
    Int.cast_le.mpr hremaining
  refine roundHalfEven_mono (min_le_min_left 100 ?_)
  gcongr

/-- Nothing remains of a used up filter. -/
theorem percent_usedUp {total used : Int} (hused : total ≤ used) :
    roundHalfEven (min 100 (((max 0 (total - used) : Int) : ℚ) * 100 / total)) = 0 := by
  have hremaining : max 0 (total - used) = 0 := by omega
  rw [hremaining]
  have hzero : min 100 (((0 : Int) : ℚ) * 100 / total) = ((0 : Int) : ℚ) := by simp
  rw [hzero, roundHalfEven_intCast]

/-- A filter with no minutes used is at its full life. -/
theorem percent_unused {total used : Int} (htotal : 0 < total) (hused : used ≤ 0) :
    roundHalfEven (min 100 (((max 0 (total - used) : Int) : ℚ) * 100 / total)) = 100 := by
  have hpos : (0 : ℚ) < total := by exact_mod_cast htotal
  have hremaining : total ≤ max 0 (total - used) := by omega
  have hcast : (total : ℚ) ≤ ((max 0 (total - used) : Int) : ℚ) := Int.cast_le.mpr hremaining
  have hquot : (100 : ℚ) ≤ ((max 0 (total - used) : Int) : ℚ) * 100 / total := by
    rw [le_div_iff₀ hpos]
    linarith
  rw [min_eq_left hquot]
  exact roundHalfEven_intCast 100

/-- The percentage is one. -/
theorem percent_bounds {total used : Int} (htotal : 0 < total) :
    0 ≤ roundHalfEven (min 100 (((max 0 (total - used) : Int) : ℚ) * 100 / total)) ∧
      roundHalfEven (min 100 (((max 0 (total - used) : Int) : ℚ) * 100 / total)) ≤ 100 := by
  have hempty := percent_usedUp (le_max_left total used)
  have hfull := percent_unused htotal (min_le_left 0 used)
  have hlow := percent_antitone htotal (le_max_right total used)
  have hhigh := percent_antitone htotal (min_le_right 0 used)
  omega

/-! ## Decoding with exact arithmetic -/

/-- The filter fields of a decoded state. -/
theorem fromDpsWith_filter {life : Int → Int → Except PyException Int} {dps : PyDict}
    {s : PurifierState} (h : fromDpsWith life dps = .ok s) :
    ∃ total used, toInt (dps.get dpFilterTotalMinutes) = .ok total ∧
      toInt (dps.get dpFilterUsedMinutes) = .ok used ∧
      s.filterRemainingMinutes = remainingMinutes total used ∧
      filterLife life total (remainingMinutes total used) = .ok s.filterLifePercent := by
  obtain ⟨_, _, h⟩ := ok_bind.mp h
  obtain ⟨total, htotal, h⟩ := ok_bind.mp h
  obtain ⟨used, hused, h⟩ := ok_bind.mp h
  obtain ⟨life, hlife, h⟩ := ok_bind.mp h
  obtain ⟨_, _, h⟩ := ok_bind.mp h
  obtain rfl := Except.ok.inj h
  exact ⟨total, used, htotal, hused, rfl, hlife⟩

/-- Decoding goes through if each of its parts does.  The DP of the fine dust is looked at only
where its sensor has no fault. -/
theorem fromDpsWith_isOk (life : Int → Int → Except PyException Int) (dps : PyDict) :
    (fromDpsWith life dps).isOk = true ↔
      (decodeMode (dps.get dpMode)).isOk = true ∧
      (∃ total used, toInt (dps.get dpFilterTotalMinutes) = .ok total ∧
        toInt (dps.get dpFilterUsedMinutes) = .ok used ∧
        (filterLife life total (remainingMinutes total used)).isOk = true) ∧
      (known (dps.get dpDeviceError) faultsByDp ≠ some .pm25Sensor →
        (toInt (dps.get dpPm25)).isOk = true) := by
  unfold fromDpsWith
  constructor
  · intro h
    obtain ⟨mode, hmode, h⟩ := isOk_bind.mp h
    obtain ⟨total, htotal, h⟩ := isOk_bind.mp h
    obtain ⟨used, hused, h⟩ := isOk_bind.mp h
    obtain ⟨percent, hlife, h⟩ := isOk_bind.mp h
    obtain ⟨pm25, hpm25, _⟩ := isOk_bind.mp h
    refine ⟨isOk_iff.mpr ⟨_, hmode⟩,
      ⟨total, used, htotal, hused, isOk_iff.mpr ⟨_, hlife⟩⟩, fun hsensor => ?_⟩
    rw [if_pos hsensor] at hpm25
    exact isOk_iff.mpr ⟨_, hpm25⟩
  · intro hparts
    obtain ⟨hmode, ⟨total, used, htotal, hused, hlife⟩, hpm25⟩ := hparts
    obtain ⟨mode, hmode⟩ := isOk_iff.mp hmode
    obtain ⟨percent, hlife⟩ := isOk_iff.mp hlife
    refine isOk_bind.mpr ⟨mode, hmode, ?_⟩
    refine isOk_bind.mpr ⟨total, htotal, ?_⟩
    refine isOk_bind.mpr ⟨used, hused, ?_⟩
    refine isOk_bind.mpr ⟨percent, hlife, ?_⟩
    by_cases hsensor : known (dps.get dpDeviceError) faultsByDp ≠ some .pm25Sensor
    · obtain ⟨pm25, hpm25⟩ := isOk_iff.mp (hpm25 hsensor)
      exact isOk_bind.mpr ⟨pm25, by rw [if_pos hsensor]; exact hpm25, rfl⟩
    · exact isOk_bind.mpr ⟨none, by rw [if_neg hsensor], rfl⟩

/-- Integer counters never make decoding raise.  What is left are the mode and the fine dust. -/
theorem fromDpsWith_exact_ok_iff {dps : PyDict} {total used : Int}
    (htotal : dps.get dpFilterTotalMinutes = .int total)
    (hused : dps.get dpFilterUsedMinutes = .int used) :
    (∃ s, fromDpsWith exactLife dps = .ok s) ↔
      unreadableSpeed (dps.get dpMode) = false ∧
      (known (dps.get dpDeviceError) faultsByDp ≠ some .pm25Sensor →
        nonFinite (dps.get dpPm25) = false) := by
  rw [← isOk_iff, fromDpsWith_isOk, decodeMode_isOk, toInt_isOk, htotal, hused]
  constructor
  · intro hparts
    obtain ⟨hmode, _, hpm25⟩ := hparts
    exact ⟨hmode, hpm25⟩
  · intro hparts
    obtain ⟨hmode, hpm25⟩ := hparts
    refine ⟨hmode, ⟨some total, some used, rfl, rfl, ?_⟩, hpm25⟩
    rw [filterLife_exact]
    rfl

/-! ## No division by zero -/

/-- A computation that does not divide by zero. -/
def NoZeroDivision {α : Type} (r : Except PyException α) : Prop :=
  r ≠ .error .zeroDivisionError

/-- No division by zero in two steps if there is none in either. -/
theorem NoZeroDivision.bind {α β : Type} {r : Except PyException α}
    {f : α → Except PyException β} (h : NoZeroDivision r) (hf : ∀ a, NoZeroDivision (f a)) :
    NoZeroDivision (r >>= f) := by
  cases r with
  | error e => exact fun heq => h (congrArg Except.error (Except.error.inj heq))
  | ok a => exact hf a

/-- Nor where a result is only converted. -/
theorem NoZeroDivision.map {α β : Type} {r : Except PyException α} (h : NoZeroDivision r)
    (f : α → β) : NoZeroDivision (r.map f) := by
  cases r with
  | error e => exact fun heq => h (congrArg Except.error (Except.error.inj heq))
  | ok a => exact fun heq => nomatch heq

/-- Nor where nothing is raised. -/
theorem NoZeroDivision.ok {α : Type} (a : α) : NoZeroDivision (.ok a : Except PyException α) :=
  fun h => nomatch h

/-- Decoding the mode divides nothing, so whatever it raises is another error. -/
theorem decodeMode_noZeroDivision (value : Json) : NoZeroDivision (decodeMode value) := by
  unfold decodeMode
  split
  · exact NoZeroDivision.ok _
  · split
    · split
      · dsimp only
        split
        · refine NoZeroDivision.bind ?_ fun speed => ?_
          · unfold intOfStr
            split
            · exact fun h => nomatch h
            · exact NoZeroDivision.ok _
          · split
            · exact NoZeroDivision.ok _
            · exact NoZeroDivision.ok _
        · exact NoZeroDivision.ok _
      · exact NoZeroDivision.ok _
    · exact NoZeroDivision.ok _

/-- Neither does reading an integer. -/
theorem toInt_noZeroDivision (value : Json) : NoZeroDivision (toInt value) := by
  cases value with
  | float x =>
      refine NoZeroDivision.map ?_ some
      unfold intOfFloat
      split <;> exact fun h => nomatch h
  | _ => exact NoZeroDivision.ok _

/-- The one division is done for a positive total only.  The other parts divide nothing. -/
theorem fromDpsWith_noZeroDivision {life : Int → Int → Except PyException Int}
    (hlife : ∀ remaining total, total ≠ 0 → NoZeroDivision (life remaining total))
    (dps : PyDict) : NoZeroDivision (fromDpsWith life dps) := by
  apply NoZeroDivision.bind (decodeMode_noZeroDivision _)
  intro mode
  apply NoZeroDivision.bind (toInt_noZeroDivision _)
  intro total
  apply NoZeroDivision.bind (toInt_noZeroDivision _)
  intro used
  refine NoZeroDivision.bind ?_ fun percent => ?_
  · unfold filterLife
    split
    · rename_i total remaining _
      split
      · rename_i hpos
        exact (hlife remaining total (by omega)).map some
      · exact NoZeroDivision.ok _
    · exact NoZeroDivision.ok _
  · refine NoZeroDivision.bind ?_ fun pm25 => NoZeroDivision.ok _
    split
    · exact toInt_noZeroDivision _
    · exact NoZeroDivision.ok _

/-- The exact life divides by the total, which is not zero here. -/
theorem exactLife_noZeroDivision (remaining total : Int) (h : total ≠ 0) :
    NoZeroDivision (exactLife remaining total) := by
  unfold exactLife
  rw [if_neg h]
  exact NoZeroDivision.ok _

/-- Converting an integer may overflow, and divides nothing. -/
theorem floatOfInt_noZeroDivision (n : Int) : NoZeroDivision (floatOfInt n) := by
  rw [floatOfInt_eq]
  split <;> exact fun h => nomatch h

/-- The float arithmetic of the source. -/
theorem lifePercent_noZeroDivision (remaining total : Int) (h : total ≠ 0) :
    NoZeroDivision (lifePercent remaining total) := by
  apply NoZeroDivision.bind (floatOfInt_noZeroDivision remaining)
  intro r
  refine NoZeroDivision.bind ?_ fun quotient => ?_
  · rw [floatDivInt_eq h]
    split <;> exact fun heq => nomatch heq
  · unfold floatRound
    split
    · exact NoZeroDivision.ok _
    · split <;> exact fun heq => nomatch heq

/-! ## The whole report -/

/-- **The filter life is bounded and monotone.**  For any two integer counters: they never make
decoding raise, and the remaining minutes and the percentage are those of the counters, between
`0` and `100`, and not increasing with the used minutes. -/
theorem filter_life_of_counters {dps : PyDict} {total used : Int}
    (htotal : dps.get dpFilterTotalMinutes = .int total)
    (hused : dps.get dpFilterUsedMinutes = .int used) :
    fromDpsWith exactLife dps ≠ .error .zeroDivisionError ∧
    fromDps dps ≠ .error .zeroDivisionError ∧
    ((∃ s, fromDpsWith exactLife dps = .ok s) ↔
      unreadableSpeed (dps.get dpMode) = false ∧
      (known (dps.get dpDeviceError) faultsByDp ≠ some .pm25Sensor →
        nonFinite (dps.get dpPm25) = false)) ∧
    ∀ s, fromDpsWith exactLife dps = .ok s →
      s.filterRemainingMinutes = some (max 0 (total - used)) ∧
      (s.filterLifePercent = none ↔ total ≤ 0) ∧
      ∀ percent, s.filterLifePercent = some percent →
        (0 ≤ percent ∧ percent ≤ 100) ∧
        (total ≤ used → percent = 0) ∧
        (used ≤ 0 → percent = 100) ∧
        ∀ dps' used' s' percent', dps'.get dpFilterTotalMinutes = .int total →
          dps'.get dpFilterUsedMinutes = .int used' → used ≤ used' →
          fromDpsWith exactLife dps' = .ok s' → s'.filterLifePercent = some percent' →
          percent' ≤ percent := by
  have hshown : ∀ {d : PyDict} {u : Int} {s : PurifierState},
      d.get dpFilterTotalMinutes = .int total → d.get dpFilterUsedMinutes = .int u →
      fromDpsWith exactLife d = .ok s →
      s.filterRemainingMinutes = some (max 0 (total - u)) ∧
        s.filterLifePercent = if 0 < total then
          some (roundHalfEven (min 100 (((max 0 (total - u) : Int) : ℚ) * 100 / total)))
          else none := by
    intro d u s htotal hu hs
    obtain ⟨t', u', ht, hu', hremaining, hlife⟩ := fromDpsWith_filter hs
    rw [htotal] at ht
    rw [hu] at hu'
    obtain rfl := Except.ok.inj ht
    obtain rfl := Except.ok.inj hu'
    rw [filterLife_exact] at hlife
    exact ⟨hremaining, (Except.ok.inj hlife).symm⟩
  refine ⟨fromDpsWith_noZeroDivision exactLife_noZeroDivision dps,
    fromDpsWith_noZeroDivision lifePercent_noZeroDivision dps,
    fromDpsWith_exact_ok_iff htotal hused, fun s hs => ?_⟩
  obtain ⟨hremaining, hpercent⟩ := hshown htotal hused hs
  refine ⟨hremaining, ?_, fun percent hp => ?_⟩
  · rw [hpercent]
    split
    · simp only [reduceCtorEq, false_iff]
      omega
    · simp only [true_iff]
      omega
  · have hpos : 0 < total := by
      by_contra hneg
      rw [hpercent, if_neg hneg] at hp
      exact nomatch hp
    rw [hpercent, if_pos hpos] at hp
    obtain rfl := Option.some.inj hp
    refine ⟨percent_bounds hpos, percent_usedUp, percent_unused hpos, ?_⟩
    intro dps' used' s' percent' htotal' hused' hle hs' hp'
    rw [(hshown htotal' hused' hs').2, if_pos hpos] at hp'
    obtain rfl := Option.some.inj hp'
    exact percent_antitone hpos hle

/-- A filter with more minutes used than it has. -/
theorem filter_life_of_counters_usedUp :
    ∃ s, fromDpsWith exactLife
        (PyDict.ofMembers [(dpFilterTotalMinutes, .int 129600),
          (dpFilterUsedMinutes, .int 129601)]) = .ok s ∧
      s.filterRemainingMinutes = some 0 ∧ s.filterLifePercent ≠ none := by
  have hlife := @filter_life_of_counters
    (PyDict.ofMembers [(dpFilterTotalMinutes, .int 129600), (dpFilterUsedMinutes, .int 129601)])
    129600 129601 (by decide +kernel) (by decide +kernel)
  obtain ⟨s, hs⟩ := hlife.2.2.1.mpr (by decide +kernel)
  obtain ⟨hremaining, hnone, _⟩ := hlife.2.2.2 s hs
  exact ⟨s, hs, hremaining, fun h => absurd (hnone.mp h) (by decide)⟩

end Purifier
