import HaBirdie.BinaryFloats
import HaBirdie.PurifierModel

/-!
# Which reports decode

`PurifierState.from_dps` promises that "unexpected types or values become None".  Four
conversions in it raise instead.  `Decodable` is the exact condition on a DP map under
which none of them does:

* the mode is not `manual` followed by digits that `int` refuses (`unreadableSpeed`);
* the filter counters, and the PM2.5 value where it is read, are not `NaN` or an infinity
  (`nonFinite`);
* the filter counters are not too large to be floats (`lifeOverflows`).

The main theorem is `fromDps_ok_iff`.
-/

namespace Purifier

open Python BinaryFloats

/-- `manual` and digits that `int` refuses: one without a decimal value, or too many. -/
def unreadableSpeed : Json → Bool
  | .str s =>
      let suffix := s.drop modeManual.length
      modeManual.isPrefixOf s && isdigit suffix && intRefuses suffix
  | _ => false

/-- A float that `int` refuses: `NaN` or an infinity. -/
def nonFinite : Json → Bool
  | .float x => !x.toModel.unpack.isFinite
  | _ => false

/-- An int that no finite float is nearest to. -/
def tooLarge (n : Int) : Bool := (Float.ofModel (Float.Model.ofInt n)).isInf

/-- The filter life is computed from counters that are too large to be floats. -/
def lifeOverflows (total used : Json) : Bool :=
  match toInt total, toInt used with
  | .ok (some t), .ok (some u) => decide (0 < t) && (tooLarge (max 0 (t - u)) || tooLarge t)
  | _, _ => false

/-- The DP maps that decode. -/
structure Decodable (dps : PyDict) : Prop where
  mode : unreadableSpeed (dps.get dpMode) = false
  total : nonFinite (dps.get dpFilterTotalMinutes) = false
  used : nonFinite (dps.get dpFilterUsedMinutes) = false
  pm25 : known (dps.get dpDeviceError) faultsByDp ≠ some .pm25Sensor →
    nonFinite (dps.get dpPm25) = false
  life : lifeOverflows (dps.get dpFilterTotalMinutes) (dps.get dpFilterUsedMinutes) = false

instance (dps : PyDict) : Decidable (Decodable dps) :=
  decidable_of_iff
    (unreadableSpeed (dps.get dpMode) = false ∧
      nonFinite (dps.get dpFilterTotalMinutes) = false ∧
      nonFinite (dps.get dpFilterUsedMinutes) = false ∧
      (known (dps.get dpDeviceError) faultsByDp ≠ some .pm25Sensor →
        nonFinite (dps.get dpPm25) = false) ∧
      lifeOverflows (dps.get dpFilterTotalMinutes) (dps.get dpFilterUsedMinutes) = false)
    ⟨fun ⟨h1, h2, h3, h4, h5⟩ => ⟨h1, h2, h3, h4, h5⟩,
     fun ⟨h1, h2, h3, h4, h5⟩ => ⟨h1, h2, h3, h4, h5⟩⟩

/-! ## Conversions -/

/-- A result is one that returned. -/
theorem isOk_iff {ε α : Type} {r : Except ε α} : r.isOk = true ↔ ∃ a, r = .ok a := by
  cases r with
  | error e => simp [Except.isOk, Except.toBool]
  | ok a => simp [Except.isOk, Except.toBool]

/-- A bind succeeds when both its parts do. -/
theorem isOk_bind {ε α β : Type} {r : Except ε α} {f : α → Except ε β} :
    (r >>= f).isOk = true ↔ ∃ a, r = .ok a ∧ (f a).isOk = true := by
  cases r with
  | error e => simp [bind, Except.bind, Except.isOk, Except.toBool]
  | ok a => simp [bind, Except.bind]

/-- What a bind returns. -/
theorem ok_bind {ε α β : Type} {r : Except ε α} {f : α → Except ε β} {b : β} :
    (r >>= f) = .ok b ↔ ∃ a, r = .ok a ∧ f a = .ok b := by
  cases r with
  | error e => simp [bind, Except.bind]
  | ok a => simp [bind, Except.bind]

/-- A manual mode is not one of the presets. -/
theorem known_presetModes_of_manual {s : PyStr} (h : modeManual.isPrefixOf s = true) :
    known (.str s) presetModes = none := by
  have hauto : s ≠ modeAuto := by
    intro heq
    obtain rfl := heq
    exact absurd h (by decide)
  have hsleep : s ≠ modeSleep := by
    intro heq
    obtain rfl := heq
    exact absurd h (by decide)
  simp only [known, presetModes, List.lookup_cons, List.lookup_nil,
    beq_eq_false_iff_ne.mpr hauto, beq_eq_false_iff_ne.mpr hsleep]

/-- `_decode_mode` raises exactly on an unreadable speed: a suffix that `isdigit` accepts and `int`
does not. -/
theorem decodeMode_isOk (value : Json) :
    (decodeMode value).isOk = true ↔ unreadableSpeed value = false := by
  cases value with
  | str s =>
      by_cases hpre : modeManual.isPrefixOf s = true
      · rw [decodeMode, known_presetModes_of_manual hpre]
        dsimp only
        rw [if_pos hpre]
        by_cases hdig : isdigit (s.drop modeManual.length) = true
        · rw [if_pos hdig, isOk_bind]
          cases href : intRefuses (s.drop modeManual.length) with
          | true => simp [unreadableSpeed, intOfStr, href, hpre, hdig]
          | false =>
              simp only [unreadableSpeed, intOfStr, href, hpre, hdig]
              refine ⟨fun _ => rfl, fun _ => ⟨_, rfl, ?_⟩⟩
              split <;> rfl
        · rw [if_neg hdig]
          simp [unreadableSpeed, hdig, Except.isOk, Except.toBool]
      · have hread : unreadableSpeed (.str s) = false := by simp [unreadableSpeed, hpre]
        rw [decodeMode]
        cases known (.str s) presetModes with
        | some preset => simp [hread, Except.isOk, Except.toBool]
        | none => simp [hread, hpre, Except.isOk, Except.toBool]
  | _ => simp [decodeMode, known, unreadableSpeed, Except.isOk, Except.toBool]

/-- `_to_int` raises exactly on `NaN` and the infinities. -/
theorem toInt_isOk (value : Json) : (toInt value).isOk = true ↔ nonFinite value = false := by
  cases value with
  | float x =>
      cases h : x.toModel.unpack <;>
        simp [toInt, intOfFloat, nonFinite, h, Float.Model.UnpackedFloat.isFinite,
          Except.map, Except.isOk, Except.toBool]
  | _ => simp [toInt, nonFinite, Except.isOk, Except.toBool]

/-- The conversion to a float raises exactly where no finite float is nearest. -/
theorem floatOfInt_eq (n : Int) :
    floatOfInt n =
      if tooLarge n then .error .overflowError
      else .ok (Float.ofModel (Float.Model.ofInt n)) := rfl

/-- Division by a non-zero int raises exactly where the divisor is too large. -/
theorem floatDivInt_eq {n : Int} (hn : n ≠ 0) (x : Float) :
    floatDivInt x n =
      if tooLarge n then .error .overflowError
      else .ok (x / Float.ofModel (Float.Model.ofInt n)) := by
  unfold floatDivInt
  rw [if_neg hn, floatOfInt_eq]
  cases tooLarge n <;> rfl

/-- A finite float has an exact value. -/
theorem floatExact?_isSome {x : Float} (h : x.toModel.unpack.isFinite = true) :
    ∃ q, floatExact? x = some q := by
  unfold floatExact?
  cases hx : x.toModel.unpack with
  | notANumber => simp [hx, Float.Model.UnpackedFloat.isFinite] at h
  | infinity s => simp [hx, Float.Model.UnpackedFloat.isFinite] at h
  | zero s => exact ⟨0, rfl⟩
  | finite s m e hm =>
      cases s with
      | negative => exact ⟨_, rfl⟩
      | positive => exact ⟨_, rfl⟩

/-- **The filter life.**  For non-negative remaining minutes of a positive total, the
percentage raises exactly when a counter is too large to be a float: the quotient is not
negative, so its minimum with `100.0` is finite and can be rounded. -/
theorem lifePercent_isOk {remaining total : Int} (hrem : 0 ≤ remaining) (htot : 0 < total) :
    (lifePercent remaining total).isOk = true ↔
      (tooLarge remaining || tooLarge total) = false := by
  unfold lifePercent
  simp only [floatOfInt_eq, floatDivInt_eq (show total ≠ 0 by omega)]
  cases hr : tooLarge remaining with
  | true => simp [bind, Except.bind, Except.isOk, Except.toBool]
  | false =>
      cases ht : tooLarge total with
      | true => simp [bind, Except.bind, Except.isOk, Except.toBool]
      | false =>
          let r := Float.ofModel (Float.Model.ofInt remaining)
          let t := Float.ofModel (Float.Model.ofInt total)
          have hr0 : NonNegativeFloat r := NonNegativeFloat.ofInt hrem
          have ht0 : NonNegativeFloat t := NonNegativeFloat.ofInt (by omega)
          have hundred : NonNegativeFloat 100.0 := by decide +kernel
          have hbound : (100.0 : Float).toModel.unpack.isFinite = true := by decide +kernel
          have hquot : NonNegativeFloat (r * 100.0 / t) := (hr0.mul hundred).div ht0
          obtain ⟨q, hq⟩ := floatExact?_isSome (isFinite_min hquot hbound)
          have hround : floatRound (floatMin 100.0 (r * 100.0 / t)) =
              .ok (roundHalfEven q) := by
            unfold floatRound floatMin
            rw [hq]
          simp only [Bool.or_self, iff_true]
          show (floatRound (floatMin 100.0 (r * 100.0 / t))).isOk = true
          rw [hround]
          rfl

/-! ## The whole report -/

/-- `_to_int` returns for everything but a float that is not finite. -/
theorem toInt_ok {value : Json} (h : nonFinite value = false) :
    ∃ n, toInt value = .ok n :=
  isOk_iff.mp ((toInt_isOk value).mpr h)

/-- The filter life of decoded counters raises exactly where it overflows.  The total is not zero
there, so no division by zero comes in between. -/
theorem filterLife_isOk {total used : Json} {t u : Option Int}
    (ht : toInt total = .ok t) (hu : toInt used = .ok u) :
    (filterLife lifePercent t (remainingMinutes t u)).isOk = true ↔
      lifeOverflows total used = false := by
  unfold lifeOverflows
  rw [ht, hu]
  cases t with
  | none => simp [filterLife, Except.isOk, Except.toBool]
  | some t =>
      cases u with
      | none => simp [filterLife, remainingMinutes, Except.isOk, Except.toBool]
      | some u =>
          by_cases hpos : 0 < t
          · have hremaining : 0 ≤ max 0 (t - u) := by omega
            have hlife := lifePercent_isOk hremaining hpos
            have hmap : ((lifePercent (max 0 (t - u)) t).map some).isOk =
                (lifePercent (max 0 (t - u)) t).isOk := by
              cases lifePercent (max 0 (t - u)) t <;> rfl
            simp only [filterLife, remainingMinutes]
            rw [if_pos hpos, hmap, hlife, decide_eq_true hpos, Bool.true_and]
          · simp [filterLife, remainingMinutes, hpos, Except.isOk, Except.toBool]

/-- **Decoding is total exactly on the decodable reports.**  `from_dps` returns a state
for a DP map if and only if the map is `Decodable`. -/
theorem fromDps_ok_iff (dps : PyDict) :
    (∃ state, fromDps dps = .ok state) ↔ Decodable dps := by
  rw [← isOk_iff]
  unfold fromDps fromDpsWith
  constructor
  · intro h
    obtain ⟨mode, hmode, h⟩ := isOk_bind.mp h
    obtain ⟨total, htotal, h⟩ := isOk_bind.mp h
    obtain ⟨used, hused, h⟩ := isOk_bind.mp h
    obtain ⟨life, hlife, h⟩ := isOk_bind.mp h
    obtain ⟨pm25, hpm25, _⟩ := isOk_bind.mp h
    refine ⟨(decodeMode_isOk _).mp (isOk_iff.mpr ⟨_, hmode⟩),
      (toInt_isOk _).mp (isOk_iff.mpr ⟨_, htotal⟩),
      (toInt_isOk _).mp (isOk_iff.mpr ⟨_, hused⟩), fun hok => ?_,
      (filterLife_isOk htotal hused).mp (isOk_iff.mpr ⟨_, hlife⟩)⟩
    rw [if_pos hok] at hpm25
    exact (toInt_isOk _).mp (isOk_iff.mpr ⟨_, hpm25⟩)
  · intro h
    obtain ⟨mode, hmode⟩ := isOk_iff.mp ((decodeMode_isOk _).mpr h.mode)
    obtain ⟨total, htotal⟩ := toInt_ok h.total
    obtain ⟨used, hused⟩ := toInt_ok h.used
    obtain ⟨life, hlife⟩ := isOk_iff.mp ((filterLife_isOk htotal hused).mpr h.life)
    refine isOk_bind.mpr ⟨mode, hmode, ?_⟩
    refine isOk_bind.mpr ⟨total, htotal, ?_⟩
    refine isOk_bind.mpr ⟨used, hused, ?_⟩
    refine isOk_bind.mpr ⟨life, hlife, ?_⟩
    by_cases hok : known (dps.get dpDeviceError) faultsByDp ≠ some .pm25Sensor
    · obtain ⟨pm25, hpm25⟩ := toInt_ok (h.pm25 hok)
      exact isOk_bind.mpr ⟨pm25, by rw [if_pos hok]; exact hpm25, rfl⟩
    · exact isOk_bind.mpr ⟨none, by rw [if_neg hok], rfl⟩

/-! ## Identical values decode alike -/

/-- `_to_bool` does not see how a number is written. -/
theorem toBool_canonical (x : Json) : toBool x.canonical = toBool x := by
  cases x with
  | float x =>
      unfold Json.canonical
      split <;> rfl
  | _ => rfl

/-- Looking up an option does not see it either. -/
theorem known_identical {α : Type} (options : List (PyStr × α)) {x y : Json}
    (h : x.Identical y) : known x options = known y options := by
  apply h.congr (f := fun x => known x options)
  intro x
  cases x with
  | float x =>
      unfold Json.canonical
      split <;> rfl
  | _ => rfl

/-- Nor does the hardware version. -/
theorem hardwareVersion_canonical (x : Json) : hardwareVersion x.canonical = hardwareVersion x := by
  cases x with
  | float x =>
      unfold Json.canonical
      split <;> rfl
  | _ => rfl

/-- Nor does the mode. -/
theorem decodeMode_canonical (x : Json) : decodeMode x.canonical = decodeMode x := by
  cases x with
  | float x =>
      unfold Json.canonical
      split <;> rfl
  | _ => rfl

/-- Zeros of both signs are zero. -/
theorem toInt_canonical (x : Json) : toInt x.canonical = toInt x := by
  cases x with
  | float x =>
      unfold Json.canonical
      split
      · rename_i sign hzero
        have hplain : toInt (.float 0.0) = .ok (some 0) := by decide +kernel
        rw [hplain, toInt, intOfFloat, hzero]
        rfl
      · rfl
  | _ => rfl

/-! ## Field by field -/

/-- A decoded state, field by field. -/
structure Decoded (dps : PyDict) (s : PurifierState) : Prop where
  power : s.power = toBool (dps.get dpSwitch)
  mode : decodeMode (dps.get dpMode) = .ok (s.mode, s.fanSpeed)
  filter : ∃ total used, toInt (dps.get dpFilterTotalMinutes) = .ok total ∧
    toInt (dps.get dpFilterUsedMinutes) = .ok used ∧
    s.filterRemainingMinutes = remainingMinutes total used ∧
    filterLife lifePercent total (remainingMinutes total used) = .ok s.filterLifePercent
  fault : s.fault = known (dps.get dpDeviceError) faultsByDp
  pm25 : (if s.fault ≠ some .pm25Sensor then toInt (dps.get dpPm25) else .ok none) = .ok s.pm25
  airQuality : s.airQuality =
    if s.fault ≠ some .pm25Sensor then known (dps.get dpAirQuality) airQualityLevels else none
  filterReplaceNeeded :
    s.filterReplaceNeeded = flag (dps.get dpFilterStatus) filterStatusReplaceValue
  filterCoverOpen : s.filterCoverOpen = flag (dps.get dpFilterCover) filterCoverOpenValue
  hardwareVersion : s.hardwareVersion = hardwareVersion (dps.get dpHwVersion)
  dps : s.dps = dps

/-- What `from_dps` returns is decoded.  Its parts are taken apart in the order of the source, so
that later proofs read the fields only. -/
theorem fromDps_decoded {dps : PyDict} {s : PurifierState} (h : fromDps dps = .ok s) :
    Decoded dps s := by
  obtain ⟨⟨mode, fanSpeed⟩, hmode, h⟩ := ok_bind.mp h
  obtain ⟨total, htotal, h⟩ := ok_bind.mp h
  obtain ⟨used, hused, h⟩ := ok_bind.mp h
  obtain ⟨life, hlife, h⟩ := ok_bind.mp h
  obtain ⟨pm25, hpm25, h⟩ := ok_bind.mp h
  obtain rfl := Except.ok.inj h
  exact
    { power := rfl
      mode := hmode
      filter := ⟨total, used, htotal, hused, rfl, hlife⟩
      fault := rfl
      pm25 := hpm25
      airQuality := rfl
      filterReplaceNeeded := rfl
      filterCoverOpen := rfl
      hardwareVersion := rfl
      dps := rfl }

end Purifier
