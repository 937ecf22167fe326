import HaBirdie.PythonValues

/-!
# The purifier's data points

`purifier/model.py`: the data points (DPs) of a Birdie air purifier, their decoding to a
`PurifierState`, the commands, and the state a command is expected to produce.

Decoding is written over the way the filter life is computed (`life`), because the rest of
the state does not depend on it; `fromDps` is the decoder with the float arithmetic of the
source.
-/

namespace Purifier

open Python

/-- `PRODUCT_KEYS`. -/
def productKeys : List PyStr := [py "a2zf7q0zxcutn5dy"]

/-! ## DP ids and values -/

def dpSwitch : PyStr := py "1"
def dpPm25 : PyStr := py "2"
def dpMode : PyStr := py "3"
def dpAirQuality : PyStr := py "21"
def dpFilterTotalMinutes : PyStr := py "105"
def dpFilterUsedMinutes : PyStr := py "106"
def dpFilterStatus : PyStr := py "107"
def dpResetFilter : PyStr := py "108"
def dpFilterCover : PyStr := py "109"
def dpHwVersion : PyStr := py "110"
def dpDeviceError : PyStr := py "111"

/-- The two presets and the manual mode that goes with a fan speed. -/
inductive Mode
  | auto
  | sleep
  | manual
deriving DecidableEq, Repr

def modeAuto : PyStr := py "auto"
def modeSleep : PyStr := py "sleep"
def modeManual : PyStr := py "manual"

/-- `PRESET_MODES`, each with the mode it names. -/
def presetModes : List (PyStr × Mode) := [(modeAuto, .auto), (modeSleep, .sleep)]

def fanSpeedMin : Int := 1
def fanSpeedMax : Int := 4

inductive AirQuality
  | good
  | moderate
  | poor
  | veryPoor
deriving DecidableEq, Repr

/-- `AIR_QUALITY_LEVELS`. -/
def airQualityLevels : List (PyStr × AirQuality) :=
  [(py "good", .good), (py "moderate", .moderate), (py "poor", .poor),
   (py "very_poor", .veryPoor)]

inductive Fault
  | none
  | fan
  | pm25Sensor
  | overcurrent
deriving DecidableEq, Repr

/-- `_FAULTS_BY_DP`. -/
def faultsByDp : List (PyStr × Fault) :=
  [(py "normal", .none), (py "fan", .fan), (py "pm25", .pm25Sensor),
   (py "ocp", .overcurrent)]

def filterStatusReplaceValue : Bool := true
def filterCoverOpenValue : Bool := false
def resetFilterValue : Bool := true

/-! ## Helpers -/

/-- `_to_bool`. -/
def toBool : Json → Option Bool
  | .bool b => some b
  | _ => none

/-- `_to_int`. -/
def toInt : Json → Except PyException (Option Int)
  | .int n => .ok (some n)
  | .float x => (intOfFloat x).map some
  | _ => .ok none

/-- `_known`, for a table of known texts. -/
def known {α : Type} (value : Json) (options : List (PyStr × α)) : Option α :=
  match value with
  | .str s => options.lookup s
  | _ => none

/-- `_flag`. -/
def flag (value : Json) (trueMeans : Bool) : Option Bool :=
  (toBool value).map (· == trueMeans)

/-- `_decode_mode`. -/
def decodeMode (value : Json) : Except PyException (Option Mode × Option Int) :=
  match known value presetModes with
  | some preset => .ok (some preset, none)
  | none =>
      match value with
      | .str s =>
          if modeManual.isPrefixOf s then
            let suffix := s.drop modeManual.length
            if isdigit suffix then do
              let speed ← intOfStr suffix
              if fanSpeedMin ≤ speed ∧ speed ≤ fanSpeedMax then
                pure (some .manual, some speed)
              else pure (none, none)
            else .ok (none, none)
          else .ok (none, none)
      | _ => .ok (none, none)

/-! ## The state -/

/-- `PurifierState`. -/
structure PurifierState where
  power : Option Bool
  mode : Option Mode
  fanSpeed : Option Int
  pm25 : Option Int
  airQuality : Option AirQuality
  filterLifePercent : Option Int
  filterRemainingMinutes : Option Int
  filterReplaceNeeded : Option Bool
  filterCoverOpen : Option Bool
  hardwareVersion : Option PyStr
  fault : Option Fault
  dps : PyDict

/-- The remaining minutes, when both counters are known. -/
def remainingMinutes : Option Int → Option Int → Option Int
  | some total, some used => some (max 0 (total - used))
  | _, _ => none

/-- `round(min(100.0, remaining * 100.0 / total))`. -/
def lifePercent (remaining total : Int) : Except PyException Int := do
  let r ← floatOfInt remaining
  let quotient ← floatDivInt (r * 100.0) total
  floatRound (floatMin 100.0 quotient)

/-- The filter life, where the source computes one. -/
def filterLife (life : Int → Int → Except PyException Int) :
    Option Int → Option Int → Except PyException (Option Int)
  | some total, some remaining =>
      if 0 < total then (life remaining total).map some else .ok none
  | _, _ => .ok none

/-- `hardware_version`: a non-empty string. -/
def hardwareVersion : Json → Option PyStr
  | .str [] => none
  | .str s => some s
  | _ => none

/-- `PurifierState.from_dps`, over a way to compute the filter life. -/
def fromDpsWith (life : Int → Int → Except PyException Int) (dps : PyDict) :
    Except PyException PurifierState := do
  let (mode, fanSpeed) ← decodeMode (dps.get dpMode)
  let total ← toInt (dps.get dpFilterTotalMinutes)
  let used ← toInt (dps.get dpFilterUsedMinutes)
  let remaining := remainingMinutes total used
  let filterLifePercent ← filterLife life total remaining
  let fault := known (dps.get dpDeviceError) faultsByDp
  -- with a broken sensor the device reports a meaningless PM2.5 value and air quality
  let sensorOk := fault ≠ some .pm25Sensor
  let pm25 ← (if sensorOk then toInt (dps.get dpPm25) else .ok none)
  pure
    { power := toBool (dps.get dpSwitch)
      mode, fanSpeed, pm25
      airQuality := if sensorOk then known (dps.get dpAirQuality) airQualityLevels else none
      filterLifePercent
      filterRemainingMinutes := remaining
      filterReplaceNeeded := flag (dps.get dpFilterStatus) filterStatusReplaceValue
      filterCoverOpen := flag (dps.get dpFilterCover) filterCoverOpenValue
      hardwareVersion := hardwareVersion (dps.get dpHwVersion)
      fault, dps }

/-- `PurifierState.from_dps`. -/
def fromDps : PyDict → Except PyException PurifierState := fromDpsWith lifePercent

/-- `_PODIUM_ONLY_DPS`. -/
def podiumOnlyDps : List PyStr :=
  [dpFilterTotalMinutes, dpFilterUsedMinutes, dpHwVersion, dpDeviceError]

/-- `looks_like_purifier`. -/
def looksLikePurifier (dps : PyDict) : Except PyException Bool :=
  if dps.entries.isEmpty then .ok true
  else do
    let (mode, _) ← decodeMode (dps.get dpMode)
    pure ((toBool (dps.get dpSwitch)).isSome && mode.isSome &&
      podiumOnlyDps.any fun dp => decide (dp ∈ dps))

/-! ## Commands -/

/-- `CommandError`. -/
inductive CommandError
  | modeExpected
  | speedExpectsInteger
  | speedExpectsRange
deriving DecidableEq, Repr

/-- `power_dps`. -/
def powerDps (on : Bool) : PyDict := (∅ : PyDict).insert dpSwitch (.bool on)

/-- `mode_dps`. -/
def modeDps (mode : PyStr) : Except CommandError PyDict :=
  match presetModes.lookup mode with
  | some _ => .ok ((∅ : PyDict).insert dpMode (.str mode))
  | none => .error .modeExpected

/-- `fan_speed_dps`. -/
def fanSpeedDps (speed : Json) : Except CommandError PyDict :=
  match speed with
  | .int n =>
      if fanSpeedMin ≤ n ∧ n ≤ fanSpeedMax then
        .ok ((∅ : PyDict).insert dpMode (.str (modeManual ++ numeral n)))
      else .error .speedExpectsRange
  | _ => .error .speedExpectsInteger

/-- `reset_filter_dps`. -/
def resetFilterDps : PyDict := (∅ : PyDict).insert dpResetFilter (.bool resetFilterValue)

/-- `apply_dps`, over a way to compute the filter life. A filter reset is a trigger and is
left out. -/
def applyDpsWith (life : Int → Int → Except PyException Int) (state : PurifierState)
    (dps : PyDict) : Except PyException PurifierState :=
  fromDpsWith life (state.dps.update (dps.erase dpResetFilter))

/-- `apply_dps`. -/
def applyDps : PurifierState → PyDict → Except PyException PurifierState :=
  applyDpsWith lifePercent

example : (fromDps ((∅ : PyDict).insert dpMode (.str (py "manual3")))).toOption.map
    (fun s => (s.mode, s.fanSpeed)) = some (some .manual, some 3) := by decide +kernel

end Purifier
