import HaBirdie.PythonValues

/-!
# What a Birdie reports over Bluetooth

`ble.py`, `models.py` and the characteristics of `const.py`: the payload of each
characteristic, decoded into changes of a `BirdieData`, and the merge of such changes.  A
characteristic is named by its constant, not by its UUID string.
-/

namespace Ble

open Python

/-- The characteristics that are read or notify, as in `READ_CHARACTERISTIC_UUIDS`. -/
inductive Characteristic
  | co2
  | legacyTemperature
  | temperature
  | legacyHumidity
  | humidity
  | birdieState
  | batteryLevel
  | iaqCo2Threshold
  | coolDownPeriod
  | firmwareRevision
  | hardwareVersion
deriving DecidableEq

/-- `READ_CHARACTERISTIC_UUIDS`. -/
def readCharacteristics : List Characteristic :=
  [.co2, .legacyTemperature, .temperature, .legacyHumidity, .humidity, .birdieState,
    .batteryLevel, .iaqCo2Threshold, .coolDownPeriod, .firmwareRevision, .hardwareVersion]

/-- `NOTIFY_CHARACTERISTIC_UUIDS`. -/
def notifyCharacteristics : List Characteristic :=
  [.co2, .legacyTemperature, .temperature, .legacyHumidity, .humidity, .birdieState,
    .batteryLevel]

/-! ## Payloads -/

/-- `bytes`. -/
abbrev Bytes := List UInt8

/-- `_ensure_length`. -/
def ensureLength (data : Bytes) (expected : Nat) : Except PyException Bytes :=
  if data.length = expected then .ok data else .error .valueError

/-- `int.from_bytes(data, "little", signed=False)`. -/
def fromBytesLe : Bytes → Nat
  | [] => 0
  | b :: rest => b.toNat + 256 * fromBytesLe rest

/-- `int.from_bytes(data, "little", signed=True)`. -/
def fromBytesLeSigned (data : Bytes) : Int :=
  let n := fromBytesLe data
  if 256 ^ data.length ≤ 2 * n then (n : Int) - 256 ^ data.length else n

/-- `uint8`. -/
def uint8 (data : Bytes) : Except PyException Int :=
  (ensureLength data 1).map fun payload => fromBytesLe payload

/-- `uint16_le`. -/
def uint16Le (data : Bytes) : Except PyException Int :=
  (ensureLength data 2).map fun payload => fromBytesLe payload

/-- `parse_version`. -/
def parseVersion (data : Bytes) : Except PyException PyStr :=
  match data with
  | [major, minor, patch] =>
      .ok (numeral major.toNat ++ py "." ++ numeral minor.toNat ++ py "." ++ numeral patch.toNat)
  | _ => .error .valueError

/-- `n / 1000` of an int of at most four bytes: the quotient of two exact floats. -/
def thousandths (n : Int) : Float :=
  Float.ofModel (Float.Model.ofInt n) / Float.ofModel (Float.Model.ofInt 1000)

/-- `parse_temperature_celsius`. -/
def parseTemperatureCelsius (data : Bytes) : Except PyException Float :=
  if data.length = 2 ∨ data.length = 4 then .ok (thousandths (fromBytesLeSigned data))
  else .error .valueError

/-- `parse_humidity_percent`. -/
def parseHumidityPercent (data : Bytes) : Except PyException Float :=
  if data.length = 2 ∨ data.length = 4 then .ok (thousandths (fromBytesLe data))
  else .error .valueError

/-- `BATTERY_LEVEL_PERCENT.get`. -/
def batteryLevelPercent (level : Int) : Option Int :=
  match level with
  | 0 => some 100
  | 1 => some 75
  | 2 => some 50
  | 3 => some 25
  | 4 => some 0
  | _ => none

/-! ## Data -/

/-- `BirdieData`. -/
structure BirdieData where
  address : PyStr
  name : Option PyStr := none
  available : Bool := false
  co2Ppm : Option Int := none
  temperatureCelsius : Option Float := none
  humidityPercent : Option Float := none
  birdieState : Option Int := none
  batteryPercent : Option Int := none
  co2ThresholdPpm : Option Int := none
  coolDownMinutes : Option Int := none
  firmwareVersion : Option PyStr := none
  hardwareVersion : Option PyStr := none

/-- One field of the changes that `parse_characteristic_values` returns. -/
inductive Change
  | co2Ppm (n : Int)
  | temperatureCelsius (x : Float)
  | humidityPercent (x : Float)
  | birdieState (n : Int)
  | batteryPercent (n : Option Int)
  | co2ThresholdPpm (n : Int)
  | coolDownMinutes (n : Int)
  | firmwareVersion (s : PyStr)
  | hardwareVersion (s : PyStr)

/-- `BirdieData.updated` with one field. -/
def BirdieData.change (d : BirdieData) : Change → BirdieData
  | .co2Ppm n => { d with co2Ppm := some n }
  | .temperatureCelsius x => { d with temperatureCelsius := some x }
  | .humidityPercent x => { d with humidityPercent := some x }
  | .birdieState n => { d with birdieState := some n }
  | .batteryPercent n => { d with batteryPercent := n }
  | .co2ThresholdPpm n => { d with co2ThresholdPpm := some n }
  | .coolDownMinutes n => { d with coolDownMinutes := some n }
  | .firmwareVersion s => { d with firmwareVersion := some s }
  | .hardwareVersion s => { d with hardwareVersion := some s }

/-- `BirdieData.updated`; of the changes to one field the last one counts. -/
def BirdieData.updated (changes : List Change) (d : BirdieData) : BirdieData :=
  changes.foldl BirdieData.change d

/-- `parse_characteristic_values`. -/
def parseCharacteristicValues (c : Characteristic) (data : Bytes) : Except PyException Change :=
  match c with
  | .co2 => (uint16Le data).map .co2Ppm
  | .legacyTemperature | .temperature =>
      (parseTemperatureCelsius data).map .temperatureCelsius
  | .legacyHumidity | .humidity => (parseHumidityPercent data).map .humidityPercent
  | .birdieState => (uint8 data).map .birdieState
  | .batteryLevel => (uint8 data).map fun n => .batteryPercent (batteryLevelPercent n)
  | .iaqCo2Threshold => (uint16Le data).map .co2ThresholdPpm
  | .coolDownPeriod => (uint8 data).map .coolDownMinutes
  | .firmwareRevision => (parseVersion data).map .firmwareVersion
  | .hardwareVersion => (parseVersion data).map .hardwareVersion

/-- Decoded values are merged without touching availability. -/
@[simp] theorem updated_available (changes : List Change) (d : BirdieData) :
    (d.updated changes).available = d.available := by
  unfold BirdieData.updated
  induction changes generalizing d with
  | nil => rfl
  | cons c changes ih =>
      rw [List.foldl_cons, ih]
      cases c <;> rfl

end Ble
