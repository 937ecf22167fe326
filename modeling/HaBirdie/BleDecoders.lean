import HaBirdie.BleConnection

/-!
# The two decoders of a Bluetooth payload

`ble.py` once more, from the UUID string on: `parse_characteristic_values` with the mapping it
returns, `parse_known_characteristic` with its text, and what the exceptions say.  The two are
chains of comparisons with the same UUIDs, and each parses the payload on its own.

* `read` — one reading of a payload, for a characteristic of the tables; both decoders are a view
  of it, `Reading.change` of the one and `Reading.text` of the other;
* `decoders_agree` — so they raise on the same payloads, and what is returned fits `BirdieData`;
* `handleNotify_eq`, `initialRead_eq` — where the client calls the second decoder after the first
  one, nothing is raised, and its values are those of the characteristics by name;
* `updated_dictOfAll` — a merge of mappings is the merge of the changes they hold.
-/

namespace Ble.Decoders

open Python

/-! ## Payloads -/

/-- What the decoders and `BirdieData.updated` can raise; a `ValueError` with its text. -/
inductive Raised
  | valueError (text : PyStr)
  | indexError
  | typeError
deriving DecidableEq

/-- `_ensure_length`. -/
def ensureLength (data : Bytes) (expected : Nat) : Except Raised Bytes :=
  if data.length = expected then .ok data
  else .error (.valueError (py "expected " ++ numeral expected ++ py " byte(s), got " ++
    numeral data.length))

/-- `payload[i]`. -/
def item (payload : Bytes) (i : Nat) : Except Raised Int :=
  match payload[i]? with
  | some b => .ok b.toNat
  | none => .error .indexError

/-- `uint8`. -/
def uint8 (data : Bytes) : Except Raised Int := do
  item (← ensureLength data 1) 0

/-- `uint16_le`. -/
def uint16Le (data : Bytes) : Except Raised Int := do
  return fromBytesLe (← ensureLength data 2)

/-- `int16_le`. -/
def int16Le (data : Bytes) : Except Raised Int := do
  return fromBytesLeSigned (← ensureLength data 2)

/-- `uint32_le`. -/
def uint32Le (data : Bytes) : Except Raised Int := do
  return fromBytesLe (← ensureLength data 4)

/-- `int32_le`. -/
def int32Le (data : Bytes) : Except Raised Int := do
  return fromBytesLeSigned (← ensureLength data 4)

/-- `parse_version`. -/
def parseVersion (data : Bytes) : Except Raised PyStr := do
  let payload ← ensureLength data 3
  return numeral (← item payload 0) ++ py "." ++ numeral (← item payload 1) ++ py "." ++
    numeral (← item payload 2)

/-- `parse_co2_ppm`. -/
def parseCo2Ppm (data : Bytes) : Except Raised Int := uint16Le data

/-- Two or four bytes in thousandths: `parse_temperature_celsius` and `parse_humidity_percent`. -/
def parseThousandths (two four : Bytes → Except Raised Int) (data : Bytes) :
    Except Raised Float := do
  if data.length = 2 then
    return thousandths (← two data)
  if data.length = 4 then
    return thousandths (← four data)
  throw (.valueError (py "expected 2 or 4 byte(s), got " ++ numeral data.length))

/-- `parse_temperature_celsius`. -/
def parseTemperatureCelsius : Bytes → Except Raised Float := parseThousandths int16Le int32Le

/-- `parse_humidity_percent`. -/
def parseHumidityPercent : Bytes → Except Raised Float := parseThousandths uint16Le uint32Le

/-- `BIRDIE_STATE_NAMES.get(state, f"UNKNOWN_{state}")`. -/
def birdieStateName (state : Int) : PyStr :=
  match state with
  | 0 => py "BIRDIE_UP"
  | 1 => py "BIRDIE_DOWN"
  | 2 => py "BIRDIE_COOLDOWN"
  | _ => py "UNKNOWN_" ++ numeral state

/-- `parse_birdie_state`: the state, its name, and whether it is `BIRDIE_STATE_DOWN`. -/
def parseBirdieState (data : Bytes) : Except Raised (Int × PyStr × Bool) := do
  let state ← uint8 data
  return (state, birdieStateName state, decide (state = 1))

/-- `parse_battery_percent`. -/
def parseBatteryPercent (data : Bytes) : Except Raised (Option Int) := do
  return batteryLevelPercent (← uint8 data)

/-- `parse_co2_threshold_ppm`. -/
def parseCo2ThresholdPpm (data : Bytes) : Except Raised Int := uint16Le data

/-- `parse_cool_down_minutes`. -/
def parseCoolDownMinutes (data : Bytes) : Except Raised Int := uint8 data

/-! ## UUIDs -/

/-- The UUID that a characteristic's constant is. -/
def uuidOf : Characteristic → PyStr
  | .co2 => py "8fd61dc9-bb74-48c8-924a-d95c57c2f42f"
  | .legacyTemperature => py "00002a6e-0000-1000-8000-00805f9b34fb"
  | .temperature => py "0b91651c-cadb-490c-92ca-45cc8f40f1c9"
  | .legacyHumidity => py "00002a6f-0000-1000-8000-00805f9b34fb"
  | .humidity => py "0842ee99-4d87-40c5-89c2-8e5b23f37c59"
  | .birdieState => py "6fdbae35-d241-4a74-bbc3-992010010601"
  | .batteryLevel => py "4769d60c-49b1-4e4b-bc0c-149c5e757bdd"
  | .iaqCo2Threshold => py "5f46fade-19a9-4dd5-991e-22729e3ebc44"
  | .coolDownPeriod => py "2f0c3872-c2be-4416-9610-14a103ed1fc7"
  | .firmwareRevision => py "8798982b-8e1a-4102-ab20-b8f1b6a75495"
  | .hardwareVersion => py "a418b935-1e12-4e2a-9e30-81c91ea6b5a0"

/-- `TEMPERATURE_CHARACTERISTIC_UUIDS`. -/
def temperatureUuids : List PyStr := [uuidOf .legacyTemperature, uuidOf .temperature]

/-- `HUMIDITY_CHARACTERISTIC_UUIDS`. -/
def humidityUuids : List PyStr := [uuidOf .legacyHumidity, uuidOf .humidity]

/-! ## The decoders -/

/-- `None` or an int, as a value of a mapping. -/
def optionalInt : Option Int → Json
  | none => .null
  | some n => .int n

section

variable (beyond : PyStr → Nat → PyStr)

/-- `parse_characteristic_values`. -/
def parseCharacteristicValues (characteristicUuid : PyStr) (data : Bytes) :
    Except Raised PyDict := do
  let uuid := lower beyond characteristicUuid
  if uuid = uuidOf .co2 then
    return .singleton (py "co2_ppm") (.int (← parseCo2Ppm data))
  if temperatureUuids.contains uuid then
    return .singleton (py "temperature_celsius") (.float (← parseTemperatureCelsius data))
  if humidityUuids.contains uuid then
    return .singleton (py "humidity_percent") (.float (← parseHumidityPercent data))
  if uuid = uuidOf .birdieState then
    let (state, _, _) ← parseBirdieState data
    return .singleton (py "birdie_state") (.int state)
  if uuid = uuidOf .batteryLevel then
    return .singleton (py "battery_percent") (optionalInt (← parseBatteryPercent data))
  if uuid = uuidOf .iaqCo2Threshold then
    return .singleton (py "co2_threshold_ppm") (.int (← parseCo2ThresholdPpm data))
  if uuid = uuidOf .coolDownPeriod then
    return .singleton (py "cool_down_minutes") (.int (← parseCoolDownMinutes data))
  if uuid = uuidOf .firmwareRevision then
    return .singleton (py "firmware_version") (.str (← parseVersion data))
  if uuid = uuidOf .hardwareVersion then
    return .singleton (py "hardware_version") (.str (← parseVersion data))
  return ∅

/-- `parse_known_characteristic`. -/
def parseKnownCharacteristic (characteristicUuid : PyStr) (data : Bytes) :
    Except Raised PyStr := do
  let uuid := lower beyond characteristicUuid
  if uuid = uuidOf .co2 then
    return numeral (← parseCo2Ppm data) ++ py " ppm"
  if temperatureUuids.contains uuid then
    return formatThousandths (← parseTemperatureCelsius data) ++ py " deg C"
  if humidityUuids.contains uuid then
    return formatThousandths (← parseHumidityPercent data) ++ py " %RH"
  if uuid = uuidOf .birdieState then
    let (state, name, alarm) ← parseBirdieState data
    return name ++ py " (" ++ numeral state ++ py "), CO2 alarm " ++
      (if alarm then py "on" else py "off")
  if uuid = uuidOf .batteryLevel then
    let raw ← uint8 data
    match ← parseBatteryPercent data with
    | none => return py "unknown enum " ++ numeral raw
    | some percent => return numeral percent ++ py "% (enum " ++ numeral raw ++ py ")"
  if uuid = uuidOf .iaqCo2Threshold then
    return numeral (← parseCo2ThresholdPpm data) ++ py " ppm"
  if uuid = uuidOf .coolDownPeriod then
    return numeral (← parseCoolDownMinutes data) ++ py " min"
  if [uuidOf .firmwareRevision, uuidOf .hardwareVersion].contains uuid then
    parseVersion data
  else
    return py "unparsed"

end

/-! ## `BirdieData` -/

/-- The fields of `BirdieData`. -/
inductive Field
  | address
  | name
  | available
  | co2Ppm
  | temperatureCelsius
  | humidityPercent
  | birdieState
  | batteryPercent
  | co2ThresholdPpm
  | coolDownMinutes
  | firmwareVersion
  | hardwareVersion
deriving DecidableEq

namespace Field

/-- The name of a field. -/
def key : Field → PyStr
  | address => py "address"
  | name => py "name"
  | available => py "available"
  | co2Ppm => py "co2_ppm"
  | temperatureCelsius => py "temperature_celsius"
  | humidityPercent => py "humidity_percent"
  | birdieState => py "birdie_state"
  | batteryPercent => py "battery_percent"
  | co2ThresholdPpm => py "co2_threshold_ppm"
  | coolDownMinutes => py "cool_down_minutes"
  | firmwareVersion => py "firmware_version"
  | hardwareVersion => py "hardware_version"

/-- All fields, in their order. -/
def all : List Field :=
  [address, name, available, co2Ppm, temperatureCelsius, humidityPercent, birdieState,
    batteryPercent, co2ThresholdPpm, coolDownMinutes, firmwareVersion, hardwareVersion]

/-- Every field of the dataclass is in the list of them. -/
theorem mem_all (f : Field) : f ∈ all := by
  cases f <;> decide

/-- Fields differ in their names. -/
theorem key_inj {f g : Field} : f.key = g.key ↔ f = g := by
  have hnodup : (all.map key).Nodup := by decide
  constructor
  · exact List.inj_on_of_nodup_map hnodup (mem_all f) (mem_all g)
  · exact congrArg key

end Field

/-- A `BirdieData` as the language has it: annotations are not checked, so a field may hold any
value. -/
abbrev Record := Field → Json

/-- `BirdieData.updated`: `replace` passes all values by keyword, and refuses a name that no field
has. -/
def Record.updated (d : Record) (changes : PyDict) : Except Raised Record :=
  if ∀ key ∈ changes.keys, ∃ f ∈ Field.all, f.key = key then
    .ok fun f => (changes.lookup f.key).getD (d f)
  else .error .typeError

/-! ## Readings -/

/-- What a payload says. -/
inductive Reading
  | co2 (ppm : Int)
  | temperature (celsius : Float)
  | humidity (percent : Float)
  | birdieState (state : Int)
  | battery (level : Int)
  | co2Threshold (ppm : Int)
  | coolDown (minutes : Int)
  | firmware (version : PyStr)
  | hardware (version : PyStr)

/-- The characteristic of a UUID. -/
def characteristic? (uuid : PyStr) : Option Characteristic :=
  readCharacteristics.find? fun c => uuidOf c = uuid

/-- The reading of a payload. -/
def read (c : Characteristic) (data : Bytes) : Except Raised Reading :=
  match c with
  | .co2 => .co2 <$> parseCo2Ppm data
  | .legacyTemperature | .temperature => .temperature <$> parseTemperatureCelsius data
  | .legacyHumidity | .humidity => .humidity <$> parseHumidityPercent data
  | .birdieState => .birdieState <$> uint8 data
  | .batteryLevel => .battery <$> uint8 data
  | .iaqCo2Threshold => .co2Threshold <$> parseCo2ThresholdPpm data
  | .coolDownPeriod => .coolDown <$> parseCoolDownMinutes data
  | .firmwareRevision => .firmware <$> parseVersion data
  | .hardwareVersion => .hardware <$> parseVersion data

namespace Reading

/-- The change that a reading is for the first decoder. -/
def change : Reading → Change
  | co2 n => .co2Ppm n
  | temperature x => .temperatureCelsius x
  | humidity x => .humidityPercent x
  | birdieState n => .birdieState n
  | battery n => .batteryPercent (batteryLevelPercent n)
  | co2Threshold n => .co2ThresholdPpm n
  | coolDown n => .coolDownMinutes n
  | firmware s => .firmwareVersion s
  | hardware s => .hardwareVersion s

/-- The text that a reading is for the second decoder. -/
def text : Reading → PyStr
  | co2 n => numeral n ++ py " ppm"
  | temperature x => formatThousandths x ++ py " deg C"
  | humidity x => formatThousandths x ++ py " %RH"
  | birdieState n => birdieStateName n ++ py " (" ++ numeral n ++ py "), CO2 alarm " ++
      (if decide (n = 1) then py "on" else py "off")
  | battery n =>
      match batteryLevelPercent n with
      | none => py "unknown enum " ++ numeral n
      | some percent => numeral percent ++ py "% (enum " ++ numeral n ++ py ")"
  | co2Threshold n => numeral n ++ py " ppm"
  | coolDown n => numeral n ++ py " min"
  | firmware s => s
  | hardware s => s

end Reading

/-- The field of a change. -/
def fieldOf : Change → Field
  | .co2Ppm _ => .co2Ppm
  | .temperatureCelsius _ => .temperatureCelsius
  | .humidityPercent _ => .humidityPercent
  | .birdieState _ => .birdieState
  | .batteryPercent _ => .batteryPercent
  | .co2ThresholdPpm _ => .co2ThresholdPpm
  | .coolDownMinutes _ => .coolDownMinutes
  | .firmwareVersion _ => .firmwareVersion
  | .hardwareVersion _ => .hardwareVersion

/-- The value of a change. -/
def valueOf : Change → Json
  | .co2Ppm n | .birdieState n | .co2ThresholdPpm n | .coolDownMinutes n => .int n
  | .temperatureCelsius x | .humidityPercent x => .float x
  | .batteryPercent n => optionalInt n
  | .firmwareVersion s | .hardwareVersion s => .str s

/-- The mapping of a change. -/
def dictOf (c : Change) : PyDict := .singleton (fieldOf c).key (valueOf c)

/-! ## Dispatch -/

/-- Every characteristic that is known is read at the beginning of a connection. -/
theorem mem_readCharacteristics (c : Characteristic) : c ∈ readCharacteristics := by
  cases c <;> decide

/-- The UUIDs differ. -/
theorem uuidOf_inj {c c' : Characteristic} : uuidOf c = uuidOf c' ↔ c = c' := by
  have hnodup : (readCharacteristics.map uuidOf).Nodup := by decide
  constructor
  · exact List.inj_on_of_nodup_map hnodup (mem_readCharacteristics c) (mem_readCharacteristics c')
  · exact congrArg uuidOf

/-- The UUIDs are in ASCII. -/
theorem uuidOf_ascii (c : Characteristic) : ∀ x ∈ uuidOf c, x.val < 0x80 := by
  have hall : ∀ c ∈ readCharacteristics, (uuidOf c).all fun x => x.val < 0x80 := by
    decide
  intro x hx
  exact of_decide_eq_true (List.all_eq_true.mp (hall c (mem_readCharacteristics c)) x hx)

/-- A characteristic is found under its own UUID, and under no other.  The UUIDs of the table are
all different. -/
theorem characteristic?_some {uuid : PyStr} {c : Characteristic} :
    characteristic? uuid = some c ↔ uuid = uuidOf c := by
  unfold characteristic?
  constructor
  · intro h
    have hc := List.find?_some h
    exact (of_decide_eq_true hc).symm
  · intro h
    subst h
    cases hfind : readCharacteristics.find? fun c' => uuidOf c' = uuidOf c with
    | none =>
        have hnone := List.find?_eq_none.mp hfind c (mem_readCharacteristics c)
        simp at hnone
    | some c' =>
        have hc' := List.find?_some hfind
        rw [uuidOf_inj.mp (of_decide_eq_true hc')]

/-- What is found under no characteristic is the UUID of none. -/
theorem characteristic?_none {uuid : PyStr} (h : characteristic? uuid = none)
    (c : Characteristic) : uuid ≠ uuidOf c := by
  intro hc
  rw [characteristic?_some.mpr hc] at h
  cases h

section

variable {beyond : PyStr → Nat → PyStr}

/-- Under any spelling of a known UUID `parse_characteristic_values` reads the payload as that
characteristic. -/
theorem parseCharacteristicValues_known {s : PyStr} {c : Characteristic}
    (h : lower beyond s = uuidOf c) (data : Bytes) :
    parseCharacteristicValues beyond s data = (fun r => dictOf r.change) <$> read c data := by
  unfold parseCharacteristicValues
  rw [h]
  cases c <;>
    simp only [uuidOf_inj, reduceCtorEq, ↓reduceIte, temperatureUuids, humidityUuids,
      List.contains_iff_mem, List.mem_cons, List.not_mem_nil, or_self, or_false, or_true,
      bind_pure_comp, Functor.map_map, parseBirdieState, parseBatteryPercent, read] <;>
    rfl

/-- So does `parse_known_characteristic`, which prints what it has read.  The two functions
therefore accept the same payloads. -/
theorem parseKnownCharacteristic_known {s : PyStr} {c : Characteristic}
    (h : lower beyond s = uuidOf c) (data : Bytes) :
    parseKnownCharacteristic beyond s data = Reading.text <$> read c data := by
  unfold parseKnownCharacteristic
  rw [h]
  cases c <;>
    simp only [uuidOf_inj, reduceCtorEq, ↓reduceIte, temperatureUuids, humidityUuids,
      List.contains_iff_mem, List.mem_cons, List.not_mem_nil, or_self, or_false, or_true,
      bind_pure_comp, Functor.map_map, parseBirdieState, parseBatteryPercent, read]
  case batteryLevel =>
    -- the payload is parsed twice, with the same result
    cases uint8 data with
    | error e => rfl
    | ok raw =>
        change (match batteryLevelPercent raw with
          | none => _
          | some percent => _) = Except.ok (Reading.text (.battery raw))
        cases hpercent : batteryLevelPercent raw with
        | none =>
            simp only [Reading.text, hpercent]
            rfl
        | some percent =>
            simp only [Reading.text, hpercent]
            rfl
  case firmwareRevision => exact (id_map (parseVersion data)).symm
  case hardwareVersion => exact (id_map (parseVersion data)).symm
  all_goals rfl

/-- An unknown UUID has no values, whatever the payload. -/
theorem parseCharacteristicValues_unknown {s : PyStr}
    (h : ∀ c, lower beyond s ≠ uuidOf c) (data : Bytes) :
    parseCharacteristicValues beyond s data = .ok ∅ := by
  simp only [parseCharacteristicValues, temperatureUuids, humidityUuids,
    List.contains_iff_mem, List.mem_cons, List.not_mem_nil, h, or_self, if_false]
  rfl

/-- An unknown UUID is printed as such, whatever the payload. -/
theorem parseKnownCharacteristic_unknown {s : PyStr}
    (h : ∀ c, lower beyond s ≠ uuidOf c) (data : Bytes) :
    parseKnownCharacteristic beyond s data = .ok (py "unparsed") := by
  simp only [parseKnownCharacteristic, temperatureUuids, humidityUuids,
    List.contains_iff_mem, List.mem_cons, List.not_mem_nil, h, or_self, if_false]
  rfl

end

/-! ## Accepted lengths -/

/-- `parse` takes the payloads of these lengths and raises a `ValueError` on all others. -/
def Takes {α : Type} (parse : Bytes → Except Raised α) (lengths : List Nat) : Prop :=
  ∀ data, (data.length ∈ lengths ∧ ∃ a, parse data = .ok a) ∨
    (data.length ∉ lengths ∧ ∃ text, parse data = .error (.valueError text))

/-- A parser that goes on with something that cannot fail takes the same lengths. -/
theorem Takes.bind {α β : Type} {parse : Bytes → Except Raised α} {lengths : List Nat}
    (h : Takes parse lengths) {f : α → Except Raised β}
    (hf : ∀ data a, parse data = .ok a → ∃ b, f a = .ok b) :
    Takes (fun data => parse data >>= f) lengths := by
  intro data
  dsimp only
  rcases h data with ⟨hlen, a, ha⟩ | ⟨hlen, text, htext⟩
  · obtain ⟨b, hb⟩ := hf data a ha
    exact Or.inl ⟨hlen, b, by rw [ha]; exact hb⟩
  · exact Or.inr ⟨hlen, text, by rw [htext]; rfl⟩

/-- So does one whose result is only converted. -/
theorem Takes.map {α β : Type} {parse : Bytes → Except Raised α} {lengths : List Nat}
    (h : Takes parse lengths) (f : α → β) : Takes (fun data => f <$> parse data) lengths := by
  intro data
  dsimp only
  rcases h data with ⟨hlen, a, ha⟩ | ⟨hlen, text, htext⟩
  · exact Or.inl ⟨hlen, f a, by rw [ha]; rfl⟩
  · exact Or.inr ⟨hlen, text, by rw [htext]; rfl⟩

/-- A payload of the expected length passes. -/
theorem ensureLength_of_length {data : Bytes} {expected : Nat} (h : data.length = expected) :
    ensureLength data expected = .ok data :=
  if_pos h

/-- Only a payload of the expected length passes. -/
theorem ensureLength_ok {data payload : Bytes} {expected : Nat}
    (h : ensureLength data expected = .ok payload) : payload.length = expected := by
  unfold ensureLength at h
  split at h
  · rename_i hlen
    cases h
    exact hlen
  · cases h

/-- An index inside of the payload has a byte. -/
theorem item_ok {payload : Bytes} {i : Nat} (h : i < payload.length) :
    item payload i = .ok (payload[i].toNat : Int) := by
  simp [item, h]

/-- `_ensure_length` takes exactly the expected length. -/
theorem takes_ensureLength (expected : Nat) :
    Takes (fun data => ensureLength data expected) [expected] := by
  intro data
  unfold ensureLength
  by_cases hlen : data.length = expected
  · exact Or.inl ⟨by simp [hlen], data, if_pos hlen⟩
  · exact Or.inr ⟨by simp [hlen], _, if_neg hlen⟩

/-- A byte is read from a payload of one byte. -/
theorem takes_uint8 : Takes uint8 [1] := by
  apply (takes_ensureLength 1).bind
  intro data payload hpayload
  have hlen := ensureLength_ok hpayload
  exact ⟨_, item_ok (by omega)⟩

/-- The integers of two bytes, with and without a sign, are read from two bytes. -/
theorem takes_uint16Le : Takes uint16Le [2] := (takes_ensureLength 2).map _
theorem takes_int16Le : Takes int16Le [2] := (takes_ensureLength 2).map _
/-- The integers of four bytes are read from four bytes. -/
theorem takes_uint32Le : Takes uint32Le [4] := (takes_ensureLength 4).map _
theorem takes_int32Le : Takes int32Le [4] := (takes_ensureLength 4).map _

/-- Three bytes are a version: three numerals with dots between. -/
theorem parseVersion_of_length {data : Bytes} (h : data.length = 3) :
    ∃ major minor patch : Int, parseVersion data =
      .ok (numeral major ++ py "." ++ numeral minor ++ py "." ++ numeral patch) := by
  obtain ⟨major, minor, patch, rfl⟩ := List.length_eq_three.mp h
  exact ⟨major.toNat, minor.toNat, patch.toNat, rfl⟩

/-- `parse_version` takes three bytes, and raises for any other length before it looks at one. -/
theorem takes_parseVersion : Takes parseVersion [3] := by
  intro data
  by_cases hlen : data.length = 3
  · obtain ⟨major, minor, patch, hversion⟩ := parseVersion_of_length hlen
    exact Or.inl ⟨by simp [hlen], _, hversion⟩
  · have hraised : ensureLength data 3 = .error _ := if_neg hlen
    exact Or.inr ⟨by simp [hlen], _, by rw [parseVersion, hraised]; rfl⟩

/-- Temperature and humidity are thousandths in two bytes or in four, and the length says which. -/
theorem takes_parseThousandths {two four : Bytes → Except Raised Int} (htwo : Takes two [2])
    (hfour : Takes four [4]) : Takes (parseThousandths two four) [2, 4] := by
  intro data
  unfold parseThousandths
  by_cases h2 : data.length = 2
  · rcases htwo data with ⟨_, n, hn⟩ | ⟨hlen, _⟩
    · exact Or.inl ⟨by simp [h2], thousandths n, by rw [if_pos h2, hn]; rfl⟩
    · exact absurd (by simp [h2]) hlen
  · by_cases h4 : data.length = 4
    · rcases hfour data with ⟨_, n, hn⟩ | ⟨hlen, _⟩
      · exact Or.inl ⟨by simp [h4], thousandths n, by rw [if_neg h2, if_pos h4, hn]; rfl⟩
      · exact absurd (by simp [h4]) hlen
    · exact Or.inr ⟨by simp [h2, h4], _, by rw [if_neg h2, if_neg h4]; rfl⟩

/-- The lengths that the payload of a characteristic can have. -/
def lengths : Characteristic → List Nat
  | .co2 | .iaqCo2Threshold => [2]
  | .legacyTemperature | .temperature | .legacyHumidity | .humidity => [2, 4]
  | .birdieState | .batteryLevel | .coolDownPeriod => [1]
  | .firmwareRevision | .hardwareVersion => [3]

/-- A payload is read just when it has one of the lengths; else there is a `ValueError`. -/
theorem takes_read (c : Characteristic) : Takes (read c) (lengths c) := by
  cases c with
  | co2 => exact takes_uint16Le.map _
  | legacyTemperature => exact (takes_parseThousandths takes_int16Le takes_int32Le).map _
  | temperature => exact (takes_parseThousandths takes_int16Le takes_int32Le).map _
  | legacyHumidity => exact (takes_parseThousandths takes_uint16Le takes_uint32Le).map _
  | humidity => exact (takes_parseThousandths takes_uint16Le takes_uint32Le).map _
  | birdieState => exact takes_uint8.map _
  | batteryLevel => exact takes_uint8.map _
  | iaqCo2Threshold => exact takes_uint16Le.map _
  | coolDownPeriod => exact takes_uint8.map _
  | firmwareRevision => exact takes_parseVersion.map _
  | hardwareVersion => exact takes_parseVersion.map _

/-! ## Texts -/

/-- A text with another last character. -/
theorem ne_of_last {s t u : PyStr} (h : t.getLast?.any fun c => u.getLast? ≠ some c) :
    s ++ t ≠ u := by
  cases hlast : t.getLast? with
  | none =>
      rw [hlast] at h
      cases h
  | some c =>
      rw [hlast] at h
      have hother : u.getLast? ≠ some c := of_decide_eq_true h
      intro heq
      apply hother
      rw [← heq, List.getLast?_append, hlast]
      rfl

/-- A version begins with a digit, so it is not printed as what is not known.  The text of an
unknown characteristic begins with a letter. -/
theorem version_ne_unparsed {data : Bytes} {s : PyStr} (h : parseVersion data = .ok s) :
    s ≠ py "unparsed" := by
  rcases takes_parseVersion data with ⟨hlen, _⟩ | ⟨_, text, htext⟩
  · obtain ⟨major, minor, patch, hversion⟩ := parseVersion_of_length (List.mem_singleton.mp hlen)
    rw [hversion] at h
    cases h
    -- a version has a dot
    have hdot : (0x2e : CodePoint) ∈ py "." := by decide
    have hunparsed : (0x2e : CodePoint) ∉ py "unparsed" := by decide
    intro heq
    apply hunparsed
    rw [← heq]
    simp [hdot]
  · rw [htext] at h
    cases h

/-- What comes out of a conversion went into it. -/
theorem map_ok {α β : Type} {x : Except Raised α} {f : α → β} {b : β} (h : f <$> x = .ok b) :
    ∃ a, x = .ok a ∧ f a = b := by
  cases x with
  | error e => cases h
  | ok a =>
      cases h
      exact ⟨a, rfl, rfl⟩

/-- A state is not printed as what is not known either. -/
theorem state_ne_unparsed (n : Int) : (Reading.birdieState n).text ≠ py "unparsed" := by
  unfold Reading.text
  dsimp only
  split
  · exact ne_of_last (by decide)
  · exact ne_of_last (by decide)

/-- Nor is a battery level, which ends with a percent sign. -/
theorem battery_ne_unparsed (n : Int) : (Reading.battery n).text ≠ py "unparsed" := by
  unfold Reading.text
  dsimp only
  split
  · intro heq
    have hlen := congrArg List.length heq
    have hunknown : (py "unknown enum ").length = 13 := by decide
    have hunparsed : (py "unparsed").length = 8 := by decide
    rw [List.length_append] at hlen
    omega
  · exact ne_of_last (by decide)

/-- No reading has the text of a characteristic that is not parsed.  The cases are the kinds of
readings, each with the form of its text. -/
theorem text_ne_unparsed {c : Characteristic} {data : Bytes} {r : Reading}
    (h : read c data = .ok r) : r.text ≠ py "unparsed" := by
  have hppm (n : Int) : numeral n ++ py " ppm" ≠ py "unparsed" :=
    ne_of_last (by decide)
  have hdegC (x : Float) : formatThousandths x ++ py " deg C" ≠ py "unparsed" :=
    ne_of_last (by decide)
  have hRH (x : Float) : formatThousandths x ++ py " %RH" ≠ py "unparsed" :=
    ne_of_last (by decide)
  have hmin (n : Int) : numeral n ++ py " min" ≠ py "unparsed" :=
    ne_of_last (by decide)
  cases c <;> obtain ⟨a, ha, rfl⟩ := map_ok h
  case co2 => exact hppm a
  case legacyTemperature => exact hdegC a
  case temperature => exact hdegC a
  case legacyHumidity => exact hRH a
  case humidity => exact hRH a
  case birdieState => exact state_ne_unparsed a
  case batteryLevel => exact battery_ne_unparsed a
  case iaqCo2Threshold => exact hppm a
  case coolDownPeriod => exact hmin a
  case firmwareRevision => exact version_ne_unparsed ha
  case hardwareVersion => exact version_ne_unparsed ha

/-! ## Agreement -/

/-- A decoded value is none of the three fields that a device has from elsewhere. -/
theorem fieldOf_decoded (c : Change) : fieldOf c ∉ [Field.address, .name, .available] := by
  cases c <;> simp [fieldOf]

/-- The values of a known characteristic are never an empty dict. -/
theorem dictOf_ne_empty (c : Change) : dictOf c ≠ ∅ := by
  intro h
  have hkeys := congrArg AList.keys h
  rw [dictOf, AList.keys_singleton, AList.keys_empty] at hkeys
  cases hkeys

/-- A mapping of one field is merged into that field, and the others stay.  The key is that of a
field, so nothing is raised. -/
theorem updated_singleton (d : Record) (field : Field) (value : Json) :
    d.updated (.singleton field.key value) = .ok (Function.update d field value) := by
  have hfield : ∀ key ∈ (AList.singleton field.key value : PyDict).keys,
      ∃ f ∈ Field.all, f.key = key := by
    intro key hkey
    rw [AList.keys_singleton, List.mem_singleton] at hkey
    exact ⟨field, field.mem_all, hkey.symm⟩
  unfold Record.updated
  rw [if_pos hfield]
  congr 1
  funext f
  rw [← AList.insert_empty]
  by_cases hf : f = field
  · subst hf
    rw [AList.lookup_insert, Function.update_self]
    rfl
  · have hkey : f.key ≠ field.key := fun h => hf (Field.key_inj.mp h)
    rw [AList.lookup_insert_ne hkey, AList.lookup_empty, Function.update_of_ne hf]
    rfl

/-- All that the decoders can do: the UUID is none of the tables, or both have one reading of the
payload, or both raise the same. -/
theorem decoders_cases (beyond : PyStr → Nat → PyStr) (uuid : PyStr) (data : Bytes) :
    (parseCharacteristicValues beyond uuid data = .ok ∅ ∧
      parseKnownCharacteristic beyond uuid data = .ok (py "unparsed")) ∨
    (∃ r : Reading, r.text ≠ py "unparsed" ∧
      parseCharacteristicValues beyond uuid data = .ok (dictOf r.change) ∧
      parseKnownCharacteristic beyond uuid data = .ok r.text) ∨
    ∃ text, parseCharacteristicValues beyond uuid data = .error (.valueError text) ∧
      parseKnownCharacteristic beyond uuid data = .error (.valueError text) := by
  cases hc : characteristic? (lower beyond uuid) with
  | none =>
      have hunknown := characteristic?_none hc
      exact Or.inl ⟨parseCharacteristicValues_unknown hunknown data,
        parseKnownCharacteristic_unknown hunknown data⟩
  | some c =>
      have hknown := characteristic?_some.mp hc
      rw [parseCharacteristicValues_known hknown data, parseKnownCharacteristic_known hknown data]
      rcases takes_read c data with ⟨_, r, hr⟩ | ⟨_, text, htext⟩
      · right
        left
        exact ⟨r, text_ne_unparsed hr, by rw [hr]; rfl, by rw [hr]; rfl⟩
      · right
        right
        exact ⟨text, by rw [htext]; rfl, by rw [htext]; rfl⟩

/-- **The two decoders agree.**  They raise on the same payloads, and a `ValueError` only; the
second says `unparsed` just when the first says nothing; and what the first says is one field
of `BirdieData`, which a merge changes without touching another one. -/
theorem decoders_agree (beyond : PyStr → Nat → PyStr) (uuid : PyStr) (data : Bytes) :
    ((∃ text, parseCharacteristicValues beyond uuid data = .error (.valueError text)) ↔
      ∃ text, parseKnownCharacteristic beyond uuid data = .error (.valueError text)) ∧
    (∀ e, parseCharacteristicValues beyond uuid data = .error e → ∃ text, e = .valueError text) ∧
    (∀ e, parseKnownCharacteristic beyond uuid data = .error e → ∃ text, e = .valueError text) ∧
    (parseKnownCharacteristic beyond uuid data = .ok (py "unparsed") ↔
      parseCharacteristicValues beyond uuid data = .ok ∅) ∧
    ∀ values, parseCharacteristicValues beyond uuid data = .ok values → values ≠ ∅ →
      ∃ field value, field ∉ [Field.address, .name, .available] ∧
        values = .singleton field.key value ∧
        ∀ d : Record, d.updated values = .ok (Function.update d field value) := by
  rcases decoders_cases beyond uuid data with
    ⟨hvalues, htext⟩ | ⟨r, hparsed, hvalues, htext⟩ | ⟨text, hvalues, htext⟩
  · rw [hvalues, htext]
    simp
  · rw [hvalues, htext]
    refine ⟨by simp, by simp, by simp, by simp [hparsed, dictOf_ne_empty], ?_⟩
    intro values h _
    cases h
    exact ⟨fieldOf r.change, valueOf r.change, fieldOf_decoded r.change, rfl,
      fun d => updated_singleton d _ _⟩
  · rw [hvalues, htext]
    simp

/-! ## Where the client decodes -/

section

variable (beyond : PyStr → Nat → PyStr)

/-- `_handle_notify`: the values for the data callback, if any.  The text of a state goes to the
log, outside of the `try`. -/
def handleNotify (uuid : PyStr) (data : Bytes) : Except Raised (Option PyDict) :=
  match parseCharacteristicValues beyond uuid data with
  | .error (.valueError _) => .ok none
  | .error e => .error e
  | .ok values => do
      if values.keys = [] then
        return none
      if uuid = uuidOf .birdieState then
        let _ ← parseKnownCharacteristic beyond uuid data
      return some values

/-- `async_read_initial` with the payload of one characteristic.  A state is merged by the time
its text is made, inside of the `try`. -/
def initialRead (uuid : PyStr) (data : Bytes) (values : PyDict) : Except Raised PyDict :=
  match parseCharacteristicValues beyond uuid data with
  | .error (.valueError _) => .ok values
  | .error e => .error e
  | .ok parsed =>
      let values := values.update parsed
      if uuid = uuidOf .birdieState then
        match parseKnownCharacteristic beyond uuid data with
        | .ok _ | .error (.valueError _) => .ok values
        | .error e => .error e
      else .ok values

end

/-! ## Named characteristics -/

/-- Forgetting the error commutes with converting the result. -/
theorem toOption_map {ε α β : Type} (f : α → β) (x : Except ε α) :
    (f <$> x).toOption = x.toOption.map f := by
  cases x <;> rfl

/-- But for the error, the byte that is read is that of the model of the client. -/
theorem uint8_toOption (data : Bytes) : (uint8 data).toOption = (Ble.uint8 data).toOption := by
  rcases data with _ | ⟨b, _ | ⟨b', rest⟩⟩
  · rfl
  · change some (b.toNat : Int) = some ((b.toNat + 256 * 0 : Nat) : Int)
    simp
  · rfl

/-- So are the two bytes of an integer. -/
theorem uint16Le_toOption (data : Bytes) :
    (uint16Le data).toOption = (Ble.uint16Le data).toOption := by
  unfold uint16Le Ble.uint16Le ensureLength Ble.ensureLength
  split <;> rfl

/-- So is the version. -/
theorem parseVersion_toOption (data : Bytes) :
    (parseVersion data).toOption = (Ble.parseVersion data).toOption := by
  rcases data with _ | ⟨major, _ | ⟨minor, _ | ⟨patch, _ | ⟨b, rest⟩⟩⟩⟩
  · rfl
  · rfl
  · rfl
  · rfl
  · rfl

/-- What is read as thousandths, but for the error: the value of two bytes or of four, divided, and
nothing for any other length. -/
theorem parseThousandths_toOption {two four : Bytes → Except Raised Int} (value : Bytes → Int)
    (htwo : ∀ data, data.length = 2 → two data = .ok (value data))
    (hfour : ∀ data, data.length = 4 → four data = .ok (value data)) (data : Bytes) :
    (parseThousandths two four data).toOption =
      if data.length = 2 ∨ data.length = 4 then some (thousandths (value data)) else none := by
  unfold parseThousandths
  by_cases h2 : data.length = 2
  · rw [if_pos h2, if_pos (Or.inl h2), htwo data h2]
    rfl
  · rw [if_neg h2]
    by_cases h4 : data.length = 4
    · rw [if_pos h4, if_pos (Or.inr h4), hfour data h4]
      rfl
    · rw [if_neg h4, if_neg (by simp [h2, h4])]
      rfl

/-- The temperature is that of the model of the client, but for the error. -/
theorem parseTemperatureCelsius_toOption (data : Bytes) :
    (parseTemperatureCelsius data).toOption = (Ble.parseTemperatureCelsius data).toOption := by
  have htwo : ∀ data : Bytes, data.length = 2 → int16Le data = .ok (fromBytesLeSigned data) := by
    intro data h
    rw [int16Le, ensureLength_of_length h]
    rfl
  have hfour : ∀ data : Bytes, data.length = 4 → int32Le data = .ok (fromBytesLeSigned data) := by
    intro data h
    rw [int32Le, ensureLength_of_length h]
    rfl
  unfold parseTemperatureCelsius Ble.parseTemperatureCelsius
  rw [parseThousandths_toOption fromBytesLeSigned htwo hfour data]
  split <;> rfl

/-- The humidity is that of the model of the client, but for the error. -/
theorem parseHumidityPercent_toOption (data : Bytes) :
    (parseHumidityPercent data).toOption = (Ble.parseHumidityPercent data).toOption := by
  have htwo : ∀ data : Bytes, data.length = 2 → uint16Le data = .ok (fromBytesLe data : Int) := by
    intro data h
    rw [uint16Le, ensureLength_of_length h]
    rfl
  have hfour : ∀ data : Bytes, data.length = 4 → uint32Le data = .ok (fromBytesLe data : Int) := by
    intro data h
    rw [uint32Le, ensureLength_of_length h]
    rfl
  unfold parseHumidityPercent Ble.parseHumidityPercent
  rw [parseThousandths_toOption (fun data => (fromBytesLe data : Int)) htwo hfour data]
  split <;> rfl

/-- The readings are what the decoder of named characteristics returns.  Where it raises there is
no reading. -/
theorem read_toOption (c : Characteristic) (data : Bytes) :
    (read c data).toOption.map Reading.change =
      (Ble.parseCharacteristicValues c data).toOption := by
  have hmap {α : Type} (f : α → Reading) (g : α → Change) (hfg : ∀ a, (f a).change = g a)
      {x : Except Raised α} {y : Except PyException α} (hxy : x.toOption = y.toOption) :
      (f <$> x).toOption.map Reading.change = (g <$> y).toOption := by
    rw [toOption_map, toOption_map, Option.map_map, hxy]
    congr 1
    funext a
    exact hfg a
  cases c with
  | co2 => exact hmap _ _ (fun _ => rfl) (uint16Le_toOption data)
  | legacyTemperature => exact hmap _ _ (fun _ => rfl) (parseTemperatureCelsius_toOption data)
  | temperature => exact hmap _ _ (fun _ => rfl) (parseTemperatureCelsius_toOption data)
  | legacyHumidity => exact hmap _ _ (fun _ => rfl) (parseHumidityPercent_toOption data)
  | humidity => exact hmap _ _ (fun _ => rfl) (parseHumidityPercent_toOption data)
  | birdieState => exact hmap _ _ (fun _ => rfl) (uint8_toOption data)
  | batteryLevel => exact hmap _ _ (fun _ => rfl) (uint8_toOption data)
  | iaqCo2Threshold => exact hmap _ _ (fun _ => rfl) (uint16Le_toOption data)
  | coolDownPeriod => exact hmap _ _ (fun _ => rfl) (uint8_toOption data)
  | firmwareRevision => exact hmap _ _ (fun _ => rfl) (parseVersion_toOption data)
  | hardwareVersion => exact hmap _ _ (fun _ => rfl) (parseVersion_toOption data)

/-- A UUID may be given in any letter case. -/
theorem lower_spelling (beyond : PyStr → Nat → PyStr) {s : PyStr} {c : Characteristic}
    (h : s.map lowerAscii = uuidOf c) : lower beyond s = uuidOf c :=
  lower_of_spelling beyond h (uuidOf_ascii c)

example : parseKnownCharacteristic (fun _ _ => []) (py "4769D60C-49b1-4E4B-bc0c-149C5E757BDD")
    [3] = .ok (py "25% (enum 3)") := by decide +kernel

/-- The UUIDs of the source are in lower case already. -/
theorem lower_uuidOf (beyond : PyStr → Nat → PyStr) (c : Characteristic) :
    lower beyond (uuidOf c) = uuidOf c := by
  have hall : ∀ c ∈ readCharacteristics, (uuidOf c).map lowerAscii = uuidOf c := by
    decide +kernel
  exact lower_spelling beyond (hall c (mem_readCharacteristics c))

section

variable (beyond : PyStr → Nat → PyStr)

/-- For a UUID of the tables the first decoder is the one of named characteristics, and the
second one follows it. -/
theorem decoders_named {s : PyStr} {c : Characteristic} (h : lower beyond s = uuidOf c)
    (data : Bytes) :
    (∃ change text, Ble.parseCharacteristicValues c data = .ok change ∧
      parseCharacteristicValues beyond s data = .ok (dictOf change) ∧
      parseKnownCharacteristic beyond s data = .ok text) ∨
    ∃ e text, Ble.parseCharacteristicValues c data = .error e ∧
      parseCharacteristicValues beyond s data = .error (.valueError text) ∧
      parseKnownCharacteristic beyond s data = .error (.valueError text) := by
  have htyped := read_toOption c data
  rw [parseCharacteristicValues_known h data, parseKnownCharacteristic_known h data]
  rcases takes_read c data with ⟨_, r, hr⟩ | ⟨_, text, htext⟩
  · left
    rw [hr] at htyped ⊢
    cases hnamed : Ble.parseCharacteristicValues c data with
    | error e =>
        rw [hnamed] at htyped
        cases htyped
    | ok change =>
        rw [hnamed] at htyped
        cases htyped
        exact ⟨r.change, r.text, rfl, rfl, rfl⟩
  · right
    rw [htext] at htyped ⊢
    cases hnamed : Ble.parseCharacteristicValues c data with
    | error e => exact ⟨e, text, rfl, rfl, rfl⟩
    | ok change =>
        rw [hnamed] at htyped
        cases htyped

/-- A notification raises nothing, and passes on what the named characteristic decodes to. -/
theorem handleNotify_eq (c : Characteristic) (data : Bytes) :
    handleNotify beyond (uuidOf c) data =
      .ok ((Ble.parseCharacteristicValues c data).toOption.map dictOf) := by
  unfold handleNotify
  rcases decoders_named beyond (lower_uuidOf beyond c) data with
    ⟨change, text, hnamed, hvalues, htext⟩ | ⟨e, text, hnamed, hvalues, htext⟩
  · rw [hnamed, hvalues, htext]
    have hkeys : (dictOf change).keys ≠ [] := by simp [dictOf]
    simp only [if_neg hkeys]
    split <;> rfl
  · rw [hnamed, hvalues]
    rfl

end

/-- The mapping of several changes, one merged after another. -/
def dictOfAll (changes : List Change) : PyDict :=
  changes.foldl (fun values c => values.update (dictOf c)) ∅

/-- One more value updates the dict of all of them. -/
theorem dictOfAll_concat (changes : List Change) (c : Change) :
    dictOfAll (changes ++ [c]) = (dictOfAll changes).update (dictOf c) := by
  simp [dictOfAll]

/-- An initial read raises nothing, and merges what the named characteristic decodes to. -/
theorem initialRead_eq (beyond : PyStr → Nat → PyStr) (c : Characteristic) (data : Bytes)
    (changes : List Change) :
    initialRead beyond (uuidOf c) data (dictOfAll changes) =
      .ok (dictOfAll (World.readValues c (some data) changes)) := by
  unfold initialRead World.readValues
  rcases decoders_named beyond (lower_uuidOf beyond c) data with
    ⟨change, text, hnamed, hvalues, htext⟩ | ⟨e, text, hnamed, hvalues, htext⟩
  · rw [Option.map_some, hnamed, hvalues, htext]
    simp only [dictOfAll_concat, ite_self]
  · rw [Option.map_some, hnamed, hvalues]

/-! ## Merges of several changes -/

/-- The record of typed data. -/
def recordOf (d : BirdieData) : Record
  | .address => .str d.address
  | .name => d.name.elim .null .str
  | .available => .bool d.available
  | .co2Ppm => optionalInt d.co2Ppm
  | .temperatureCelsius => d.temperatureCelsius.elim .null .float
  | .humidityPercent => d.humidityPercent.elim .null .float
  | .birdieState => optionalInt d.birdieState
  | .batteryPercent => optionalInt d.batteryPercent
  | .co2ThresholdPpm => optionalInt d.co2ThresholdPpm
  | .coolDownMinutes => optionalInt d.coolDownMinutes
  | .firmwareVersion => d.firmwareVersion.elim .null .str
  | .hardwareVersion => d.hardwareVersion.elim .null .str

/-- A value that is merged into the data changes the one field that it is of. -/
theorem recordOf_change (d : BirdieData) (c : Change) :
    recordOf (d.change c) = Function.update (recordOf d) (fieldOf c) (valueOf c) := by
  funext f
  cases c <;> cases f <;> rfl

/-- To merge two mappings at once is to merge one after the other.  Later values win in both. -/
theorem updated_update {d d' : Record} {e : PyDict} (h : d.updated e = .ok d') (e' : PyDict) :
    d.updated (e.update e') = d'.updated e' := by
  unfold Record.updated at h
  split at h
  · rename_i hkeys
    cases h
    unfold Record.updated
    have hsame : (∀ key ∈ (e.update e').keys, ∃ f ∈ Field.all, f.key = key) ↔
        ∀ key ∈ e'.keys, ∃ f ∈ Field.all, f.key = key := by
      constructor
      · intro hall key hkey
        apply hall
        exact AList.mem_union.mpr (Or.inl hkey)
      · intro hall key hkey
        rcases AList.mem_union.mp hkey with hnew | hold
        · exact hall key hnew
        · exact hkeys key hold
    by_cases hall : ∀ key ∈ e'.keys, ∃ f ∈ Field.all, f.key = key
    · rw [if_pos hall, if_pos (hsame.mpr hall)]
      congr 1
      funext f
      rw [PyDict.lookup_update]
      cases e'.lookup f.key <;> rfl
    · rw [if_neg hall, if_neg fun hboth => hall (hsame.mp hboth)]
  · cases h

/-- A merge of a mapping is the merge of the changes it was collected from. -/
theorem updated_dictOfAll (d : BirdieData) (changes : List Change) :
    (recordOf d).updated (dictOfAll changes) = .ok (recordOf (d.updated changes)) := by
  induction changes using List.reverseRecOn with
  | nil => simp [Record.updated, dictOfAll, BirdieData.updated]
  | append_singleton changes c ih =>
      have hlast : d.updated (changes ++ [c]) = (d.updated changes).change c := by
        simp [BirdieData.updated]
      rw [dictOfAll_concat, updated_update ih, dictOf, updated_singleton, hlast, recordOf_change]

end Ble.Decoders
