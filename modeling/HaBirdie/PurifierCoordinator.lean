import HaBirdie.AddressSearch
import HaBirdie.PurifierDecoding
import HaBirdie.LanDeviceRuns

/-!
# The purifier coordinator

`purifier/coordinator.py`: what the coordinator of one purifier keeps, and the three
callbacks through which the LAN client reports to it.  They are the `Callbacks` of a
`LanDevice` whose owner is a `Coordinator`.

Of Home Assistant the coordinator uses the published data and update errors of a
`DataUpdateCoordinator`, the data of its config entry, and re-authentication flows.
-/

namespace Purifier

open Python Lan

/-- `PURIFIER_KEY_FAILURES_BEFORE_REAUTH`. -/
def keyFailuresBeforeReauth : Nat := 3

/-- The data of the config entry that the coordinator reads and writes. -/
structure EntryData where
  deviceId : PyStr
  host : PyStr
  localKey : PyStr
  protocolVersion : Option PyStr := none
  detectedVersion : Option PyStr := none
deriving DecidableEq

/-- `device_config`. -/
def deviceConfig (data : EntryData) : Except PyException DeviceConfig :=
  DeviceConfig.make data.deviceId data.host data.localKey
    (data.protocolVersion.getD protocolAuto) defaultPort

/-- `UpdateFailed`, by its translation key. -/
inductive UpdateFailed
  | invalidLocalKey
  | deviceUnreachable (host : PyStr)
deriving DecidableEq

/-- What a coordinator keeps, with the bookkeeping it shares with the other coordinators of
its entry. `reauths` counts the requests for a re-authentication, and `reauthFlow` says
whether one is active. -/
structure Coordinator where
  entry : EntryData
  data : Option PurifierState := none
  lastUpdateSuccess : Bool := true
  lastException : Option UpdateFailed := none
  keyFailures : Nat := 0
  searches : Searches := {}
  reauths : Nat := 0
  reauthFlow : Bool := false

namespace Coordinator

/-- `async_set_updated_data`. -/
def setUpdatedData (state : PurifierState) (c : Coordinator) : Coordinator :=
  { c with data := some state, lastUpdateSuccess := true }

/-- `async_set_update_error`. -/
def setUpdateError (failure : UpdateFailed) (c : Coordinator) : Coordinator :=
  { c with lastUpdateSuccess := false, lastException := some failure }

/-- `_async_note_reachable`. -/
def noteReachable (c : Coordinator) : Coordinator :=
  { c with searches := c.searches.noteReachable }

/-- `_async_note_unreachable`. -/
def noteUnreachable (now : ℚ) (c : Coordinator) : Coordinator :=
  { c with searches := c.searches.noteUnreachable now }

/-- `_async_store_detected_version`. -/
def storeDetectedVersion (version : Option PyStr) (c : Coordinator) : Coordinator :=
  match version with
  | none | some [] => c
  | some v =>
      if c.entry.detectedVersion = some v then c
      else { c with entry := { c.entry with detectedVersion := some v } }

/-- `async_start_reauth`; a second flow is not started. -/
def startReauth (c : Coordinator) : Coordinator :=
  { c with reauths := c.reauths + 1, reauthFlow := true }

/-- Abort the active re-authentication. -/
def abortReauth (c : Coordinator) : Coordinator := { c with reauthFlow := false }

/-- Decode and publish. -/
def publish (dps : PyDict) (c : Coordinator) : Coordinator × Option PyException :=
  match fromDps dps with
  | .ok state => (c.setUpdatedData state, none)
  | .error e => (c, some e)

/-- `_async_on_status`. -/
def onStatus (dps : PyDict) (_dev : Device) (_now : ℚ) (c : Coordinator) :
    Coordinator × Option PyException :=
  c.publish dps

/-- What `_async_on_availability` does first when the device is available. -/
def reachedAgain (version : Option PyStr) (c : Coordinator) : Coordinator :=
  ({ c with keyFailures := 0 }.noteReachable.storeDetectedVersion version).abortReauth

/-- `_async_on_availability`. -/
def onAvailability (available : Bool) (error : Option LanError) (dev : Device) (now : ℚ)
    (c : Coordinator) : Coordinator × Option PyException :=
  if available then
    let c := c.reachedAgain dev.version
    if c.data.isSome then c.publish dev.dps else (c, none)
  else if error.any LanError.isInvalidLocalKey then (c.setUpdateError .invalidLocalKey, none)
  else ((c.noteUnreachable now).setUpdateError (.deviceUnreachable dev.config.host), none)

/-- `_async_on_error`. -/
def onError (error : LanError) (_dev : Device) (now : ℚ) (c : Coordinator) :
    Coordinator × Option PyException :=
  if error.isInvalidLocalKey then
    let c := { c with keyFailures := c.keyFailures + 1 }
    if c.keyFailures = keyFailuresBeforeReauth then (c.startReauth, none) else (c, none)
  else ({ c with keyFailures := 0 }.noteUnreachable now, none)

/-- The callbacks that `__init__` gives its `LanDevice`. -/
def callbacks : Callbacks Coordinator := ⟨onStatus, onAvailability, onError⟩

/-- `__init__`, for an entry whose settings make a `DeviceConfig`: the coordinator with its
device.  The searches are those of the entry. -/
def start (entry : EntryData) (config : DeviceConfig) (searches : Searches) :
    World Coordinator :=
  World.init config {} entry.detectedVersion { entry, searches }

/-- The entry of the device in the examples. -/
def exampleEntry : EntryData where
  deviceId := exampleConfig.deviceId
  host := exampleConfig.host
  localKey := exampleConfig.localKey
  protocolVersion := some exampleConfig.protocolVersion

/-- `async_send_dps` after the command was sent. -/
def commandSent (dps : PyDict) (c : Coordinator) : Coordinator × Option PyException :=
  match c.data with
  | none => (c, none)
  | some state =>
      match applyDps state dps with
      | .ok expected => (c.setUpdatedData expected, none)
      | .error e => (c, some e)

/-! ## What a callback raises -/

/-- Publishing raises exactly what does not decode. -/
theorem publish_raised (dps : PyDict) (c : Coordinator) :
    (c.publish dps).2 = none ↔ Decodable dps := by
  rw [← fromDps_ok_iff]
  unfold publish
  cases fromDps dps <;> simp

@[simp] theorem reachedAgain_data (version : Option PyStr) (c : Coordinator) :
    (c.reachedAgain version).data = c.data := by
  unfold reachedAgain storeDetectedVersion abortReauth noteReachable
  split <;> try split
  all_goals rfl

/-- On a reconnect the DPs known from before are decoded again, if any were published. -/
theorem onAvailability_raised (error : Option LanError) (dev : Device) (now : ℚ)
    (c : Coordinator) :
    (onAvailability true error dev now c).2 = none ↔ (c.data ≠ none → Decodable dev.dps) := by
  unfold onAvailability
  rw [if_pos rfl]
  cases hdata : c.data with
  | none => simp [hdata]
  | some state => simp [hdata, publish_raised]

/-- The callback of a lost device raises nothing. -/
theorem onAvailability_false_raised (error : Option LanError) (dev : Device) (now : ℚ)
    (c : Coordinator) : (onAvailability false error dev now c).2 = none := by
  unfold onAvailability
  rw [if_neg (by simp)]
  split <;> rfl

/-- Nor does the callback of an error. -/
theorem onError_raised (error : LanError) (dev : Device) (now : ℚ) (c : Coordinator) :
    (onError error dev now c).2 = none := by
  unfold onError
  dsimp only
  split
  · split <;> rfl
  · rfl

end Coordinator

end Purifier
