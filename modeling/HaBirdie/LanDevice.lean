import HaBirdie.PythonValues

/-!
# The LAN client: settings, errors and report handling

The data of `lan/device.py` and `lan/errors.py`, and the functions of `LanDevice` that run
on the event loop without awaiting: `_handle_dps`, `_handle_connected`, `_set_available`
and what `_run` does with a failed open.

The owner of a `LanDevice` passes callbacks. They are arbitrary functions on the owner's
state `γ` that may raise; what they raise is never a `LanError`, which only the client
itself raises.
-/

namespace Lan

open Python

/-! ## Errors -/

/-- The texts of `_ConnectionLost`; an error code is the value under `"Err"`. -/
inductive LostReason
  | notConnected
  | statusRequestFailed (code : Option Json)
  | heartbeatFailed
  | connectionClosed (code : Option Json)
  | sendingFailed (code : Option Json)
  | stoppedAnswering

/-- The texts of `DeviceUnreachableError`. -/
inductive UnreachableReason
  | cannotConnect
  | noValidAnswer (version : PyStr)
  | connectionIsClosed
  | notConnected
  | reconnecting
  | noVersionToTry
  | lost (why : LostReason)

/-- `LanError`: the two errors of `errors.py`, and the internal `_ConnectionLost`, which is
a `DeviceUnreachableError`. -/
inductive LanError
  | unreachable (why : UnreachableReason)
  | connectionLost (why : LostReason)
  | invalidLocalKey

/-- `isinstance(error, InvalidLocalKeyError)`. -/
def LanError.isInvalidLocalKey : LanError → Bool
  | .invalidLocalKey => true
  | _ => false

/-- What a coroutine or a job can raise. -/
inductive Raised
  | lan (e : LanError)
  | foreign (e : PyException)

/-! ## Settings -/

def protocolAuto : PyStr := py "auto"

/-- `PROTOCOL_VERSIONS`. -/
def protocolVersions : List PyStr := [py "3.1", py "3.2", py "3.3", py "3.4", py "3.5"]

/-- `AUTO_PROTOCOL_ORDER`. -/
def autoProtocolOrder : List PyStr := [py "3.3", py "3.5", py "3.4", py "3.1"]

def defaultPort : Int := 6668

/-- `DeviceConfig`, with what its `__post_init__` checks. -/
structure DeviceConfig where
  deviceId : PyStr
  host : PyStr
  localKey : PyStr
  protocolVersion : PyStr
  port : Int
  deviceId_ne : deviceId ≠ []
  host_ne : host ≠ []
  version_mem : protocolVersion = protocolAuto ∨ protocolVersion ∈ protocolVersions
deriving DecidableEq

/-- Construct a `DeviceConfig`; settings that fail its checks raise `ValueError`. -/
def DeviceConfig.make (deviceId host localKey protocolVersion : PyStr) (port : Int) :
    Except PyException DeviceConfig :=
  if h : deviceId ≠ [] ∧ host ≠ [] ∧
      (protocolVersion = protocolAuto ∨ protocolVersion ∈ protocolVersions) then
    .ok ⟨deviceId, host, localKey, protocolVersion, port, h.1, h.2.1, h.2.2⟩
  else .error .valueError

/-- Settings that are accepted are taken as they are. -/
theorem DeviceConfig.make_ok {deviceId host localKey protocolVersion : PyStr} {port : Int}
    {config : DeviceConfig}
    (h : DeviceConfig.make deviceId host localKey protocolVersion port = .ok config) :
    config.deviceId = deviceId ∧ config.host = host ∧ config.localKey = localKey ∧
      config.protocolVersion = protocolVersion := by
  unfold DeviceConfig.make at h
  split at h
  · obtain rfl := Except.ok.inj h
    exact ⟨rfl, rfl, rfl, rfl⟩
  · exact absurd h (by simp)

/-- Settings for examples. -/
def exampleConfig : DeviceConfig where
  deviceId := py "bf01"
  host := py "192.168.1.20"
  localKey := py "0123456789abcdef"
  protocolVersion := py "3.4"
  port := defaultPort
  deviceId_ne := by decide
  host_ne := by decide
  version_mem := by decide

/-- The arguments of `async_reconfigure`. -/
structure Changes where
  host : Option PyStr := none
  localKey : Option PyStr := none
  protocolVersion : Option PyStr := none
  port : Option Int := none

/-- `replace(self._config, **changes)`. -/
def DeviceConfig.replace (c : DeviceConfig) (ch : Changes) : Except PyException DeviceConfig :=
  DeviceConfig.make c.deviceId (ch.host.getD c.host) (ch.localKey.getD c.localKey)
    (ch.protocolVersion.getD c.protocolVersion) (ch.port.getD c.port)

/-- `Timings`, in seconds. -/
structure Timings where
  connectTimeout : ℚ := 5
  receiveTimeout : ℚ := 1 / 2
  heartbeatInterval : ℚ := 10
  statusInterval : ℚ := 60
  deadAfter : ℚ := 35
  refreshAfterCommand : ℚ := 3
  reconnectMin : ℚ := 5
  reconnectMax : ℚ := 60

/-! ## Library results -/

/-- `_UNREACHABLE_ERRORS`. -/
def unreachableErrors : List PyStr := [py "901", py "905"]

/-- `_KEY_ERRORS`. -/
def keyErrors : List PyStr := [py "914", py "904", py "900"]

/-- `_CONNECTION_LOST_ERRORS`. -/
def connectionLostErrors : List PyStr := [py "901", py "905", py "902", py "906", py "914"]

/-- `_error_code`: the value whose `str` is the error code. -/
def errorCode : Json → Option Json
  | .obj members => lastMember members (py "Err")
  | _ => none

/-- `code in codes`. The codes are three-digit numerals, which only the `str` of a string
or an int can be. -/
def codeIn (code : Option Json) (codes : List PyStr) : Bool :=
  match code with
  | some (.str s) => codes.contains s
  | some (.int n) => codes.contains (numeral n)
  | _ => false

/-- `_dps_of`. -/
def dpsOf : Json → Option PyDict
  | .obj members =>
      match lastMember members (py "Err"), lastMember members (py "dps") with
      | none, some (.obj dps) => some (PyDict.ofMembers dps)
      | _, _ => none
  | _ => none

/-- `_open_error`. -/
def openError (code : Option Json) (version : PyStr) : LanError :=
  if codeIn code unreachableErrors then .unreachable .cannotConnect
  else if codeIn code keyErrors then .invalidLocalKey
  else .unreachable (.noValidAnswer version)

/-! ## The attributes of a `LanDevice` -/

/-- The attributes of a `LanDevice` that are not tasks, threads or library objects.  `api`
is the library connection held, by its number among those the device created. -/
structure Device where
  config : DeviceConfig
  timings : Timings := {}
  versionHint : Option PyStr := none
  api : Option Nat := none
  version : Option PyStr := none
  dps : PyDict := ∅
  wake : Bool := false
  closed : Bool := false
  lastRx : ℚ := 0
  lastHeartbeat : ℚ := 0
  lastStatus : ℚ := 0
  refreshAt : Option ℚ := none
  available : Bool := false
  lastError : Option LanError := none

/-- `_versions_to_try`. -/
def versionsToTry (dev : Device) : List PyStr :=
  if dev.config.protocolVersion ≠ protocolAuto then [dev.config.protocolVersion]
  else
    [dev.versionHint, dev.version].foldl (fun order preferred =>
      match preferred with
      | some v => if v ∈ protocolVersions then v :: order.erase v else order
      | none => order) autoProtocolOrder

/-- The callbacks of a `LanDevice`, on the state of their owner.  They see the device as it
is when they are called and read the clock. -/
structure Callbacks (γ : Type) where
  onStatus : PyDict → Device → ℚ → γ → γ × Option PyException
  onAvailability : Bool → Option LanError → Device → ℚ → γ → γ × Option PyException
  onError : LanError → Device → ℚ → γ → γ × Option PyException

/-- A device without callbacks. -/
def Callbacks.none (γ : Type) : Callbacks γ where
  onStatus _ _ _ c := (c, .none)
  onAvailability _ _ _ _ c := (c, .none)
  onError _ _ _ c := (c, .none)

variable {γ : Type}

/-- Where handling a result on the event loop has got to: the attributes, the owner's state
and the exception raised by a callback, if any. -/
structure Handled (γ : Type) where
  dev : Device
  client : γ
  raised : Option PyException

/-- Continue unless an exception was raised. -/
def Handled.andThen (h : Handled γ) (k : Device → γ → Handled γ) : Handled γ :=
  match h.raised with
  | some _ => h
  | none => k h.dev h.client

/-- Whether a report changes a known DP or adds one: `changed or new_keys`. -/
def reportsNews (known report : PyDict) : Bool :=
  (report.entries.any fun e => Json.pyNe (known.get e.1) e.2) ||
    report.entries.any fun e => decide (e.1 ∉ known)

/-- The attributes after a report, before it is published. -/
def mergeReport (now : ℚ) (report : PyDict) (full : Bool) (dev : Device) : Device :=
  { dev with
    lastRx := now
    lastStatus := if full then now else dev.lastStatus
    refreshAt := if full then none else dev.refreshAt
    dps := dev.dps.update report }

variable (cb : Callbacks γ)

/-- `_handle_dps`. -/
def handleDps (now : ℚ) (report : PyDict) (full : Bool) (dev : Device) (client : γ) :
    Handled γ :=
  let dev' := mergeReport now report full dev
  if reportsNews dev.dps report || full then
    let (client', raised) := cb.onStatus dev'.dps dev' now client
    ⟨dev', client', raised⟩
  else ⟨dev', client, none⟩

/-- `_set_available`. -/
def setAvailable (now : ℚ) (available : Bool) (error : Option LanError) (dev : Device)
    (client : γ) : Handled γ :=
  if available = dev.available then ⟨dev, client, none⟩
  else
    let dev' := { dev with available }
    let (client', raised) := cb.onAvailability available error dev' now client
    ⟨dev', client', raised⟩

/-- `_handle_connected`. -/
def handleConnected (now : ℚ) (version : PyStr) (dps : PyDict) (dev : Device) (client : γ) :
    Handled γ :=
  let dev' :=
    { dev with version := some version, lastError := none, lastRx := now, lastHeartbeat := now }
  (setAvailable cb now true none dev' client).andThen (handleDps cb now dps true)

/-- What `_run` does with a `LanError` of an open, up to its sleep. -/
def openFailed (now : ℚ) (error : LanError) (dev : Device) (client : γ) : Handled γ :=
  (setAvailable cb now false (some error) { dev with lastError := some error } client).andThen
    fun dev client =>
      let (client', raised) := cb.onError error dev now client
      ⟨dev, client', raised⟩

/-! ## What report handling leaves alone -/

/-- The attributes that belong to the connection and the settings, not to its reports. -/
structure SameLink (d d' : Device) : Prop where
  config : d'.config = d.config
  timings : d'.timings = d.timings
  versionHint : d'.versionHint = d.versionHint
  api : d'.api = d.api
  wake : d'.wake = d.wake
  closed : d'.closed = d.closed

/-- A device that stays as it is keeps its link. -/
theorem SameLink.refl (d : Device) : SameLink d d := ⟨rfl, rfl, rfl, rfl, rfl, rfl⟩

/-- What keeps the link twice keeps it. -/
theorem SameLink.trans {d d' d'' : Device} (h : SameLink d d') (h' : SameLink d' d'') :
    SameLink d d'' :=
  ⟨h'.config.trans h.config, h'.timings.trans h.timings, h'.versionHint.trans h.versionHint,
    h'.api.trans h.api, h'.wake.trans h.wake, h'.closed.trans h.closed⟩

/-- Handling in sequence relates the first attributes to the last. -/
theorem Handled.andThen_rel {rel : Device → Device → Prop} {d : Device} {h : Handled γ}
    {k : Device → γ → Handled γ}
    (htrans : ∀ d₁ d₂ d₃, rel d₁ d₂ → rel d₂ d₃ → rel d₁ d₃)
    (hfirst : rel d h.dev) (hnext : ∀ d' c, rel d' (k d' c).dev) :
    rel d (h.andThen k).dev := by
  unfold Handled.andThen
  cases h.raised with
  | some e => exact hfirst
  | none => exact htrans _ _ _ hfirst (hnext _ _)

/-- Handling a report changes the DPs and times, and nothing of the link. -/
theorem handleDps_sameLink (now : ℚ) (report : PyDict) (full : Bool) (dev : Device)
    (client : γ) : SameLink dev (handleDps cb now report full dev client).dev := by
  unfold handleDps
  dsimp only
  split
  · exact ⟨rfl, rfl, rfl, rfl, rfl, rfl⟩
  · exact ⟨rfl, rfl, rfl, rfl, rfl, rfl⟩

/-- Announcing the availability changes only that. -/
theorem setAvailable_sameLink (now : ℚ) (available : Bool) (error : Option LanError)
    (dev : Device) (client : γ) :
    SameLink dev (setAvailable cb now available error dev client).dev := by
  unfold setAvailable
  split
  · exact SameLink.refl dev
  · exact ⟨rfl, rfl, rfl, rfl, rfl, rfl⟩

/-- Handling an opened connection notes the version and the report, and does not touch the link:
the worker has opened it before. -/
theorem handleConnected_sameLink (now : ℚ) (version : PyStr) (dps : PyDict) (dev : Device)
    (client : γ) : SameLink dev (handleConnected cb now version dps dev client).dev := by
  let dev' : Device :=
    { dev with version := some version, lastError := none, lastRx := now, lastHeartbeat := now }
  have hlink : SameLink dev dev' := ⟨rfl, rfl, rfl, rfl, rfl, rfl⟩
  have hset := setAvailable_sameLink cb now true none dev' client
  exact Handled.andThen_rel (fun _ _ _ => SameLink.trans) (hlink.trans hset)
    (fun d c => handleDps_sameLink cb now dps true d c)

/-- Announcing that an open failed does not touch the link. -/
theorem openFailed_sameLink (now : ℚ) (error : LanError) (dev : Device) (client : γ) :
    SameLink dev (openFailed cb now error dev client).dev := by
  let dev' : Device := { dev with lastError := some error }
  have hlink : SameLink dev dev' := ⟨rfl, rfl, rfl, rfl, rfl, rfl⟩
  have hset := setAvailable_sameLink cb now false (some error) dev' client
  exact Handled.andThen_rel (fun _ _ _ => SameLink.trans) (hlink.trans hset)
    (fun d _ => SameLink.refl d)

/-- A handled report is merged, whether it is published or not. -/
@[simp] theorem handleDps_dps (now : ℚ) (report : PyDict) (full : Bool) (dev : Device)
    (client : γ) : (handleDps cb now report full dev client).dev.dps = dev.dps.update report := by
  unfold handleDps
  dsimp only
  split
  · rfl
  · rfl

/-! ## Availability after handling -/

@[simp] theorem handleDps_available (now : ℚ) (report : PyDict) (full : Bool) (dev : Device)
    (client : γ) : (handleDps cb now report full dev client).dev.available = dev.available := by
  unfold handleDps
  dsimp only
  split
  · rfl
  · rfl

@[simp] theorem setAvailable_available (now : ℚ) (available : Bool) (error : Option LanError)
    (dev : Device) (client : γ) :
    (setAvailable cb now available error dev client).dev.available = available := by
  unfold setAvailable
  split
  · rename_i h
    exact h.symm
  · rfl

/-- A handled open leaves the device available, also when a callback raises. -/
@[simp] theorem handleConnected_available (now : ℚ) (version : PyStr) (dps : PyDict)
    (dev : Device) (client : γ) :
    (handleConnected cb now version dps dev client).dev.available = true := by
  unfold handleConnected Handled.andThen
  dsimp only
  split
  · exact setAvailable_available cb now true none _ client
  · rw [handleDps_available]
    exact setAvailable_available cb now true none _ client

/-- A failed open leaves the device unavailable, also when a callback raises. -/
@[simp] theorem openFailed_available (now : ℚ) (error : LanError) (dev : Device) (client : γ) :
    (openFailed cb now error dev client).dev.available = false := by
  unfold openFailed Handled.andThen
  dsimp only
  split
  · exact setAvailable_available cb now false (some error) _ client
  · exact setAvailable_available cb now false (some error) _ client

end Lan
