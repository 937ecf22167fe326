import HaBirdie.LanSearch
import HaBirdie.PurifierModel

/-!
# The config flow of a purifier

`config_flow.py` and `purifier/flow.py` but for Bluetooth: the steps that add a purifier
(picked, announced, entered with or without its address, found by a search), and those that
change the settings of one (reauth, reconfigure).

A step runs up to an await or to its result.  It awaits `async_scan` or
`async_check_connection`, with its local variables, while other steps of the same flow and
other flows run (`Await`); the scan and the search that the user watches are tasks of the flow.

Home Assistant is not part of the source.  The model assumes what it documents:

* an entry has an ID that no other entry had before, and an entry that is added takes the place
  of one with its unique ID (`Registry.add`);
* `_abort_if_unique_id_configured` aborts where an entry has the unique ID of the flow, unless
  that entry is ignored and the user started the flow (`configured`), and a discovery starts no
  flow while one with its ID is in progress (`System.inProgress`);
* the flow manager calls the step that the last result names, leaves a flow as it was shown if a
  step raises, ends it with an abort or with the entry that it creates, and adds nothing for a
  flow that was removed meanwhile (`System.configure`, `System.finish`).

What is heard, found and answered on the network sits in the events; `NetworkSearches` says where
it comes from.
-/

namespace ConfigFlow

open Python
open Lan (DeviceConfig Ending FoundDevice protocolAuto defaultPort)
open Purifier (productKeys looksLikePurifier)

/-! ## Config entries -/

/-- The data of an entry that purifiers have; a key that is missing is `none`. -/
structure EntryData where
  isPurifier : Bool := false
  deviceId : Option PyStr := none
  host : Option PyStr := none
  localKey : Option PyStr := none
  protocolVersion : Option PyStr := none
  detectedVersion : Option PyStr := none
  productKey : Option PyStr := none
deriving DecidableEq

/-- A config entry of the domain.  `ignored` is one that stands for a discovery the user
ignores. -/
structure Entry where
  entryId : Nat
  uniqueId : Option PyStr
  ignored : Bool := false
  data : EntryData
deriving DecidableEq

/-- The config entries of the domain. -/
structure Registry where
  entries : List Entry := []
  nextId : Nat := 0

namespace Registry

def entry (entryId : Nat) (r : Registry) : Option Entry :=
  r.entries.find? fun e => e.entryId = entryId

/-- `async_entry_for_domain_unique_id`. -/
def forUniqueId (uniqueId : PyStr) (r : Registry) : Option Entry :=
  r.entries.find? fun e => e.uniqueId = some uniqueId

/-- `_async_current_ids(include_ignore=False)`. -/
def currentIds (r : Registry) : List PyStr :=
  (r.entries.filter fun e => !e.ignored).filterMap Entry.uniqueId

/-- `async_update_entry`. -/
def update (entryId : Nat) (change : EntryData → EntryData) (r : Registry) : Registry :=
  { r with
    entries := r.entries.map fun e =>
      if e.entryId = entryId then { e with data := change e.data } else e }

/-- `ConfigEntries.async_add`, as Home Assistant does it: a new entry takes the place of one with
the same unique ID. -/
def add (uniqueId : Option PyStr) (ignored : Bool) (data : EntryData) (r : Registry) :
    Registry where
  entries := (r.entries.filter fun e => uniqueId.isNone || e.uniqueId ≠ uniqueId) ++
    [⟨r.nextId, uniqueId, ignored, data⟩]
  nextId := r.nextId + 1

def remove (entryId : Nat) (r : Registry) : Registry :=
  { r with entries := r.entries.filter fun e => e.entryId ≠ entryId }

end Registry

/-! ## Announcements, keys and connection checks -/

/-- `DiscoveredDevice`, but for the time it was seen. -/
structure DiscoveredDevice where
  deviceId : PyStr
  host : PyStr
  protocolVersion : Option PyStr
  productKey : Option PyStr

/-- `product_key in PRODUCT_KEYS`. -/
def isPurifierProduct (productKey : Option PyStr) : Bool :=
  productKey.any fun key => productKeys.contains key

/-- `is_birdie_purifier`. -/
def isBirdiePurifier (device : DiscoveredDevice) : Bool := isPurifierProduct device.productKey

/-- `_is_podium`; decoding the report can raise. -/
def isPodium (dps : PyDict) (productKey : Option PyStr) : Except PyException Bool :=
  if isPurifierProduct productKey then .ok true else looksLikePurifier dps

/-- `LOCAL_KEY_LENGTH`. -/
def localKeyLength : Nat := 16

/-- `clean_local_key`. -/
def cleanLocalKey (value : PyStr) : Option PyStr :=
  let key := strip value
  if key.length = localKeyLength then some key else none

/-- `ConnectionResult`: the working version and the report, or an error key. -/
inductive ConnectionResult
  | works (version : Option PyStr) (dps : PyDict)
  | failed (error : PyStr)

/-- `async_check_connection` after its `async_connect` and `async_close`, with the
`protocol_version` of its device.  An exception of `async_close`, or a cancellation, leaves
it. -/
def asyncCheckConnection (ending : Ending) (version : Option PyStr) (closed : Bool) :
    Option ConnectionResult :=
  if !closed then none
  else match ending with
    | .returned dps => some (.works version (dps.getD ∅))
    | .raised (.lan .invalidLocalKey) => some (.failed (py "invalid_local_key"))
    | .raised (.lan _) => some (.failed (py "cannot_connect"))
    | .raised (.foreign _) => some (.failed (py "unknown"))
    | .cancelled => none

/-! ## Flows -/

inductive Step
  | user
  | purifier
  | purifierPick
  | purifierKey
  | purifierNotFound
  | purifierManual
  | purifierSearch
  | purifierSearchFound
  | reauthConfirm
  | reconfigure
deriving DecidableEq

/-- The input of a form.  `advanced` is the section with the protocol version, which is
optional in it. -/
structure UserInput where
  deviceId : Option PyStr := none
  localKey : Option PyStr := none
  host : Option PyStr := none
  advanced : Option (Option PyStr) := none

/-- `(user_input.get(SECTION_ADVANCED) or {}).get(CONF_PROTOCOL_VERSION, PROTOCOL_AUTO)`. -/
def UserInput.version (input : UserInput) : PyStr := (input.advanced.getD none).getD protocolAuto

/-- `(user_input.get(CONF_HOST) or "").strip()`. -/
def UserInput.enteredHost (input : UserInput) : PyStr := strip (input.host.getD [])

/-- `(user_input.get(CONF_LOCAL_KEY) or "").strip()`. -/
def UserInput.enteredKey (input : UserInput) : PyStr := strip (input.localKey.getD [])

/-- The result of a step.  `raised` is an exception, after which the flow stays as shown. -/
inductive FlowResult
  | menu
  | form (step : Step) (errors : List (PyStr × PyStr)) (suggested : Option UserInput)
  | progress (step : Step)
  | progressDone (next : Step)
  | createEntry (data : EntryData)
  | abort (reason : PyStr)
  | raised

/-- The step that the flow manager calls after a result. -/
def FlowResult.next : FlowResult → Option Step
  | .menu => some .purifier
  | .form step _ _ | .progress step | .progressDone step => some step
  | .createEntry _ | .abort _ | .raised => none

/-- A task of the flow. -/
inductive FlowTask (α : Type)
  | notStarted
  | running
  | done (result : α)

/-- Start a task that was not started; `ended` is what it has come to at once. -/
def FlowTask.start {α : Type} (ended : Option α) : FlowTask α → FlowTask α
  | .notStarted =>
      match ended with
      | some result => .done result
      | none => .running
  | task => task

/-- `_NetworkSearch`.  A task that raised has found nothing. -/
structure NetworkSearch where
  step : Step
  deviceId : PyStr
  localKey : PyStr
  protocolVersion : PyStr
  input : UserInput
  task : FlowTask (Option FoundDevice) := .notStarted
  found : Option FoundDevice := none
  notAPodium : Bool := false

/-- Which step checks a connection, with the local variables it goes on with. -/
inductive Check
  | key (device : DiscoveredDevice)
  | manual (step : Step) (productKey : Option PyStr) (input : UserInput)
  | reauth (entryId : Nat)
  | reconfigure (entryId : Nat) (input : UserInput)

/-- What a step awaits. -/
inductive Await
  | scan (step : Step) (deviceId localKey version : PyStr) (input : UserInput)
  | check (config : DeviceConfig) (hint : Option PyStr) (purpose : Check)

/-- What started a flow. -/
inductive Source
  | user
  | integrationDiscovery
  | reauth (entryId : Nat)
  | reconfigure (entryId : Nat)
deriving DecidableEq

/-- A `BirdieConfigFlow`; `shown` is its last result and `calls` are its steps that await. -/
structure Flow where
  source : Source
  shown : FlowResult := .raised
  uniqueId : Option PyStr := none
  lanTask : FlowTask (List DiscoveredDevice) := .notStarted
  lanDevices : List DiscoveredDevice := []
  purifier : Option DiscoveredDevice := none
  search : Option NetworkSearch := none
  calls : List Await := []
  removed : Bool := false

/-- What a step comes to: its result, or what it awaits. -/
inductive Outcome
  | result (r : FlowResult)
  | awaits (a : Await)

/-- The entries and the flow after a step ran. -/
structure Turn where
  registry : Registry
  flow : Flow
  outcome : Outcome

def Flow.ends (r : Registry) (flow : Flow) (result : FlowResult) : Turn := ⟨r, flow, .result result⟩

/-- Construct the settings to try, which may raise, and await the check. -/
def Flow.checks (r : Registry) (flow : Flow) (deviceId host localKey version : PyStr)
    (hint : Option PyStr) (purpose : Check) : Turn :=
  match DeviceConfig.make deviceId host localKey version defaultPort with
  | .error _ => flow.ends r .raised
  | .ok config => ⟨r, flow, .awaits (.check config hint purpose)⟩

/-! ## Error texts and fields -/

def confDeviceId : PyStr := py "device_id"
def confLocalKey : PyStr := py "local_key"
def confHost : PyStr := py "host"
def base : PyStr := py "base"

/-- `CHOICE_MANUAL`. -/
def choiceManual : PyStr := py "manual"

def alreadyConfigured : FlowResult := .abort (py "already_configured")

/-! ## The steps -/

/-- `_abort_if_unique_id_configured` of Home Assistant, whether it aborts: the user may add what was
ignored. -/
def configured (r : Registry) (flow : Flow) : Bool :=
  match flow.uniqueId.bind fun uniqueId => r.forUniqueId uniqueId with
  | none => false
  | some entry => !(entry.ignored && decide (flow.source = .user))

/-- `_async_create_purifier`. -/
def asyncCreatePurifier (r : Registry) (flow : Flow) (config : DeviceConfig)
    (version productKey : Option PyStr) : Turn :=
  let flow := { flow with uniqueId := some config.deviceId }
  if configured r flow then flow.ends r alreadyConfigured
  else
    flow.ends r <| .createEntry
      { isPurifier := true
        deviceId := some config.deviceId
        host := some config.host
        localKey := some config.localKey
        protocolVersion := some config.protocolVersion
        detectedVersion := version
        productKey := productKey.filter fun key => !key.isEmpty }

/-- `async_step_purifier`.  `early` says that the task it starts has failed already. -/
def asyncStepPurifier (r : Registry) (flow : Flow) (early : Bool) : Turn :=
  let task := flow.lanTask.start (if early then some [] else none)
  match task with
  | .done found =>
      let lanDevices := found.filter fun device =>
        isBirdiePurifier device && !r.currentIds.contains device.deviceId
      { flow with lanTask := task, lanDevices }.ends r
        (.progressDone (if lanDevices.isEmpty then .purifierNotFound else .purifierPick))
  | _ => { flow with lanTask := task }.ends r (.progress .purifier)

/-- `async_step_purifier_key`. -/
def asyncStepPurifierKey (r : Registry) (flow : Flow) (input : Option UserInput) : Turn :=
  match flow.purifier, input with
  | none, _ => flow.ends r .raised
  | some _, none => flow.ends r (.form .purifierKey [] none)
  | some device, some input =>
      match input.localKey.map cleanLocalKey with
      | none => flow.ends r .raised
      | some none =>
          flow.ends r (.form .purifierKey [(confLocalKey, py "invalid_local_key_format")] none)
      | some (some key) =>
          flow.checks r device.deviceId device.host key protocolAuto device.protocolVersion
            (.key device)

/-- `async_step_integration_discovery` of a device whose ID no other flow has; the address of
a known device is updated. -/
def asyncStepIntegrationDiscovery (r : Registry) (device : DiscoveredDevice) : Turn :=
  let flow : Flow := { source := .integrationDiscovery, uniqueId := some device.deviceId }
  match r.forUniqueId device.deviceId with
  | some entry =>
      flow.ends (r.update entry.entryId fun data => { data with host := some device.host })
        alreadyConfigured
  | none => asyncStepPurifierKey r { flow with purifier := some device } none

/-- `async_step_purifier_search`.  `early` says that the task it starts has ended already,
without finding anything. -/
def asyncStepPurifierSearch (r : Registry) (flow : Flow) (early : Bool) : Turn :=
  match flow.search with
  | none => flow.ends r .raised
  | some search =>
      let task := search.task.start (if early then some none else none)
      let search := { search with task }
      match task with
      | .done none =>
          { flow with search := some { search with found := none } }.ends r
            (.progressDone search.step)
      | .done (some found) =>
          match isPodium found.dps none with
          | .error _ =>
              { flow with search := some { search with found := some found } }.ends r .raised
          | .ok true =>
              { flow with search := some { search with found := some found } }.ends r
                (.progressDone .purifierSearchFound)
          | .ok false =>
              { flow with search := some { search with found := none, notAPodium := true } }.ends r
                (.progressDone search.step)
      | _ => { flow with search := some search }.ends r (.progress .purifierSearch)

/-- `async_step_purifier_search_found`. -/
def asyncStepPurifierSearchFound (r : Registry) (flow : Flow) : Turn :=
  let cleared := { flow with search := none }
  match flow.search with
  | none => cleared.ends r .raised
  | some search =>
      match search.found with
      | none => cleared.ends r .raised
      | some found =>
          match DeviceConfig.make search.deviceId found.host search.localKey
              search.protocolVersion defaultPort with
          | .error _ => cleared.ends r .raised
          | .ok config =>
              asyncCreatePurifier r cleared config (some found.protocolVersion) none

/-- `_async_purifier_manual` with the input of its form. -/
def manualSubmitted (step : Step) (r : Registry) (flow : Flow) (input : UserInput)
    (deviceId : PyStr) : Turn :=
  match input.localKey.map cleanLocalKey with
  | none => flow.ends r .raised
  | some key =>
      let flow := { flow with uniqueId := some deviceId }
      let shows := fun errors => flow.ends r (.form step errors (some input))
      if configured r flow then flow.ends r alreadyConfigured
      else if deviceId = [] then shows [(confDeviceId, py "invalid_device_id")]
      else match key with
        | none => shows [(confLocalKey, py "invalid_local_key_format")]
        | some key =>
            if input.enteredHost = [] then
              match flow.lanDevices.find? fun device => device.deviceId = deviceId with
              | none => ⟨r, flow, .awaits (.scan step deviceId key input.version input)⟩
              | some device =>
                  flow.checks r deviceId device.host key input.version device.protocolVersion
                    (.manual step device.productKey input)
            else
              flow.checks r deviceId input.enteredHost key input.version none
                (.manual step none input)

/-- `_async_purifier_manual` up to its first await. -/
def asyncPurifierManual (step : Step) (r : Registry) (flow : Flow) (input : Option UserInput) :
    Turn :=
  let cleared := { flow with search := none }
  match flow.search with
  | some search =>
      -- back from a search that found no purifier, with the input that started it
      let error :=
        if search.notAPodium then (base, py "not_a_podium") else (confHost, py "device_not_found")
      cleared.ends r (.form step [error] (some search.input))
  | none =>
      match input.bind fun input => input.deviceId.map fun deviceId => (input, deviceId) with
      | none => cleared.ends r (.form step [] none)
      | some (input, deviceId) => manualSubmitted step r cleared input (strip deviceId)

/-- `_async_purifier_manual` after its `async_scan`. -/
def manualScanned (step : Step) (deviceId localKey version : PyStr) (input : UserInput)
    (r : Registry) (flow : Flow) (found : Option (List DiscoveredDevice)) (early : Bool) : Turn :=
  match found with
  | none => flow.ends r .raised
  | some found =>
      match found.find? fun device => device.deviceId = deviceId with
      | none =>
          let search : NetworkSearch :=
            { step, deviceId, localKey, protocolVersion := version, input }
          asyncStepPurifierSearch r { flow with search := some search } early
      | some device =>
          flow.checks r deviceId device.host localKey version device.protocolVersion
            (.manual step device.productKey input)

/-- `async_step_purifier_pick`. -/
def asyncStepPurifierPick (r : Registry) (flow : Flow) (input : Option UserInput) : Turn :=
  match input.bind UserInput.deviceId with
  | none => flow.ends r (.form .purifierPick [] none)
  | some choice =>
      if choice = choiceManual then asyncPurifierManual .purifierManual r flow none
      else match flow.lanDevices.find? fun device => device.deviceId = choice with
        | none => flow.ends r .raised
        | some device => asyncStepPurifierKey r { flow with purifier := some device } none

/-- The form of `async_step_reauth_confirm`. -/
def reauthForm (r : Registry) (flow : Flow) (data : EntryData) (errors : List (PyStr × PyStr)) :
    Turn :=
  if data.deviceId.isNone then flow.ends r .raised
  else flow.ends r (.form .reauthConfirm errors none)

/-- `async_step_reauth_confirm` up to its await. -/
def asyncStepReauthConfirm (r : Registry) (flow : Flow) (input : Option UserInput) : Turn :=
  match flow.source with
  | .reauth entryId =>
      match r.entry entryId, input with
      | none, _ => flow.ends r .raised
      | some entry, none => reauthForm r flow entry.data []
      | some entry, some input =>
          match input.localKey.map cleanLocalKey with
          | none => flow.ends r .raised
          | some none =>
              reauthForm r flow entry.data [(confLocalKey, py "invalid_local_key_format")]
          | some (some key) =>
              match entry.data.deviceId, entry.data.host with
              | some deviceId, some host =>
                  flow.checks r deviceId host key
                    (entry.data.protocolVersion.getD protocolAuto) entry.data.detectedVersion
                    (.reauth entryId)
              | _, _ => flow.ends r .raised
  | _ => flow.ends r .raised

/-- The form of `async_step_reconfigure`: it suggests what was entered but for the key, and
what the entry has. -/
def reconfigureForm (r : Registry) (flow : Flow) (data : EntryData) (input : Option UserInput)
    (errors : List (PyStr × PyStr)) : Turn :=
  match data.host, data.deviceId with
  | some host, some _ =>
      let entered := input.getD {}
      flow.ends r <| .form .reconfigure errors <| some
        { deviceId := entered.deviceId
          host := some (entered.host.getD host)
          advanced := some (entered.advanced.getD
            (some (data.protocolVersion.getD protocolAuto))) }
  | _, _ => flow.ends r .raised

/-- The key that `async_step_reconfigure` tries: an empty one keeps that of the entry.  The
outer `none` is a missing key of the entry. -/
def reconfigureKey (data : EntryData) (input : UserInput) : Option (Option PyStr) :=
  if input.enteredKey = [] then data.localKey.map some
  else some (cleanLocalKey input.enteredKey)

/-- `async_step_reconfigure` up to its await. -/
def asyncStepReconfigure (r : Registry) (flow : Flow) (input : Option UserInput) : Turn :=
  match flow.source with
  | .reconfigure entryId =>
      match r.entry entryId with
      | none => flow.ends r .raised
      | some entry =>
          if !entry.data.isPurifier then
            flow.ends r (.abort (py "reconfigure_not_supported"))
          else match input with
            | none => reconfigureForm r flow entry.data none []
            | some input =>
                match reconfigureKey entry.data input, input.host, entry.data.deviceId with
                | some none, some _, _ =>
                    reconfigureForm r flow entry.data input
                      [(confLocalKey, py "invalid_local_key_format")]
                | some (some key), some host, some deviceId =>
                    if strip host = [] then
                      reconfigureForm r flow entry.data input [(confHost, py "invalid_host")]
                    else
                      flow.checks r deviceId (strip host) key input.version
                        entry.data.detectedVersion (.reconfigure entryId input)
                | _, _, _ => flow.ends r .raised
  | _ => flow.ends r .raised

/-- `async_update_reload_and_abort`. -/
def asyncUpdateReloadAndAbort (r : Registry) (flow : Flow) (entryId : Nat)
    (changes : EntryData → EntryData) (reason : PyStr) : Turn :=
  match r.entry entryId with
  | none => flow.ends r .raised
  | some _ => flow.ends (r.update entryId changes) (.abort reason)

/-- The rest of the two steps that add a checked purifier, over the form they show. -/
def addChecked (r : Registry) (flow : Flow) (config : DeviceConfig) (productKey : Option PyStr)
    (form : List (PyStr × PyStr) → FlowResult) : ConnectionResult → Turn
  | .failed error => flow.ends r (form [(base, error)])
  | .works version dps =>
      match isPodium dps productKey with
      | .error _ => flow.ends r .raised
      | .ok false => flow.ends r (form [(base, py "not_a_podium")])
      | .ok true => asyncCreatePurifier r flow config version productKey

/-- The rest of a step after its `async_check_connection`.  The flow of an entry that is gone
has been ended, and nobody sees what its step comes to. -/
def checked (r : Registry) (flow : Flow) (config : DeviceConfig) (result : ConnectionResult) :
    Check → Turn
  | .key device =>
      addChecked r flow config device.productKey (fun errors => .form .purifierKey errors none)
        result
  | .manual step productKey input =>
      addChecked r flow config productKey (fun errors => .form step errors (some input)) result
  | .reauth entryId =>
      match result with
      | .works version _ =>
          asyncUpdateReloadAndAbort r flow entryId
            (fun data =>
              { data with localKey := some config.localKey, detectedVersion := version })
            (py "reauth_successful")
      | .failed error =>
          match r.entry entryId with
          | none => flow.ends r .raised
          | some entry => reauthForm r flow entry.data [(base, error)]
  | .reconfigure entryId input =>
      match result with
      | .works version _ =>
          asyncUpdateReloadAndAbort r flow entryId
            (fun data =>
              { data with
                localKey := some config.localKey
                host := some config.host
                protocolVersion := some config.protocolVersion
                detectedVersion := version })
            (py "reconfigure_successful")
      | .failed error =>
          match r.entry entryId with
          | none => flow.ends r .raised
          | some entry => reconfigureForm r flow entry.data input [(base, error)]

/-- The flow manager calls a step. -/
def runStep (r : Registry) (flow : Flow) (input : Option UserInput) (early : Bool) :
    Step → Turn
  | .user => flow.ends r .menu
  | .purifier => asyncStepPurifier r flow early
  | .purifierPick => asyncStepPurifierPick r flow input
  | .purifierKey => asyncStepPurifierKey r flow input
  | .purifierNotFound => asyncPurifierManual .purifierNotFound r flow input
  | .purifierManual => asyncPurifierManual .purifierManual r flow input
  | .purifierSearch => asyncStepPurifierSearch r flow early
  | .purifierSearchFound => asyncStepPurifierSearchFound r flow
  | .reauthConfirm => asyncStepReauthConfirm r flow input
  | .reconfigure => asyncStepReconfigure r flow input

/-! ## The flow manager and the entries -/

/-- The entries and all flows. -/
structure System where
  registry : Registry := {}
  flows : List Flow := []

/-- What can happen: the user or a device starts a flow, the user submits, a task or an await
of a flow ends, and outside of it entries and flows come and go, and a loaded purifier stores
its address and its version. -/
inductive Event
  | startUser
  | discovered (device : DiscoveredDevice)
  | startReauth (entryId : Nat)
  | startReconfigure (entryId : Nat)
  | configure (i : Nat) (input : Option UserInput) (early : Bool)
  | lanScanned (i : Nat) (found : Option (List DiscoveredDevice))
  | searched (i : Nat) (found : Option FoundDevice)
  | scanned (i k : Nat) (found : Option (List DiscoveredDevice)) (early : Bool)
  | checked (i k : Nat) (ending : Ending) (version : Option PyStr) (closed : Bool)
  | flowRemoved (i : Nat)
  | entryAdded (uniqueId : PyStr) (ignored : Bool)
  | entryRemoved (entryId : Nat)
  | hostStored (entryId : Nat) (host : PyStr)
  | versionStored (entryId : Nat) (version : PyStr)

namespace System

/-- Home Assistant's flow manager takes the outcome of a step of flow `i`.  A flow that was removed
meanwhile creates no entry. -/
def finish (i : Nat) (t : Turn) (s : System) : System :=
  let put := fun registry flow => { registry, flows := s.flows.set i flow : System }
  match t.outcome with
  | .awaits a => put t.registry { t.flow with calls := t.flow.calls ++ [a] }
  | .result .raised => put t.registry t.flow
  | .result (.abort reason) =>
      put t.registry { t.flow with shown := .abort reason, removed := true }
  | .result (.createEntry data) =>
      put
        (if t.flow.removed then t.registry else t.registry.add t.flow.uniqueId false data)
        { t.flow with shown := .createEntry data, removed := true }
  | .result shown => put t.registry { t.flow with shown }

/-- A new flow and its first step. -/
def starts (t : Turn) (s : System) : System :=
  { s with flows := s.flows ++ [t.flow] }.finish s.flows.length t

/-- A flow in progress. -/
def flow (i : Nat) (s : System) : Option Flow := s.flows[i]?.filter fun flow => !flow.removed

/-- A flow in progress has the ID. -/
def inProgress (uniqueId : PyStr) (s : System) : Bool :=
  s.flows.any fun flow => !flow.removed && flow.uniqueId = some uniqueId

/-- The next step of a flow is called. -/
def configure (i : Nat) (input : Option UserInput) (early : Bool) (s : System) :
    Option System := do
  let flow ← s.flow i
  let step ← flow.shown.next
  pure (s.finish i (runStep s.registry flow input early step))

/-- The scan that the user watches ends; one that raised found nothing. -/
def lanScanned (i : Nat) (found : Option (List DiscoveredDevice)) (s : System) :
    Option System := do
  let flow ← s.flows[i]?
  match flow.lanTask with
  | .running =>
      pure { s with flows := s.flows.set i { flow with lanTask := .done (found.getD []) } }
  | _ => none

/-- The search that the user watches ends. -/
def searched (i : Nat) (found : Option FoundDevice) (s : System) : Option System := do
  let flow ← s.flows[i]?
  let search ← flow.search
  match search.task with
  | .running =>
      pure { s with
        flows := s.flows.set i { flow with search := some { search with task := .done found } } }
  | _ => none

/-- The scan that a step awaits ends. -/
def scanned (i k : Nat) (found : Option (List DiscoveredDevice)) (early : Bool) (s : System) :
    Option System := do
  let flow ← s.flows[i]?
  match flow.calls[k]? with
  | some (.scan step deviceId localKey version input) =>
      let flow := { flow with calls := flow.calls.eraseIdx k }
      pure (s.finish i
        (manualScanned step deviceId localKey version input s.registry flow found early))
  | _ => none

/-- The check that a step awaits ends. -/
def checked (i k : Nat) (ending : Ending) (version : Option PyStr) (closed : Bool)
    (s : System) : Option System := do
  let flow ← s.flows[i]?
  match flow.calls[k]? with
  | some (.check config _ purpose) =>
      let flow := { flow with calls := flow.calls.eraseIdx k }
      match asyncCheckConnection ending version closed with
      | none => pure (s.finish i (flow.ends s.registry .raised))
      | some result =>
          pure (s.finish i (ConfigFlow.checked s.registry flow config result purpose))
  | _ => none

/-- One event. -/
def step (s : System) : Event → Option System
  | .startUser => some (s.starts (Flow.ends s.registry { source := .user } .menu))
  | .discovered device =>
      if s.inProgress device.deviceId then none
      else some (s.starts (asyncStepIntegrationDiscovery s.registry device))
  | .startReauth entryId =>
      some (s.starts (asyncStepReauthConfirm s.registry { source := .reauth entryId } none))
  | .startReconfigure entryId =>
      some (s.starts (asyncStepReconfigure s.registry { source := .reconfigure entryId } none))
  | .configure i input early => s.configure i input early
  | .lanScanned i found => s.lanScanned i found
  | .searched i found => s.searched i found
  | .scanned i k found early => s.scanned i k found early
  | .checked i k ending version closed => s.checked i k ending version closed
  | .flowRemoved i =>
      s.flows[i]?.map fun flow => { s with flows := s.flows.set i { flow with removed := true } }
  | .entryAdded uniqueId ignored =>
      some { s with registry := s.registry.add (some uniqueId) ignored {} }
  | .entryRemoved entryId => some { s with registry := s.registry.remove entryId }
  | .hostStored entryId host =>
      some { s with registry :=
        s.registry.update entryId fun data => { data with host := some host } }
  | .versionStored entryId version =>
      some { s with registry :=
        s.registry.update entryId fun data => { data with detectedVersion := some version } }

end System

end ConfigFlow
