import HaBirdie.BleValues
import HaBirdie.StepRuns

/-!
# The Bluetooth connection of a Birdie

`client.py` and `coordinator.py`: a `BirdieBleClient` and its `BirdieCoordinator` as a
transition system.  The calls of the coordinator's coroutines (`async_connect` on its own or
before a write, the two writes, `async_disconnect`) are program counters; they give up the
event loop where they wait for the connect lock or await the Bluetooth library.

The environment's choices sit in the events: how an await of the library ends, which waiter
takes the free connect lock, when a link drops, and when its disconnect callback arrives.
Awaits of the library return or raise `BleakError`, `TimeoutError` or `OSError`.  A client
that `establish_connection` abandons during its retries has its callback still to come.
-/

namespace Ble

open Python

/-! ## What the library hands out -/

/-- A characteristic's properties. -/
structure Properties where
  read : Bool
  notify : Bool
deriving DecidableEq

/-- A services object, by the characteristics it has. -/
abbrev Services := List (Characteristic × Properties)

/-- `get_characteristic`. -/
def Services.characteristic (s : Services) (c : Characteristic) : Option Properties :=
  List.lookup c s

/-- `_services_have_known_characteristics`. -/
def Services.known (s : Services) : Bool :=
  (readCharacteristics ++ notifyCharacteristics).any fun c => (s.characteristic c).isSome

/-- The link of a library client; its disconnect callback arrives after it was lost. -/
inductive Link
  | connected
  | lost
  | reported
deriving DecidableEq

/-- A client of the library, with the characteristics that were subscribed on it. -/
structure BleakClient where
  link : Link
  subscribed : List Characteristic := []

/-! ## The state -/

/-- What is raised inside the client as `BirdieBleError`. -/
inductive BirdieBleError
  | notConnected
  | servicesNotAvailable
  | missing (c : Characteristic)
  | notReadable (c : Characteristic)
  | failedToRead (c : Characteristic)
  | failedToWrite (c : Characteristic)

/-- A write of the coordinator: `async_set_co2_threshold` or `async_set_cool_down`. -/
inductive Setting
  | co2Threshold
  | coolDown
deriving DecidableEq

structure Write where
  setting : Setting
  value : Int
deriving DecidableEq

/-- The characteristic that is written and read back. -/
def Setting.characteristic : Setting → Characteristic
  | .co2Threshold => .iaqCo2Threshold
  | .coolDown => .coolDownPeriod

/-- The bounds that the coordinator checks. -/
def Write.inRange (w : Write) : Bool :=
  match w.setting with
  | .co2Threshold => decide (400 ≤ w.value ∧ w.value ≤ 5000)
  | .coolDown => decide (1 ≤ w.value ∧ w.value ≤ 240)

/-- What the coordinator raises as `HomeAssistantError`. -/
inductive HomeAssistantError
  | outOfRange (setting : Setting)
  | unableToConnect
  | unableToWrite (setting : Setting) (cause : BirdieBleError)

/-- How a call ends. `library` is an exception of an await outside all `try` blocks. -/
inductive Ending
  | returned (result : Bool)
  | homeAssistantError (e : HomeAssistantError)
  | birdieBleError (e : BirdieBleError)
  | valueError
  | library

/-- What follows an `async_connect`. -/
inductive Purpose
  | connect
  | write (w : Write)
deriving DecidableEq

/-- Where the client's `async_disconnect` stands: it awaits `stop_notify` with more to come, or
`disconnect`. -/
inductive Teardown
  | stopping (rest : List Characteristic)
  | closing
deriving DecidableEq

/-- Where a call stands.  Library clients are given by number. -/
inductive Call
  | locking (p : Purpose)
  | closingStale (p : Purpose)
  | gettingDevice (p : Purpose)
  | establishing (p : Purpose)
  | gettingServices (p : Purpose) (k : Nat)
  | failing (p : Purpose) (k : Nat) (t : Teardown)
  | reading (p : Purpose) (c : Characteristic) (rest : List Characteristic) (values : List Change)
  | subscribing (p : Purpose) (k : Nat) (services : Services) (c : Characteristic)
      (rest : List Characteristic)
  | writing (w : Write)
  | readingBack (w : Write)
  | disconnecting (k : Nat) (t : Teardown)
  | done (e : Ending)

/-- A callback that `call_soon_threadsafe` scheduled on the event loop. -/
inductive Scheduled
  | values (c : Change)
  | disconnect

/-- The attributes of a `BirdieBleClient`; `client` is a library client, by its number. -/
structure BleClient where
  client : Option Nat := none
  services : Option Services := none
  notifyCharacteristics : List Characteristic := []
  expectedDisconnect : Bool := false

/-- A coordinator with its client, the library's clients, its calls and the scheduled
callbacks.  `connectLock` is the call that holds the lock. -/
structure World where
  data : BirdieData
  client : BleClient := {}
  expectedConnected : Bool := false
  connectLock : Option Nat := none
  bleaks : List BleakClient := []
  scheduled : List Scheduled := []
  calls : List Call := []

namespace World

/-! ## The client -/

/-- The library's `is_connected` of its `k`-th client. -/
def linked (w : World) (k : Nat) : Bool := (w.bleaks[k]?).any fun b => b.link = .connected

/-- `is_connected`. -/
def isConnected (w : World) : Bool := w.client.client.any w.linked

/-- `_require_client`. -/
def requireClient (w : World) : Except BirdieBleError Nat :=
  match w.client.client with
  | some k => if w.linked k then .ok k else .error .notConnected
  | none => .error .notConnected

/-- `_require_services`. -/
def requireServices (w : World) : Except BirdieBleError Services :=
  match w.client.services with
  | some s => .ok s
  | none => .error .servicesNotAvailable

/-- `_get_characteristic`. -/
def getCharacteristic (w : World) (c : Characteristic) : Except BirdieBleError Properties := do
  let s ← w.requireServices
  match s.characteristic c with
  | some p => pure p
  | none => throw (.missing c)

/-- `_async_read_uuid` up to its await. -/
def readUuid (w : World) (c : Characteristic) : Except BirdieBleError Nat := do
  let k ← w.requireClient
  let p ← w.getCharacteristic c
  if p.read then pure k else throw (.notReadable c)

/-- `async_read_initial` up to its next await: characteristics that raise are passed over. -/
def nextRead (w : World) : List Characteristic → Option (Characteristic × List Characteristic)
  | [] => none
  | c :: rest =>
      match w.readUuid c with
      | .ok _ => some (c, rest)
      | .error _ => w.nextRead rest

/-- `async_start_notify` up to its next await. -/
def nextNotify (s : Services) :
    List Characteristic → Option (Characteristic × List Characteristic)
  | [] => none
  | c :: rest =>
      match s.characteristic c with
      | some p => if p.notify then some (c, rest) else nextNotify s rest
      | none => nextNotify s rest

/-- The client forgets its library client. -/
def forget (w : World) : World :=
  { w with
    client := { w.client with client := none, services := none, notifyCharacteristics := [] } }

/-- `_handle_disconnect`. -/
def handleDisconnect (w : World) : World :=
  let w := w.forget
  if w.client.expectedDisconnect then w
  else { w with scheduled := w.scheduled ++ [.disconnect] }

/-! ## The coordinator -/

/-- `_set_available`. -/
def setAvailable (available : Bool) (w : World) : World :=
  if w.data.available = available then w
  else { w with data := { w.data with available } }

/-- `_async_handle_values`, also with `"available": True`. -/
def handleValues (changes : List Change) (w : World) : World :=
  { w with data := w.data.updated changes }

def handleAvailable (changes : List Change) (w : World) : World :=
  { w with data := { w.data.updated changes with available := true } }

/-- A call goes on to its next await, or ends. -/
def goes (i : Nat) (pc : Call) (w : World) : World := { w with calls := w.calls.set i pc }

/-- The connect lock is released. -/
def release (w : World) : World := { w with connectLock := none }

/-- A write with a connected client, up to its await. -/
def startWrite (i : Nat) (r : Write) (w : World) : World :=
  let started : Except BirdieBleError Unit := do
    let _ ← w.requireClient
    let _ ← w.getCharacteristic r.setting.characteristic
  match started with
  | .ok _ => w.goes i (.writing r)
  | .error e => w.goes i (.done (.homeAssistantError (.unableToWrite r.setting e)))

/-- The rest of a call after `async_connect` returned. -/
def connectReturns (i : Nat) (p : Purpose) (result : Bool) (w : World) : World :=
  let w := w.release
  match p, result with
  | .connect, _ => w.goes i (.done (.returned result))
  | .write r, true => w.startWrite i r
  | .write _, false => w.goes i (.done (.homeAssistantError .unableToConnect))

/-- The rest of a call after `async_connect` raised. -/
def connectRaises (i : Nat) (e : Ending) (w : World) : World := w.release.goes i (.done e)

/-- `async_start_notify` goes on with the characteristics that are left. -/
def subscribeRest (i : Nat) (p : Purpose) (k : Nat) (services : Services)
    (rest : List Characteristic) (w : World) : World :=
  match nextNotify services rest with
  | some (c, rest) => w.goes i (.subscribing p k services c rest)
  | none => w.connectReturns i p true

/-- `async_start_notify` up to its first await. -/
def startNotify (i : Nat) (p : Purpose) (w : World) : World :=
  match w.requireClient, w.requireServices with
  | .ok k, .ok services => w.subscribeRest i p k services notifyCharacteristics
  | .error e, _ => w.connectRaises i (.birdieBleError e)
  | .ok _, .error e => w.connectRaises i (.birdieBleError e)

/-- `async_read_initial` goes on with the characteristics that are left; the values are
published, and `async_start_notify` begins. -/
def readRest (i : Nat) (p : Purpose) (rest : List Characteristic) (values : List Change)
    (w : World) : World :=
  match w.nextRead rest with
  | some (c, rest) => w.goes i (.reading p c rest values)
  | none => (w.handleAvailable values).startNotify i p

/-- `async_connect` after the client's `async_connect` returned. -/
def clientConnected (i : Nat) (p : Purpose) (result : Bool) (w : World) : World :=
  if result then w.readRest i p readCharacteristics []
  else (w.setAvailable false).connectReturns i p false

/-- The client's `async_disconnect` goes on with the subscriptions that are left, and with the
library's `disconnect` if its client is still connected; `none` once it is over. -/
def nextTeardown (w : World) (k : Nat) (rest : List Characteristic) : Option Teardown :=
  match rest with
  | _ :: rest => some (.stopping rest)
  | [] => if w.linked k then some .closing else none

/-- The end of a call after the client's `async_disconnect` returned. -/
def failed (i : Nat) (p : Purpose) (w : World) : World := w.clientConnected i p false

/-- The end of the coordinator's `async_disconnect`. -/
def disconnected (i : Nat) (w : World) : World :=
  (w.setAvailable false).goes i (.done (.returned true))

/-- The client's `async_disconnect` up to its first await. -/
def startTeardown (pc : Nat → Teardown → Call) (after : World → World) (i : Nat) (w : World) :
    World :=
  let w := { w with client := { w.client with expectedDisconnect := true } }
  match w.client.client with
  | none =>
      after { w with
        client := { w.client with services := none, notifyCharacteristics := [] } }
  | some k =>
      match w.nextTeardown k w.client.notifyCharacteristics with
      | some t => w.goes i (pc k t)
      | none => after w.forget

/-- The client's `async_disconnect` goes on. -/
def teardownRest (pc : Nat → Teardown → Call) (after : World → World) (i k : Nat) (t : Teardown)
    (w : World) : World :=
  match t with
  | .closing => after w.forget
  | .stopping rest =>
      match w.nextTeardown k rest with
      | some t => w.goes i (pc k t)
      | none => after w.forget

/-- The client's `async_connect` after `_async_get_services`. -/
def servicesFound (i : Nat) (p : Purpose) (services : Option Services) (w : World) : World :=
  match services with
  | some s => { w with client := { w.client with services := some s } }.clientConnected i p true
  | none => w.startTeardown (.failing p) (failed i p) i

/-- The coordinator's `async_connect` with the lock, up to its next await. -/
def locked (i : Nat) (p : Purpose) (w : World) : World :=
  let w := { w with connectLock := some i, expectedConnected := true }
  if w.isConnected then w.clientConnected i p true
  else (if w.client.client.isSome then w.forget else w).goes i (.closingStale p)

/-- The client's `async_connect` after `_async_ble_device`. -/
def deviceFound (i : Nat) (p : Purpose) (found : Bool) (w : World) : World :=
  if found then
    { w with client := { w.client with expectedDisconnect := false } }.goes i (.establishing p)
  else w.clientConnected i p false

/-- A new call. -/
def newCall (pc : Call) (w : World) : World := { w with calls := w.calls ++ [pc] }

/-- It is the last one. -/
theorem getElem?_newCall (w : World) (pc : Call) :
    (w.newCall pc).calls[w.calls.length]? = some pc := List.getElem?_concat_length

/-- `async_set_co2_threshold` and `async_set_cool_down` up to their first await. -/
def asyncSet (r : Write) (w : World) : World :=
  if r.inRange then
    if w.isConnected then (w.newCall (.writing r)).startWrite w.calls.length r
    else w.newCall (.locking (.write r))
  else w.newCall (.done (.homeAssistantError (.outOfRange r.setting)))

/-- The coordinator's `async_disconnect` up to its first await. -/
def asyncDisconnect (w : World) : World :=
  let i := w.calls.length
  ({ w with expectedConnected := false }.newCall (.done (.returned true))).startTeardown
    .disconnecting (disconnected i) i

/-- `async_connect_if_expected` up to its first await. -/
def connectIfExpected (w : World) : World :=
  if w.expectedConnected && !w.isConnected then w.newCall (.locking .connect)
  else w.newCall (.done (.returned false))

/-! ## Steps -/

/-- What the owner calls, how awaits end, and what the link does. -/
inductive Event
  | connect
  | advertised
  | set (r : Write)
  | disconnect
  | lock (i : Nat)
  | staleClosed (i : Nat) (found : Bool)
  | gotDevice (i : Nat) (found : Bool)
  | raised (i : Nat)
  | abandoned (i : Nat)
  | established (i : Nat) (link : Link) (services : Option Services)
  | establishFailed (i : Nat)
  | gotServices (i : Nat) (services : Option Services)
  | readDone (i : Nat) (payload : Option Bytes)
  | subscribed (i : Nat) (success : Bool)
  | wrote (i : Nat) (success : Bool)
  | readBack (i : Nat) (payload : Option Bytes)
  | tornDown (i : Nat)
  | lost (k : Nat)
  | reported (k : Nat)
  | notified (k : Nat) (c : Characteristic) (payload : Bytes)
  | runScheduled

/-- The call whose await ends. -/
def Event.call : Event → Option Nat
  | .lock i | .staleClosed i _ | .gotDevice i _ | .raised i | .abandoned i | .established i _ _
  | .establishFailed i | .gotServices i _ | .readDone i _ | .subscribed i _ | .wrote i _
  | .readBack i _ | .tornDown i => some i
  | .connect | .advertised | .set _ | .disconnect | .lost _ | .reported _ | .notified _ _ _
  | .runScheduled => none

/-- The values of one initial read; a payload that does not parse is passed over. -/
def readValues (c : Characteristic) (payload : Option Bytes) (values : List Change) :
    List Change :=
  match payload.map (parseCharacteristicValues c) with
  | some (.ok change) => values ++ [change]
  | _ => values

/-- The services that `_async_get_services` accepts. -/
def usable (services : Option Services) : Option Services := services.filter Services.known

/-- A write after its value was written: `_async_read_uuid` up to its await. -/
def startReadBack (i : Nat) (r : Write) (w : World) : World :=
  match w.readUuid r.setting.characteristic with
  | .ok _ => w.goes i (.readingBack r)
  | .error e => w.goes i (.done (.homeAssistantError (.unableToWrite r.setting e)))

/-- A write after its value was read back. -/
def readBackDone (i : Nat) (r : Write) (payload : Bytes) (w : World) : World :=
  match parseCharacteristicValues r.setting.characteristic payload with
  | .ok change => (w.handleAvailable [change]).goes i (.done (.returned true))
  | .error _ => w.goes i (.done .valueError)

/-- `set` the link of a library client. -/
def setLink (k : Nat) (link : Link) (w : World) : World :=
  { w with bleaks := w.bleaks.modify k fun b => { b with link } }

/-- A subscription succeeded. -/
def subscribe (k : Nat) (c : Characteristic) (w : World) : World :=
  { w with
    client := { w.client with
      notifyCharacteristics := w.client.notifyCharacteristics ++ [c] }
    bleaks := w.bleaks.modify k fun b => { b with subscribed := b.subscribed ++ [c] } }

/-- `_handle_notify`. -/
def handleNotify (c : Characteristic) (payload : Bytes) (w : World) : World :=
  match parseCharacteristicValues c payload with
  | .ok change => { w with scheduled := w.scheduled ++ [.values change] }
  | .error _ => w

/-- A scheduled callback runs. -/
def runCallback (s : Scheduled) (w : World) : World :=
  match s with
  | .values change => w.handleValues [change]
  | .disconnect => w.setAvailable false

/-- The client's `async_connect` after `establish_connection` returned a client. -/
def establish (i : Nat) (p : Purpose) (link : Link) (services : Option Services) (w : World) :
    World :=
  let k := w.bleaks.length
  let w : World := { w with bleaks := w.bleaks ++ [{ link }] }
  if link = .connected then
    let w := { w with client := { w.client with client := some k } }
    match usable services with
    | some s => w.servicesFound i p (some s)
    | none => w.goes i (.gettingServices p k)
  else w.clientConnected i p false

/-- One step. -/
def step (w : World) : Event → Option World
  | .connect => some (w.newCall (.locking .connect))
  | .advertised => some w.connectIfExpected
  | .set r => some (w.asyncSet r)
  | .disconnect => some w.asyncDisconnect
  | .lock i =>
      match w.calls[i]?, w.connectLock with
      | some (.locking p), none => some (w.locked i p)
      | _, _ => none
  | .staleClosed i found =>
      match w.calls[i]? with
      | some (.closingStale p) =>
          -- a connectable device that Home Assistant knows is used at once
          some (if found then w.deviceFound i p true else w.goes i (.gettingDevice p))
      | _ => none
  | .gotDevice i found =>
      match w.calls[i]? with
      | some (.gettingDevice p) => some (w.deviceFound i p found)
      | _ => none
  | .raised i =>
      match w.calls[i]? with
      | some (.closingStale _) | some (.gettingDevice _) => some (w.connectRaises i .library)
      | _ => none
  | .abandoned i =>
      match w.calls[i]? with
      | some (.establishing _) => some { w with bleaks := w.bleaks ++ [{ link := .lost }] }
      | _ => none
  | .established i link services =>
      match w.calls[i]? with
      | some (.establishing p) => some (w.establish i p link services)
      | _ => none
  | .establishFailed i =>
      match w.calls[i]? with
      | some (.establishing p) => some (w.clientConnected i p false)
      | _ => none
  | .gotServices i services =>
      match w.calls[i]? with
      | some (.gettingServices p _) => some (w.servicesFound i p (usable services))
      | _ => none
  | .readDone i payload =>
      match w.calls[i]? with
      | some (.reading p c rest values) => some (w.readRest i p rest (readValues c payload values))
      | _ => none
  | .subscribed i success =>
      match w.calls[i]? with
      | some (.subscribing p k services c rest) =>
          some ((if success then w.subscribe k c else w).subscribeRest i p k services rest)
      | _ => none
  | .wrote i success =>
      match w.calls[i]? with
      | some (.writing r) =>
          some (if success then w.startReadBack i r
            else w.goes i (.done (.homeAssistantError
              (.unableToWrite r.setting (.failedToWrite r.setting.characteristic)))))
      | _ => none
  | .readBack i payload =>
      match w.calls[i]? with
      | some (.readingBack r) =>
          some (match payload with
            | some data => w.readBackDone i r data
            | none => w.goes i (.done (.homeAssistantError
                (.unableToWrite r.setting (.failedToRead r.setting.characteristic)))))
      | _ => none
  | .tornDown i =>
      match w.calls[i]? with
      | some (.failing p k t) => some (w.teardownRest (.failing p) (failed i p) i k t)
      | some (.disconnecting k t) => some (w.teardownRest .disconnecting (disconnected i) i k t)
      | _ => none
  | .lost k => if w.linked k then some (w.setLink k .lost) else none
  | .reported k =>
      match w.bleaks[k]? with
      | some b => if b.link = .lost then some (w.setLink k .reported).handleDisconnect else none
      | none => none
  | .notified k c payload =>
      match w.bleaks[k]? with
      | some b => if c ∈ b.subscribed then some (w.handleNotify c payload) else none
      | none => none
  | .runScheduled =>
      match w.scheduled with
      | s :: rest => some ({ w with scheduled := rest }.runCallback s)
      | [] => none

/-- The start: nothing connected and nothing called. -/
def init (data : BirdieData) : World := { data := { data with available := false } }

end World

/-! ## Where calls stand -/

/-- The call ends by marking the device unavailable: it tears a connection down. -/
def Call.tearsDown : Call → Bool
  | .failing _ _ _ | .disconnecting _ _ => true
  | _ => false

/-- The call has ended. -/
def Call.isDone : Call → Bool
  | .done _ => true
  | _ => false

/-- A connect that has stored its library client and not yet published its values. -/
def Call.staged : Call → Bool
  | .gettingServices _ _ | .failing _ _ _ | .reading _ _ _ _ => true
  | _ => false

/-- Neither. -/
structure Call.Later (c : Call) : Prop where
  tearsDown : c.tearsDown = false
  staged : c.staged = false

/-- A call that has ended is past its connect and its teardown. -/
theorem Call.later_of_isDone {c : Call} (h : c.isDone = true) : c.Later := by
  cases c with
  | done e => exact ⟨rfl, rfl⟩
  | _ => exact absurd h (by simp [Call.isDone])

namespace World

/-! ## What one step does -/

/-- The branches of the step function with their guards, so that no proof about steps has to
unfold it. -/
inductive Move (w : World) : Event → World → Prop
  | connect : Move w .connect (w.newCall (.locking .connect))
  | advertised : Move w .advertised w.connectIfExpected
  | set {r : Write} : Move w (.set r) (w.asyncSet r)
  | disconnect : Move w .disconnect w.asyncDisconnect
  | lock {i : Nat} {p : Purpose} (hi : w.calls[i]? = some (.locking p))
      (hfree : w.connectLock = none) : Move w (.lock i) (w.locked i p)
  | deviceKnown {i : Nat} {p : Purpose} (hi : w.calls[i]? = some (.closingStale p)) :
      Move w (.staleClosed i true) (w.deviceFound i p true)
  | deviceUnknown {i : Nat} {p : Purpose} (hi : w.calls[i]? = some (.closingStale p)) :
      Move w (.staleClosed i false) (w.goes i (.gettingDevice p))
  | gotDevice {i : Nat} {p : Purpose} {found : Bool}
      (hi : w.calls[i]? = some (.gettingDevice p)) :
      Move w (.gotDevice i found) (w.deviceFound i p found)
  | raised {i : Nat} {old : Call} (hi : w.calls[i]? = some old) (hold : old.Later) :
      Move w (.raised i) (w.connectRaises i .library)
  | abandoned {i : Nat} {p : Purpose} (hi : w.calls[i]? = some (.establishing p)) :
      Move w (.abandoned i) { w with bleaks := w.bleaks ++ [{ link := .lost }] }
  | established {i : Nat} {p : Purpose} {link : Link} {services : Option Services}
      (hi : w.calls[i]? = some (.establishing p)) :
      Move w (.established i link services) (w.establish i p link services)
  | establishFailed {i : Nat} {p : Purpose} (hi : w.calls[i]? = some (.establishing p)) :
      Move w (.establishFailed i) (w.clientConnected i p false)
  | gotServices {i k : Nat} {p : Purpose} {services : Option Services}
      (hi : w.calls[i]? = some (.gettingServices p k)) :
      Move w (.gotServices i services) (w.servicesFound i p (usable services))
  | readDone {i : Nat} {p : Purpose} {c : Characteristic} {rest : List Characteristic}
      {values : List Change} {payload : Option Bytes}
      (hi : w.calls[i]? = some (.reading p c rest values)) :
      Move w (.readDone i payload) (w.readRest i p rest (readValues c payload values))
  | subscribed {i k : Nat} {p : Purpose} {services : Services} {c : Characteristic}
      {rest : List Characteristic} (hi : w.calls[i]? = some (.subscribing p k services c rest)) :
      Move w (.subscribed i true) ((w.subscribe k c).subscribeRest i p k services rest)
  | subscribeFailed {i k : Nat} {p : Purpose} {services : Services} {c : Characteristic}
      {rest : List Characteristic} (hi : w.calls[i]? = some (.subscribing p k services c rest)) :
      Move w (.subscribed i false) (w.subscribeRest i p k services rest)
  | wrote {i : Nat} {r : Write} (hi : w.calls[i]? = some (.writing r)) :
      Move w (.wrote i true) (w.startReadBack i r)
  | writeFailed {i : Nat} {r : Write} (hi : w.calls[i]? = some (.writing r)) :
      Move w (.wrote i false) (w.goes i (.done (.homeAssistantError
        (.unableToWrite r.setting (.failedToWrite r.setting.characteristic)))))
  | readBack {i : Nat} {r : Write} {data : Bytes} (hi : w.calls[i]? = some (.readingBack r)) :
      Move w (.readBack i (some data)) (w.readBackDone i r data)
  | readBackFailed {i : Nat} {r : Write} (hi : w.calls[i]? = some (.readingBack r)) :
      Move w (.readBack i none) (w.goes i (.done (.homeAssistantError
        (.unableToWrite r.setting (.failedToRead r.setting.characteristic)))))
  | connectTornDown {i k : Nat} {p : Purpose} {t : Teardown}
      (hi : w.calls[i]? = some (.failing p k t)) :
      Move w (.tornDown i) (w.teardownRest (.failing p) (failed i p) i k t)
  | disconnectTornDown {i k : Nat} {t : Teardown} (hi : w.calls[i]? = some (.disconnecting k t)) :
      Move w (.tornDown i) (w.teardownRest .disconnecting (disconnected i) i k t)
  | lost {k : Nat} (hk : w.linked k = true) : Move w (.lost k) (w.setLink k .lost)
  | reported {k : Nat} {b : BleakClient} (hk : w.bleaks[k]? = some b) (hb : b.link = .lost) :
      Move w (.reported k) (w.setLink k .reported).handleDisconnect
  | notified {k : Nat} {b : BleakClient} {c : Characteristic} {payload : Bytes}
      (hk : w.bleaks[k]? = some b) (hc : c ∈ b.subscribed) :
      Move w (.notified k c payload) (w.handleNotify c payload)
  | ranScheduled {s : Scheduled} {rest : List Scheduled} (hs : w.scheduled = s :: rest) :
      Move w .runScheduled ({ w with scheduled := rest }.runCallback s)

/-- These are all. -/
theorem moves {w w' : World} {a : Event} (h : w.step a = some w') : w.Move a w' := by
  cases a with
  | connect =>
      obtain rfl := Option.some.inj h
      exact .connect
  | advertised =>
      obtain rfl := Option.some.inj h
      exact .advertised
  | set r =>
      obtain rfl := Option.some.inj h
      exact .set
  | disconnect =>
      obtain rfl := Option.some.inj h
      exact .disconnect
  | lock i =>
      simp only [step] at h
      split at h
      · rename_i hi hfree
        obtain rfl := Option.some.inj h
        exact .lock hi hfree
      · exact absurd h (by simp)
  | staleClosed i found =>
      simp only [step] at h
      split at h
      · rename_i hi
        obtain rfl := Option.some.inj h
        cases found with
        | true => exact .deviceKnown hi
        | false => exact .deviceUnknown hi
      · exact absurd h (by simp)
  | gotDevice i found =>
      simp only [step] at h
      split at h
      · rename_i hi
        obtain rfl := Option.some.inj h
        exact .gotDevice hi
      · exact absurd h (by simp)
  | raised i =>
      simp only [step] at h
      split at h
      · rename_i hi
        obtain rfl := Option.some.inj h
        exact .raised hi ⟨rfl, rfl⟩
      · rename_i hi
        obtain rfl := Option.some.inj h
        exact .raised hi ⟨rfl, rfl⟩
      · exact absurd h (by simp)
  | abandoned i =>
      simp only [step] at h
      split at h
      · rename_i hi
        obtain rfl := Option.some.inj h
        exact .abandoned hi
      · exact absurd h (by simp)
  | established i link services =>
      simp only [step] at h
      split at h
      · rename_i hi
        obtain rfl := Option.some.inj h
        exact .established hi
      · exact absurd h (by simp)
  | establishFailed i =>
      simp only [step] at h
      split at h
      · rename_i hi
        obtain rfl := Option.some.inj h
        exact .establishFailed hi
      · exact absurd h (by simp)
  | gotServices i services =>
      simp only [step] at h
      split at h
      · rename_i hi
        obtain rfl := Option.some.inj h
        exact .gotServices hi
      · exact absurd h (by simp)
  | readDone i payload =>
      simp only [step] at h
      split at h
      · rename_i hi
        obtain rfl := Option.some.inj h
        exact .readDone hi
      · exact absurd h (by simp)
  | subscribed i success =>
      simp only [step] at h
      split at h
      · rename_i hi
        obtain rfl := Option.some.inj h
        cases success with
        | true => exact .subscribed hi
        | false => exact .subscribeFailed hi
      · exact absurd h (by simp)
  | wrote i success =>
      simp only [step] at h
      split at h
      · rename_i hi
        obtain rfl := Option.some.inj h
        cases success with
        | true => exact .wrote hi
        | false => exact .writeFailed hi
      · exact absurd h (by simp)
  | readBack i payload =>
      simp only [step] at h
      split at h
      · rename_i hi
        obtain rfl := Option.some.inj h
        cases payload with
        | some data => exact .readBack hi
        | none => exact .readBackFailed hi
      · exact absurd h (by simp)
  | tornDown i =>
      simp only [step] at h
      split at h
      · rename_i hi
        obtain rfl := Option.some.inj h
        exact .connectTornDown hi
      · rename_i hi
        obtain rfl := Option.some.inj h
        exact .disconnectTornDown hi
      · exact absurd h (by simp)
  | lost k =>
      simp only [step] at h
      split at h
      · rename_i hk
        obtain rfl := Option.some.inj h
        exact .lost hk
      · exact absurd h (by simp)
  | reported k =>
      simp only [step] at h
      split at h
      · rename_i hk
        split at h
        · rename_i hb
          obtain rfl := Option.some.inj h
          exact .reported hk hb
        · exact absurd h (by simp)
      · exact absurd h (by simp)
  | notified k c payload =>
      simp only [step] at h
      split at h
      · rename_i hk
        split at h
        · rename_i hc
          obtain rfl := Option.some.inj h
          exact .notified hk hc
        · exact absurd h (by simp)
      · exact absurd h (by simp)
  | runScheduled =>
      simp only [step] at h
      split at h
      · rename_i hs
        obtain rfl := Option.some.inj h
        exact .ranScheduled hs
      · exact absurd h (by simp)

/-- Only before it has a library client does a connect raise. -/
theorem raised_stage {w w' : World} {i : Nat} (h : w.step (.raised i) = some w') :
    ∃ p, w.calls[i]? = some (.closingStale p) ∨ w.calls[i]? = some (.gettingDevice p) := by
  simp only [step] at h
  split at h
  · rename_i hi
    exact ⟨_, Or.inl hi⟩
  · rename_i hi
    exact ⟨_, Or.inr hi⟩
  · exact absurd h (by simp)

/-! ## The turn of a call -/

/-- What the turn of a call leaves alone: all but the availability, the values, the lock and its
own place, which is a `good` one. -/
structure Leads (i : Nat) (good : Call → Prop) (available : Bool) (w w' : World) : Prop where
  calls : ∃ pc, good pc ∧ w'.calls = w.calls.set i pc
  client : w'.client = w.client
  bleaks : w'.bleaks = w.bleaks
  scheduled : w'.scheduled = w.scheduled
  expected : w'.expectedConnected = w.expectedConnected
  available : w'.data.available = available

/-- A call that goes to another await leaves everything else alone. -/
theorem goes_leads {good : Call → Prop} {pc : Call} (i : Nat) (w : World) (hpc : good pc) :
    Leads i good w.data.available w (w.goes i pc) :=
  ⟨⟨pc, hpc, rfl⟩, rfl, rfl, rfl, rfl, rfl⟩

/-- A call that stays where it is when another one goes on. -/
theorem stays {w w' : World} {i : Nat} {pc old : Call} {f : Call → Bool}
    (hcalls : w'.calls = w.calls.set i pc) (hi : w.calls[i]? = some old) (hold : f old = false)
    (h : ∃ c ∈ w.calls, f c = true) : ∃ c ∈ w'.calls, f c = true := by
  obtain ⟨c, hc, hf⟩ := h
  obtain ⟨j, hj⟩ := List.mem_iff_getElem?.mp hc
  have hij : i ≠ j := by
    intro heq
    obtain rfl := heq
    obtain rfl : old = c := Option.some.inj (hi.symm.trans hj)
    exact absurd (hold.symm.trans hf) (by simp)
  have hkept : w'.calls[j]? = some c := by
    rw [hcalls, List.getElem?_set_ne hij]
    exact hj
  exact ⟨c, List.mem_of_getElem? hkept, hf⟩

/-- Data and lock may have changed before. -/
theorem Leads.after {i : Nat} {good : Call → Prop} {b : Bool} {w w₀ w' : World}
    (h : Leads i good b w₀ w') (hcalls : w₀.calls = w.calls) (hclient : w₀.client = w.client)
    (hbleaks : w₀.bleaks = w.bleaks) (hscheduled : w₀.scheduled = w.scheduled)
    (hexpected : w₀.expectedConnected = w.expectedConnected) : Leads i good b w w' := by
  refine ⟨?_, h.client.trans hclient, h.bleaks.trans hbleaks, h.scheduled.trans hscheduled,
    h.expected.trans hexpected, h.available⟩
  obtain ⟨pc, hpc, hset⟩ := h.calls
  exact ⟨pc, hpc, by rw [hset, hcalls]⟩

/-- The lock may have been released before. -/
theorem Leads.released {i : Nat} {good : Call → Prop} {b : Bool} {w w' : World}
    (h : Leads i good b w.release w') : Leads i good b w w' :=
  h.after rfl rfl rfl rfl rfl

/-- The data may have been published before. -/
theorem Leads.published {i : Nat} {good : Call → Prop} {b : Bool} {w w' : World} {d : BirdieData}
    (h : Leads i good b { w with data := d } w') : Leads i good b w w' :=
  h.after rfl rfl rfl rfl rfl

/-- Ending is being past both. -/
theorem done_later (e : Ending) : (Call.done e).Later := ⟨rfl, rfl⟩

/-- `_set_available` changes the availability, and nothing else. -/
theorem setAvailable_eq (b : Bool) (w : World) :
    w.setAvailable b = { w with data := { w.data with available := b } } := by
  unfold setAvailable
  split
  · rename_i h
    rw [← h]
  · rfl

/-- A write with a connected client begins, or fails at once. -/
theorem startWrite_calls (i : Nat) (r : Write) (w : World) :
    ∃ pc, w.startWrite i r = w.goes i pc ∧
      (pc = .writing r ∨ ∃ e, pc = .done (.homeAssistantError e)) := by
  unfold startWrite
  dsimp only
  split
  · exact ⟨_, rfl, Or.inl rfl⟩
  · exact ⟨_, rfl, Or.inr ⟨_, rfl⟩⟩

/-- A write begins past its connect. -/
theorem startWrite_leads (i : Nat) (r : Write) (w : World) :
    Leads i Call.Later w.data.available w (w.startWrite i r) := by
  unfold startWrite
  dsimp only
  split
  · exact goes_leads i w ⟨rfl, rfl⟩
  · exact goes_leads i w (done_later _)

/-- A connect that returns leaves the availability as its last turn set it. -/
theorem connectReturns_leads (i : Nat) (p : Purpose) (result : Bool) (w : World) :
    Leads i Call.Later w.data.available w (w.connectReturns i p result) := by
  unfold connectReturns
  dsimp only
  split
  · exact (goes_leads i w.release (done_later _)).released
  · exact (startWrite_leads i _ w.release).released
  · exact (goes_leads i w.release (done_later _)).released

/-- So does one that raises. -/
theorem connectRaises_leads (i : Nat) (e : Ending) (w : World) :
    Leads i Call.Later w.data.available w (w.connectRaises i e) :=
  (goes_leads i w.release (done_later e)).released

/-- Subscribing to what is left leaves the availability alone. -/
theorem subscribeRest_leads (i : Nat) (p : Purpose) (k : Nat) (services : Services)
    (rest : List Characteristic) (w : World) :
    Leads i Call.Later w.data.available w (w.subscribeRest i p k services rest) := by
  unfold subscribeRest
  split
  · exact goes_leads i w ⟨rfl, rfl⟩
  · exact connectReturns_leads i p true w

/-- So does the beginning of `async_start_notify`, whether it raises or not. -/
theorem startNotify_leads (i : Nat) (p : Purpose) (w : World) :
    Leads i Call.Later w.data.available w (w.startNotify i p) := by
  unfold startNotify
  split
  · exact subscribeRest_leads i p _ _ _ w
  · exact connectRaises_leads i _ w
  · exact connectRaises_leads i _ w

/-- An initial read awaits its next characteristic, or publishes. -/
theorem readRest_cases (i : Nat) (p : Purpose) (rest : List Characteristic)
    (values : List Change) (w : World) :
    (w.nextRead rest ≠ none ∧
        Leads i (fun pc => pc.staged = true ∧ pc.tearsDown = false) w.data.available w
          (w.readRest i p rest values)) ∨
      (w.nextRead rest = none ∧ Leads i Call.Later true w (w.readRest i p rest values)) := by
  unfold readRest
  split
  · rename_i hnext
    exact Or.inl ⟨by simp [hnext], goes_leads i w ⟨rfl, rfl⟩⟩
  · rename_i hnext
    exact Or.inr ⟨hnext,
      (startNotify_leads i p (w.handleAvailable values)).published⟩

/-- A failed connect marks the device unavailable. -/
theorem clientConnected_false (i : Nat) (p : Purpose) (w : World) :
    Leads i Call.Later false w (w.clientConnected i p false) := by
  have hreturns := connectReturns_leads i p false (w.setAvailable false)
  rw [setAvailable_eq] at hreturns
  unfold clientConnected
  rw [if_neg (by simp), setAvailable_eq]
  exact hreturns.published

/-- A disconnect that is over has made the data unavailable. -/
theorem disconnected_leads (i : Nat) (w : World) :
    Leads i Call.Later false w (w.disconnected i) := by
  have hgoes := goes_leads i (w.setAvailable false) (done_later (.returned true))
  rw [setAvailable_eq] at hgoes
  unfold disconnected
  rw [setAvailable_eq]
  exact hgoes.published

/-- The client has forgotten its library client. -/
structure Forgot (w w' : World) : Prop where
  client : w'.client.client = none
  calls : w'.calls = w.calls
  bleaks : w'.bleaks = w.bleaks
  scheduled : w'.scheduled = w.scheduled
  expected : w'.expectedConnected = w.expectedConnected

/-- Forgetting the client takes its subscriptions and services along, and leaves the library's
clients. -/
theorem forget_forgot (w : World) : Forgot w w.forget := ⟨rfl, rfl, rfl, rfl, rfl⟩

/-- A teardown begins with an await, or is over at once. -/
theorem startTeardown_cases (pc : Nat → Teardown → Call) (after : World → World) (i : Nat)
    (w : World) :
    (∃ k t, w.startTeardown pc after i =
        { w with client := { w.client with expectedDisconnect := true } }.goes i (pc k t)) ∨
      ∃ w₁, Forgot w w₁ ∧ w.startTeardown pc after i = after w₁ := by
  unfold startTeardown
  dsimp only
  split
  · rename_i hnone
    refine Or.inr ⟨_, ?_, rfl⟩
    exact ⟨hnone, rfl, rfl, rfl, rfl⟩
  · split
    · exact Or.inl ⟨_, _, rfl⟩
    · refine Or.inr ⟨_, ?_, rfl⟩
      exact ⟨rfl, rfl, rfl, rfl, rfl⟩

/-- A teardown goes on with an await, or is over. -/
theorem teardownRest_cases (pc : Nat → Teardown → Call) (after : World → World) (i k : Nat)
    (t : Teardown) (w : World) :
    (∃ t', w.teardownRest pc after i k t = w.goes i (pc k t')) ∨
      ∃ w₁, Forgot w w₁ ∧ w.teardownRest pc after i k t = after w₁ := by
  unfold teardownRest
  split
  · exact Or.inr ⟨_, forget_forgot w, rfl⟩
  · split
    · exact Or.inl ⟨_, rfl⟩
    · exact Or.inr ⟨_, forget_forgot w, rfl⟩

end World

end Ble
