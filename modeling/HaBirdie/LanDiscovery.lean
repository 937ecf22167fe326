import HaBirdie.ConfigFlow
import HaBirdie.SharedListener
import HaBirdie.StepRuns
import Mathlib.Data.List.AList
import Mathlib.Data.List.Chain
import Mathlib.Tactic.Linarith

/-!
# Listening for announcements

`lan/discovery.py`: datagrams are parsed to announcements, a listener keeps the latest one of each
device and tells its callbacks, and `async_discover` collects them for some time.

A search registers its callback in the same turn in which it copies what the listener knows, so
until it ends it has found exactly what its listener knows (`Heard`), and it sees that its device
was found (`Aware`).  Whatever ends it, its callback is gone and a listener of its own is stopped
(`Registered`).
-/

namespace Lan.Discovery

open Python StepRuns
open ConfigFlow (DiscoveredDevice)

/-! ## Announcements -/

/-- What the library and `str` make of bytes and values: `json.loads(tinytuya.decrypt_udp(data))`,
where neither raises, and `str` of a value that is no string. -/
structure Library where
  decrypt : List UInt8 → Option Json
  text : Json → PyStr

/-- `bool(value)`. -/
def truthy : Json → Bool
  | .null => false
  | .bool b => b
  | .int n => n ≠ 0
  | .float x => x != 0.0
  | .str s => !s.isEmpty
  | .list xs => !xs.isEmpty
  | .obj members => !members.isEmpty

/-- `str(value) if value else None`. -/
def Library.textIfTrue (lib : Library) (value : Option Json) : Option PyStr :=
  (value.filter truthy).map fun
    | .str s => s
    | value => lib.text value

/-- `payload.get("gwId") or payload.get("id")`. -/
def announcedId (members : List (PyStr × Json)) : Option Json :=
  ((lastMember members (py "gwId")).filter truthy).or (lastMember members (py "id"))

/-- `host or source_ip`. -/
def announcedHost (members : List (PyStr × Json)) (source : PyStr) : PyStr :=
  match lastMember members (py "ip") with
  | some (.str host) => if host.isEmpty then source else host
  | _ => source

/-- `parse_broadcast`. -/
def parseBroadcast (lib : Library) (data : List UInt8) (source : PyStr) :
    Option DiscoveredDevice :=
  match lib.decrypt data with
  | some (.obj members) =>
      if lastMember members (py "from") = some (.str (py "app")) then none
      else
        match announcedId members with
        | some (.str deviceId) =>
            if deviceId.isEmpty then none
            else
              some
                { deviceId
                  host := announcedHost members source
                  protocolVersion := lib.textIfTrue (lastMember members (py "version"))
                  productKey := lib.textIfTrue (lastMember members (py "productKey")) }
        | _ => none
  | _ => none

/-- An announcement names its device and an address. -/
structure Named (device : DiscoveredDevice) : Prop where
  deviceId : device.deviceId ≠ []
  host : device.host ≠ []

/-- **What is parsed** names a device, and an address if the datagram came from one; a request of
an app is not parsed. -/
theorem parseBroadcast_named {lib : Library} {data : List UInt8} {source : PyStr}
    {device : DiscoveredDevice} (hsource : source ≠ [])
    (h : parseBroadcast lib data source = some device) : Named device := by
  unfold parseBroadcast at h
  split at h
  · rename_i members _
    split at h
    · exact absurd h (by simp)
    split at h
    · rename_i deviceId _
      split at h
      · exact absurd h (by simp)
      · rename_i hid
        obtain rfl := Option.some.inj h
        refine ⟨by simpa using hid, ?_⟩
        show announcedHost members source ≠ []
        unfold announcedHost
        split
        · split
          · exact hsource
          · rename_i hhost
            simpa using hhost
        · exact hsource
    · exact absurd h (by simp)
  · exact absurd h (by simp)

/-! ## Listeners and searches -/

/-- `REQUEST_INTERVAL`. -/
def requestInterval : ℚ := 6

/-- The announcements by device. -/
abbrev Devices := AList fun _ : PyStr => DiscoveredDevice

/-- Who hears the announcements of a listener: a search by its number, or somebody else. -/
inductive Callback
  | search (i : Nat)
  | other
deriving DecidableEq

/-- `DiscoveryListener`; a transport is given by its port.  `owner` is the search that created it
for itself, if one did. -/
structure Listener where
  owner : Option Nat := none
  transports : List Nat := []
  callbacks : List Callback := []
  devices : Devices := ∅

/-- Where an `async_discover` stands: its own listener binds a port, it sends a request, it waits
until a time, or it has ended. -/
inductive Stage
  | starting (port : Nat) (rest : List Nat)
  | requesting (deadline : ℚ)
  | waiting (deadline wakesAt : ℚ)
  | returned
  | raised
deriving DecidableEq

/-- An `async_discover` with its arguments, its local variables, the time of its call and those of
its requests. -/
structure Search where
  listener : Nat
  own : Bool
  deviceId : Option PyStr
  seconds : ℚ
  request : Bool
  began : ℚ
  found : Devices
  done : Bool := false
  stage : Stage
  requests : List ℚ := []

namespace Search

/-- The search has not ended. -/
def active (s : Search) : Bool :=
  match s.stage with
  | .returned | .raised => false
  | _ => true

/-- `on_device`. -/
def hear (device : DiscoveredDevice) (s : Search) : Search :=
  { s with
    found := s.found.insert device.deviceId device
    done := s.done || decide (s.deviceId = some device.deviceId) }

/-- Whatever it hears of, only what it found and whether it is done change. -/
theorem hears_same (device : DiscoveredDevice) (n : Nat) (s : Search) :
    ∃ found done, (hear device)^[n] s = { s with found, done } := by
  induction n with
  | zero => exact ⟨s.found, s.done, rfl⟩
  | succ n ih =>
      obtain ⟨found, done, hsame⟩ := ih
      rw [Function.iterate_succ_apply', hsame]
      exact ⟨_, _, rfl⟩

/-- `wait_for(done.wait(), min(REQUEST_INTERVAL, remaining))` up to its await. -/
def wait (now deadline : ℚ) (s : Search) : Search :=
  { s with stage := .waiting deadline (now + min requestInterval (max 0 (deadline - now))) }

/-- The head of the loop up to its await. -/
def loopHead (now deadline : ℚ) (s : Search) : Search :=
  if s.request then { s with stage := .requesting deadline, requests := s.requests ++ [now] }
  else s.wait now deadline

@[simp] theorem listener_loopHead (now deadline : ℚ) (s : Search) :
    (s.loopHead now deadline).listener = s.listener := by
  unfold loopHead
  split <;> rfl

@[simp] theorem own_loopHead (now deadline : ℚ) (s : Search) :
    (s.loopHead now deadline).own = s.own := by
  unfold loopHead
  split <;> rfl

@[simp] theorem found_loopHead (now deadline : ℚ) (s : Search) :
    (s.loopHead now deadline).found = s.found := by
  unfold loopHead
  split <;> rfl

/-- At the head of its loop a search sends a request or waits. -/
theorem stage_loopHead (now deadline : ℚ) (s : Search) :
    (s.loopHead now deadline).stage = .requesting deadline ∨
      ∃ wakesAt, (s.loopHead now deadline).stage = .waiting deadline wakesAt := by
  unfold loopHead
  split
  · exact Or.inl rfl
  · exact Or.inr ⟨_, rfl⟩

/-- `device_id is not None and device_id in found`. -/
def hasFound (s : Search) : Bool := s.deviceId.any fun deviceId => decide (deviceId ∈ s.found)

end Search

/-- The listeners and searches there have been, and the last time that was read. -/
structure Network where
  listeners : List Listener := []
  searches : List Search := []
  clock : ℚ

/-- The arguments of an `async_discover`. -/
structure Arguments where
  listener : Option Nat
  deviceId : Option PyStr
  seconds : ℚ
  request : Bool

/-- The local variables up to `try`. -/
def Arguments.search (arguments : Arguments) (listener : Nat) (own : Bool) (found : Devices)
    (now : ℚ) : Search :=
  { listener, own, deviceId := arguments.deviceId, seconds := arguments.seconds,
    request := arguments.request, began := now, found, stage := .starting 0 [] }

/-- What happens: a listener is created, started, stopped, gets or loses another callback or a
datagram; a search begins, or goes on after an await. -/
inductive Event
  | listen
  | bind (k port : Nat)
  | stop (k : Nat)
  | addCallback (k : Nat)
  | removeCallback (k : Nat)
  | datagram (k : Nat) (data : List UInt8) (source : PyStr)
  | discover (arguments : Arguments) (ports : List Nat) (binds : Nat → Bool) (now : ℚ)
  | bound (i : Nat) (binds : Nat → Bool) (now : ℚ)
  | requested (i : Nat) (now : ℚ)
  | woken (i : Nat) (now : ℚ)
  | raised (i : Nat)

namespace Network

/-- A callback of a listener. -/
def tell (device : DiscoveredDevice) (searches : List Search) : Callback → List Search
  | .search i => searches.modify i (Search.hear device)
  | .other => searches

/-- `handle`. -/
def handle (k : Nat) (device : DiscoveredDevice) (w : Network) : Network :=
  match w.listeners[k]? with
  | none => w
  | some l =>
      { w with
        listeners := w.listeners.set k { l with devices := l.devices.insert device.deviceId device }
        searches := l.callbacks.foldl (tell device) w.searches }

/-- A search ends: `finally`. -/
def finish (i : Nat) (s : Search) (stage : Stage) (w : Network) : Network :=
  { w with
    listeners := w.listeners.modify s.listener fun l =>
      { l with
        callbacks := l.callbacks.erase (.search i)
        transports := if s.own then [] else l.transports }
    searches := w.searches.set i { s with stage } }

/-- After its listener started, a search begins its loop, unless it has found its device. -/
def enter (i : Nat) (now : ℚ) (s : Search) (w : Network) : Network :=
  if s.hasFound then w.finish i s .returned
  else { w with searches := w.searches.set i (s.loopHead now (now + s.seconds)) }

/-- `async_start` of a search's own listener goes on with the ports that are left. -/
def startRest (i : Nat) (binds : Nat → Bool) (ports : List Nat) (now : ℚ) (s : Search)
    (w : Network) : Network :=
  match Purifier.nextSocket binds ports with
  | some (port, rest) =>
      { w with searches := w.searches.set i { s with stage := .starting port rest } }
  | none => w.enter i now s

/-- The callback of a new search is added to its listener. -/
def join (l : Listener) (k : Nat) (s : Search) (w : Network) : Network :=
  { w with
    listeners := w.listeners.set k
      { l with callbacks := l.callbacks ++ [.search w.searches.length] }
    searches := w.searches ++ [s] }

/-- `async_discover` up to its first await. -/
def discover (arguments : Arguments) (ports : List Nat) (binds : Nat → Bool) (now : ℚ)
    (w : Network) : Option Network :=
  let i := w.searches.length
  match arguments.listener with
  | none =>
      let k := w.listeners.length
      let own : Listener := { owner := some i }
      let s := arguments.search k true own.devices now
      let w' := { w with listeners := w.listeners ++ [own] }
      some ((w'.join own k s).startRest i binds ports now s)
  | some k =>
      match w.listeners[k]? with
      | none => none
      | some l =>
          if l.owner.isSome then none
          else
            let s := arguments.search k false l.devices now
            some ((w.join l k s).enter i now s)

/-- After its wait a search goes on or returns. -/
def woken (i : Nat) (now deadline : ℚ) (s : Search) (w : Network) : Network :=
  if s.done ∨ deadline ≤ now then w.finish i s .returned
  else { w with searches := w.searches.set i (s.loopHead now deadline) }

/-- Change a listener that no search created for itself. -/
def onListener (k : Nat) (f : Listener → Listener) (w : Network) : Option Network :=
  match w.listeners[k]? with
  | none => none
  | some l => if l.owner.isSome then none else some { w with listeners := w.listeners.set k (f l) }

/-- What happens in one step, but for the clock. -/
def happen (lib : Library) (w : Network) : Event → Option Network
  | .listen => some { w with listeners := w.listeners ++ [{}] }
  | .bind k port => w.onListener k fun l => { l with transports := l.transports ++ [port] }
  | .stop k => w.onListener k fun l => { l with transports := [] }
  | .addCallback k => w.onListener k fun l => { l with callbacks := l.callbacks ++ [.other] }
  | .removeCallback k => w.onListener k fun l => { l with callbacks := l.callbacks.erase .other }
  | .datagram k data source =>
      match w.listeners[k]? with
      | none => none
      | some l =>
          if l.transports.isEmpty then none
          else some ((parseBroadcast lib data source).elim w fun device => w.handle k device)
  | .discover arguments ports binds now => w.discover arguments ports binds now
  | .bound i binds now =>
      match w.searches[i]? with
      | some s =>
          match s.stage with
          | .starting port rest =>
              some ({ w with
                listeners := w.listeners.modify s.listener fun l =>
                  { l with transports := l.transports ++ [port] } }.startRest i binds rest now s)
          | _ => none
      | none => none
  | .requested i now =>
      match w.searches[i]? with
      | some s =>
          match s.stage with
          | .requesting deadline =>
              some { w with searches := w.searches.set i (s.wait now deadline) }
          | _ => none
      | none => none
  | .woken i now =>
      match w.searches[i]? with
      | some s =>
          match s.stage with
          | .waiting deadline _ => some (w.woken i now deadline s)
          | _ => none
      | none => none
  | .raised i =>
      match w.searches[i]? with
      | some s => if s.active then some (w.finish i s .raised) else none
      | none => none

end Network

/-- The time that is read. -/
def Event.time : Event → Option ℚ
  | .discover _ _ _ now | .bound _ _ now | .requested _ now | .woken _ now => some now
  | _ => none

/-- One step. -/
def Network.step (lib : Library) (w : Network) (e : Event) : Option Network :=
  (w.happen lib e).map fun w' => { w' with clock := e.time.getD w.clock }

/-- The search that is woken has found its device, or it is time. -/
def Network.mayWake (w : Network) (i : Nat) (now : ℚ) : Bool :=
  w.searches[i]?.all fun s =>
    match s.stage with
    | .waiting _ wakesAt => s.done || decide (wakesAt ≤ now)
    | _ => true

/-- The clock does not go back, and a datagram comes from an address. -/
structure Ordered (w : Network) (e : Event) : Prop where
  time : e.time.all (w.clock ≤ ·) = true
  source : ∀ k data source, e = .datagram k data source → source ≠ []

/-- Besides, a wait lasts until its time unless the device is found. -/
structure Timely (w : Network) (e : Event) : Prop extends Ordered w e where
  wakes : ∀ i now, e = .woken i now → w.mayWake i now = true

instance (w : Network) (e : Event) : Decidable (Ordered w e) :=
  decidable_of_iff
    (e.time.all (w.clock ≤ ·) = true ∧
      (match e with
        | .datagram _ _ source => !source.isEmpty
        | _ => true) = true)
    (by
      constructor
      · intro h
        cases e <;> constructor <;> simp_all
      · intro h
        cases e with
        | datagram k data source => exact ⟨h.time, by simpa using h.source k data source rfl⟩
        | _ => exact ⟨h.time, rfl⟩)

instance (w : Network) (e : Event) : Decidable (Timely w e) :=
  decidable_of_iff
    (Ordered w e ∧
      (match e with
        | .woken i now => w.mayWake i now
        | _ => true) = true)
    (by
      constructor
      · rintro ⟨hordered, hwakes⟩
        refine ⟨hordered, fun i now he => ?_⟩
        subst he
        exact hwakes
      · intro h
        refine ⟨h.toOrdered, ?_⟩
        cases e with
        | woken i now => exact h.wakes i now rfl
        | _ => rfl)

/-- A step does not set the clock back. -/
theorem Ordered.le {w : Network} {e : Event} (h : Ordered w e) : w.clock ≤ e.time.getD w.clock := by
  have htime := h.time
  cases he : e.time with
  | none => simp
  | some now => simpa [he] using htime

/-! ## What a step does -/

/-- The announcement that a listener gets from an event. -/
def Event.announcement (lib : Library) (k : Nat) : Event → Option DiscoveredDevice
  | .datagram k' data source => if k' = k then parseBroadcast lib data source else none
  | _ => none

/-- A search begins or goes on. -/
def Event.isSearch : Event → Bool
  | .discover .. | .bound .. | .requested .. | .woken .. | .raised _ => true
  | _ => false

/-- A listener is changed, but not in what it knows, whose it is or which searches hear it. -/
structure Plain (l l' : Listener) : Prop where
  devices : l'.devices = l.devices
  owner : l'.owner = l.owner
  callbacks : ∀ i, l'.callbacks.count (.search i) = l.callbacks.count (.search i)

namespace Network

/-- What a step does. -/
inductive Does (lib : Library) (w : Network) : Event → Network → Prop
  | listens : Does lib w .listen { w with listeners := w.listeners ++ [{}] }
  | changes {e : Event} {k : Nat} {l l' : Listener} (he : ∀ k, e.announcement lib k = none)
      (hsearch : e.isSearch = false) (hl : w.listeners[k]? = some l) (howner : l.owner = none)
      (hplain : Plain l l') :
      Does lib w e { w with listeners := w.listeners.set k l' }
  | hears {k : Nat} {data : List UInt8} {source : PyStr} {l : Listener}
      (hl : w.listeners[k]? = some l) :
      Does lib w (.datagram k data source)
        ((parseBroadcast lib data source).elim w fun device => w.handle k device)
  | discovers {arguments : Arguments} {ports : List Nat} {binds : Nat → Bool} {now : ℚ}
      {w' : Network} (h : w.discover arguments ports binds now = some w') :
      Does lib w (.discover arguments ports binds now) w'
  | binds {i : Nat} {binds : Nat → Bool} {now : ℚ} {s : Search} {port : Nat} {rest : List Nat}
      (hs : w.searches[i]? = some s) (hstage : s.stage = .starting port rest) :
      Does lib w (.bound i binds now)
        ({ w with
          listeners := w.listeners.modify s.listener fun l =>
            { l with transports := l.transports ++ [port] } }.startRest i binds rest now s)
  | requests {i : Nat} {now deadline : ℚ} {s : Search} (hs : w.searches[i]? = some s)
      (hstage : s.stage = .requesting deadline) :
      Does lib w (.requested i now) { w with searches := w.searches.set i (s.wait now deadline) }
  | wakes {i : Nat} {now deadline wakesAt : ℚ} {s : Search} (hs : w.searches[i]? = some s)
      (hstage : s.stage = .waiting deadline wakesAt) :
      Does lib w (.woken i now) (w.woken i now deadline s)
  | raises {i : Nat} {s : Search} (hs : w.searches[i]? = some s) (hactive : s.active = true) :
      Does lib w (.raised i) (w.finish i s .raised)

/-- A plain change of one listener is a step of any event that announces nothing and is not a
search's. -/
theorem onListener_does {lib : Library} {k : Nat} {f : Listener → Listener} {w w' : Network}
    {e : Event} (h : w.onListener k f = some w') (he : ∀ k, e.announcement lib k = none)
    (hsearch : e.isSearch = false) (hf : ∀ l, Plain l (f l)) : Does lib w e w' := by
  unfold onListener at h
  cases hl : w.listeners[k]? with
  | none => simp [hl] at h
  | some l =>
      simp only [hl] at h
      split at h
      · exact absurd h (by simp)
      · rename_i howner
        obtain rfl := Option.some.inj h
        exact .changes he hsearch hl (by simpa using howner) (hf l)

/-- **Inversion of a step.**  Everything below goes by what a step does (`Does`), and unfolds no
event again. -/
theorem happen_does {lib : Library} {w w' : Network} {e : Event}
    (h : w.happen lib e = some w') : Does lib w e w' := by
  cases e with
  | listen =>
      obtain rfl := Option.some.inj h
      exact .listens
  | bind k port => exact onListener_does h (fun _ => rfl) rfl fun l => ⟨rfl, rfl, fun _ => rfl⟩
  | stop k => exact onListener_does h (fun _ => rfl) rfl fun l => ⟨rfl, rfl, fun _ => rfl⟩
  | addCallback k =>
      exact onListener_does h (fun _ => rfl) rfl fun l => ⟨rfl, rfl, fun i => by simp⟩
  | removeCallback k =>
      refine onListener_does h (fun _ => rfl) rfl fun l => ⟨rfl, rfl, fun i => ?_⟩
      exact List.count_erase_of_ne (by simp)
  | datagram k data source =>
      simp only [happen] at h
      split at h
      · exact absurd h (by simp)
      · rename_i l hl
        split at h
        · exact absurd h (by simp)
        · obtain rfl := Option.some.inj h
          exact .hears hl
  | discover arguments ports binds now => exact .discovers h
  | bound i binds now =>
      simp only [happen] at h
      split at h
      · split at h
        · obtain rfl := Option.some.inj h
          exact .binds ‹_› ‹_›
        · exact absurd h (by simp)
      · exact absurd h (by simp)
  | requested i now =>
      simp only [happen] at h
      split at h
      · split at h
        · obtain rfl := Option.some.inj h
          exact .requests ‹_› ‹_›
        · exact absurd h (by simp)
      · exact absurd h (by simp)
  | woken i now =>
      simp only [happen] at h
      split at h
      · split at h
        · obtain rfl := Option.some.inj h
          exact .wakes ‹_› ‹_›
        · exact absurd h (by simp)
      · exact absurd h (by simp)
  | raised i =>
      simp only [happen] at h
      split at h
      · split at h
        · obtain rfl := Option.some.inj h
          exact .raises ‹_› ‹_›
        · exact absurd h (by simp)
      · exact absurd h (by simp)

end Network

/-! ## What a listener knows -/

/-- The latest of some announcements of a device. -/
def latest (devices : List DiscoveredDevice) (deviceId : PyStr) : Option DiscoveredDevice :=
  devices.reverse.find? fun device => device.deviceId = deviceId

/-- The devices of a listener. -/
def Network.devicesOf (w : Network) (k : Nat) : Devices :=
  (w.listeners[k]?.map (·.devices)).getD ∅

/-- A cache that is filled in order has the latest of each. -/
theorem lookup_insert_all (devices : List DiscoveredDevice) (deviceId : PyStr) :
    (devices.foldl (fun known device => known.insert device.deviceId device)
      (∅ : Devices)).lookup deviceId = latest devices deviceId := by
  induction devices using List.reverseRecOn with
  | nil => rfl
  | append_singleton devices device ih =>
      rw [List.foldl_append, latest, List.reverse_append]
      by_cases hid : device.deviceId = deviceId
      · subst hid
        simp
      · have hne : deviceId ≠ device.deviceId := fun h => hid h.symm
        simpa [hid, AList.lookup_insert_ne hne, latest] using ih

namespace Network

/-- A listener that is replaced by one with the same announcements changes no announcements of any
listener. -/
theorem devicesOf_set {w : Network} {ls : List Listener} {k k' : Nat} {l l' : Listener}
    (hl : w.listeners[k']? = some l) (hls : ls = w.listeners.set k' l')
    (hdevices : l'.devices = l.devices) : (ls[k]?.map (·.devices)).getD ∅ = w.devicesOf k := by
  subst hls
  rw [devicesOf, List.getElem?_set]
  split
  · rename_i hk
    subst hk
    split
    · simp [hl, hdevices]
    · rename_i hlen
      rw [List.getElem?_eq_none (by omega)] at hl
      exact absurd hl (by simp)
  · rfl

/-- Modifying a listener without touching its announcements changes none. -/
theorem devicesOf_modify {ls : List Listener} {k k' : Nat} {f : Listener → Listener}
    (hf : ∀ l, (f l).devices = l.devices) :
    ((ls.modify k' f)[k]?.map (·.devices)).getD ∅ = (ls[k]?.map (·.devices)).getD ∅ := by
  rw [List.getElem?_modify]
  cases ls[k]? with
  | none => rfl
  | some l =>
      by_cases hk : k' = k
      · simp [hk, hf]
      · simp [hk]

/-- A new listener has heard nothing, and changes nothing of the others. -/
theorem devicesOf_concat {ls : List Listener} {k : Nat} {l : Listener} (hl : l.devices = ∅) :
    ((ls ++ [l])[k]?.map (·.devices)).getD ∅ = (ls[k]?.map (·.devices)).getD ∅ := by
  rcases Nat.lt_trichotomy k ls.length with hlt | rfl | hgt
  · rw [List.getElem?_append_left hlt]
  · simp [hl]
  · rw [List.getElem?_eq_none (by simp; omega), List.getElem?_eq_none (by omega)]

/-- A search that ends takes its callback away, and leaves what its listener has heard. -/
@[simp] theorem devicesOf_finish (i : Nat) (s : Search) (stage : Stage) (w : Network) (k : Nat) :
    (w.finish i s stage).devicesOf k = w.devicesOf k :=
  devicesOf_modify fun _ => rfl

/-- Entering the loop registers a callback, and changes no announcements. -/
@[simp] theorem devicesOf_enter (i : Nat) (now : ℚ) (s : Search) (w : Network) (k : Nat) :
    (w.enter i now s).devicesOf k = w.devicesOf k := by
  unfold enter
  split
  · exact devicesOf_finish i s .returned w k
  · rfl

/-- Binding the remaining ports changes no announcements. -/
@[simp] theorem devicesOf_startRest (i : Nat) (binds : Nat → Bool) (ports : List Nat) (now : ℚ)
    (s : Search) (w : Network) (k : Nat) :
    (w.startRest i binds ports now s).devicesOf k = w.devicesOf k := by
  unfold startRest
  split
  · rfl
  · exact devicesOf_enter i now s w k

/-- Neither does a search that joins a listener which is there already. -/
@[simp] theorem devicesOf_join {l : Listener} {k' : Nat} {s : Search} {w : Network}
    (hl : w.listeners[k']? = some l) (k : Nat) : (w.join l k' s).devicesOf k = w.devicesOf k :=
  devicesOf_set hl rfl rfl

/-- A search begins: no listener knows more than before.  A listener that is created for it has
heard nothing yet. -/
theorem devicesOf_discover {arguments : Arguments} {ports : List Nat} {binds : Nat → Bool} {now : ℚ}
    {w w' : Network} (h : w.discover arguments ports binds now = some w') (k : Nat) :
    w'.devicesOf k = w.devicesOf k := by
  unfold discover at h
  split at h
  · obtain rfl := Option.some.inj h
    rw [devicesOf_startRest, devicesOf_join (by simp)]
    exact devicesOf_concat rfl
  · split at h
    · exact absurd h (by simp)
    · rename_i l hl
      split at h
      · exact absurd h (by simp)
      · obtain rfl := Option.some.inj h
        rw [devicesOf_enter, devicesOf_join hl]

/-- `handle` keeps the announcement. -/
theorem devicesOf_handle {k' : Nat} {device : DiscoveredDevice} {w : Network} {l : Listener}
    (hl : w.listeners[k']? = some l) (k : Nat) :
    (w.handle k' device).devicesOf k =
      if k' = k then (w.devicesOf k).insert device.deviceId device else w.devicesOf k := by
  have hlt : k' < w.listeners.length := (List.getElem?_eq_some_iff.mp hl).1
  simp only [handle, hl, devicesOf, List.getElem?_set]
  split
  · rename_i hk
    subst hk
    obtain rfl := Option.some.inj ((List.getElem?_eq_getElem hlt).symm.trans hl)
    simp [hlt]
  · rfl

/-- **Every step**: a listener knows what it knew and the announcement that it got.  So the
announcements that an event brings are the only source of what searches find. -/
theorem devicesOf_happen {lib : Library} {w w' : Network} {e : Event}
    (h : w.happen lib e = some w') (k : Nat) :
    w'.devicesOf k = (e.announcement lib k).elim (w.devicesOf k) fun device =>
      (w.devicesOf k).insert device.deviceId device := by
  cases happen_does h with
  | listens => exact devicesOf_concat rfl
  | changes he _ hl _ hplain =>
      rw [he]
      exact devicesOf_set hl rfl hplain.devices
  | @hears k' data source l hl =>
      cases hparse : parseBroadcast lib data source with
      | none => simp [Event.announcement, hparse]
      | some device =>
          simp only [Option.elim_some, devicesOf_handle hl k, Event.announcement, hparse]
          split <;> rfl
  | discovers hdiscover => exact devicesOf_discover hdiscover k
  | binds hs hstage =>
      rw [devicesOf_startRest]
      exact devicesOf_modify fun _ => rfl
  | requests hs hstage => rfl
  | wakes hs hstage =>
      unfold woken
      split
      · exact devicesOf_finish ..
      · rfl
  | raises hs hactive => exact devicesOf_finish ..

/-- **Every run**: a listener knows the latest of each device.  This is what a search returns, and
it is a function of the announcements alone. -/
theorem devicesOf_run {lib : Library} {ok : Network → Event → Prop} {w w' : Network}
    {es : List Event} (hrun : Run (step lib) ok w es w') (k : Nat) :
    w'.devicesOf k = (es.filterMap (Event.announcement lib k)).foldl
      (fun known device => known.insert device.deviceId device) (w.devicesOf k) := by
  induction hrun with
  | nil => rfl
  | @cons w u w' e es hok hstep _ ih =>
      obtain ⟨v, hv, rfl⟩ := Option.map_eq_some_iff.mp hstep
      have hknown := devicesOf_happen hv k
      rw [ih]
      change List.foldl _ (v.devicesOf k) _ = _
      rw [hknown]
      cases hannounced : e.announcement lib k with
      | none => simp [hannounced]
      | some device => simp [hannounced]

end Network

/-! ## What a search does -/

/-- Its listener starts, or has started. -/
inductive Starts (now : ℚ) (s : Search) : Search → Prop
  | binds (port : Nat) (rest : List Nat) : Starts now s { s with stage := .starting port rest }
  | found (h : s.hasFound = true) : Starts now s { s with stage := .returned }
  | begins (h : s.hasFound = false) : Starts now s (s.loopHead now (now + s.seconds))

/-- A search that starts has the same listener and has found nothing new by it. -/
theorem Starts.same {now : ℚ} {s s' : Search} (h : Starts now s s') :
    s'.listener = s.listener ∧ s'.own = s.own ∧ s'.found = s.found := by
  cases h <;> simp

/-- One turn of a search. -/
inductive Turns (e : Event) (i : Nat) (s : Search) : Search → Prop
  | starts {now : ℚ} {port : Nat} {rest : List Nat} {s' : Search} (he : e.time = some now)
      (hstage : s.stage = .starting port rest) (h : Starts now s s') : Turns e i s s'
  | waits {now deadline : ℚ} (he : e.time = some now) (hstage : s.stage = .requesting deadline) :
      Turns e i s (s.wait now deadline)
  | returns {now deadline wakesAt : ℚ} (he : e.time = some now)
      (hstage : s.stage = .waiting deadline wakesAt) (h : s.done = true ∨ deadline ≤ now) :
      Turns e i s { s with stage := .returned }
  | repeats {now deadline wakesAt : ℚ} (he : e = .woken i now)
      (hstage : s.stage = .waiting deadline wakesAt) (hdone : s.done = false)
      (hnow : now < deadline) : Turns e i s (s.loopHead now deadline)
  | raises (hactive : s.active = true) : Turns e i s { s with stage := .raised }

namespace Network

/-- Entering the loop changes this one search, which then has no ports to bind any more. -/
theorem searches_enter (i : Nat) (now : ℚ) (s : Search) (w : Network) :
    ∃ s', Starts now s s' ∧ (∀ port rest, s'.stage ≠ .starting port rest) ∧
      (w.enter i now s).searches = w.searches.set i s' := by
  unfold enter
  split
  · exact ⟨_, .found ‹_›, by simp, rfl⟩
  · rename_i hfound
    refine ⟨_, .begins (Bool.eq_false_iff.mpr hfound), ?_, rfl⟩
    intro port rest
    rcases s.stage_loopHead now (now + s.seconds) with hstage | ⟨wakesAt, hstage⟩ <;> simp [hstage]

/-- Binding the remaining ports changes this one search. -/
theorem searches_startRest (i : Nat) (binds : Nat → Bool) (ports : List Nat) (now : ℚ) (s : Search)
    (w : Network) :
    ∃ s', Starts now s s' ∧ (w.startRest i binds ports now s).searches = w.searches.set i s' := by
  unfold startRest
  split
  · exact ⟨_, .binds .., rfl⟩
  · obtain ⟨s', hstarts, -, hsearches⟩ := searches_enter i now s w
    exact ⟨s', hstarts, hsearches⟩

/-- A listener that does not exist has heard nothing. -/
theorem devicesOf_length (w : Network) : w.devicesOf w.listeners.length = ∅ := by
  simp [devicesOf]

/-- A search begins with what its listener knows, and only its own listener has yet to start.  A
listener that is shared has been listening before. -/
theorem searches_discover {arguments : Arguments} {ports : List Nat} {binds : Nat → Bool} {now : ℚ}
    {w w' : Network} (h : w.discover arguments ports binds now = some w') :
    ∃ k own s', Starts now (arguments.search k own (w.devicesOf k) now) s' ∧
      (own = false → ∀ port rest, s'.stage ≠ .starting port rest) ∧
      w'.searches = w.searches ++ [s'] := by
  unfold discover at h
  split at h
  · obtain rfl := Option.some.inj h
    obtain ⟨s', hstarts, hsearches⟩ := searches_startRest w.searches.length binds ports now
      (arguments.search w.listeners.length true ∅ now)
      (join { owner := some w.searches.length } w.listeners.length
        (arguments.search w.listeners.length true ∅ now)
        { w with listeners := w.listeners ++ [{ owner := some w.searches.length }] })
    rw [← devicesOf_length w] at hstarts
    exact ⟨_, true, s', hstarts, by simp, hsearches.trans (by simp [join])⟩
  · rename_i k _
    split at h
    · exact absurd h (by simp)
    · rename_i l hl
      split at h
      · exact absurd h (by simp)
      · obtain rfl := Option.some.inj h
        obtain ⟨s', hstarts, hentered, hsearches⟩ := searches_enter w.searches.length now
          (arguments.search k false l.devices now)
          (w.join l k (arguments.search k false l.devices now))
        have hknown : w.devicesOf k = l.devices := by simp [devicesOf, hl]
        rw [← hknown] at hstarts
        exact ⟨k, false, s', hstarts, fun _ => hentered, hsearches.trans (by simp [join])⟩

/-- Those who are told of a device hear it, each as often as it has a callback.  With one callback
of each search this is once. -/
theorem getElem?_tell (device : DiscoveredDevice) (cs : List Callback) (ss : List Search)
    (i : Nat) :
    (cs.foldl (tell device) ss)[i]? =
      ss[i]?.map (Search.hear device)^[cs.count (.search i)] := by
  induction cs generalizing ss with
  | nil => simp
  | cons c cs ih =>
      rw [List.foldl_cons, ih]
      cases c with
      | other => simp [tell]
      | search j =>
          rw [tell, List.getElem?_modify]
          by_cases hj : j = i
          · subst hj
            rw [List.count_cons_self]
            cases ss[j]? <;> simp
          · rw [List.count_cons_of_ne (by simpa using hj)]
            simp [hj]

/-- **What a step does to a search**: it begins, it stays as it is, it hears of a device or it takes
a turn. -/
theorem search_turns {lib : Library} {w w' : Network} {e : Event} {i : Nat} {s' : Search}
    (h : Does lib w e w') (hs' : w'.searches[i]? = some s') :
    (w.searches[i]? = none ∧ ∃ arguments k own now, e.time = some now ∧
        Starts now (Arguments.search arguments k own (w.devicesOf k) now) s' ∧
        (own = false → ∀ port rest, s'.stage ≠ .starting port rest)) ∨
      ∃ s, w.searches[i]? = some s ∧
        ((∃ device n, s' = (Search.hear device)^[n] s) ∨ Turns e i s s') := by
  have hsame {w'' : Network} (h' : w''.searches = w.searches) (hs'' : w''.searches[i]? = some s') :
      ∃ s, w.searches[i]? = some s ∧
        ((∃ device n, s' = (Search.hear device)^[n] s) ∨ Turns e i s s') :=
    ⟨s', h' ▸ hs'', Or.inl ⟨⟨[], [], none, none⟩, 0, rfl⟩⟩
  have hturn {j : Nat} {s t : Search} (hs : w.searches[j]? = some s) (ht : Turns e j s t)
      (hset : (w.searches.set j t)[i]? = some s') :
      ∃ s, w.searches[i]? = some s ∧
        ((∃ device n, s' = (Search.hear device)^[n] s) ∨ Turns e i s s') := by
    by_cases hj : j = i
    · subst hj
      rw [List.getElem?_set_self (List.getElem?_eq_some_iff.mp hs).1] at hset
      obtain rfl := Option.some.inj hset
      exact ⟨s, hs, Or.inr ht⟩
    · rw [List.getElem?_set_ne hj] at hset
      exact ⟨s', hset, Or.inl ⟨⟨[], [], none, none⟩, 0, rfl⟩⟩
  cases h with
  | listens => exact Or.inr (hsame rfl hs')
  | changes => exact Or.inr (hsame rfl hs')
  | @hears k data source l hl =>
      cases hparse : parseBroadcast lib data source with
      | none =>
          rw [hparse] at hs'
          exact Or.inr (hsame rfl hs')
      | some device =>
          rw [hparse, Option.elim_some, handle, hl] at hs'
          obtain ⟨s, hs, rfl⟩ := Option.map_eq_some_iff.mp ((getElem?_tell ..).symm.trans hs')
          exact Or.inr ⟨s, hs, Or.inl ⟨device, _, rfl⟩⟩
  | discovers hdiscover =>
      obtain ⟨k, own, t, hstarts, hown, hsearches⟩ := searches_discover hdiscover
      rw [hsearches] at hs'
      rcases Nat.lt_trichotomy i w.searches.length with hlt | rfl | hgt
      · rw [List.getElem?_append_left hlt] at hs'
        exact Or.inr (hsame rfl hs')
      · obtain rfl : t = s' := by simpa using hs'
        exact Or.inl ⟨by simp, _, k, own, _, rfl, hstarts, hown⟩
      · rw [List.getElem?_eq_none (by simp; omega)] at hs'
        exact absurd hs' (by simp)
  | @binds i' binds now s port rest hs hstage =>
      obtain ⟨t, hstarts, hsearches⟩ := searches_startRest i' binds rest now s
        { w with
          listeners := w.listeners.modify s.listener fun l =>
            { l with transports := l.transports ++ [port] } }
      rw [hsearches] at hs'
      exact Or.inr (hturn hs (.starts rfl hstage hstarts) hs')
  | requests hs hstage => exact Or.inr (hturn hs (.waits rfl hstage) hs')
  | wakes hs hstage =>
      unfold woken at hs'
      split at hs'
      · exact Or.inr (hturn hs (.returns rfl hstage ‹_›) hs')
      · rename_i hgoes
        rw [not_or, not_le] at hgoes
        exact Or.inr (hturn hs (.repeats rfl hstage (by simpa using hgoes.1) hgoes.2) hs')
  | raises hs hactive => exact Or.inr (hturn hs (.raises hactive) hs')

end Network

namespace Search

/-- The end of a search that is in its loop. -/
def deadline (s : Search) : Option ℚ :=
  match s.stage with
  | .requesting deadline | .waiting deadline _ => some deadline
  | _ => none

/-- What holds of every search: it knows whether its device was found, it returns if so or when its
time is over, and its requests are before that and, if waits last, `REQUEST_INTERVAL` apart. -/
structure Sound (waitsLast : Prop) (clock : ℚ) (s : Search) : Prop where
  began : s.began ≤ clock
  seen : s.done = true → s.hasFound = true
  aware : ∀ d ∈ s.deadline, s.hasFound = true → s.done = true
  returned : s.stage = .returned → s.hasFound = true ∨ s.began + s.seconds ≤ clock
  deadline : ∀ d ∈ s.deadline, s.began + s.seconds ≤ d
  first : ∀ d ∈ s.deadline, ∀ t ∈ s.requests.head?, d = t + s.seconds
  fresh : ∀ port rest, s.stage = .starting port rest → s.requests = []
  silent : s.request = false → s.requests = []
  asks : ∀ d ∈ s.deadline, s.request = true → s.requests ≠ []
  asked : ∀ t ∈ s.requests, t ≤ clock
  patient : ∀ d wakesAt, s.stage = .waiting d wakesAt →
    d ≤ wakesAt ∨ ∀ t ∈ s.requests, t + requestInterval ≤ wakesAt
  spaced : waitsLast → s.requests.IsChain fun t u => t + requestInterval ≤ u
  limited : ∀ t ∈ s.requests.head?, ∀ u ∈ s.requests.tail, u < t + s.seconds

variable {waitsLast : Prop}

/-- Time passes while a search waits. -/
theorem Sound.later {s : Search} {clock now : ℚ} (h : s.Sound waitsLast clock)
    (hle : clock ≤ now) : s.Sound waitsLast now :=
  { h with
    began := h.began.trans hle
    returned := fun hstage => (h.returned hstage).imp_right fun hover => hover.trans hle
    asked := fun t ht => (h.asked t ht).trans hle }

/-- A search has found its device if it had before, or if this is it. -/
theorem hasFound_hear (device : DiscoveredDevice) (s : Search) :
    (s.hear device).hasFound = (s.hasFound || decide (s.deviceId = some device.deviceId)) := by
  cases hid : s.deviceId with
  | none => simp [hasFound, hear, hid]
  | some deviceId => simp [hasFound, hear, hid, AList.mem_insert, Bool.decide_or, Bool.or_comm]

/-- A search that hears of a device knows whether it was its own.  If so the event is set that it
waits for. -/
theorem Sound.hear {s : Search} {clock : ℚ} (h : s.Sound waitsLast clock)
    (device : DiscoveredDevice) : (s.hear device).Sound waitsLast clock where
  began := h.began
  seen := by
    intro hdone
    rw [hasFound_hear]
    simp only [Search.hear, Bool.or_eq_true] at hdone ⊢
    exact hdone.imp_left h.seen
  aware := by
    intro d hd hfound
    rw [hasFound_hear] at hfound
    simp only [Search.hear, Bool.or_eq_true] at hfound ⊢
    exact hfound.imp_left (h.aware d hd)
  returned := by
    intro hstage
    rw [hasFound_hear, Bool.or_eq_true]
    exact (h.returned hstage).imp_left Or.inl
  deadline := h.deadline
  first := h.first
  fresh := h.fresh
  silent := h.silent
  asks := h.asks
  asked := h.asked
  patient := h.patient
  spaced := h.spaced
  limited := h.limited

/-- A wait ends at the deadline, or a whole interval later. -/
theorem le_wakesAt (now d : ℚ) :
    d ≤ now + min requestInterval (max 0 (d - now)) ∨
      now + min requestInterval (max 0 (d - now)) = now + requestInterval := by
  rcases le_total requestInterval (max 0 (d - now)) with hle | hle
  · exact Or.inr (by rw [min_eq_left hle])
  · rw [min_eq_right hle]
    have hmax := le_max_right 0 (d - now)
    exact Or.inl (by linarith)

/-- A search that has sent its request waits, until its deadline or until the next request is due,
whichever comes first. -/
theorem Sound.wait {s : Search} {clock now d : ℚ} (h : s.Sound waitsLast clock)
    (hnow : clock ≤ now) (hstage : s.stage = .requesting d) :
    (s.wait now d).Sound waitsLast now := by
  have hd : d ∈ s.deadline := by simp [Search.deadline, hstage]
  refine
    { began := h.began.trans hnow
      seen := h.seen
      aware := fun _ _ => h.aware d hd
      returned := fun hstage' => absurd hstage' (by simp [Search.wait])
      deadline := ?_
      first := ?_
      fresh := fun port rest hstage' => absurd hstage' (by simp [Search.wait])
      silent := h.silent
      asks := fun _ _ => h.asks d hd
      asked := fun t ht => (h.asked t ht).trans hnow
      patient := ?_
      spaced := h.spaced
      limited := h.limited }
  · intro d' hd'
    obtain rfl : d = d' := by simpa [Search.deadline, Search.wait] using hd'
    exact h.deadline d hd
  · intro d' hd'
    obtain rfl : d = d' := by simpa [Search.deadline, Search.wait] using hd'
    exact h.first d hd
  · intro d' wakesAt hstage'
    obtain ⟨rfl, rfl⟩ : d = d' ∧ now + min requestInterval (max 0 (d - now)) = wakesAt := by
      simpa [Search.wait] using hstage'
    rcases le_wakesAt now d with hle | heq
    · exact Or.inl hle
    · refine Or.inr fun t ht => ?_
      have hasked := h.asked t ht
      linarith

/-- A search goes around its loop: its time is not over, and its last request was long ago if waits
last. -/
theorem Sound.loopHead {s : Search} {clock now d : ℚ} (h : s.Sound waitsLast clock)
    (hnow : clock ≤ now) (hfound : s.hasFound = false) (hover : s.began + s.seconds ≤ d)
    (hfirst : ∀ t ∈ s.requests.head?, d = t + s.seconds ∧ now < d)
    (hbegin : s.request = true → s.requests = [] → d = now + s.seconds)
    (hgap : waitsLast → ∀ t ∈ s.requests, t + requestInterval ≤ now) :
    (s.loopHead now d).Sound waitsLast now := by
  cases hrequest : s.request with
  | false =>
      have hnone : s.requests = [] := h.silent hrequest
      have hhead : s.loopHead now d = s.wait now d := by simp [Search.loopHead, hrequest]
      rw [hhead]
      refine
        { began := h.began.trans hnow
          seen := h.seen
          aware := fun _ _ hfound' => absurd (hfound.symm.trans hfound') (by simp)
          returned := fun hstage' => absurd hstage' (by simp [Search.wait])
          deadline := ?_
          first := fun _ _ t ht => absurd ht (by simp [Search.wait, hnone])
          fresh := fun _ _ _ => hnone
          silent := fun _ => hnone
          asks := fun _ _ hrequest' => absurd (hrequest.symm.trans hrequest') (by simp)
          asked := fun t ht => absurd ht (by simp [Search.wait, hnone])
          patient := fun _ _ _ => Or.inr fun t ht => absurd ht (by simp [Search.wait, hnone])
          spaced := h.spaced
          limited := h.limited }
      intro d' hd'
      obtain rfl : d = d' := by simpa [Search.deadline, Search.wait] using hd'
      exact hover
  | true =>
      have hhead : s.loopHead now d =
          { s with stage := .requesting d, requests := s.requests ++ [now] } := by
        simp [Search.loopHead, hrequest]
      have hfirst' : ∀ t ∈ (s.requests ++ [now]).head?, d = t + s.seconds := by
        intro t ht
        cases hrequests : s.requests with
        | nil =>
            obtain rfl : now = t := by simpa [hrequests] using ht
            exact hbegin hrequest hrequests
        | cons t' rest =>
            obtain rfl : t' = t := by simpa [hrequests] using ht
            exact (hfirst t' (by simp [hrequests])).1
      rw [hhead]
      refine
        { began := h.began.trans hnow
          seen := h.seen
          aware := fun _ _ hfound' => absurd (hfound.symm.trans hfound') (by simp)
          returned := fun hstage' => absurd hstage' (by simp)
          deadline := ?_
          first := ?_
          fresh := fun _ _ hstage' => absurd hstage' (by simp)
          silent := fun hrequest' => absurd (hrequest.symm.trans hrequest') (by simp)
          asks := fun _ _ _ => by simp
          asked := ?_
          patient := fun _ _ hstage' => absurd hstage' (by simp)
          spaced := ?_
          limited := ?_ }
      · intro d' hd'
        obtain rfl : d = d' := by simpa [Search.deadline] using hd'
        exact hover
      · intro d' hd'
        obtain rfl : d = d' := by simpa [Search.deadline] using hd'
        exact hfirst'
      · intro t ht
        rcases List.mem_append.mp ht with ht | ht
        · exact (h.asked t ht).trans hnow
        · exact (List.mem_singleton.mp ht).le
      · intro hlast
        refine (h.spaced hlast).append (List.isChain_singleton now) ?_
        intro t ht u hu
        obtain rfl : now = u := by simpa using hu
        exact hgap hlast t (List.mem_of_getLast? ht)
      · intro t ht u hu
        cases hrequests : s.requests with
        | nil =>
            rw [hrequests] at hu
            exact absurd hu (by simp)
        | cons t' rest =>
            have ht' : t' ∈ s.requests.head? := by simp [hrequests]
            obtain rfl : t' = t := by simpa [hrequests] using ht
            rw [hrequests, List.cons_append, List.tail_cons] at hu
            rcases List.mem_append.mp hu with hu | hu
            · exact h.limited t' ht' u (by simpa [hrequests] using hu)
            · obtain rfl := List.mem_singleton.mp hu
              obtain ⟨rfl, hlt⟩ := hfirst t' ht'
              exact hlt

/-- A search ends.  It may return only if its device was found or its time is over, and it has no
deadline any more. -/
theorem Sound.ended {s : Search} {clock : ℚ} (h : s.Sound waitsLast clock) {stage : Stage}
    (hended : Search.active { s with stage } = false)
    (hreturned : stage = .returned → s.hasFound = true ∨ s.began + s.seconds ≤ clock) :
    Search.Sound waitsLast clock { s with stage } := by
  have hdeadline : Search.deadline { s with stage } = none := by
    cases stage <;> simp_all [Search.deadline, Search.active]
  exact
    { h with
      aware := fun d hd => absurd (hdeadline ▸ hd) (by simp)
      returned := hreturned
      deadline := fun d hd => absurd (hdeadline ▸ hd) (by simp)
      first := fun d hd => absurd (hdeadline ▸ hd) (by simp)
      fresh := by
        intro port rest hstage
        simp_all [Search.active]
      asks := fun d hd => absurd (hdeadline ▸ hd) (by simp)
      patient := by
        intro d wakesAt hstage
        simp_all [Search.active] }

/-- A search that has not begun its loop binds its next port, enters the loop with a fresh
deadline, or returns what is known already. -/
theorem Sound.starts {s s' : Search} {now : ℚ} (h : s.Sound waitsLast now) {port : Nat}
    {rest : List Nat} (hstage : s.stage = .starting port rest) (hstarts : Starts now s s') :
    s'.Sound waitsLast now := by
  have hnone : s.requests = [] := h.fresh port rest hstage
  cases hstarts with
  | binds port' rest' =>
      have hdeadline : s.deadline = none := by simp [Search.deadline, hstage]
      exact
        { h with
          aware := fun _ hd => absurd hd (by simp [Search.deadline])
          returned := fun hstage' => absurd hstage' (by simp)
          deadline := fun _ hd => absurd hd (by simp [Search.deadline])
          first := fun _ hd => absurd hd (by simp [Search.deadline])
          fresh := fun _ _ _ => hnone
          asks := fun _ hd => absurd hd (by simp [Search.deadline])
          patient := fun _ _ hstage' => absurd hstage' (by simp) }
  | found hfound => exact h.ended rfl fun _ => Or.inl hfound
  | begins hfound =>
      refine h.loopHead le_rfl hfound ?_ ?_ (fun _ _ => rfl) ?_
      · have hbegan := h.began
        linarith
      · exact fun t ht => absurd ht (by simp [hnone])
      · exact fun _ t ht => absurd ht (by simp [hnone])

/-- **Every turn of a search** keeps what is known of its times.  Only the spacing of the requests
needs the waits to last. -/
theorem Sound.turns {w : Network} {e : Event} {i : Nat} {s s' : Search}
    (h : s.Sound waitsLast w.clock) (hs : w.searches[i]? = some s) (hordered : Ordered w e)
    (hlast : waitsLast → Timely w e) (hturns : Turns e i s s') :
    s'.Sound waitsLast (e.time.getD w.clock) := by
  have hclock {now : ℚ} (he : e.time = some now) : w.clock ≤ now := by
    simpa [he] using hordered.time
  cases hturns with
  | @starts now port rest _ he hstage hstarts =>
      rw [he]
      exact (h.later (hclock he)).starts hstage hstarts
  | @waits now d he hstage =>
      rw [he]
      exact h.wait (hclock he) hstage
  | @returns now d wakesAt he hstage hend =>
      rw [he]
      refine (h.later (hclock he)).ended rfl fun _ => ?_
      rcases hend with hdone | hover
      · exact Or.inl (h.seen hdone)
      · exact Or.inr ((h.deadline d (by simp [Search.deadline, hstage])).trans hover)
  | @repeats now d wakesAt he hstage hdone hnow =>
      subst he
      have hd : d ∈ s.deadline := by simp [Search.deadline, hstage]
      have hfound : s.hasFound = false := by
        rw [Bool.eq_false_iff]
        intro hfound
        exact absurd (hdone.symm.trans (h.aware d hd hfound)) (by simp)
      refine h.loopHead (hclock rfl) hfound (h.deadline d hd) ?_ ?_ ?_
      · exact fun t ht => ⟨h.first d hd t ht, hnow⟩
      · exact fun hrequest hnone => absurd hnone (h.asks d hd hrequest)
      · intro hwaited t ht
        have hwakes : wakesAt ≤ now := by
          simpa [Network.mayWake, hs, hstage, hdone] using (hlast hwaited).wakes i now rfl
        rcases h.patient d wakesAt hstage with hle | hgap
        · exact absurd hnow (not_lt.mpr (hle.trans hwakes))
        · exact (hgap t ht).trans hwakes
  | raises hactive =>
      exact (h.later hordered.le).ended rfl fun hstage => absurd hstage (by simp)

/-- A search that was just called has asked for nothing, and its time begins now. -/
theorem Sound.called (arguments : Arguments) (k : Nat) (own : Bool) (found : Devices) (now : ℚ) :
    (arguments.search k own found now).Sound waitsLast now where
  began := le_rfl
  seen := fun hdone => absurd hdone (by simp [Arguments.search])
  aware := fun _ hd => absurd hd (by simp [Arguments.search, Search.deadline])
  returned := fun hstage => absurd hstage (by simp [Arguments.search])
  deadline := fun _ hd => absurd hd (by simp [Arguments.search, Search.deadline])
  first := fun _ hd => absurd hd (by simp [Arguments.search, Search.deadline])
  fresh := fun _ _ _ => rfl
  silent := fun _ => rfl
  asks := fun _ hd => absurd hd (by simp [Arguments.search, Search.deadline])
  asked := fun _ ht => absurd ht (by simp [Arguments.search])
  patient := fun _ _ hstage => absurd hstage (by simp [Arguments.search])
  spaced := fun _ => List.isChain_nil
  limited := fun _ ht => absurd ht (by simp [Arguments.search])

/-- Hearing of a device by several callbacks. -/
theorem Sound.hears {s : Search} {clock : ℚ} (h : s.Sound waitsLast clock)
    (device : DiscoveredDevice) (n : Nat) : ((Search.hear device)^[n] s).Sound waitsLast clock := by
  induction n with
  | zero => exact h
  | succ n ih =>
      rw [Function.iterate_succ_apply']
      exact ih.hear device

end Search

/-- Every search is sound. -/
def Network.Sound (waitsLast : Prop) (w : Network) : Prop :=
  ∀ (i : Nat) (s : Search), w.searches[i]? = some s → s.Sound waitsLast w.clock

/-- **Every step** keeps the searches sound. -/
theorem Network.Sound.step {lib : Library} {waitsLast : Prop} {w w' : Network} {e : Event}
    (hw : w.Sound waitsLast) (hordered : Ordered w e) (hlast : waitsLast → Timely w e)
    (h : w.step lib e = some w') : w'.Sound waitsLast := by
  obtain ⟨v, hv, rfl⟩ := Option.map_eq_some_iff.mp h
  intro i s' hs'
  rcases Network.search_turns (Network.happen_does hv) hs' with
    ⟨-, arguments, k, own, now, he, hstarts, -⟩ | ⟨s, hs, ⟨device, n, rfl⟩ | hturns⟩
  · change s'.Sound waitsLast (e.time.getD w.clock)
    rw [he]
    exact (Search.Sound.called arguments k own _ now).starts rfl hstarts
  · exact ((hw i s hs).later hordered.le).hears device n
  · exact (hw i s hs).turns hs hordered hlast hturns

/-! ## Whose callbacks and sockets there are -/

namespace Network

/-- Search `i` has not ended and uses listener `k`. -/
def uses (w : Network) (i k : Nat) : Bool :=
  w.searches[i]?.any fun s => s.active && s.listener == k

/-- A listener has one callback of each search that uses it, and such a search has found what its
listener knows.  The listener that a search created has no other callback, and once the search has
ended it is stopped. -/
structure Registered (w : Network) : Prop where
  listener : ∀ (i : Nat) (s : Search), w.searches[i]? = some s →
    ∃ l, w.listeners[s.listener]? = some l
  callbacks : ∀ (k : Nat) (l : Listener), w.listeners[k]? = some l →
    ∀ i, l.callbacks.count (.search i) = (w.uses i k).toNat
  heard : ∀ (i : Nat) (s : Search) (l : Listener), w.searches[i]? = some s → s.active = true →
    w.listeners[s.listener]? = some l → s.found = l.devices
  owner : ∀ (k : Nat) (l : Listener) (i : Nat), w.listeners[k]? = some l → l.owner = some i →
    ∃ s, w.searches[i]? = some s ∧ s.listener = k
  own : ∀ (i : Nat) (s : Search) (l : Listener), w.searches[i]? = some s →
    w.listeners[s.listener]? = some l → (s.own = true ↔ l.owner = some i)
  alone : ∀ (k : Nat) (l : Listener) (i : Nat), w.listeners[k]? = some l → l.owner = some i →
    ∀ c ∈ l.callbacks, c = .search i
  stopped : ∀ (i : Nat) (s : Search) (l : Listener), w.searches[i]? = some s →
    s.active = false → w.listeners[s.listener]? = some l → l.owner = some i → l.transports = []

/-- A plain change of a listener keeps the registrations, where its callbacks stay or no search
owns it, and the search that owns it goes on. -/
theorem Registered.setListener {w : Network} (h : w.Registered) {k : Nat} {l l' : Listener}
    (hl : w.listeners[k]? = some l) (hplain : Plain l l')
    (halone : l'.callbacks = l.callbacks ∨ l.owner = none)
    (hstopped : ∀ i, l.owner = some i → w.uses i k = true) :
    Registered { w with listeners := w.listeners.set k l' } := by
  have hlt : k < w.listeners.length := (List.getElem?_eq_some_iff.mp hl).1
  obtain ⟨h1, h2, h3, h4, h5, h6, h7⟩ := h
  obtain ⟨p1, p2, p3⟩ := hplain
  constructor <;> grind [uses]

/-- So does an active search that goes on with its listener and its results. -/
theorem Registered.setSearch {w : Network} (h : w.Registered) {i : Nat} {s s' : Search}
    (hs : w.searches[i]? = some s) (hactive : s.active = true) (hactive' : s'.active = true)
    (hlistener : s'.listener = s.listener) (hown : s'.own = s.own) (hfound : s'.found = s.found) :
    Registered { w with searches := w.searches.set i s' } := by
  obtain ⟨h1, h2, h3, h4, h5, h6, h7⟩ := h
  constructor <;> grind [uses]

/-- A search that ends takes its callback with it, and what it created it stops.  The other
searches of a shared listener keep theirs. -/
theorem Registered.finish {w : Network} (h : w.Registered) {i : Nat} {s : Search} {stage : Stage}
    (hs : w.searches[i]? = some s) (hactive : s.active = true)
    (hended : Search.active { s with stage } = false) : (w.finish i s stage).Registered := by
  have hlt : i < w.searches.length := (List.getElem?_eq_some_iff.mp hs).1
  have hcount : ∀ l : Listener, w.listeners[s.listener]? = some l → ∀ j,
      (l.callbacks.erase (.search i)).count (.search j) =
        if j = i then 0 else l.callbacks.count (.search j) := by
    intro l hl j
    by_cases hj : j = i
    · subst hj
      rw [List.count_erase_self, h.callbacks _ l hl]
      simp [uses, hs, hactive]
    · rw [List.count_erase_of_ne (by simpa using hj), if_neg hj]
  have halone : ∀ l : Listener, w.listeners[s.listener]? = some l → ∀ c,
      c ∈ l.callbacks.erase (.search i) → c ∈ l.callbacks :=
    fun l _ c hc => List.mem_of_mem_erase hc
  obtain ⟨h1, h2, h3, h4, h5, h6, h7⟩ := h
  unfold Network.finish
  constructor <;> grind [uses]

/-- A new listener without callbacks and owner is used by no search. -/
theorem Registered.listen {w : Network} (h : w.Registered) {l : Listener}
    (hl : l.owner = none) (hcallbacks : l.callbacks = []) :
    Registered { w with listeners := w.listeners ++ [l] } := by
  obtain ⟨h1, h2, h3, h4, h5, h6, h7⟩ := h
  constructor <;> grind [uses]

/-- The element behind a list is the one appended. -/
theorem getElem?_concat {α : Type} (xs : List α) (x : α) (i : Nat) :
    (xs ++ [x])[i]? = if i = xs.length then some x else xs[i]? := by
  rcases Nat.lt_trichotomy i xs.length with hlt | rfl | hgt
  · rw [List.getElem?_append_left hlt, if_neg (by omega)]
  · simp
  · rw [List.getElem?_eq_none (by simp; omega), if_neg (by omega), List.getElem?_eq_none (by omega)]

/-- Before a search begins no listener has a callback of it. -/
theorem Registered.unheard {w : Network} (h : w.Registered) {k : Nat} {l : Listener}
    (hl : w.listeners[k]? = some l) : l.callbacks.count (.search w.searches.length) = 0 := by
  rw [h.callbacks k l hl]
  simp [uses]

/-- A search that joins a listener has exactly one callback there, and starts with what that
listener has heard. -/
theorem Registered.join {w : Network} (h : w.Registered) {k : Nat} {l : Listener} {s : Search}
    (hl : w.listeners[k]? = some l) (howner : l.owner = none) (hactive : s.active = true)
    (hlistener : s.listener = k) (hown : s.own = false) (hfound : s.found = l.devices) :
    (w.join l k s).Registered := by
  have hlt : k < w.listeners.length := (List.getElem?_eq_some_iff.mp hl).1
  have hnone := h.unheard hl
  have hsearches := getElem?_concat w.searches s
  obtain ⟨h1, h2, h3, h4, h5, h6, h7⟩ := h
  unfold Network.join
  generalize w.searches ++ [s] = ss at *
  constructor <;> grind [uses]

/-- A search that creates its listener has exactly one callback there, and starts with nothing.
Nobody else has had a callback at a listener that did not exist. -/
theorem Registered.joinOwn {w : Network} (h : w.Registered) {s : Search}
    (hactive : s.active = true) (hlistener : s.listener = w.listeners.length)
    (hown : s.own = true) (hfound : s.found = ∅) :
    Registered
      { w with
        listeners := w.listeners ++
          [{ owner := some w.searches.length, callbacks := [.search w.searches.length] }]
        searches := w.searches ++ [s] } := by
  have hnone := fun k l hl => h.unheard (k := k) (l := l) hl
  have hsearches := getElem?_concat w.searches s
  have hlisteners := getElem?_concat w.listeners
    { owner := some w.searches.length, callbacks := [.search w.searches.length] }
  have hmine := hlisteners s.listener
  rw [if_pos hlistener] at hmine
  obtain ⟨h1, h2, h3, h4, h5, h6, h7⟩ := h
  generalize w.searches ++ [s] = ss at *
  generalize w.listeners ++ _ = ls at *
  constructor <;> grind [uses]

/-- Announcing a device to the callbacks of a listener reaches every search that uses it, and no
other: so the announcements of the listener stay those that the searches know. -/
theorem Registered.handle {w : Network} (h : w.Registered) (k : Nat) (device : DiscoveredDevice) :
    (w.handle k device).Registered := by
  cases hl : w.listeners[k]? with
  | none => simpa [Network.handle, hl] using h
  | some l =>
      have hlt : k < w.listeners.length := (List.getElem?_eq_some_iff.mp hl).1
      have htold : ∀ i, (l.callbacks.foldl (tell device) w.searches)[i]? =
          w.searches[i]?.map fun s => if w.uses i k then s.hear device else s := by
        intro i
        rw [getElem?_tell, h.callbacks k l hl]
        cases w.uses i k <;> simp
      rw [Network.handle, hl]
      obtain ⟨h1, h2, h3, h4, h5, h6, h7⟩ := h
      constructor <;> grind [uses, Search.hear, Search.active]

/-- At the head of its loop a search is active. -/
theorem active_loopHead (now deadline : ℚ) (s : Search) :
    (s.loopHead now deadline).active = true := by
  unfold Search.loopHead
  split <;> rfl

/-- A search that goes round its loop keeps the registrations. -/
theorem Registered.loops {w : Network} (h : w.Registered) {i : Nat} {s : Search}
    (hs : w.searches[i]? = some s) (hactive : s.active = true) (now deadline : ℚ) :
    Registered { w with searches := w.searches.set i (s.loopHead now deadline) } :=
  h.setSearch hs hactive (active_loopHead ..) (s.listener_loopHead ..) (s.own_loopHead ..)
    (s.found_loopHead ..)

/-- A search that enters its loop, or returns because its device is known already, keeps the
registrations. -/
theorem Registered.enter {w : Network} (h : w.Registered) {i : Nat} {s : Search}
    (hs : w.searches[i]? = some s) (hactive : s.active = true) (now : ℚ) :
    (w.enter i now s).Registered := by
  unfold Network.enter
  split
  · exact h.finish hs hactive rfl
  · exact h.loops hs hactive now _

/-- So does one that binds its remaining ports. -/
theorem Registered.startRest {w : Network} (h : w.Registered) {i : Nat} {s : Search}
    (hs : w.searches[i]? = some s) (hactive : s.active = true) (binds : Nat → Bool)
    (ports : List Nat) (now : ℚ) : (w.startRest i binds ports now s).Registered := by
  unfold Network.startRest
  split
  · exact h.setSearch hs hactive rfl rfl rfl rfl
  · exact h.enter hs hactive now

/-- `async_discover` registers its search, with the listener that it was given or a new one.  In
both cases before its first await, so no announcement is missed. -/
theorem Registered.discover {w w' : Network} (h : w.Registered) {arguments : Arguments}
    {ports : List Nat} {binds : Nat → Bool} {now : ℚ}
    (hdiscover : w.discover arguments ports binds now = some w') : w'.Registered := by
  unfold Network.discover at hdiscover
  split at hdiscover
  · obtain rfl := Option.some.inj hdiscover
    have hjoined : Registered (Network.join { owner := some w.searches.length } w.listeners.length
        (arguments.search w.listeners.length true ∅ now)
        { w with listeners := w.listeners ++ [{ owner := some w.searches.length }] }) := by
      simpa [Network.join] using
        h.joinOwn (s := arguments.search w.listeners.length true ∅ now) rfl rfl rfl rfl
    exact hjoined.startRest (by simp [Network.join]) rfl binds ports now
  · rename_i k _
    split at hdiscover
    · exact absurd hdiscover (by simp)
    · rename_i l hl
      split at hdiscover
      · exact absurd hdiscover (by simp)
      · rename_i howner
        obtain rfl := Option.some.inj hdiscover
        have hjoined := h.join hl (by simpa using howner)
          (s := arguments.search k false l.devices now) rfl rfl rfl rfl
        exact hjoined.enter (by simp [Network.join]) rfl now

/-- **Every step** leaves the callbacks and the sockets in order: one callback of each search that
goes on, and none of one that ended, however it did. -/
theorem Registered.step {lib : Library} {w w' : Network} {e : Event} (hw : w.Registered)
    (h : w.step lib e = some w') : w'.Registered := by
  obtain ⟨v, hv, rfl⟩ := Option.map_eq_some_iff.mp h
  suffices hvr : v.Registered from
    ⟨hvr.listener, hvr.callbacks, hvr.heard, hvr.owner, hvr.own, hvr.alone, hvr.stopped⟩
  cases happen_does hv with
  | listens => exact hw.listen rfl rfl
  | changes he _ hl howner hplain =>
      exact hw.setListener hl hplain (Or.inr howner) fun i hi =>
        absurd (howner.symm.trans hi) (by simp)
  | @hears k data source l hl =>
      cases parseBroadcast lib data source with
      | none => exact hw
      | some device => exact hw.handle k device
  | discovers hdiscover => exact hw.discover hdiscover
  | @binds i binds now s port rest hs hstage =>
      have hactive : s.active = true := by simp [Search.active, hstage]
      obtain ⟨l, hl⟩ := hw.listener i s hs
      have hopened : w.listeners.modify s.listener (fun l =>
          { l with transports := l.transports ++ [port] }) =
            w.listeners.set s.listener { l with transports := l.transports ++ [port] } := by
        rw [List.modify_eq_set_getElem?, hl]
        rfl
      rw [hopened]
      have hplain : Plain l { l with transports := l.transports ++ [port] } :=
        ⟨rfl, rfl, fun _ => rfl⟩
      have hset := hw.setListener hl hplain (Or.inl rfl) ?_
      · exact hset.startRest hs hactive binds rest now
      · -- its only callback is that of the search that created it, and it is this search's
        intro j hj
        have huses : w.uses i s.listener = true := by simp [uses, hs, hactive]
        have hmem : Callback.search i ∈ l.callbacks := by
          rw [← List.count_pos_iff, hw.callbacks _ l hl, huses]
          exact Nat.one_pos
        obtain rfl : i = j := by simpa using hw.alone _ l j hl hj _ hmem
        exact huses
  | requests hs hstage =>
      exact hw.setSearch hs (by simp [Search.active, hstage]) rfl rfl rfl rfl
  | @wakes i now deadline wakesAt s hs hstage =>
      have hactive : s.active = true := by simp [Search.active, hstage]
      unfold Network.woken
      split
      · exact hw.finish hs hactive rfl
      · exact hw.loops hs hactive now deadline
  | raises hs hactive => exact hw.finish hs hactive rfl

/-- Only the listeners that searches created are started by searches. -/
def Starting (w : Network) : Prop :=
  ∀ (i : Nat) (s : Search), w.searches[i]? = some s →
    ∀ port rest, s.stage = .starting port rest → s.own = true

/-- A search binds ports only for the listener that it created, in every step.  A listener that is
given has been started by its owner. -/
theorem Starting.step {lib : Library} {w w' : Network} {e : Event} (hw : w.Starting)
    (h : w.step lib e = some w') : w'.Starting := by
  obtain ⟨v, hv, rfl⟩ := Option.map_eq_some_iff.mp h
  intro i s' hs' port rest hstage
  rcases search_turns (happen_does hv) hs' with
    ⟨-, arguments, k, own, now, -, hstarts, hentered⟩ | ⟨s, hs, ⟨device, n, rfl⟩ | hturns⟩
  · rw [hstarts.same.2.1]
    cases hown : own with
    | true => rfl
    | false => exact absurd hstage (hentered hown port rest)
  · obtain ⟨found, done, hsame⟩ := s.hears_same device n
    rw [hsame] at hstage ⊢
    exact hw i s hs port rest hstage
  · cases hturns with
    | starts _ hstage' hstarts =>
        rw [hstarts.same.2.1]
        exact hw i s hs _ _ hstage'
    | waits => exact absurd hstage (by simp [Search.wait])
    | returns => exact absurd hstage (by simp)
    | @repeats now deadline =>
        rcases s.stage_loopHead now deadline with hloop | ⟨wakesAt, hloop⟩
        · exact absurd (hloop.symm.trans hstage) (by simp)
        · exact absurd (hloop.symm.trans hstage) (by simp)
    | raises => exact absurd hstage (by simp)

/-- No listeners and no searches. -/
def start (clock : ℚ) : Network := { clock }

/-- In every run the callbacks are those of the searches that go on. -/
theorem Registered.run {lib : Library} {ok : Network → Event → Prop} {w : Network} {clock : ℚ}
    {es : List Event} (hrun : Run (Network.step lib) ok (start clock) es w) : w.Registered := by
  refine hrun.invariant Registered (fun _ _ _ hw _ h => hw.step h) ?_
  constructor <;> intros <;> simp_all [start]

/-- Sockets, announcements and callbacks of others are as they were. -/
structure Undisturbed (l l' : Listener) : Prop where
  transports : l'.transports = l.transports
  devices : l'.devices = l.devices
  others : l'.callbacks.count .other = l.callbacks.count .other

/-- A listener that stays as it is is not disturbed. -/
theorem Undisturbed.rfl {l : Listener} : Undisturbed l l := ⟨Eq.refl _, Eq.refl _, Eq.refl _⟩

/-- A search that ends disturbs no listener but its own. -/
theorem undisturbed_finish {w : Network} {i k : Nat} {s : Search} {l : Listener} {stage : Stage}
    (hl : w.listeners[k]? = some l) (hown : s.own = true → s.listener ≠ k) :
    ∃ l', (w.finish i s stage).listeners[k]? = some l' ∧ Undisturbed l l' := by
  rw [Network.finish, List.getElem?_modify, hl]
  by_cases hk : s.listener = k
  · have hgiven : s.own = false := by
      rw [Bool.eq_false_iff]
      exact fun h => hown h hk
    refine ⟨_, Option.map_some .., ?_, ?_, ?_⟩
    · simp [hk, hgiven]
    · simp [hk]
    · rw [if_pos hk]
      exact List.count_erase_of_ne (by simp)
  · exact ⟨l, by simp [hk], .rfl⟩

/-- A search that enters its loop disturbs no listener but its own. -/
theorem undisturbed_enter {w : Network} {i k : Nat} {s : Search} {l : Listener} {now : ℚ}
    (hl : w.listeners[k]? = some l) (hown : s.own = true → s.listener ≠ k) :
    ∃ l', (w.enter i now s).listeners[k]? = some l' ∧ Undisturbed l l' := by
  unfold Network.enter
  split
  · exact undisturbed_finish hl hown
  · exact ⟨l, hl, .rfl⟩

/-- A search that binds its remaining ports disturbs no listener but its own. -/
theorem undisturbed_startRest {w : Network} {i k : Nat} {s : Search} {l : Listener} {now : ℚ}
    {binds : Nat → Bool} {ports : List Nat} (hl : w.listeners[k]? = some l)
    (hown : s.own = true → s.listener ≠ k) :
    ∃ l', (w.startRest i binds ports now s).listeners[k]? = some l' ∧ Undisturbed l l' := by
  unfold Network.startRest
  split
  · exact ⟨l, hl, .rfl⟩
  · exact undisturbed_enter hl hown

/-- A search that begins disturbs no listener that was there: it adds a callback, and its own
listener is a new one. -/
theorem undisturbed_discover {w w' : Network} {k : Nat} {l : Listener} {arguments : Arguments}
    {ports : List Nat} {binds : Nat → Bool} {now : ℚ} (hl : w.listeners[k]? = some l)
    (h : w.discover arguments ports binds now = some w') :
    ∃ l', w'.listeners[k]? = some l' ∧ Undisturbed l l' := by
  have hlt : k < w.listeners.length := (List.getElem?_eq_some_iff.mp hl).1
  unfold Network.discover at h
  split at h
  · obtain rfl := Option.some.inj h
    refine undisturbed_startRest ?_ fun _ => Nat.ne_of_gt hlt
    simp [Network.join, List.getElem?_append_left hlt, hl]
  · rename_i k' _
    split at h
    · exact absurd h (by simp)
    · rename_i l₀ hl₀
      split at h
      · exact absurd h (by simp)
      · obtain rfl := Option.some.inj h
        by_cases hk : k' = k
        · subst hk
          obtain rfl := Option.some.inj (hl₀.symm.trans hl)
          have hjoined : (w.join l₀ k' (arguments.search k' false l₀.devices now)).listeners[k']? =
              some { l₀ with callbacks := l₀.callbacks ++ [.search w.searches.length] } := by
            simp [Network.join, hlt]
          obtain ⟨l', hl', hsame⟩ := @undisturbed_enter _ w.searches.length k'
            (arguments.search k' false l₀.devices now) _ now hjoined (by simp [Arguments.search])
          refine ⟨l', hl', hsame.transports, hsame.devices, hsame.others.trans ?_⟩
          simp
        · refine undisturbed_enter ?_ (by simp [Arguments.search])
          rw [Network.join, List.getElem?_set_ne hk, hl]

/-- **A search leaves the listeners of others alone**: their sockets, their announcements and their
other callbacks. -/
theorem Registered.undisturbed {lib : Library} {w w' : Network} {e : Event} {k : Nat}
    {l : Listener} (hw : w.Registered) (hstarting : w.Starting) (hsearch : e.isSearch = true)
    (h : w.step lib e = some w') (hl : w.listeners[k]? = some l) (howner : l.owner = none) :
    ∃ l', w'.listeners[k]? = some l' ∧ Undisturbed l l' := by
  obtain ⟨v, hv, rfl⟩ := Option.map_eq_some_iff.mp h
  have hother {i : Nat} {s : Search} (hs : w.searches[i]? = some s) (hown : s.own = true) :
      s.listener ≠ k := by
    rintro rfl
    exact absurd (howner.symm.trans ((hw.own i s l hs hl).mp hown)) (by simp)
  show ∃ l', v.listeners[k]? = some l' ∧ Undisturbed l l'
  cases happen_does hv with
  | listens => exact absurd hsearch (by simp [Event.isSearch])
  | changes _ hnone => exact absurd (hnone.symm.trans hsearch) (by simp)
  | hears => exact absurd hsearch (by simp [Event.isSearch])
  | discovers hdiscover => exact undisturbed_discover hl hdiscover
  | @binds i binds now s port rest hs hstage =>
      have hne := hother hs (hstarting i s hs port rest hstage)
      refine undisturbed_startRest ?_ fun _ => hne
      simp [hne, hl]
  | requests hs hstage => exact ⟨l, hl, .rfl⟩
  | @wakes i now deadline wakesAt s hs hstage =>
      unfold Network.woken
      split
      · exact undisturbed_finish hl (hother hs)
      · exact ⟨l, hl, .rfl⟩
  | raises hs hactive => exact undisturbed_finish hl (hother hs)

end Network

/-! ## What a search returns -/

namespace Network

/-- In every run, and with requests apart where waits last. -/
theorem Sound.run {lib : Library} {waitsLast : Prop} {meets : Network → Event → Prop} {w : Network}
    {clock : ℚ} {es : List Event} (hordered : ∀ v e, meets v e → Ordered v e)
    (hlast : waitsLast → ∀ v e, meets v e → Timely v e)
    (hrun : Run (Network.step lib) meets (start clock) es w) : w.Sound waitsLast :=
  hrun.invariant (Network.Sound waitsLast)
    (fun v e _ hw hmeets h =>
      hw.step (hordered v e hmeets) (fun hwaited => hlast hwaited v e hmeets) h)
    fun _ _ hs => absurd hs (by simp [start])

/-- In every run a search binds ports only for its own listener. -/
theorem Starting.run {lib : Library} {ok : Network → Event → Prop} {w : Network} {clock : ℚ}
    {es : List Event} (hrun : Run (Network.step lib) ok (start clock) es w) : w.Starting :=
  hrun.invariant Starting (fun _ _ _ hw _ h => hw.step h) fun _ _ hs => absurd hs (by simp [start])

/-- What the listeners are told of is named.  `parse_broadcast` returns no device without an ID,
and a datagram has a source. -/
theorem named_run {lib : Library} {w w' : Network} {es : List Event}
    (hrun : Run (Network.step lib) Ordered w es w') (k : Nat) :
    ∀ device ∈ es.filterMap (Event.announcement lib k), Named device := by
  induction hrun with
  | nil => simp
  | @cons w u w' e es hok hstep _ ih =>
      intro device hdevice
      rw [List.filterMap_cons] at hdevice
      cases hannounced : e.announcement lib k with
      | none =>
          rw [hannounced] at hdevice
          exact ih device hdevice
      | some first =>
          rw [hannounced] at hdevice
          rcases List.mem_cons.mp hdevice with rfl | hrest
          · cases e with
            | datagram k' data source =>
                simp only [Event.announcement] at hannounced
                split at hannounced
                · exact parseBroadcast_named (hok.source k' data source rfl) hannounced
                · exact absurd hannounced (by simp)
            | _ => exact absurd hannounced (by simp [Event.announcement])
          · exact ih device hrest

/-- A search that ends has found what its listener knows: it has been told of every announcement
since it began, and began with those before. -/
theorem found_returned {lib : Library} {w w' : Network} {e : Event} {i : Nat} {s' : Search}
    (hw : w.Registered) (h : w.happen lib e = some w')
    (hbefore : ∀ s, w.searches[i]? = some s → s.active = true)
    (hs' : w'.searches[i]? = some s') (hreturned : s'.stage = .returned) :
    s'.found = w'.devicesOf s'.listener := by
  have hquiet {now : ℚ} (he : e.time = some now) (k : Nat) : w'.devicesOf k = w.devicesOf k := by
    rw [devicesOf_happen h k]
    cases e with
    | datagram => exact absurd he (by simp [Event.time])
    | _ => rfl
  rcases search_turns (happen_does h) hs' with
    ⟨-, arguments, k, own, now, he, hstarts, -⟩ | ⟨s, hs, ⟨device, n, rfl⟩ | hturns⟩
  · obtain ⟨hlistener, -, hfound⟩ := hstarts.same
    rw [hfound, hlistener, hquiet he]
    rfl
  · obtain ⟨found, done, hsame⟩ := s.hears_same device n
    rw [hsame] at hreturned
    have hactive := hbefore s hs
    rw [Search.active, show s.stage = .returned from hreturned] at hactive
    exact absurd hactive (by simp)
  · have hknown : s.found = w.devicesOf s.listener := by
      obtain ⟨l, hl⟩ := hw.listener i s hs
      rw [hw.heard i s l hs (hbefore s hs) hl]
      simp [devicesOf, hl]
    cases hturns with
    | starts he _ hstarts =>
        obtain ⟨hlistener, -, hfound⟩ := hstarts.same
        rw [hfound, hlistener, hquiet he, hknown]
    | waits => exact absurd hreturned (by simp [Search.wait])
    | returns he => exact hknown.trans (hquiet he _).symm
    | @repeats now deadline =>
        rcases s.stage_loopHead now deadline with hloop | ⟨wakesAt, hloop⟩
        · exact absurd (hloop.symm.trans hreturned) (by simp)
        · exact absurd (hloop.symm.trans hreturned) (by simp)
    | raises => exact absurd hreturned (by simp)

end Network

/-- **What `async_discover` returns.**  In every run in which the clock does not go back and
datagrams come from an address, whatever other searches, listeners and callbacks do: what a search
returns is the latest announcement of each device among all that its listener ever got, each under
its own id and with an address; and it returns only when its device is among them or `seconds` have
passed since it was called. -/
theorem search_result {lib : Library} {clock : ℚ} {es : List Event} {e : Event} {w w' : Network}
    {i : Nat} {s : Search} (hrun : Run (Network.step lib) Ordered (Network.start clock) es w)
    (hordered : Ordered w e) (hstep : w.step lib e = some w')
    (hbefore : ∀ s, w.searches[i]? = some s → s.active = true)
    (hs : w'.searches[i]? = some s) (hreturned : s.stage = .returned) :
    (∀ deviceId, s.found.lookup deviceId =
      latest ((es ++ [e]).filterMap (Event.announcement lib s.listener)) deviceId) ∧
    (∀ deviceId device, s.found.lookup deviceId = some device →
      device.deviceId = deviceId ∧ Named device) ∧
    ((∃ deviceId, s.deviceId = some deviceId ∧ deviceId ∈ s.found) ∨
      s.began + s.seconds ≤ w'.clock) := by
  have hrun' : Run (Network.step lib) Ordered (Network.start clock) (es ++ [e]) w' :=
    hrun.concat hordered hstep
  have hsound : w'.Sound False := Network.Sound.run (fun _ _ h => h) (fun h => h.elim) hrun'
  have hknown : s.found = w'.devicesOf s.listener := by
    obtain ⟨v, hv, rfl⟩ := Option.map_eq_some_iff.mp hstep
    exact @Network.found_returned _ _ v _ _ _ (Network.Registered.run hrun) hv hbefore hs hreturned
  have hlookup : ∀ deviceId, s.found.lookup deviceId =
      latest ((es ++ [e]).filterMap (Event.announcement lib s.listener)) deviceId := by
    intro deviceId
    rw [hknown, Network.devicesOf_run hrun' s.listener]
    exact lookup_insert_all _ deviceId
  refine ⟨hlookup, ?_, ?_⟩
  · intro deviceId device hdevice
    rw [hlookup] at hdevice
    have hid := List.find?_some hdevice
    have hmem := List.mem_reverse.mp (List.mem_of_find?_eq_some hdevice)
    exact ⟨by simpa using hid, Network.named_run hrun' s.listener device hmem⟩
  · refine (hsound i s hs).returned hreturned |>.imp_left fun hfound => ?_
    obtain ⟨deviceId, hid, hmem⟩ := Option.any_eq_true .. |>.mp hfound
    exact ⟨deviceId, hid, by simpa using hmem⟩

/-- A datagram of one byte announces the device `d`. -/
def exampleLibrary : Library where
  decrypt data := if data = [1] then some (.obj [(py "gwId", .str (py "d"))]) else none
  text _ := []

/-- A search for `d` with a listener of its own sends two requests and hears of it. -/
def exampleSearch : List Event :=
  [.discover ⟨none, some (py "d"), 10, true⟩ [6666, 6667] (fun _ => true) 0,
    .bound 0 (fun _ => true) 0, .bound 0 (fun _ => true) 0, .requested 0 1, .woken 0 7,
    .requested 0 8, .datagram 0 [1] (py "10.0.0.9")]

/-- The search is woken by the announcement of its device and returns it, nine seconds after it was
called. -/
theorem search_result_heard :
    ∃ s : Search, s.found.entries.length = 1 ∧
      (∀ deviceId, s.found.lookup deviceId =
        latest ((exampleSearch ++ [Event.woken 0 9]).filterMap
          (Event.announcement exampleLibrary s.listener)) deviceId) ∧
      (∀ deviceId device, s.found.lookup deviceId = some device →
        device.deviceId = deviceId ∧ Named device) ∧
      ((∃ deviceId, s.deviceId = some deviceId ∧ deviceId ∈ s.found) ∨
        s.began + s.seconds ≤ 9) := by
  let execution := exec (Network.step exampleLibrary) (Network.start 0) exampleSearch
  obtain ⟨w, hw⟩ := Option.isSome_iff_exists.mp (show execution.isSome = true by decide +kernel)
  have hfacts : ∀ w ∈ execution, Ordered w (.woken 0 9) ∧
      (∀ s ∈ w.searches[0]?, s.active = true) ∧
      ((w.step exampleLibrary (.woken 0 9)).any fun w' => w'.clock = 9 ∧
        (w'.searches[0]?.any fun s =>
          s.stage = .returned ∧ s.found.entries.length = 1)) = true := by
    decide +kernel
  obtain ⟨hordered, hbefore, hreturns⟩ := hfacts w hw
  obtain ⟨w', hstep, hreturns⟩ := Option.any_eq_true .. |>.mp hreturns
  obtain ⟨hclock, hreturns⟩ := of_decide_eq_true hreturns
  obtain ⟨s, hs, hreturns⟩ := Option.any_eq_true .. |>.mp hreturns
  obtain ⟨hreturned, hlength⟩ := of_decide_eq_true hreturns
  have hresult := search_result (Run.of_meets hw (by decide +kernel)) hordered hstep hbefore hs
    hreturned
  rw [hclock] at hresult
  exact ⟨s, hlength, hresult⟩

/-- **A search leaves nothing behind.**  In every run, whatever the searches, listeners and other
callbacks do: a listener has one callback of each search that uses it and none of a search that has
ended, returned or not; the listener that a search created for itself has no socket and no callback
once the search has ended; and what a search does leaves the sockets, the announcements and the
other callbacks of every listener that it was given as they were. -/
theorem searches_leave_nothing {lib : Library} {ok : Network → Event → Prop} {clock : ℚ}
    {es : List Event} {w : Network}
    (hrun : Run (Network.step lib) ok (Network.start clock) es w) :
    (∀ (k : Nat) (l : Listener), w.listeners[k]? = some l →
      ∀ i, l.callbacks.count (.search i) = (w.uses i k).toNat) ∧
    (∀ (i : Nat) (s : Search) (l : Listener), w.searches[i]? = some s → s.active = false →
      s.own = true → w.listeners[s.listener]? = some l → l.transports = [] ∧ l.callbacks = []) ∧
    (∀ (e : Event) (w' : Network) (k : Nat) (l : Listener), e.isSearch = true →
      w.step lib e = some w' → w.listeners[k]? = some l → l.owner = none →
      ∃ l', w'.listeners[k]? = some l' ∧ Network.Undisturbed l l') := by
  have hw := Network.Registered.run hrun
  refine ⟨hw.callbacks, ?_, ?_⟩
  · intro i s l hs hended hown hl
    have howner := (hw.own i s l hs hl).mp hown
    refine ⟨hw.stopped i s l hs hended hl howner, List.eq_nil_iff_forall_not_mem.mpr ?_⟩
    intro c hc
    obtain rfl := hw.alone s.listener l i hl howner c hc
    have hcount := hw.callbacks s.listener l hl i
    rw [show w.uses i s.listener = false by simp [Network.uses, hs, hended]] at hcount
    exact absurd hc (List.count_eq_zero.mp hcount)
  · intro e w' k l hsearch hstep hl howner
    exact hw.undisturbed (Network.Starting.run hrun) hsearch hstep hl howner

/-- A search of a listener that it created hears its device and returns: no callback and no socket
is left. -/
theorem searches_leave_nothing_returned :
    ∃ w : Network, (∀ s ∈ w.searches[0]?, s.stage = .returned) ∧
      (∀ (k : Nat) (l : Listener), w.listeners[k]? = some l →
        ∀ i, l.callbacks.count (.search i) = (w.uses i k).toNat) ∧
      (∀ (i : Nat) (s : Search) (l : Listener), w.searches[i]? = some s → s.active = false →
        s.own = true → w.listeners[s.listener]? = some l → l.transports = [] ∧ l.callbacks = []) ∧
      (∀ (e : Event) (w' : Network) (k : Nat) (l : Listener), e.isSearch = true →
        w.step exampleLibrary e = some w' → w.listeners[k]? = some l → l.owner = none →
        ∃ l', w'.listeners[k]? = some l' ∧ Network.Undisturbed l l') := by
  let execution := exec (Network.step exampleLibrary) (Network.start 0)
    (exampleSearch ++ [Event.woken 0 9])
  obtain ⟨w, hw⟩ := Option.isSome_iff_exists.mp (show execution.isSome = true by decide +kernel)
  have hfacts : ∀ w ∈ execution, ∀ s ∈ w.searches[0]?, s.stage = .returned := by decide +kernel
  exact ⟨w, hfacts w hw, searches_leave_nothing (Run.of_exec hw)⟩

/-- The last of some times that are `gap` apart. -/
theorem le_last_of_spaced {gap : ℚ} {t u : ℚ} {ts : List ℚ}
    (h : (t :: ts).IsChain fun a b => a + gap ≤ b) (hlast : (t :: ts).getLast? = some u) :
    t + gap * ts.length ≤ u := by
  induction ts generalizing t with
  | nil =>
      obtain rfl : t = u := by simpa using hlast
      simp
  | cons t' ts ih =>
      rw [List.isChain_cons_cons] at h
      have hrest := ih h.2 (by simpa using hlast)
      have hnext := h.1
      push_cast [List.length_cons]
      linarith

/-- **A search asks rarely.**  In every run in which the clock does not go back and waits last as
long as they are to: the requests of a search are `REQUEST_INTERVAL` apart, there are fewer than
`seconds / REQUEST_INTERVAL` after the first, and there is none once its device was found. -/
theorem requests_spaced {lib : Library} {clock : ℚ} {es : List Event} {w : Network} {i : Nat}
    {s : Search} (hrun : Run (Network.step lib) Timely (Network.start clock) es w)
    (hs : w.searches[i]? = some s) :
    (s.requests.IsChain fun t u => t + requestInterval ≤ u) ∧
    (∀ n, s.requests.length = n + 2 → requestInterval * (n + 1) < s.seconds) ∧
    (∀ (e : Event) (w' : Network) (s' : Search) (deviceId : PyStr), s.deviceId = some deviceId →
      deviceId ∈ s.found → Timely w e → w.step lib e = some w' → w'.searches[i]? = some s' →
      s'.requests = s.requests) := by
  have hall : w.Sound True :=
    Network.Sound.run (fun _ _ h => h.toOrdered) (fun _ _ _ h => h) hrun
  have hsound := hall i s hs
  have hspaced := hsound.spaced trivial
  refine ⟨hspaced, ?_, ?_⟩
  · intro n hlength
    obtain ⟨t, ts, hrequests⟩ := List.exists_cons_of_length_eq_add_one hlength
    have hts : ts.length = n + 1 := by simpa [hrequests] using hlength
    have hne : ts ≠ [] := by
      rintro rfl
      exact absurd hts (by simp)
    have hlast : (t :: ts).getLast? = some (ts.getLast hne) := by
      rw [List.getLast?_eq_some_getLast (by simp), List.getLast_cons hne]
    have hfirst := le_last_of_spaced (hrequests ▸ hspaced) hlast
    have hlimited := hsound.limited t (by simp [hrequests]) (ts.getLast hne)
      (by simp [hrequests])
    rw [hts] at hfirst
    push_cast at hfirst
    linarith
  · intro e w' s' deviceId hid hmem htimely hstep hs'
    have hfound : s.hasFound = true := by simp [Search.hasFound, hid, hmem]
    obtain ⟨v, hv, rfl⟩ := Option.map_eq_some_iff.mp hstep
    rcases Network.search_turns (Network.happen_does hv) hs' with
      ⟨hnone, -⟩ | ⟨s₀, hs₀, hdid⟩
    · exact absurd (hnone.symm.trans hs) (by simp)
    obtain rfl := Option.some.inj (hs₀.symm.trans hs)
    rcases hdid with ⟨device, n, rfl⟩ | hturns
    · obtain ⟨found, done, hsame⟩ := s₀.hears_same device n
      rw [hsame]
    · cases hturns with
      | starts _ _ hstarts =>
          cases hstarts with
          | binds => rfl
          | found => rfl
          | begins hnot => exact absurd (hnot.symm.trans hfound) (by simp)
      | waits => rfl
      | returns => rfl
      | @repeats now deadline wakesAt he hstage hdone =>
          have hd : deadline ∈ s₀.deadline := by simp [Search.deadline, hstage]
          exact absurd (hdone.symm.trans (hsound.aware deadline hd hfound)) (by simp)
      | raises => rfl

/-- A search asks at once and again after seven seconds. -/
theorem requests_spaced_twice :
    ∃ (w : Network) (s : Search), s.requests = [0, 7] ∧
      (s.requests.IsChain fun t u => t + requestInterval ≤ u) ∧
      (∀ n, s.requests.length = n + 2 → requestInterval * (n + 1) < s.seconds) ∧
      (∀ (e : Event) (w' : Network) (s' : Search) (deviceId : PyStr), s.deviceId = some deviceId →
        deviceId ∈ s.found → Timely w e → w.step exampleLibrary e = some w' →
        w'.searches[0]? = some s' → s'.requests = s.requests) := by
  let execution := exec (Network.step exampleLibrary) (Network.start 0) exampleSearch
  obtain ⟨w, hw⟩ := Option.isSome_iff_exists.mp (show execution.isSome = true by decide +kernel)
  have hfacts : ∀ w ∈ execution, (w.searches[0]?.any fun s => s.requests = [0, 7]) = true := by
    decide +kernel
  obtain ⟨s, hs, hrequests⟩ := Option.any_eq_true .. |>.mp (hfacts w hw)
  exact ⟨w, s, of_decide_eq_true hrequests,
    requests_spaced (Run.of_meets hw (by decide +kernel)) hs⟩

end Lan.Discovery
