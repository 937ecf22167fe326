import HaBirdie.LanDevice
import HaBirdie.StepRuns
import HaBirdie.JobTracking

/-!
# The LAN client as a transition system

A `LanDevice` has one background task (`_run`), any number of coroutine calls by its owner,
and one worker thread that runs the blocking jobs `_w_open`, `_w_drop`, `_w_status`,
`_w_heartbeat`, `_w_receive` and `_w_set` first in, first out.  Coroutines give up the event
loop only where they await a job, another task or a sleep, so each is a program counter
(`Loop`, `Call`) and a turn from one await to the next.  A job's result waits in `results`
until its coroutine takes it up.

The environment's choices sit in the actions: what the library answers (any value, or an
exception), when a sleep ends, which result is handled next, and what the owner requests.
Within one turn the clock is read once.

`_w_open` runs in several steps, because the owner may close the device or change its
settings while versions are tried; the other jobs are atomic, since only the worker writes
what they read.  The sockets that `_interrupt_socket` shuts down make the library fail,
which the arbitrary answers include.
-/

namespace Lan

open Python JobTracking

/-! ## Jobs and their results -/

/-- Who awaits a job; `nobody` after the awaiting coroutine was cancelled. -/
inductive Waiter
  | loop
  | call (i : Nat)
  | nobody
deriving DecidableEq

/-- The library calls made on an open connection. -/
inductive LibraryCall
  | status
  | heartbeat
  | receive
  | set (dps : PyDict)

/-- The jobs of the worker thread. -/
inductive Job
  | wOpen
  | wDrop
  | wCall (c : LibraryCall)

/-- What a job returns or raises. -/
inductive JobValue
  | opened (version : PyStr) (dps : PyDict)
  | dps (dps : PyDict)
  | received (dps : Option PyDict)
  | done
  | raised (r : Raised)

structure Result where
  waiter : Waiter
  job : Job
  value : JobValue

/-! ## Coroutines -/

/-- How a coroutine ends. -/
inductive Ending
  | returned (dps : Option PyDict)
  | raised (r : Raised)
  | cancelled

/-- Where `_run` stands; `backoff` is its local variable. -/
inductive Loop
  | notStarted
  | ready
  | opening (backoff : ℚ)
  | reading (backoff : ℚ)
  | beating (backoff : ℚ)
  | receiving (backoff : ℚ)
  | dropping (backoff : ℚ) (why : LostReason)
  | backingOff (backoff : ℚ)
  | pausing (backoff : ℚ)
  | ended (ending : Ending)

inductive Operation
  | connect
  | refresh
  | setDps
  | reconfigure
  | close
deriving DecidableEq

/-- Where a coroutine call of the owner stands. -/
inductive Call
  | connecting
  | refreshing
  | refreshLost (why : LostReason)
  | setting (dps : PyDict)
  | settingLost (why : LostReason)
  | reconfiguring
  | closing
  | closeDropping
  | closeShutdown
  | done (op : Operation) (ending : Ending)

/-- The job `_run` awaits. -/
def Loop.awaits : Loop → Option Job
  | .opening _ => some .wOpen
  | .reading _ => some (.wCall .status)
  | .beating _ => some (.wCall .heartbeat)
  | .receiving _ => some (.wCall .receive)
  | .dropping _ _ => some .wDrop
  | _ => none

/-- The job a call awaits. -/
def Call.awaits : Call → Option Job
  | .connecting => some .wOpen
  | .refreshing => some (.wCall .status)
  | .setting dps => some (.wCall (.set dps))
  | .refreshLost _ | .settingLost _ | .reconfiguring | .closeDropping => some .wDrop
  | _ => none

def Call.op : Call → Operation
  | .connecting => .connect
  | .refreshing | .refreshLost _ => .refresh
  | .setting _ | .settingLost _ => .setDps
  | .reconfiguring => .reconfigure
  | .closing | .closeDropping | .closeShutdown => .close
  | .done op _ => op

/-- What a coroutine leaves at its next await. -/
structure Turn (γ pc : Type) where
  dev : Device
  client : γ
  pc : pc

variable {γ : Type} (cb : Callbacks γ)

/-- Go on after report handling, unless a callback raised. -/
def Handled.turn {pc : Type} (h : Handled γ) (fail : PyException → pc)
    (k : Device → γ → Turn γ pc) : Turn γ pc :=
  match h.raised with
  | some e => ⟨h.dev, h.client, fail e⟩
  | none => k h.dev h.client

/-! ## The background task -/

/-- A foreign exception ends `_run`. -/
def Loop.died (e : PyException) : Loop := .ended (.raised (.foreign e))

/-- `_async_lost` up to its await. -/
def loopLost (backoff : ℚ) (why : LostReason) (dev : Device) (client : γ) : Turn γ Loop :=
  ⟨{ dev with lastError := some (.connectionLost why) }, client, .dropping backoff why⟩

/-- What `_run` does with an exception of `_step`. -/
def loopFailed (backoff : ℚ) (r : Raised) (dev : Device) (client : γ) : Turn γ Loop :=
  match r with
  | .lan (.connectionLost why) => loopLost backoff why dev client
  | r => ⟨dev, client, .ended (.raised r)⟩

/-- A full status is due. -/
def statusDue (now : ℚ) (dev : Device) : Bool :=
  decide (dev.timings.statusInterval ≤ now - dev.lastStatus) ||
    match dev.refreshAt with
    | some t => decide (t ≤ now)
    | none => false

/-- `_step` up to its first await. -/
def loopStep (now backoff : ℚ) (dev : Device) (client : γ) : Turn γ Loop :=
  if dev.timings.deadAfter < now - dev.lastRx then
    loopLost backoff .stoppedAnswering dev client
  else if statusDue now dev then
    ⟨{ dev with refreshAt := none }, client, .reading backoff⟩
  else if dev.timings.heartbeatInterval ≤ now - dev.lastHeartbeat then
    ⟨dev, client, .beating backoff⟩
  else ⟨dev, client, .receiving backoff⟩

/-- `_run` from the head of its loop. -/
def loopTop (now backoff : ℚ) (dev : Device) (client : γ) : Turn γ Loop :=
  if dev.closed then ⟨dev, client, .ended (.returned none)⟩
  else if dev.api.isNone then ⟨dev, client, .opening backoff⟩
  else loopStep now backoff dev client

/-- `_sleep` up to its await. -/
def loopSleep (pc : Loop) (dev : Device) (client : γ) : Turn γ Loop :=
  ⟨{ dev with wake := false }, client, pc⟩

/-- `_run` after its job returned or raised. -/
def loopResume (now : ℚ) (dev : Device) (client : γ) (pc : Loop) (value : JobValue) :
    Option (Turn γ Loop) :=
  match pc with
  | .opening backoff =>
      match value with
      | .opened version dps =>
          some <| (handleConnected cb now version dps dev client).turn .died
            (loopTop now dev.timings.reconnectMin)
      | .raised (.lan e) =>
          some <| (openFailed cb now e dev client).turn .died (loopSleep (.backingOff backoff))
      | .raised r => some ⟨dev, client, .ended (.raised r)⟩
      | _ => none
  | .reading backoff =>
      match value with
      | .dps dps => some <| (handleDps cb now dps true dev client).turn .died (loopTop now backoff)
      | .raised r => some (loopFailed backoff r dev client)
      | _ => none
  | .beating backoff =>
      match value with
      | .done => some ⟨dev, client, .receiving backoff⟩
      | .raised r => some (loopFailed backoff r dev client)
      | _ => none
  | .receiving backoff =>
      match value with
      | .received (some dps) =>
          -- an empty report is falsy
          if dps.entries.isEmpty then some (loopTop now backoff dev client)
          else some <| (handleDps cb now dps false dev client).turn .died (loopTop now backoff)
      | .received none => some (loopTop now backoff dev client)
      | .raised r => some (loopFailed backoff r dev client)
      | _ => none
  | .dropping backoff why =>
      match value with
      | .done =>
          some <| (setAvailable cb now false (some (.connectionLost why)) dev client).turn .died
            (loopSleep (.pausing backoff))
      | .raised r => some ⟨dev, client, .ended (.raised r)⟩
      | _ => none
  | _ => none

/-- `_run` after a sleep. -/
def loopWake (now : ℚ) (dev : Device) (client : γ) : Loop → Option (Turn γ Loop)
  | .backingOff backoff =>
      some (loopTop now (min (backoff * 2) dev.timings.reconnectMax) dev client)
  | .pausing backoff => some (loopTop now backoff dev client)
  | _ => none

/-! ## The owner's calls -/

/-- A foreign exception leaves the call. -/
def Call.died (op : Operation) (e : PyException) : Call := .done op (.raised (.foreign e))

/-- What `async_refresh` and `async_set_dps` do with an exception of their job. -/
def callFailed (op : Operation) (dropping : LostReason → Call) (r : Raised) (dev : Device)
    (client : γ) : Turn γ Call :=
  match r with
  | .lan (.connectionLost why) =>
      ⟨{ dev with lastError := some (.connectionLost why) }, client, dropping why⟩
  | r => ⟨dev, client, .done op (.raised r)⟩

/-- The rest of `async_refresh` and `async_set_dps` after `_async_lost` dropped the
connection. -/
def callLost (now : ℚ) (op : Operation) (why : LostReason) (dev : Device) (client : γ) :
    Turn γ Call :=
  (setAvailable cb now false (some (.connectionLost why)) dev client).turn (.died op)
    fun dev client => ⟨dev, client, .done op (.raised (.lan (.unreachable (.lost why))))⟩

/-- A call after its job returned or raised. -/
def callResume (now : ℚ) (dev : Device) (client : γ) (pc : Call) (value : JobValue) :
    Option (Turn γ Call) :=
  match pc with
  | .connecting =>
      match value with
      | .opened version dps =>
          some <| (handleConnected cb now version dps dev client).turn (.died .connect)
            fun dev client => ⟨dev, client, .done .connect (.returned (some dev.dps))⟩
      | .raised r => some ⟨dev, client, .done .connect (.raised r)⟩
      | _ => none
  | .refreshing =>
      match value with
      | .dps dps =>
          some <| (handleDps cb now dps true dev client).turn (.died .refresh)
            fun dev client => ⟨dev, client, .done .refresh (.returned (some dev.dps))⟩
      | .raised r => some (callFailed .refresh .refreshLost r dev client)
      | _ => none
  | .refreshLost why =>
      match value with
      | .done => some (callLost cb now .refresh why dev client)
      | .raised r => some ⟨dev, client, .done .refresh (.raised r)⟩
      | _ => none
  | .setting _ =>
      match value with
      | .done =>
          some ⟨{ dev with refreshAt := some (now + dev.timings.refreshAfterCommand) }, client,
            .done .setDps (.returned none)⟩
      | .raised r => some (callFailed .setDps .settingLost r dev client)
      | _ => none
  | .settingLost why =>
      match value with
      | .done => some (callLost cb now .setDps why dev client)
      | .raised r => some ⟨dev, client, .done .setDps (.raised r)⟩
      | _ => none
  | .reconfiguring =>
      match value with
      | .done =>
          let handled :=
            if dev.available then
              setAvailable cb now false (some (.unreachable .reconnecting)) dev client
            else ⟨dev, client, none⟩
          some <| handled.turn (.died .reconfigure) fun dev client =>
            ⟨{ dev with wake := true }, client, .done .reconfigure (.returned none)⟩
      | .raised r => some ⟨dev, client, .done .reconfigure (.raised r)⟩
      | _ => none
  | .closeDropping =>
      match value with
      | .done => some ⟨dev, client, .closeShutdown⟩
      | .raised r => some ⟨dev, client, .done .close (.raised r)⟩
      | _ => none
  | _ => none

/-! ## The whole system -/

/-- A library connection that the device created, with the settings it was created from. -/
structure Api where
  config : DeviceConfig
  version : PyStr
  disableDetect : Bool
  socket : Bool

/-- Where the worker thread stands in `_w_open`. -/
inductive Worker
  | idle
  | listing (waiter : Waiter)
  | trying (waiter : Waiter) (versions : List PyStr) (errors : List LanError)
  | asking (waiter : Waiter) (api : Nat) (version : PyStr) (rest : List PyStr)
      (errors : List LanError)

instance (k : Worker) : Decidable (k = .idle) :=
  match k with
  | .idle => isTrue rfl
  | .listing _ | .trying _ _ _ | .asking _ _ _ _ _ => isFalse (by simp)

/-- The worker's executor; `shutdownQueued` while `Executor.shutdown` waits for a thread of
its own, `stopping` once it refuses new jobs. -/
inductive Executor
  | accepting
  | shutdownQueued
  | stopping
  | stopped
deriving DecidableEq

def Executor.accepts : Executor → Bool
  | .accepting | .shutdownQueued => true
  | .stopping | .stopped => false

/-- A device with its task, worker and calls. `registered` and `released` are the keys of
all `register_secret` and `unregister_secret` calls. -/
structure World (γ : Type) where
  dev : Device
  client : γ
  apis : List Api := []
  queue : List (Waiter × Job) := []
  worker : Worker := .idle
  results : List Result := []
  loop : Loop := .notStarted
  calls : List Call := []
  executor : Executor := .accepting
  registered : List PyStr
  released : List PyStr := []

/-- `LanDevice.__init__`. -/
def World.init (config : DeviceConfig) (timings : Timings) (versionHint : Option PyStr)
    (client : γ) : World γ where
  dev := { config, timings, versionHint }
  client
  registered := [config.localKey]

/-- What the library does in one call: what it returns or raises, whether its socket is
open afterwards and whether it received raw data. -/
structure Reply where
  outcome : Except PyException Json
  socket : Bool
  rawRecv : Bool := false

/-- What returned did not raise. -/
theorem Reply.not_raised {reply : Reply} {e : PyException} (h : reply.outcome.isOk = true) :
    reply.outcome ≠ .error e := by
  intro hraised
  rw [hraised] at h
  exact absurd h (by simp [Except.isOk, Except.toBool])

/-- What the owner can call. -/
inductive Request
  | connect
  | refresh
  | setDps (dps : PyDict)
  | reconfigure (changes : Changes)
  | close

inductive Action
  | start
  | begin (now : ℚ)
  | wakeUp (now : ℚ)
  | timeout (now : ℚ)
  | request (r : Request)
  | resume (i : Nat) (now : ℚ)
  | taskEnded (i : Nat)
  | cancel (i : Nat)
  | take
  | listVersions
  | tryVersion (failure : Option PyException)
  | answer (reply : Reply) (closeFailure : Option PyException)
  | work (reply : Reply) (now : ℚ)
  | skip
  | beginShutdown
  | finishShutdown
  | shutdownDone (i : Nat)

namespace World

/-! ### Awaiting jobs -/

/-- `_run` goes on to `pc` and submits the job it awaits there. -/
def loopGoes (w : World γ) (t : Turn γ Loop) : World γ :=
  let w := { w with dev := t.dev, client := t.client }
  match t.pc.awaits with
  | none => { w with loop := t.pc }
  | some job =>
      if w.executor.accepts then
        { w with loop := t.pc, queue := w.queue ++ [(.loop, job)] }
      else { w with loop := .died .runtimeError }

/-- A call goes on and submits the job, or the executor's shutdown, that it awaits. -/
def callGoes (i : Nat) (t : Turn γ Call) (w : World γ) : World γ :=
  let w := { w with dev := t.dev, client := t.client }
  match t.pc.awaits with
  | none =>
      { w with
        calls := w.calls.set i t.pc
        executor := match t.pc with
          | .closeShutdown => .shutdownQueued
          | _ => w.executor }
  | some job =>
      if w.executor.accepts then
        { w with calls := w.calls.set i t.pc, queue := w.queue ++ [(.call i, job)] }
      else { w with calls := w.calls.set i (.died t.pc.op .runtimeError) }

/-- A new call runs up to its first await. -/
def newCall (pc : Call) (w : World γ) : World γ :=
  { w with calls := w.calls ++ [pc] }.callGoes w.calls.length ⟨w.dev, w.client, pc⟩

/-- Nobody awaits the jobs of a cancelled coroutine any more. -/
def abandon (x : Waiter) (w : World γ) : World γ :=
  let other := fun y => if y = x then Waiter.nobody else y
  { w with
    queue := relabel x .nobody w.queue
    worker := match w.worker with
      | .idle => .idle
      | .listing y => .listing (other y)
      | .trying y versions errors => .trying (other y) versions errors
      | .asking y api version rest errors => .asking (other y) api version rest errors
    results := w.results.map fun r => { r with waiter := other r.waiter } }

/-! ### The owner -/

/-- `start`. -/
def start (w : World γ) : World γ :=
  match w.loop with
  | .notStarted => if w.dev.closed then w else { w with loop := .ready }
  | _ => w

/-- `_require_connection`. -/
def requireConnection (dev : Device) : Option UnreachableReason :=
  if dev.closed then some .connectionIsClosed
  else if dev.api.isNone then some .notConnected
  else none

/-- `async_close` up to its first await. -/
def close (w : World γ) : World γ :=
  if w.dev.closed then w.newCall (.done .close (.returned none))
  else
    let w := { w with dev := { w.dev with closed := true, wake := true } }
    match w.loop with
    | .notStarted => w.newCall .closeDropping
    | .ended (.raised r) => w.newCall (.done .close (.raised r))
    | .ended _ => w.newCall .closeDropping
    | _ => ({ w with loop := .ended .cancelled }.abandon .loop).newCall .closing

/-- `async_reconfigure` up to its await. -/
def reconfigure (changes : Changes) (w : World γ) : World γ :=
  match w.dev.config.replace changes with
  | .error e => w.newCall (.done .reconfigure (.raised (.foreign e)))
  | .ok config =>
      if config = w.dev.config then w.newCall (.done .reconfigure (.returned none))
      else
        { w with
          dev := { w.dev with config }
          registered := config.localKey :: w.registered
          released := w.dev.config.localKey :: w.released }.newCall .reconfiguring

/-- A call up to its first await. -/
def request (w : World γ) : Request → World γ
  | .connect => w.newCall .connecting
  | .refresh =>
      match requireConnection w.dev with
      | some why => w.newCall (.done .refresh (.raised (.lan (.unreachable why))))
      | none => w.newCall .refreshing
  | .setDps dps =>
      if dps.entries.isEmpty then w.newCall (.done .setDps (.returned none))
      else match requireConnection w.dev with
        | some why => w.newCall (.done .setDps (.raised (.lan (.unreachable why))))
        | none => w.newCall (.setting dps)
  | .reconfigure changes => w.reconfigure changes
  | .close => w.close

/-- A coroutine takes up the `i`-th waiting result. -/
def resume (i : Nat) (now : ℚ) (w : World γ) : Option (World γ) := do
  let r ← w.results[i]?
  let w := { w with results := w.results.eraseIdx i }
  match r.waiter with
  | .loop => do
      let t ← loopResume cb now w.dev w.client w.loop r.value
      pure (w.loopGoes t)
  | .call n => do
      let pc ← w.calls[n]?
      let t ← callResume cb now w.dev w.client pc r.value
      pure (w.callGoes n t)
  | .nobody => pure w

/-- The cancelled background task has ended; `async_close` goes on. -/
def taskEnded (i : Nat) (w : World γ) : Option (World γ) :=
  match w.calls[i]? with
  | some .closing => some (w.callGoes i ⟨w.dev, w.client, .closeDropping⟩)
  | _ => none

/-- Cancel a call.  `async_close` suppresses the cancellation while it awaits the background
task; a shutdown that no thread has begun is withdrawn. -/
def cancel (i : Nat) (w : World γ) : Option (World γ) :=
  match w.calls[i]? with
  | none => none
  | some (.done _ _) => none
  | some .closing => some w
  | some .closeShutdown =>
      some { w with
        calls := w.calls.set i (.done .close .cancelled)
        executor := if w.executor = .shutdownQueued then .accepting else w.executor }
  | some pc => some ({ w with calls := w.calls.set i (.done pc.op .cancelled) }.abandon (.call i))

/-- The executor is shut down; `async_close` releases the key and returns. -/
def shutdownDone (i : Nat) (w : World γ) : Option (World γ) :=
  match w.calls[i]?, w.executor with
  | some .closeShutdown, .stopped =>
      some { w with
        calls := w.calls.set i (.done .close (.returned none))
        released := w.dev.config.localKey :: w.released }
  | _, _ => none

/-! ### The worker -/

/-- A job ends. -/
def post (x : Waiter) (job : Job) (value : JobValue) (w : World γ) : World γ :=
  { w with worker := .idle, results := w.results ++ [⟨x, job, value⟩] }

/-- Set whether the socket of a library connection is open. -/
def setSocket (id : Nat) (socket : Bool) (w : World γ) : World γ :=
  { w with apis := w.apis.modify id fun api => { api with socket } }

/-- `_w_drop`. -/
def dropApi (w : World γ) : World γ :=
  match w.dev.api with
  | none => w
  | some id => { w with dev := { w.dev with api := none } }.setSocket id false

/-- `_w_open` starts. -/
def take (w : World γ) : Option (World γ) :=
  match w.worker, w.queue with
  | .idle, (x, .wOpen) :: rest =>
      some { { w with queue := rest }.dropApi with worker := .listing x }
  | _, _ => none

/-- `_w_open` determines the versions to try. -/
def listVersions (w : World γ) : Option (World γ) :=
  match w.worker with
  | .listing x => some { w with worker := .trying x (versionsToTry w.dev) [] }
  | _ => none

/-- What `_w_open` raises after all versions failed. -/
def openRaises (errors : List LanError) : LanError :=
  (errors.find? LanError.isInvalidLocalKey).getD
    (errors.getLast?.getD (.unreachable .noVersionToTry))

/-- `_new_api`. -/
def newApi (dev : Device) (version : PyStr) : Api where
  config := dev.config
  version
  disableDetect := version ≠ py "3.2"
  socket := false

/-- `_w_open` goes on to the next version: it creates a library connection, which may fail,
or gives up. -/
def tryVersion (failure : Option PyException) (w : World γ) : Option (World γ) :=
  match w.worker with
  | .trying x [] errors => some (w.post x .wOpen (.raised (.lan (openRaises errors))))
  | .trying x (version :: rest) errors =>
      if w.dev.closed then
        some (w.post x .wOpen (.raised (.lan (.unreachable .connectionIsClosed))))
      else match failure with
        | some e => some (w.post x .wOpen (.raised (.foreign e)))
        | none =>
            some { w with
              apis := w.apis ++ [newApi w.dev version]
              worker := .asking x w.apis.length version rest errors }
  | _ => none

/-- `_w_open` after `status` of a new library connection: keep the connection, or close it
and go on.  After an exception of `status` the connection is left as it is. -/
def answer (reply : Reply) (closeFailure : Option PyException) (w : World γ) :
    Option (World γ) :=
  match w.worker with
  | .asking x id version rest errors =>
      let w := w.setSocket id reply.socket
      match reply.outcome with
      | .error e => some (w.post x .wOpen (.raised (.foreign e)))
      | .ok result =>
          match dpsOf result, reply.socket with
          | some dps, true =>
              some ({ w with dev := { w.dev with api := some id } }.post x .wOpen
                (.opened version dps))
          | _, _ =>
              let w := w.setSocket id false
              match closeFailure with
              | some e => some (w.post x .wOpen (.raised (.foreign e)))
              | none =>
                  let code := errorCode result
                  let error := openError code version
                  if codeIn code unreachableErrors then
                    some (w.post x .wOpen (.raised (.lan error)))
                  else some { w with worker := .trying x rest (errors ++ [error]) }
  | _ => none

/-- What a job makes of the library's result: `_w_status`, `_w_heartbeat`, `_w_receive`,
`_w_set` after their library call. -/
def libraryValue (c : LibraryCall) (reply : Reply) (result : Json) : JobValue :=
  let code := errorCode result
  match c with
  | .status =>
      match dpsOf result, reply.socket with
      | some dps, true => .dps dps
      | _, _ => .raised (.lan (.connectionLost (.statusRequestFailed code)))
  | .heartbeat =>
      if code.isSome || !reply.socket then .raised (.lan (.connectionLost .heartbeatFailed))
      else .done
  | .receive =>
      if !reply.socket || codeIn code connectionLostErrors then
        .raised (.lan (.connectionLost (.connectionClosed code)))
      else .received (dpsOf result)
  | .set _ =>
      if code.isSome || !reply.socket then
        .raised (.lan (.connectionLost (.sendingFailed code)))
      else .done

/-- The times that the worker notes. -/
def noteTimes (c : LibraryCall) (reply : Reply) (now : ℚ) (dev : Device) : Device :=
  match c with
  | .heartbeat => { dev with lastHeartbeat := now }
  | .receive => if reply.rawRecv then { dev with lastRx := now } else dev
  | _ => dev

/-- `_w_api`: the connection held, if its socket is open. -/
def heldApi (w : World γ) : Option Nat :=
  w.dev.api.filter fun id => (w.apis[id]?).any Api.socket

/-- A job other than `_w_open` runs. -/
def work (reply : Reply) (now : ℚ) (w : World γ) : Option (World γ) :=
  match w.worker, w.queue with
  | .idle, (x, .wDrop) :: rest => some ({ w with queue := rest }.dropApi.post x .wDrop .done)
  | .idle, (x, .wCall c) :: rest =>
      let w := { w with queue := rest }
      match w.heldApi with
      | none => some (w.post x (.wCall c) (.raised (.lan (.connectionLost .notConnected))))
      | some id =>
          let w := w.setSocket id reply.socket
          match reply.outcome with
          | .error e => some (w.post x (.wCall c) (.raised (.foreign e)))
          | .ok result =>
              some ({ w with dev := noteTimes c reply now w.dev }.post x (.wCall c)
                (libraryValue c reply result))
  | _, _ => none

/-- A job that was cancelled before it ran is passed over. -/
def skip (w : World γ) : Option (World γ) :=
  match w.worker, w.queue with
  | .idle, (.nobody, _) :: rest => some { w with queue := rest }
  | _, _ => none

/-- `Executor.shutdown` makes the executor refuse new jobs. -/
def beginShutdown (w : World γ) : Option (World γ) :=
  match w.executor with
  | .shutdownQueued => some { w with executor := .stopping }
  | _ => none

/-- The worker thread ends when no job is left. -/
def finishShutdown (w : World γ) : Option (World γ) :=
  match w.executor, w.worker, w.queue with
  | .stopping, .idle, [] => some { w with executor := .stopped }
  | _, _, _ => none

/-! ### Steps -/

/-- `_run` starts. -/
def begin (now : ℚ) (w : World γ) : Option (World γ) :=
  match w.loop with
  | .ready => some (w.loopGoes (loopTop now w.dev.timings.reconnectMin w.dev w.client))
  | _ => none

/-- A sleep of `_run` ends. -/
def timeout (now : ℚ) (w : World γ) : Option (World γ) :=
  (loopWake now w.dev w.client w.loop).map w.loopGoes

/-- One step of the system. -/
def step (w : World γ) : Action → Option (World γ)
  | .start => some w.start
  | .begin now => w.begin now
  | .wakeUp now => if w.dev.wake then w.timeout now else none
  | .timeout now => w.timeout now
  | .request r => some (w.request r)
  | .resume i now => w.resume cb i now
  | .taskEnded i => w.taskEnded i
  | .cancel i => w.cancel i
  | .take => w.take
  | .listVersions => w.listVersions
  | .tryVersion failure => w.tryVersion failure
  | .answer reply closeFailure => w.answer reply closeFailure
  | .work reply now => w.work reply now
  | .skip => w.skip
  | .beginShutdown => w.beginShutdown
  | .finishShutdown => w.finishShutdown
  | .shutdownDone i => w.shutdownDone i

end World

/-! ## Examples of what the library answers -/

/-- A full status with the power on. -/
def statusReply (socket : Bool) : Reply where
  outcome := .ok (.obj [(py "dps", .obj [(py "1", .bool true)])])
  socket

/-- A connection attempt without a callback, up to the result of its open. -/
def openActions : List Action :=
  [.request .connect, .take, .listVersions, .tryVersion none, .answer (statusReply true) none]

end Lan
