import HaBirdie.LanClose

/-!
# The network search

`async_find_device` tries a device ID and local key on every candidate address, in one task
(`attempt`) each; the semaphore lets `concurrency` of them run at a time.  An attempt creates a
`LanDevice`, awaits its `async_connect` and, however that ends, its `async_close`.  The search
takes up the attempts in the order in which they end, and stops at the first that found the
device or raised; its `finally` then cancels all attempts and awaits them.

An attempt contains the whole system of its device (`World`), where `async_connect` is call 0
and `async_close` is call 1.  A cancelled call ends at once, but its attempt goes on only when
the event loop runs it again (`wake`), so a second cancellation in between changes nothing.
-/

namespace Lan

open Python StepRuns

/-- `TRY_CONCURRENCY`. -/
def tryConcurrency : Nat := 8

/-- `TRY_TIMINGS`. -/
def tryTimings : Timings := { connectTimeout := 3 }

/-- `FoundDevice`. -/
structure FoundDevice where
  host : PyStr
  protocolVersion : PyStr
  dps : PyDict

/-- How a task of the search ends. -/
inductive TaskEnd
  | returned (found : Option FoundDevice)
  | raised (r : Raised)
  | cancelled

/-- The search goes on after an attempt that returned `None`. -/
def TaskEnd.isNone : TaskEnd → Bool
  | .returned none => true
  | _ => false

/-- What an attempt has come to after `async_connect`, while it awaits `async_close`. -/
inductive Leaving
  | connected (dps : PyDict)
  | failed
  | raised (r : Raised)
  | cancelled

/-- Where an attempt stands. -/
inductive Stage
  | waiting
  | connecting
  | closing (leaving : Leaving)
  | done (ending : TaskEnd)

/-- The arguments of `async_find_device` but for the addresses. -/
structure SearchSettings where
  deviceId : PyStr
  localKey : PyStr
  protocolVersion : PyStr := protocolAuto
  port : Int := defaultPort
  timings : Timings := tryTimings
  concurrency : Nat := tryConcurrency

/-- What `except LanError` and `finally` make of the end of `async_connect`. -/
def Ending.leaving : Ending → Leaving
  | .returned dps => .connected (dps.getD ∅)
  | .raised (.lan _) => .failed
  | .raised r => .raised r
  | .cancelled => .cancelled

/-! ## Attempts -/

/-- The task of one candidate address, and the device it created. -/
structure SearchAttempt where
  host : PyStr
  device : Option (World Unit) := none
  stage : Stage := .waiting

namespace SearchAttempt

def isDone (a : SearchAttempt) : Bool :=
  match a.stage with
  | .done _ => true
  | _ => false

/-- The attempt awaits its own `async_close`. -/
def isClosing (a : SearchAttempt) : Bool :=
  match a.stage with
  | .closing _ => true
  | _ => false

/-- The attempt holds the semaphore. -/
def isActive (a : SearchAttempt) : Bool :=
  match a.stage with
  | .connecting | .closing _ => true
  | _ => false

/-- The semaphore is acquired: the attempt creates its device and calls `async_connect`. -/
def begin (s : SearchSettings) (a : SearchAttempt) : SearchAttempt :=
  match DeviceConfig.make s.deviceId a.host s.localKey s.protocolVersion s.port with
  | .error e => { a with stage := .done (.raised (.foreign e)) }
  | .ok config =>
      { a with
        device := some ((World.init config s.timings none ()).request .connect)
        stage := .connecting }

/-- `device.protocol_version or protocol_version`. -/
def versionFound (configured : PyStr) (w : World Unit) : PyStr :=
  match w.dev.version with
  | some version => if version = [] then configured else version
  | none => configured

/-- How the attempt ends once `async_close` has; what that raises takes the place of what
`async_connect` led to. -/
def ending (configured : PyStr) (host : PyStr) (w : World Unit) (leaving : Leaving) :
    Ending → TaskEnd
  | .raised r => .raised r
  | .cancelled => .cancelled
  | .returned _ =>
      match leaving with
      | .connected dps => .returned (some ⟨host, versionFound configured w, dps⟩)
      | .failed => .returned none
      | .raised r => .raised r
      | .cancelled => .cancelled

/-- The attempt goes on if the call it awaits has ended. -/
def goOn (configured : PyStr) (a : SearchAttempt) : SearchAttempt :=
  match a.device, a.stage with
  | some w, .connecting =>
      match (w.calls[0]? : Option Call) with
      | some (.done _ e) =>
          { a with device := some (w.request .close), stage := .closing e.leaving }
      | _ => a
  | some w, .closing leaving =>
      match (w.calls[1]? : Option Call) with
      | some (.done _ e) => { a with stage := .done (ending configured a.host w leaving e) }
      | _ => a
  | _, _ => a

/-- `Task.cancel`: the call that the attempt awaits is cancelled. -/
def cancel (a : SearchAttempt) : SearchAttempt :=
  match a.stage with
  | .waiting => { a with stage := .done .cancelled }
  | .connecting => { a with device := a.device.map fun w => (w.cancel 0).getD w }
  | .closing _ => { a with device := a.device.map fun w => (w.cancel 1).getD w }
  | .done _ => a

/-- A step of the device.  One that moves a call runs in the attempt's task, which goes on
where the call ends. -/
def onDevice (configured : PyStr) (action : Action) (a : SearchAttempt) :
    Option SearchAttempt := do
  let w ← a.device
  let w' ← w.step (Callbacks.none Unit) action
  let a' := { a with device := some w' }
  pure (if (w.actsOn action).isSome then a'.goOn configured else a')

end SearchAttempt

/-- What only the owner of a device does. -/
def Action.isOwners : Action → Bool
  | .start | .request _ | .cancel _ => true
  | _ => false

/-- A step that is not the owner's neither starts the device nor asks anything of it. -/
theorem Action.not_owners {a : Action} (h : a.isOwners = false) :
    a ≠ .start ∧ ∀ r, a ≠ .request r := by
  constructor
  · intro heq
    obtain rfl := heq
    exact absurd h (by simp [isOwners])
  · intro r heq
    obtain rfl := heq
    exact absurd h (by simp [isOwners])

/-! ## The search -/

/-- Where `async_find_device` stands: it awaits the next attempt, or in its `finally` all of
them, or it has ended. -/
inductive SearchPhase
  | searching
  | stopping (ending : TaskEnd)
  | finished (ending : TaskEnd)

/-- `async_find_device` with its tasks.  `completed` are the attempts that ended and were not
taken up yet, first to end first. -/
structure Search where
  settings : SearchSettings
  attempts : List SearchAttempt
  completed : List Nat := []
  phase : SearchPhase := .searching

inductive SearchAction
  | begin (i : Nat)
  | onDevice (i : Nat) (a : Action)
  | wake (i : Nat)
  | collect
  | gathered
  | cancel

namespace Search

/-- `async_find_device` once `async_open_ports` gave the candidates. -/
def start (settings : SearchSettings) (candidates : List PyStr) : Search where
  settings
  attempts := candidates.map fun host => { host }
  phase := if candidates.isEmpty then .finished (.returned none) else .searching

def isFinished (s : Search) : Bool :=
  match s.phase with
  | .finished _ => true
  | _ => false

def allDone (s : Search) : Bool := s.attempts.all SearchAttempt.isDone

/-- How an attempt that is done has ended. -/
def endOf (s : Search) (i : Nat) : Option TaskEnd :=
  s.attempts[i]?.bind fun a =>
    match a.stage with
    | .done ending => some ending
    | _ => none

/-- An attempt moves; one that ends is handed to `as_completed`. -/
def put (i : Nat) (a a' : SearchAttempt) (s : Search) : Search :=
  { s with
    attempts := s.attempts.set i a'
    completed := if !a.isDone && a'.isDone then s.completed ++ [i] else s.completed }

/-- The `finally` up to its await. -/
def stop (ending : TaskEnd) (s : Search) : Search :=
  { s with attempts := s.attempts.map .cancel, phase := .stopping ending }

/-- The semaphore lets an attempt in. -/
def begin (i : Nat) (s : Search) : Option Search := do
  let a ← s.attempts[i]?
  match a.stage with
  | .waiting =>
      if s.attempts.countP SearchAttempt.isActive < s.settings.concurrency then
        pure (s.put i a (a.begin s.settings))
      else none
  | _ => none

/-- A step of an attempt's device. -/
def onDevice (i : Nat) (action : Action) (s : Search) : Option Search := do
  let a ← s.attempts[i]?
  if action.isOwners then none
  else do
    let a' ← a.onDevice s.settings.protocolVersion action
    pure (s.put i a a')

/-- The event loop runs an attempt whose call was cancelled. -/
def wake (i : Nat) (s : Search) : Option Search := do
  let a ← s.attempts[i]?
  pure (s.put i a (a.goOn s.settings.protocolVersion))

/-- The search takes up the next attempt that ended; after the last one it is over. -/
def collect (s : Search) : Option Search :=
  match s.phase, s.completed with
  | .searching, i :: rest =>
      let s := { s with completed := rest }
      match s.endOf i with
      | some ending =>
          if !ending.isNone || rest.isEmpty && s.allDone then some (s.stop ending) else some s
      | none => none
  | _, _ => none

/-- All attempts have ended, and so does the search. -/
def gathered (s : Search) : Option Search :=
  match s.phase with
  | .stopping ending => if s.allDone then some { s with phase := .finished ending } else none
  | _ => none

/-- The caller cancels the search: at its await it goes on to its `finally`, and there the
cancellation reaches all attempts again. -/
def cancel (s : Search) : Option Search :=
  match s.phase with
  | .searching | .stopping _ => some (s.stop .cancelled)
  | .finished _ => none

/-- One step of the search. -/
def step (s : Search) : SearchAction → Option Search
  | .begin i => s.begin i
  | .onDevice i a => s.onDevice i a
  | .wake i => s.wake i
  | .collect => s.collect
  | .gathered => s.gathered
  | .cancel => s.cancel

end Search

end Lan
