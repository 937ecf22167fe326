import HaBirdie.LanDeviceMoves
import Mathlib.Data.List.InsertIdx

/-!
# Turns and outstanding jobs of the LAN client

Two facts about every step of the client that the safety results rest on.

* A turn of a coroutine leaves the connection alone (`SameConnection`): whether a library
  connection is held changes on the worker only.  What a turn does to `available` depends
  on the job it resumes from and that job's value only (`effect`).
* A coroutine that awaits a job has exactly that job outstanding, and one that awaits none
  has none (`Tracked`): so a result that waits is of the kind its coroutine expects.
-/

namespace Lan

open Python JobTracking

variable {γ : Type} {cb : Callbacks γ}

/-! ## Turns -/

/-- The attributes that no turn of a coroutine changes. -/
structure SameConnection (d d' : Device) : Prop where
  config : d'.config = d.config
  timings : d'.timings = d.timings
  versionHint : d'.versionHint = d.versionHint
  api : d'.api = d.api
  closed : d'.closed = d.closed

/-- A turn that changes nothing leaves the connection alone. -/
theorem SameConnection.refl (d : Device) : SameConnection d d := ⟨rfl, rfl, rfl, rfl, rfl⟩

/-- Two turns that leave the connection alone, one after the other, do so together. -/
theorem SameConnection.trans {d d' d'' : Device} (h : SameConnection d d')
    (h' : SameConnection d' d'') : SameConnection d d'' :=
  ⟨h'.config.trans h.config, h'.timings.trans h.timings, h'.versionHint.trans h.versionHint,
    h'.api.trans h.api, h'.closed.trans h.closed⟩

/-- Handling a result keeps even more than the attributes of the connection, so it keeps those. -/
theorem SameLink.sameConnection {d d' : Device} (h : SameLink d d') : SameConnection d d' :=
  ⟨h.config, h.timings, h.versionHint, h.api, h.closed⟩

/-- What a turn did: the connection is as before, `available` is, and the coroutine stands
at a `good` place. -/
structure Turned {pc : Type} (d : Device) (available : Bool) (good : pc → Prop)
    (t : Turn γ pc) : Prop where
  same : SameConnection d t.dev
  available : t.dev.available = available
  pc : good t.pc

/-- A coroutine that only moves to another good place has left the device as it was. -/
theorem Turned.stay {pc : Type} {good : pc → Prop} {p : pc} (d : Device) (c : γ)
    (hp : good p) : Turned d d.available good (⟨d, c, p⟩ : Turn γ pc) :=
  ⟨SameConnection.refl d, rfl, hp⟩

/-- Handling, followed by a turn that keeps `available`. -/
theorem Handled.turned {pc : Type} {good : pc → Prop} {d : Device} {b : Bool} {h : Handled γ}
    {fail : PyException → pc} {k : Device → γ → Turn γ pc}
    (hlink : SameLink d h.dev) (hav : h.dev.available = b) (hfail : ∀ e, good (fail e))
    (hk : ∀ d' c, Turned d' d'.available good (k d' c)) :
    Turned d b good (h.turn fail k) := by
  unfold Handled.turn
  cases h.raised with
  | some e => exact ⟨hlink.sameConnection, hav, hfail e⟩
  | none =>
      have hnext := hk h.dev h.client
      exact ⟨hlink.sameConnection.trans hnext.same, hnext.available.trans hav, hnext.pc⟩

/-! ### Of the background task -/

/-- `_run` was started. -/
def Loop.Started (pc : Loop) : Prop := pc ≠ .notStarted

/-- A background task that an exception ended had been started. -/
theorem Loop.died_started (e : PyException) : (Loop.died e).Started := by
  simp [Started, died]

/-- `_async_lost` of the background task ends with a queued drop.  `available` only changes when
that drop is done. -/
theorem loopLost_turned (b : ℚ) (why : LostReason) (d : Device) (c : γ) :
    Turned d d.available Loop.Started (loopLost b why d c) :=
  ⟨⟨rfl, rfl, rfl, rfl, rfl⟩, rfl, by simp [loopLost, Loop.Started]⟩

/-- Whatever a step of `_run` raised, the loop drops the connection or dies, and leaves the device
as it was until then. -/
theorem loopFailed_turned (b : ℚ) (r : Raised) (d : Device) (c : γ) :
    Turned d d.available Loop.Started (loopFailed b r d c) := by
  unfold loopFailed
  split
  · exact loopLost_turned b _ d c
  · exact Turned.stay d c (by simp [Loop.Started])

/-- `_sleep` only clears the wake-up. -/
theorem loopSleep_turned {pc : Loop} (hpc : pc.Started) (d : Device) (c : γ) :
    Turned d d.available Loop.Started (loopSleep pc d c) :=
  ⟨⟨rfl, rfl, rfl, rfl, rfl⟩, rfl, hpc⟩

/-- A pass of `_run` up to its next await: whichever job it asks for, the connection and
`available` are as before. -/
theorem loopTop_turned (now b : ℚ) (d : Device) (c : γ) :
    Turned d d.available Loop.Started (loopTop now b d c) := by
  unfold loopTop
  split
  · exact Turned.stay d c (by simp [Loop.Started])
  split
  · exact Turned.stay d c (by simp [Loop.Started])
  unfold loopStep
  split
  · exact loopLost_turned b _ d c
  split
  · exact ⟨⟨rfl, rfl, rfl, rfl, rfl⟩, rfl, by simp [Loop.Started]⟩
  split
  · exact Turned.stay d c (by simp [Loop.Started])
  · exact Turned.stay d c (by simp [Loop.Started])

/-- A sleep that ends or is cut short goes on at the head of the loop, which leaves the connection
alone. -/
theorem loopWake_turned {now : ℚ} {d : Device} {c : γ} {pc : Loop} {t : Turn γ Loop}
    (h : loopWake now d c pc = some t) : Turned d d.available Loop.Started t := by
  cases pc <;> simp only [loopWake, Option.some.injEq, reduceCtorEq] at h
  all_goals
    subst h
    exact loopTop_turned now _ d c

/-- What handling a result does to `available`: an open makes the device available, a failed
open of the background task and a dropped connection make it unavailable. -/
def effect : Waiter → Job → JobValue → Option Bool
  | _, .wOpen, .opened _ _ => some true
  | .loop, .wOpen, .raised (.lan _) => some false
  | _, .wDrop, .done => some false
  | _, _, _ => none

/-- **A turn of the background task** leaves the connection alone and has the effect of the
result it takes up. -/
theorem loopResume_turned {now : ℚ} {d : Device} {c : γ} {pc : Loop} {job : Job}
    {value : JobValue} {t : Turn γ Loop} (hjob : pc.awaits = some job)
    (h : loopResume cb now d c pc value = some t) :
    Turned d ((effect .loop job value).getD d.available) Loop.Started t := by
  cases pc with
  | opening b =>
      obtain rfl : Job.wOpen = job := Option.some.inj hjob
      cases value with
      | opened version dps =>
          obtain rfl := Option.some.inj h
          exact Handled.turned (handleConnected_sameLink cb now version dps d c)
            (handleConnected_available cb now version dps d c) Loop.died_started
            (loopTop_turned now _)
      | raised r =>
          cases r with
          | lan e =>
              obtain rfl := Option.some.inj h
              exact Handled.turned (openFailed_sameLink cb now e d c)
                (openFailed_available cb now e d c) Loop.died_started
                (loopSleep_turned (by simp [Loop.Started]))
          | foreign e =>
              obtain rfl := Option.some.inj h
              exact Turned.stay d c (by simp [Loop.Started])
      | _ => exact absurd h (by simp [loopResume])
  | reading b =>
      obtain rfl : Job.wCall .status = job := Option.some.inj hjob
      cases value with
      | dps dps =>
          obtain rfl := Option.some.inj h
          exact Handled.turned (handleDps_sameLink cb now dps true d c)
            (handleDps_available cb now dps true d c) Loop.died_started (loopTop_turned now b)
      | raised r =>
          obtain rfl := Option.some.inj h
          exact loopFailed_turned b r d c
      | _ => exact absurd h (by simp [loopResume])
  | beating b =>
      obtain rfl : Job.wCall .heartbeat = job := Option.some.inj hjob
      cases value with
      | done =>
          obtain rfl := Option.some.inj h
          exact Turned.stay d c (by simp [Loop.Started])
      | raised r =>
          obtain rfl := Option.some.inj h
          exact loopFailed_turned b r d c
      | _ => exact absurd h (by simp [loopResume])
  | receiving b =>
      obtain rfl : Job.wCall .receive = job := Option.some.inj hjob
      cases value with
      | received dps? =>
          cases dps? with
          | none =>
              obtain rfl := Option.some.inj h
              exact loopTop_turned now b d c
          | some dps =>
              simp only [loopResume] at h
              split at h
              · obtain rfl := Option.some.inj h
                exact loopTop_turned now b d c
              · obtain rfl := Option.some.inj h
                exact Handled.turned (handleDps_sameLink cb now dps false d c)
                  (handleDps_available cb now dps false d c) Loop.died_started
                  (loopTop_turned now b)
      | raised r =>
          obtain rfl := Option.some.inj h
          exact loopFailed_turned b r d c
      | _ => exact absurd h (by simp [loopResume])
  | dropping b why =>
      obtain rfl : Job.wDrop = job := Option.some.inj hjob
      cases value with
      | done =>
          obtain rfl := Option.some.inj h
          exact Handled.turned (setAvailable_sameLink cb now false _ d c)
            (setAvailable_available cb now false _ d c) Loop.died_started
            (loopSleep_turned (by simp [Loop.Started]))
      | raised r =>
          obtain rfl := Option.some.inj h
          exact Turned.stay d c (by simp [Loop.Started])
      | _ => exact absurd h (by simp [loopResume])
  | _ => exact absurd hjob (by simp [Loop.awaits])

/-! ### Of the owner's calls -/

/-- A later place of the operation: only a new call opens a connection. -/
structure Call.Of (op : Operation) (pc : Call) : Prop where
  op : pc.op = op
  later : pc ≠ .connecting

/-- A call that has ended is still one of its operation. -/
theorem Call.done_of (op : Operation) (ending : Ending) : (Call.done op ending).Of op :=
  ⟨rfl, by simp⟩

/-- Calls of these operations never await an open: only `_run` and `async_connect` do. -/
theorem Call.Of.awaits {op : Operation} {pc : Call} (h : pc.Of op) :
    pc.awaits ≠ some .wOpen := by
  cases pc with
  | connecting => exact absurd rfl h.later
  | _ => simp [Call.awaits]

/-- A job of a call failed: the call drops the connection first or raises, and the device is as
before until then. -/
theorem callFailed_turned (op : Operation) (dropping : LostReason → Call)
    (hdropping : ∀ why, (dropping why).Of op) (r : Raised) (d : Device) (c : γ) :
    Turned d d.available (Call.Of op) (callFailed op dropping r d c) := by
  unfold callFailed
  split
  · exact ⟨⟨rfl, rfl, rfl, rfl, rfl⟩, rfl, hdropping _⟩
  · exact Turned.stay d c (Call.done_of _ _)

/-- The drop of a call is done.  This is where the device becomes unavailable, and the call ends
with its error. -/
theorem callLost_turned (now : ℚ) (op : Operation) (why : LostReason) (d : Device) (c : γ) :
    Turned d false (Call.Of op) (callLost cb now op why d c) :=
  Handled.turned (setAvailable_sameLink cb now false _ d c)
    (setAvailable_available cb now false _ d c) (fun _ => Call.done_of _ _)
    (fun d' c' => Turned.stay d' c' (Call.done_of _ _))

/-- **A turn of a call** other than `async_close` leaves the connection alone and has the
effect of the result it takes up. -/
theorem callResume_turned {now : ℚ} {d : Device} {c : γ} (i : ℕ) {pc : Call} {job : Job}
    {value : JobValue} {t : Turn γ Call} (hjob : pc.awaits = some job) (hop : pc.op ≠ .close)
    (h : callResume cb now d c pc value = some t) :
    Turned d ((effect (.call i) job value).getD d.available) (Call.Of pc.op) t := by
  cases pc with
  | connecting =>
      obtain rfl : Job.wOpen = job := Option.some.inj hjob
      cases value with
      | opened version dps =>
          obtain rfl := Option.some.inj h
          exact Handled.turned (handleConnected_sameLink cb now version dps d c)
            (handleConnected_available cb now version dps d c) (fun _ => Call.done_of _ _)
            (fun d' c' => Turned.stay d' c' (Call.done_of _ _))
      | raised r =>
          obtain rfl := Option.some.inj h
          cases r with
          | lan e => exact Turned.stay d c (Call.done_of _ _)
          | foreign e => exact Turned.stay d c (Call.done_of _ _)
      | _ => exact absurd h (by simp [callResume])
  | refreshing =>
      obtain rfl : Job.wCall .status = job := Option.some.inj hjob
      cases value with
      | dps dps =>
          obtain rfl := Option.some.inj h
          exact Handled.turned (handleDps_sameLink cb now dps true d c)
            (handleDps_available cb now dps true d c) (fun _ => Call.done_of _ _)
            (fun d' c' => Turned.stay d' c' (Call.done_of _ _))
      | raised r =>
          obtain rfl := Option.some.inj h
          exact callFailed_turned .refresh .refreshLost (fun _ => ⟨rfl, by simp⟩) r d c
      | _ => exact absurd h (by simp [callResume])
  | refreshLost why =>
      obtain rfl : Job.wDrop = job := Option.some.inj hjob
      cases value with
      | done =>
          obtain rfl := Option.some.inj h
          exact callLost_turned now _ why d c
      | raised r =>
          obtain rfl := Option.some.inj h
          exact Turned.stay d c (Call.done_of _ _)
      | _ => exact absurd h (by simp [callResume])
  | setting dps =>
      obtain rfl : Job.wCall (.set dps) = job := Option.some.inj hjob
      cases value with
      | done =>
          obtain rfl := Option.some.inj h
          exact ⟨⟨rfl, rfl, rfl, rfl, rfl⟩, rfl, Call.done_of _ _⟩
      | raised r =>
          obtain rfl := Option.some.inj h
          exact callFailed_turned .setDps .settingLost (fun _ => ⟨rfl, by simp⟩) r d c
      | _ => exact absurd h (by simp [callResume])
  | settingLost why =>
      obtain rfl : Job.wDrop = job := Option.some.inj hjob
      cases value with
      | done =>
          obtain rfl := Option.some.inj h
          exact callLost_turned now _ why d c
      | raised r =>
          obtain rfl := Option.some.inj h
          exact Turned.stay d c (Call.done_of _ _)
      | _ => exact absurd h (by simp [callResume])
  | reconfiguring =>
      obtain rfl : Job.wDrop = job := Option.some.inj hjob
      cases value with
      | done =>
          obtain rfl := Option.some.inj h
          by_cases hav : d.available = true
          · rw [if_pos hav]
            exact Handled.turned (setAvailable_sameLink cb now false _ d c)
              (setAvailable_available cb now false _ d c) (fun _ => Call.done_of _ _)
              (fun d' _ => ⟨⟨rfl, rfl, rfl, rfl, rfl⟩, rfl, Call.done_of _ _⟩)
          · rw [if_neg hav]
            exact ⟨⟨rfl, rfl, rfl, rfl, rfl⟩, Bool.eq_false_of_not_eq_true hav,
              Call.done_of _ _⟩
      | raised r =>
          obtain rfl := Option.some.inj h
          exact Turned.stay d c (Call.done_of _ _)
      | _ => exact absurd h (by simp [callResume])
  | closing => exact absurd rfl hop
  | closeDropping => exact absurd rfl hop
  | closeShutdown => exact absurd rfl hop
  | done op ending => exact absurd hjob (by simp [Call.awaits])

/-- An `async_connect` whose open succeeded returns, or raises what a callback raised. -/
theorem callResume_opened {now : ℚ} {d : Device} {c : γ} {version : PyStr} {dps : PyDict}
    {t : Turn γ Call} (h : callResume cb now d c .connecting (.opened version dps) = some t) :
    (∃ dps, t.pc = .done .connect (.returned dps)) ∨
      ∃ e, t.pc = .done .connect (.raised (.foreign e)) := by
  obtain rfl := Option.some.inj h
  unfold Handled.turn
  cases (handleConnected cb now version dps d c).raised with
  | some e => exact Or.inr ⟨e, rfl⟩
  | none => exact Or.inl ⟨_, rfl⟩

/-- A turn of `async_close` changes no attribute.  What it awaited was its drop; the shutdown ends
by another event. -/
theorem callResume_close {now : ℚ} {d : Device} {c : γ} {pc : Call} {value : JobValue}
    {t : Turn γ Call} (hop : pc.op = .close) (h : callResume cb now d c pc value = some t) :
    pc = .closeDropping ∧ t.dev = d ∧ t.client = c ∧
      (t.pc = .closeShutdown ∧ value = .done ∨
        ∃ r, t.pc = .done .close (.raised r) ∧ value = .raised r) := by
  cases pc with
  | closeDropping =>
      cases value with
      | done =>
          obtain rfl := Option.some.inj h
          exact ⟨rfl, rfl, rfl, Or.inl ⟨rfl, rfl⟩⟩
      | raised r =>
          obtain rfl := Option.some.inj h
          exact ⟨rfl, rfl, rfl, Or.inr ⟨r, rfl, rfl⟩⟩
      | _ => exact absurd h (by simp [callResume])
  | _ => simp_all [Call.op, callResume]

namespace World

/-! ## What the operations of the system leave alone -/

section Frames

variable (w : World γ) (t : Turn γ Loop) (u : Turn γ Call) (i : ℕ) (pc : Call) (x : Waiter)

@[simp] theorem loopGoes_dev : (w.loopGoes t).dev = t.dev := by
  unfold loopGoes
  grind

@[simp] theorem loopGoes_client : (w.loopGoes t).client = t.client := by
  unfold loopGoes
  grind

@[simp] theorem loopGoes_apis : (w.loopGoes t).apis = w.apis := by
  unfold loopGoes
  grind

@[simp] theorem loopGoes_worker : (w.loopGoes t).worker = w.worker := by
  unfold loopGoes
  grind

@[simp] theorem loopGoes_results : (w.loopGoes t).results = w.results := by
  unfold loopGoes
  grind

@[simp] theorem loopGoes_calls : (w.loopGoes t).calls = w.calls := by
  unfold loopGoes
  grind

@[simp] theorem loopGoes_executor : (w.loopGoes t).executor = w.executor := by
  unfold loopGoes
  grind

@[simp] theorem loopGoes_registered : (w.loopGoes t).registered = w.registered := by
  unfold loopGoes
  grind

@[simp] theorem loopGoes_released : (w.loopGoes t).released = w.released := by
  unfold loopGoes
  grind

@[simp] theorem callGoes_dev : (w.callGoes i u).dev = u.dev := by
  unfold callGoes
  grind

@[simp] theorem callGoes_client : (w.callGoes i u).client = u.client := by
  unfold callGoes
  grind

@[simp] theorem callGoes_apis : (w.callGoes i u).apis = w.apis := by
  unfold callGoes
  grind

@[simp] theorem callGoes_worker : (w.callGoes i u).worker = w.worker := by
  unfold callGoes
  grind

@[simp] theorem callGoes_results : (w.callGoes i u).results = w.results := by
  unfold callGoes
  grind

@[simp] theorem callGoes_loop : (w.callGoes i u).loop = w.loop := by
  unfold callGoes
  grind

@[simp] theorem callGoes_registered : (w.callGoes i u).registered = w.registered := by
  unfold callGoes
  grind

@[simp] theorem callGoes_released : (w.callGoes i u).released = w.released := by
  unfold callGoes
  grind

@[simp] theorem newCall_dev : (w.newCall pc).dev = w.dev := by simp [newCall]

@[simp] theorem newCall_client : (w.newCall pc).client = w.client := by simp [newCall]

@[simp] theorem newCall_worker : (w.newCall pc).worker = w.worker := by simp [newCall]

@[simp] theorem newCall_results : (w.newCall pc).results = w.results := by simp [newCall]

@[simp] theorem newCall_loop : (w.newCall pc).loop = w.loop := by simp [newCall]

@[simp] theorem newCall_registered : (w.newCall pc).registered = w.registered := by
  simp [newCall]

@[simp] theorem newCall_released : (w.newCall pc).released = w.released := by simp [newCall]

@[simp] theorem dropApi_dev : w.dropApi.dev = { w.dev with api := none } := by
  unfold dropApi
  split
  · rename_i h
    rw [← h]
  · rfl

@[simp] theorem dropApi_client : w.dropApi.client = w.client := by unfold dropApi; split <;> rfl

@[simp] theorem dropApi_queue : w.dropApi.queue = w.queue := by unfold dropApi; split <;> rfl

@[simp] theorem dropApi_results : w.dropApi.results = w.results := by
  unfold dropApi; split <;> rfl

@[simp] theorem dropApi_loop : w.dropApi.loop = w.loop := by unfold dropApi; split <;> rfl

@[simp] theorem dropApi_calls : w.dropApi.calls = w.calls := by unfold dropApi; split <;> rfl

@[simp] theorem dropApi_executor : w.dropApi.executor = w.executor := by
  unfold dropApi; split <;> rfl

@[simp] theorem dropApi_registered : w.dropApi.registered = w.registered := by
  unfold dropApi; split <;> rfl

@[simp] theorem dropApi_released : w.dropApi.released = w.released := by
  unfold dropApi; split <;> rfl

end Frames

/-! ## Outstanding jobs -/

/-- Where `_run` goes, it submits what it awaits there. -/
theorem loopGoes_queue (w : World γ) (t : Turn γ Loop) :
    (w.loopGoes t).queue =
      w.queue ++ (w.loopGoes t).loop.awaits.toList.map fun job => (.loop, job) := by
  unfold loopGoes
  cases hjob : t.pc.awaits with
  | none => simp [hjob]
  | some job =>
      by_cases hexec : w.executor.accepts = true
      · simp [hexec, hjob]
      · simp [hexec, Loop.died, Loop.awaits]

/-- `_run` goes where its turn leads, or dies because the executor refuses its job. -/
theorem loopGoes_loop (w : World γ) (t : Turn γ Loop) :
    (w.loopGoes t).loop = t.pc ∨
      (w.loopGoes t).loop = .died .runtimeError ∧ w.executor.accepts = false := by
  unfold loopGoes
  cases t.pc.awaits with
  | none => exact Or.inl rfl
  | some job =>
      by_cases hexec : w.executor.accepts = true
      · exact Or.inl (by simp [hexec])
      · exact Or.inr ⟨by simp [hexec], Bool.eq_false_of_not_eq_true hexec⟩

/-- Where a call goes, it submits what it awaits there. -/
theorem callGoes_spec (w : World γ) (i : ℕ) (t : Turn γ Call) :
    ∃ pc, (w.callGoes i t).calls = w.calls.set i pc ∧
      (w.callGoes i t).queue = w.queue ++ pc.awaits.toList.map (fun job => (.call i, job)) ∧
      (pc = t.pc ∨ pc = .died t.pc.op .runtimeError ∧ w.executor.accepts = false) := by
  unfold callGoes
  cases hjob : t.pc.awaits with
  | none => exact ⟨t.pc, rfl, by simp [hjob], Or.inl rfl⟩
  | some job =>
      by_cases hexec : w.executor.accepts = true
      · exact ⟨t.pc, by simp [hexec], by simp [hexec, hjob], Or.inl rfl⟩
      · exact ⟨.died t.pc.op .runtimeError, by simp [hexec],
          by simp [hexec, Call.died, Call.awaits], Or.inr ⟨rfl, Bool.eq_false_of_not_eq_true hexec⟩⟩

/-- Where a new call goes, it submits what it awaits there. -/
theorem newCall_spec (w : World γ) (pc : Call) :
    ∃ pc', (w.newCall pc).calls = w.calls ++ [pc'] ∧
      (w.newCall pc).queue =
        w.queue ++ pc'.awaits.toList.map (fun job => (.call w.calls.length, job)) ∧
      (pc' = pc ∨ pc' = .died pc.op .runtimeError ∧ w.executor.accepts = false) := by
  obtain ⟨pc', hcalls, hqueue, hpc⟩ :=
    callGoes_spec { w with calls := w.calls ++ [pc] } w.calls.length ⟨w.dev, w.client, pc⟩
  exact ⟨pc', by simpa [newCall] using hcalls, hqueue, hpc⟩

end World

/-- The job the worker is at. -/
def Worker.current : Worker → List (Waiter × Job)
  | .idle => []
  | .listing x | .trying x _ _ | .asking x _ _ _ _ => [(x, .wOpen)]

namespace World

/-- All jobs whose results are not taken up yet, in the order they run. -/
def pending (w : World γ) : List (Waiter × Job) :=
  w.results.map (fun r => (r.waiter, r.job)) ++ (w.worker.current ++ w.queue)

/-- The job a coroutine awaits. -/
def awaits (w : World γ) : Waiter → Option Job
  | .loop => w.loop.awaits
  | .call i => w.calls[i]?.bind Call.awaits
  | .nobody => none

/-- The jobs of one coroutine are the one it awaits. -/
def TracksFor (w : World γ) (x : Waiter) : Prop := jobsOf x w.pending = (w.awaits x).toList

/-- Every coroutine has exactly the job outstanding that it awaits. -/
def Tracked (w : World γ) : Prop := ∀ x, x ≠ .nobody → w.TracksFor x

/-- A waiting result is of the job its coroutine awaits, which has no other.  So once it is taken
up, the coroutine has no job outstanding. -/
theorem Tracked.of_result {w : World γ} (hw : w.Tracked) {i : ℕ} {r : Result}
    (hr : w.results[i]? = some r) (hx : r.waiter ≠ .nobody) :
    w.awaits r.waiter = some r.job ∧
      jobsOf r.waiter { w with results := w.results.eraseIdx i }.pending = [] ∧
      ∀ y, y ≠ r.waiter →
        jobsOf y { w with results := w.results.eraseIdx i }.pending = jobsOf y w.pending := by
  have hlt : i < w.results.length := (List.getElem?_eq_some_iff.mp hr).1
  have hat : w.pending[i]? = some (r.waiter, r.job) := by
    rw [pending, List.getElem?_append_left (by simpa using hlt)]
    simp [hr]
  have herase : { w with results := w.results.eraseIdx i }.pending = w.pending.eraseIdx i := by
    simp only [pending]
    rw [List.eraseIdx_append_of_lt_length (by simpa using hlt), List.eraseIdx_map]
  rw [herase]
  have hmem : r.job ∈ jobsOf r.waiter w.pending :=
    mem_jobsOf.mpr (List.mem_of_getElem? hat)
  rw [hw r.waiter hx] at hmem
  have hawaits : w.awaits r.waiter = some r.job := by simpa using hmem
  have honly : jobsOf r.waiter w.pending = [r.job] := by
    rw [hw r.waiter hx, hawaits]
    rfl
  exact ⟨hawaits, (jobsOf_erase_self hat honly).2,
    fun y hy => jobsOf_erase_other hat (Ne.symm hy)⟩

/-- What is outstanding after a turn of `_run`: what was, and the job that it awaits now. -/
theorem pending_loopGoes (w : World γ) (t : Turn γ Loop) :
    (w.loopGoes t).pending =
      w.pending ++ (w.loopGoes t).loop.awaits.toList.map fun job => (.loop, job) := by
  simp [pending, loopGoes_queue]

/-- The job of a turn is the coroutine's own. -/
theorem jobsOf_own (x : Waiter) (job? : Option Job) :
    jobsOf x (job?.toList.map fun job => (x, job)) = job?.toList := by
  cases job? <;> simp

/-- The job of a turn is not one of any other coroutine. -/
theorem jobsOf_others {x y : Waiter} (h : y ≠ x) (job? : Option Job) :
    jobsOf x (job?.toList.map fun job => (y, job)) = [] := by
  cases job? with
  | none => rfl
  | some job => exact jobsOf_cons_other h job []

/-- Jobs that a coroutine waits for are attended. -/
theorem attended_map {x : Waiter} (hx : x ≠ .nobody) (jobs : List Job) :
    ∀ p ∈ jobs.map (fun job => (x, job)), p.1 ≠ .nobody := by
  intro p hp
  obtain ⟨_, _, rfl⟩ := List.mem_map.mp hp
  exact hx

/-- A turn of the background task keeps the jobs tracked.  It submits the job it goes on to await,
and had none outstanding. -/
theorem Tracked.loopGoes {w : World γ} (t : Turn γ Loop)
    (hothers : ∀ x, x ≠ .nobody → x ≠ .loop → w.TracksFor x)
    (hnone : jobsOf .loop w.pending = []) : (w.loopGoes t).Tracked := by
  intro x hx
  unfold TracksFor
  rw [pending_loopGoes, jobsOf_append]
  by_cases hloop : x = .loop
  · subst hloop
    rw [hnone, jobsOf_own]
    rfl
  · rw [jobsOf_others (Ne.symm hloop), List.append_nil, hothers x hx hloop]
    cases x with
    | loop => exact absurd rfl hloop
    | call n => simp [awaits]
    | nobody => rfl

/-- A turn of a call keeps the jobs tracked, in the same way.  A job that the executor refuses ends
the call instead. -/
theorem Tracked.callGoes {w : World γ} {i : ℕ} (t : Turn γ Call) (hi : i < w.calls.length)
    (hothers : ∀ x, x ≠ .nobody → x ≠ .call i → w.TracksFor x)
    (hnone : jobsOf (.call i) w.pending = []) : (w.callGoes i t).Tracked := by
  obtain ⟨pc, hcalls, hqueue, _⟩ := callGoes_spec w i t
  have hpending : (w.callGoes i t).pending =
      w.pending ++ pc.awaits.toList.map fun job => (.call i, job) := by
    simp [pending, hqueue]
  intro x hx
  unfold TracksFor
  rw [hpending, jobsOf_append]
  by_cases hcall : x = .call i
  · subst hcall
    rw [hnone, jobsOf_own]
    simp [awaits, hcalls, hi]
  · rw [jobsOf_others (Ne.symm hcall), List.append_nil, hothers x hx hcall]
    cases x with
    | loop => simp [awaits]
    | call n =>
        have hne : i ≠ n := fun h => hcall (by rw [h])
        simp [awaits, hcalls, List.getElem?_set_ne hne]
    | nobody => rfl

/-- A new call keeps the jobs tracked.  Its number is new, so no job was outstanding under it. -/
theorem Tracked.newCall {w : World γ} (hw : w.Tracked) (pc : Call) :
    (w.newCall pc).Tracked := by
  have hfresh : jobsOf (.call w.calls.length) w.pending = [] := by
    rw [hw _ (by simp)]
    simp [awaits]
  refine Tracked.callGoes _ (by simp) (fun x hx hcall => ?_) hfresh
  have hx' := hw x hx
  unfold TracksFor at hx' ⊢
  cases x with
  | loop => exact hx'
  | call n =>
      have hne : n ≠ w.calls.length := fun h => hcall (by rw [h])
      rw [show pending { w with calls := w.calls ++ [pc] } = w.pending from rfl, hx']
      simp only [awaits]
      by_cases hn : n < w.calls.length
      · rw [List.getElem?_append_left hn]
      · rw [List.getElem?_eq_none (by omega), List.getElem?_eq_none (by simp; omega)]
  | nobody => exact absurd rfl hx

/-- Only the jobs and the program counters matter. -/
theorem Tracked.congr {w w' : World γ} (hw : w.Tracked) (hpending : w'.pending = w.pending)
    (hloop : w'.loop.awaits = w.loop.awaits)
    (hcalls : ∀ i : ℕ, w'.calls[i]?.bind Call.awaits = w.calls[i]?.bind Call.awaits) :
    w'.Tracked := by
  intro x hx
  unfold TracksFor
  rw [hpending, hw x hx]
  cases x with
  | loop => simp [awaits, hloop]
  | call i => simp [awaits, hcalls]
  | nobody => rfl

/-- A coroutine that is cancelled leaves its job behind, where nobody waits for it any more. -/
theorem pending_abandon (x : Waiter) (w : World γ) :
    (w.abandon x).pending = relabel x .nobody w.pending := by
  have hworker : (w.abandon x).worker.current = relabel x .nobody w.worker.current := by
    unfold abandon
    cases w.worker <;> rfl
  unfold pending
  rw [relabel_append, relabel_append, hworker]
  simp [abandon, relabel]

/-- Cancelling a coroutine keeps the jobs tracked. -/
theorem Tracked.abandon {w w' : World γ} (hw : w.Tracked) (x : Waiter) (hx : x ≠ .nobody)
    (hpending : w'.pending = w.pending) (hnone : w'.awaits x = none)
    (hothers : ∀ y, y ≠ x → w'.awaits y = w.awaits y) : (w'.abandon x).Tracked := by
  intro y hy
  unfold TracksFor
  have hawaits : (w'.abandon x).awaits y = w'.awaits y := by
    cases y <;> rfl
  rw [pending_abandon, hawaits]
  by_cases hyx : y = x
  · subst hyx
    rw [jobsOf_relabel_self hx, hnone]
    rfl
  · rw [jobsOf_relabel_other hyx hy, hpending, hothers y hyx]
    exact hw y hy

/-! ### Steps keep the jobs tracked -/

/-- The background task goes on from a place where it awaits no job. -/
theorem Tracked.loopGoes_of_idle {w : World γ} (hw : w.Tracked) (t : Turn γ Loop)
    (hidle : w.loop.awaits = none) : (w.loopGoes t).Tracked := by
  refine Tracked.loopGoes t (fun x hx _ => hw x hx) ?_
  rw [hw .loop (by simp)]
  simp [awaits, hidle]

/-- Only a coroutine that awaits no job can be woken. -/
theorem loopWake_awaits {now : ℚ} {d : Device} {c : γ} {pc : Loop} {t : Turn γ Loop}
    (h : loopWake now d c pc = some t) : pc.awaits = none := by
  cases pc with
  | backingOff b => rfl
  | pausing b => rfl
  | _ => exact absurd h (by simp [loopWake])

/-- A call of the owner begins.  The first close also leaves the job of the background task to
nobody. -/
theorem Tracked.requested {w w' : World γ} {r : Request} (hw : w.Tracked)
    (h : RequestMove w r w') : w'.Tracked := by
  have hmarked : w.marked.Tracked := hw.congr rfl rfl fun _ => rfl
  cases h with
  | called => exact hw.newCall _
  | reconfigured =>
      refine Tracked.newCall ?_ _
      exact hw.congr rfl rfl fun _ => rfl
  | closeRaised => exact hmarked.newCall _
  | closeDrops => exact hmarked.newCall _
  | closeCancels =>
      refine Tracked.newCall ?_ _
      refine hmarked.abandon .loop (by simp) rfl rfl fun y hy => ?_
      cases y with
      | loop => exact absurd rfl hy
      | call i => rfl
      | nobody => rfl

/-- A result that nobody awaits is dropped. -/
theorem Tracked.forgotten {w : World γ} (hw : w.Tracked) {i : ℕ} {r : Result}
    (hr : w.results[i]? = some r) (hx : r.waiter = .nobody) :
    { w with results := w.results.eraseIdx i }.Tracked := by
  intro y hy
  have hlt : i < w.results.length := (List.getElem?_eq_some_iff.mp hr).1
  have hat : w.pending[i]? = some (.nobody, r.job) := by
    rw [pending, List.getElem?_append_left (by simpa using hlt)]
    simp [hr, hx]
  have herase : { w with results := w.results.eraseIdx i }.pending = w.pending.eraseIdx i := by
    simp only [pending]
    rw [List.eraseIdx_append_of_lt_length (by simpa using hlt), List.eraseIdx_map]
  unfold TracksFor
  rw [herase, jobsOf_erase_other hat (Ne.symm hy)]
  exact hw y hy

/-- Replacing a call that awaits no job by another such call. -/
theorem Tracked.set_call {w w' : World γ} (hw : w.Tracked) {i : ℕ} {pc pc' : Call}
    (hcall : w.calls[i]? = some pc) (hpc : pc.awaits = none) (hpc' : pc'.awaits = none)
    (hpending : w'.pending = w.pending) (hloop : w'.loop = w.loop)
    (hcalls : w'.calls = w.calls.set i pc') : w'.Tracked := by
  apply hw.congr hpending (by rw [hloop])
  intro n
  rw [hcalls]
  by_cases hn : i = n
  · subst hn
    rw [List.getElem?_set_self (List.getElem?_eq_some_iff.mp hcall).1, hcall]
    simp [hpc, hpc']
  · rw [List.getElem?_set_ne hn]

/-- A call is cancelled. -/
theorem Tracked.cancelled {w : World γ} (hw : w.Tracked) {i : ℕ} {pc : Call}
    (hcall : w.calls[i]? = some pc) :
    ({ w with calls := w.calls.set i (.done pc.op .cancelled) }.abandon (.call i)).Tracked := by
  have hlt : i < w.calls.length := (List.getElem?_eq_some_iff.mp hcall).1
  refine hw.abandon (.call i) (by simp) rfl ?_ fun y hy => ?_
  · simp [awaits, hlt, Call.awaits]
  · cases y with
    | loop => rfl
    | call n =>
        have hne : i ≠ n := fun h => hy (by rw [h])
        simp [awaits, List.getElem?_set_ne hne]
    | nobody => rfl

/-- Jobs stay tracked on the event loop.  Each case takes up a result, submits a job or leaves one
to nobody. -/
theorem Tracked.owner {w w' : World γ} {a : Action} (hw : w.Tracked)
    (h : OwnerMove cb w a w') : w'.Tracked := by
  cases h with
  | startedBefore => exact hw
  | started hloop => exact hw.congr rfl (by rw [hloop]; rfl) fun _ => rfl
  | begun hloop => exact hw.loopGoes_of_idle _ (by rw [hloop]; rfl)
  | woken _ ht => exact hw.loopGoes_of_idle _ (loopWake_awaits ht)
  | requested hmove => exact hw.requested hmove
  | loopResumed hr hx ht =>
      obtain ⟨_, hnone, hothers⟩ := hw.of_result hr (by rw [hx]; simp)
      rw [hx] at hnone hothers
      exact Tracked.loopGoes _ (fun x hx' hloop => (hothers x hloop).trans (hw x hx')) hnone
  | callResumed hr hx hpc ht =>
      obtain ⟨_, hnone, hothers⟩ := hw.of_result hr (by rw [hx]; simp)
      rw [hx] at hnone hothers
      exact Tracked.callGoes _ (List.getElem?_eq_some_iff.mp hpc).1
        (fun x hx' hcall => (hothers x hcall).trans (hw x hx')) hnone
  | forgotten hr hx => exact hw.forgotten hr hx
  | taskEnded hcall =>
      refine Tracked.callGoes _ (List.getElem?_eq_some_iff.mp hcall).1 (fun x hx _ => hw x hx) ?_
      rw [hw _ (by simp)]
      simp [awaits, hcall, Call.awaits]
  | cancelSuppressed => exact hw
  | shutdownCancelled hcall => exact hw.set_call hcall rfl rfl rfl rfl rfl
  | cancelled hcall => exact hw.cancelled hcall
  | shutdownBegun => exact hw.congr rfl rfl fun _ => rfl
  | shutdownFinished => exact hw.congr rfl rfl fun _ => rfl
  | keyReleased hcall => exact hw.set_call hcall rfl rfl rfl rfl rfl

/-- A step of the worker: the jobs outstanding and the coroutines are as before. -/
structure WorkerStep (w w' : World γ) : Prop where
  pending : w'.pending = w.pending
  loop : w'.loop = w.loop
  calls : w'.calls = w.calls

/-- Whatever the worker does, it changes neither what is outstanding nor who waits for it. -/
theorem WorkerStep.tracked {w w' : World γ} (h : WorkerStep w w') (hw : w.Tracked) :
    w'.Tracked :=
  hw.congr h.pending (by rw [h.loop]) fun i => by rw [h.calls]

/-- Posting the result of the worker's job. -/
theorem post_workerStep {w w' : World γ} {x : Waiter} {value : JobValue}
    (hworker : w.worker.current = [(x, .wOpen)]) (hqueue : w'.queue = w.queue)
    (hresults : w'.results = w.results) (hloop : w'.loop = w.loop)
    (hcalls : w'.calls = w.calls) : WorkerStep w (w'.post x .wOpen value) := by
  refine ⟨?_, hloop, hcalls⟩
  have hidle : (w'.post x .wOpen value).worker.current = [] := rfl
  rw [World.pending, World.pending, hworker, hidle]
  simp [post, hqueue, hresults]

/-- Posting the result of a job that runs at once. -/
theorem run_workerStep {w w' : World γ} {x : Waiter} {job : Job} {value : JobValue}
    {rest : List (Waiter × Job)} (hworker : w.worker = .idle)
    (hqueue : w.queue = (x, job) :: rest) (hrest : w'.queue = rest)
    (hresults : w'.results = w.results) (hloop : w'.loop = w.loop)
    (hcalls : w'.calls = w.calls) : WorkerStep w (w'.post x job value) := by
  refine ⟨?_, hloop, hcalls⟩
  have hidle : (w'.post x job value).worker.current = [] := rfl
  rw [World.pending, World.pending, hworker, hidle, hqueue]
  simp [post, hrest, hresults, Worker.current]

/-- **The worker** keeps all jobs outstanding, unless it passes over a cancelled one.  What it has
run is a result that waits to be taken up. -/
theorem WorkerMove.workerStep {w w' : World γ} {a : Action} (h : WorkerMove w a w')
    (hskip : a ≠ .skip) : WorkerStep w w' := by
  cases h with
  | took hworker hqueue =>
      exact ⟨by simp [World.pending, hworker, hqueue, Worker.current], by simp, by simp⟩
  | listed hworker => exact ⟨by simp [World.pending, hworker, Worker.current], rfl, rfl⟩
  | noneLeft hworker => exact post_workerStep (by rw [hworker]; rfl) rfl rfl rfl rfl
  | foundClosed hworker => exact post_workerStep (by rw [hworker]; rfl) rfl rfl rfl rfl
  | createFailed hworker => exact post_workerStep (by rw [hworker]; rfl) rfl rfl rfl rfl
  | created hworker => exact ⟨by simp [World.pending, hworker, Worker.current], rfl, rfl⟩
  | statusRaised hworker => exact post_workerStep (by rw [hworker]; rfl) rfl rfl rfl rfl
  | opened hworker => exact post_workerStep (by rw [hworker]; rfl) rfl rfl rfl rfl
  | closeRaised hworker => exact post_workerStep (by rw [hworker]; rfl) rfl rfl rfl rfl
  | unreachable hworker => exact post_workerStep (by rw [hworker]; rfl) rfl rfl rfl rfl
  | nextVersion hworker =>
      exact ⟨by simp [World.pending, hworker, Worker.current, setSocket], rfl, rfl⟩
  | dropped hworker hqueue =>
      exact run_workerStep hworker hqueue (by simp) (by simp) (by simp) (by simp)
  | notHeld hworker hqueue => exact run_workerStep hworker hqueue rfl rfl rfl rfl
  | callRaised hworker hqueue => exact run_workerStep hworker hqueue rfl rfl rfl rfl
  | callReturned hworker hqueue => exact run_workerStep hworker hqueue rfl rfl rfl rfl
  | skipped => exact absurd rfl hskip

/-- The worker's notes change neither the connection nor `available`. -/
theorem noteTimes_same (c : LibraryCall) (reply : Reply) (now : ℚ) (dev : Device) :
    (noteTimes c reply now dev).api = dev.api ∧
      (noteTimes c reply now dev).available = dev.available := by
  cases c with
  | receive => unfold noteTimes; dsimp only; split <;> exact ⟨rfl, rfl⟩
  | _ => exact ⟨rfl, rfl⟩

/-- A job that was cancelled before it ran is passed over. -/
theorem Tracked.skipped {w : World γ} (hw : w.Tracked) {job : Job} {rest : List (Waiter × Job)}
    (hworker : w.worker = .idle) (hqueue : w.queue = (.nobody, job) :: rest) :
    { w with queue := rest }.Tracked := by
  intro x hx
  have hx' := hw x hx
  unfold TracksFor World.pending at hx' ⊢
  simp only [hworker, hqueue, Worker.current, List.nil_append, jobsOf_append] at hx' ⊢
  rw [jobsOf_cons_other (Ne.symm hx)] at hx'
  exact hx'

/-- **Jobs stay tracked** in every step of the system. -/
theorem Tracked.step {w w' : World γ} {a : Action} (hw : w.Tracked)
    (h : w.step cb a = some w') : w'.Tracked := by
  rcases step_moves h with hmove | hmove
  · by_cases hskip : a = .skip
    · subst hskip
      cases hmove with
      | skipped hworker hqueue => exact hw.skipped hworker hqueue
    · exact (hmove.workerStep hskip).tracked hw
  · exact hw.owner hmove

/-- A new device has no jobs. -/
theorem Tracked.init (config : DeviceConfig) (timings : Timings) (hint : Option PyStr)
    (client : γ) : (World.init config timings hint client).Tracked := by
  intro x _
  cases x <;> rfl

end World

end Lan
