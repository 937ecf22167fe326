import HaBirdie.LanSettings
import HaBirdie.LanTurns

/-!
# The results of the worker in order

The worker runs its jobs first in, first out, and each ends with one result.  `Logged` is a
device together with all results in the order in which the worker posted them.

Where coroutines are resumed in that order and none is cancelled (`InOrder`), the results that
wait are the end of the log, and all in front of them were handled, one after the other:

* `flow` — a step is one of the worker, the handling of the result that waits longest, or
  leaves the results alone;
* `Logged.invariant` — what holds of the handled results and the device at first, and is kept
  by these three, holds after every run.
-/

namespace Lan

open Python JobTracking StepRuns

variable {γ : Type} {cb : Callbacks γ}

/-- Calls are not cancelled, and the result that waits longest is handled first. -/
def Action.inTurn : Action → Prop
  | .cancel _ => False
  | .resume i _ => i = 0
  | _ => True

namespace World

/-- The assumptions on a step: library calls return, the device is not closed, waiters are resumed
in worker order and calls are not cancelled. -/
def InOrder (w : World γ) (a : Action) : Prop := w.Returning a ∧ a.inTurn

instance (a : Action) : Decidable a.inTurn :=
  match a with
  | .cancel _ => isFalse id
  | .resume i _ => inferInstanceAs (Decidable (i = 0))
  | .start | .begin _ | .wakeUp _ | .timeout _ | .request _ | .taskEnded _ | .take
  | .listVersions | .tryVersion _ | .answer _ _ | .work _ _ | .skip | .beginShutdown
  | .finishShutdown | .shutdownDone _ => isTrue trivial

instance (w : World γ) (a : Action) : Decidable (w.InOrder a) :=
  inferInstanceAs (Decidable (w.Returning a ∧ a.inTurn))

/-- What the worker has read of the status: the DPs, or that the connection is lost. -/
def StatusRead : JobValue → Prop
  | .dps _ | .raised (.lan (.connectionLost _)) => True
  | _ => False

/-- The invariant of a device whose results are handled in order. -/
structure Orderly (w : World γ) : Prop where
  tracked : w.Tracked
  noClose : ∀ c ∈ w.calls, c.op ≠ .close
  accepting : w.executor = .accepting
  attended : ∀ p ∈ w.pending, p.1 ≠ .nobody
  statuses : ∀ r ∈ w.results, r.job = .wCall .status → StatusRead r.value

/-- A device just created has nothing to take up. -/
theorem Orderly.init (config : DeviceConfig) (timings : Timings) (hint : Option PyStr)
    (client : γ) : (World.init config timings hint client).Orderly where
  tracked := Tracked.init config timings hint client
  noClose := by simp [World.init]
  accepting := rfl
  attended := by simp [World.init, World.pending, Worker.current]
  statuses := by simp [World.init]

/-! ## What a step does to the results -/

/-- The coroutine that awaits the result `r` takes it up and goes on. -/
inductive Took (cb : Callbacks γ) (now : ℚ) (w : World γ) (r : Result) (rest : List Result) :
    World γ → Prop
  | byLoop {t : Turn γ Loop} (hx : r.waiter = .loop)
      (ht : loopResume cb now w.dev w.client w.loop r.value = some t) :
      Took cb now w r rest ({ w with results := rest }.loopGoes t)
  | byCall {n : Nat} {pc : Call} {t : Turn γ Call} (hx : r.waiter = .call n)
      (hpc : w.calls[n]? = some pc)
      (ht : callResume cb now w.dev w.client pc r.value = some t) :
      Took cb now w r rest ({ w with results := rest }.callGoes n t)

/-- A step on the event loop that takes up no result. -/
inductive Quiet (w : World γ) : World γ → Prop
  | stayed : Quiet w w
  | started (hloop : w.loop = .notStarted) : Quiet w { w with loop := .ready }
  | went {now backoff : ℚ} (hidle : w.loop.awaits = none) :
      Quiet w (w.loopGoes (loopTop now backoff w.dev w.client))
  | called {pc : Call} (hop : pc.op ≠ .close) : Quiet w (w.newCall pc)
  | reconfigured (config : DeviceConfig) (registered released : List PyStr) :
      Quiet w ({ w with dev := { w.dev with config }, registered, released }.newCall
        .reconfiguring)

/-- A step of a device whose results are handled in order. -/
inductive Flow (cb : Callbacks γ) (w : World γ) (a : Action) : World γ → Prop
  | worked {w' : World γ} (hmove : WorkerMove w a w') (hskip : a ≠ .skip) : Flow cb w a w'
  | took {now : ℚ} {r : Result} {rest : List Result} {w' : World γ} (ha : a = .resume 0 now)
      (hresults : w.results = r :: rest) (htook : Took cb now w r rest w') : Flow cb w a w'
  | quiet {w' : World γ} (hquiet : Quiet w w') : Flow cb w a w'

/-- Somebody awaits every result. -/
theorem Orderly.attends {w : World γ} (hw : w.Orderly) {r : Result} (hr : r ∈ w.results) :
    r.waiter ≠ .nobody :=
  hw.attended (r.waiter, r.job)
    (List.mem_append_left _ (List.mem_map_of_mem (f := fun r => (r.waiter, r.job)) hr))

/-- A device whose jobs are all attended skips none. -/
theorem Orderly.not_skipped {w w' : World γ} {a : Action} (hw : w.Orderly)
    (h : WorkerMove w a w') : a ≠ .skip := by
  rintro rfl
  cases h with
  | @skipped job _ _ hqueue => exact hw.attended (.nobody, job) (by simp [pending, hqueue]) rfl

/-- Taking the first of a list away leaves the rest. -/
theorem head_erased {α : Type} {l : List α} {a : α} (h : l[0]? = some a) :
    ∃ rest, l = a :: rest ∧ l.eraseIdx 0 = rest := by
  cases l with
  | nil => exact absurd h (by simp)
  | cons b rest =>
      obtain rfl := Option.some.inj h
      exact ⟨rest, rfl, rfl⟩

/-- **The steps** of a device whose results are handled in order.  A coroutine takes up the first
result, and no other is passed over. -/
theorem Orderly.flow {w w' : World γ} {a : Action} (hw : w.Orderly) (hok : w.InOrder a)
    (h : w.step cb a = some w') : Flow cb w a w' := by
  have hopen : ∀ {i : Nat} {pc : Call}, w.calls[i]? = some pc → pc.op ≠ .close :=
    fun hcall => hw.noClose _ (List.mem_of_getElem? hcall)
  rcases step_moves h with hmove | hmove
  · exact .worked hmove (hw.not_skipped hmove)
  · cases hmove with
    | startedBefore => exact .quiet .stayed
    | started hloop => exact .quiet (.started hloop)
    | begun hloop => exact .quiet (.went (by rw [hloop]; rfl))
    | woken _ ht =>
        obtain ⟨backoff, rfl⟩ := loopWake_top ht
        exact .quiet (.went (loopWake_awaits ht))
    | @requested r _ hmove =>
        cases hmove with
        | called hop =>
            refine .quiet (.called ?_)
            rw [hop]
            cases r with
            | close => exact absurd hok.1 id
            | _ => simp [Request.op]
        | reconfigured => exact .quiet (.reconfigured _ _ _)
        | closeRaised => exact absurd hok.1 id
        | closeDrops => exact absurd hok.1 id
        | closeCancels => exact absurd hok.1 id
    | loopResumed hr hx ht =>
        obtain rfl := hok.2
        obtain ⟨rest, hresults, herase⟩ := head_erased hr
        rw [herase]
        exact .took rfl hresults (.byLoop hx ht)
    | callResumed hr hx hpc ht =>
        obtain rfl := hok.2
        obtain ⟨rest, hresults, herase⟩ := head_erased hr
        rw [herase]
        exact .took rfl hresults (.byCall hx hpc ht)
    | forgotten hr hx =>
        obtain rfl := hok.2
        obtain ⟨rest, hresults, _⟩ := head_erased hr
        exact absurd hx (hw.attends (by rw [hresults]; exact List.mem_cons_self))
    | taskEnded hcall => exact absurd rfl (hopen hcall)
    | cancelSuppressed => exact absurd hok.2 id
    | shutdownCancelled => exact absurd hok.2 id
    | cancelled => exact absurd hok.2 id
    | shutdownBegun hexec => exact absurd (hw.accepting.symm.trans hexec) (by simp)
    | shutdownFinished hexec => exact absurd (hw.accepting.symm.trans hexec) (by simp)
    | keyReleased hcall => exact absurd rfl (hopen hcall)

/-! ## The invariant of one step -/

/-- A step on the event loop after which the results in `results` still wait: jobs are only added
behind the others, and somebody awaits them. -/
structure Submits (w : World γ) (results : List Result) (w' : World γ) : Prop where
  results : w'.results = results
  worker : w'.worker = w.worker
  api : w'.dev.api = w.dev.api
  queue : ∃ (x : Waiter) (jobs : List Job), x ≠ .nobody ∧
    w'.queue = w.queue ++ jobs.map fun job => (x, job)

/-- Taking up a result. -/
theorem Took.submits {w w' : World γ} {now : ℚ} {r : Result} {rest : List Result}
    (h : Took cb now w r rest w') : w.Submits rest w' := by
  cases h with
  | byLoop _ ht =>
      obtain ⟨job, hjob⟩ := loopResume_awaits ht
      refine ⟨by simp, by simp, by simpa using (loopResume_turned hjob ht).same.api, .loop, _,
        by simp, loopGoes_queue _ _⟩
  | @byCall n _ _ _ _ ht =>
      obtain ⟨pc, _, hqueue, _⟩ := callGoes_spec { w with results := rest } n _
      exact ⟨by simp, by simp, by simpa using (callResume_same ht).1.api, .call n, _, by simp,
        hqueue⟩

/-- A new call submits its job after all others. -/
theorem newCall_submits (w : World γ) (pc : Call) : w.Submits w.results (w.newCall pc) := by
  obtain ⟨pc', _, hqueue, _⟩ := newCall_spec w pc
  exact ⟨by simp, by simp, by simp, .call w.calls.length, _, by simp, hqueue⟩

/-- Going on otherwise. -/
theorem Quiet.submits {w w' : World γ} (h : Quiet w w') : w.Submits w.results w' := by
  cases h with
  | stayed => exact ⟨rfl, rfl, rfl, .loop, [], by simp, by simp⟩
  | started => exact ⟨rfl, rfl, rfl, .loop, [], by simp, by simp⟩
  | went =>
      exact ⟨by simp, by simp, by simpa using (loopTop_turned _ _ w.dev w.client).same.api, .loop,
        _, by simp, loopGoes_queue _ _⟩
  | called => exact newCall_submits w _
  | reconfigured config registered released =>
      have h := newCall_submits
        { w with dev := { w.dev with config }, registered, released } .reconfiguring
      exact ⟨h.results, h.worker, h.api, h.queue⟩

/-- Whatever is submitted is waited for. -/
theorem Submits.attended {w w' : World γ} {results : List Result} (h : w.Submits results w')
    (hresults : ∀ r ∈ results, r ∈ w.results) (hw : ∀ p ∈ w.pending, p.1 ≠ .nobody) :
    ∀ p ∈ w'.pending, p.1 ≠ .nobody := by
  obtain ⟨x, jobs, hx, hqueue⟩ := h.queue
  intro p hp
  rw [pending, h.results, h.worker, hqueue] at hp
  rcases List.mem_append.mp hp with hp | hp
  · obtain ⟨r, hr, rfl⟩ := List.mem_map.mp hp
    exact hw _ (List.mem_append_left _ (List.mem_map_of_mem (hresults r hr)))
  · rw [← List.append_assoc] at hp
    rcases List.mem_append.mp hp with hp | hp
    · exact hw p (List.mem_append_right _ hp)
    · exact attended_map hx jobs p hp

/-- What the worker reads of the status is a status or a loss. -/
theorem libraryValue_status (reply : Reply) (result : Json) :
    StatusRead (libraryValue .status reply result) := by
  unfold libraryValue
  dsimp only
  split <;> trivial

/-- The worker posts at the end, and what it posts of the status is a status or a loss.  Other jobs
post other kinds of results. -/
theorem WorkerMove.posted {w w' : World γ} {a : Action} (h : WorkerMove w a w') :
    ∃ new, w'.results = w.results ++ new ∧
      ∀ r ∈ new, r.job = .wCall .status → w.Returning a → StatusRead r.value := by
  have hother : ∀ {x : Waiter} {job : Job} {value : JobValue}, job ≠ .wCall .status →
      ∀ r ∈ [Result.mk x job value], r.job = .wCall .status → w.Returning a →
        StatusRead r.value := by
    intro x job value hjob r hr hstatus
    obtain rfl := List.mem_singleton.mp hr
    exact absurd hstatus hjob
  cases h with
  | took => exact ⟨[], by simp, by simp⟩
  | listed => exact ⟨[], by simp, by simp⟩
  | created => exact ⟨[], by simp, by simp⟩
  | nextVersion => exact ⟨[], by simp [setSocket], by simp⟩
  | skipped => exact ⟨[], by simp, by simp⟩
  | @dropped _ _ x => exact ⟨[⟨x, .wDrop, .done⟩], by simp [post], hother (by simp)⟩
  | notHeld =>
      refine ⟨[_], rfl, fun r hr _ _ => ?_⟩
      obtain rfl := List.mem_singleton.mp hr
      trivial
  | callRaised _ _ _ hreply =>
      refine ⟨[_], rfl, fun r hr _ hok => ?_⟩
      exact absurd hreply (Reply.not_raised hok)
  | @callReturned reply _ _ _ _ _ result =>
      refine ⟨[_], rfl, fun r hr hjob _ => ?_⟩
      obtain rfl := List.mem_singleton.mp hr
      obtain rfl := Job.wCall.inj hjob
      exact libraryValue_status reply result
  | _ => exact ⟨[_], rfl, hother (by simp)⟩

/-- **One step** of a device whose results are handled in order.  None is left to nobody, since no
call is cancelled. -/
theorem Orderly.step {w w' : World γ} {a : Action} (hw : w.Orderly) (hok : w.InOrder a)
    (h : w.step cb a = some w') : w'.Orderly := by
  have hclose : a ≠ .request .close := by
    rintro rfl
    exact hok.1
  refine
    { tracked := hw.tracked.step h, noClose := no_close_step h hclose hw.noClose,
      accepting := ?accepting, attended := ?attended, statuses := ?statuses }
  case accepting =>
    apply accepting_step h hw.accepting
    intro c hc
    rintro rfl
    exact hw.noClose _ hc rfl
  case attended =>
    cases hw.flow hok h with
    | worked hmove hskip =>
        rw [(hmove.workerStep hskip).pending]
        exact hw.attended
    | took _ hresults htook =>
        refine htook.submits.attended (fun r hr => ?_) hw.attended
        rw [hresults]
        exact List.mem_cons_of_mem _ hr
    | quiet hquiet => exact hquiet.submits.attended (fun _ => id) hw.attended
  case statuses =>
    intro r hr hjob
    cases hw.flow hok h with
    | worked hmove =>
        obtain ⟨new, hnew, hread⟩ := hmove.posted
        rw [hnew] at hr
        rcases List.mem_append.mp hr with hr | hr
        · exact hw.statuses r hr hjob
        · exact hread r hr hjob hok.1
    | took _ hresults htook =>
        rw [htook.submits.results] at hr
        refine hw.statuses r ?_ hjob
        rw [hresults]
        exact List.mem_cons_of_mem _ hr
    | quiet hquiet =>
        rw [hquiet.submits.results] at hr
        exact hw.statuses r hr hjob

end World

/-! ## The log -/

/-- A device with the results of all jobs, in the order in which the worker ran them. -/
structure Logged (γ : Type) where
  world : World γ
  log : List Result := []

namespace Logged

/-- A step appends to the log what the worker posts. -/
def step (cb : Callbacks γ) (s : Logged γ) (a : Action) : Option (Logged γ) :=
  (s.world.step cb a).map fun w => ⟨w, s.log ++ w.results.drop s.world.results.length⟩

/-- A new device. -/
def init (config : DeviceConfig) (timings : Timings) (hint : Option PyStr) (client : γ) :
    Logged γ where
  world := .init config timings hint client

/-- **Invariant rule for results handled in order.**  Let `P` hold of the handled results and the
device at first, be kept by the worker and by steps that take up no result, and hold with one
more handled result after it is taken up.  Then after every run the results that wait are the
end of the log, and `P` holds of those in front of them. -/
theorem invariant {ok : World γ → Action → Prop} (hin : ∀ w a, ok w a → w.InOrder a)
    (P : List Result → World γ → Prop) {config : DeviceConfig} {timings : Timings}
    {hint : Option PyStr} {client : γ} (hinit : P [] (.init config timings hint client))
    (hworked : ∀ handled (w w' : World γ) a, w.Orderly → P handled w → World.WorkerMove w a w' →
      a ≠ .skip → w.InOrder a → P handled w')
    (htook : ∀ handled (w w' : World γ) r rest now, w.Orderly → P handled w →
      w.results = r :: rest → ok w (.resume 0 now) → World.Took cb now w r rest w' →
      P (handled ++ [r]) w')
    (hquiet : ∀ handled (w w' : World γ), w.Orderly → P handled w → World.Quiet w w' →
      P handled w')
    {as : List Action} {s : Logged γ}
    (hrun : Run (step cb) (fun s a => ok s.world a) (init config timings hint client) as s) :
    s.world.Orderly ∧ ∃ handled, s.log = handled ++ s.world.results ∧ P handled s.world := by
  refine hrun.invariant (fun s : Logged γ => s.world.Orderly ∧
    ∃ handled, s.log = handled ++ s.world.results ∧ P handled s.world) ?_
    ⟨World.Orderly.init config timings hint client, [], rfl, hinit⟩
  rintro s a s' ⟨hw, handled, hlog, hP⟩ hok hstep
  obtain ⟨w', h, rfl⟩ := Option.map_eq_some_iff.mp hstep
  refine ⟨hw.step (hin _ _ hok) h, ?_⟩
  dsimp only
  cases hw.flow (hin _ _ hok) h with
  | worked hmove hskip =>
      obtain ⟨new, hnew, _⟩ := hmove.posted
      refine ⟨handled, ?_, hworked _ _ _ _ hw hP hmove hskip (hin _ _ hok)⟩
      rw [hnew, hlog, List.drop_left, List.append_assoc]
  | @took now r rest _ ha hresults htaken =>
      rw [ha] at hok
      refine ⟨handled ++ [r], ?_, htook _ _ _ _ _ _ hw hP hresults hok htaken⟩
      rw [htaken.submits.results, hlog, hresults]
      simp
  | quiet hq =>
      refine ⟨handled, ?_, hquiet _ _ _ hw hP hq⟩
      rw [hq.submits.results, hlog]
      simp

end Logged

end Lan
