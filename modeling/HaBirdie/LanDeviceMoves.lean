import HaBirdie.LanDeviceRuns

/-!
# What one step of the LAN client does

The step function branch by branch, each with its guards, so that no proof about steps has to
unfold it:

* `WorkerMove` — the worker thread takes a job, goes on with it or posts its result;
* `RequestMove` — a call of the owner begins;
* `OwnerMove` — everything else on the event loop: turns of `_run` and of the calls, the end
  of the background task, cancellation, and the shutdown of the executor.

`worker_moves`, `request_moves` and `owner_moves` say that these are all.
-/

namespace Lan

open Python

variable {γ : Type} {cb : Callbacks γ}

/-- The actions of the worker thread. -/
def Action.isWorker : Action → Bool
  | .take | .listVersions | .tryVersion _ | .answer _ _ | .work _ _ | .skip => true
  | _ => false

/-- The operation a request starts. -/
def Request.op : Request → Operation
  | .connect => .connect
  | .refresh => .refresh
  | .setDps _ => .setDps
  | .reconfigure _ => .reconfigure
  | .close => .close

def Call.isDone : Call → Bool
  | .done _ _ => true
  | _ => false

/-- The background task ended with an exception. -/
def Loop.hasRaised : Loop → Bool
  | .ended (.raised _) => true
  | _ => false

namespace World

/-! ## The worker -/

/-- A step of the worker. -/
inductive WorkerMove (w : World γ) : Action → World γ → Prop
  | took {x : Waiter} {rest : List (Waiter × Job)} (hworker : w.worker = .idle)
      (hqueue : w.queue = (x, .wOpen) :: rest) :
      WorkerMove w .take { { w with queue := rest }.dropApi with worker := .listing x }
  | listed {x : Waiter} (hworker : w.worker = .listing x) :
      WorkerMove w .listVersions { w with worker := .trying x (versionsToTry w.dev) [] }
  | noneLeft {failure : Option PyException} {x : Waiter} {errors : List LanError}
      (hworker : w.worker = .trying x [] errors) :
      WorkerMove w (.tryVersion failure) (w.post x .wOpen (.raised (.lan (openRaises errors))))
  | foundClosed {failure : Option PyException} {x : Waiter} {version : PyStr}
      {rest : List PyStr} {errors : List LanError}
      (hworker : w.worker = .trying x (version :: rest) errors) (hclosed : w.dev.closed = true) :
      WorkerMove w (.tryVersion failure)
        (w.post x .wOpen (.raised (.lan (.unreachable .connectionIsClosed))))
  | createFailed {e : PyException} {x : Waiter} {version : PyStr} {rest : List PyStr}
      {errors : List LanError} (hworker : w.worker = .trying x (version :: rest) errors)
      (hopen : w.dev.closed = false) :
      WorkerMove w (.tryVersion (some e)) (w.post x .wOpen (.raised (.foreign e)))
  | created {x : Waiter} {version : PyStr} {rest : List PyStr} {errors : List LanError}
      (hworker : w.worker = .trying x (version :: rest) errors) (hopen : w.dev.closed = false) :
      WorkerMove w (.tryVersion none)
        { w with
          apis := w.apis ++ [World.newApi w.dev version]
          worker := .asking x w.apis.length version rest errors }
  | statusRaised {reply : Reply} {closeFailure : Option PyException} {x : Waiter} {id : Nat}
      {version : PyStr} {rest : List PyStr} {errors : List LanError} {e : PyException}
      (hworker : w.worker = .asking x id version rest errors)
      (hreply : reply.outcome = .error e) :
      WorkerMove w (.answer reply closeFailure)
        ((w.setSocket id reply.socket).post x .wOpen (.raised (.foreign e)))
  | opened {reply : Reply} {closeFailure : Option PyException} {x : Waiter} {id : Nat}
      {version : PyStr} {rest : List PyStr} {errors : List LanError} {result : Json}
      {dps : PyDict} (hworker : w.worker = .asking x id version rest errors)
      (hreply : reply.outcome = .ok result) (hdps : dpsOf result = some dps)
      (hsocket : reply.socket = true) :
      WorkerMove w (.answer reply closeFailure)
        ({ w.setSocket id true with dev := { w.dev with api := some id } }.post x .wOpen
          (.opened version dps))
  | closeRaised {reply : Reply} {x : Waiter} {id : Nat} {version : PyStr} {rest : List PyStr}
      {errors : List LanError} {result : Json} {e : PyException}
      (hworker : w.worker = .asking x id version rest errors)
      (hreply : reply.outcome = .ok result) :
      WorkerMove w (.answer reply (some e))
        (((w.setSocket id reply.socket).setSocket id false).post x .wOpen (.raised (.foreign e)))
  | unreachable {reply : Reply} {x : Waiter} {id : Nat} {version : PyStr} {rest : List PyStr}
      {errors : List LanError} {result : Json}
      (hworker : w.worker = .asking x id version rest errors)
      (hreply : reply.outcome = .ok result)
      (hcode : codeIn (errorCode result) unreachableErrors = true) :
      WorkerMove w (.answer reply none)
        (((w.setSocket id reply.socket).setSocket id false).post x .wOpen
          (.raised (.lan (openError (errorCode result) version))))
  | nextVersion {reply : Reply} {x : Waiter} {id : Nat} {version : PyStr} {rest : List PyStr}
      {errors : List LanError} {result : Json}
      (hworker : w.worker = .asking x id version rest errors)
      (hreply : reply.outcome = .ok result)
      (hcode : codeIn (errorCode result) unreachableErrors = false) :
      WorkerMove w (.answer reply none)
        { (w.setSocket id reply.socket).setSocket id false with
          worker := .trying x rest (errors ++ [openError (errorCode result) version]) }
  | dropped {reply : Reply} {now : ℚ} {x : Waiter} {rest : List (Waiter × Job)}
      (hworker : w.worker = .idle) (hqueue : w.queue = (x, .wDrop) :: rest) :
      WorkerMove w (.work reply now) ({ w with queue := rest }.dropApi.post x .wDrop .done)
  | notHeld {reply : Reply} {now : ℚ} {x : Waiter} {c : LibraryCall}
      {rest : List (Waiter × Job)} (hworker : w.worker = .idle)
      (hqueue : w.queue = (x, .wCall c) :: rest) (hheld : w.heldApi = none) :
      WorkerMove w (.work reply now)
        ({ w with queue := rest }.post x (.wCall c)
          (.raised (.lan (.connectionLost .notConnected))))
  | callRaised {reply : Reply} {now : ℚ} {x : Waiter} {c : LibraryCall}
      {rest : List (Waiter × Job)} {id : Nat} {e : PyException} (hworker : w.worker = .idle)
      (hqueue : w.queue = (x, .wCall c) :: rest) (hheld : w.heldApi = some id)
      (hreply : reply.outcome = .error e) :
      WorkerMove w (.work reply now)
        (({ w with queue := rest }.setSocket id reply.socket).post x (.wCall c)
          (.raised (.foreign e)))
  | callReturned {reply : Reply} {now : ℚ} {x : Waiter} {c : LibraryCall}
      {rest : List (Waiter × Job)} {id : Nat} {result : Json} (hworker : w.worker = .idle)
      (hqueue : w.queue = (x, .wCall c) :: rest) (hheld : w.heldApi = some id)
      (hreply : reply.outcome = .ok result) :
      WorkerMove w (.work reply now)
        ({ { w with queue := rest }.setSocket id reply.socket with
            dev := noteTimes c reply now w.dev }.post x (.wCall c) (libraryValue c reply result))
  | skipped {job : Job} {rest : List (Waiter × Job)} (hworker : w.worker = .idle)
      (hqueue : w.queue = (.nobody, job) :: rest) :
      WorkerMove w .skip { w with queue := rest }

/-- What trying the next version comes to: a connection to ask, a failure of the library, or the
end of the open. -/
theorem tryVersion_moves {w w' : World γ} {failure : Option PyException}
    (h : w.tryVersion failure = some w') : WorkerMove w (.tryVersion failure) w' := by
  unfold World.tryVersion at h
  split at h
  · rename_i hworker
    obtain rfl := Option.some.inj h
    exact .noneLeft hworker
  · rename_i hworker
    split at h
    · rename_i hclosed
      obtain rfl := Option.some.inj h
      exact .foundClosed hworker hclosed
    · rename_i hclosed
      have hopen : w.dev.closed = false := Bool.eq_false_of_not_eq_true hclosed
      split at h
      · obtain rfl := Option.some.inj h
        exact .createFailed hworker hopen
      · obtain rfl := Option.some.inj h
        exact .created hworker hopen
  · exact absurd h (by simp)

/-- What the answer to an open comes to.  The connection is held, or it is closed and the next
version is tried or the open raises. -/
theorem answer_moves {w w' : World γ} {reply : Reply} {closeFailure : Option PyException}
    (h : w.answer reply closeFailure = some w') :
    WorkerMove w (.answer reply closeFailure) w' := by
  unfold World.answer at h
  split at h
  · rename_i hworker
    dsimp only at h
    split at h
    · rename_i hreply
      obtain rfl := Option.some.inj h
      exact .statusRaised hworker hreply
    · rename_i result hreply
      split at h
      · rename_i hdps hsocket
        obtain rfl := Option.some.inj h
        rw [hsocket]
        exact .opened hworker hreply hdps hsocket
      · split at h
        · obtain rfl := Option.some.inj h
          exact .closeRaised hworker hreply
        · split at h
          · rename_i hcode
            obtain rfl := Option.some.inj h
            exact .unreachable hworker hreply hcode
          · rename_i hcode
            obtain rfl := Option.some.inj h
            exact .nextVersion hworker hreply (Bool.eq_false_of_not_eq_true hcode)
  · exact absurd h (by simp)

/-- What running a job other than an open comes to: its result, or nothing if nobody holds a
connection. -/
theorem work_moves {w w' : World γ} {reply : Reply} {now : ℚ}
    (h : w.work reply now = some w') : WorkerMove w (.work reply now) w' := by
  unfold World.work at h
  split at h
  · rename_i hworker hqueue
    obtain rfl := Option.some.inj h
    exact .dropped hworker hqueue
  · rename_i hworker hqueue
    dsimp only at h
    split at h
    · rename_i hheld
      obtain rfl := Option.some.inj h
      exact .notHeld hworker hqueue hheld
    · rename_i hheld
      split at h
      · rename_i hreply
        obtain rfl := Option.some.inj h
        exact .callRaised hworker hqueue hheld hreply
      · rename_i hreply
        obtain rfl := Option.some.inj h
        exact .callReturned hworker hqueue hheld hreply
  · exact absurd h (by simp)

/-- **The steps of the worker** are its moves.  The proof goes through the branches of each step
once, so that no other has to. -/
theorem worker_moves {w w' : World γ} {a : Action} (ha : a.isWorker = true)
    (h : w.step cb a = some w') : WorkerMove w a w' := by
  cases a with
  | take =>
      simp only [World.step, World.take] at h
      split at h
      · rename_i hworker hqueue
        obtain rfl := Option.some.inj h
        exact .took hworker hqueue
      · exact absurd h (by simp)
  | listVersions =>
      simp only [World.step, World.listVersions] at h
      split at h
      · rename_i hworker
        obtain rfl := Option.some.inj h
        exact .listed hworker
      · exact absurd h (by simp)
  | tryVersion failure => exact tryVersion_moves h
  | answer reply closeFailure => exact answer_moves h
  | work reply now => exact work_moves h
  | skip =>
      simp only [World.step, World.skip] at h
      split at h
      · rename_i hworker hqueue
        obtain rfl := Option.some.inj h
        exact .skipped hworker hqueue
      · exact absurd h (by simp)
  | _ => exact absurd ha (by simp [Action.isWorker])

/-! ## The calls of the owner -/

/-- A device that is marked as closed. -/
def marked (w : World γ) : World γ := { w with dev := { w.dev with closed := true, wake := true } }

/-- A call of the owner up to its first await.  Most only add a call, which opens something
only in `async_connect`. -/
inductive RequestMove (w : World γ) : Request → World γ → Prop
  | called {r : Request} {pc : Call} (hop : pc.op = r.op)
      (hstage : pc ≠ .closing ∧ pc ≠ .closeDropping ∧ pc ≠ .closeShutdown)
      (hopens : pc.awaits = some .wOpen → r = .connect)
      (hclosed : r = .close → w.dev.closed = true ∧ pc = .done .close (.returned none)) :
      RequestMove w r (w.newCall pc)
  | reconfigured {changes : Changes} {config : DeviceConfig}
      (hreplace : w.dev.config.replace changes = .ok config) :
      RequestMove w (.reconfigure changes)
        ({ w with
          dev := { w.dev with config }
          registered := config.localKey :: w.registered
          released := w.dev.config.localKey :: w.released }.newCall .reconfiguring)
  | closeRaised {r : Raised} (hopen : w.dev.closed = false) (hloop : w.loop = .ended (.raised r)) :
      RequestMove w .close (w.marked.newCall (.done .close (.raised r)))
  | closeDrops (hopen : w.dev.closed = false) (hraised : w.loop.hasRaised = false) :
      RequestMove w .close (w.marked.newCall .closeDropping)
  | closeCancels (hopen : w.dev.closed = false) (hraised : w.loop.hasRaised = false) :
      RequestMove w .close
        (({ w.marked with loop := .ended .cancelled }.abandon .loop).newCall .closing)

/-- **The calls of the owner** begin with these moves.  A call that is refused ends at once and
submits nothing. -/
theorem request_moves (w : World γ) (r : Request) : RequestMove w r (w.request r) := by
  unfold World.request
  cases r with
  | connect => exact .called rfl (by simp) (fun _ => rfl) (by simp)
  | refresh =>
      dsimp only
      split
      · exact .called rfl (by simp) (by simp [Call.awaits]) (by simp)
      · exact .called rfl (by simp) (by simp [Call.awaits]) (by simp)
  | setDps dps =>
      dsimp only
      split
      · exact .called rfl (by simp) (by simp [Call.awaits]) (by simp)
      · split
        · exact .called rfl (by simp) (by simp [Call.awaits]) (by simp)
        · exact .called rfl (by simp) (by simp [Call.awaits]) (by simp)
  | reconfigure changes =>
      dsimp only
      unfold World.reconfigure
      split
      · exact .called rfl (by simp) (by simp [Call.awaits]) (by simp)
      · rename_i config hreplace
        split
        · exact .called rfl (by simp) (by simp [Call.awaits]) (by simp)
        · exact .reconfigured hreplace
  | close =>
      dsimp only
      unfold World.close
      split
      · rename_i hclosed
        exact .called rfl (by simp) (by simp [Call.awaits]) fun _ => ⟨hclosed, rfl⟩
      · rename_i hclosed
        have hopen : w.dev.closed = false := Bool.eq_false_of_not_eq_true hclosed
        dsimp only
        split
        · rename_i hloop
          exact .closeDrops hopen (by rw [hloop]; rfl)
        · rename_i hloop
          exact .closeRaised hopen hloop
        · rename_i ending hnot hloop
          refine .closeDrops hopen ?_
          rw [hloop]
          cases ending with
          | raised r => exact absurd rfl (hnot r)
          | _ => rfl
        · rename_i hnot
          refine .closeCancels hopen ?_
          cases hloop : w.loop with
          | ended ending => exact absurd hloop (hnot ending)
          | _ => rfl

/-! ## The rest of the event loop -/

/-- A step on the event loop. -/
inductive OwnerMove (cb : Callbacks γ) (w : World γ) : Action → World γ → Prop
  | startedBefore : OwnerMove cb w .start w
  | started (hloop : w.loop = .notStarted) (hopen : w.dev.closed = false) :
      OwnerMove cb w .start { w with loop := .ready }
  | begun {now : ℚ} (hloop : w.loop = .ready) :
      OwnerMove cb w (.begin now)
        (w.loopGoes (loopTop now w.dev.timings.reconnectMin w.dev w.client))
  | woken {a : Action} {now : ℚ} {t : Turn γ Loop} (ha : a = .wakeUp now ∨ a = .timeout now)
      (ht : loopWake now w.dev w.client w.loop = some t) : OwnerMove cb w a (w.loopGoes t)
  | requested {r : Request} {w' : World γ} (hmove : RequestMove w r w') :
      OwnerMove cb w (.request r) w'
  | loopResumed {i : Nat} {now : ℚ} {r : Result} {t : Turn γ Loop}
      (hr : w.results[i]? = some r) (hx : r.waiter = .loop)
      (ht : loopResume cb now w.dev w.client w.loop r.value = some t) :
      OwnerMove cb w (.resume i now) ({ w with results := w.results.eraseIdx i }.loopGoes t)
  | callResumed {i n : Nat} {now : ℚ} {r : Result} {pc : Call} {t : Turn γ Call}
      (hr : w.results[i]? = some r) (hx : r.waiter = .call n) (hpc : w.calls[n]? = some pc)
      (ht : callResume cb now w.dev w.client pc r.value = some t) :
      OwnerMove cb w (.resume i now) ({ w with results := w.results.eraseIdx i }.callGoes n t)
  | forgotten {i : Nat} {now : ℚ} {r : Result} (hr : w.results[i]? = some r)
      (hx : r.waiter = .nobody) :
      OwnerMove cb w (.resume i now) { w with results := w.results.eraseIdx i }
  | taskEnded {i : Nat} (hcall : w.calls[i]? = some .closing) :
      OwnerMove cb w (.taskEnded i) (w.callGoes i ⟨w.dev, w.client, .closeDropping⟩)
  | cancelSuppressed {i : Nat} (hcall : w.calls[i]? = some .closing) :
      OwnerMove cb w (.cancel i) w
  | shutdownCancelled {i : Nat} (hcall : w.calls[i]? = some .closeShutdown) :
      OwnerMove cb w (.cancel i)
        { w with
          calls := w.calls.set i (.done .close .cancelled)
          executor := if w.executor = .shutdownQueued then .accepting else w.executor }
  | cancelled {i : Nat} {pc : Call} (hcall : w.calls[i]? = some pc) (hdone : pc.isDone = false)
      (hstage : pc ≠ .closing ∧ pc ≠ .closeShutdown) :
      OwnerMove cb w (.cancel i)
        ({ w with calls := w.calls.set i (.done pc.op .cancelled) }.abandon (.call i))
  | shutdownBegun (hexec : w.executor = .shutdownQueued) :
      OwnerMove cb w .beginShutdown { w with executor := .stopping }
  | shutdownFinished (hexec : w.executor = .stopping) (hworker : w.worker = .idle)
      (hqueue : w.queue = []) : OwnerMove cb w .finishShutdown { w with executor := .stopped }
  | keyReleased {i : Nat} (hcall : w.calls[i]? = some .closeShutdown)
      (hexec : w.executor = .stopped) :
      OwnerMove cb w (.shutdownDone i)
        { w with
          calls := w.calls.set i (.done .close (.returned none))
          released := w.dev.config.localKey :: w.released }

/-- What taking up a result comes to: a turn of `_run` or of a call, or a result that nobody waits
for is forgotten. -/
theorem resume_moves {w w' : World γ} {i : Nat} {now : ℚ} (h : w.resume cb i now = some w') :
    OwnerMove cb w (.resume i now) w' := by
  obtain ⟨r, hr, h⟩ := Option.bind_eq_some_iff.mp h
  dsimp only at h
  split at h
  · rename_i hx
    obtain ⟨t, ht, hgo⟩ := Option.bind_eq_some_iff.mp h
    obtain rfl := Option.some.inj hgo
    exact .loopResumed hr hx ht
  · rename_i n hx
    obtain ⟨pc, hpc, h⟩ := Option.bind_eq_some_iff.mp h
    obtain ⟨t, ht, hgo⟩ := Option.bind_eq_some_iff.mp h
    obtain rfl := Option.some.inj hgo
    exact .callResumed hr hx hpc ht
  · rename_i hx
    obtain rfl := Option.some.inj h
    exact .forgotten hr hx

/-- What a cancellation comes to: the call ends and leaves its job behind, and one that suppresses
it goes on. -/
theorem cancel_moves {w w' : World γ} {i : Nat} (h : w.cancel i = some w') :
    OwnerMove cb w (.cancel i) w' := by
  unfold World.cancel at h
  split at h
  · exact absurd h (by simp)
  · exact absurd h (by simp)
  · rename_i hcall
    obtain rfl := Option.some.inj h
    exact .cancelSuppressed hcall
  · rename_i hcall
    obtain rfl := Option.some.inj h
    exact .shutdownCancelled hcall
  · rename_i pc hnotdone hclosing hshutdown hcall
    obtain rfl := Option.some.inj h
    refine .cancelled hcall ?_ ⟨?_, ?_⟩
    · cases pc with
      | done op ending => exact absurd rfl (hnotdone op ending)
      | _ => rfl
    · exact hclosing
    · exact hshutdown

/-- **The other steps** are moves on the event loop.  With these the step function itself is not
unfolded again. -/
theorem owner_moves {w w' : World γ} {a : Action} (ha : a.isWorker = false)
    (h : w.step cb a = some w') : OwnerMove cb w a w' := by
  cases a with
  | start =>
      obtain rfl := Option.some.inj h
      unfold World.start
      split
      · rename_i hloop
        split
        · exact .startedBefore
        · rename_i hclosed
          exact .started hloop (Bool.eq_false_of_not_eq_true hclosed)
      · exact .startedBefore
  | begin now =>
      simp only [World.step, World.begin] at h
      split at h
      · rename_i hloop
        obtain rfl := Option.some.inj h
        exact .begun hloop
      · exact absurd h (by simp)
  | wakeUp now =>
      simp only [World.step] at h
      split at h
      · obtain ⟨t, ht, rfl⟩ := Option.map_eq_some_iff.mp h
        exact .woken (Or.inl rfl) ht
      · exact absurd h (by simp)
  | timeout now =>
      obtain ⟨t, ht, rfl⟩ := Option.map_eq_some_iff.mp h
      exact .woken (Or.inr rfl) ht
  | request r =>
      obtain rfl := Option.some.inj h
      exact .requested (request_moves w r)
  | resume i now => exact resume_moves h
  | taskEnded i =>
      simp only [World.step, World.taskEnded] at h
      split at h
      · rename_i hcall
        obtain rfl := Option.some.inj h
        exact .taskEnded hcall
      · exact absurd h (by simp)
  | cancel i => exact cancel_moves h
  | beginShutdown =>
      simp only [World.step, World.beginShutdown] at h
      split at h
      · rename_i hexec
        obtain rfl := Option.some.inj h
        exact .shutdownBegun hexec
      · exact absurd h (by simp)
  | finishShutdown =>
      simp only [World.step, World.finishShutdown] at h
      split at h
      · rename_i hexec hworker hqueue
        obtain rfl := Option.some.inj h
        exact .shutdownFinished hexec hworker hqueue
      · exact absurd h (by simp)
  | shutdownDone i =>
      simp only [World.step, World.shutdownDone] at h
      split at h
      · rename_i hcall hexec
        obtain rfl := Option.some.inj h
        exact .keyReleased hcall hexec
      · exact absurd h (by simp)
  | _ => exact absurd ha (by simp [Action.isWorker])

/-- A step of the client is one of the worker or one on the event loop. -/
theorem step_moves {w w' : World γ} {a : Action} (h : w.step cb a = some w') :
    WorkerMove w a w' ∨ OwnerMove cb w a w' := by
  cases ha : a.isWorker with
  | true => exact Or.inl (worker_moves ha h)
  | false => exact Or.inr (owner_moves ha h)

end World

end Lan
