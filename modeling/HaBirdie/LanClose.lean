import HaBirdie.LanDeviceJobs

/-!
# Closing the LAN client

`async_close` sets the closed flag, cancels the background task, lets the worker drop the
connection, shuts the executor down and releases the key.  After the drop ran no library
connection can be open any more (`Sealed`), because the worker runs its jobs in order and an
open looks at the closed flag before each version.

A close that raises on the way leaves the rest undone for good, since the flag makes every
later close return at once.  `CloseSafe` lists the three ways in which that, or a leak before
it, comes about: the background task had ended with an exception, a close is cancelled while
it awaits the worker or the executor, or the library's `status` raises in `_w_open` and
leaves its socket open.  In every run without them a finished close has released
everything (`close_releases`).
-/

namespace Lan

open Python JobTracking StepRuns

variable {γ : Type} {cb : Callbacks γ}

/-- The library connection that `_w_open` is asking. -/
def Worker.asks : Worker → Option Nat
  | .asking _ id _ _ _ => some id
  | _ => none

/-- A call takes up a result only while it awaits a job. -/
theorem callResume_awaits {now : ℚ} {d : Device} {c : γ} {pc : Call} {value : JobValue}
    {t : Turn γ Call} (h : callResume cb now d c pc value = some t) :
    ∃ job, pc.awaits = some job := by
  cases pc with
  | closing => exact absurd h (by simp [callResume])
  | closeShutdown => exact absurd h (by simp [callResume])
  | done op ending => exact absurd h (by simp [callResume])
  | _ => exact ⟨_, rfl⟩

/-- So does `_run`. -/
theorem loopResume_awaits {now : ℚ} {d : Device} {c : γ} {pc : Loop} {value : JobValue}
    {t : Turn γ Loop} (h : loopResume cb now d c pc value = some t) :
    ∃ job, pc.awaits = some job := by
  cases pc with
  | opening b => exact ⟨_, rfl⟩
  | reading b => exact ⟨_, rfl⟩
  | beating b => exact ⟨_, rfl⟩
  | receiving b => exact ⟨_, rfl⟩
  | dropping b why => exact ⟨_, rfl⟩
  | _ => exact absurd h (by simp [loopResume])

/-- Turns of all calls leave the connection alone. -/
theorem callResume_same {now : ℚ} {d : Device} {c : γ} {pc : Call} {value : JobValue}
    {t : Turn γ Call} (h : callResume cb now d c pc value = some t) :
    SameConnection d t.dev ∧ t.pc.op = pc.op := by
  obtain ⟨job, hjob⟩ := callResume_awaits h
  by_cases hop : pc.op = .close
  · obtain ⟨rfl, hdev, _, hpc⟩ := callResume_close hop h
    refine ⟨by rw [hdev]; exact SameConnection.refl d, ?_⟩
    rcases hpc with ⟨hpc, _⟩ | ⟨r, hpc, _⟩ <;> rw [hpc] <;> rfl
  · have hturn := callResume_turned 0 hjob hop h
    exact ⟨hturn.same, hturn.pc.op⟩

namespace World

/-! ## What the event loop leaves to the worker -/

/-- Each registration of a key has been released once, but for the current one. -/
def KeyHeld (w : World γ) : Prop := w.registered.Perm (w.dev.config.localKey :: w.released)

/-- A step on the event loop: the library connections and who holds them are as before, no
result is added, a closed device stays closed, and a stopped executor has no job left. -/
structure OwnerStep (w w' : World γ) : Prop where
  apis : w'.apis = w.apis
  asks : w'.worker.asks = w.worker.asks
  busy : w'.worker.current ≠ [] → w.worker.current ≠ []
  api : w'.dev.api = w.dev.api
  closed : w.dev.closed = true → w'.dev.closed = true
  results : ∀ r ∈ w'.results, r.waiter ≠ .nobody → r ∈ w.results
  stopped : (w.executor = .stopped → w.queue = [] ∧ w.worker = .idle) →
    w'.executor = .stopped → w'.queue = [] ∧ w'.worker = .idle

/-- Doing nothing is a step on the event loop. -/
theorem OwnerStep.refl (w : World γ) : OwnerStep w w :=
  ⟨rfl, rfl, id, rfl, id, fun _ hr _ => hr, id⟩

/-- Two steps on the event loop are one. -/
theorem OwnerStep.trans {w w' w'' : World γ} (h : OwnerStep w w') (h' : OwnerStep w' w'') :
    OwnerStep w w'' :=
  ⟨h'.apis.trans h.apis, h'.asks.trans h.asks, fun hb => h.busy (h'.busy hb),
    h'.api.trans h.api, fun hc => h'.closed (h.closed hc),
    fun r hr hx => h.results r (h'.results r hr hx) hx, fun hs => h'.stopped (h.stopped hs)⟩

/-- Changing attributes and program counters only. -/
theorem OwnerStep.of_same {w w' : World γ} (hapis : w'.apis = w.apis)
    (hworker : w'.worker = w.worker) (hapi : w'.dev.api = w.dev.api)
    (hclosed : w.dev.closed = true → w'.dev.closed = true)
    (hresults : ∀ r ∈ w'.results, r ∈ w.results)
    (hexec : w'.executor = .stopped → w.executor = .stopped) (hqueue : w'.queue = w.queue) :
    OwnerStep w w' :=
  ⟨hapis, by rw [hworker], by rw [hworker]; exact id, hapi, hclosed, fun r hr _ => hresults r hr,
    fun h hstop => by rw [hqueue, hworker]; exact h (hexec hstop)⟩

/-- A turn of `_run` that leaves the connection alone is a step on the event loop.  It may submit a
job, which stays queued, and end the task. -/
theorem loopGoes_ownerStep (w : World γ) {t : Turn γ Loop} (ht : SameConnection w.dev t.dev) :
    OwnerStep w (w.loopGoes t) := by
  refine
    { apis := by simp, asks := by simp, busy := by simp, api := by simpa using ht.api,
      closed := ?closed, results := ?results, stopped := ?stopped }
  case closed =>
    intro hclosed
    simpa [ht.closed] using hclosed
  case results =>
    intro r hr _
    simpa using hr
  case stopped =>
    intro hidle hstop
    have hexec : w.executor = .stopped := by simpa using hstop
    obtain ⟨hqueue, hworker⟩ := hidle hexec
    refine ⟨?_, by simpa using hworker⟩
    unfold loopGoes
    cases t.pc.awaits <;> simp [hexec, Executor.accepts, hqueue]

/-- So is one of a call, which may ask for the executor's shutdown as well.  That stops nothing
before the queue is empty. -/
theorem callGoes_ownerStep (w : World γ) (i : ℕ) {t : Turn γ Call}
    (ht : SameConnection w.dev t.dev) : OwnerStep w (w.callGoes i t) := by
  refine
    { apis := by simp, asks := by simp, busy := by simp, api := by simpa using ht.api,
      closed := ?closed, results := ?results, stopped := ?stopped }
  case closed =>
    intro hclosed
    simpa [ht.closed] using hclosed
  case results =>
    intro r hr _
    simpa using hr
  case stopped =>
    intro hidle hstop
    unfold callGoes at hstop ⊢
    cases hjob : t.pc.awaits with
    | none =>
        have hexec : w.executor = .stopped := by
          cases hpc : t.pc <;> simp_all
        simpa [hjob] using hidle hexec
    | some job =>
        have hexec : w.executor = .stopped := by
          simp only [hjob] at hstop
          split at hstop <;> exact hstop
        simpa [hexec, Executor.accepts] using hidle hexec

/-- A new call only adds its job. -/
theorem newCall_ownerStep (w : World γ) (pc : Call) : OwnerStep w (w.newCall pc) := by
  have hcalls : OwnerStep w { w with calls := w.calls ++ [pc] } :=
    OwnerStep.of_same rfl rfl rfl id (fun _ => id) id rfl
  exact hcalls.trans (callGoes_ownerStep _ _ (SameConnection.refl _))

/-- A coroutine that is cancelled only leaves its job behind.  The worker runs it all the same, and
nobody takes up what it ends with. -/
theorem abandon_ownerStep (w : World γ) (x : Waiter) : OwnerStep w (w.abandon x) := by
  refine
    { apis := rfl, asks := ?asks, busy := ?busy, api := rfl, closed := id, results := ?results,
      stopped := ?stopped }
  case asks =>
    unfold abandon
    cases w.worker <;> rfl
  case busy =>
    unfold abandon
    cases w.worker <;> simp [Worker.current]
  case results =>
    intro r hr hx
    obtain ⟨r₀, hr₀, rfl⟩ := List.mem_map.mp hr
    by_cases hxr : r₀.waiter = x
    · exact absurd (if_pos hxr) hx
    · simpa [hxr] using hr₀
  case stopped =>
    intro hidle hstop
    obtain ⟨hqueue, hworker⟩ := hidle hstop
    exact ⟨by simp [abandon, hqueue, relabel], by simp [abandon, hworker]⟩

/-- Whatever is requested, the worker and its library connections are as before. -/
theorem RequestMove.ownerStep {w w' : World γ} {r : Request} (h : RequestMove w r w') :
    OwnerStep w w' := by
  have hmarked : ∀ loop : Loop, OwnerStep w { w.marked with loop } :=
    fun _ => OwnerStep.of_same rfl rfl rfl (fun _ => rfl) (fun _ => id) id rfl
  cases h with
  | called => exact newCall_ownerStep w _
  | reconfigured =>
      refine OwnerStep.trans ?_ (newCall_ownerStep _ _)
      exact OwnerStep.of_same rfl rfl rfl id (fun _ => id) id rfl
  | closeRaised => exact (hmarked w.loop).trans (newCall_ownerStep _ _)
  | closeDrops => exact (hmarked w.loop).trans (newCall_ownerStep _ _)
  | closeCancels =>
      exact ((hmarked _).trans (abandon_ownerStep _ _)).trans (newCall_ownerStep _ _)

/-- **The event loop leaves the library connections to the worker.**  This is the one case
distinction over what happens there; everything about sockets goes by `OwnerStep`. -/
theorem OwnerMove.ownerStep {w w' : World γ} {a : Action} (h : OwnerMove cb w a w') :
    OwnerStep w w' := by
  have htaken : ∀ i, OwnerStep w { w with results := w.results.eraseIdx i } := fun i =>
    OwnerStep.of_same rfl rfl rfl id (fun _ => List.mem_of_mem_eraseIdx) id rfl
  cases h with
  | startedBefore => exact OwnerStep.refl w
  | started => exact OwnerStep.of_same rfl rfl rfl id (fun _ => id) id rfl
  | begun => exact loopGoes_ownerStep w (loopTop_turned _ _ w.dev w.client).same
  | woken _ ht => exact loopGoes_ownerStep w (loopWake_turned ht).same
  | requested hmove => exact hmove.ownerStep
  | loopResumed hr hx ht =>
      obtain ⟨job, hjob⟩ := loopResume_awaits ht
      exact (htaken _).trans (loopGoes_ownerStep _ (loopResume_turned hjob ht).same)
  | callResumed hr hx hpc ht =>
      exact (htaken _).trans (callGoes_ownerStep _ _ (callResume_same ht).1)
  | forgotten => exact htaken _
  | taskEnded => exact callGoes_ownerStep w _ (SameConnection.refl w.dev)
  | cancelSuppressed => exact OwnerStep.refl w
  | shutdownCancelled =>
      refine OwnerStep.of_same rfl rfl rfl id (fun _ => id) (fun hstop => ?_) rfl
      dsimp only at hstop
      split at hstop
      · exact absurd hstop (by simp)
      · exact hstop
  | cancelled =>
      refine OwnerStep.trans ?_ (abandon_ownerStep _ _)
      exact OwnerStep.of_same rfl rfl rfl id (fun _ => id) id rfl
  | shutdownBegun =>
      exact OwnerStep.of_same rfl rfl rfl id (fun _ => id) (fun h => absurd h (by simp)) rfl
  | shutdownFinished _ hworker hqueue =>
      exact ⟨rfl, rfl, id, rfl, id, fun _ hr _ => hr, fun _ _ => ⟨hqueue, hworker⟩⟩
  | keyReleased => exact OwnerStep.of_same rfl rfl rfl id (fun _ => id) id rfl

/-! ## Open sockets -/

/-- Every open socket belongs to the connection held or to the one being asked. -/
def SocketsHeld (w : World γ) : Prop :=
  ∀ id a, w.apis[id]? = some a → a.socket = true →
    w.dev.api = some id ∨ w.worker.asks = some id

/-- Nothing is open, and the worker opens nothing any more. -/
structure Sealed (w : World γ) : Prop where
  closed : w.dev.closed = true
  api : w.dev.api = none
  asks : w.worker.asks = none
  sockets : ∀ a ∈ w.apis, a.socket = false

/-- A socket that is open after another one was closed was open before. -/
theorem setSocket_false {w : World γ} {id k : ℕ} {a : Api}
    (ha : (w.setSocket id false).apis[k]? = some a) (hopen : a.socket = true) :
    k ≠ id ∧ w.apis[k]? = some a := by
  simp only [setSocket, List.getElem?_modify] at ha
  obtain ⟨a₀, ha₀, rfl⟩ := Option.map_eq_some_iff.mp ha
  by_cases hk : id = k
  · simp [hk] at hopen
  · exact ⟨fun h => hk h.symm, by simpa [hk] using ha₀⟩

/-- Setting one socket leaves the others. -/
theorem setSocket_other {w : World γ} {id k : ℕ} {socket : Bool} {a : Api}
    (ha : (w.setSocket id socket).apis[k]? = some a) (hk : k ≠ id) : w.apis[k]? = some a := by
  simpa [setSocket, List.getElem?_modify, Ne.symm hk] using ha

/-- Dropping the connection held closes all that is open between two jobs.  No other socket is open
then, because what a job opens it keeps or closes before it ends. -/
theorem SocketsHeld.dropApi {w : World γ} (hw : w.SocketsHeld) (hidle : w.worker.asks = none)
    (rest : List (Waiter × Job)) :
    ∀ a ∈ { w with queue := rest }.dropApi.apis, a.socket = false := by
  intro a ha
  obtain ⟨k, hk⟩ := List.getElem?_of_mem ha
  by_contra hopen
  have hopen' : a.socket = true := by simpa using hopen
  unfold World.dropApi at hk
  split at hk
  · rename_i hnone
    rcases hw k a hk hopen' with h | h
    · exact absurd (hnone.symm.trans h) (by simp)
    · exact absurd (hidle.symm.trans h) (by simp)
  · rename_i id hsome
    obtain ⟨hne, hold⟩ := setSocket_false hk hopen'
    rcases hw k a hold hopen' with h | h
    · exact hne (Option.some.inj (h.symm.trans hsome))
    · exact absurd (hidle.symm.trans h) (by simp)

/-- A step on the event loop opens no socket and gives none away. -/
theorem SocketsHeld.owner {w w' : World γ} (hw : w.SocketsHeld) (h : OwnerStep w w') :
    w'.SocketsHeld := by
  intro id a ha hopen
  rw [h.api, h.asks]
  exact hw id a (h.apis ▸ ha) hopen

/-- What is sealed stays so in a step on the event loop. -/
theorem Sealed.owner {w w' : World γ} (hw : w.Sealed) (h : OwnerStep w w') : w'.Sealed :=
  ⟨h.closed hw.closed, h.api.trans hw.api, h.asks.trans hw.asks, by rw [h.apis]; exact hw.sockets⟩

/-- Nothing that is sealed is opened again. -/
theorem Sealed.socketsHeld {w : World γ} (hw : w.Sealed) : w.SocketsHeld := by
  intro id a ha hopen
  have hclosed := hw.sockets a (List.mem_of_getElem? ha)
  exact absurd (hclosed.symm.trans hopen) (by simp)

/-- Between two jobs only the connection held is open. -/
theorem SocketsHeld.idle {w : World γ} (hw : w.SocketsHeld) (hasks : w.worker.asks = none)
    (id : ℕ) (a : Api) (ha : w.apis[id]? = some a) (hopen : a.socket = true) :
    w.dev.api = some id := by
  rcases hw id a ha hopen with h | h
  · exact h
  · exact absurd (hasks.symm.trans h) (by simp)

/-- The invariant of the worker: during `_w_open` no connection is held, and every open socket
is accounted for. -/
structure Holding (w : World γ) : Prop where
  opening : w.worker.current ≠ [] → w.dev.api = none
  sockets : w.SocketsHeld

/-- A new library connection is not open yet. -/
theorem SocketsHeld.newApi {w w' : World γ} (hw : w.SocketsHeld) {version : PyStr}
    (hasks : w.worker.asks = none) (hapi : w'.dev.api = w.dev.api)
    (hapis : w'.apis = w.apis ++ [World.newApi w.dev version]) : w'.SocketsHeld := by
  intro id a ha hopen
  rw [hapis] at ha
  by_cases hid : id < w.apis.length
  · rw [List.getElem?_append_left hid] at ha
    rcases hw id a ha hopen with h | h
    · exact Or.inl (hapi.trans h)
    · exact absurd (hasks.symm.trans h) (by simp)
  · rw [List.getElem?_append_right (by omega)] at ha
    have hmem := List.mem_singleton.mp (List.mem_of_getElem? ha)
    rw [hmem] at hopen
    exact absurd hopen (by simp [World.newApi])

/-- A result is posted while only the connection held is open. -/
theorem Holding.post {w : World γ} (hsockets : ∀ (id : ℕ) (a : Api), w.apis[id]? = some a →
    a.socket = true → w.dev.api = some id) (x : Waiter) (job : Job) (value : JobValue) :
    (w.post x job value).Holding :=
  ⟨fun hbusy => absurd rfl hbusy, fun id a ha hopen => Or.inl (hsockets id a ha hopen)⟩

/-- During `_w_open` only the connection asked can be open. -/
theorem Holding.only_asked {w : World γ} (hw : w.Holding) {x : Waiter} {id : ℕ}
    {version : PyStr} {rest : List PyStr} {errors : List LanError} {socket : Bool} {k : ℕ}
    {a : Api} (hworker : w.worker = .asking x id version rest errors)
    (ha : (w.setSocket id socket).apis[k]? = some a) (hopen : a.socket = true) : k = id := by
  have hapi : w.dev.api = none := hw.opening (by simp [hworker, Worker.current])
  by_contra hk
  rcases hw.sockets k a (setSocket_other ha hk) hopen with h | h
  · exact absurd (hapi.symm.trans h) (by simp)
  · rw [hworker] at h
    exact hk (Option.some.inj h).symm

/-- Once it is closed, none is. -/
theorem Holding.none_open {w : World γ} (hw : w.Holding) {x : Waiter} {id : ℕ}
    {version : PyStr} {rest : List PyStr} {errors : List LanError} {socket : Bool} {k : ℕ}
    {a : Api} (hworker : w.worker = .asking x id version rest errors)
    (ha : ((w.setSocket id socket).setSocket id false).apis[k]? = some a)
    (hopen : a.socket = true) : False := by
  obtain ⟨hk, ha'⟩ := setSocket_false ha hopen
  exact hk (hw.only_asked hworker ha' hopen)

/-- The worker accounts for every open socket, unless `status` raises in `_w_open` and leaves
its socket open. -/
theorem Holding.worker {w w' : World γ} {a : Action} (hw : w.Holding)
    (hok : ∀ reply closeFailure, a = .answer reply closeFailure →
      reply.outcome.isOk = true ∨ reply.socket = false)
    (h : WorkerMove w a w') : w'.Holding := by
  have hcalled : ∀ {id socket rest}, w.worker = .idle → w.heldApi = some id →
      ∀ (k : ℕ) (a : Api), ({ w with queue := rest }.setSocket id socket).apis[k]? = some a →
        a.socket = true → w.dev.api = some k := by
    intro id socket rest hworker hheld k a ha hopen
    by_cases hk : k = id
    · rw [hk]
      exact (Option.filter_eq_some_iff.mp hheld).1
    · exact hw.sockets.idle (by rw [hworker]; rfl) k a (setSocket_other ha hk) hopen
  cases h with
  | took hworker hqueue =>
      refine ⟨fun _ => by simp, fun id a ha hopen => ?_⟩
      have hclosed := SocketsHeld.dropApi hw.sockets (by rw [hworker]; rfl) _ a
        (List.mem_of_getElem? ha)
      exact absurd (hclosed.symm.trans hopen) (by simp)
  | listed hworker =>
      have hapi := hw.opening (by simp [hworker, Worker.current])
      exact ⟨fun _ => hapi,
        fun id a ha hopen => Or.inl (hw.sockets.idle (by rw [hworker]; rfl) id a ha hopen)⟩
  | noneLeft hworker => exact .post (hw.sockets.idle (by rw [hworker]; rfl)) _ _ _
  | foundClosed hworker => exact .post (hw.sockets.idle (by rw [hworker]; rfl)) _ _ _
  | createFailed hworker => exact .post (hw.sockets.idle (by rw [hworker]; rfl)) _ _ _
  | created hworker =>
      have hapi := hw.opening (by simp [hworker, Worker.current])
      exact ⟨fun _ => hapi, hw.sockets.newApi (by rw [hworker]; rfl) rfl rfl⟩
  | @statusRaised reply _ _ id _ _ _ e hworker hreply =>
      have hsocket : reply.socket = false :=
        (hok _ _ rfl).resolve_left fun hnormal => Reply.not_raised hnormal hreply
      refine .post (fun k a ha hopen => ?_) _ _ _
      have hclosed : (w.setSocket id false).apis[k]? = some a := by rw [← hsocket]; exact ha
      exact absurd (hw.only_asked hworker ha hopen) (setSocket_false hclosed hopen).1
  | opened hworker =>
      refine .post (fun k a ha hopen => ?_) _ _ _
      rw [hw.only_asked hworker ha hopen]
  | closeRaised hworker =>
      exact .post (fun k a ha hopen => (hw.none_open hworker ha hopen).elim) _ _ _
  | unreachable hworker =>
      exact .post (fun k a ha hopen => (hw.none_open hworker ha hopen).elim) _ _ _
  | nextVersion hworker =>
      have hapi := hw.opening (by simp [hworker, Worker.current])
      exact ⟨fun _ => hapi, fun k a ha hopen => (hw.none_open hworker ha hopen).elim⟩
  | dropped hworker =>
      refine .post (fun k a ha hopen => ?_) _ _ _
      have hclosed := SocketsHeld.dropApi hw.sockets (by rw [hworker]; rfl) _ a
        (List.mem_of_getElem? ha)
      exact absurd (hclosed.symm.trans hopen) (by simp)
  | notHeld hworker =>
      refine .post (fun k a ha hopen => ?_) _ _ _
      exact hw.sockets.idle (by rw [hworker]; rfl) k a ha hopen
  | callRaised hworker _ hheld => exact .post (hcalled hworker hheld) _ _ _
  | @callReturned reply now _ c _ _ _ hworker _ hheld =>
      refine .post (fun k a ha hopen => ?_) _ _ _
      exact (noteTimes_same c reply now w.dev).1.trans (hcalled hworker hheld k a ha hopen)
  | skipped => exact ⟨hw.opening, hw.sockets⟩

/-- The worker opens nothing of what is sealed, and creates no library connection.  An open finds
the device closed before it creates one, and the other jobs find none that is held. -/
theorem Sealed.worker {w w' : World γ} {a : Action} (hw : w.Sealed) (h : WorkerMove w a w') :
    w'.Sealed ∧ w'.apis.length = w.apis.length := by
  have hdropped : ∀ rest, { w with queue := rest }.dropApi.apis.length = w.apis.length := by
    intro rest
    unfold World.dropApi
    split
    · rfl
    · simp [setSocket]
  have hasked : ∀ {x id version rest errors}, w.worker ≠ .asking x id version rest errors :=
    fun hworker => absurd hw.asks (by simp [hworker, Worker.asks])
  have hheld : ∀ {id}, w.heldApi ≠ some id := fun hsome =>
    absurd hsome (by simp [heldApi, hw.api])
  cases h with
  | took =>
      exact ⟨⟨by simpa using hw.closed, by simp, rfl, hw.socketsHeld.dropApi hw.asks _⟩,
        hdropped _⟩
  | listed => exact ⟨⟨hw.closed, hw.api, rfl, hw.sockets⟩, rfl⟩
  | noneLeft => exact ⟨⟨hw.closed, hw.api, rfl, hw.sockets⟩, rfl⟩
  | foundClosed => exact ⟨⟨hw.closed, hw.api, rfl, hw.sockets⟩, rfl⟩
  | createFailed _ hopen => exact absurd (hopen.symm.trans hw.closed) (by simp)
  | created _ hopen => exact absurd (hopen.symm.trans hw.closed) (by simp)
  | statusRaised hworker => exact absurd hworker hasked
  | opened hworker => exact absurd hworker hasked
  | closeRaised hworker => exact absurd hworker hasked
  | unreachable hworker => exact absurd hworker hasked
  | nextVersion hworker => exact absurd hworker hasked
  | dropped =>
      exact ⟨⟨by simpa [World.post] using hw.closed, by simp [World.post], rfl,
        hw.socketsHeld.dropApi hw.asks _⟩, hdropped _⟩
  | notHeld => exact ⟨⟨hw.closed, hw.api, rfl, hw.sockets⟩, rfl⟩
  | callRaised _ _ hsome => exact absurd hsome hheld
  | callReturned _ _ hsome => exact absurd hsome hheld
  | skipped => exact ⟨⟨hw.closed, hw.api, hw.asks, hw.sockets⟩, rfl⟩

/-- **What is sealed stays sealed**, whatever happens. -/
theorem Sealed.step {w w' : World γ} {a : Action} (hw : w.Sealed)
    (h : w.step cb a = some w') : w'.Sealed := by
  rcases step_moves h with hmove | hmove
  · exact (hw.worker hmove).1
  · exact hw.owner hmove.ownerStep

/-! ## How calls evolve -/

/-- The worker changes no program counter, key, setting or executor, and publishes nothing. -/
structure WorkerKeeps (w w' : World γ) : Prop where
  calls : w'.calls = w.calls
  loop : w'.loop = w.loop
  client : w'.client = w.client
  config : w'.dev.config = w.dev.config
  closed : w'.dev.closed = w.dev.closed
  available : w'.dev.available = w.dev.available
  executor : w'.executor = w.executor
  registered : w'.registered = w.registered
  released : w'.released = w.released

/-- The times that the worker notes are neither settings nor the closed flag. -/
theorem noteTimes_settings (c : LibraryCall) (reply : Reply) (now : ℚ) (dev : Device) :
    (noteTimes c reply now dev).config = dev.config ∧
      (noteTimes c reply now dev).closed = dev.closed := by
  cases c with
  | receive => unfold noteTimes; dsimp only; split <;> exact ⟨rfl, rfl⟩
  | _ => exact ⟨rfl, rfl⟩

/-- Whatever the worker does, calls, settings, keys and the executor are as before, and nothing is
published. -/
theorem WorkerMove.keeps {w w' : World γ} {a : Action} (h : WorkerMove w a w') :
    WorkerKeeps w w' := by
  cases h with
  | took => constructor <;> simp
  | dropped =>
      simp only [World.post]
      constructor <;> simp
  | @callReturned reply now _ c =>
      obtain ⟨hconfig, hclosed⟩ := noteTimes_settings c reply now w.dev
      exact
        { calls := rfl
          loop := rfl
          client := rfl
          config := hconfig
          closed := hclosed
          available := (noteTimes_same c reply now w.dev).2
          executor := rfl
          registered := rfl
          released := rfl }
  | _ => constructor <;> rfl

/-- A closed device stays closed. -/
theorem closed_stays {w w' : World γ} {a : Action} (hclosed : w.dev.closed = true)
    (h : w.step cb a = some w') : w'.dev.closed = true := by
  rcases step_moves h with hmove | hmove
  · exact hmove.keeps.closed.trans hclosed
  · exact hmove.ownerStep.closed hclosed

/-- The call that an action moves on. -/
def actsOn (w : World γ) : Action → Option Nat
  | .resume i _ => w.results[i]?.bind fun r =>
      match r.waiter with
      | .call n => some n
      | _ => none
  | .taskEnded i | .cancel i | .shutdownDone i => some i
  | _ => none

/-- A new call comes after all others, and is of its operation. -/
theorem newCall_calls (w : World γ) (pc : Call) :
    ∃ pc', (w.newCall pc).calls = w.calls ++ [pc'] ∧ pc'.op = pc.op := by
  obtain ⟨pc', hcalls, _, hpc⟩ := newCall_spec w pc
  refine ⟨pc', hcalls, ?_⟩
  rcases hpc with rfl | ⟨rfl, _⟩ <;> rfl

/-- A request adds one call, which is of its operation. -/
theorem RequestMove.calls {w w' : World γ} {r : Request} (h : RequestMove w r w') :
    ∃ pc, w'.calls = w.calls ++ [pc] ∧ pc.op = r.op := by
  cases h with
  | called hop =>
      obtain ⟨pc', hcalls, hpc'⟩ := newCall_calls w _
      exact ⟨pc', hcalls, hpc'.trans hop⟩
  | reconfigured => exact newCall_calls _ _
  | closeRaised => exact newCall_calls _ _
  | closeDrops => exact newCall_calls _ _
  | closeCancels => exact newCall_calls _ _

/-- **How calls evolve**: a request appends one, and a call that has not ended moves on within
its operation. -/
theorem calls_step {w w' : World γ} {a : Action} (h : w.step cb a = some w') :
    w'.calls = w.calls ∨
    (∃ r pc, a = .request r ∧ w'.calls = w.calls ++ [pc] ∧ pc.op = r.op) ∨
    ∃ j c c', w.actsOn a = some j ∧ w.calls[j]? = some c ∧ c.isDone = false ∧ c'.op = c.op ∧
      w'.calls = w.calls.set j c' := by
  have hgoes : ∀ (w₀ : World γ) (i : ℕ) (t : Turn γ Call), w₀.calls = w.calls →
      ∃ c', (w₀.callGoes i t).calls = w.calls.set i c' ∧ c'.op = t.pc.op := by
    intro w₀ i t hw₀
    obtain ⟨pc', hcalls, _, hpc⟩ := callGoes_spec w₀ i t
    refine ⟨pc', hw₀ ▸ hcalls, ?_⟩
    rcases hpc with rfl | ⟨rfl, _⟩ <;> rfl
  rcases step_moves h with hmove | hmove
  · exact Or.inl hmove.keeps.calls
  cases hmove with
  | startedBefore => exact Or.inl rfl
  | started => exact Or.inl rfl
  | begun => exact Or.inl (by simp)
  | woken => exact Or.inl (by simp)
  | requested hmove =>
      obtain ⟨pc, hcalls, hop⟩ := hmove.calls
      exact Or.inr (Or.inl ⟨_, pc, rfl, hcalls, hop⟩)
  | loopResumed => exact Or.inl (by simp)
  | @callResumed i n now r pc t hr hx hpc ht =>
      obtain ⟨c', hcalls, hop⟩ := hgoes { w with results := w.results.eraseIdx i } n t rfl
      refine Or.inr (Or.inr ⟨n, pc, c', by simp [actsOn, hr, hx], hpc, ?_,
        hop.trans (callResume_same ht).2, hcalls⟩)
      obtain ⟨job, hjob⟩ := callResume_awaits ht
      cases pc <;> simp_all [Call.awaits, Call.isDone]
  | forgotten => exact Or.inl rfl
  | taskEnded hcall =>
      obtain ⟨c', hcalls, hop⟩ := hgoes w _ ⟨w.dev, w.client, .closeDropping⟩ rfl
      exact Or.inr (Or.inr ⟨_, .closing, c', rfl, hcall, rfl, hop, hcalls⟩)
  | cancelSuppressed => exact Or.inl rfl
  | shutdownCancelled hcall =>
      exact Or.inr (Or.inr ⟨_, .closeShutdown, .done .close .cancelled, rfl, hcall, rfl, rfl, rfl⟩)
  | cancelled hcall hdone =>
      exact Or.inr (Or.inr ⟨_, _, .done _ .cancelled, rfl, hcall, hdone, rfl, rfl⟩)
  | shutdownBegun => exact Or.inl rfl
  | shutdownFinished => exact Or.inl rfl
  | keyReleased hcall =>
      exact Or.inr (Or.inr
        ⟨_, .closeShutdown, .done .close (.returned none), rfl, hcall, rfl, rfl, rfl⟩)

/-! ## The executor and the results -/

/-- A call that does not go on to the shutdown leaves the executor accepting. -/
theorem callGoes_accepting {w : World γ} (i : ℕ) {t : Turn γ Call}
    (hexec : w.executor = .accepting) (hpc : t.pc ≠ .closeShutdown) :
    (w.callGoes i t).executor = .accepting := by
  unfold callGoes
  cases hjob : t.pc.awaits with
  | none => cases hp : t.pc <;> simp_all
  | some job => simp [hexec, Executor.accepts]

/-- A new call leaves the executor accepting, unless it shuts it down. -/
theorem newCall_accepting {w : World γ} {pc : Call} (hexec : w.executor = .accepting)
    (hpc : pc ≠ .closeShutdown) : (w.newCall pc).executor = .accepting :=
  callGoes_accepting _ hexec hpc

/-- A request alone never shuts the executor down: `async_close` awaits its drop first. -/
theorem RequestMove.accepting {w w' : World γ} {r : Request} (h : RequestMove w r w')
    (hexec : w.executor = .accepting) : w'.executor = .accepting := by
  cases h with
  | called _ hstage => exact newCall_accepting hexec hstage.2.2
  | reconfigured => exact newCall_accepting hexec (by simp)
  | closeRaised => exact newCall_accepting hexec (by simp)
  | closeDrops => exact newCall_accepting hexec (by simp)
  | closeCancels => exact newCall_accepting hexec (by simp)

/-- Without a close that awaits the worker's drop, the executor goes on accepting.  Only the turn
of such a close asks for the shutdown. -/
theorem accepting_step {w w' : World γ} {a : Action} (h : w.step cb a = some w')
    (hexec : w.executor = .accepting) (hno : ∀ c ∈ w.calls, c ≠ .closeDropping) :
    w'.executor = .accepting := by
  rcases step_moves h with hmove | hmove
  · exact hmove.keeps.executor.trans hexec
  cases hmove with
  | startedBefore => exact hexec
  | started => exact hexec
  | begun => simpa using hexec
  | woken => simpa using hexec
  | requested hmove => exact hmove.accepting hexec
  | loopResumed => simpa using hexec
  | callResumed hr hx hpc ht =>
      refine callGoes_accepting _ hexec fun hshut => ?_
      have hop := (callResume_same ht).2
      rw [hshut] at hop
      exact hno _ (List.mem_of_getElem? hpc) (callResume_close hop.symm ht).1
  | forgotten => exact hexec
  | taskEnded => exact callGoes_accepting _ hexec (by simp)
  | cancelSuppressed => exact hexec
  | shutdownCancelled => simp [hexec]
  | cancelled => exact hexec
  | shutdownBegun hqueued => exact absurd (hexec.symm.trans hqueued) (by simp)
  | shutdownFinished hstopping => exact absurd (hexec.symm.trans hstopping) (by simp)
  | keyReleased _ hstopped => exact absurd (hexec.symm.trans hstopped) (by simp)

/-- A stopped executor has no job left, and drops return. -/
structure Drained (w : World γ) : Prop where
  jobs : w.executor = .stopped → w.queue = [] ∧ w.worker = .idle
  drops : ∀ r ∈ w.results, r.waiter ≠ .nobody → r.job = .wDrop → r.value = .done

/-- Where the worker posts a result: at the job it is at, or at the head of its queue.  The result
of a drop is told apart, because the close waits for that one. -/
theorem WorkerMove.results {w w' : World γ} {a : Action} (h : WorkerMove w a w') :
    (∀ r ∈ w'.results, r ∈ w.results ∨ r.job ≠ .wDrop) ∨
    ∃ x rest, w.worker = .idle ∧ w.queue = (x, .wDrop) :: rest ∧
      w' = { w with queue := rest }.dropApi.post x .wDrop .done := by
  have hpost : ∀ {w₀ : World γ} {x : Waiter} {job : Job} {value : JobValue},
      w₀.results = w.results → job ≠ .wDrop →
      (∀ r ∈ (w₀.post x job value).results, r ∈ w.results ∨ r.job ≠ .wDrop) := by
    intro w₀ x job value hw₀ hjob r hr
    rcases List.mem_append.mp hr with hr | hr
    · exact Or.inl (hw₀ ▸ hr)
    · obtain rfl := List.mem_singleton.mp hr
      exact Or.inr hjob
  cases h with
  | took => exact Or.inl fun r hr => Or.inl (by simpa using hr)
  | listed => exact Or.inl fun r hr => Or.inl hr
  | noneLeft => exact Or.inl (hpost rfl (by simp))
  | foundClosed => exact Or.inl (hpost rfl (by simp))
  | createFailed => exact Or.inl (hpost rfl (by simp))
  | created => exact Or.inl fun r hr => Or.inl hr
  | statusRaised => exact Or.inl (hpost rfl (by simp))
  | opened => exact Or.inl (hpost rfl (by simp))
  | closeRaised => exact Or.inl (hpost rfl (by simp))
  | unreachable => exact Or.inl (hpost rfl (by simp))
  | nextVersion => exact Or.inl fun r hr => Or.inl hr
  | dropped hworker hqueue => exact Or.inr ⟨_, _, hworker, hqueue, rfl⟩
  | notHeld => exact Or.inl (hpost rfl (by simp))
  | callRaised => exact Or.inl (hpost rfl (by simp))
  | callReturned => exact Or.inl (hpost rfl (by simp))
  | skipped => exact Or.inl fun r hr => Or.inl hr

/-- A stopped worker does nothing. -/
theorem WorkerMove.not_stopped {w w' : World γ} {a : Action} (h : WorkerMove w a w')
    (hqueue : w.queue = []) (hworker : w.worker = .idle) : False := by
  cases h <;> simp_all

/-- Every step keeps it: a job is only queued while the executor accepts, and a drop cannot
raise. -/
theorem Drained.step {w w' : World γ} {a : Action} (hw : w.Drained)
    (h : w.step cb a = some w') : w'.Drained := by
  rcases step_moves h with hmove | hmove
  · refine ⟨fun hstop => ?_, fun r hr hx hjob => ?_⟩
    · obtain ⟨hqueue, hidle⟩ := hw.jobs (hmove.keeps.executor ▸ hstop)
      exact (hmove.not_stopped hqueue hidle).elim
    · rcases hmove.results with hold | ⟨x, rest, _, _, rfl⟩
      · rcases hold r hr with hr | hnot
        · exact hw.drops r hr hx hjob
        · exact absurd hjob hnot
      · rcases List.mem_append.mp hr with hr | hr
        · exact hw.drops r (by simpa using hr) hx hjob
        · obtain rfl := List.mem_singleton.mp hr
          rfl
  · have hstep := hmove.ownerStep
    exact ⟨hstep.stopped hw.jobs, fun r hr hx => hw.drops r (hstep.results r hr hx) hx⟩

/-! ## The close in progress -/

end World

/-- The call awaits the worker's drop or the executor's shutdown. -/
def Call.isClosing : Call → Bool
  | .closeDropping | .closeShutdown => true
  | _ => false

namespace World

/-- The condition under which a close releases everything: the background task has not ended
with an exception when the device is closed, no close is cancelled while it awaits the worker
or the executor, and no `status` of a connection attempt raises with its socket open. -/
def CloseSafe (w : World γ) : Action → Prop
  | .request .close => w.dev.closed = false → w.loop.hasRaised = false
  | .cancel i => ∀ c ∈ w.calls[i]?, c.isClosing = false
  | .answer reply _ => reply.outcome.isOk = true ∨ reply.socket = false
  | _ => True

instance (w : World γ) : (a : Action) → Decidable (w.CloseSafe a)
  | .request .close => inferInstanceAs (Decidable (_ → w.loop.hasRaised = false))
  | .cancel i => inferInstanceAs (Decidable (∀ c ∈ w.calls[i]?, c.isClosing = false))
  | .answer reply _ => inferInstanceAs (Decidable (_ ∨ reply.socket = false))
  | .start | .begin _ | .wakeUp _ | .timeout _ | .request .connect | .request .refresh
  | .request (.setDps _) | .request (.reconfigure _) | .resume _ _ | .taskEnded _ | .take
  | .listVersions | .tryVersion _ | .work _ _ | .skip | .beginShutdown | .finishShutdown
  | .shutdownDone _ => isTrue trivial

/-- The first call of `async_close` is the `k`-th. -/
def FirstClose (w : World γ) (k : ℕ) (c : Call) : Prop :=
  w.calls[k]? = some c ∧ c.op = .close ∧
    ∀ j < k, ∀ c', w.calls[j]? = some c' → c'.op ≠ .close

/-- The first call of `async_close` has ended. -/
def CloseFinished (w : World γ) : Prop := ∃ k ending, w.FirstClose k (.done .close ending)

/-- What holds of the first call of `async_close`, computed: it is the first call in the list with
that operation. -/
theorem firstClose_iff (w : World γ) (p : Call → Bool) :
    (∃ k c, w.FirstClose k c ∧ p c = true) ↔
      (w.calls.find? fun c => c.op = .close).any p = true := by
  constructor
  · intro hparts
    obtain ⟨k, c, ⟨hk, hop, hbefore⟩, hp⟩ := hparts
    obtain ⟨hlt, hget⟩ := List.getElem?_eq_some_iff.mp hk
    have hfind : (w.calls.find? fun c => c.op = .close) = some c := by
      refine List.find?_eq_some_iff_getElem.mpr ⟨by simp [hop], k, hlt, hget, fun j hj => ?_⟩
      simpa using hbefore j hj _ (List.getElem?_eq_getElem (by omega))
    rw [hfind]
    exact hp
  · intro h
    cases hfind : w.calls.find? fun c => c.op = .close with
    | none => rw [hfind] at h; exact absurd h (by simp)
    | some c =>
        rw [hfind] at h
        obtain ⟨hop, k, hlt, hget, hbefore⟩ := List.find?_eq_some_iff_getElem.mp hfind
        refine ⟨k, c, ⟨by rw [List.getElem?_eq_getElem hlt, hget], of_decide_eq_true hop, ?_⟩, h⟩
        intro j hj c' hc'
        have hjlt : j < w.calls.length := by omega
        rw [List.getElem?_eq_getElem hjlt] at hc'
        rw [← Option.some.inj hc']
        simpa using hbefore j hj

/-- The first close, if there is one, can be looked up. -/
theorem closeFinished_iff (w : World γ) :
    w.CloseFinished ↔ (w.calls.find? fun c => c.op = .close).any Call.isDone = true := by
  rw [← w.firstClose_iff]
  constructor
  · intro hparts
    obtain ⟨k, ending, hk⟩ := hparts
    exact ⟨k, _, hk, rfl⟩
  · intro hparts
    obtain ⟨k, c, hk, hdone⟩ := hparts
    cases c with
    | done op ending =>
        obtain rfl : op = .close := hk.2.1
        exact ⟨k, ending, hk⟩
    | _ => exact absurd hdone (by simp [Call.isDone])

instance (w : World γ) : Decidable w.CloseFinished := decidable_of_iff _ w.closeFinished_iff.symm

/-- Nothing is open and nothing is left: no connection, no job, no thread and no registration
of a key. -/
structure Released (w : World γ) : Prop where
  sealed : w.Sealed
  executor : w.executor = .stopped
  queue : w.queue = []
  worker : w.worker = .idle
  keys : w.registered.Perm w.released

/-- How far the close in progress is. -/
def ClosingAt (w : World γ) (k : ℕ) : Call → Prop
  | .closing => w.executor = .accepting
  | .closeDropping => ∀ r ∈ w.results, r.waiter = .call k → w.Sealed
  | .closeShutdown => w.Sealed
  | _ => False

/-- The first close, the `k`-th call, is in progress; all later ones returned at once. -/
structure Closing (w : World γ) (k : ℕ) : Prop where
  stage : ∃ c, w.FirstClose k c ∧ w.ClosingAt k c
  others : ∀ j c, j ≠ k → w.calls[j]? = some c → c.op = .close → c.isDone = true

/-- The invariant of a device that can be closed. -/
structure Closable (w : World γ) : Prop where
  tracked : w.Tracked
  holding : w.Holding
  drained : w.Drained
  phase : w.CloseFinished ∨ w.KeyHeld ∧
    ((w.dev.closed = false ∧ w.executor = .accepting ∧ ∀ c ∈ w.calls, c.op ≠ .close) ∨
      (w.dev.closed = true ∧ ∃ k, w.Closing k))

/-- A device just created can be closed. -/
theorem Closable.init (config : DeviceConfig) (timings : Timings) (hint : Option PyStr)
    (client : γ) : (World.init config timings hint client).Closable where
  tracked := Tracked.init config timings hint client
  holding := ⟨fun _ => rfl, fun id a ha => absurd ha (by simp [World.init])⟩
  drained := ⟨fun h => absurd h (by simp [World.init]), by simp [World.init]⟩
  phase := Or.inr ⟨List.Perm.refl _, Or.inl ⟨rfl, rfl, by simp [World.init]⟩⟩

/-- Every step keeps the invariant of the worker, as long as no `status` raises with its socket
open. -/
theorem Holding.step {w w' : World γ} {a : Action} (hw : w.Holding) (hsafe : w.CloseSafe a)
    (h : w.step cb a = some w') : w'.Holding := by
  rcases step_moves h with hmove | hmove
  · refine hw.worker (fun reply closeFailure heq => ?_) hmove
    subst heq
    exact hsafe
  · have hstep := hmove.ownerStep
    exact ⟨fun hbusy => hstep.api.trans (hw.opening (hstep.busy hbusy)), hw.sockets.owner hstep⟩

/-- Only keys and the settings matter. -/
theorem KeyHeld.congr {w w' : World γ} (hw : w.KeyHeld) (hregistered : w'.registered = w.registered)
    (hreleased : w'.released = w.released) (hconfig : w'.dev.config = w.dev.config) :
    w'.KeyHeld := by
  unfold KeyHeld at hw ⊢
  rw [hregistered, hreleased, hconfig]
  exact hw

/-- A new call registers and releases no key. -/
theorem KeyHeld.newCall {w : World γ} (hw : w.KeyHeld) (pc : Call) : (w.newCall pc).KeyHeld :=
  hw.congr (by simp) (by simp) (by simp)

/-- A request keeps the account of the keys: one that changes the key registers the new one and
releases the old one. -/
theorem KeyHeld.requested {w w' : World γ} {r : Request} (hw : w.KeyHeld)
    (h : RequestMove w r w') : w'.KeyHeld := by
  have hmarked : w.marked.KeyHeld := hw.congr rfl rfl rfl
  cases h with
  | called => exact hw.newCall _
  | reconfigured =>
      -- the new key is registered before the old one is released
      refine KeyHeld.newCall ?_ _
      exact List.Perm.cons _ hw
  | closeRaised => exact hmarked.newCall _
  | closeDrops => exact hmarked.newCall _
  | closeCancels =>
      refine KeyHeld.newCall ?_ _
      exact hmarked.congr rfl rfl rfl

/-- The key stays held until a close releases it.  `shutdownDone` is the action that does, and is
left out here. -/
theorem KeyHeld.step {w w' : World γ} {a : Action} (hw : w.KeyHeld)
    (hdone : ∀ i, a ≠ .shutdownDone i) (h : w.step cb a = some w') : w'.KeyHeld := by
  rcases step_moves h with hmove | hmove
  · have hkeep := hmove.keeps
    exact hw.congr hkeep.registered hkeep.released hkeep.config
  cases hmove with
  | startedBefore => exact hw
  | started => exact hw.congr rfl rfl rfl
  | begun =>
      exact hw.congr (by simp) (by simp)
        (by simpa using (loopTop_turned _ _ w.dev w.client).same.config)
  | woken _ ht =>
      exact hw.congr (by simp) (by simp) (by simpa using (loopWake_turned ht).same.config)
  | requested hmove => exact hw.requested hmove
  | loopResumed hr hx ht =>
      obtain ⟨job, hjob⟩ := loopResume_awaits ht
      exact hw.congr (by simp) (by simp) (by simpa using (loopResume_turned hjob ht).same.config)
  | callResumed hr hx hpc ht =>
      exact hw.congr (by simp) (by simp) (by simpa using (callResume_same ht).1.config)
  | forgotten => exact hw.congr rfl rfl rfl
  | taskEnded => exact hw.congr (by simp) (by simp) (by simp)
  | cancelSuppressed => exact hw
  | shutdownCancelled => exact hw.congr rfl rfl rfl
  | cancelled => exact hw.congr rfl rfl rfl
  | shutdownBegun => exact hw.congr rfl rfl rfl
  | shutdownFinished => exact hw.congr rfl rfl rfl
  | keyReleased => exact absurd rfl (hdone _)

/-- A call that has ended, or that the action does not move, stays.  Only a coroutine's own turn
and its cancellation move it. -/
theorem call_stays {w w' : World γ} {a : Action} (h : w.step cb a = some w') {k : ℕ} {c : Call}
    (hk : w.calls[k]? = some c) (hact : w.actsOn a ≠ some k ∨ c.isDone = true) :
    w'.calls[k]? = some c := by
  have hlt : k < w.calls.length := (List.getElem?_eq_some_iff.mp hk).1
  rcases calls_step h with hsame | ⟨_, _, _, happend, _⟩ | ⟨j, c₀, c', hj, hc₀, hnot, _, hset⟩
  · rw [hsame, hk]
  · rw [happend, List.getElem?_append_left hlt, hk]
  · have hne : j ≠ k := by
      intro heq
      obtain rfl := heq
      rcases hact with hact | hdone
      · exact hact hj
      · obtain rfl : c₀ = c := Option.some.inj (hc₀.symm.trans hk)
        exact absurd (hnot.symm.trans hdone) (by simp)
    rw [hset, List.getElem?_set_ne hne, hk]

/-- The calls of the old device are still there, of the same operations.  One that has ended has
not changed since. -/
theorem call_before {w w' : World γ} {a : Action} (h : w.step cb a = some w') {j : ℕ}
    {c' : Call} (hj : w'.calls[j]? = some c') (hlt : j < w.calls.length) :
    ∃ c, w.calls[j]? = some c ∧ c.op = c'.op ∧ (c.isDone = true → c' = c) := by
  obtain ⟨c, hc⟩ : ∃ c, w.calls[j]? = some c := ⟨_, List.getElem?_eq_getElem hlt⟩
  rcases calls_step h with hsame | ⟨_, _, _, happend, _⟩ | ⟨i, c₀, c₁, _, hc₀, hnot, hop, hset⟩
  · rw [hsame, hc] at hj
    obtain rfl := Option.some.inj hj
    exact ⟨c, hc, rfl, fun _ => rfl⟩
  · rw [happend, List.getElem?_append_left hlt, hc] at hj
    obtain rfl := Option.some.inj hj
    exact ⟨c, hc, rfl, fun _ => rfl⟩
  · by_cases hij : i = j
    · subst hij
      rw [hset, List.getElem?_set_self hlt] at hj
      obtain rfl := Option.some.inj hj
      obtain rfl : c₀ = c := Option.some.inj (hc₀.symm.trans hc)
      exact ⟨c₀, hc, hop.symm, fun hdone => absurd (hnot.symm.trans hdone) (by simp)⟩
    · rw [hset, List.getElem?_set_ne hij, hc] at hj
      obtain rfl := Option.some.inj hj
      exact ⟨c, hc, rfl, fun _ => rfl⟩

/-- Calls are not forgotten. -/
theorem call_after {w w' : World γ} {a : Action} (h : w.step cb a = some w') {j : ℕ} {c : Call}
    (hj : w.calls[j]? = some c) : ∃ c', w'.calls[j]? = some c' ∧ c'.op = c.op := by
  have hlt : j < w.calls.length := (List.getElem?_eq_some_iff.mp hj).1
  have hlt' : j < w'.calls.length := by
    rcases calls_step h with hsame | ⟨_, _, _, happend, _⟩ | ⟨_, _, _, _, _, _, _, hset⟩
    · rwa [hsame]
    · rw [happend, List.length_append]
      omega
    · rwa [hset, List.length_set]
  obtain ⟨c', hc'⟩ : ∃ c', w'.calls[j]? = some c' := ⟨_, List.getElem?_eq_getElem hlt'⟩
  obtain ⟨c₀, hc₀, hop, _⟩ := call_before h hc' hlt
  obtain rfl := Option.some.inj (hc₀.symm.trans hj)
  exact ⟨c', hc', hop.symm⟩

/-- The first close stays the first. -/
theorem FirstClose.step {w w' : World γ} {a : Action} {k : ℕ} {c c' : Call}
    (hw : w.FirstClose k c) (h : w.step cb a = some w') (hk : w'.calls[k]? = some c')
    (hop : c'.op = .close) : w'.FirstClose k c' := by
  refine ⟨hk, hop, fun j hj d hd => ?_⟩
  have hlt : k < w.calls.length := (List.getElem?_eq_some_iff.mp hw.1).1
  obtain ⟨d₀, hd₀, hopd, _⟩ := call_before h hd (by omega)
  rw [← hopd]
  exact hw.2.2 j hj d₀ hd₀

/-- A close that has ended has ended for good. -/
theorem CloseFinished.step {w w' : World γ} {a : Action} (hw : w.CloseFinished)
    (h : w.step cb a = some w') : w'.CloseFinished := by
  obtain ⟨k, ending, hfirst⟩ := hw
  exact ⟨k, ending, hfirst.step h (call_stays h hfirst.1 (Or.inr rfl)) rfl⟩

/-- A request on a closed device closes nothing further. -/
theorem close_again {w : World γ} (hclosed : w.dev.closed = true) :
    w.close.calls = w.calls ++ [.done .close (.returned none)] := by
  unfold close
  rw [if_pos hclosed]
  obtain ⟨pc, hcalls, _, hpc⟩ := newCall_spec w (.done .close (.returned none))
  rw [hcalls]
  rcases hpc with rfl | ⟨rfl, _⟩
  · rfl
  · simp [newCall, callGoes, Call.awaits] at hcalls
    exact absurd hcalls (by simp [Call.died])

/-- The other calls of `async_close` have returned, at once, because the device was closed when
they began.  So there is one close that does the work. -/
theorem Closing.others_step {w w' : World γ} {a : Action} {k : ℕ} (hw : w.Closing k)
    (hclosed : w.dev.closed = true) (h : w.step cb a = some w') :
    ∀ j c, j ≠ k → w'.calls[j]? = some c → c.op = .close → c.isDone = true := by
  intro j c hjk hj hop
  by_cases hlt : j < w.calls.length
  · obtain ⟨c₀, hc₀, hop₀, hsame⟩ := call_before h hj hlt
    have hdone := hw.others j c₀ hjk hc₀ (hop₀.trans hop)
    rw [hsame hdone]
    exact hdone
  · have hlen : j < w'.calls.length := (List.getElem?_eq_some_iff.mp hj).1
    rcases calls_step h with hsame | ⟨r, pc, rfl, happend, hopr⟩ | ⟨_, _, _, _, _, _, _, hset⟩
    · rw [hsame] at hlen
      exact absurd hlen hlt
    · have hpc : c = pc := by
        rw [happend, List.getElem?_append_right (by omega)] at hj
        exact List.mem_singleton.mp (List.mem_of_getElem? hj)
      have hclose : r.op = .close := by rw [← hopr, ← hpc, hop]
      obtain rfl : r = .close := by cases r <;> simp_all [Request.op]
      obtain rfl := Option.some.inj h
      have hpc' : pc = .done .close (.returned none) := by
        have hcalls := happend.symm.trans (close_again hclosed)
        simpa using hcalls
      rw [hpc, hpc']
      rfl
    · rw [hset, List.length_set] at hlen
      exact absurd hlen hlt

/-- The result of the close's drop is posted only once nothing is open.  Afterwards the worker
opens nothing, so this is still so when the close takes the result up. -/
theorem drop_seals {w w' : World γ} {a : Action} {k : ℕ} (hw : w.Closable)
    (hclosed : w.dev.closed = true) (hk : w.calls[k]? = some .closeDropping)
    (hsealed : ∀ r ∈ w.results, r.waiter = .call k → w.Sealed)
    (h : w.step cb a = some w') : ∀ r ∈ w'.results, r.waiter = .call k → w'.Sealed := by
  intro r hr hx
  rcases step_moves h with hmove | hmove
  · rcases hmove.results with hold | ⟨x, rest, hworker, _, rfl⟩
    · rcases hold r hr with hr | hnot
      · exact (hsealed r hr hx).step h
      · -- the call has no job but its drop
        refine absurd ?_ hnot
        have hmem : (r.waiter, r.job) ∈ w'.pending :=
          List.mem_append_left _ (List.mem_map.mpr ⟨r, hr, rfl⟩)
        have htracked := hw.tracked.step h (.call k) (by simp)
        have hjob : r.job ∈ jobsOf (.call k) w'.pending := mem_jobsOf.mpr (hx ▸ hmem)
        rw [htracked] at hjob
        have hcall : w'.calls[k]? = some .closeDropping := by
          rw [hmove.keeps.calls, hk]
        simpa [awaits, hcall, Call.awaits] using hjob
    · refine ⟨by simpa [post] using hclosed, by simp [post], rfl, ?_⟩
      exact hw.holding.sockets.dropApi (by rw [hworker]; rfl) _
  · have hold : r ∈ w.results := hmove.ownerStep.results r hr (by simp [hx])
    exact (hsealed r hold hx).step h

/-- A step that does not move the close keeps what holds at its place.  What it waits for may only
have come nearer. -/
theorem ClosingAt.step {w w' : World γ} {a : Action} {k : ℕ} {c : Call} (hw : w.Closable)
    (hclosed : w.dev.closed = true) (hothers : ∀ j d, j ≠ k → w.calls[j]? = some d →
      d.op = .close → d.isDone = true)
    (hk : w.calls[k]? = some c) (hat : w.ClosingAt k c) (h : w.step cb a = some w') :
    w'.ClosingAt k c := by
  cases c with
  | closing =>
      apply accepting_step h hat
      intro d hd hdrop
      obtain ⟨j, hj⟩ := List.getElem?_of_mem hd
      subst hdrop
      by_cases hjk : j = k
      · rw [hjk, hk] at hj
        exact absurd hj (by simp)
      · exact absurd (hothers j _ hjk hj rfl) (by simp [Call.isDone])
  | closeDropping => exact drop_seals hw hclosed hk hat h
  | closeShutdown => exact Sealed.step hat h
  | _ => exact absurd hat id

/-- The background task has ended; the close submits its drop.  The executor still accepts it,
since no other close asks for a shutdown. -/
theorem closing_taskEnded {w : World γ} {k : ℕ} (hw : w.Closable)
    (hk : w.calls[k]? = some .closing) (hexec : w.executor = .accepting) :
    (w.callGoes k ⟨w.dev, w.client, .closeDropping⟩).calls[k]? = some .closeDropping ∧
      (w.callGoes k ⟨w.dev, w.client, .closeDropping⟩).ClosingAt k .closeDropping := by
  have hlt : k < w.calls.length := (List.getElem?_eq_some_iff.mp hk).1
  refine ⟨?_, fun r hr hx => ?_⟩
  · obtain ⟨pc, hcalls, _, hpc⟩ := callGoes_spec w k ⟨w.dev, w.client, .closeDropping⟩
    rcases hpc with rfl | ⟨_, hrefuse⟩
    · rw [hcalls, List.getElem?_set_self hlt]
    · exact absurd hrefuse (by simp [hexec, Executor.accepts])
  · -- it had no job before
    rw [callGoes_results] at hr
    have hjob : r.job ∈ jobsOf (.call k) w.pending :=
      mem_jobsOf.mpr (hx ▸ List.mem_append_left _ (List.mem_map.mpr ⟨r, hr, rfl⟩))
    rw [hw.tracked _ (by simp)] at hjob
    exact absurd hjob (by simp [awaits, hk, Call.awaits])

/-- The drop has run; the close lets the executor shut down.  A drop ends with nothing that the
close would raise. -/
theorem dropping_resumed {w : World γ} {i k : ℕ} {now : ℚ} {r : Result} {t : Turn γ Call}
    (hw : w.Closable) (hk : w.calls[k]? = some .closeDropping) (hr : w.results[i]? = some r)
    (hx : r.waiter = .call k)
    (ht : callResume cb now w.dev w.client .closeDropping r.value = some t) :
    ({ w with results := w.results.eraseIdx i }.callGoes k t).calls[k]? =
      some .closeShutdown := by
  have hjob : r.job = .wDrop := by
    have hawaits := (hw.tracked.of_result hr (by simp [hx])).1
    rw [hx] at hawaits
    simpa [awaits, hk, Call.awaits] using hawaits.symm
  have hvalue : r.value = .done :=
    hw.drained.drops r (List.mem_of_getElem? hr) (by simp [hx]) hjob
  have hlt : k < w.calls.length := (List.getElem?_eq_some_iff.mp hk).1
  rw [hvalue] at ht
  obtain rfl := Option.some.inj ht
  simp [callGoes, Call.awaits, hlt]

/-- **A close in progress** finishes with everything released, or goes on.  The cases are the
places of the close; every other step leaves it where it is. -/
theorem Closing.step {w w' : World γ} {a : Action} {k : ℕ} (hw : w.Closable)
    (hk : w.Closing k) (hclosed : w.dev.closed = true) (hkeys : w.KeyHeld)
    (hsafe : w.CloseSafe a) (h : w.step cb a = some w') :
    w'.CloseFinished ∧ w'.Released ∨ w'.Closing k := by
  obtain ⟨c, hfirst, hat⟩ := hk.stage
  have hgo : ∀ c', w'.calls[k]? = some c' → c'.op = .close → w'.ClosingAt k c' →
      w'.Closing k := fun c' hc' hop hat' =>
    ⟨⟨c', hfirst.step h hc' hop, hat'⟩, hk.others_step hclosed h⟩
  have hat_k : ∀ {pc}, w.calls[k]? = some pc → c = pc := fun hpc =>
    Option.some.inj (hfirst.1.symm.trans hpc)
  by_cases hact : w.actsOn a = some k
  · rcases step_moves h with hmove | hmove
    · cases hmove <;> exact absurd hact (by simp [actsOn])
    cases hmove with
    | @callResumed i n now r pc t hr hx hpc ht =>
        obtain rfl : n = k := by simpa [actsOn, hr, hx] using hact
        obtain rfl := hat_k hpc
        obtain rfl := (callResume_close hfirst.2.1 ht).1
        have hc' := dropping_resumed hw hpc hr hx ht
        have hsealed := (hat r (List.mem_of_getElem? hr) hx).step h
        exact Or.inr (hgo _ hc' rfl hsealed)
    | taskEnded hcall =>
        obtain rfl := Option.some.inj hact
        obtain rfl := hat_k hcall
        obtain ⟨hc', hat'⟩ := closing_taskEnded hw hcall hat
        exact Or.inr (hgo _ hc' rfl hat')
    | cancelSuppressed => exact Or.inr hk
    | shutdownCancelled hcall =>
        exact absurd (hsafe _ hcall) (by simp [Call.isClosing])
    | cancelled hcall _ hstage =>
        obtain rfl := Option.some.inj hact
        obtain rfl := hat_k hcall
        cases c with
        | closing => exact absurd rfl hstage.1
        | closeDropping => exact absurd (hsafe _ hcall) (by simp [Call.isClosing])
        | closeShutdown => exact absurd rfl hstage.2
        | _ => exact absurd hat id
    | keyReleased hcall hexec =>
        obtain rfl := Option.some.inj hact
        obtain rfl := hat_k hcall
        have hlt := (List.getElem?_eq_some_iff.mp hcall).1
        have hsealed : Sealed _ := Sealed.step hat h
        obtain ⟨hqueue, hworker⟩ := hw.drained.jobs hexec
        exact Or.inl ⟨⟨_, .returned none, hfirst.step h (by simp [hlt]) rfl⟩,
          hsealed, hexec, hqueue, hworker, hkeys⟩
    | loopResumed hr hx => exact absurd hact (by simp [actsOn, hr, hx])
    | forgotten hr hx => exact absurd hact (by simp [actsOn, hr, hx])
    | woken ha => rcases ha with rfl | rfl <;> exact absurd hact (by simp [actsOn])
    | _ => exact absurd hact (by simp [actsOn])
  · have hc' := call_stays h hfirst.1 (Or.inl hact)
    exact Or.inr (hgo c hc' hfirst.2.1 (hat.step hw hclosed hk.others hfirst.1 h))

/-- `async_close` sets the closed flag before anything else. -/
theorem RequestMove.closed {w w' : World γ} (h : RequestMove w .close w') :
    w'.dev.closed = true := by
  cases h with
  | called _ _ _ hclosed => simpa using (hclosed rfl).1
  | closeRaised => simp [marked]
  | closeDrops => simp [marked]
  | closeCancels =>
      rw [newCall_dev]
      rfl

/-- A device that is not closed: a request to close it begins the first close.  It waits for the
background task, or submits its drop at once where none is running. -/
theorem close_begins {w w' : World γ} (hw : w.Closable) (hopen : w.dev.closed = false)
    (hexec : w.executor = .accepting) (hnone : ∀ c ∈ w.calls, c.op ≠ .close)
    (hraised : w.loop.hasRaised = false) (h : RequestMove w .close w') :
    w'.Closing w.calls.length := by
  have hfirst : ∀ (w₀ : World γ) (pc pc' : Call), w₀.calls = w.calls →
      (w₀.newCall pc).calls = w₀.calls ++ [pc'] → pc'.op = .close →
      (w₀.newCall pc).ClosingAt w.calls.length pc' → (w₀.newCall pc).Closing w.calls.length := by
    intro w₀ pc pc' hw₀ hcalls hop hat
    rw [hw₀] at hcalls
    refine ⟨⟨pc', ⟨by rw [hcalls]; simp, hop, fun j hj c' hc' => ?_⟩, hat⟩,
      fun j c hj hc hclose => ?_⟩
    · rw [hcalls, List.getElem?_append_left hj] at hc'
      exact hnone c' (List.mem_of_getElem? hc')
    · rw [hcalls] at hc
      have hlt : j < w.calls.length := by
        have hlen := (List.getElem?_eq_some_iff.mp hc).1
        simp only [List.length_append, List.length_singleton] at hlen
        omega
      rw [List.getElem?_append_left hlt] at hc
      exact absurd hclose (hnone c (List.mem_of_getElem? hc))
  have hnothing : ∀ r ∈ w.results, r.waiter ≠ .call w.calls.length := by
    intro r hr hx
    have hjob : r.job ∈ jobsOf (.call w.calls.length) w.pending :=
      mem_jobsOf.mpr (hx ▸ List.mem_append_left _ (List.mem_map.mpr ⟨r, hr, rfl⟩))
    rw [hw.tracked _ (by simp)] at hjob
    exact absurd hjob (by simp [awaits])
  have hdropping : ∀ (w₀ : World γ), w₀.calls = w.calls → w₀.results = w.results →
      w₀.executor = .accepting → (w₀.newCall .closeDropping).Closing w.calls.length := by
    intro w₀ hcalls hresults hexec₀
    obtain ⟨pc', hnew, _, hpc⟩ := newCall_spec w₀ .closeDropping
    rcases hpc with rfl | ⟨_, hrefuse⟩
    · apply hfirst w₀ _ _ hcalls hnew rfl
      intro r hr hx
      rw [newCall_results, hresults] at hr
      exact absurd hx (hnothing r hr)
    · exact absurd hrefuse (by simp [hexec₀, Executor.accepts])
  cases h with
  | called _ _ _ hclosed => exact absurd (hopen.symm.trans (hclosed rfl).1) (by simp)
  | closeRaised _ hloop => exact absurd hraised (by rw [hloop]; simp [Loop.hasRaised])
  | closeDrops => exact hdropping _ rfl rfl hexec
  | closeCancels =>
      obtain ⟨pc', hnew, _, hpc⟩ :=
        newCall_spec ({ w.marked with loop := .ended .cancelled }.abandon .loop) .closing
      rcases hpc with rfl | ⟨_, hrefuse⟩
      · refine hfirst _ _ _ rfl hnew rfl ?_
        simp [ClosingAt, newCall, callGoes, Call.awaits, abandon, marked, hexec]
      · exact absurd hrefuse (by simp [abandon, marked, hexec, Executor.accepts])

/-- Only the owner's `async_reconfigure` and `async_close` change the settings and the closed
flag. -/
theorem settings_step {w w' : World γ} {a : Action} (h : w.step cb a = some w')
    (hreconfigure : ∀ changes, a ≠ .request (.reconfigure changes))
    (hclose : a ≠ .request .close) :
    w'.dev.config = w.dev.config ∧ w'.dev.closed = w.dev.closed := by
  have hgoes : ∀ {w₀ : World γ} {t : Turn γ Loop}, SameConnection w.dev t.dev →
      (w₀.loopGoes t).dev.config = w.dev.config ∧ (w₀.loopGoes t).dev.closed = w.dev.closed := by
    intro w₀ t ht
    rw [loopGoes_dev]
    exact ⟨ht.config, ht.closed⟩
  rcases step_moves h with hmove | hmove
  · exact ⟨hmove.keeps.config, hmove.keeps.closed⟩
  cases hmove with
  | startedBefore => exact ⟨rfl, rfl⟩
  | started => exact ⟨rfl, rfl⟩
  | begun => exact hgoes (loopTop_turned _ _ w.dev w.client).same
  | woken _ ht => exact hgoes (loopWake_turned ht).same
  | requested hmove =>
      cases hmove with
      | called => exact ⟨by simp, by simp⟩
      | reconfigured => exact absurd rfl (hreconfigure _)
      | closeRaised => exact absurd rfl hclose
      | closeDrops => exact absurd rfl hclose
      | closeCancels => exact absurd rfl hclose
  | loopResumed hr hx ht =>
      obtain ⟨job, hjob⟩ := loopResume_awaits ht
      exact hgoes (loopResume_turned hjob ht).same
  | callResumed hr hx hpc ht =>
      have hsame := (callResume_same ht).1
      exact ⟨by simpa using hsame.config, by simpa using hsame.closed⟩
  | taskEnded => exact ⟨by simp, by simp⟩
  | _ => exact ⟨rfl, rfl⟩

/-- `async_reconfigure` takes over the changed settings, unless their check raises. -/
theorem reconfigure_settings (w : World γ) (changes : Changes) :
    (w.reconfigure changes).dev.closed = w.dev.closed ∧
      (w.reconfigure changes).dev.config =
        ((w.dev.config.replace changes).toOption.getD w.dev.config) := by
  unfold reconfigure
  cases hreplace : w.dev.config.replace changes with
  | error e => simp [Except.toOption]
  | ok config =>
      dsimp only
      split
      · rename_i hsame
        simp [Except.toOption, hsame]
      · simp [Except.toOption]

/-- Only `async_close` sets the closed flag. -/
theorem closed_step {w w' : World γ} {a : Action} (h : w.step cb a = some w')
    (hclose : a ≠ .request .close) : w'.dev.closed = w.dev.closed := by
  by_cases hreconfigure : ∃ changes, a = .request (.reconfigure changes)
  · obtain ⟨changes, rfl⟩ := hreconfigure
    obtain rfl := Option.some.inj h
    exact (reconfigure_settings w changes).1
  · exact (settings_step h (fun changes ha => hreconfigure ⟨changes, ha⟩) hclose).2

/-- Without a request to close there is still no close.  The operation of a call never changes. -/
theorem no_close_step {w w' : World γ} {a : Action} (h : w.step cb a = some w')
    (hclose : a ≠ .request .close) (hnone : ∀ c ∈ w.calls, c.op ≠ .close) :
    ∀ c ∈ w'.calls, c.op ≠ .close := by
  intro c hc hop
  rcases calls_step h with hsame | ⟨r, pc, rfl, happend, hopr⟩ | ⟨j, c₀, c', _, hc₀, _, hop', hset⟩
  · exact hnone c (hsame ▸ hc) hop
  · rw [happend, List.mem_append] at hc
    rcases hc with hc | hc
    · exact hnone c hc hop
    · obtain rfl := List.mem_singleton.mp hc
      rw [hopr] at hop
      cases r <;> simp_all [Request.op]
  · rw [hset] at hc
    rcases List.mem_or_eq_of_mem_set hc with hc | rfl
    · exact hnone c hc hop
    · exact hnone c₀ (List.mem_of_getElem? hc₀) (hop'.symm.trans hop)

/-- A close in progress has not finished. -/
theorem Closing.not_finished {w : World γ} {k : ℕ} (hw : w.Closing k) : ¬ w.CloseFinished := by
  intro hparts
  obtain ⟨j, ending, hj⟩ := hparts
  obtain ⟨c, hc, hat⟩ := hw.stage
  rcases Nat.lt_trichotomy j k with hlt | rfl | hlt
  · exact hc.2.2 j hlt _ hj.1 rfl
  · obtain rfl : c = .done .close ending := Option.some.inj (hc.1.symm.trans hj.1)
    exact hat
  · exact hj.2.2 k hlt c hc.1 hc.2.1

/-- Where nobody has called `async_close`, none has finished. -/
theorem not_finished_of_none {w : World γ} (hnone : ∀ c ∈ w.calls, c.op ≠ .close) :
    ¬ w.CloseFinished := by
  intro hparts
  obtain ⟨j, ending, hj⟩ := hparts
  exact hnone _ (List.mem_of_getElem? hj.1) rfl

/-- A step that releases the key ends the close, so it cannot be one that leaves the close in
progress. -/
theorem Closing.no_release {w w' : World γ} {k i : ℕ} (hw : w.Closing k) (hw' : w'.Closing k)
    (h : w.shutdownDone i = some w') : False := by
  unfold World.shutdownDone at h
  split at h
  · rename_i hcall _
    obtain rfl := Option.some.inj h
    by_cases hik : i = k
    · subst hik
      obtain ⟨c, hc, hat⟩ := hw'.stage
      have hdone : c = .done .close (.returned none) := by
        simpa [(List.getElem?_eq_some_iff.mp hcall).1] using hc.1.symm
      subst hdone
      exact hat
    · exact absurd (hw.others i _ hik hcall rfl) (by simp [Call.isDone])
  · exact absurd h (by simp)

/-- **Every safe step keeps the invariant**, and one that ends the first close releases
everything. -/
theorem Closable.step {w w' : World γ} {a : Action} (hw : w.Closable) (hsafe : w.CloseSafe a)
    (h : w.step cb a = some w') :
    w'.Closable ∧ (¬ w.CloseFinished → w'.CloseFinished → w'.Released) := by
  have hkeep : w'.Tracked ∧ w'.Holding ∧ w'.Drained :=
    ⟨hw.tracked.step h, hw.holding.step hsafe h, hw.drained.step h⟩
  obtain ⟨htracked, hholding, hdrained⟩ := hkeep
  rcases hw.phase with hfinished | ⟨hkeys, ⟨hopen, hexec, hnone⟩ | ⟨hclosed, k, hk⟩⟩
  · exact ⟨⟨htracked, hholding, hdrained, Or.inl (hfinished.step h)⟩,
      fun hnot => absurd hfinished hnot⟩
  · have hkeys' : w'.KeyHeld := by
      refine hkeys.step (fun i => ?_) h
      intro heq
      obtain rfl := heq
      simp only [World.step, World.shutdownDone, hexec] at h
      exact absurd h (by simp)
    by_cases hclose : a = .request .close
    · subst hclose
      obtain rfl := Option.some.inj h
      have hmove := request_moves w .close
      have hclosed' := hmove.closed
      have hphase := close_begins hw hopen hexec hnone (hsafe hopen) hmove
      exact ⟨⟨htracked, hholding, hdrained, Or.inr ⟨hkeys', Or.inr ⟨hclosed', _, hphase⟩⟩⟩,
        fun _ hfin => absurd hfin hphase.not_finished⟩
    · have hnone' := no_close_step h hclose hnone
      have hexec' := accepting_step h hexec fun c hc hdrop => hnone c hc (by rw [hdrop]; rfl)
      exact ⟨⟨htracked, hholding, hdrained, Or.inr ⟨hkeys', Or.inl
        ⟨(closed_step h hclose).trans hopen, hexec', hnone'⟩⟩⟩,
        fun _ hfin => absurd hfin (not_finished_of_none hnone')⟩
  · rcases hk.step hw hclosed hkeys hsafe h with ⟨hfin, hreleased⟩ | hk'
    · exact ⟨⟨htracked, hholding, hdrained, Or.inl hfin⟩, fun _ _ => hreleased⟩
    · have hclosed' := closed_stays hclosed h
      have hkeys' : w'.KeyHeld := by
        refine hkeys.step (fun i => ?_) h
        intro heq
        obtain rfl := heq
        exact hk.no_release hk' h
      exact ⟨⟨htracked, hholding, hdrained, Or.inr ⟨hkeys', Or.inr ⟨hclosed', k, hk'⟩⟩⟩,
        fun _ hfin => absurd hfin hk'.not_finished⟩

/-- Nothing sealed is opened in any later step: no library connection is even created. -/
theorem Sealed.apis_length {w w' : World γ} {a : Action} (hw : w.Sealed)
    (h : w.step cb a = some w') : w'.apis.length = w.apis.length := by
  rcases step_moves h with hmove | hmove
  · exact (hw.worker hmove).2
  · rw [hmove.ownerStep.apis]

/-- No later step of any kind opens a connection. -/
theorem Sealed.run {w w' : World γ} {as : List Action} (hw : w.Sealed)
    (hrun : Run (World.step cb) Anything w as w') :
    w'.Sealed ∧ w'.apis.length = w.apis.length :=
  hrun.invariant (fun v => v.Sealed ∧ v.apis.length = w.apis.length)
    (fun _ _ _ hs _ h => ⟨hs.1.step h, (hs.1.apis_length h).trans hs.2⟩) ⟨hw, rfl⟩

/-- **A finished close has released everything.**  In every run whose steps are safe, when the
first `async_close` ends, no library connection is open, the executor is shut down with no job
left, each registration of a key has been released exactly once, and whatever happens later,
no connection is opened or even created again. -/
theorem close_releases {config : DeviceConfig} {timings : Timings} {hint : Option PyStr}
    {client : γ} {as : List Action} {a : Action} {w w' : World γ}
    (hrun : Run (World.step cb) CloseSafe (World.init config timings hint client) as w)
    (hsafe : w.CloseSafe a) (hstep : w.step cb a = some w')
    (hbefore : ¬ w.CloseFinished) (hafter : w'.CloseFinished) :
    w'.Released ∧ ∀ bs w'', Run (World.step cb) Anything w' bs w'' →
      w''.Sealed ∧ w''.apis.length = w'.apis.length := by
  have hw : w.Closable :=
    hrun.invariant Closable (fun _ _ _ hs hok h => (hs.step hok h).1)
      (Closable.init config timings hint client)
  have hreleased := (hw.step hsafe hstep).2 hbefore hafter
  exact ⟨hreleased, fun _ _ hlater => hreleased.sealed.run hlater⟩

/-- A device that connected, was closed, and whose executor is shut down; only the key is
still to be released. -/
def closedActions : List Action :=
  openActions ++ [.resume 0 0, .request .close, .work (statusReply true) 0, .resume 0 0,
    .beginShutdown, .finishShutdown]

/-- A device with one library connection is closed, and everything is released.  Whatever happens
afterwards, no connection is created and no socket is opened. -/
theorem close_releases_connected :
    ∃ w w' : World Unit, w.step (Callbacks.none Unit) (.shutdownDone 1) = some w' ∧
      w'.apis.length = 1 ∧
      (w'.Released ∧ ∀ bs w'', Run (World.step (Callbacks.none Unit)) Anything w' bs w'' →
        w''.Sealed ∧ w''.apis.length = w'.apis.length) := by
  let start : World Unit := .init exampleConfig {} none ()
  let execution := exec (step (Callbacks.none Unit)) start closedActions
  obtain ⟨w, hw⟩ := Option.isSome_iff_exists.mp (show execution.isSome = true by decide +kernel)
  have hrun : Run (step (Callbacks.none Unit)) CloseSafe start closedActions w :=
    Run.of_meets hw (by decide +kernel)
  have hfacts : ∀ v ∈ execution, ¬ v.CloseFinished ∧ ∃ v' ∈ v.shutdownDone 1,
      v'.CloseFinished ∧ v'.apis.length = 1 := by decide +kernel
  obtain ⟨hbefore, w', hstep, hafter, hapis⟩ := hfacts w hw
  have hdone : w.step (Callbacks.none Unit) (.shutdownDone 1) = some w' := hstep
  have hsafe : w.CloseSafe (.shutdownDone 1) := trivial
  exact ⟨w, w', hdone, hapis, close_releases hrun hsafe hdone hbefore hafter⟩

/-! ## A close that leaves everything as it is -/

/-- An owner whose status callback raises, as `PurifierState.from_dps` can. -/
def raisingStatus : Callbacks Unit :=
  { Callbacks.none Unit with onStatus := fun _ _ _ c => (c, some .valueError) }

/-- The background task connects, and the status callback ends it. -/
def raisedActions : List Action :=
  [.start, .begin 0, .take, .listVersions, .tryVersion none, .answer (statusReply true) none,
    .resume 0 0]

/-- After the background task ended with an exception, `async_close` raises that exception
and leaves the connection open, the executor running and the key registered. -/
theorem close_leaks_after_exception :
    ∃ w w' : World Unit,
      Run (step raisingStatus) Anything (.init exampleConfig {} none ()) raisedActions w ∧
      w.step raisingStatus (.request .close) = some w' ∧
      ¬ w.CloseFinished ∧ w'.CloseFinished ∧ ¬ w'.Released ∧
      w'.dev.api = some 0 ∧ (w'.apis.map Api.socket) = [true] ∧ w'.executor = .accepting ∧
      w'.registered = [exampleConfig.localKey] ∧ w'.released = [] := by
  let start : World Unit := .init exampleConfig {} none ()
  let execution := exec (step raisingStatus) start raisedActions
  obtain ⟨w, hw⟩ := Option.isSome_iff_exists.mp (show execution.isSome = true by decide +kernel)
  have hfacts : ∀ v ∈ execution, ¬ v.CloseFinished ∧ v.close.CloseFinished ∧
      v.close.dev.api = some 0 ∧ v.close.apis.map Api.socket = [true] ∧
      v.close.executor = .accepting ∧ v.close.registered = [exampleConfig.localKey] ∧
      v.close.released = [] := by decide +kernel
  obtain ⟨hbefore, hafter, hapi, hrest⟩ := hfacts w hw
  have hleak : ¬ w.close.Released := fun h => absurd (hapi.symm.trans h.sealed.api) (by simp)
  exact ⟨w, w.close, Run.of_exec hw, rfl, hbefore, hafter, hleak, hapi, hrest⟩

end World

end Lan
