import HaBirdie.LanClose

/-!
# New settings replace old connections

`async_reconfigure` changes the settings on the event loop and then has the worker drop the
connection.  Before the drop runs, the worker may hold a connection made from earlier settings,
or be trying versions that were listed under them, and such an open may still succeed.  But it
runs before the drop, and every open behind the drop reads the new settings.

So a connection made from earlier settings is held only while a drop is queued whose
`async_reconfigure` still waits for it (`UpToDate`).  A call that is cancelled first takes its
drop with it, and then the old connection stays.
-/

namespace Lan

open Python JobTracking StepRuns

variable {γ : Type} {cb : Callbacks γ}

/-- The versions that `_w_open` has still to try. -/
def Worker.left : Worker → List PyStr
  | .trying _ versions _ => versions
  | .asking _ _ _ rest _ => rest
  | _ => []

/-- The version may be used under the settings. -/
def VersionAllowed (config : DeviceConfig) (version : PyStr) : Prop :=
  config.protocolVersion ≠ protocolAuto → version = config.protocolVersion

/-- What `_versions_to_try` lists may be used. -/
theorem versionsToTry_allowed (dev : Device) :
    ∀ version ∈ versionsToTry dev, VersionAllowed dev.config version := by
  intro version hversion hauto
  unfold versionsToTry at hversion
  rw [if_pos hauto] at hversion
  exact List.mem_singleton.mp hversion

/-- An `async_reconfigure` in progress. -/
def Call.isReconfiguring : Call → Bool
  | .reconfiguring => true
  | _ => false

namespace World

/-- The library connection was created by `_new_api` from the settings that the device has now. -/
def FromSettings (w : World γ) (id : Nat) : Prop :=
  ∃ api version, w.apis[id]? = some api ∧ VersionAllowed w.dev.config version ∧
    { api with socket := false } = newApi w.dev version

/-- What the worker is asking and what it has still to try agrees with the settings. -/
structure OpensCurrent (w : World γ) : Prop where
  asked : ∀ id, w.worker.asks = some id → w.FromSettings id
  left : ∀ version ∈ w.worker.left, VersionAllowed w.dev.config version

/-- An `async_reconfigure` waits for a drop that is still queued. -/
def DropQueued (w : World γ) : Prop :=
  ∃ i, w.calls[i]? = some .reconfiguring ∧ (.call i, .wDrop) ∈ w.queue

/-- The connection held and the one being opened are made from the settings. -/
structure AllCurrent (w : World γ) : Prop where
  held : ∀ id, w.dev.api = some id → w.FromSettings id
  opens : w.OpensCurrent

/-- The invariant while the device is not closed. -/
structure UpToDate (w : World γ) : Prop where
  tracked : w.Tracked
  noClose : ∀ c ∈ w.calls, c.op ≠ .close
  accepting : w.executor = .accepting
  current : w.DropQueued ∨ w.AllCurrent

/-- A device just created holds no connection. -/
theorem UpToDate.init (config : DeviceConfig) (timings : Timings) (hint : Option PyStr)
    (client : γ) : (World.init config timings hint client).UpToDate where
  tracked := Tracked.init config timings hint client
  noClose := by simp [World.init]
  accepting := rfl
  current := by
    refine Or.inr ⟨?_, ?_, ?_⟩
    · intro id hid
      exact absurd hid (by simp [World.init])
    · intro id hid
      exact absurd hid (by simp [World.init, Worker.asks])
    · simp [World.init, Worker.left]

/-! ## Connections stay as they were created -/

/-- Library connections stay, but for their sockets. -/
def ApisStay (apis apis' : List Api) : Prop :=
  ∀ (id : Nat) (api : Api), apis[id]? = some api →
    ∃ socket, apis'[id]? = some { api with socket }

/-- Nothing changes where nothing happens. -/
theorem ApisStay.refl (apis : List Api) : ApisStay apis apis :=
  fun _ api hid => ⟨api.socket, hid⟩

/-- The settings of a library connection stay over several steps. -/
theorem ApisStay.trans {apis apis' apis'' : List Api} (h : ApisStay apis apis')
    (h' : ApisStay apis' apis'') : ApisStay apis apis'' := by
  intro id api hid
  obtain ⟨_, hid'⟩ := h id api hid
  obtain ⟨socket, hid''⟩ := h' id _ hid'
  exact ⟨socket, hid''⟩

/-- Opening and closing a socket changes no settings. -/
theorem setSocket_stay (id : Nat) (socket : Bool) (w : World γ) :
    ApisStay w.apis (w.setSocket id socket).apis := by
  intro k api hk
  by_cases hid : id = k
  · subst hid
    exact ⟨socket, by simp [setSocket, hk]⟩
  · exact ⟨api.socket, by simp [setSocket, hid, hk]⟩

/-- Nor does a drop. -/
theorem dropApi_stay (w : World γ) : ApisStay w.apis w.dropApi.apis := by
  unfold dropApi
  split
  · exact ApisStay.refl _
  · exact setSocket_stay _ false _

/-- Nor does one more connection. -/
theorem append_stay (apis new : List Api) : ApisStay apis (apis ++ new) := by
  intro id api hid
  refine ⟨api.socket, ?_⟩
  rw [List.getElem?_append_left (List.getElem?_eq_some_iff.mp hid).1]
  exact hid

/-- The worker appends connections, and opens and closes their sockets.  With what settings a
connection was made never changes. -/
theorem WorkerMove.apis_stay {w w' : World γ} {a : Action} (h : WorkerMove w a w') :
    ApisStay w.apis w'.apis := by
  cases h with
  | @took x rest => exact dropApi_stay { w with queue := rest }
  | created => exact append_stay _ _
  | @statusRaised reply _ _ id => exact setSocket_stay id reply.socket w
  | @opened _ _ _ id => exact setSocket_stay id true w
  | @closeRaised reply _ id =>
      exact (setSocket_stay id reply.socket w).trans (setSocket_stay id false _)
  | @unreachable reply _ id =>
      exact (setSocket_stay id reply.socket w).trans (setSocket_stay id false _)
  | @nextVersion reply _ id =>
      exact (setSocket_stay id reply.socket w).trans (setSocket_stay id false _)
  | @dropped _ _ _ rest => exact dropApi_stay { w with queue := rest }
  | @callRaised reply _ _ _ rest id =>
      exact setSocket_stay id reply.socket { w with queue := rest }
  | @callReturned reply _ _ _ rest id =>
      exact setSocket_stay id reply.socket { w with queue := rest }
  | _ => exact ApisStay.refl _

/-- A connection made from the settings stays one while they stay. -/
theorem FromSettings.congr {w w' : World γ} {id : Nat} (h : w.FromSettings id)
    (hconfig : w'.dev.config = w.dev.config) (hapis : ApisStay w.apis w'.apis) :
    w'.FromSettings id := by
  obtain ⟨api, version, hid, hallowed, hmade⟩ := h
  obtain ⟨socket, hid'⟩ := hapis id api hid
  refine ⟨_, version, hid', by rw [hconfig]; exact hallowed, ?_⟩
  rw [newApi, hconfig]
  exact hmade

/-! ## Steps of the worker -/

/-- Between two jobs nothing is being opened. -/
theorem OpensCurrent.idle {w : World γ} (hworker : w.worker = .idle) : w.OpensCurrent := by
  refine ⟨fun id hid => ?_, fun version hversion => ?_⟩
  · rw [hworker] at hid
    exact absurd hid (by simp [Worker.asks])
  · rw [hworker] at hversion
    exact absurd hversion (by simp [Worker.left])

/-- After a job that opens nothing, the connection held is the one from before. -/
theorem AllCurrent.ended {w w' : World γ} (hw : w.AllCurrent) (hworker : w'.worker = .idle)
    (hapi : w'.dev.api = w.dev.api) (hconfig : w'.dev.config = w.dev.config)
    (hapis : ApisStay w.apis w'.apis) : w'.AllCurrent := by
  refine ⟨fun id hid => ?_, OpensCurrent.idle hworker⟩
  rw [hapi] at hid
  exact (hw.held id hid).congr hconfig hapis

/-- **The worker** makes connections from the settings it reads.  It reads them when it creates
one, so they are the current ones. -/
theorem AllCurrent.worker {w w' : World γ} {a : Action} (hw : w.AllCurrent)
    (h : WorkerMove w a w') : w'.AllCurrent := by
  have hconfig := h.keeps.config
  have hapis := h.apis_stay
  cases h with
  | took =>
      refine ⟨fun id hid => absurd hid (by simp), fun id hid => ?_, fun version hversion => ?_⟩
      · exact absurd hid (by simp [Worker.asks])
      · exact absurd hversion (by simp [Worker.left])
  | listed =>
      refine ⟨hw.held, fun id hid => absurd hid (by simp [Worker.asks]), ?_⟩
      exact versionsToTry_allowed w.dev
  | @created x version rest errors hworker =>
      have hleft : ∀ v ∈ version :: rest, VersionAllowed w.dev.config v := by
        have := hw.opens.left
        rwa [hworker] at this
      refine ⟨fun id hid => (hw.held id hid).congr rfl hapis, fun id hid => ?_, ?_⟩
      · obtain rfl : w.apis.length = id := Option.some.inj hid
        exact ⟨newApi w.dev version, version, by simp, hleft version (by simp), rfl⟩
      · intro v hv
        exact hleft v (List.mem_cons_of_mem _ hv)
  | @opened _ _ _ id _ _ _ _ _ hworker =>
      refine ⟨fun k hk => ?_, OpensCurrent.idle rfl⟩
      obtain rfl : id = k := Option.some.inj hk
      exact (hw.opens.asked id (by rw [hworker]; rfl)).congr rfl hapis
  | @nextVersion _ _ id version rest _ _ hworker =>
      refine ⟨fun k hk => (hw.held k hk).congr rfl hapis,
        fun k hk => absurd hk (by simp [Worker.asks]), fun v hv => ?_⟩
      exact hw.opens.left v (by rw [hworker]; exact hv)
  | dropped =>
      refine ⟨fun id hid => absurd hid (by simp [post]), OpensCurrent.idle rfl⟩
  | skipped hworker => exact hw.ended hworker rfl rfl hapis
  | @callReturned reply now _ c =>
      exact hw.ended rfl (noteTimes_same c reply now w.dev).1 hconfig hapis
  | _ => exact hw.ended rfl rfl rfl hapis

/-- A queued drop stays queued, or is the job that the worker has just run.  What was opened before
is dropped by it, and what comes after it has the new settings. -/
theorem DropQueued.worker {w w' : World γ} {a : Action} (hw : w.DropQueued)
    (h : WorkerMove w a w') : w'.DropQueued ∨ w'.AllCurrent := by
  obtain ⟨i, hi, hqueued⟩ := hw
  have hcalls := h.keeps.calls
  have hrest : ∀ {x : Waiter} {job : Job} {rest : List (Waiter × Job)},
      w.queue = (x, job) :: rest → (x, job) ≠ (.call i, .wDrop) → (.call i, .wDrop) ∈ rest := by
    intro x job rest hqueue hne
    rw [hqueue] at hqueued
    rcases List.mem_cons.mp hqueued with heq | hmem
    · exact absurd heq.symm hne
    · exact hmem
  cases h with
  | took _ hqueue => exact Or.inl ⟨i, by simpa using hi, by simpa using hrest hqueue (by simp)⟩
  | dropped =>
      refine Or.inr ⟨fun id hid => absurd hid (by simp [post]), OpensCurrent.idle rfl⟩
  | notHeld _ hqueue => exact Or.inl ⟨i, hi, hrest hqueue (by simp)⟩
  | callRaised _ hqueue => exact Or.inl ⟨i, hi, hrest hqueue (by simp)⟩
  | callReturned _ hqueue => exact Or.inl ⟨i, hi, hrest hqueue (by simp)⟩
  | skipped _ hqueue => exact Or.inl ⟨i, hi, hrest hqueue (by simp)⟩
  | _ => exact Or.inl ⟨i, hi, hqueued⟩

/-! ## Steps on the event loop -/

/-- The assumptions on a step: the device is not closed, and no `async_reconfigure` is cancelled
while its drop is queued. -/
def DropsRun (w : World γ) : Action → Prop
  | .request .close => False
  | .cancel i => w.calls[i]? = some .reconfiguring → (.call i, .wDrop) ∉ w.queue
  | _ => True

/-- A coroutine that is cancelled changes nothing of what the worker still has to try. -/
theorem abandon_left (x : Waiter) (w : World γ) : (w.abandon x).worker.left = w.worker.left := by
  unfold abandon
  cases w.worker <;> rfl

/-- The event loop leaves the connections alone where the settings stay. -/
theorem AllCurrent.owner {w w' : World γ} (hw : w.AllCurrent) (hstep : OwnerStep w w')
    (hleft : w'.worker.left = w.worker.left) (hconfig : w'.dev.config = w.dev.config) :
    w'.AllCurrent := by
  have hapis : ApisStay w.apis w'.apis := by
    rw [hstep.apis]
    exact ApisStay.refl _
  refine ⟨fun id hid => ?_, fun id hid => ?_, fun version hversion => ?_⟩
  · rw [hstep.api] at hid
    exact (hw.held id hid).congr hconfig hapis
  · rw [hstep.asks] at hid
    exact (hw.opens.asked id hid).congr hconfig hapis
  · rw [hleft] at hversion
    rw [hconfig]
    exact hw.opens.left version hversion

/-- A queued drop stays where jobs are only added and its call is not moved. -/
theorem DropQueued.congr {w w' : World γ} (hw : w.DropQueued)
    (hcalls : ∀ i, w.calls[i]? = some .reconfiguring → (.call i, .wDrop) ∈ w.queue →
      w'.calls[i]? = some .reconfiguring)
    (hqueue : ∀ i, (.call i, .wDrop) ∈ w.queue → (.call i, .wDrop) ∈ w'.queue) :
    w'.DropQueued := by
  obtain ⟨i, hi, hqueued⟩ := hw
  exact ⟨i, hcalls i hi hqueued, hqueue i hqueued⟩

/-- `_run` goes on. -/
theorem DropQueued.loopGoes {w w₀ : World γ} (hw : w.DropQueued) (hcalls : w₀.calls = w.calls)
    (hqueue : w₀.queue = w.queue) (t : Turn γ Loop) : (w₀.loopGoes t).DropQueued := by
  apply hw.congr (fun i hi _ => by simpa [hcalls] using hi)
  intro i hi
  rw [loopGoes_queue, hqueue]
  exact List.mem_append_left _ hi

/-- A call begins. -/
theorem DropQueued.newCall {w : World γ} (hw : w.DropQueued) (pc : Call) :
    (w.newCall pc).DropQueued := by
  obtain ⟨pc', hcalls, hqueue, _⟩ := newCall_spec w pc
  refine hw.congr (fun i hi _ => ?_) fun i hi => ?_
  · rw [hcalls, List.getElem?_append_left (List.getElem?_eq_some_iff.mp hi).1]
    exact hi
  · rw [hqueue]
    exact List.mem_append_left _ hi

/-- Another call goes on. -/
theorem DropQueued.callGoes {w w₀ : World γ} (hw : w.DropQueued) (hcalls : w₀.calls = w.calls)
    (hqueue : w₀.queue = w.queue) {n : Nat} (t : Turn γ Call)
    (hother : (.call n, .wDrop) ∉ w.queue) : (w₀.callGoes n t).DropQueued := by
  obtain ⟨pc', hcalls', hqueue', _⟩ := callGoes_spec w₀ n t
  refine hw.congr (fun i hi hqueued => ?_) fun i hi => ?_
  · have hne : n ≠ i := by
      rintro rfl
      exact hother hqueued
    rw [hcalls', hcalls, List.getElem?_set_ne hne]
    exact hi
  · rw [hqueue', hqueue]
    exact List.mem_append_left _ hi

/-- A call whose result waits has no job queued. -/
theorem Tracked.not_queued {w : World γ} (hw : w.Tracked) {i n : Nat} {r : Result}
    (hr : w.results[i]? = some r) (hx : r.waiter = .call n) (job : Job) :
    (.call n, job) ∉ w.queue := by
  intro hqueued
  obtain ⟨_, hnone, _⟩ := hw.of_result hr (by rw [hx]; simp)
  have hmem : job ∈ jobsOf r.waiter { w with results := w.results.eraseIdx i }.pending := by
    rw [hx]
    exact mem_jobsOf.mpr (by simp [pending, hqueued])
  rw [hnone] at hmem
  exact absurd hmem (by simp)

/-- The settings change only together with a new drop. -/
theorem reconfigured_queued {w : World γ} (hexec : w.executor = .accepting) (dev : Device)
    (registered released : List PyStr) :
    ({ w with dev, registered, released }.newCall .reconfiguring).DropQueued := by
  let w₁ : World γ := { w with dev, registered, released }
  obtain ⟨pc, hcalls, hqueue, hpc⟩ := newCall_spec w₁ .reconfiguring
  rcases hpc with rfl | ⟨_, hrefused⟩
  · refine ⟨w.calls.length, ?_, ?_⟩
    · rw [hcalls]
      simp [w₁]
    · rw [hqueue]
      simp [Call.awaits, w₁]
  · rw [show w₁.executor = .accepting from hexec] at hrefused
    exact absurd hrefused (by simp [Executor.accepts])

/-- A call other than the one that waits for the drop is cancelled.  Its job is nobody's then, but
the drop is not its job. -/
theorem DropQueued.cancelled {w : World γ} (hw : w.DropQueued) {n : Nat} (pc : Call)
    (hother : w.calls[n]? = some .reconfiguring → (.call n, .wDrop) ∉ w.queue) :
    ({ w with calls := w.calls.set n pc }.abandon (.call n)).DropQueued := by
  obtain ⟨i, hi, hqueued⟩ := hw
  have hne : n ≠ i := by
    rintro rfl
    exact hother hi hqueued
  refine ⟨i, ?_, ?_⟩
  · show (w.calls.set n pc)[i]? = some .reconfiguring
    rw [List.getElem?_set_ne hne]
    exact hi
  · show (.call i, .wDrop) ∈ relabel (.call n) .nobody w.queue
    refine List.mem_map.mpr ⟨_, hqueued, ?_⟩
    have hcall : Waiter.call i ≠ .call n := fun heq => hne (Waiter.call.inj heq).symm
    simp [hcall]

/-- **A step on the event loop** keeps a queued drop or the current connections, or changes the
settings and queues a drop. -/
theorem UpToDate.owner {w w' : World γ} {a : Action} (hw : w.UpToDate) (hok : w.DropsRun a)
    (h : OwnerMove cb w a w') : w'.DropQueued ∨ w'.AllCurrent := by
  have hstep := h.ownerStep
  have hkeeps : (w.DropQueued → w'.DropQueued) → w'.worker.left = w.worker.left →
      w'.dev.config = w.dev.config → w'.DropQueued ∨ w'.AllCurrent := by
    intro hdrop hleft hconfig
    exact hw.current.imp hdrop fun hcurrent => hcurrent.owner hstep hleft hconfig
  have hopen : ∀ {i : Nat} {pc : Call}, w.calls[i]? = some pc → pc.op ≠ .close :=
    fun hcall => hw.noClose _ (List.mem_of_getElem? hcall)
  cases h with
  | startedBefore => exact hw.current
  | started => exact hkeeps (fun hd => hd.congr (fun _ hi _ => hi) fun _ => id) rfl rfl
  | begun =>
      exact hkeeps (fun hd => hd.loopGoes rfl rfl _) (by simp)
        (by simpa using (loopTop_turned _ _ w.dev w.client).same.config)
  | woken _ ht =>
      exact hkeeps (fun hd => hd.loopGoes rfl rfl _) (by simp)
        (by simpa using (loopWake_turned ht).same.config)
  | requested hmove =>
      cases hmove with
      | called => exact hkeeps (fun hd => hd.newCall _) (by simp) (by simp)
      | reconfigured => exact Or.inl (reconfigured_queued hw.accepting _ _ _)
      | closeRaised => exact hok.elim
      | closeDrops => exact hok.elim
      | closeCancels => exact hok.elim
  | loopResumed hr hx ht =>
      obtain ⟨job, hjob⟩ := loopResume_awaits ht
      refine hkeeps (fun hd => ?_) (by simp)
        (by simpa using (loopResume_turned hjob ht).same.config)
      exact DropQueued.loopGoes hd (by rfl) (by rfl) _
  | callResumed hr hx hpc ht =>
      have hother := hw.tracked.not_queued hr hx .wDrop
      refine hkeeps (fun hd => ?_) (by simp) (by simpa using (callResume_same ht).1.config)
      exact DropQueued.callGoes hd (by rfl) (by rfl) _ hother
  | forgotten => exact hkeeps (fun hd => hd.congr (fun _ hi _ => hi) fun _ => id) rfl rfl
  | taskEnded hcall => exact absurd rfl (hopen hcall)
  | cancelSuppressed => exact hw.current
  | shutdownCancelled hcall => exact absurd rfl (hopen hcall)
  | cancelled =>
      exact hkeeps (fun hd => hd.cancelled _ hok) (abandon_left _ { w with calls := _ }) rfl
  | shutdownBegun hexec => exact absurd (hw.accepting.symm.trans hexec) (by simp)
  | shutdownFinished hexec => exact absurd (hw.accepting.symm.trans hexec) (by simp)
  | keyReleased hcall => exact absurd rfl (hopen hcall)

/-- **One step** of a device that is not closed.  Either every connection has the current settings,
or a drop is queued that ends the old one. -/
theorem UpToDate.step {w w' : World γ} {a : Action} (hw : w.UpToDate) (hok : w.DropsRun a)
    (h : w.step cb a = some w') : w'.UpToDate := by
  have hclose : a ≠ .request .close := by
    rintro rfl
    exact hok
  refine
    { tracked := hw.tracked.step h, noClose := no_close_step h hclose hw.noClose,
      accepting := ?accepting, current := ?current }
  case accepting =>
    apply accepting_step h hw.accepting
    intro c hc
    rintro rfl
    exact hw.noClose _ hc rfl
  case current =>
    rcases step_moves h with hmove | hmove
    · rcases hw.current with hdrop | hcurrent
      · exact hdrop.worker hmove
      · exact Or.inr (hcurrent.worker hmove)
    · exact hw.owner hok hmove

/-- **New settings replace old connections.**  In every run on a device that is not closed, with
any number of overlapping `async_reconfigure` calls of which none is cancelled while its drop
is queued: whenever none is in progress, a library connection that is held was created from
the settings the device has now. -/
theorem held_from_settings {config : DeviceConfig} {timings : Timings} {hint : Option PyStr}
    {client : γ} {as : List Action} {w : World γ}
    (hrun : Run (World.step cb) DropsRun (World.init config timings hint client) as w)
    (hnone : ∀ c ∈ w.calls, c.isReconfiguring = false) {id : Nat} (hheld : w.dev.api = some id) :
    w.FromSettings id := by
  have hw := hrun.invariant UpToDate (fun _ _ _ hs hok h => hs.step hok h)
    (UpToDate.init config timings hint client)
  rcases hw.current with ⟨i, hi, _⟩ | hcurrent
  · exact absurd (hnone _ (List.mem_of_getElem? hi)) (by simp [Call.isReconfiguring])
  · exact hcurrent.held id hheld

/-! ## Examples -/

instance (c : Call) : Decidable (c = .reconfiguring) :=
  decidable_of_iff (c.isReconfiguring = true) (by cases c <;> simp [Call.isReconfiguring])

instance (c : Option Call) : Decidable (c = some .reconfiguring) :=
  match c with
  | none => isFalse (by simp)
  | some c => decidable_of_iff (c = .reconfiguring) (by simp)

instance (job : Job) : Decidable (job = .wDrop) :=
  match job with
  | .wDrop => isTrue rfl
  | .wOpen | .wCall _ => isFalse (by simp)

instance (x : Waiter) (queue : List (Waiter × Job)) : Decidable ((x, .wDrop) ∈ queue) :=
  decidable_of_iff (∃ p ∈ queue, p.1 = x ∧ p.2 = .wDrop)
    ⟨fun ⟨_, hp, hx, hjob⟩ => by rw [← hx, ← hjob]; exact hp, fun h => ⟨_, h, rfl, rfl⟩⟩

instance (w : World γ) : (a : Action) → Decidable (w.DropsRun a)
  | .request .close => isFalse id
  | .cancel i => inferInstanceAs (Decidable (w.calls[i]? = some .reconfiguring → _))
  | .start | .begin _ | .wakeUp _ | .timeout _ | .request .connect | .request .refresh
  | .request (.setDps _) | .request (.reconfigure _) | .resume _ _ | .taskEnded _ | .take
  | .listVersions | .tryVersion _ | .answer _ _ | .work _ _ | .skip | .beginShutdown
  | .finishShutdown | .shutdownDone _ => isTrue trivial

/-- A new address for the device of the examples. -/
def moved : Changes := { host := some (py "192.168.1.21") }

/-- The device connects, gets a new address, and connects again. -/
def movedActions : List Action :=
  openActions ++ [.resume 0 0, .request (.reconfigure moved), .work (statusReply true) 0,
    .resume 0 0, .request .connect, .take, .listVersions, .tryVersion none,
    .answer (statusReply true) none]

/-- The address of a connected device changes: the second connection is held, with the new
address. -/
theorem held_from_settings_after_move :
    ∃ w : World Unit, w.dev.config.host = py "192.168.1.21" ∧ w.dev.api = some 1 ∧
      w.FromSettings 1 := by
  let start : World Unit := .init exampleConfig {} none ()
  let execution := exec (step (Callbacks.none Unit)) start movedActions
  obtain ⟨w, hw⟩ := Option.isSome_iff_exists.mp (show execution.isSome = true by decide +kernel)
  have hrun : Run (step (Callbacks.none Unit)) DropsRun start movedActions w :=
    Run.of_meets hw (by decide +kernel)
  have hfacts : ∀ v ∈ execution, v.dev.config.host = py "192.168.1.21" ∧ v.dev.api = some 1 ∧
      ∀ c ∈ v.calls, c.isReconfiguring = false := by decide +kernel
  obtain ⟨hhost, hheld, hnone⟩ := hfacts w hw
  exact ⟨w, hhost, hheld, held_from_settings hrun hnone hheld⟩

/-- Library calls return, and the device is not closed. -/
def Returning (_ : World γ) : Action → Prop
  | .request .close => False
  | .tryVersion failure => failure = none
  | .answer reply closeFailure => reply.outcome.isOk = true ∧ closeFailure = none
  | .work reply _ => reply.outcome.isOk = true
  | _ => True

instance (w : World γ) : (a : Action) → Decidable (w.Returning a)
  | .request .close => isFalse id
  | .tryVersion failure => inferInstanceAs (Decidable (failure = none))
  | .answer reply closeFailure =>
      inferInstanceAs (Decidable (reply.outcome.isOk = true ∧ closeFailure = none))
  | .work reply _ => inferInstanceAs (Decidable (reply.outcome.isOk = true))
  | .start | .begin _ | .wakeUp _ | .timeout _ | .request .connect | .request .refresh
  | .request (.setDps _) | .request (.reconfigure _) | .resume _ _ | .taskEnded _ | .cancel _
  | .take | .listVersions | .skip | .beginShutdown | .finishShutdown
  | .shutdownDone _ => isTrue trivial

/-- **A cancelled `async_reconfigure` takes its drop with it.**  No call is in progress any more,
and the connection to the old address is still held. -/
theorem cancelled_reconfigure_keeps_connection :
    ¬ ∀ (as : List Action) (w : World Unit) (id : Nat),
      Run (step (Callbacks.none Unit)) Returning (.init exampleConfig {} none ()) as w →
      (∀ c ∈ w.calls, c.isReconfiguring = false) → w.dev.api = some id → w.FromSettings id := by
  intro hclaim
  let start : World Unit := .init exampleConfig {} none ()
  let actions : List Action := openActions ++ [.resume 0 0, .request (.reconfigure moved),
    .cancel 1, .skip]
  let execution := exec (step (Callbacks.none Unit)) start actions
  obtain ⟨w, hw⟩ := Option.isSome_iff_exists.mp (show execution.isSome = true by decide +kernel)
  have hrun : Run (step (Callbacks.none Unit)) Returning start actions w :=
    Run.of_meets hw (by decide +kernel)
  have hfacts : ∀ v ∈ execution, v.dev.api = some 0 ∧
      (∀ c ∈ v.calls, c.isReconfiguring = false) ∧
      ∀ api ∈ v.apis[0]?, api.config ≠ v.dev.config := by decide +kernel
  obtain ⟨hheld, hnone, hold⟩ := hfacts w hw
  obtain ⟨api, version, hapi, _, hmade⟩ := hclaim actions w 0 hrun hnone hheld
  exact hold api hapi (congrArg Api.config hmade)

end World

end Lan
