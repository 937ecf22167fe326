import HaBirdie.LanClose
import HaBirdie.PurifierCoordinator

/-!
# When the background task survives its reports

`_run` catches `LanError` only.  What the status callback raises therefore ends it: with the
purifier coordinator's callbacks, that is a report after which the known DPs do not decode
(`Decodable`), or a reconnect when they did not decode before.

`loop_survives` is the whole-run statement: while library calls return and every report that
the background task takes up decodes (`ReportDecodes`), the task ends only after
`async_close`.  `loop_dies` says that the condition is exact for each report, and
`loop_dies_of_nan` is a run in which one number ends the task.
-/

namespace Lan

open Python StepRuns Purifier

/-- `_run` has ended. -/
def Loop.isEnded : Loop → Bool
  | .ended _ => true
  | _ => false

/-- The values of a job whose library calls return. -/
def normalFor : Job → JobValue → Bool
  | .wOpen, .opened _ _ => true
  | .wOpen, .raised (.lan _) => true
  | .wDrop, .done => true
  | .wCall .status, .dps _ => true
  | .wCall .heartbeat, .done => true
  | .wCall .receive, .received _ => true
  | .wCall (.set _), .done => true
  | .wCall _, .raised (.lan (.connectionLost _)) => true
  | _, _ => false

/-- The report of a result decodes, together with what the device reported before. On a
reconnect the coordinator decodes what was known before as well, if it has published data. -/
def ReportDecodes (dev : Device) (c : Coordinator) : JobValue → Prop
  | .opened _ dps =>
      Decodable (dev.dps.update dps) ∧
        (dev.available = false → c.data ≠ none → Decodable dev.dps)
  | .dps dps => Decodable (dev.dps.update dps)
  | .received (some dps) => reportsNews dev.dps dps = true → Decodable (dev.dps.update dps)
  | _ => True

/-! ## What the coordinator's callbacks raise in the client -/

/-- A full report raises exactly if the merged DPs do not decode. -/
theorem handleDps_full_raised (now : ℚ) (report : PyDict) (dev : Device) (c : Coordinator) :
    (handleDps Coordinator.callbacks now report true dev c).raised = none ↔
      Decodable (dev.dps.update report) := by
  unfold handleDps
  rw [if_pos (by simp)]
  exact Coordinator.publish_raised _ c

/-- A pushed report raises exactly if it brings news and the merged DPs do not decode. -/
theorem handleDps_push_raised (now : ℚ) (report : PyDict) (dev : Device) (c : Coordinator) :
    (handleDps Coordinator.callbacks now report false dev c).raised = none ↔
      (reportsNews dev.dps report = true → Decodable (dev.dps.update report)) := by
  unfold handleDps
  by_cases hnews : reportsNews dev.dps report = true
  · rw [if_pos (by simp [hnews])]
    refine (Coordinator.publish_raised _ c).trans ?_
    simp [hnews, mergeReport]
  · rw [if_neg (by simpa using hnews)]
    simp [hnews]

/-- A handled open raises exactly if one of the two decodings does: of what was known, where the
device was unavailable, and of what is known now. -/
theorem handleConnected_raised (now : ℚ) (version : PyStr) (dps : PyDict) (dev : Device)
    (c : Coordinator) :
    (handleConnected Coordinator.callbacks now version dps dev c).raised = none ↔
      ReportDecodes dev c (.opened version dps) := by
  unfold handleConnected setAvailable Handled.andThen ReportDecodes
  dsimp only
  by_cases hav : true = dev.available
  · rw [if_pos hav]
    refine (handleDps_full_raised _ _ _ _).trans ?_
    simp [← hav]
  · rw [if_neg hav]
    have hoff : dev.available = false := by simpa using Ne.symm hav
    have hset := Coordinator.onAvailability_raised none
      { dev with
        version := some version, lastError := none, lastRx := now, lastHeartbeat := now,
        available := true } now c
    simp only [Coordinator.callbacks]
    cases hraised : (Coordinator.onAvailability true none
      { dev with
        version := some version, lastError := none, lastRx := now, lastHeartbeat := now,
        available := true } now c).2 with
    | some e =>
        rw [hraised] at hset
        simp only [reduceCtorEq, false_iff] at hset ⊢
        exact fun ⟨_, hold⟩ => hset fun hdata => hold hoff hdata
    | none =>
        rw [hraised] at hset
        dsimp only
        refine (handleDps_full_raised _ _ _ _).trans ?_
        have hold := hset.mp rfl
        exact ⟨fun h => ⟨h, fun _ => hold⟩, And.left⟩

/-- Announcing that the device is lost raises nothing: the coordinator publishes only what it
has. -/
theorem setAvailable_false_raised (now : ℚ) (error : Option LanError) (dev : Device)
    (c : Coordinator) :
    (setAvailable Coordinator.callbacks now false error dev c).raised = none := by
  unfold setAvailable
  split
  · rfl
  · exact Coordinator.onAvailability_false_raised error _ now c

/-- Nor does announcing that an open failed. -/
theorem openFailed_raised (now : ℚ) (error : LanError) (dev : Device) (c : Coordinator) :
    (openFailed Coordinator.callbacks now error dev c).raised = none := by
  unfold openFailed Handled.andThen
  rw [setAvailable_false_raised]
  exact Coordinator.onError_raised error _ now _

/-! ## One turn of the background task -/

/-- The head of the loop ends it only on a closed device. -/
theorem loopTop_alive {γ : Type} (now b : ℚ) {dev : Device} (c : γ) (hopen : dev.closed = false) :
    (loopTop now b dev c).pc.isEnded = false := by
  unfold loopTop loopStep loopLost
  rw [if_neg (by simp [hopen])]
  split
  · rfl
  split
  · rfl
  split
  · rfl
  split <;> rfl

/-- A background task that an exception ended has ended. -/
theorem died_isEnded (e : PyException) : (Loop.died e).isEnded = true := rfl

/-- A turn after handling ends the loop exactly if a callback raised. -/
theorem Handled.turn_alive {h : Handled Coordinator}
    {k : Device → Coordinator → Turn Coordinator Loop}
    (hk : (k h.dev h.client).pc.isEnded = false) :
    (h.turn .died k).pc.isEnded = false ↔ h.raised = none := by
  unfold Handled.turn
  cases h.raised with
  | some e => simp [died_isEnded]
  | none => simpa using hk

/-- **One result.**  The background task of an open device goes on after the result of a job
whose library calls returned, exactly if the report in it decodes. -/
theorem loopResume_alive {now : ℚ} {dev : Device} {c : Coordinator} {pc : Loop} {job : Job}
    {value : JobValue} {t : Turn Coordinator Loop} (hjob : pc.awaits = some job)
    (hnormal : normalFor job value = true) (hopen : dev.closed = false)
    (h : loopResume Coordinator.callbacks now dev c pc value = some t) :
    t.pc.isEnded = false ↔ ReportDecodes dev c value := by
  have htop : ∀ (b : ℚ) (hd : Handled Coordinator), SameLink dev hd.dev →
      (loopTop now b hd.dev hd.client).pc.isEnded = false := fun b hd hlink =>
    loopTop_alive now b hd.client (hlink.closed.trans hopen)
  have hlost : ∀ b why, (loopFailed b (.lan (.connectionLost why)) dev c).pc.isEnded = false :=
    fun _ _ => rfl
  cases pc with
  | opening b =>
      obtain rfl : Job.wOpen = job := Option.some.inj hjob
      cases value with
      | opened version dps =>
          obtain rfl := Option.some.inj h
          rw [Handled.turn_alive (htop _ _ (handleConnected_sameLink _ now version dps dev c))]
          exact handleConnected_raised now version dps dev c
      | raised r =>
          cases r with
          | lan e =>
              obtain rfl := Option.some.inj h
              have hsleep : (loopSleep (.backingOff b)
                  (openFailed Coordinator.callbacks now e dev c).dev
                  (openFailed Coordinator.callbacks now e dev c).client).pc.isEnded = false := rfl
              rw [Handled.turn_alive hsleep]
              simp [openFailed_raised, ReportDecodes]
          | foreign e => exact absurd hnormal (by simp [normalFor])
      | _ => exact absurd hnormal (by simp [normalFor])
  | reading b =>
      obtain rfl : Job.wCall .status = job := Option.some.inj hjob
      cases value with
      | dps dps =>
          obtain rfl := Option.some.inj h
          rw [Handled.turn_alive (htop _ _ (handleDps_sameLink _ now dps true dev c))]
          exact handleDps_full_raised now dps dev c
      | raised r =>
          obtain rfl := Option.some.inj h
          rcases r with ⟨_ | why | _⟩ | e
          case lan.connectionLost => simp [hlost, ReportDecodes]
          all_goals exact absurd hnormal (by simp [normalFor])
      | _ => exact absurd hnormal (by simp [normalFor])
  | beating b =>
      obtain rfl : Job.wCall .heartbeat = job := Option.some.inj hjob
      cases value with
      | done =>
          obtain rfl := Option.some.inj h
          simp [Loop.isEnded, ReportDecodes]
      | raised r =>
          obtain rfl := Option.some.inj h
          rcases r with ⟨_ | why | _⟩ | e
          case lan.connectionLost => simp [hlost, ReportDecodes]
          all_goals exact absurd hnormal (by simp [normalFor])
      | _ => exact absurd hnormal (by simp [normalFor])
  | receiving b =>
      obtain rfl : Job.wCall .receive = job := Option.some.inj hjob
      cases value with
      | received dps? =>
          cases dps? with
          | none =>
              obtain rfl := Option.some.inj h
              simp [loopTop_alive now b c hopen, ReportDecodes]
          | some dps =>
              simp only [loopResume] at h
              split at h
              · -- an empty report brings no news
                rename_i hempty
                obtain rfl := Option.some.inj h
                have hnews : reportsNews dev.dps dps = false := by
                  simp [reportsNews, List.isEmpty_iff.mp hempty]
                simp [loopTop_alive now b c hopen, ReportDecodes, hnews]
              · obtain rfl := Option.some.inj h
                rw [Handled.turn_alive (htop _ _ (handleDps_sameLink _ now dps false dev c))]
                exact handleDps_push_raised now dps dev c
      | raised r =>
          obtain rfl := Option.some.inj h
          rcases r with ⟨_ | why | _⟩ | e
          case lan.connectionLost => simp [hlost, ReportDecodes]
          all_goals exact absurd hnormal (by simp [normalFor])
      | _ => exact absurd hnormal (by simp [normalFor])
  | dropping b why =>
      obtain rfl : Job.wDrop = job := Option.some.inj hjob
      cases value with
      | done =>
          obtain rfl := Option.some.inj h
          have hsleep : (loopSleep (.pausing b)
              (setAvailable Coordinator.callbacks now false (some (.connectionLost why)) dev c).dev
              (setAvailable Coordinator.callbacks now false (some (.connectionLost why)) dev
                c).client).pc.isEnded = false := rfl
          rw [Handled.turn_alive hsleep]
          simp [setAvailable_false_raised, ReportDecodes]
      | _ => exact absurd hnormal (by simp [normalFor])
  | _ => exact absurd hjob (by simp [Loop.awaits])

namespace World

/-! ## Runs -/

/-- Library calls return. -/
def LibraryReturns {γ : Type} (_ : World γ) : Action → Prop
  | .tryVersion failure => failure = none
  | .answer reply closeFailure => reply.outcome.isOk = true ∧ closeFailure = none
  | .work reply _ => reply.outcome.isOk = true
  | _ => True

instance {γ : Type} (w : World γ) : (a : Action) → Decidable (w.LibraryReturns a)
  | .tryVersion failure => inferInstanceAs (Decidable (failure = none))
  | .answer reply closeFailure =>
      inferInstanceAs (Decidable (reply.outcome.isOk = true ∧ closeFailure = none))
  | .work reply _ => inferInstanceAs (Decidable (reply.outcome.isOk = true))
  | .start | .begin _ | .wakeUp _ | .timeout _ | .request _ | .resume _ _ | .taskEnded _
  | .cancel _ | .take | .listVersions | .skip | .beginShutdown | .finishShutdown
  | .shutdownDone _ => isTrue trivial

/-- Library calls return, and each report that the background task takes up decodes. -/
def ReportsDecode (w : World Coordinator) (a : Action) : Prop :=
  w.LibraryReturns a ∧
    match a with
    | .resume i _ => ∀ r ∈ w.results[i]?, r.waiter = .loop → ReportDecodes w.dev w.client r.value
    | _ => True

instance (dev : Device) (c : Coordinator) (value : JobValue) :
    Decidable (ReportDecodes dev c value) := by
  have : Decidable (c.data = none) := decidable_of_iff (c.data.isNone = true) (by simp)
  unfold ReportDecodes
  split <;> infer_instance

instance (w : World Coordinator) : (a : Action) → Decidable (w.ReportsDecode a)
  | .resume i now =>
      inferInstanceAs (Decidable (w.LibraryReturns (.resume i now) ∧
        ∀ r ∈ w.results[i]?, r.waiter = .loop → ReportDecodes w.dev w.client r.value))
  | .start | .begin _ | .wakeUp _ | .timeout _ | .request _ | .taskEnded _ | .cancel _ | .take
  | .listVersions | .tryVersion _ | .answer _ _ | .work _ _ | .skip | .beginShutdown
  | .finishShutdown | .shutdownDone _ => inferInstanceAs (Decidable (w.LibraryReturns _ ∧ True))

/-- The waiting results are those of library calls that returned. -/
def NormalResults {γ : Type} (w : World γ) : Prop :=
  ∀ r ∈ w.results, r.waiter ≠ .nobody → normalFor r.job r.value = true

/-- Any library call may lose the connection. -/
theorem normalFor_lost (c : LibraryCall) (why : LostReason) :
    normalFor (.wCall c) (.raised (.lan (.connectionLost why))) = true := by
  cases c <;> rfl

/-- What a library call that returns is taken for is normal: a report, an error of the library, or
nothing. -/
theorem libraryValue_normal (c : LibraryCall) (reply : Reply) (result : Json) :
    normalFor (.wCall c) (libraryValue c reply result) = true := by
  cases c <;> simp only [libraryValue] <;> split <;> rfl

/-- A posted result keeps the waiting results normal. -/
theorem NormalResults.post {γ : Type} {w w₀ : World γ} (hw : w.NormalResults)
    (hresults : w₀.results = w.results) (x : Waiter) {job : Job} {value : JobValue}
    (hnormal : normalFor job value = true) : (w₀.post x job value).NormalResults := by
  intro r hr hx
  rcases List.mem_append.mp hr with hr | hr
  · exact hw r (hresults ▸ hr) hx
  · obtain rfl := List.mem_singleton.mp hr
    exact hnormal

/-- As long as library calls return, the worker posts normal results only.  The jobs themselves
raise nothing but `LanError`. -/
theorem NormalResults.worker {γ : Type} {w w' : World γ} {a : Action} (hw : w.NormalResults)
    (hok : w.LibraryReturns a) (h : WorkerMove w a w') : w'.NormalResults := by
  cases h with
  | took => exact fun r hr hx => hw r (by simpa using hr) hx
  | listed => exact hw
  | noneLeft => exact hw.post rfl _ rfl
  | foundClosed => exact hw.post rfl _ rfl
  | createFailed => exact absurd hok (by simp [LibraryReturns])
  | created => exact hw
  | statusRaised _ hreply => exact absurd hreply (Reply.not_raised hok.1)
  | opened => exact NormalResults.post hw rfl _ rfl
  | closeRaised => exact absurd hok.2 (by simp)
  | unreachable => exact NormalResults.post hw rfl _ rfl
  | nextVersion => exact hw
  | dropped => exact NormalResults.post hw (by simp) _ rfl
  | notHeld => exact NormalResults.post hw rfl _ (normalFor_lost _ _)
  | callRaised _ _ _ hreply => exact absurd hreply (Reply.not_raised hok)
  | callReturned => exact NormalResults.post hw rfl _ (libraryValue_normal _ _ _)
  | skipped => exact hw

/-- So does every step, since only the worker posts results. -/
theorem NormalResults.step {γ : Type} {cb : Callbacks γ} {w w' : World γ} {a : Action}
    (hw : w.NormalResults) (hok : w.LibraryReturns a) (h : w.step cb a = some w') :
    w'.NormalResults := by
  rcases step_moves h with hmove | hmove
  · exact hw.worker hok hmove
  · exact fun r hr hx => hw r (hmove.ownerStep.results r hr hx) hx

/-- The invariant: the background task runs, or the device is closed. -/
structure Alive (w : World Coordinator) : Prop where
  tracked : w.Tracked
  normal : w.NormalResults
  phase : w.dev.closed = true ∨
    w.loop.isEnded = false ∧ w.executor = .accepting ∧ ∀ c ∈ w.calls, c.op ≠ .close

/-- A turn on an accepting executor leads where it says. -/
theorem loopGoes_alive {γ : Type} {w : World γ} {t : Turn γ Loop}
    (hexec : w.executor = .accepting) (ht : t.pc.isEnded = false) :
    (w.loopGoes t).loop.isEnded = false := by
  rcases loopGoes_loop w t with hloop | ⟨_, hrefuse⟩
  · rw [hloop]
    exact ht
  · exact absurd hrefuse (by simp [hexec, Executor.accepts])

/-- A sleep that ends goes on with the loop, as long as the device is open. -/
theorem loopWake_alive {γ : Type} {now : ℚ} {dev : Device} {c : γ} {pc : Loop}
    {t : Turn γ Loop} (hopen : dev.closed = false) (h : loopWake now dev c pc = some t) :
    t.pc.isEnded = false := by
  cases pc <;> simp only [loopWake, Option.some.injEq, reduceCtorEq] at h
  all_goals
    subst h
    exact loopTop_alive now _ c hopen

/-- **The background task of an open device goes on** in every step whose report decodes.  It ends
only by a close, a refused job or an exception, and these are excluded one by one. -/
theorem Alive.loop_step {w w' : World Coordinator} {a : Action} (hw : w.Alive)
    (hopen : w.dev.closed = false) (hexec : w.executor = .accepting)
    (hloop : w.loop.isEnded = false) (hclose : a ≠ .request .close) (hok : w.ReportsDecode a)
    (h : w.step Coordinator.callbacks a = some w') : w'.loop.isEnded = false := by
  rcases step_moves h with hmove | hmove
  · rw [hmove.keeps.loop]
    exact hloop
  cases hmove with
  | startedBefore => exact hloop
  | started => rfl
  | begun => exact loopGoes_alive hexec (loopTop_alive _ _ w.client hopen)
  | woken _ ht => exact loopGoes_alive hexec (loopWake_alive hopen ht)
  | requested hmove =>
      cases hmove with
      | called =>
          rw [newCall_loop]
          exact hloop
      | reconfigured =>
          rw [newCall_loop]
          exact hloop
      | closeRaised => exact absurd rfl hclose
      | closeDrops => exact absurd rfl hclose
      | closeCancels => exact absurd rfl hclose
  | loopResumed hr hx ht =>
      have hjob := (hw.tracked.of_result hr (by simp [hx])).1
      rw [hx] at hjob
      have hnormal := hw.normal _ (List.mem_of_getElem? hr) (by simp [hx])
      exact loopGoes_alive hexec ((loopResume_alive hjob hnormal hopen ht).mpr (hok.2 _ hr hx))
  | callResumed =>
      rw [callGoes_loop]
      exact hloop
  | forgotten => exact hloop
  | taskEnded =>
      rw [callGoes_loop]
      exact hloop
  | cancelSuppressed => exact hloop
  | shutdownCancelled => exact hloop
  | cancelled => exact hloop
  | shutdownBegun => exact hloop
  | shutdownFinished => exact hloop
  | keyReleased => exact hloop

/-- Every step keeps the loop alive while the reports it handles decode: only a callback could
raise where `_run` does not catch it. -/
theorem Alive.step {w w' : World Coordinator} {a : Action} (hw : w.Alive)
    (hok : w.ReportsDecode a) (h : w.step Coordinator.callbacks a = some w') : w'.Alive := by
  refine ⟨hw.tracked.step h, hw.normal.step hok.1 h, ?_⟩
  by_cases hclosed : w.dev.closed = true
  · exact Or.inl (closed_stays hclosed h)
  · obtain ⟨hloop, hexec, hnone⟩ := hw.phase.resolve_left hclosed
    have hopen : w.dev.closed = false := Bool.eq_false_of_not_eq_true hclosed
    by_cases hclose : a = .request .close
    · subst hclose
      obtain rfl := Option.some.inj h
      exact Or.inl (request_moves w .close).closed
    · exact Or.inr ⟨hw.loop_step hopen hexec hloop hclose hok h,
        accepting_step h hexec fun c hc hdrop => hnone c hc (by rw [hdrop]; rfl),
        no_close_step h hclose hnone⟩

/-- **The background task survives every report that decodes.**  In every run with library
calls that return, in which each report that the background task takes up decodes, the task
has ended only if `async_close` was called. -/
theorem loop_survives {entry : EntryData} {config : DeviceConfig} {searches : Searches}
    {as : List Action} {w : World Coordinator}
    (hrun : Run (step Coordinator.callbacks) ReportsDecode
      (Coordinator.start entry config searches) as w)
    (hended : w.loop.isEnded = true) : w.dev.closed = true := by
  have hinit : (Coordinator.start entry config searches).Alive :=
    ⟨Tracked.init _ _ _ _, by intro r hr; exact absurd hr (by simp [Coordinator.start, World.init]),
      Or.inr ⟨rfl, rfl, by simp [Coordinator.start, World.init]⟩⟩
  have hw : w.Alive := hrun.invariant Alive (fun _ _ _ hs hok h => hs.step hok h) hinit
  rcases hw.phase with hclosed | ⟨hloop, _⟩
  · exact hclosed
  · exact absurd (hloop.symm.trans hended) (by simp)

/-- The condition is exact: a report that does not decode ends the background task of an open
device. -/
theorem loop_dies {w w' : World Coordinator} {i : ℕ} {now : ℚ} {r : Result} (hw : w.Alive)
    (hopen : w.dev.closed = false) (hr : w.results[i]? = some r) (hx : r.waiter = .loop)
    (hnot : ¬ ReportDecodes w.dev w.client r.value)
    (h : w.step Coordinator.callbacks (.resume i now) = some w') :
    w'.loop.isEnded = true ∧ w'.dev.closed = false := by
  obtain ⟨r', hr', h'⟩ := Option.bind_eq_some_iff.mp h
  obtain rfl : r' = r := Option.some.inj (hr'.symm.trans hr)
  simp only [hx] at h'
  obtain ⟨t, ht, hgo⟩ := Option.bind_eq_some_iff.mp h'
  have hjob := (hw.tracked.of_result hr (by simp [hx])).1
  rw [hx] at hjob
  have hnormal := hw.normal r' (List.mem_of_getElem? hr) (by simp [hx])
  have hended : t.pc.isEnded = true := by
    by_contra hrun
    exact hnot ((loopResume_alive hjob hnormal hopen ht).mp (Bool.eq_false_of_not_eq_true hrun))
  refine ⟨?_, (closed_step h (by simp)).trans hopen⟩
  obtain rfl := Option.some.inj hgo
  rcases loopGoes_loop { w with results := w.results.eraseIdx i } t with hloop | ⟨hloop, _⟩
  · rw [hloop]
    exact hended
  · rw [hloop]
    rfl

/-- A status with `NaN` as the PM2.5 value, which `json` parses. -/
def nanReply : Reply where
  outcome := .ok (.obj [(py "dps", .obj [(dpPm25, .float (0.0 / 0.0))])])
  socket := true

/-- The background task opens a connection and takes up the status. -/
def firstStatus (reply : Reply) : List Action :=
  [.start, .begin 0, .take, .listVersions, .tryVersion none, .answer reply none, .resume 0 0]

/-- A run in which the background task ends: it took up a status and was then closed. -/
theorem loop_survives_until_close :
    ∃ w : World Coordinator, w.dev.available = true ∧ w.loop.isEnded = true ∧
      w.dev.closed = true := by
  let start := Coordinator.start Coordinator.exampleEntry exampleConfig {}
  let actions := firstStatus (statusReply true) ++ [.request .close]
  let execution := exec (step Coordinator.callbacks) start actions
  obtain ⟨w, hw⟩ := Option.isSome_iff_exists.mp (show execution.isSome = true by decide +kernel)
  have hrun : Run (step Coordinator.callbacks) ReportsDecode start actions w :=
    Run.of_meets hw (by decide +kernel)
  have hfacts : ∀ v ∈ execution, v.dev.available = true ∧ v.loop.isEnded = true := by
    decide +kernel
  obtain ⟨hav, hended⟩ := hfacts w hw
  exact ⟨w, hav, hended, loop_survives hrun hended⟩

/-- **One number ends the background task.**  All library calls return, the device is not
closed, and the task has ended with the exception of `int(nan)`. -/
theorem loop_dies_of_nan :
    ∃ w : World Coordinator,
      Run (step Coordinator.callbacks) LibraryReturns
        (Coordinator.start Coordinator.exampleEntry exampleConfig {}) (firstStatus nanReply) w ∧
      w.loop.isEnded = true ∧ w.dev.closed = false := by
  let start := Coordinator.start Coordinator.exampleEntry exampleConfig {}
  let execution := exec (step Coordinator.callbacks) start (firstStatus nanReply)
  obtain ⟨w, hw⟩ := Option.isSome_iff_exists.mp (show execution.isSome = true by decide +kernel)
  have hrun : Run (step Coordinator.callbacks) LibraryReturns start (firstStatus nanReply) w :=
    Run.of_meets hw (by decide +kernel)
  have hfacts : ∀ v ∈ execution, v.loop.isEnded = true ∧ v.dev.closed = false := by
    decide +kernel
  exact ⟨w, hrun, hfacts w hw⟩

end World

end Lan
