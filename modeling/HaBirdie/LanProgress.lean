import HaBirdie.LanClose
import HaBirdie.LanOpen

/-!
# No call gets stuck

Three kinds of parties wait for each other in a `LanDevice`: coroutines wait for the worker, the
worker for the library, and `async_close` for the background task and the executor.  None of them
can wait in a circle.  Whatever the library answers, and whatever happened before:

* every step of the worker makes `workLeft` smaller (`WorkerMove.workLeft`), and it has a next one
  as long as a job is left (`worker_goes_on`);
* so the result of a job comes by steps of the worker alone (`result_comes`), and the coroutine
  that awaits it never refuses it (`EndsWith`);
* so every call ends within `stepsLeft` steps of the worker and of itself, and `_run` gets its
  next turn (`nobody_gets_stuck`);
* no other coroutine can put a job in front of one that waits (`OwnerMove.behind`), so what others
  ask for does not lengthen the wait (`nobody_delays`).
-/

namespace Lan

open Python JobTracking StepRuns

variable {γ : Type} {cb : Callbacks γ}

/-! ## What a job ends with -/

/-- The values a job returns or raises. -/
def Job.EndsWith : Job → JobValue → Prop
  | _, .raised _ => True
  | .wOpen, .opened _ _ => True
  | .wDrop, .done => True
  | .wCall .status, .dps _ => True
  | .wCall .heartbeat, .done => True
  | .wCall .receive, .received _ => True
  | .wCall (.set _), .done => True
  | _, _ => False

/-- Any job may raise. -/
theorem Job.endsWith_raised (job : Job) (r : Raised) : job.EndsWith (.raised r) := by
  unfold EndsWith
  split <;> trivial

/-- What a library call posts is of the kind of its job. -/
theorem libraryValue_endsWith (c : LibraryCall) (reply : Reply) (result : Json) :
    (Job.wCall c).EndsWith (World.libraryValue c reply result) := by
  cases c <;> simp only [World.libraryValue] <;> split <;> trivial

/-- `_run` takes up whatever the job it awaits ended with: there is a branch for every answer that
this job can end with.  So a posted result never leaves `_run` stuck. -/
theorem loopResume_takes (cb : Callbacks γ) (now : ℚ) (d : Device) (c : γ) {pc : Loop} {job : Job}
    {value : JobValue} (hjob : pc.awaits = some job) (hvalue : job.EndsWith value) :
    ∃ t, loopResume cb now d c pc value = some t := by
  cases pc with
  | opening b =>
      obtain rfl : Job.wOpen = job := Option.some.inj hjob
      cases value with
      | opened version dps => exact ⟨_, rfl⟩
      | raised r => cases r <;> exact ⟨_, rfl⟩
      | _ => exact absurd hvalue id
  | reading b =>
      obtain rfl : Job.wCall .status = job := Option.some.inj hjob
      cases value with
      | dps dps => exact ⟨_, rfl⟩
      | raised r => exact ⟨_, rfl⟩
      | _ => exact absurd hvalue id
  | beating b =>
      obtain rfl : Job.wCall .heartbeat = job := Option.some.inj hjob
      cases value with
      | done => exact ⟨_, rfl⟩
      | raised r => exact ⟨_, rfl⟩
      | _ => exact absurd hvalue id
  | receiving b =>
      obtain rfl : Job.wCall .receive = job := Option.some.inj hjob
      cases value with
      | received dps? =>
          cases dps? with
          | none => exact ⟨_, rfl⟩
          | some dps =>
              simp only [loopResume]
              split <;> exact ⟨_, rfl⟩
      | raised r => exact ⟨_, rfl⟩
      | _ => exact absurd hvalue id
  | dropping b why =>
      obtain rfl : Job.wDrop = job := Option.some.inj hjob
      cases value with
      | done => exact ⟨_, rfl⟩
      | raised r => exact ⟨_, rfl⟩
      | _ => exact absurd hvalue id
  | _ => exact absurd hjob (by simp [Loop.awaits])

/-- The call that an action cancels. -/
def Action.cancels : Action → Option ℕ
  | .cancel i => some i
  | _ => none

/-- How many steps a job still takes the worker. -/
def Job.steps : Job → ℕ
  | .wOpen => 2 * protocolVersions.length + 3
  | .wDrop | .wCall _ => 1

/-- How many steps a call can still take, with the jobs that it has not submitted yet and the
executor's shutdown. -/
def Call.turnsLeft : Call → ℕ
  | .done _ _ => 0
  | .connecting | .refreshLost _ | .settingLost _ | .reconfiguring => 1
  | .refreshing | .setting _ => 3
  | .closeShutdown => 3
  | .closeDropping => 4
  | .closing => 6

/-- What a call costs from a place on: the job it submits there, and what follows. -/
def Call.cost (pc : Call) : ℕ := (pc.awaits.map Job.steps).getD 0 + pc.turnsLeft

/-- **A call takes up** whatever the job it awaits ended with, and has less to do then.  The cost
of its next place counts the jobs that it may still ask for, which is what makes the bound on its
steps go down. -/
theorem callResume_takes (cb : Callbacks γ) (now : ℚ) (d : Device) (c : γ) {pc : Call} {job : Job}
    {value : JobValue} (hjob : pc.awaits = some job) (hvalue : job.EndsWith value) :
    ∃ t, callResume cb now d c pc value = some t ∧ t.pc.cost < pc.turnsLeft := by
  have hpos : 0 < pc.turnsLeft := by
    cases pc <;> simp_all [Call.awaits, Call.turnsLeft]
  have hturn : ∀ {op : Operation} {h : Handled γ} {k : Device → γ → Turn γ Call},
      (∀ d c, ∃ ending, (k d c).pc = .done op ending) →
        (h.turn (.died op) k).pc.cost < pc.turnsLeft := by
    intro op h k hk
    unfold Handled.turn
    cases h.raised with
    | some e => exact hpos
    | none =>
        obtain ⟨ending, hpc⟩ := hk h.dev h.client
        dsimp only
        rw [hpc]
        exact hpos
  have hfailed : ∀ {op : Operation} {dropping : LostReason → Call} {r : Raised},
      (∀ why, (dropping why).cost = 2) → (callFailed op dropping r d c).pc.cost < 3 := by
    intro op dropping r hdropping
    unfold callFailed
    split
    · rw [hdropping]
      decide
    · exact Nat.succ_pos 2
  cases pc with
  | connecting =>
      obtain rfl : Job.wOpen = job := Option.some.inj hjob
      cases value with
      | opened version dps => exact ⟨_, rfl, hturn fun _ _ => ⟨_, rfl⟩⟩
      | raised r => exact ⟨_, rfl, hpos⟩
      | _ => exact absurd hvalue id
  | refreshing =>
      obtain rfl : Job.wCall .status = job := Option.some.inj hjob
      cases value with
      | dps dps => exact ⟨_, rfl, hturn fun _ _ => ⟨_, rfl⟩⟩
      | raised r => exact ⟨_, rfl, hfailed fun _ => rfl⟩
      | _ => exact absurd hvalue id
  | refreshLost why =>
      obtain rfl : Job.wDrop = job := Option.some.inj hjob
      cases value with
      | done => exact ⟨_, rfl, hturn fun _ _ => ⟨_, rfl⟩⟩
      | raised r => exact ⟨_, rfl, hpos⟩
      | _ => exact absurd hvalue id
  | setting dps =>
      obtain rfl : Job.wCall (.set dps) = job := Option.some.inj hjob
      cases value with
      | done => exact ⟨_, rfl, hpos⟩
      | raised r => exact ⟨_, rfl, hfailed fun _ => rfl⟩
      | _ => exact absurd hvalue id
  | settingLost why =>
      obtain rfl : Job.wDrop = job := Option.some.inj hjob
      cases value with
      | done => exact ⟨_, rfl, hturn fun _ _ => ⟨_, rfl⟩⟩
      | raised r => exact ⟨_, rfl, hpos⟩
      | _ => exact absurd hvalue id
  | reconfiguring =>
      obtain rfl : Job.wDrop = job := Option.some.inj hjob
      cases value with
      | done => exact ⟨_, rfl, hturn fun _ _ => ⟨_, rfl⟩⟩
      | raised r => exact ⟨_, rfl, hpos⟩
      | _ => exact absurd hvalue id
  | closeDropping =>
      obtain rfl : Job.wDrop = job := Option.some.inj hjob
      cases value with
      | done => exact ⟨_, rfl, (by decide : Call.closeShutdown.cost < 4)⟩
      | raised r => exact ⟨_, rfl, hpos⟩
      | _ => exact absurd hvalue id
  | _ => exact absurd hjob (by simp [Call.awaits])

/-- How many steps the worker's job still takes it. -/
def Worker.stepsLeft : Worker → ℕ
  | .idle => 0
  | .listing _ => 2 * protocolVersions.length + 2
  | .trying _ versions _ => 2 * versions.length + 1
  | .asking _ _ _ rest _ => 2 * rest.length + 2

def Executor.stepsLeft : Executor → ℕ
  | .accepting | .shutdownQueued => 2
  | .stopping => 1
  | .stopped => 0

/-- Not more versions are tried than there are. -/
theorem versionsToTry_length (dev : Device) :
    (versionsToTry dev).length ≤ protocolVersions.length := by
  by_cases hauto : dev.config.protocolVersion = protocolAuto
  · refine (List.subperm_of_subset (versionsToTry_nodup dev) fun v hv => ?_).length_le
    rcases (mem_versionsToTry_auto hauto v).mp hv with horder | ⟨_, hknown⟩
    · have hall : ∀ u ∈ autoProtocolOrder, u ∈ protocolVersions := by decide
      exact hall v horder
    · exact hknown
  · unfold versionsToTry
    rw [if_pos hauto, List.length_singleton]
    decide

namespace World

/-! ## The worker -/

/-- How many steps the worker still takes for the jobs it has. -/
def workLeft (w : World γ) : ℕ := w.worker.stepsLeft + (w.queue.map fun p => p.2.steps).sum

/-- The jobs that the worker has not ended, in order. -/
def unfinished (w : World γ) : List (Waiter × Job) := w.worker.current ++ w.queue

/-- How many steps each of them still takes. -/
def costs (w : World γ) : List ℕ :=
  (w.worker.current.map fun _ => w.worker.stepsLeft) ++ w.queue.map fun p => p.2.steps

/-- The costs of the jobs, one for one, are the work that is left. -/
theorem costs_sum (w : World γ) : w.costs.sum = w.workLeft := by
  unfold costs workLeft
  cases w.worker <;> simp [Worker.current, Worker.stepsLeft]

/-- Posting a result pays for the job that it ends; the queue keeps its costs. -/
theorem post_costs (w : World γ) (x : Waiter) (job : Job) (value : JobValue) :
    (w.post x job value).costs = w.queue.map fun p => p.2.steps := rfl

/-- After a result is posted, only the queue is unfinished. -/
theorem post_unfinished (w : World γ) (x : Waiter) (job : Job) (value : JobValue) :
    (w.post x job value).unfinished = w.queue := rfl

/-- What a step of the worker does to its jobs: the first takes less steps than before, or it is
done with it. -/
inductive WorksOff (w w' : World γ) : Prop
  | goesOn {c c' : ℕ} {rest : List ℕ} (hcosts : w.costs = c :: rest)
      (hcosts' : w'.costs = c' :: rest) (hless : c' < c) (hsame : w'.unfinished = w.unfinished)
  | ends {c : ℕ} {p : Waiter × Job} (hcosts : w.costs = c :: w'.costs) (hpos : 0 < c)
      (hjob : w.unfinished = p :: w'.unfinished)
      (hresult : p.1 = .nobody ∨ ∃ r ∈ w'.results, r.waiter = p.1)

/-- Every step of the worker works something off, and adds no job.  A job may take several steps,
but each of them has fewer left. -/
theorem WorkerMove.worksOff {w w' : World γ} {a : Action} (h : WorkerMove w a w') :
    WorksOff w w' := by
  have hposted : ∀ {w₀ : World γ} {x : Waiter} {value : JobValue}, w₀.queue = w.queue →
      w.worker.current = [(x, .wOpen)] → 0 < w.worker.stepsLeft →
      WorksOff w (w₀.post x .wOpen value) := by
    intro w₀ x value hqueue hcurrent hpos
    refine .ends (c := w.worker.stepsLeft) (p := (x, .wOpen)) ?_ hpos ?_ (Or.inr ?_)
    · rw [World.costs, hcurrent, post_costs, hqueue]
      rfl
    · rw [unfinished, hcurrent, post_unfinished, hqueue]
      rfl
    · exact ⟨_, List.mem_append_right _ (List.mem_singleton.mpr rfl), rfl⟩
  have hran : ∀ {w₀ : World γ} {x : Waiter} {job : Job} {value : JobValue}
      {rest : List (Waiter × Job)}, w.worker = .idle → w.queue = (x, job) :: rest →
      w₀.queue = rest → WorksOff w (w₀.post x job value) := by
    intro w₀ x job value rest hidle hqueue hrest
    refine .ends (c := job.steps) (p := (x, job)) ?_ ?_ ?_ (Or.inr ?_)
    · rw [World.costs, hidle, hqueue, post_costs, hrest]
      rfl
    · cases job <;> exact Nat.succ_pos _
    · rw [unfinished, hidle, hqueue, post_unfinished, hrest]
      rfl
    · exact ⟨_, List.mem_append_right _ (List.mem_singleton.mpr rfl), rfl⟩
  cases h with
  | took hworker hqueue =>
      refine .goesOn (c := Job.wOpen.steps) ?_ rfl (Nat.lt_succ_self _) ?_
      · simp [World.costs, hworker, hqueue, Worker.current]
      · simp [unfinished, hworker, hqueue, Worker.current]
  | listed hworker =>
      have hlength := versionsToTry_length w.dev
      refine .goesOn (by rw [World.costs, hworker]; rfl) rfl ?_ ?_
      · simp only [Worker.stepsLeft]
        omega
      · rw [unfinished, unfinished, hworker]
        rfl
  | created hworker =>
      refine .goesOn (by rw [World.costs, hworker]; rfl) rfl ?_ ?_
      · simp only [Worker.stepsLeft, List.length_cons]
        omega
      · rw [unfinished, unfinished, hworker]
        rfl
  | nextVersion hworker =>
      refine .goesOn (by rw [World.costs, hworker]; rfl) rfl ?_ ?_
      · simp only [Worker.stepsLeft]
        omega
      · rw [unfinished, unfinished, hworker]
        rfl
  | noneLeft hworker =>
      exact hposted rfl (by rw [hworker]; rfl) (by simp [hworker, Worker.stepsLeft])
  | foundClosed hworker =>
      exact hposted rfl (by rw [hworker]; rfl) (by simp [hworker, Worker.stepsLeft])
  | createFailed hworker =>
      exact hposted rfl (by rw [hworker]; rfl) (by simp [hworker, Worker.stepsLeft])
  | statusRaised hworker =>
      exact hposted rfl (by rw [hworker]; rfl) (by simp [hworker, Worker.stepsLeft])
  | opened hworker => exact hposted rfl (by rw [hworker]; rfl) (by simp [hworker, Worker.stepsLeft])
  | closeRaised hworker =>
      exact hposted rfl (by rw [hworker]; rfl) (by simp [hworker, Worker.stepsLeft])
  | unreachable hworker =>
      exact hposted rfl (by rw [hworker]; rfl) (by simp [hworker, Worker.stepsLeft])
  | dropped hworker hqueue => exact hran hworker hqueue (by simp)
  | notHeld hworker hqueue => exact hran hworker hqueue rfl
  | callRaised hworker hqueue => exact hran hworker hqueue rfl
  | callReturned hworker hqueue => exact hran hworker hqueue rfl
  | @skipped job rest hworker hqueue =>
      refine .ends (c := job.steps) (p := (.nobody, job)) ?_ ?_ ?_ (Or.inl rfl)
      · simp [World.costs, hworker, hqueue, Worker.current]
      · cases job <;> exact Nat.succ_pos _
      · simp [unfinished, hworker, hqueue, Worker.current]

/-- **Every step of the worker** leaves it less to do. -/
theorem WorkerMove.workLeft {w w' : World γ} {a : Action} (h : WorkerMove w a w') :
    w'.workLeft < w.workLeft := by
  rw [← costs_sum, ← costs_sum]
  cases h.worksOff with
  | goesOn hcosts hcosts' hless =>
      rw [hcosts, hcosts', List.sum_cons, List.sum_cons]
      omega
  | ends hcosts hpos =>
      rw [hcosts, List.sum_cons]
      omega

end World

/-- What the library and the clock say in each state. -/
structure Surroundings (γ : Type) where
  now : World γ → ℚ
  failure : World γ → Option PyException
  reply : World γ → Reply
  closeFailure : World γ → Option PyException

namespace World

/-- The steps of the worker when the library answers as `s` says.  A job that was cancelled before
it ran is passed over. -/
inductive Works (s : Surroundings γ) (w : World γ) : Action → Prop
  | take (hhead : ∀ p ∈ w.queue.head?, p.1 ≠ .nobody) : Works s w .take
  | listVersions : Works s w .listVersions
  | tryVersion : Works s w (.tryVersion (s.failure w))
  | answer : Works s w (.answer (s.reply w) (s.closeFailure w))
  | work (hhead : ∀ p ∈ w.queue.head?, p.1 ≠ .nobody) : Works s w (.work (s.reply w) (s.now w))
  | skip : Works s w .skip

/-- The steps that work off are those of the worker. -/
theorem Works.isWorker {s : Surroundings γ} {w : World γ} {a : Action} (h : Works s w a) :
    a.isWorker = true := by
  cases h <;> rfl

/-- The worker has something to do. -/
def Busy (w : World γ) : Prop := w.worker ≠ .idle ∨ w.queue ≠ []

/-- **The worker goes on** as long as it has something to do: at any of its places there is an
action of it that the model allows, with the answers that the surroundings give. -/
theorem worker_goes_on (cb : Callbacks γ) (s : Surroundings γ) {w : World γ} (hbusy : w.Busy) :
    ∃ a w', Works s w a ∧ w.step cb a = some w' := by
  suffices hsome : ∃ a, Works s w a ∧ (w.step cb a).isSome = true by
    obtain ⟨a, ha, hstep⟩ := hsome
    obtain ⟨w', hw'⟩ := Option.isSome_iff_exists.mp hstep
    exact ⟨a, w', ha, hw'⟩
  cases hworker : w.worker with
  | idle =>
      obtain ⟨⟨x, job⟩, rest, hqueue⟩ :=
        List.exists_cons_of_ne_nil (hbusy.resolve_left (not_not_intro hworker))
      by_cases hx : x = .nobody
      · subst hx
        exact ⟨_, .skip, by simp [step, skip, hworker, hqueue]⟩
      have hhead : ∀ p ∈ w.queue.head?, p.1 ≠ .nobody := by simpa [hqueue] using hx
      cases job with
      | wOpen => exact ⟨_, .take hhead, by simp [step, take, hworker, hqueue]⟩
      | wDrop => exact ⟨_, .work hhead, by simp [step, work, hworker, hqueue]⟩
      | wCall c =>
          refine ⟨_, .work hhead, ?_⟩
          simp only [step, work, hworker, hqueue]
          split
          · rfl
          · split <;> rfl
  | listing x => exact ⟨_, .listVersions, by simp [step, listVersions, hworker]⟩
  | trying x versions errors =>
      refine ⟨_, .tryVersion, ?_⟩
      simp only [step, tryVersion, hworker]
      cases versions with
      | nil => rfl
      | cons version rest =>
          dsimp only
          split
          · rfl
          · split <;> rfl
  | asking x id version rest errors =>
      refine ⟨_, .answer, ?_⟩
      simp only [step, answer, hworker]
      split
      · rfl
      · split
        · rfl
        · split
          · rfl
          · split <;> rfl

/-! ## What waits for what -/

/-- The call is an `async_close` that has not ended. -/
def ClosesAt (w : World γ) (i : ℕ) : Prop :=
  ∃ c, w.calls[i]? = some c ∧ c.op = .close ∧ c.isDone = false

/-- The invariant: every coroutine has the job outstanding that it awaits, the results fit their
jobs, and the executor shuts down for the one close that waits for it. -/
structure Serving (w : World γ) : Prop where
  tracked : w.Tracked
  ends : ∀ r ∈ w.results, r.waiter ≠ .nobody → r.job.EndsWith r.value
  noClose : w.dev.closed = false → ∀ c ∈ w.calls, c.op ≠ .close
  oneClose : ∀ i j, w.ClosesAt i → w.ClosesAt j → i = j
  shutdown : ∀ i : ℕ, w.calls[i]? = some .closeShutdown → w.executor ≠ .accepting

/-- A device just created has nobody to serve. -/
theorem Serving.init (config : DeviceConfig) (timings : Timings) (hint : Option PyStr)
    (client : γ) : (World.init config timings hint client).Serving where
  tracked := Tracked.init config timings hint client
  ends := by simp [World.init]
  noClose := by simp [World.init]
  oneClose := by simp [World.init, ClosesAt]
  shutdown := by simp [World.init]

/-- The worker posts what its job ended with.  This is why a coroutine that awaits a job has a
branch for the result that it finds. -/
theorem WorkerMove.ends {w w' : World γ} {a : Action} (h : WorkerMove w a w')
    (hw : ∀ r ∈ w.results, r.waiter ≠ .nobody → r.job.EndsWith r.value) :
    ∀ r ∈ w'.results, r.waiter ≠ .nobody → r.job.EndsWith r.value := by
  have hpost : ∀ {w₀ : World γ} (x : Waiter) {job : Job} {value : JobValue},
      w₀.results = w.results → job.EndsWith value →
      ∀ r ∈ (w₀.post x job value).results, r.waiter ≠ .nobody → r.job.EndsWith r.value := by
    intro w₀ x job value hresults hvalue r hr hx
    rcases List.mem_append.mp hr with hr | hr
    · exact hw r (hresults ▸ hr) hx
    · obtain rfl := List.mem_singleton.mp hr
      exact hvalue
  cases h with
  | took => exact fun r hr hx => hw r (by simpa using hr) hx
  | listed => exact hw
  | created => exact hw
  | nextVersion => exact hw
  | skipped => exact hw
  | opened => exact hpost _ rfl trivial
  | dropped => exact hpost _ (by simp) trivial
  | notHeld => exact hpost _ rfl (Job.endsWith_raised _ _)
  | callRaised => exact hpost _ rfl (Job.endsWith_raised _ _)
  | callReturned => exact hpost _ rfl (libraryValue_endsWith _ _ _)
  | _ => exact hpost _ rfl trivial

/-- A close that has not ended was one before, unless the step begins it.  On a device that is
closed a new one returns at once, so there are never two at work. -/
theorem ClosesAt.before {w w' : World γ} {a : Action} {i : ℕ} (hi : w'.ClosesAt i)
    (h : w.step cb a = some w') (hclose : a = .request .close → w.dev.closed = true) :
    w.ClosesAt i := by
  obtain ⟨c', hc', hop', hdone'⟩ := hi
  by_cases hlt : i < w.calls.length
  · obtain ⟨c, hc, hop, hkept⟩ := call_before h hc' hlt
    refine ⟨c, hc, hop.trans hop', Bool.eq_false_of_not_eq_true fun hdone => ?_⟩
    rw [hkept hdone] at hdone'
    exact absurd (hdone.symm.trans hdone') (by simp)
  · rcases calls_step h with hsame | ⟨r, pc, rfl, happend, hop⟩ | ⟨j, _, _, _, _, _, _, hset⟩
    · rw [hsame, List.getElem?_eq_none (by omega)] at hc'
      exact absurd hc' (by simp)
    · rw [happend, List.getElem?_append_right (by omega)] at hc'
      obtain rfl := List.mem_singleton.mp (List.mem_of_getElem? hc')
      have hr : r = .close := by
        have hclosing : r.op = .close := hop.symm.trans hop'
        cases r with
        | close => rfl
        | _ => exact absurd hclosing (by simp [Request.op])
      subst hr
      have hcalls : w'.calls = w.calls ++ [.done .close (.returned none)] := by
        rw [← Option.some.inj h]
        exact close_again (hclose rfl)
      rw [happend] at hcalls
      have hlast := List.singleton_injective (List.append_cancel_left hcalls)
      rw [hlast] at hdone'
      exact absurd hdone' (by simp [Call.isDone])
    · rw [hset, List.getElem?_eq_none (by rw [List.length_set]; omega)] at hc'
      exact absurd hc' (by simp)

/-- Going on to its shutdown, a close queues it; otherwise the executor stays. -/
theorem callGoes_executor (w : World γ) (i : ℕ) (t : Turn γ Call) :
    (w.callGoes i t).executor = w.executor ∨ (w.callGoes i t).executor = .shutdownQueued := by
  unfold callGoes
  cases t.pc.awaits with
  | none => cases t.pc <;> simp
  | some job => by_cases hexec : w.executor.accepts = true <;> simp [hexec]

/-- A call that goes on to wait for the shutdown has asked for it.  The turn that leads there is
the one that submits the shutdown to the executor. -/
theorem callGoes_shutdown (w : World γ) (i : ℕ) {t : Turn γ Call}
    (hcall : (w.callGoes i t).calls[i]? = some .closeShutdown) :
    (w.callGoes i t).executor = .shutdownQueued := by
  obtain ⟨pc, hcalls, _, hpc⟩ := callGoes_spec w i t
  rw [hcalls] at hcall
  have hshut : pc = .closeShutdown := by
    have hlt : i < w.calls.length := by
      simpa using (List.getElem?_eq_some_iff.mp hcall).1
    rw [List.getElem?_set_self hlt] at hcall
    exact Option.some.inj hcall
  subst hshut
  rcases hpc with hpc | ⟨hdied, _⟩
  · unfold callGoes
    rw [← hpc]
    rfl
  · exact absurd hdied (by simp [Call.died])

/-- A call that goes on leaves the other calls and their executor alone.  If it goes on to wait for
the shutdown itself, it has asked for it in the same turn. -/
theorem Serving.goes {w w₀ : World γ} (hw : w.Serving) (n : ℕ) (t : Turn γ Call)
    (hcalls : ∀ i : ℕ, i ≠ n → w₀.calls[i]? = w.calls[i]?) (hexec : w₀.executor = w.executor)
    {i : ℕ} (hi : (w₀.callGoes n t).calls[i]? = some .closeShutdown) :
    (w₀.callGoes n t).executor ≠ .accepting := by
  by_cases hin : i = n
  · subst hin
    rw [callGoes_shutdown w₀ i hi]
    simp
  · obtain ⟨pc, hset, _⟩ := callGoes_spec w₀ n t
    rw [hset, List.getElem?_set_ne (Ne.symm hin), hcalls i hin] at hi
    have hold := hw.shutdown i hi
    rcases callGoes_executor w₀ n t with hsame | hqueued
    · rw [hsame, hexec]
      exact hold
    · simp [hqueued]

/-- A call that waits for the shutdown has asked for it, also next to a new one. -/
theorem Serving.newCall {w w₀ : World γ} (hw : w.Serving) (pc : Call)
    (hcalls : w₀.calls = w.calls) (hexec : w₀.executor = w.executor) {i : ℕ}
    (hi : (w₀.newCall pc).calls[i]? = some .closeShutdown) :
    (w₀.newCall pc).executor ≠ .accepting := by
  refine hw.goes _ _ (fun j hj => ?_) hexec hi
  rw [hcalls] at hj ⊢
  by_cases hlt : j < w.calls.length
  · exact List.getElem?_append_left hlt
  · rw [List.getElem?_eq_none (by simp; omega), List.getElem?_eq_none (by omega)]

/-- While a close waits for the executor's shutdown, the executor is at it.  It never goes back to
accepting jobs. -/
theorem Serving.shutdown_step {w w' : World γ} {a : Action} (hw : w.Serving)
    (h : w.step cb a = some w') {i : ℕ} (hi : w'.calls[i]? = some .closeShutdown) :
    w'.executor ≠ .accepting := by
  have hclosing : ∀ {j : ℕ}, w.calls[j]? = some .closeShutdown → w.ClosesAt j :=
    fun hj => ⟨_, hj, rfl, rfl⟩
  rcases step_moves h with hmove | hmove
  · rw [hmove.keeps.executor]
    rw [hmove.keeps.calls] at hi
    exact hw.shutdown i hi
  cases hmove with
  | startedBefore => exact hw.shutdown i hi
  | started => exact hw.shutdown i hi
  | begun => simpa using hw.shutdown i (by simpa using hi)
  | woken => simpa using hw.shutdown i (by simpa using hi)
  | requested hmove =>
      cases hmove with
      | called => exact hw.newCall _ rfl rfl hi
      | reconfigured => exact hw.newCall _ rfl rfl hi
      | closeRaised => exact hw.newCall _ rfl rfl hi
      | closeDrops => exact hw.newCall _ rfl rfl hi
      | closeCancels => exact hw.newCall _ rfl rfl hi
  | loopResumed => simpa using hw.shutdown i (by simpa using hi)
  | callResumed => exact hw.goes _ _ (fun _ _ => rfl) rfl hi
  | forgotten => exact hw.shutdown i hi
  | taskEnded => exact hw.goes _ _ (fun _ _ => rfl) rfl hi
  | cancelSuppressed => exact hw.shutdown i hi
  | @shutdownCancelled j hcall =>
      -- only the close that waits can withdraw its shutdown
      have hne : j ≠ i := by
        rintro rfl
        rw [List.getElem?_set_self (List.getElem?_eq_some_iff.mp hcall).1] at hi
        exact absurd hi (by simp)
      rw [List.getElem?_set_ne hne] at hi
      exact absurd (hw.oneClose j i (hclosing hcall) (hclosing hi)) hne
  | @cancelled j pc hcall =>
      have hne : j ≠ i := by
        rintro rfl
        have hdone := List.getElem?_set_self (a := Call.done pc.op .cancelled)
          (List.getElem?_eq_some_iff.mp hcall).1
        exact absurd (hdone.symm.trans hi) (by simp)
      exact hw.shutdown i ((List.getElem?_set_ne hne).symm.trans hi)
  | shutdownBegun => simp
  | shutdownFinished => simp
  | keyReleased _ hstopped => simp [hstopped]

/-- **Every step** keeps the invariant.  Its parts are shown one by one, the one about the shutdown
above. -/
theorem Serving.step {w w' : World γ} {a : Action} (hw : w.Serving)
    (h : w.step cb a = some w') : w'.Serving := by
  refine
    { tracked := hw.tracked.step h, ends := ?ends, noClose := ?noClose, oneClose := ?oneClose,
      shutdown := fun i hi => hw.shutdown_step h hi }
  case ends =>
    rcases step_moves h with hmove | hmove
    · exact hmove.ends hw.ends
    · exact fun r hr hx => hw.ends r (hmove.ownerStep.results r hr hx) hx
  case noClose =>
    intro hopen
    have hopen' : w.dev.closed = false := by
      apply Bool.eq_false_of_not_eq_true
      intro hclosed
      exact absurd ((closed_stays hclosed h).symm.trans hopen) (by simp)
    have hclose : a ≠ .request .close := by
      rintro rfl
      have hmove := request_moves w .close
      rw [Option.some.inj h] at hmove
      exact absurd (hmove.closed.symm.trans hopen) (by simp)
    exact no_close_step h hclose (hw.noClose hopen')
  case oneClose =>
    intro i j hi hj
    by_cases hfirst : a = .request .close ∧ w.dev.closed = false
    · -- the close that the step begins is the only one
      obtain ⟨rfl, hopen⟩ := hfirst
      have hlast : ∀ {k : ℕ}, w'.ClosesAt k → k = w.calls.length := by
        intro k hk
        obtain ⟨c', hc', hop', _⟩ := hk
        rcases Nat.lt_or_ge k w.calls.length with hlt | hge
        · obtain ⟨c, hc, hop, _⟩ := call_before h hc' hlt
          exact absurd (hop.trans hop') (hw.noClose hopen c (List.mem_of_getElem? hc))
        · obtain ⟨pc, happend, _⟩ := (request_moves w .close).calls
          rw [Option.some.inj h] at happend
          have hlt := (List.getElem?_eq_some_iff.mp hc').1
          rw [happend, List.length_append, List.length_singleton] at hlt
          omega
      rw [hlast hi, hlast hj]
    · have hclose : a = .request .close → w.dev.closed = true := by
        intro ha
        by_contra hopen
        exact hfirst ⟨ha, Bool.eq_false_of_not_eq_true hopen⟩
      exact hw.oneClose i j (hi.before h hclose) (hj.before h hclose)

/-- In every run each coroutine has the job outstanding that it awaits. -/
theorem Serving.run {config : DeviceConfig} {timings : Timings} {hint : Option PyStr} {client : γ}
    {as : List Action} {w : World γ}
    (hrun : Run (World.step cb) Anything (.init config timings hint client) as w) : w.Serving :=
  hrun.invariant World.Serving (fun _ _ _ hw _ hstep => hw.step hstep)
    (Serving.init config timings hint client)

/-! ## Results come -/

/-- The job a coroutine awaits has a result, or the worker has something to do.  Jobs are neither
lost nor forgotten, so one that has no result is queued or running. -/
theorem Serving.result_or_busy {w : World γ} (hw : w.Serving) {x : Waiter} {job : Job}
    (hx : x ≠ .nobody) (hawaits : w.awaits x = some job) :
    (∃ (k : ℕ) (r : Result), w.results[k]? = some r ∧ r.waiter = x ∧ r.job = job) ∨ w.Busy := by
  have hmem : (x, job) ∈ w.pending := by
    rw [← mem_jobsOf, hw.tracked x hx, hawaits]
    simp
  rcases List.mem_append.mp hmem with hresult | hjob
  · obtain ⟨r, hr, heq⟩ := List.mem_map.mp hresult
    obtain ⟨k, hk⟩ := List.mem_iff_getElem?.mp hr
    obtain ⟨rfl, rfl⟩ := Prod.mk.inj heq
    exact Or.inl ⟨k, r, hk, rfl, rfl⟩
  · right
    rcases List.mem_append.mp hjob with hcurrent | hqueue
    · left
      intro hidle
      rw [hidle] at hcurrent
      exact absurd hcurrent List.not_mem_nil
    · exact Or.inr (List.ne_nil_of_mem hqueue)

/-- **The result of a job comes** by steps of the worker alone, whatever the library answers.  The
induction is on what the worker has left, which every one of its steps lowers. -/
theorem Serving.result_comes (cb : Callbacks γ) (s : Surroundings γ) {w : World γ}
    (hw : w.Serving) {x : Waiter} {job : Job} (hx : x ≠ .nobody) (hawaits : w.awaits x = some job) :
    ∃ as u, Run (World.step cb) (Works s) w as u ∧ as.length ≤ w.workLeft ∧ u.Serving ∧
      u.awaits x = some job ∧
      ∃ (k : ℕ) (r : Result), u.results[k]? = some r ∧ r.waiter = x ∧ r.job = job := by
  have hnext : ∀ u : World γ, u.Serving ∧ u.awaits x = some job →
      ¬ (∃ (k : ℕ) (r : Result), u.results[k]? = some r ∧ r.waiter = x ∧ r.job = job) →
      ∃ a u', Works s u a ∧ u.step cb a = some u' ∧ (u'.Serving ∧ u'.awaits x = some job) ∧
        u'.workLeft < u.workLeft := by
    intro u hu hnone
    obtain ⟨a, u', ha, hstep⟩ := worker_goes_on cb s
      ((hu.1.result_or_busy hx hu.2).resolve_left hnone)
    have hmove := worker_moves ha.isWorker hstep
    refine ⟨a, u', ha, hstep, ⟨hu.1.step hstep, ?_⟩, hmove.workLeft⟩
    rw [← hu.2]
    cases x with
    | loop => simp [awaits, hmove.keeps.loop]
    | call i => simp [awaits, hmove.keeps.calls]
    | nobody => rfl
  obtain ⟨as, u, hrun, hu, hresult, hlength⟩ := reaches _ _ World.workLeft hnext ⟨hw, hawaits⟩
  exact ⟨as, u, hrun, hlength, hu.1, hu.2, hresult⟩

/-! ## Calls end -/

/-- A step of the worker, of the `i`-th call or of the executor's shutdown, when the library
answers as `s` says. -/
inductive Goes (s : Surroundings γ) (i : ℕ) (w : World γ) : Action → Prop
  | works {a : Action} (h : Works s w a) : Goes s i w a
  | resumes {k : ℕ} {r : Result} (hr : w.results[k]? = some r) (hx : r.waiter = .call i) :
      Goes s i w (.resume k (s.now w))
  | taskEnded : Goes s i w (.taskEnded i)
  | beginShutdown : Goes s i w .beginShutdown
  | finishShutdown : Goes s i w .finishShutdown
  | shutdownDone : Goes s i w (.shutdownDone i)

/-- How many steps a call has left. -/
def turnsLeft (w : World γ) : Call → ℕ
  | .closeShutdown => w.executor.stepsLeft + 1
  | pc => pc.turnsLeft

/-- How many steps the `i`-th call has left, with those of the worker. -/
def stepsLeft (w : World γ) (i : ℕ) : ℕ := w.workLeft + (w.calls[i]?.map w.turnsLeft).getD 0

/-- A call has no more turns left than its place allows. -/
theorem turnsLeft_le (w : World γ) (pc : Call) : w.turnsLeft pc ≤ pc.turnsLeft := by
  cases pc with
  | closeShutdown =>
      simp only [World.turnsLeft, Call.turnsLeft]
      cases w.executor <;> decide
  | _ => exact le_refl _

/-- What a call has left after a turn: at most what the worker had, and the cost of where the call
goes on.  The one job it may add is in that cost. -/
theorem callGoes_stepsLeft {w : World γ} {i : ℕ} (t : Turn γ Call) (hi : i < w.calls.length) :
    (w.callGoes i t).stepsLeft i ≤ w.workLeft + t.pc.cost := by
  obtain ⟨pc, hcalls, hqueue, hpc⟩ := callGoes_spec w i t
  have hcost : pc.cost ≤ t.pc.cost := by
    rcases hpc with rfl | ⟨rfl, _⟩
    · exact le_refl _
    · exact Nat.zero_le _
  have hwork : (w.callGoes i t).workLeft = w.workLeft + (pc.awaits.map Job.steps).getD 0 := by
    unfold workLeft
    rw [callGoes_worker, hqueue]
    cases pc.awaits <;> simp [Nat.add_assoc]
  have hturns := (w.callGoes i t).turnsLeft_le pc
  rw [stepsLeft, hwork, hcalls, List.getElem?_set_self hi, Option.map_some, Option.getD_some]
  refine le_trans ?_ (Nat.add_le_add_left hcost _)
  unfold Call.cost
  omega

/-- **A call goes on**, whatever it waits for.  Either the worker works something off, or the
result is there and the call takes it up, or the close waits for the task or the executor, which
end by themselves. -/
theorem Serving.call_goes_on (cb : Callbacks γ) (s : Surroundings γ) {w : World γ} (hw : w.Serving)
    {i : ℕ} {pc : Call} (hcall : w.calls[i]? = some pc) (hdone : pc.isDone = false) :
    ∃ a w', Goes s i w a ∧ w.step cb a = some w' ∧ w'.stepsLeft i < w.stepsLeft i := by
  have hlt : i < w.calls.length := (List.getElem?_eq_some_iff.mp hcall).1
  have hleft : w.stepsLeft i = w.workLeft + w.turnsLeft pc := by simp [stepsLeft, hcall]
  have hworks : w.Busy →
      ∃ a w', Goes s i w a ∧ w.step cb a = some w' ∧ w'.stepsLeft i < w.stepsLeft i := by
    intro hbusy
    obtain ⟨a, w', ha, hstep⟩ := worker_goes_on cb s hbusy
    have hmove := worker_moves ha.isWorker hstep
    refine ⟨a, w', .works ha, hstep, ?_⟩
    have hturns : w'.turnsLeft = w.turnsLeft := by
      funext c
      cases c <;> simp [World.turnsLeft, hmove.keeps.executor]
    have hwork := hmove.workLeft
    rw [stepsLeft, stepsLeft, hmove.keeps.calls, hturns]
    omega
  have hawaiting : ∀ job, pc.awaits = some job →
      ∃ a w', Goes s i w a ∧ w.step cb a = some w' ∧ w'.stepsLeft i < w.stepsLeft i := by
    intro job hjob
    have hawaits : w.awaits (.call i) = some job := by simp [awaits, hcall, hjob]
    rcases hw.result_or_busy (by simp) hawaits with ⟨k, r, hr, hx, rfl⟩ | hbusy
    · obtain ⟨t, ht, hcost⟩ := callResume_takes cb (s.now w) w.dev w.client hjob
        (hw.ends r (List.mem_of_getElem? hr) (by simp [hx]))
      refine ⟨_, { w with results := w.results.eraseIdx k }.callGoes i t, .resumes hr hx, ?_, ?_⟩
      · simp [World.step, World.resume, hr, hx, hcall, ht]
      · have hgoes := callGoes_stepsLeft (w := { w with results := w.results.eraseIdx k }) t hlt
        have hturns : w.turnsLeft pc = pc.turnsLeft := by
          cases pc <;> first | rfl | exact absurd hjob (by simp [Call.awaits])
        have hwork : { w with results := w.results.eraseIdx k }.workLeft = w.workLeft := rfl
        omega
    · exact hworks hbusy
  cases pc with
  | done op ending => exact absurd hdone (by simp [Call.isDone])
  | closing =>
      refine ⟨_, _, .taskEnded, by simp [World.step, World.taskEnded, hcall]; rfl, ?_⟩
      have hgoes := callGoes_stepsLeft ⟨w.dev, w.client, .closeDropping⟩ hlt
      have hcost : Call.closeDropping.cost < w.turnsLeft .closing :=
        (by decide : Call.closeDropping.cost < Call.closing.turnsLeft)
      rw [hleft]
      exact lt_of_le_of_lt hgoes (Nat.add_lt_add_left hcost _)
  | closeShutdown =>
      -- the executor is at its shutdown, which waits for the jobs only
      have hexec := hw.shutdown i hcall
      cases hstage : w.executor with
      | accepting => exact absurd hstage hexec
      | shutdownQueued =>
          refine ⟨_, _, .beginShutdown, by simp [World.step, World.beginShutdown, hstage]; rfl, ?_⟩
          simp [stepsLeft, hcall, World.turnsLeft, hstage, Executor.stepsLeft, workLeft]
      | stopping =>
          by_cases hbusy : w.Busy
          · exact hworks hbusy
          · obtain ⟨hidle, hqueue⟩ := not_or.mp hbusy
            refine ⟨_, { w with executor := .stopped }, .finishShutdown, ?_, ?_⟩
            · simp [World.step, World.finishShutdown, hstage, not_not.mp hidle, not_not.mp hqueue]
            · simp [stepsLeft, hcall, World.turnsLeft, hstage, Executor.stepsLeft, workLeft]
      | stopped =>
          refine ⟨_, _, .shutdownDone, by simp [World.step, World.shutdownDone, hcall, hstage]; rfl,
            ?_⟩
          rw [hleft]
          simp [stepsLeft, hlt, World.turnsLeft, Call.turnsLeft, workLeft]
  | _ => exact hawaiting _ rfl

/-- **A call ends** within the steps it has left.  Each of them lowers the number, so this is the
last lemma with the number as the measure. -/
theorem Serving.call_ends (s : Surroundings γ) {w : World γ} (hw : w.Serving) {i : ℕ} {pc : Call}
    (hcall : w.calls[i]? = some pc) :
    ∃ as u ending, Run (World.step cb) (Goes s i) w as u ∧ as.length ≤ w.stepsLeft i ∧
      u.calls[i]? = some (.done pc.op ending) := by
  have hnext : ∀ u : World γ, (u.Serving ∧ ∃ c, u.calls[i]? = some c ∧ c.op = pc.op) →
      ¬ (∃ ending, u.calls[i]? = some (.done pc.op ending)) →
      ∃ a u', Goes s i u a ∧ u.step cb a = some u' ∧
        (u'.Serving ∧ ∃ c, u'.calls[i]? = some c ∧ c.op = pc.op) ∧
        u'.stepsLeft i < u.stepsLeft i := by
    intro u hu hnot
    obtain ⟨hserving, c, hc, hop⟩ := hu
    have hdone : c.isDone = false := by
      cases c with
      | done op ending => exact absurd ⟨ending, hop ▸ hc⟩ hnot
      | _ => rfl
    obtain ⟨a, u', ha, hstep, hless⟩ := hserving.call_goes_on cb s hc hdone
    refine ⟨a, u', ha, hstep, ⟨hserving.step hstep, ?_⟩, hless⟩
    have hlt : i < u'.calls.length := by
      have hold := (List.getElem?_eq_some_iff.mp hc).1
      rcases calls_step hstep with hsame | ⟨_, _, _, happend, _⟩ | ⟨_, _, _, _, _, _, _, hset⟩
      · rwa [hsame]
      · rw [happend, List.length_append]
        omega
      · rwa [hset, List.length_set]
    have hlt' : i < u.calls.length := (List.getElem?_eq_some_iff.mp hc).1
    obtain ⟨c₀, hc₀, hop₀, _⟩ := call_before hstep (List.getElem?_eq_getElem hlt) hlt'
    obtain rfl : c₀ = c := Option.some.inj (hc₀.symm.trans hc)
    exact ⟨_, List.getElem?_eq_getElem hlt, hop₀.symm.trans hop⟩
  obtain ⟨as, u, hrun, _, ⟨ending, hended⟩, hlength⟩ :=
    reaches _ _ (fun u : World γ => u.stepsLeft i) hnext ⟨hw, pc, hcall, rfl⟩
  exact ⟨as, u, ending, hrun, hlength, hended⟩

/-- A turn of `_run`. -/
def TurnsLoop (w : World γ) : Action → Prop
  | .begin _ => w.loop = .ready
  | .timeout _ => w.loop.awaits = none
  | .resume k _ => ∃ r, w.results[k]? = some r ∧ r.waiter = .loop
  | _ => False

/-- **`_run` gets its next turn** by steps of the worker alone.  Where it sleeps it needs none, and
where it awaits a job the result comes. -/
theorem Serving.loop_goes_on (s : Surroundings γ) {w : World γ} (hw : w.Serving)
    (hstarted : w.loop ≠ .notStarted) (hrunning : ∀ ending, w.loop ≠ .ended ending) :
    ∃ as u a u', Run (World.step cb) (Works s) w as u ∧ as.length ≤ w.workLeft ∧
      u.TurnsLoop a ∧ u.step cb a = some u' := by
  cases hjob : w.loop.awaits with
  | none =>
      cases hloop : w.loop with
      | notStarted => exact absurd hloop hstarted
      | ended ending => exact absurd hloop (hrunning ending)
      | ready =>
          exact ⟨[], w, .begin (s.now w), _, Run.nil w, Nat.zero_le _, hloop,
            by simp [World.step, World.begin, hloop]; rfl⟩
      | backingOff b =>
          exact ⟨[], w, .timeout (s.now w), _, Run.nil w, Nat.zero_le _, hjob,
            by simp [World.step, World.timeout, loopWake, hloop]; rfl⟩
      | pausing b =>
          exact ⟨[], w, .timeout (s.now w), _, Run.nil w, Nat.zero_le _, hjob,
            by simp [World.step, World.timeout, loopWake, hloop]; rfl⟩
      | _ => exact absurd hjob (by simp [hloop, Loop.awaits])
  | some job =>
      obtain ⟨as, u, hrun, hlength, hu, hawaits, k, r, hr, hx, rfl⟩ :=
        hw.result_comes cb s (x := .loop) (by simp) hjob
      obtain ⟨t, ht⟩ := loopResume_takes cb (s.now u) u.dev u.client hawaits
        (hu.ends r (List.mem_of_getElem? hr) (by simp [hx]))
      exact ⟨as, u, .resume k (s.now u), _, hrun, hlength, ⟨r, hr, hx⟩,
        by simp [World.step, World.resume, hr, hx, ht]; rfl⟩

/-! ## Nobody delays a job -/

/-- The jobs ahead of those of the `i`-th call are as before; others may follow. -/
structure Behind (i : ℕ) (w w' : World γ) : Prop where
  costs : ∃ more, w'.costs = w.costs ++ more
  stays : ∀ (k : ℕ) (job : Job), w.unfinished[k]? = some (.call i, job) →
    w'.unfinished[k]? = some (.call i, job)

/-- Two steps that put no job ahead of those of a call, one after the other, put none ahead. -/
theorem Behind.trans {i : ℕ} {u v w : World γ} (h : Behind i u v) (h' : Behind i v w) :
    Behind i u w := by
  obtain ⟨more, hmore⟩ := h.costs
  obtain ⟨more', hmore'⟩ := h'.costs
  refine ⟨⟨more ++ more', ?_⟩, fun k job hk => h'.stays k job (h.stays k job hk)⟩
  rw [hmore', hmore, List.append_assoc]

/-- Jobs are submitted at the end. -/
theorem Behind.submitted {i : ℕ} {w w' : World γ} {more : List (Waiter × Job)}
    (hworker : w'.worker = w.worker) (hqueue : w'.queue = w.queue ++ more) : Behind i w w' := by
  refine ⟨⟨more.map fun p => p.2.steps, ?_⟩, fun k job hk => ?_⟩
  · simp [World.costs, hworker, hqueue]
  · have hlt := (List.getElem?_eq_some_iff.mp hk).1
    rw [unfinished, hworker, hqueue, ← List.append_assoc]
    exact (List.getElem?_append_left hlt).trans hk

/-- Where neither the worker nor the queue moves, nothing gets ahead. -/
theorem Behind.same {i : ℕ} {w w' : World γ} (hworker : w'.worker = w.worker)
    (hqueue : w'.queue = w.queue) : Behind i w w' :=
  .submitted hworker (hqueue.trans (List.append_nil _).symm)

/-- Cancelling somebody else moves no job.  The job of the cancelled coroutine is nobody's now, but
it keeps its place in the queue. -/
theorem Behind.abandon {i : ℕ} {x : Waiter} (hx : x ≠ .call i) (w : World γ) :
    Behind i w (w.abandon x) := by
  have hworker : (w.abandon x).worker.current = relabel x .nobody w.worker.current := by
    unfold World.abandon
    cases w.worker <;> rfl
  refine ⟨⟨[], ?_⟩, fun k job hk => ?_⟩
  · have hsteps : (w.abandon x).worker.stepsLeft = w.worker.stepsLeft := by
      unfold World.abandon
      cases w.worker <;> rfl
    unfold World.costs
    rw [hworker, hsteps]
    simp [World.abandon, relabel, Function.comp_def]
  · have hrelabel : (w.abandon x).unfinished = relabel x .nobody w.unfinished := by
      rw [unfinished, unfinished, relabel_append, hworker]
      rfl
    rw [hrelabel, relabel, List.getElem?_map, hk]
    simp [Ne.symm hx]

/-- A new call queues behind all others. -/
theorem newCall_behind (i : ℕ) (w : World γ) (pc : Call) : Behind i w (w.newCall pc) := by
  obtain ⟨_, _, hqueue, _⟩ := newCall_spec w pc
  exact .submitted (by simp) hqueue

/-- So does whatever is requested: no request overtakes a job. -/
theorem RequestMove.behind {w w' : World γ} {r : Request} (h : RequestMove w r w') (i : ℕ) :
    Behind i w w' := by
  have hmarked : Behind i w w.marked := .same rfl rfl
  cases h with
  | called => exact newCall_behind i w _
  | reconfigured =>
      refine Behind.trans ?_ (newCall_behind i _ _)
      exact .same rfl rfl
  | closeRaised => exact hmarked.trans (newCall_behind i _ _)
  | closeDrops => exact hmarked.trans (newCall_behind i _ _)
  | closeCancels =>
      refine Behind.trans ?_ (newCall_behind i _ _)
      refine Behind.trans ?_ (Behind.abandon (by simp) _)
      exact .same rfl rfl

/-- **No coroutine gets ahead of a job** that waits: what they submit goes to the end of the queue,
and what they take up is over. -/
theorem OwnerMove.behind {w w' : World γ} {a : Action} {i : ℕ} (h : OwnerMove cb w a w')
    (hcancel : a.cancels ≠ some i) : Behind i w w' := by
  cases h with
  | startedBefore => exact .same rfl rfl
  | started => exact .same rfl rfl
  | begun => exact .submitted (by simp) (loopGoes_queue _ _)
  | woken => exact .submitted (by simp) (loopGoes_queue _ _)
  | requested hmove => exact hmove.behind i
  | loopResumed => exact .submitted (by simp) (loopGoes_queue _ _)
  | @callResumed k n now r pc t =>
      obtain ⟨_, _, hqueue, _⟩ := callGoes_spec { w with results := w.results.eraseIdx k } n t
      exact .submitted (by simp) hqueue
  | forgotten => exact .same rfl rfl
  | @taskEnded n =>
      obtain ⟨_, _, hqueue, _⟩ := callGoes_spec w n ⟨w.dev, w.client, .closeDropping⟩
      exact .submitted (by simp) hqueue
  | cancelSuppressed => exact .same rfl rfl
  | shutdownCancelled => exact .same rfl rfl
  | @cancelled n pc =>
      have hne : Waiter.call n ≠ .call i := fun heq => hcancel (congrArg some (Waiter.call.inj heq))
      refine Behind.trans ?_ (Behind.abandon hne _)
      exact .same rfl rfl
  | shutdownBegun => exact .same rfl rfl
  | shutdownFinished => exact .same rfl rfl
  | keyReleased => exact .same rfl rfl

/-- The `i`-th call keeps waiting: its result is not there, and it is not cancelled. -/
def Waiting (i : ℕ) (w : World γ) (a : Action) : Prop :=
  (∀ r ∈ w.results, r.waiter ≠ .call i) ∧ a.cancels ≠ some i

instance (i : ℕ) (w : World γ) (a : Action) : Decidable (w.Waiting i a) :=
  inferInstanceAs (Decidable (_ ∧ _))

/-- **As long as a call waits**, the worker takes no more steps than the jobs up to its own cost.
By induction over the run: a step of the worker lowers the cost of the jobs before it, and no other
step raises it. -/
theorem waits_in_turn {i : ℕ} {w u : World γ} {as : List Action}
    (hrun : Run (World.step cb) (Waiting i) w as u) {k : ℕ} {job : Job}
    (hat : w.unfinished[k]? = some (.call i, job)) :
    as.countP Action.isWorker ≤ (w.costs.take (k + 1)).sum := by
  induction hrun generalizing k with
  | nil => exact Nat.zero_le _
  | @cons w v u a as hok hstep tail ih =>
      rw [List.countP_cons]
      rcases step_moves hstep with hmove | hmove
      · cases hmove.worksOff with
        | goesOn hcosts hcosts' hless hsame =>
            have hrest := ih (hsame ▸ hat)
            rw [hcosts', List.take_succ_cons, List.sum_cons] at hrest
            rw [hcosts, List.take_succ_cons, List.sum_cons]
            split <;> omega
        | @ends c p hcosts hpos hjob hresult =>
            rw [hcosts, List.take_succ_cons, List.sum_cons]
            rw [hjob] at hat
            cases k with
            | zero =>
                -- the result is there, so nothing follows
                obtain rfl := Option.some.inj hat
                obtain ⟨r, hr, hx⟩ := hresult.resolve_left (by simp)
                cases tail with
                | nil =>
                    rw [List.countP_nil]
                    split <;> omega
                | cons hwait => exact absurd hx (hwait.1 r hr)
            | succ k =>
                have hrest := ih hat
                split <;> omega
      · obtain ⟨more, hmore⟩ := (hmove.behind hok.2).costs
        have hrest := ih ((hmove.behind hok.2).stays k job hat)
        have hlt : k + 1 ≤ w.costs.length := by
          have hlength : w.costs.length = w.unfinished.length := by
            simp [World.costs, unfinished]
          rw [hlength]
          exact (List.getElem?_eq_some_iff.mp hat).1
        rw [hmore, List.take_append_of_le_length hlt] at hrest
        have hnot : a.isWorker = false := by
          cases hmove <;> first | rfl | rcases ‹_ ∨ _› with rfl | rfl <;> rfl
        simpa [hnot] using hrest

end World

/-- **Nobody gets stuck.**  After every run, whatever happened in it and whatever the library
answers from then on: every call ends within `stepsLeft` steps of the worker, of itself and of the
executor's shutdown, and `_run`, while it has not ended, gets its next turn within `workLeft` steps
of the worker.  No other coroutine has to move for that. -/
theorem nobody_gets_stuck {config : DeviceConfig} {timings : Timings} {hint : Option PyStr}
    {client : γ} {as : List Action} {w : World γ}
    (hrun : Run (World.step cb) Anything (.init config timings hint client) as w)
    (s : Surroundings γ) :
    (∀ i pc, w.calls[i]? = some pc →
      ∃ bs u ending, Run (World.step cb) (World.Goes s i) w bs u ∧ bs.length ≤ w.stepsLeft i ∧
        u.calls[i]? = some (.done pc.op ending)) ∧
    (w.loop ≠ .notStarted → (∀ ending, w.loop ≠ .ended ending) →
      ∃ bs u a u', Run (World.step cb) (World.Works s) w bs u ∧ bs.length ≤ w.workLeft ∧
        u.TurnsLoop a ∧ u.step cb a = some u') := by
  have hserving := World.Serving.run hrun
  exact ⟨fun _ _ hcall => hserving.call_ends s hcall,
    fun hstarted hrunning => hserving.loop_goes_on s hstarted hrunning⟩

/-- A connected device that is closed while a command waits. -/
def closedEarlyActions : List Action :=
  openActions ++ [.resume 0 0, .request (.setDps (PyDict.ofMembers [(py "1", .bool true)])),
    .request .close]

/-- Whatever the library answers to the command, the close ends: one step for the command, one for
the drop, one turn, three steps for the shutdown. -/
theorem nobody_gets_stuck_closing :
    ∃ w : World Unit,
      exec (World.step (Callbacks.none Unit)) (.init exampleConfig {} none ()) closedEarlyActions =
        some w ∧
      ∀ s : Surroundings Unit, ∃ bs u ending,
        Run (World.step (Callbacks.none Unit)) (World.Goes s 2) w bs u ∧ bs.length ≤ 6 ∧
          u.calls[2]? = some (.done .close ending) := by
  let start : World Unit := .init exampleConfig {} none ()
  let execution := exec (World.step (Callbacks.none Unit)) start closedEarlyActions
  obtain ⟨w, hw⟩ := Option.isSome_iff_exists.mp (show execution.isSome = true by decide +kernel)
  have hfacts : ∀ v ∈ execution, (∃ pc ∈ v.calls[2]?, pc.op = .close) ∧ v.stepsLeft 2 = 6 := by
    decide +kernel
  obtain ⟨⟨pc, hpc, hop⟩, hsteps⟩ := hfacts w hw
  refine ⟨w, hw, fun s => ?_⟩
  have hend := (nobody_gets_stuck (Run.of_exec hw) s).1 2 pc hpc
  rwa [hop, hsteps] at hend

/-- **Nobody delays a job.**  After every run, while a call waits for the result of its job,
whatever everybody else does in the meantime: the worker takes no more steps than the jobs that it
had by then cost. -/
theorem nobody_delays {config : DeviceConfig} {timings : Timings} {hint : Option PyStr}
    {client : γ} {as bs : List Action} {w u : World γ} {i : ℕ} {pc : Call} {job : Job}
    (hrun : Run (World.step cb) Anything (.init config timings hint client) as w)
    (hcall : w.calls[i]? = some pc) (hjob : pc.awaits = some job)
    (hwaits : Run (World.step cb) (World.Waiting i) w bs u) :
    bs.countP Action.isWorker ≤ w.workLeft := by
  cases hwaits with
  | nil => exact Nat.zero_le _
  | @cons _ v _ a bs hok hstep tail =>
      have hawaits : w.awaits (.call i) = some job := by simp [World.awaits, hcall, hjob]
      have hmem : (Waiter.call i, job) ∈ w.pending := by
        rw [← mem_jobsOf, (World.Serving.run hrun).tracked _ (by simp), hawaits]
        simp
      rcases List.mem_append.mp hmem with hresult | hunfinished
      · obtain ⟨r, hr, heq⟩ := List.mem_map.mp hresult
        exact absurd (Prod.mk.inj heq).1 (hok.1 r hr)
      · obtain ⟨k, hk⟩ := List.mem_iff_getElem?.mp hunfinished
        have hturn := World.waits_in_turn (Run.cons hok hstep tail) hk
        have hsplit := congrArg List.sum (List.take_append_drop (k + 1) w.costs)
        rw [List.sum_append, World.costs_sum] at hsplit
        omega

/-- Two connects that are asked for while the close waits. -/
def meanwhileActions : List Action :=
  [.request .connect, .work (statusReply false) 5, .request .connect]

/-- The close waits for the command and its own drop, not for what others ask for later.  Two
connects are queued behind it by then. -/
theorem nobody_delays_close :
    ∃ w u : World Unit,
      exec (World.step (Callbacks.none Unit)) (.init exampleConfig {} none ()) closedEarlyActions =
        some w ∧
      exec (World.step (Callbacks.none Unit)) w meanwhileActions = some u ∧
      u.queue.length = 3 ∧ meanwhileActions.countP Action.isWorker ≤ w.workLeft := by
  let start : World Unit := .init exampleConfig {} none ()
  let execution := exec (World.step (Callbacks.none Unit)) start closedEarlyActions
  obtain ⟨w, hw⟩ := Option.isSome_iff_exists.mp (show execution.isSome = true by decide +kernel)
  have hfacts : ∀ v ∈ execution,
      (∃ pc ∈ v.calls[2]?, pc.awaits.isSome = true) ∧
      (∃ u ∈ exec (World.step (Callbacks.none Unit)) v meanwhileActions, u.queue.length = 3) ∧
      Meets (World.step (Callbacks.none Unit)) (World.Waiting 2) v meanwhileActions := by
    decide +kernel
  obtain ⟨⟨pc, hpc, hawaits⟩, ⟨u, hu, hlength⟩, hmeets⟩ := hfacts w hw
  obtain ⟨job, hjob⟩ := Option.isSome_iff_exists.mp hawaits
  exact ⟨w, u, hw, hu, hlength,
    nobody_delays (Run.of_exec hw) hpc hjob (Run.of_meets hu hmeets)⟩

end Lan
