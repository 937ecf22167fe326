import HaBirdie.LanAvailability
import HaBirdie.LanLog

/-!
# Commands are written once, in the order of their calls

`async_set_dps` hands its DPs to the worker as one job.  `Commanded` is a device with its log and
the commands that were asked for, each with the number of its call.

* `commands_step` — the worker writes what is queued, in that order; a cancelled command stays
  where it is or is passed over; only a new call adds a command, behind all others;
* `commands_written_once` — so, in every run, what was written is a subsequence of what was asked
  for, a call that returned wrote its own command exactly once, and no call is forgotten.
-/

namespace Lan

open Python JobTracking StepRuns

variable {γ : Type} {cb : Callbacks γ}

/-- The DPs that a job writes. -/
def Job.writes : Job → Option PyDict
  | .wCall (.set dps) => some dps
  | _ => none

/-- The DPs that an action asks to write. -/
def Action.asks : Action → Option PyDict
  | .request (.setDps dps) => some dps
  | _ => none

/-- The commands among jobs, each with who awaits it. -/
def commandsOf (l : List (Waiter × Job)) : List (Waiter × PyDict) :=
  l.filterMap fun p => p.2.writes.map fun dps => (p.1, dps)

@[simp] theorem commandsOf_append (l m : List (Waiter × Job)) :
    commandsOf (l ++ m) = commandsOf l ++ commandsOf m := by
  simp [commandsOf]

/-- Relabelling who waits for a job relabels the commands. -/
theorem commandsOf_relabel (x y : Waiter) (l : List (Waiter × Job)) :
    commandsOf (relabel x y l) = relabel x y (commandsOf l) := by
  induction l with
  | nil => rfl
  | cons p l ih =>
      have hcons : ∀ (q : Waiter × Job) m, commandsOf (q :: m) = commandsOf [q] ++ commandsOf m :=
        fun q m => commandsOf_append [q] m
      have hone : commandsOf [((if p.1 = x then y else p.1), p.2)] =
          relabel x y (commandsOf [p]) := by
        cases hwrites : p.2.writes <;> simp [commandsOf, relabel, hwrites]
      rw [hcons p l, relabel_append, ← ih, ← hone]
      exact hcons _ _

/-- Relabelling changes nothing but who waits. -/
theorem map_snd_relabel {κ : Type} (x y : Waiter) (l : List (Waiter × κ)) :
    (relabel x y l).map Prod.snd = l.map Prod.snd := by
  simp [relabel, Function.comp_def]

/-- Jobs that write nothing. -/
theorem commandsOf_eq_nil {l : List (Waiter × Job)} (h : ∀ p ∈ l, p.2.writes = none) :
    commandsOf l = [] := by
  apply List.filterMap_eq_nil_iff.mpr
  intro p hp
  rw [h p hp]
  rfl

/-- The background task writes nothing. -/
theorem Loop.awaits_writes {pc : Loop} {job : Job} (h : pc.awaits = some job) :
    job.writes = none := by
  cases pc <;> simp only [Loop.awaits, Option.some.injEq, reduceCtorEq] at h
  all_goals
    subst h
    rfl

/-- A call awaits a command only where it stands at its own. -/
theorem Call.awaits_writes {pc : Call} {job : Job} {dps : PyDict} (h : pc.awaits = some job)
    (hjob : job.writes = some dps) : pc = .setting dps := by
  cases pc <;> simp only [Call.awaits, Option.some.injEq, reduceCtorEq] at h
  all_goals subst h
  all_goals simp only [Job.writes, Option.some.injEq, reduceCtorEq] at hjob
  subst hjob
  rfl

/-- A command goes on to drop a lost connection, or ends.  It returns only where the worker's job
returned. -/
theorem callResume_setting {now : ℚ} {d : Device} {c : γ} {dps : PyDict} {value : JobValue}
    {t : Turn γ Call} (h : callResume cb now d c (.setting dps) value = some t) :
    (∃ why, t.pc = .settingLost why) ∨ (∃ r, t.pc = .done .setDps (.raised r)) ∨
      value = .done ∧ t.pc = .done .setDps (.returned none) := by
  cases value with
  | done =>
      obtain rfl := Option.some.inj h
      exact Or.inr (Or.inr ⟨rfl, rfl⟩)
  | raised r =>
      obtain rfl := Option.some.inj h
      unfold callFailed
      split
      · exact Or.inl ⟨_, rfl⟩
      · exact Or.inr (Or.inl ⟨_, rfl⟩)
  | _ => exact absurd h (by simp [callResume])

/-- A turn of a call never leads to a command, and returns only from one that was written.  So a
call submits its command when it begins or not at all. -/
theorem callResume_commands {now : ℚ} {d : Device} {c : γ} {pc : Call} {value : JobValue}
    {t : Turn γ Call} (h : callResume cb now d c pc value = some t) :
    (∀ dps, t.pc ≠ .setting dps) ∧
      ∀ v, t.pc = .done .setDps (.returned v) → value = .done ∧ ∃ dps, pc = .setting dps := by
  have hlost : ∀ (op : Operation) (why : LostReason) (d : Device) (c : γ),
      ∃ r, (callLost cb now op why d c).pc = .done op (.raised r) := by
    intro op why d c
    unfold callLost Handled.turn
    split
    · exact ⟨_, rfl⟩
    · exact ⟨_, rfl⟩
  cases pc with
  | setting dps =>
      rcases callResume_setting h with ⟨why, hpc⟩ | ⟨r, hpc⟩ | ⟨hvalue, hpc⟩
      · rw [hpc]
        exact ⟨by simp, by simp⟩
      · rw [hpc]
        exact ⟨by simp, by simp⟩
      · rw [hpc]
        exact ⟨by simp, fun _ _ => ⟨hvalue, dps, rfl⟩⟩
  | settingLost why =>
      cases value with
      | done =>
          obtain rfl := Option.some.inj h
          obtain ⟨r, hpc⟩ := hlost .setDps why d c
          rw [hpc]
          exact ⟨by simp, by simp⟩
      | raised r =>
          obtain rfl := Option.some.inj h
          exact ⟨by simp, by simp⟩
      | _ => exact absurd h (by simp [callResume])
  | done => exact absurd h (by simp [callResume])
  | _ =>
      have hop := (callResume_same h).2
      constructor
      · intro dps hpc
        rw [hpc] at hop
        exact absurd hop (by simp [Call.op])
      · intro v hpc
        rw [hpc] at hop
        exact absurd hop (by simp [Call.op])

/-! ## The trail of jobs -/

namespace Logged

/-- All jobs in the order in which they were submitted: those that have run, and those to come. -/
def trail (s : Logged γ) : List (Waiter × Job) :=
  s.log.map (fun r => (r.waiter, r.job)) ++ (s.world.worker.current ++ s.world.queue)

/-- The commands on the trail. -/
def commands (s : Logged γ) : List (Waiter × PyDict) := commandsOf s.trail

end Logged

namespace World

/-- What a step makes of the commands, when it adds none. -/
structure CommandsKept (a : Action) (commands commands' : List (Waiter × PyDict)) : Prop where
  order : (commands'.map Prod.snd).Sublist (commands.map Prod.snd)
  own : ∀ i, a ≠ .cancel i → jobsOf (.call i) commands' = jobsOf (.call i) commands
  cancelled : ∀ i, (jobsOf (.call i) commands').Sublist (jobsOf (.call i) commands)

/-- Nothing is lost where nothing happens. -/
theorem CommandsKept.refl (a : Action) (l : List (Waiter × PyDict)) : CommandsKept a l l :=
  ⟨List.Sublist.refl _, fun _ _ => rfl, fun _ => List.Sublist.refl _⟩

/-- Nobody awaits a command any more that is still to be written.  It stays in its place, and only
the cancellation of its call can do this. -/
theorem CommandsKept.relabel {a : Action} (log toRun : List (Waiter × PyDict)) {x : Waiter}
    (hx : ∀ i, x = .call i → a = .cancel i) :
    CommandsKept a (log ++ toRun) (log ++ relabel x .nobody toRun) := by
  have hself : ∀ i, x = .call i →
      jobsOf (.call i) (JobTracking.relabel x .nobody toRun) = [] := by
    intro i hi
    rw [hi]
    exact jobsOf_relabel_self (by simp) toRun
  have hother : ∀ i, x ≠ .call i →
      jobsOf (.call i) (JobTracking.relabel x .nobody toRun) = jobsOf (.call i) toRun :=
    fun i hi => jobsOf_relabel_other (Ne.symm hi) (by simp) toRun
  refine ⟨?_, fun i hi => ?_, fun i => ?_⟩
  · rw [List.map_append, List.map_append, map_snd_relabel]
  · rw [jobsOf_append, jobsOf_append, hother i fun h => hi (hx i h)]
  · rw [jobsOf_append, jobsOf_append]
    by_cases hi : x = .call i
    · rw [hself i hi]
      exact (List.Sublist.refl _).append (List.nil_sublist _)
    · rw [hother i hi]

/-- Jobs behind the others that write nothing. -/
theorem commands_submitted {a : Action} {w w' : World γ} (log : List Result) {x : Waiter}
    {jobs : List Job} (hworker : w'.worker = w.worker)
    (hqueue : w'.queue = w.queue ++ jobs.map fun job => (x, job))
    (hjobs : ∀ job ∈ jobs, job.writes = none) :
    CommandsKept a (Logged.commands ⟨w, log⟩) (Logged.commands ⟨w', log⟩) := by
  have hnil : commandsOf (jobs.map fun job => (x, job)) = [] := by
    apply commandsOf_eq_nil
    intro p hp
    obtain ⟨job, hjob, rfl⟩ := List.mem_map.mp hp
    exact hjobs job hjob
  have hsame : Logged.commands ⟨w', log⟩ = Logged.commands ⟨w, log⟩ := by
    simp [Logged.commands, Logged.trail, hworker, hqueue, hnil]
  rw [hsame]
  exact CommandsKept.refl a _

/-- A call that is not a command submits none.  Its own jobs are drops, opens and reads, which do
not count here. -/
theorem callGoes_commands {a : Action} {w w₀ : World γ} (log : List Result) (i : ℕ)
    {t : Turn γ Call} (hworker : w₀.worker = w.worker) (hqueue : w₀.queue = w.queue)
    (hpc : ∀ dps, t.pc ≠ .setting dps) :
    CommandsKept a (Logged.commands ⟨w, log⟩) (Logged.commands ⟨w₀.callGoes i t, log⟩) := by
  obtain ⟨pc, _, hsubmitted, hcases⟩ := callGoes_spec w₀ i t
  rw [hqueue] at hsubmitted
  refine commands_submitted log (by rw [callGoes_worker, hworker]) hsubmitted ?_
  intro job hjob
  have hawaits : pc.awaits = some job := Option.mem_toList.mp hjob
  cases hwrites : job.writes with
  | none => rfl
  | some dps =>
      have hsetting := Call.awaits_writes hawaits hwrites
      rcases hcases with rfl | ⟨rfl, _⟩
      · exact absurd hsetting (hpc dps)
      · exact absurd hsetting (by simp [Call.died])

/-- A turn of `_run` sends no command. -/
theorem loopGoes_commands {a : Action} {w w₀ : World γ} (log : List Result) (t : Turn γ Loop)
    (hworker : w₀.worker = w.worker) (hqueue : w₀.queue = w.queue) :
    CommandsKept a (Logged.commands ⟨w, log⟩) (Logged.commands ⟨w₀.loopGoes t, log⟩) := by
  have hsubmitted := loopGoes_queue w₀ t
  rw [hqueue] at hsubmitted
  refine commands_submitted log (by rw [loopGoes_worker, hworker]) hsubmitted ?_
  intro job hjob
  exact Loop.awaits_writes (Option.mem_toList.mp hjob)

/-- A call other than `async_set_dps` sends no command. -/
theorem newCall_commands {a : Action} {w w₀ : World γ} (log : List Result) {pc : Call}
    (hworker : w₀.worker = w.worker) (hqueue : w₀.queue = w.queue)
    (hpc : ∀ dps, pc ≠ .setting dps) :
    CommandsKept a (Logged.commands ⟨w, log⟩) (Logged.commands ⟨w₀.newCall pc, log⟩) :=
  callGoes_commands log _ hworker hqueue hpc

/-- A coroutine is cancelled. -/
theorem abandon_commands {a : Action} {w w₀ : World γ} (log : List Result) {x : Waiter}
    (hworker : w₀.worker = w.worker) (hqueue : w₀.queue = w.queue)
    (hx : ∀ i, x = .call i → a = .cancel i) :
    CommandsKept a (Logged.commands ⟨w, log⟩) (Logged.commands ⟨w₀.abandon x, log⟩) := by
  have htoRun : (w₀.abandon x).worker.current ++ (w₀.abandon x).queue =
      JobTracking.relabel x .nobody (w.worker.current ++ w.queue) := by
    rw [relabel_append, ← hworker, ← hqueue]
    unfold abandon
    cases w₀.worker <;> rfl
  unfold Logged.commands Logged.trail
  rw [htoRun, commandsOf_append (log.map _), commandsOf_append (log.map _), commandsOf_relabel]
  exact CommandsKept.relabel _ _ hx

/-- The worker runs the commands in their order, and passes over nothing but a cancelled one.  What
it ran is in the log, and what it has yet to run behind it. -/
theorem WorkerMove.commands {w w' : World γ} {a : Action} (log : List Result)
    (h : WorkerMove w a w') :
    CommandsKept a (Logged.commands ⟨w, log⟩)
      (Logged.commands ⟨w', log ++ w'.results.drop w.results.length⟩) := by
  unfold Logged.commands Logged.trail
  dsimp only
  by_cases hskip : a = .skip
  · subst hskip
    cases h with
    | @skipped job rest hworker hqueue =>
        have hnobody : ∀ i, jobsOf (.call i) (commandsOf [(.nobody, job)]) = [] := by
          intro i
          cases hwrites : job.writes <;> simp [commandsOf, hwrites, jobsOf]
        have hcons : commandsOf ((.nobody, job) :: rest) =
            commandsOf [(.nobody, job)] ++ commandsOf rest :=
          commandsOf_append [(.nobody, job)] rest
        rw [hworker, hqueue, List.drop_length, List.append_nil]
        simp only [Worker.current, List.nil_append, commandsOf_append, hcons]
        refine ⟨?_, fun i _ => ?_, fun i => ?_⟩
        · rw [List.map_append, List.map_append, List.map_append]
          exact (List.Sublist.refl _).append (List.sublist_append_right _ _)
        · rw [jobsOf_append, jobsOf_append, jobsOf_append, hnobody i, List.nil_append]
        · rw [jobsOf_append, jobsOf_append, jobsOf_append, hnobody i, List.nil_append]
  · obtain ⟨new, hnew, _⟩ := h.posted
    have hpending := (h.workerStep hskip).pending
    rw [World.pending, World.pending, hnew, List.map_append, List.append_assoc] at hpending
    have hjobs := List.append_cancel_left hpending
    rw [hnew, List.drop_left, List.map_append, List.append_assoc, hjobs]
    exact CommandsKept.refl a _

/-- A request that is no command.  It may be refused, await the task or submit another job. -/
theorem RequestMove.commands {w w' : World γ} {r : Request} (log : List Result)
    (h : RequestMove w r w') (hr : ∀ dps, r ≠ .setDps dps) :
    CommandsKept (.request r) (Logged.commands ⟨w, log⟩) (Logged.commands ⟨w', log⟩) := by
  cases h with
  | called hop =>
      refine newCall_commands log rfl rfl fun dps hpc => ?_
      rw [hpc] at hop
      cases r with
      | setDps dps => exact hr dps rfl
      | _ => exact absurd hop (by simp [Call.op, Request.op])
  | reconfigured => exact newCall_commands log rfl rfl (by simp)
  | closeRaised => exact newCall_commands log rfl rfl (by simp)
  | closeDrops => exact newCall_commands log rfl rfl (by simp)
  | closeCancels =>
      have habandon : CommandsKept (.request .close) (Logged.commands ⟨w, log⟩) (Logged.commands
          ⟨{ w.marked with loop := .ended .cancelled }.abandon .loop, log⟩) :=
        abandon_commands log rfl rfl (by simp)
      have hcall : CommandsKept (.request .close) (Logged.commands
          ⟨{ w.marked with loop := .ended .cancelled }.abandon .loop, log⟩) (Logged.commands
          ⟨({ w.marked with loop := .ended .cancelled }.abandon .loop).newCall .closing, log⟩) :=
        newCall_commands log rfl rfl (by simp)
      exact ⟨hcall.order.trans habandon.order,
        fun i hi => (hcall.own i hi).trans (habandon.own i hi),
        fun i => (hcall.cancelled i).trans (habandon.cancelled i)⟩

/-- `async_set_dps` returns at once without DPs, raises without a connection, or submits its
command behind all others. -/
theorem request_setDps (w : World γ) (log : List Result) (dps : PyDict) :
    ∃ pc, (w.request (.setDps dps)).calls = w.calls ++ [pc] ∧
      (pc = .setting dps ∧ Logged.commands ⟨w.request (.setDps dps), log⟩ =
          Logged.commands ⟨w, log⟩ ++ [(.call w.calls.length, dps)] ∨
        (∃ ending, pc = .done .setDps ending ∧ ∀ v, ending = .returned v → dps.entries = []) ∧
          Logged.commands ⟨w.request (.setDps dps), log⟩ = Logged.commands ⟨w, log⟩) := by
  have hnew : ∀ pc, ∃ pc', (w.newCall pc).calls = w.calls ++ [pc'] ∧
      Logged.commands ⟨w.newCall pc, log⟩ = Logged.commands ⟨w, log⟩ ++
        commandsOf (pc'.awaits.toList.map fun job => (.call w.calls.length, job)) ∧
      (pc' = pc ∨ pc' = .died pc.op .runtimeError) := by
    intro pc
    obtain ⟨pc', hcalls, hqueue, hcases⟩ := newCall_spec w pc
    refine ⟨pc', hcalls, by simp [Logged.commands, Logged.trail, hqueue], ?_⟩
    rcases hcases with rfl | ⟨rfl, _⟩
    · exact Or.inl rfl
    · exact Or.inr rfl
  have hended : ∀ ending, (∀ v, ending = .returned v → dps.entries = []) →
      ∃ pc, (w.newCall (.done .setDps ending)).calls = w.calls ++ [pc] ∧
        (∃ ending, pc = .done .setDps ending ∧ ∀ v, ending = .returned v → dps.entries = []) ∧
        Logged.commands ⟨w.newCall (.done .setDps ending), log⟩ = Logged.commands ⟨w, log⟩ := by
    intro ending hempty
    obtain ⟨pc, hcalls, hcommands, rfl | rfl⟩ := hnew (.done .setDps ending)
    · exact ⟨_, hcalls, ⟨ending, rfl, hempty⟩, by simpa [Call.awaits, commandsOf] using hcommands⟩
    · exact ⟨_, hcalls, ⟨_, rfl, by simp⟩, by
        simpa [Call.died, Call.awaits, commandsOf] using hcommands⟩
  simp only [World.request]
  split
  · rename_i hempty
    obtain ⟨pc, hcalls, hpc⟩ := hended (.returned none) fun _ _ => List.isEmpty_iff.mp hempty
    exact ⟨pc, hcalls, Or.inr hpc⟩
  · split
    · rename_i why _
      obtain ⟨pc, hcalls, hpc⟩ := hended (.raised (.lan (.unreachable why))) (by simp)
      exact ⟨pc, hcalls, Or.inr hpc⟩
    · obtain ⟨pc, hcalls, hcommands, rfl | rfl⟩ := hnew (.setting dps)
      · exact ⟨_, hcalls, Or.inl ⟨rfl, hcommands⟩⟩
      · exact ⟨_, hcalls, Or.inr ⟨⟨_, rfl, by simp⟩, by
          simpa [Call.died, Call.awaits, commandsOf] using hcommands⟩⟩

/-- **A step on the event loop** adds no command, unless it is a new call.  A cancelled call leaves
its command to the worker. -/
theorem OwnerMove.commands {w w' : World γ} {a : Action} (log : List Result)
    (h : OwnerMove cb w a w') (ha : a.asks = none) :
    CommandsKept a (Logged.commands ⟨w, log⟩) (Logged.commands ⟨w', log⟩) := by
  cases h with
  | startedBefore => exact CommandsKept.refl _ _
  | started => exact CommandsKept.refl _ _
  | begun => exact loopGoes_commands log _ rfl rfl
  | woken => exact loopGoes_commands log _ rfl rfl
  | requested hmove =>
      refine hmove.commands log ?_
      rintro dps rfl
      exact absurd ha (by simp [Action.asks])
  | loopResumed => exact loopGoes_commands log _ rfl rfl
  | callResumed _ _ _ ht =>
      exact callGoes_commands log _ rfl rfl (callResume_commands ht).1
  | forgotten => exact CommandsKept.refl _ _
  | taskEnded => exact callGoes_commands log _ rfl rfl (by simp)
  | cancelSuppressed => exact CommandsKept.refl _ _
  | shutdownCancelled => exact CommandsKept.refl _ _
  | cancelled =>
      refine abandon_commands log rfl rfl ?_
      intro i hi
      rw [Waiter.call.inj hi]
  | shutdownBegun => exact CommandsKept.refl _ _
  | shutdownFinished => exact CommandsKept.refl _ _
  | keyReleased => exact CommandsKept.refl _ _

/-! ## Calls -/

/-- Where a call that is not new can stand after a step: where it stood, where a result led it,
at a close, or at a cancellation. -/
theorem old_call {w w' : World γ} {a : Action} (h : w.step cb a = some w') {k : ℕ} {c : Call}
    (hk : w'.calls[k]? = some c) (hlt : k < w.calls.length) :
    (w.calls[k]? = some c ∧ (a = .cancel k → c = .closing)) ∨
      (∃ i now r pc t, a = .resume i now ∧ w.results[i]? = some r ∧ r.waiter = .call k ∧
        w.calls[k]? = some pc ∧ callResume cb now w.dev w.client pc r.value = some t ∧
        (c = t.pc ∨ c = .died t.pc.op .runtimeError)) ∨
      c.op = .close ∨ ∃ op, c = .done op .cancelled := by
  have hsame : w'.calls = w.calls → (∀ i, a = .cancel i → w.calls[i]? = some .closing) →
      w.calls[k]? = some c ∧ (a = .cancel k → c = .closing) := by
    intro hcalls hcancel
    rw [hcalls] at hk
    refine ⟨hk, fun ha => ?_⟩
    exact Option.some.inj (hk.symm.trans (hcancel k ha))
  have hset : ∀ (j : ℕ) (c' : Call), w'.calls = w.calls.set j c' →
      (j ≠ k → a ≠ .cancel k) → (w.calls[k]? = some c ∧ (a = .cancel k → c = .closing)) ∨
        j = k ∧ c = c' := by
    intro j c' hcalls hother
    rw [hcalls] at hk
    by_cases hjk : j = k
    · subst hjk
      rw [List.getElem?_set_self hlt] at hk
      exact Or.inr ⟨rfl, (Option.some.inj hk).symm⟩
    · rw [List.getElem?_set_ne hjk] at hk
      exact Or.inl ⟨hk, fun ha => absurd ha (hother hjk)⟩
  rcases step_moves h with hmove | hmove
  · refine Or.inl (hsame hmove.keeps.calls fun i ha => ?_)
    subst ha
    cases hmove
  cases hmove with
  | startedBefore => exact Or.inl (hsame rfl (by simp))
  | started => exact Or.inl (hsame rfl (by simp))
  | begun => exact Or.inl (hsame (by simp) (by simp))
  | woken ha => exact Or.inl (hsame (by simp) (by rcases ha with rfl | rfl <;> simp))
  | requested hmove =>
      obtain ⟨pc, hcalls, _⟩ := hmove.calls
      rw [hcalls, List.getElem?_append_left hlt] at hk
      exact Or.inl ⟨hk, by simp⟩
  | loopResumed => exact Or.inl (hsame (by simp) (by simp))
  | @callResumed i n now r pc t hr hx hpc ht =>
      obtain ⟨c', hcalls, _, hcases⟩ := callGoes_spec { w with results := w.results.eraseIdx i } n t
      rcases hset n c' hcalls (by simp) with hold | ⟨rfl, rfl⟩
      · exact Or.inl hold
      · refine Or.inr (Or.inl ⟨i, now, r, pc, t, rfl, hr, hx, hpc, ht, ?_⟩)
        rcases hcases with rfl | ⟨rfl, _⟩
        · exact Or.inl rfl
        · exact Or.inr rfl
  | forgotten => exact Or.inl (hsame rfl (by simp))
  | taskEnded hcall =>
      obtain ⟨c', hcalls, _, hcases⟩ := callGoes_spec w _ ⟨w.dev, w.client, .closeDropping⟩
      rcases hset _ c' hcalls (by simp) with hold | ⟨rfl, rfl⟩
      · exact Or.inl hold
      · refine Or.inr (Or.inr (Or.inl ?_))
        rcases hcases with rfl | ⟨rfl, _⟩ <;> rfl
  | @cancelSuppressed i hcall =>
      refine Or.inl (hsame rfl fun j ha => ?_)
      rw [← Action.cancel.inj ha]
      exact hcall
  | shutdownCancelled =>
      rcases hset _ _ rfl (fun hne ha => hne (Action.cancel.inj ha)) with hold | ⟨_, rfl⟩
      · exact Or.inl hold
      · exact Or.inr (Or.inr (Or.inl rfl))
  | cancelled =>
      rcases hset _ _ rfl (fun hne ha => hne (Action.cancel.inj ha)) with hold | ⟨_, rfl⟩
      · exact Or.inl hold
      · exact Or.inr (Or.inr (Or.inr ⟨_, rfl⟩))
  | shutdownBegun => exact Or.inl (hsame rfl (by simp))
  | shutdownFinished => exact Or.inl (hsame rfl (by simp))
  | keyReleased =>
      rcases hset _ _ rfl (by simp) with hold | ⟨_, rfl⟩
      · exact Or.inl hold
      · exact Or.inr (Or.inr (Or.inl rfl))

/-- A call that was not there before is that of a request. -/
theorem new_call {w w' : World γ} {a : Action} (h : w.step cb a = some w') {k : ℕ} {c : Call}
    (hk : w'.calls[k]? = some c) (hnew : w.calls.length ≤ k) :
    ∃ r, a = .request r ∧ c.op = r.op := by
  have hlt : k < w'.calls.length := (List.getElem?_eq_some_iff.mp hk).1
  rcases calls_step h with hsame | ⟨r, pc, ha, happend, hop⟩ | ⟨_, _, _, _, _, _, _, hset⟩
  · rw [hsame] at hlt
    omega
  · rw [happend, List.length_append, List.length_singleton] at hlt
    obtain rfl : k = w.calls.length := by omega
    rw [happend, List.getElem?_concat_length] at hk
    exact ⟨r, ha, (Option.some.inj hk) ▸ hop⟩
  · rw [hset, List.length_set] at hlt
    omega

/-- The event loop posts no result.  So the log, which is what the worker posted, does not grow in
its steps. -/
theorem OwnerMove.results_length {w w' : World γ} {a : Action} (h : OwnerMove cb w a w') :
    w'.results.length ≤ w.results.length := by
  have herase : ∀ i, w'.results = w.results.eraseIdx i →
      w'.results.length ≤ w.results.length := by
    intro i hresults
    rw [hresults]
    exact List.length_eraseIdx_le _ _
  cases h with
  | requested hmove =>
      cases hmove with
      | closeCancels => simp [abandon, marked]
      | _ => simp [marked]
  | loopResumed => exact herase _ (loopGoes_results _ _)
  | callResumed => exact herase _ (callGoes_results _ _ _)
  | forgotten => exact herase _ rfl
  | cancelled => simp [abandon]
  | _ => simp

end World

/-! ## Runs -/

/-- A device with its log and the commands that were asked for: the numbers of the calls of
`async_set_dps` and their DPs. -/
structure Commanded (γ : Type) extends Logged γ where
  asked : List (Nat × PyDict) := []

namespace Commanded

/-- A step notes a command that is asked for. -/
def step (cb : Callbacks γ) (s : Commanded γ) (a : Action) : Option (Commanded γ) :=
  (s.toLogged.step cb a).map fun l =>
    ⟨l, s.asked ++ a.asks.toList.map fun dps => (s.world.calls.length, dps)⟩

/-- A new device. -/
def init (config : DeviceConfig) (timings : Timings) (hint : Option PyStr) (client : γ) :
    Commanded γ where
  toLogged := .init config timings hint client

/-- The invariant: each command on the trail is that of one call, which stands at it or has
returned. -/
structure Accounted (s : Commanded γ) : Prop where
  tracked : s.world.Tracked
  logged : ∀ r ∈ s.world.results, r.waiter ≠ .nobody → r ∈ s.log
  order : (s.commands.map Prod.snd).Sublist (s.asked.map Prod.snd)
  fresh : ∀ i, s.world.calls.length ≤ i → jobsOf (.call i) s.commands = []
  calls : ∀ p ∈ s.asked, ∃ c, s.world.calls[p.1]? = some c ∧ c.op = .setDps
  once : ∀ p ∈ s.asked, ∀ q ∈ s.asked, p.1 = q.1 → p = q
  setting : ∀ i dps, s.world.calls[i]? = some (.setting dps) →
    (i, dps) ∈ s.asked ∧ jobsOf (.call i) s.commands = [dps]
  returned : ∀ p ∈ s.asked, p.2.entries ≠ [] → ∀ v,
    s.world.calls[p.1]? = some (.done .setDps (.returned v)) →
      jobsOf (.call p.1) s.commands = [p.2] ∧
        ⟨.call p.1, .wCall (.set p.2), .done⟩ ∈ s.log

/-- A device just created has been asked for nothing. -/
theorem Accounted.init (config : DeviceConfig) (timings : Timings) (hint : Option PyStr)
    (client : γ) : (Commanded.init config timings hint client).Accounted where
  tracked := World.Tracked.init config timings hint client
  logged := by simp [Commanded.init, Logged.init, World.init]
  order := List.Sublist.refl _
  fresh := fun _ _ => rfl
  calls := by simp [Commanded.init]
  once := by simp [Commanded.init]
  setting := by simp [Commanded.init, Logged.init, World.init]
  returned := by simp [Commanded.init]

/-- **A step without a new command** keeps the account.  The calls that there were have the
commands they had, but for one that is cancelled. -/
theorem Accounted.kept {s : Commanded γ} {l : Logged γ} {a : Action} (hs : s.Accounted)
    (h : s.world.step cb a = some l.world) (ha : a.asks = none)
    (hkept : World.CommandsKept a s.commands l.commands)
    (hlog : ∀ r ∈ s.log, r ∈ l.log)
    (hlogged : ∀ r ∈ l.world.results, r.waiter ≠ .nobody → r ∈ l.log) :
    Accounted ⟨l, s.asked⟩ := by
  have hshorter : s.world.calls.length ≤ l.world.calls.length := by
    rcases World.calls_step h with hsame | ⟨_, _, _, happend, _⟩ | ⟨_, _, _, _, _, _, _, hset⟩
    · rw [hsame]
    · rw [happend]
      simp
    · rw [hset]
      simp
  have hold : ∀ p ∈ s.asked, p.1 < s.world.calls.length := by
    intro p hp
    obtain ⟨c, hc, _⟩ := hs.calls p hp
    exact (List.getElem?_eq_some_iff.mp hc).1
  refine
    { tracked := hs.tracked.step h, logged := hlogged, order := hkept.order.trans hs.order,
      fresh := ?fresh, calls := ?calls, once := hs.once, setting := ?setting,
      returned := ?returned }
  case fresh =>
    intro i hi
    have hnil : jobsOf (.call i) s.commands = [] := hs.fresh i (hshorter.trans hi)
    exact List.sublist_nil.mp (hnil ▸ hkept.cancelled i)
  case calls =>
    intro p hp
    obtain ⟨c, hc, hop⟩ := hs.calls p hp
    have hlt : p.1 < l.world.calls.length := (hold p hp).trans_le hshorter
    obtain ⟨c₀, hc₀, hop₀, _⟩ :=
      World.call_before h (List.getElem?_eq_getElem hlt) (hold p hp)
    obtain rfl : c₀ = c := Option.some.inj (hc₀.symm.trans hc)
    exact ⟨_, List.getElem?_eq_getElem hlt, hop₀.symm.trans hop⟩
  case setting =>
    intro i dps hi
    by_cases hlt : i < s.world.calls.length
    · rcases World.old_call h hi hlt with ⟨hc, hcancel⟩ | hresumed | hclose | ⟨op, hdone⟩
      · obtain ⟨hasked, hown⟩ := hs.setting i dps hc
        refine ⟨hasked, ?_⟩
        rw [← hown]
        exact hkept.own i fun hcancelled => absurd (hcancel hcancelled) (by simp)
      · obtain ⟨_, _, _, _, _, _, _, _, _, ht, hpc | hpc⟩ := hresumed
        · exact absurd hpc.symm ((callResume_commands ht).1 dps)
        · exact absurd hpc (by simp [Call.died])
      · exact absurd hclose (by simp [Call.op])
      · exact absurd hdone (by simp)
    · obtain ⟨r, rfl, hop⟩ := World.new_call h hi (not_lt.mp hlt)
      cases r with
      | setDps dps => exact absurd ha (by simp [Action.asks])
      | _ => exact absurd hop (by simp [Call.op, Request.op])
  case returned =>
    rintro ⟨k, dps⟩ hp hne v hv
    rcases World.old_call h hv (hold _ hp) with ⟨hc, hcancel⟩ | hresumed | hclose | ⟨op, hdone⟩
    · obtain ⟨hown, hsent⟩ := hs.returned (k, dps) hp hne v hc
      refine ⟨?_, hlog _ hsent⟩
      rw [← hown]
      exact hkept.own _ fun hcancelled => absurd (hcancel hcancelled) (by simp)
    · -- the call returns: its command was written just now
      obtain ⟨i, now, r, pc, t, rfl, hr, hx, hc, ht, hpc | hpc⟩ := hresumed
      · obtain ⟨hvalue, dps', rfl⟩ := (callResume_commands ht).2 v hpc.symm
        obtain ⟨hasked, hown⟩ := hs.setting k dps' hc
        obtain rfl : dps' = dps := (Prod.mk.inj (hs.once _ hasked _ hp rfl)).2
        have hjob := (hs.tracked.of_result hr (by rw [hx]; simp)).1
        rw [hx, World.awaits, hc] at hjob
        have hrjob : r.job = .wCall (.set dps') := (Option.some.inj hjob).symm
        refine ⟨(hkept.own k (by simp)).trans hown, hlog _ ?_⟩
        have hmem := hs.logged r (List.mem_of_getElem? hr) (by rw [hx]; simp)
        obtain ⟨waiter, job, value⟩ := r
        obtain rfl : waiter = .call k := hx
        obtain rfl : job = .wCall (.set dps') := hrjob
        obtain rfl : value = .done := hvalue
        exact hmem
      · exact absurd hpc (by simp [Call.died])
    · exact absurd hclose (by simp [Call.op])
    · exact absurd hdone (by simp)

/-- **A new call of `async_set_dps`** keeps the account.  Its command goes to the end of the queue,
or the call is refused and has none. -/
theorem Accounted.asked {s : Commanded γ} {dps : PyDict} (hs : s.Accounted) :
    Accounted ⟨⟨s.world.request (.setDps dps), s.log⟩,
      s.asked ++ [(s.world.calls.length, dps)]⟩ := by
  have htracked : (s.world.request (.setDps dps)).Tracked :=
    hs.tracked.step (show s.world.step (Callbacks.none γ) (.request (.setDps dps)) =
      some (s.world.request (.setDps dps)) from rfl)
  have hold : ∀ p ∈ s.asked, p.1 < s.world.calls.length := by
    intro p hp
    obtain ⟨c, hc, _⟩ := hs.calls p hp
    exact (List.getElem?_eq_some_iff.mp hc).1
  obtain ⟨pc, hcalls, hpc⟩ := World.request_setDps s.world s.log dps
  have hresults : (s.world.request (.setDps dps)).results = s.world.results := by
    simp only [World.request]
    split
    · simp
    · split <;> simp
  have hlast : ∀ p ∈ s.asked ++ [(s.world.calls.length, dps)],
      p ∈ s.asked ∨ p = (s.world.calls.length, dps) := by
    intro p hp
    rcases List.mem_append.mp hp with hp | hp
    · exact Or.inl hp
    · exact Or.inr (List.mem_singleton.mp hp)
  have hget : ∀ i < s.world.calls.length,
      (s.world.request (.setDps dps)).calls[i]? = s.world.calls[i]? := by
    intro i hi
    rw [hcalls, List.getElem?_append_left hi]
  have hgetLast : (s.world.request (.setDps dps)).calls[s.world.calls.length]? = some pc := by
    rw [hcalls, List.getElem?_concat_length]
  have hopLast : pc.op = .setDps := by
    rcases hpc with ⟨rfl, _⟩ | ⟨⟨_, rfl, _⟩, _⟩ <;> rfl
  -- the commands of the calls before are as they were
  have hown : ∀ i, i ≠ s.world.calls.length →
      jobsOf (.call i) (Logged.commands ⟨s.world.request (.setDps dps), s.log⟩) =
        jobsOf (.call i) s.commands := by
    intro i hi
    rcases hpc with ⟨_, hcommands⟩ | ⟨_, hcommands⟩
    · rw [hcommands, jobsOf_append, jobsOf_cons_other (by simpa using hi.symm), jobsOf_nil,
        List.append_nil]
    · rw [hcommands]
  refine
    { tracked := htracked, logged := ?logged, order := ?order, fresh := ?fresh, calls := ?calls,
      once := ?once, setting := ?setting, returned := ?returned }
  case logged =>
    intro r hr
    exact hs.logged r (hresults ▸ hr)
  case order =>
    show ((Logged.commands ⟨s.world.request (.setDps dps), s.log⟩).map Prod.snd).Sublist
      ((s.asked ++ [(s.world.calls.length, dps)]).map Prod.snd)
    rw [List.map_append]
    rcases hpc with ⟨_, hcommands⟩ | ⟨_, hcommands⟩
    · rw [hcommands, List.map_append]
      exact hs.order.append (List.Sublist.refl _)
    · rw [hcommands]
      exact hs.order.trans (List.sublist_append_left _ _)
  case fresh =>
    intro i hi
    have hlen : s.world.calls.length < i := by
      have hle : (s.world.request (.setDps dps)).calls.length ≤ i := hi
      rw [hcalls, List.length_append, List.length_singleton] at hle
      omega
    exact (hown i (by omega)).trans (hs.fresh i hlen.le)
  case calls =>
    intro p hp
    rcases hlast p hp with hp | rfl
    · obtain ⟨c, hc, hop⟩ := hs.calls p hp
      exact ⟨c, (hget _ (hold p hp)).trans hc, hop⟩
    · exact ⟨pc, hgetLast, hopLast⟩
  case once =>
    intro p hp q hq heq
    rcases hlast p hp with hp | rfl <;> rcases hlast q hq with hq | rfl
    · exact hs.once p hp q hq heq
    · exact absurd heq (hold p hp).ne
    · exact absurd heq.symm (hold q hq).ne
    · rfl
  case setting =>
    intro i dps' hi
    rcases Nat.lt_trichotomy i s.world.calls.length with hlt | rfl | hgt
    · rw [hget i hlt] at hi
      obtain ⟨hasked, hjobs⟩ := hs.setting i dps' hi
      exact ⟨List.mem_append_left _ hasked, (hown i hlt.ne).trans hjobs⟩
    · obtain rfl := Option.some.inj (hgetLast.symm.trans hi)
      rcases hpc with ⟨hsetting, hcommands⟩ | ⟨⟨_, hdone, _⟩, _⟩
      · obtain rfl := Call.setting.inj hsetting
        refine ⟨List.mem_append_right _ (List.mem_singleton_self _), ?_⟩
        have hnil : jobsOf (.call s.world.calls.length)
            (Logged.commands ⟨s.world, s.log⟩) = [] := hs.fresh _ le_rfl
        show jobsOf (.call s.world.calls.length)
          (Logged.commands ⟨s.world.request (.setDps dps'), s.log⟩) = [dps']
        rw [hcommands, jobsOf_append, hnil, jobsOf_cons_self, jobsOf_nil, List.nil_append]
      · exact absurd hdone (by simp)
    · rw [List.getElem?_eq_none (by rw [hcalls]; simp; omega)] at hi
      exact absurd hi (by simp)
  case returned =>
    intro p hp hne v hv
    rcases hlast p hp with hp | rfl
    · rw [hget _ (hold p hp)] at hv
      obtain ⟨hjobs, hsent⟩ := hs.returned p hp hne v hv
      exact ⟨(hown _ (hold p hp).ne).trans hjobs, hsent⟩
    · obtain rfl := Option.some.inj (hgetLast.symm.trans hv)
      rcases hpc with ⟨hsetting, _⟩ | ⟨⟨ending, hdone, hempty⟩, _⟩
      · exact absurd hsetting (by simp)
      · exact absurd (hempty v (Call.done.inj hdone).2.symm) hne

/-- **Every step keeps the account.**  A step is the worker's, a new command or another one on the
event loop. -/
theorem Accounted.step {s s' : Commanded γ} {a : Action} (hs : s.Accounted)
    (h : s.step cb a = some s') : s'.Accounted := by
  obtain ⟨l, hl, rfl⟩ := Option.map_eq_some_iff.mp h
  obtain ⟨w, hw, rfl⟩ := Option.map_eq_some_iff.mp hl
  cases hasks : a.asks with
  | none =>
      rw [show (s.asked ++ List.map _ (none : Option PyDict).toList) = s.asked from by simp]
      refine hs.kept hw hasks ?_ (fun r hr => List.mem_append_left _ hr) ?_
      · rcases World.step_moves hw with hmove | hmove
        · exact hmove.commands s.log
        · have hdrop : w.results.drop s.world.results.length = [] :=
            List.drop_eq_nil_of_le hmove.results_length
          rw [hdrop, List.append_nil]
          exact hmove.commands s.log hasks
      · intro r hr hx
        rcases World.step_moves hw with hmove | hmove
        · obtain ⟨new, hnew, _⟩ := hmove.posted
          have hr' : r ∈ s.world.results ++ new := hnew ▸ hr
          rw [hnew, List.drop_left]
          rcases List.mem_append.mp hr' with hr' | hr'
          · exact List.mem_append_left _ (hs.logged r hr' hx)
          · exact List.mem_append_right _ hr'
        · exact List.mem_append_left _ (hs.logged r (hmove.ownerStep.results r hr hx) hx)
  | some dps =>
      obtain rfl : a = .request (.setDps dps) := by
        cases a with
        | request r =>
            cases r with
            | setDps d => rw [Option.some.inj hasks]
            | _ => exact absurd hasks (by simp [Action.asks])
        | _ => exact absurd hasks (by simp [Action.asks])
      obtain rfl := Option.some.inj hw
      have hdrop : (s.world.request (.setDps dps)).results.drop s.world.results.length = [] := by
        have hrequest : s.world.step cb (.request (.setDps dps)) =
            some (s.world.request (.setDps dps)) := rfl
        rcases World.step_moves hrequest with hmove | hmove
        · cases hmove
        · exact List.drop_eq_nil_of_le hmove.results_length
      rw [hdrop, List.append_nil]
      exact hs.asked

/-- What the worker wrote is the part of the trail that has run. -/
theorem ran_sublist (s : Commanded γ) :
    (s.log.filterMap fun r => r.job.writes).Sublist (s.commands.map Prod.snd) := by
  have hran : (commandsOf (s.log.map fun r => (r.waiter, r.job))).map Prod.snd =
      s.log.filterMap fun r => r.job.writes := by
    induction s.log with
    | nil => rfl
    | cons r log ih =>
        cases hwrites : r.job.writes <;> simpa [commandsOf, hwrites] using ih
  rw [← hran, Logged.commands, Logged.trail, commandsOf_append, List.map_append]
  exact List.sublist_append_left _ _

/-- The results of the commands of one call. -/
def ownResults (s : Commanded γ) (i : ℕ) : List Result :=
  s.log.filter fun r => decide (r.waiter = .call i) && r.job.writes.isSome

/-- A call whose only command is in the log has that result and no other.  A second result would be
a second command. -/
theorem ownResults_eq {s : Commanded γ} {i : ℕ} {dps : PyDict} {r : Result}
    (hown : jobsOf (.call i) s.commands = [dps]) (hr : r ∈ s.ownResults i) :
    s.ownResults i = [r] := by
  have hlength : ∀ log : List Result,
      (log.filter fun r => decide (r.waiter = .call i) && r.job.writes.isSome).length =
        (jobsOf (.call i) (commandsOf (log.map fun r => (r.waiter, r.job)))).length := by
    intro log
    induction log with
    | nil => rfl
    | cons r log ih =>
        have hcons : commandsOf ((r.waiter, r.job) :: log.map fun r => (r.waiter, r.job)) =
            commandsOf [(r.waiter, r.job)] ++ commandsOf (log.map fun r => (r.waiter, r.job)) :=
          commandsOf_append [_] _
        rw [List.map_cons, hcons, jobsOf_append, List.length_append, ← ih, List.filter_cons]
        by_cases hx : r.waiter = .call i
        · cases hwrites : r.job.writes <;>
            simp [commandsOf, hx, hwrites, Nat.add_comm]
        · cases hwrites : r.job.writes <;> simp [commandsOf, hx, hwrites, jobsOf]
  have hle : (s.ownResults i).length ≤ 1 := by
    have hparts := congrArg List.length hown
    rw [Logged.commands, Logged.trail, commandsOf_append, jobsOf_append, List.length_append,
      ← hlength s.log] at hparts
    show (s.log.filter _).length ≤ 1
    simp only [List.length_singleton] at hparts
    omega
  obtain ⟨r', hr'⟩ : ∃ r', s.ownResults i = [r'] := by
    apply List.length_eq_one_iff.mp
    have hpos := List.length_pos_of_mem hr
    omega
  rw [hr'] at hr ⊢
  rw [List.mem_singleton.mp hr]

/-- **No command is lost, doubled or out of order.**  In every run of a device, with any calls,
cancellations and library answers: what the worker wrote is a subsequence of what was asked for;
a call of `async_set_dps` with DPs that has returned wrote its own DPs, successfully and once;
and with no job left and no result waiting, every call has ended, by returning, by raising or
by being cancelled. -/
theorem commands_written_once {config : DeviceConfig} {timings : Timings} {hint : Option PyStr}
    {client : γ} {as : List Action} {s : Commanded γ}
    (hrun : Run (step cb) Anything (init config timings hint client) as s) :
    (s.log.filterMap fun r => r.job.writes).Sublist (s.asked.map Prod.snd) ∧
    (∀ i dps v, (i, dps) ∈ s.asked → dps.entries ≠ [] →
      s.world.calls[i]? = some (.done .setDps (.returned v)) →
      s.ownResults i = [⟨.call i, .wCall (.set dps), .done⟩]) ∧
    (s.world.AtRest → ∀ p ∈ s.asked, ∃ ending,
      s.world.calls[p.1]? = some (.done .setDps ending)) := by
  have hs : s.Accounted :=
    hrun.invariant Accounted (fun _ _ _ h _ hstep => h.step hstep)
      (Accounted.init config timings hint client)
  refine ⟨(ran_sublist s).trans hs.order, ?_, ?_⟩
  · intro i dps v hasked hne hreturned
    obtain ⟨hown, hsent⟩ := hs.returned (i, dps) hasked hne v hreturned
    refine ownResults_eq hown ?_
    exact List.mem_filter.mpr ⟨hsent, by simp [Job.writes]⟩
  · intro hrest p hp
    obtain ⟨c, hc, hop⟩ := hs.calls p hp
    have hidle : c.awaits = none := by
      have htracked := hs.tracked (.call p.1) (by simp)
      have hnone : s.world.pending = [] := by
        rw [World.pending, hrest.results, hrest.worker, hrest.queue]
        rfl
      rw [World.TracksFor, hnone, World.awaits, hc] at htracked
      exact Option.toList_eq_nil_iff.mp htracked.symm
    cases c with
    | done op ending =>
        obtain rfl : op = .setDps := hop
        exact ⟨ending, hc⟩
    | setting dps => exact absurd hidle (by simp [Call.awaits])
    | settingLost why => exact absurd hidle (by simp [Call.awaits])
    | _ => exact absurd hop (by simp [Call.op])

/-- Two commands on an open connection, the second one cancelled before the worker takes it up. -/
def twoCommands : List Action :=
  openActions ++ [.resume 0 0, .request (.setDps (.singleton (py "1") (.bool true))),
    .request (.setDps (.singleton (py "3") (.str (py "auto")))), .cancel 2,
    .work ⟨.ok .null, true, false⟩ 0, .work ⟨.ok .null, true, false⟩ 0, .resume 0 0, .resume 0 0]

/-- Two commands are given, and both are written, once and in their order. -/
theorem commands_written_once_two :
    ∃ s : Commanded Unit, (s.asked.length = 2 ∧ s.world.AtRest) ∧
      (s.log.filterMap fun r => r.job.writes).Sublist (s.asked.map Prod.snd) ∧
      (∀ i dps v, (i, dps) ∈ s.asked → dps.entries ≠ [] →
        s.world.calls[i]? = some (.done .setDps (.returned v)) →
        s.ownResults i = [⟨.call i, .wCall (.set dps), .done⟩]) ∧
      (s.world.AtRest → ∀ p ∈ s.asked, ∃ ending,
        s.world.calls[p.1]? = some (.done .setDps ending)) := by
  let execution := exec (step (Callbacks.none Unit)) (init exampleConfig {} none ()) twoCommands
  obtain ⟨s, hs⟩ := Option.isSome_iff_exists.mp (show execution.isSome = true by decide +kernel)
  have hfacts : ∀ s ∈ execution, s.asked.length = 2 ∧ s.world.AtRest := by decide +kernel
  exact ⟨s, hfacts s hs, commands_written_once (Run.of_exec hs)⟩

end Commanded

end Lan
