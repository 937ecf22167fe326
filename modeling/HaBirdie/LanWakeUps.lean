import HaBirdie.LanAvailability
import HaBirdie.LanSettings
import HaBirdie.LanTurns

/-!
# The wake-up of new settings

`async_reconfigure` first has the worker drop the connection and then sets the wake event, so
that `_run` tries the new settings right away.  `_sleep` clears the event before it waits.  So the
wake-up is lost if `_run` is on its way into a sleep when the event is set: its receive was
queued behind the drop and finds no connection, say, and the `_async_lost` that follows
sleeps for a second.

`Prompt` says that `_run` is not on its way into a sleep, and `new_settings_tried` that a wake-up
at such a moment is kept until the next connection attempt.
-/

namespace Lan

open Python JobTracking StepRuns

variable {γ : Type} {cb : Callbacks γ}

/-- `_run` is in `_sleep`. -/
def Loop.sleeps : Loop → Bool
  | .backingOff _ | .pausing _ => true
  | _ => false

/-- An `async_reconfigure` has returned. -/
def Call.hasReconfigured : Call → Bool
  | .done .reconfigure (.returned none) => true
  | _ => false

/-- Taking up the value takes `_run` into a sleep before it opens a connection, if none is
held: an open or a library call failed, or the drop of `_async_lost` is done; a library call
after a heartbeat is going to fail. -/
def Loop.sleepsAfter : Loop → JobValue → Bool
  | .opening _, .raised (.lan _) => true
  | .reading _, .raised (.lan (.connectionLost _)) => true
  | .receiving _, .raised (.lan (.connectionLost _)) => true
  | .beating _, .raised (.lan (.connectionLost _)) => true
  | .beating _, .done => true
  | .dropping _ _, .done => true
  | _, _ => false

/-- `_run` has ended or opens a connection. -/
def Loop.GoesOn (pc : Loop) : Prop := (∃ e, pc = .ended e) ∨ ∃ backoff, pc = .opening backoff

/-- A background task that died has ended, and needs no wake-up. -/
theorem Loop.died_goesOn (e : PyException) : (Loop.died e).GoesOn := Or.inl ⟨_, rfl⟩

/-- Without a connection `_run` opens one. -/
theorem loopTop_goesOn (now backoff : ℚ) {d : Device} (c : γ) (hapi : d.api = none) :
    (loopTop now backoff d c).pc.GoesOn := by
  unfold loopTop
  split
  · exact Or.inl ⟨_, rfl⟩
  · rw [hapi]
    exact Or.inr ⟨backoff, rfl⟩

/-- After its callbacks the loop goes on as the turn that follows them does. -/
theorem Handled.goesOn {h : Handled γ} {k : Device → γ → Turn γ Loop} (hapi : h.dev.api = none)
    (hk : ∀ d c, d.api = none → (k d c).pc.GoesOn) : (h.turn .died k).pc.GoesOn := by
  unfold Handled.turn
  cases h.raised with
  | some e => exact Loop.died_goesOn e
  | none => exact hk h.dev h.client hapi

/-- A failure that is no lost connection ends `_run`; only a lost connection is dropped first. -/
theorem loopFailed_goesOn (backoff : ℚ) {r : Raised} (d : Device) (c : γ)
    (hr : ∀ why, r ≠ .lan (.connectionLost why)) : (loopFailed backoff r d c).pc.GoesOn := by
  unfold loopFailed
  split
  · exact absurd rfl (hr _)
  · exact Or.inl ⟨_, rfl⟩

/-- **Results that do not lead into a sleep** lead to the next attempt, or end `_run`.  The sleep
that follows a lost connection is the one that clears the event. -/
theorem loopResume_goesOn {now : ℚ} {d : Device} {c : γ} {pc : Loop} {value : JobValue}
    {t : Turn γ Loop} (hapi : d.api = none) (hvalue : pc.sleepsAfter value = false)
    (h : loopResume cb now d c pc value = some t) : t.pc.GoesOn := by
  have hlost : ∀ {r : Raised},
      (∀ why, pc.sleepsAfter (.raised (.lan (.connectionLost why))) = true) →
        value = .raised r → ∀ why, r ≠ .lan (.connectionLost why) := by
    intro r hsleeps heq why heq'
    obtain rfl := heq
    obtain rfl := heq'
    rw [hsleeps why] at hvalue
    exact absurd hvalue (by simp)
  cases pc with
  | opening b =>
      cases value with
      | opened version dps =>
          obtain rfl := Option.some.inj h
          have hlink := handleConnected_sameLink cb now version dps d c
          exact Handled.goesOn (hlink.api.trans hapi) fun _ c' => loopTop_goesOn now _ c'
      | raised r =>
          cases r with
          | lan e => exact absurd hvalue (by simp [Loop.sleepsAfter])
          | foreign e =>
              obtain rfl := Option.some.inj h
              exact Or.inl ⟨_, rfl⟩
      | _ => exact absurd h (by simp [loopResume])
  | reading b =>
      cases value with
      | dps dps =>
          obtain rfl := Option.some.inj h
          have hlink := handleDps_sameLink cb now dps true d c
          exact Handled.goesOn (hlink.api.trans hapi) fun _ c' => loopTop_goesOn now b c'
      | raised r =>
          obtain rfl := Option.some.inj h
          exact loopFailed_goesOn b d c (hlost (fun _ => rfl) rfl)
      | _ => exact absurd h (by simp [loopResume])
  | beating b =>
      cases value with
      | done => exact absurd hvalue (by simp [Loop.sleepsAfter])
      | raised r =>
          obtain rfl := Option.some.inj h
          exact loopFailed_goesOn b d c (hlost (fun _ => rfl) rfl)
      | _ => exact absurd h (by simp [loopResume])
  | receiving b =>
      cases value with
      | received dps? =>
          cases dps? with
          | none =>
              obtain rfl := Option.some.inj h
              exact loopTop_goesOn now b c hapi
          | some dps =>
              simp only [loopResume] at h
              split at h
              · obtain rfl := Option.some.inj h
                exact loopTop_goesOn now b c hapi
              · obtain rfl := Option.some.inj h
                have hlink := handleDps_sameLink cb now dps false d c
                exact Handled.goesOn (hlink.api.trans hapi) fun _ c' => loopTop_goesOn now b c'
      | raised r =>
          obtain rfl := Option.some.inj h
          exact loopFailed_goesOn b d c (hlost (fun _ => rfl) rfl)
      | _ => exact absurd h (by simp [loopResume])
  | dropping b why =>
      cases value with
      | done => exact absurd hvalue (by simp [Loop.sleepsAfter])
      | raised r =>
          obtain rfl := Option.some.inj h
          exact Or.inl ⟨_, rfl⟩
      | _ => exact absurd h (by simp [loopResume])
  | _ => exact absurd h (by simp [loopResume])

/-! ## Only `_sleep` clears the event -/

/-- After its callbacks a call keeps the device as the turn that follows them does. -/
theorem Handled.sameLink {d : Device} {h : Handled γ} {fail : PyException → Call}
    {k : Device → γ → Turn γ Call} (hlink : SameLink d h.dev)
    (hk : ∀ d c, SameLink d (k d c).dev) : SameLink d (h.turn fail k).dev := by
  unfold Handled.turn
  cases h.raised with
  | some e => exact hlink
  | none => exact hlink.trans (hk h.dev h.client)

/-- A job of a call that fails changes nothing of the device before its drop is done. -/
theorem callFailed_sameLink (op : Operation) (dropping : LostReason → Call) (r : Raised)
    (d : Device) (c : γ) : SameLink d (callFailed op dropping r d c).dev := by
  unfold callFailed
  split
  · exact ⟨rfl, rfl, rfl, rfl, rfl, rfl⟩
  · exact SameLink.refl d

/-- **A call leaves the connection and the settings alone**, and the event, but that it may set
it. -/
theorem callResume_link {now : ℚ} {d : Device} {c : γ} {pc : Call} {value : JobValue}
    {t : Turn γ Call} (h : callResume cb now d c pc value = some t) :
    SameLink d t.dev ∨ SameLink { d with wake := true } t.dev := by
  have hlost : ∀ (op : Operation) (why : LostReason),
      SameLink d (callLost cb now op why d c).dev := fun op why =>
    Handled.sameLink (setAvailable_sameLink cb now false _ d c) fun d' _ => SameLink.refl d'
  have hraised : ∀ {r : Raised} {op : Operation},
      some (⟨d, c, .done op (.raised r)⟩ : Turn γ Call) = some t →
        SameLink d t.dev ∨ SameLink { d with wake := true } t.dev := by
    intro r op heq
    obtain rfl := Option.some.inj heq
    exact Or.inl (SameLink.refl d)
  cases pc with
  | connecting =>
      cases value with
      | opened version dps =>
          obtain rfl := Option.some.inj h
          have hlink := handleConnected_sameLink cb now version dps d c
          exact Or.inl (Handled.sameLink hlink fun d' _ => SameLink.refl d')
      | raised r => exact hraised h
      | _ => exact absurd h (by simp [callResume])
  | refreshing =>
      cases value with
      | dps dps =>
          obtain rfl := Option.some.inj h
          have hlink := handleDps_sameLink cb now dps true d c
          exact Or.inl (Handled.sameLink hlink fun d' _ => SameLink.refl d')
      | raised r =>
          obtain rfl := Option.some.inj h
          exact Or.inl (callFailed_sameLink _ _ r d c)
      | _ => exact absurd h (by simp [callResume])
  | refreshLost why =>
      cases value with
      | done =>
          obtain rfl := Option.some.inj h
          exact Or.inl (hlost .refresh why)
      | raised r => exact hraised h
      | _ => exact absurd h (by simp [callResume])
  | setting dps =>
      cases value with
      | done =>
          obtain rfl := Option.some.inj h
          exact Or.inl ⟨rfl, rfl, rfl, rfl, rfl, rfl⟩
      | raised r =>
          obtain rfl := Option.some.inj h
          exact Or.inl (callFailed_sameLink _ _ r d c)
      | _ => exact absurd h (by simp [callResume])
  | settingLost why =>
      cases value with
      | done =>
          obtain rfl := Option.some.inj h
          exact Or.inl (hlost .setDps why)
      | raised r => exact hraised h
      | _ => exact absurd h (by simp [callResume])
  | reconfiguring =>
      cases value with
      | done =>
          let handled : Handled γ :=
            if d.available then
              setAvailable cb now false (some (.unreachable .reconnecting)) d c
            else ⟨d, c, none⟩
          have hlink : SameLink d handled.dev := by
            by_cases hav : d.available = true
            · simpa only [handled, if_pos hav] using setAvailable_sameLink cb now false _ d c
            · simpa only [handled, if_neg hav] using SameLink.refl d
          have ht := (Option.some.inj h).symm
          unfold Handled.turn at ht
          dsimp only at ht
          split at ht
          · subst ht
            exact Or.inl hlink
          · subst ht
            exact Or.inr ⟨hlink.config, hlink.timings, hlink.versionHint, hlink.api, rfl,
              hlink.closed⟩
      | raised r => exact hraised h
      | _ => exact absurd h (by simp [callResume])
  | closeDropping =>
      cases value with
      | done =>
          obtain rfl := Option.some.inj h
          exact Or.inl (SameLink.refl d)
      | raised r => exact hraised h
      | _ => exact absurd h (by simp [callResume])
  | _ => exact absurd h (by simp [callResume])

/-- A call does not clear the event. -/
theorem callResume_wake {now : ℚ} {d : Device} {c : γ} {pc : Call} {value : JobValue}
    {t : Turn γ Call} (h : callResume cb now d c pc value = some t) (hwake : d.wake = true) :
    t.dev.wake = true := by
  rcases callResume_link h with hlink | hlink
  · exact hlink.wake.trans hwake
  · exact hlink.wake

/-- An `async_reconfigure` that returns has set the event.  This is its last statement, so the
event is set in the turn in which the call returns. -/
theorem reconfigure_wakes {now : ℚ} {d : Device} {c : γ} {value : JobValue} {t : Turn γ Call}
    {ending : Option PyDict} (h : callResume cb now d c .reconfiguring value = some t)
    (hpc : t.pc = .done .reconfigure (.returned ending)) : t.dev.wake = true := by
  cases value with
  | done =>
      obtain rfl := Option.some.inj h
      unfold Handled.turn at hpc ⊢
      dsimp only at hpc ⊢
      split at hpc
      · exact absurd hpc (by simp [Call.died])
      · rfl
  | raised r =>
      obtain rfl := Option.some.inj h
      exact absurd hpc (by simp)
  | _ => exact absurd h (by simp [callResume])

namespace World

/-- The worker neither wakes the loop nor clears a wake-up. -/
theorem WorkerMove.wake {w w' : World γ} {a : Action} (h : WorkerMove w a w') :
    w'.dev.wake = w.dev.wake := by
  cases h with
  | took => simp
  | dropped => simp [post]
  | @callReturned reply now _ c =>
      cases c with
      | receive =>
          show (noteTimes .receive reply now w.dev).wake = w.dev.wake
          unfold noteTimes
          dsimp only
          split <;> rfl
      | _ => rfl
  | _ => rfl

/-! ## `_run` is not on its way into a sleep -/

/-- `_run` is not on its way into a sleep: what waits for it does not take it there, the worker is
not at a job of it, and the job of it that is queued, if any, is an open. -/
structure Prompt (w : World γ) : Prop where
  results : ∀ r ∈ w.results, r.waiter = .loop → w.loop.sleepsAfter r.value = false
  worker : ∀ p ∈ w.worker.current, p.1 ≠ .loop
  queue : ∀ p ∈ w.queue, p.1 = .loop → p.2.isOpen = true

/-- The wake-up is not lost: `_run` is on its way to its next attempt, or asleep with the event
set. -/
structure Promised (w : World γ) : Prop where
  prompt : w.Prompt
  awake : w.loop.sleeps = true → w.dev.wake = true

/-- The worker takes up an open for `_run`. -/
def tries (w : World γ) : Action → Bool
  | .take => match w.queue with
      | (.loop, .wOpen) :: _ => true
      | _ => false
  | _ => false

/-- No connection is held, and the step is not an attempt of `_run` to open one. -/
def Untried (w : World γ) (a : Action) : Prop := w.dev.api = none ∧ w.tries a = false

/-- `_run` waits in `_sleep`. -/
def waits (w : World γ) : Bool := w.loop.sleeps && !w.dev.wake

/-- A wake-up that is promised is not slept through. -/
theorem Promised.not_waiting {w : World γ} (hw : w.Promised) : w.waits = false := by
  unfold waits
  cases hsleeps : w.loop.sleeps with
  | false => rfl
  | true =>
      rw [hw.awake hsleeps]
      rfl

/-- What is outstanding for `_run` gets no more while it stays where it is. -/
structure LeavesLoop (w w' : World γ) : Prop where
  results : ∀ r ∈ w'.results, r.waiter = .loop → r ∈ w.results
  worker : ∀ p ∈ w'.worker.current, p.1 = .loop → p ∈ w.worker.current
  queue : ∀ p ∈ w'.queue, p.1 = .loop → p ∈ w.queue

/-- A promise is kept by a step that gives `_run` nothing new to wait for and takes no wake-up
back. -/
theorem Promised.left {w w' : World γ} (hw : w.Promised) (h : LeavesLoop w w')
    (hloop : w'.loop = w.loop) (hwake : w.dev.wake = true → w'.dev.wake = true) :
    w'.Promised := by
  refine ⟨⟨fun r hr hx => ?_, fun p hp hx => ?_, fun p hp hx => ?_⟩, fun hsleeps => ?_⟩
  · rw [hloop]
    exact hw.prompt.results r (h.results r hr hx) hx
  · exact hw.prompt.worker p (h.worker p hp hx) hx
  · exact hw.prompt.queue p (h.queue p hp hx) hx
  · rw [hloop] at hsleeps
    exact hwake (hw.awake hsleeps)

/-- The worker ends a job of somebody else. -/
theorem post_leaves {w w' : World γ} {x : Waiter} {job : Job} {value : JobValue}
    (hx : x ≠ .loop) (hresults : w'.results = w.results)
    (hqueue : ∀ p ∈ w'.queue, p ∈ w.queue) : LeavesLoop w (w'.post x job value) := by
  refine ⟨fun r hr hloop => ?_, fun p hp => absurd hp (by simp [post, Worker.current]),
    fun p hp _ => hqueue p hp⟩
  rcases List.mem_append.mp hr with hr | hr
  · rw [hresults] at hr
    exact hr
  · obtain rfl := List.mem_singleton.mp hr
    exact absurd hloop hx

/-- **The worker** leaves `_run` alone until it takes up its open.  What else it posts goes to
other calls, or to jobs `_run` had before. -/
theorem WorkerMove.leaves {w w' : World γ} {a : Action} (h : WorkerMove w a w')
    (hw : w.Prompt) (htries : w.tries a = false) : LeavesLoop w w' := by
  have hat : ∀ {x : Waiter}, w.worker.current = [(x, .wOpen)] → x ≠ .loop :=
    fun hcurrent => hw.worker _ (by rw [hcurrent]; exact List.mem_singleton.mpr rfl)
  have hnext : ∀ {x : Waiter} {job : Job} {rest : List (Waiter × Job)},
      w.queue = (x, job) :: rest → job.isOpen = false → x ≠ .loop := by
    intro x job rest hqueue hjob heq
    obtain rfl := heq
    have hopen := hw.queue _ (by rw [hqueue]; exact List.mem_cons_self) rfl
    exact absurd (hjob.symm.trans hopen) (by simp)
  have hrest : ∀ {p : Waiter × Job} {rest : List (Waiter × Job)}, w.queue = p :: rest →
      ∀ q ∈ rest, q ∈ w.queue := by
    intro p rest hqueue q hq
    rw [hqueue]
    exact List.mem_cons_of_mem p hq
  cases h with
  | @took x rest hworker hqueue =>
      have hx : x ≠ .loop := by
        intro heq
        obtain rfl := heq
        simp [tries, hqueue] at htries
      refine ⟨fun r hr _ => by simpa using hr, fun p hp hloop => ?_, fun p hp _ => ?_⟩
      · obtain rfl := List.mem_singleton.mp hp
        exact absurd hloop hx
      · exact hrest hqueue p (by simpa using hp)
  | listed hworker =>
      exact ⟨fun _ hr _ => hr, fun p hp _ => by rw [hworker]; exact hp, fun _ hp _ => hp⟩
  | noneLeft hworker =>
      exact post_leaves (hat (by rw [hworker]; rfl)) rfl fun _ => id
  | foundClosed hworker =>
      exact post_leaves (hat (by rw [hworker]; rfl)) rfl fun _ => id
  | createFailed hworker =>
      exact post_leaves (hat (by rw [hworker]; rfl)) rfl fun _ => id
  | created hworker =>
      exact ⟨fun _ hr _ => hr, fun p hp _ => by rw [hworker]; exact hp, fun _ hp _ => hp⟩
  | statusRaised hworker =>
      exact post_leaves (hat (by rw [hworker]; rfl)) rfl fun _ => id
  | opened hworker =>
      exact post_leaves (hat (by rw [hworker]; rfl)) rfl fun _ => id
  | closeRaised hworker =>
      exact post_leaves (hat (by rw [hworker]; rfl)) rfl fun _ => id
  | unreachable hworker =>
      exact post_leaves (hat (by rw [hworker]; rfl)) rfl fun _ => id
  | nextVersion hworker =>
      exact ⟨fun _ hr _ => hr, fun p hp _ => by rw [hworker]; exact hp, fun _ hp _ => hp⟩
  | dropped _ hqueue =>
      exact post_leaves (hnext hqueue rfl) (by simp) (by simpa using hrest hqueue)
  | notHeld _ hqueue => exact post_leaves (hnext hqueue rfl) rfl (hrest hqueue)
  | callRaised _ hqueue => exact post_leaves (hnext hqueue rfl) rfl (hrest hqueue)
  | callReturned _ hqueue => exact post_leaves (hnext hqueue rfl) rfl (hrest hqueue)
  | skipped _ hqueue =>
      exact ⟨fun _ hr _ => hr, fun _ hp _ => hp, fun p hp _ => hrest hqueue p hp⟩

/-! ## Steps on the event loop -/

/-- `_run` has no job outstanding: none that is queued, running or done.  A result that is not
taken up counts as outstanding too. -/
theorem nothing_outstanding {w : World γ} (h : jobsOf .loop w.pending = []) :
    (∀ r ∈ w.results, r.waiter ≠ .loop) ∧ (∀ p ∈ w.worker.current, p.1 ≠ .loop) ∧
      ∀ p ∈ w.queue, p.1 ≠ .loop := by
  have hnone : ∀ p ∈ w.pending, p.1 ≠ .loop := by
    intro hparts hp heq
    obtain ⟨x, job⟩ := hparts
    obtain rfl := heq
    have hjob : job ∈ jobsOf .loop w.pending := mem_jobsOf.mpr hp
    rw [h] at hjob
    exact absurd hjob (by simp)
  unfold pending at hnone
  refine ⟨fun r hr => ?_, fun p hp => ?_, fun p hp => ?_⟩
  · exact hnone _ (List.mem_append_left _ (List.mem_map_of_mem hr))
  · exact hnone p (List.mem_append_right _ (List.mem_append_left _ hp))
  · exact hnone p (List.mem_append_right _ (List.mem_append_right _ hp))

/-- `_run` goes on to its next attempt, or ends.  Either way no sleep comes in between that could
clear the event. -/
theorem Promised.loopGoes {w : World γ} {t : Turn γ Loop} (ht : t.pc.GoesOn)
    (hnone : jobsOf .loop w.pending = []) : (w.loopGoes t).Promised := by
  obtain ⟨hresults, hworker, hqueue⟩ := nothing_outstanding hnone
  have hgoes : (w.loopGoes t).loop.GoesOn := by
    rcases loopGoes_loop w t with hloop | ⟨hloop, _⟩
    · rw [hloop]
      exact ht
    · rw [hloop]
      exact Loop.died_goesOn _
  refine ⟨⟨fun r hr hx => ?_, fun p hp => ?_, fun p hp hx => ?_⟩, fun hsleeps => ?_⟩
  · rw [loopGoes_results] at hr
    exact absurd hx (hresults r hr)
  · rw [loopGoes_worker] at hp
    exact hworker p hp
  · rw [loopGoes_queue] at hp
    rcases List.mem_append.mp hp with hp | hp
    · exact absurd hx (hqueue p hp)
    · rcases hgoes with ⟨e, hloop⟩ | ⟨b, hloop⟩
      · rw [hloop] at hp
        exact absurd hp (by simp [Loop.awaits])
      · rw [hloop] at hp
        obtain rfl := List.mem_singleton.mp hp
        rfl
  · rcases hgoes with ⟨e, hloop⟩ | ⟨b, hloop⟩
    · rw [hloop] at hsleeps
      exact absurd hsleeps (by simp [Loop.sleeps])
    · rw [hloop] at hsleeps
      exact absurd hsleeps (by simp [Loop.sleeps])

/-- A call goes on. -/
theorem callGoes_leaves (w : World γ) (n : Nat) (t : Turn γ Call) :
    LeavesLoop w (w.callGoes n t) := by
  obtain ⟨pc, _, hqueue, _⟩ := callGoes_spec w n t
  refine ⟨fun r hr _ => by simpa using hr, fun p hp _ => by simpa using hp, fun p hp hx => ?_⟩
  rw [hqueue] at hp
  rcases List.mem_append.mp hp with hp | hp
  · exact hp
  · obtain ⟨job, _, rfl⟩ := List.mem_map.mp hp
    exact absurd hx (by simp)

/-- A new call gives `_run` nothing to wait for. -/
theorem newCall_leaves (w : World γ) (pc : Call) : LeavesLoop w (w.newCall pc) := by
  have h := callGoes_leaves { w with calls := w.calls ++ [pc] } w.calls.length
    ⟨w.dev, w.client, pc⟩
  exact ⟨h.results, h.worker, h.queue⟩

/-- Nor do two steps that give it nothing. -/
theorem LeavesLoop.trans {w w' w'' : World γ} (h : LeavesLoop w w') (h' : LeavesLoop w' w'') :
    LeavesLoop w w'' :=
  ⟨fun r hr hx => h.results r (h'.results r hr hx) hx,
    fun p hp hx => h.worker p (h'.worker p hp hx) hx,
    fun p hp hx => h.queue p (h'.queue p hp hx) hx⟩

/-- Taking up a result of somebody else gives `_run` nothing either. -/
theorem eraseIdx_leaves (w : World γ) (i : Nat) :
    LeavesLoop w { w with results := w.results.eraseIdx i } :=
  ⟨fun _ hr _ => List.mem_of_mem_eraseIdx hr, fun _ hp _ => hp, fun _ hp _ => hp⟩

/-- Nobody waits for the jobs of a cancelled coroutine, `_run` still for its own.  A close that
cancels `_run` itself ends it. -/
theorem abandon_leaves (w : World γ) (x : Waiter) : LeavesLoop w (w.abandon x) := by
  have hkept : ∀ {y : Waiter}, (if y = x then Waiter.nobody else y) = .loop →
      (if y = x then Waiter.nobody else y) = y := by
    intro y hy
    by_cases hyx : y = x
    · rw [if_pos hyx] at hy
      exact absurd hy (by simp)
    · rw [if_neg hyx]
  have hrelabel : ∀ l : List (Waiter × Job), ∀ p ∈ relabel x .nobody l, p.1 = .loop → p ∈ l := by
    intro l p hp hx
    obtain ⟨q, hq, rfl⟩ := List.mem_map.mp hp
    have hsame : ((if q.1 = x then Waiter.nobody else q.1), q.2) = q := by
      rw [hkept hx]
    rw [hsame]
    exact hq
  refine ⟨fun r hr hx => ?_, fun p hp hx => ?_, hrelabel w.queue⟩
  · obtain ⟨q, hq, rfl⟩ := List.mem_map.mp hr
    show ({ q with waiter := if q.waiter = x then Waiter.nobody else q.waiter } : Result) ∈ _
    rw [hkept hx]
    exact hq
  · have hworker : (w.abandon x).worker.current = relabel x .nobody w.worker.current := by
      unfold abandon
      cases w.worker <;> rfl
    rw [hworker] at hp
    exact hrelabel _ p hp hx

/-- A call of the owner begins.  It neither clears the event nor submits a job for `_run`. -/
theorem Promised.requested {w w' : World γ} {r : Request} (hw : w.Promised)
    (h : RequestMove w r w') : w'.Promised := by
  have hmarked : w.marked.Promised :=
    hw.left ⟨fun _ hr _ => hr, fun _ hp _ => hp, fun _ hp _ => hp⟩ rfl fun _ => rfl
  cases h with
  | called => exact hw.left (newCall_leaves w _) (by simp) (by simp)
  | @reconfigured changes config =>
      have h := newCall_leaves
        { w with
          dev := { w.dev with config }
          registered := config.localKey :: w.registered
          released := w.dev.config.localKey :: w.released } .reconfiguring
      exact hw.left ⟨h.results, h.worker, h.queue⟩ (by simp) (by simp)
  | closeRaised => exact hmarked.left (newCall_leaves _ _) (by simp) (by simp)
  | closeDrops => exact hmarked.left (newCall_leaves _ _) (by simp) (by simp)
  | closeCancels =>
      have hleft := abandon_leaves { w.marked with loop := .ended .cancelled } .loop
      have h := hleft.trans (newCall_leaves _ .closing)
      refine ⟨⟨fun r hr hx => ?_, fun p hp hx => ?_, fun p hp hx => ?_⟩, fun hsleeps => ?_⟩
      · rw [newCall_loop]
        rfl
      · exact hw.prompt.worker p (h.worker p hp hx) hx
      · exact hw.prompt.queue p (h.queue p hp hx) hx
      · rw [newCall_loop] at hsleeps
        exact absurd hsleeps (by simp [abandon, Loop.sleeps])

/-- **The event loop** keeps the wake-up until `_run` has made its next attempt.  The only thing
that clears the event is the sleep of `_run` that it ends. -/
theorem Promised.owner {w w' : World γ} {a : Action} (hw : w.Promised) (htracked : w.Tracked)
    (hapi : w.dev.api = none) (h : OwnerMove cb w a w') : w'.Promised := by
  have hidle : w.loop.awaits = none → jobsOf .loop w.pending = [] := by
    intro hnone
    rw [htracked .loop (by simp)]
    simp [awaits, hnone]
  have hsame : LeavesLoop w w := ⟨fun _ hr _ => hr, fun _ hp _ => hp, fun _ hp _ => hp⟩
  cases h with
  | startedBefore => exact hw
  | started hloop =>
      obtain ⟨hresults, hworker, hqueue⟩ := nothing_outstanding (hidle (by rw [hloop]; rfl))
      exact ⟨⟨fun _ _ _ => rfl, hworker, fun p hp hx => absurd hx (hqueue p hp)⟩,
        fun hsleeps => absurd hsleeps (by simp [Loop.sleeps])⟩
  | begun hloop =>
      exact Promised.loopGoes (loopTop_goesOn _ _ _ hapi) (hidle (by rw [hloop]; rfl))
  | woken _ ht =>
      obtain ⟨backoff, rfl⟩ := loopWake_top ht
      exact Promised.loopGoes (loopTop_goesOn _ _ _ hapi) (hidle (loopWake_awaits ht))
  | requested hmove => exact hw.requested hmove
  | loopResumed hr hx ht =>
      obtain ⟨_, hnone, _⟩ := htracked.of_result hr (by rw [hx]; simp)
      rw [hx] at hnone
      have hvalue := hw.prompt.results _ (List.mem_of_getElem? hr) hx
      exact Promised.loopGoes (loopResume_goesOn hapi hvalue ht) hnone
  | @callResumed i n now r pc t hr hx hpc ht =>
      have hleaves := (eraseIdx_leaves w i).trans (callGoes_leaves _ n t)
      apply hw.left hleaves (by simp)
      intro hwake
      rw [callGoes_dev]
      exact callResume_wake ht hwake
  | forgotten => exact hw.left (eraseIdx_leaves w _) rfl id
  | taskEnded => exact hw.left (callGoes_leaves w _ _) (by simp) (by simp)
  | cancelSuppressed => exact hw
  | shutdownCancelled => exact hw.left ⟨hsame.results, hsame.worker, hsame.queue⟩ rfl id
  | @cancelled i pc =>
      have h := abandon_leaves { w with calls := w.calls.set i (.done pc.op .cancelled) } (.call i)
      exact hw.left ⟨h.results, h.worker, h.queue⟩ rfl id
  | shutdownBegun => exact hw.left ⟨hsame.results, hsame.worker, hsame.queue⟩ rfl id
  | shutdownFinished => exact hw.left ⟨hsame.results, hsame.worker, hsame.queue⟩ rfl id
  | keyReleased => exact hw.left ⟨hsame.results, hsame.worker, hsame.queue⟩ rfl id

/-- **One step** that is not an attempt keeps the wake-up. -/
theorem Promised.step {w w' : World γ} {a : Action} (hw : w.Promised) (htracked : w.Tracked)
    (hok : w.Untried a) (h : w.step cb a = some w') : w'.Promised := by
  rcases step_moves h with hmove | hmove
  · exact hw.left (hmove.leaves hw.prompt hok.2) hmove.keeps.loop fun hwake =>
      hmove.wake.trans hwake
  · exact hw.owner htracked hok.1 hmove

/-! ## Runs -/

/-- The result is that of the drop of an `async_reconfigure`. -/
def ofReconfigure (w : World γ) (r : Result) : Bool :=
  match r.waiter with
  | .call n => (w.calls[n]?).any Call.isReconfiguring
  | _ => false

/-- When `async_reconfigure` takes up its drop and no connection is held, `_run` is not on its
way into a sleep. -/
def InTime (w : World γ) : Action → Prop
  | .resume i _ => ∀ r ∈ w.results[i]?, w.ofReconfigure r = true → w.dev.api = none → w.Prompt
  | _ => True

/-- An `async_reconfigure` with new settings sets the event and returns. -/
def Reconfigured (w w' : World γ) : Prop :=
  ∃ n : Nat, w.calls[n]? = some .reconfiguring ∧
    w'.calls[n]? = some (.done .reconfigure (.returned none))

/-- A call that has set the event took up its drop.  So the step is the turn of this call, and the
lemma above applies. -/
theorem Reconfigured.resumed {w w' : World γ} {a : Action} (h : w.step cb a = some w')
    (hreturned : w.Reconfigured w') :
    ∃ i n now r t, a = .resume i now ∧ w.results[i]? = some r ∧ w.ofReconfigure r = true ∧
      w' = { w with results := w.results.eraseIdx i }.callGoes n t ∧ t.dev.wake = true := by
  obtain ⟨n, hn, hn'⟩ := hreturned
  have hlt : n < w.calls.length := (List.getElem?_eq_some_iff.mp hn).1
  have hkept : w'.calls[n]? = w.calls[n]? → False := by
    intro hsame
    rw [hn, hn'] at hsame
    exact absurd hsame (by simp)
  have hset : ∀ {j : Nat} {c c' : Call}, w.calls[j]? = some c → w'.calls = w.calls.set j c' →
      j = n ∧ c = .reconfiguring ∧ c' = .done .reconfigure (.returned none) := by
    intro j c c' hj hcalls
    by_cases hjn : j = n
    · subst hjn
      rw [hcalls, List.getElem?_set_self hlt] at hn'
      exact ⟨rfl, Option.some.inj (hj.symm.trans hn), Option.some.inj hn'⟩
    · exact (hkept (by rw [hcalls, List.getElem?_set_ne hjn])).elim
  rcases step_moves h with hmove | hmove
  · exact (hkept (by rw [hmove.keeps.calls])).elim
  cases hmove with
  | startedBefore => exact (hkept rfl).elim
  | started => exact (hkept rfl).elim
  | begun => exact (hkept (by simp)).elim
  | woken => exact (hkept (by simp)).elim
  | requested hrequest =>
      obtain ⟨pc, hcalls, _⟩ := hrequest.calls
      exact (hkept (by rw [hcalls, List.getElem?_append_left hlt])).elim
  | loopResumed => exact (hkept (by simp)).elim
  | @callResumed i m now r pc t hr hx hpc ht =>
      let w₀ : World γ := { w with results := w.results.eraseIdx i }
      obtain ⟨pc', hcalls, _, hpc'⟩ := callGoes_spec w₀ m t
      obtain ⟨rfl, rfl, rfl⟩ := hset hpc hcalls
      refine ⟨i, m, now, r, t, rfl, hr, by simp [ofReconfigure, hx, hpc, Call.isReconfiguring],
        rfl, reconfigure_wakes ht (hpc'.resolve_right ?_).symm⟩
      intro hparts
      obtain ⟨hdied, _⟩ := hparts
      exact absurd hdied (by simp [Call.died])
  | forgotten => exact (hkept rfl).elim
  | taskEnded hcall =>
      obtain ⟨pc', hcalls, _⟩ := callGoes_spec w _ ⟨w.dev, w.client, .closeDropping⟩
      exact absurd (hset hcall hcalls).2.1 (by simp)
  | cancelSuppressed => exact (hkept rfl).elim
  | shutdownCancelled hcall => exact absurd (hset hcall rfl).2.1 (by simp)
  | cancelled hcall => exact absurd (hset hcall rfl).2.2 (by simp)
  | shutdownBegun => exact (hkept rfl).elim
  | shutdownFinished => exact (hkept rfl).elim
  | keyReleased hcall => exact absurd (hset hcall rfl).2.1 (by simp)

/-- The wake-up is there when `async_reconfigure` has set the event in time, that is while `_run`
has no result before it that leads into the sleep. -/
theorem Reconfigured.promised {w w' : World γ} {a : Action} (h : w.step cb a = some w')
    (hok : w.InTime a) (hreturned : w.Reconfigured w') (hapi : w'.dev.api = none) :
    w'.Promised := by
  obtain ⟨i, n, now, r, t, rfl, hr, hof, rfl, hwake⟩ := hreturned.resumed h
  have hleaves := (eraseIdx_leaves w i).trans (callGoes_leaves _ n t)
  have hnone : w.dev.api = none := by
    rcases step_moves h with hmove | hmove
    · cases hmove
    · exact hmove.ownerStep.api.symm.trans hapi
  have hprompt := hok r hr hof hnone
  refine ⟨⟨fun r' hr' hx => ?_, fun p hp hx => ?_, fun p hp hx => ?_⟩, fun _ => ?_⟩
  · rw [callGoes_loop]
    exact hprompt.results r' (hleaves.results r' hr' hx) hx
  · exact hprompt.worker p (hleaves.worker p hp hx) hx
  · exact hprompt.queue p (hleaves.queue p hp hx) hx
  · rw [callGoes_dev]
    exact hwake

/-- In the run of `as` from `s` to `w`: after an `async_reconfigure` has set the event, `_run`
does not wait in `_sleep` before its next attempt to open a connection, if none is held. -/
def TriesRightAway (cb : Callbacks γ) (s : World γ) (as : List Action) (w : World γ) : Prop :=
  ∀ before a between u v, as = before ++ a :: between → exec (World.step cb) s before = some u →
    u.step cb a = some v → u.Reconfigured v → Run (World.step cb) Untried v between w →
      w.dev.api = none → w.waits = false

/-- **New settings are tried right away.**  In every run in which no `async_reconfigure` takes up
its drop while `_run` is on its way into a sleep: from the moment it sets the event, `_run` does
not wait in `_sleep` before it has made its next connection attempt. -/
theorem new_settings_tried {config : DeviceConfig} {timings : Timings} {hint : Option PyStr}
    {client : γ} {as : List Action} {w : World γ}
    (hrun : Run (World.step cb) InTime (World.init config timings hint client) as w) :
    TriesRightAway cb (World.init config timings hint client) as w := by
  intro before a between u v hsplit hexec hstep hreturned hquiet hheld
  have htracked : ∀ {cs : List Action} {x : World γ},
      exec (World.step cb) (World.init config timings hint client) cs = some x → x.Tracked :=
    fun hexec => (Run.of_exec hexec).invariant Tracked (fun _ _ _ hs _ h => hs.step h)
      (Tracked.init config timings hint client)
  have hok : u.InTime a := hrun.ok_of_happened ⟨before, between, hsplit, hexec⟩
  have hv : v.Tracked ∧ (v.dev.api = none → v.Promised) :=
    ⟨(htracked hexec).step hstep, fun hapi => hreturned.promised hstep hok hapi⟩
  have hw := hquiet.invariant (fun x => x.Tracked ∧ (x.dev.api = none → x.Promised))
    (fun _ _ _ hx hstill hstep => ⟨hx.1.step hstep, fun _ =>
      (hx.2 hstill.1).step hx.1 hstill hstep⟩) hv
  exact (hw.2 hheld).not_waiting

/-! ## Examples -/

instance (w : World γ) : Decidable w.Prompt :=
  decidable_of_iff ((∀ r ∈ w.results, r.waiter = .loop → w.loop.sleepsAfter r.value = false) ∧
      (∀ p ∈ w.worker.current, p.1 ≠ .loop) ∧ ∀ p ∈ w.queue, p.1 = .loop → p.2.isOpen = true)
    ⟨fun h => ⟨h.1, h.2.1, h.2.2⟩, fun h => ⟨h.results, h.worker, h.queue⟩⟩

instance (w : World γ) : (a : Action) → Decidable (w.InTime a)
  | .resume i _ => inferInstanceAs (Decidable (∀ r ∈ w.results[i]?, w.ofReconfigure r = true →
      w.dev.api = none → w.Prompt))
  | .start | .begin _ | .wakeUp _ | .timeout _ | .request _ | .taskEnded _ | .cancel _ | .take
  | .listVersions | .tryVersion _ | .answer _ _ | .work _ _ | .skip | .beginShutdown
  | .finishShutdown | .shutdownDone _ => isTrue trivial

instance (w : World γ) (a : Action) : Decidable (w.Untried a) :=
  inferInstanceAs (Decidable (_ ∧ _))

/-- The call in the list is an `async_reconfigure` that has returned. -/
theorem returned_of_any {c : Option Call} (h : c.any Call.hasReconfigured = true) :
    c = some (.done .reconfigure (.returned none)) := by
  cases c with
  | none => exact absurd h (by simp)
  | some c =>
      unfold Option.any Call.hasReconfigured at h
      dsimp only at h
      split at h
      · rfl
      · exact absurd h (by simp)

/-- The background task starts and asks the device. -/
def asking : List Action := [.start, .begin 0, .take, .listVersions, .tryVersion none]

/-- The device does not answer, and gets a new address while `_run` backs off. -/
def movedWhileBackingOff : List Action :=
  asking ++ [.answer (statusReply false) none, .tryVersion none, .resume 0 0,
    .request (.reconfigure moved), .work (statusReply true) 0, .resume 0 0]

/-- An address is changed while `_run` backs off: it is tried right away. -/
theorem new_settings_tried_backing_off :
    ∃ w : World Unit, w.loop.sleeps = true ∧
      TriesRightAway (Callbacks.none Unit) (.init exampleConfig {} none ()) movedWhileBackingOff
        w := by
  let start : World Unit := .init exampleConfig {} none ()
  let execution := exec (step (Callbacks.none Unit)) start movedWhileBackingOff
  obtain ⟨w, hw⟩ := Option.isSome_iff_exists.mp (show execution.isSome = true by decide +kernel)
  have hsleeps : ∀ v ∈ execution, v.loop.sleeps = true := by decide +kernel
  have hrun : Run (step (Callbacks.none Unit)) InTime start movedWhileBackingOff w :=
    Run.of_meets hw (by decide +kernel)
  exact ⟨w, hsleeps w hw, new_settings_tried hrun⟩

/-- The device gets a new address while `_run` receives: the receive fails, and both go on when
their results are there. -/
def movedWhileReceiving : List Action :=
  asking ++ [.answer (statusReply true) none, .resume 0 0, .request (.reconfigure moved),
    .work (statusReply false) 0, .work (statusReply true) 0, .resume 0 0]

/-- The drop of `_async_lost` is done. -/
def lost : List Action := [.work (statusReply true) 0, .resume 0 0]

/-- **The wake-up of an `async_reconfigure` can get lost.**  It sets the event while the drop of
`_async_lost` is queued, and `_sleep` clears it. -/
theorem wake_up_lost :
    ¬ ∀ (as : List Action) (w : World Unit),
      Run (step (Callbacks.none Unit)) Anything (.init exampleConfig {} none ()) as w →
        TriesRightAway (Callbacks.none Unit) (.init exampleConfig {} none ()) as w := by
  intro hclaim
  let start : World Unit := .init exampleConfig {} none ()
  let stepped := step (Callbacks.none Unit)
  let prior := exec stepped start movedWhileReceiving
  let set := prior.bind fun x => stepped x (.resume 0 0)
  let ending := set.bind fun x => exec stepped x lost
  obtain ⟨w, hw⟩ := Option.isSome_iff_exists.mp (show ending.isSome = true by decide +kernel)
  obtain ⟨v, hv, hlost⟩ := Option.bind_eq_some_iff.mp hw
  obtain ⟨u, hu, hstep⟩ := Option.bind_eq_some_iff.mp hv
  have hbefore : ∀ x ∈ prior, x.calls[0]? = some .reconfiguring := by decide +kernel
  have hafter : ∀ x ∈ set, (x.calls[0]?).any Call.hasReconfigured = true := by decide +kernel
  have hquiet : ∀ x ∈ set, Meets stepped Untried x lost := by decide +kernel
  have hends : ∀ x ∈ ending, x.dev.api = none ∧ x.waits = true := by decide +kernel
  obtain ⟨hheld, hwaits⟩ := hends w hw
  have hrun : Run stepped Anything start (movedWhileReceiving ++ .resume 0 0 :: lost) w := by
    apply Run.of_exec
    rw [exec_append]
    exact Option.bind_eq_some_iff.mpr ⟨u, hu, Option.bind_eq_some_iff.mpr ⟨v, hstep, hlost⟩⟩
  have hreturned : u.Reconfigured v := ⟨0, hbefore u hu, returned_of_any (hafter v hv)⟩
  have hnot := hclaim _ w hrun movedWhileReceiving (.resume 0 0) lost u v rfl hu hstep hreturned
    (Run.of_meets hlost (hquiet v hv)) hheld
  exact absurd (hnot.symm.trans hwaits) (by simp)

end World

end Lan
