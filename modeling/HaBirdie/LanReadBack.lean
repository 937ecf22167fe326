import HaBirdie.LanLog

/-!
# The read-back of a command

A device need not push what a command changed, so `async_set_dps` sets `_refresh_at` and the
background task reads the full status when that time has come.  `_step` clears `_refresh_at`
before it queues the read, and every full report clears it as well.

`read_back_comes`: from the moment `async_set_dps` returns until a full status was read behind
its command, the read-back is still due (`ReadBackDue`) or what a status job behind the
command found, that the connection is lost, waits to be handled (`LossWaits`).
-/

namespace Lan

open Python JobTracking StepRuns

variable {γ : Type} {cb : Callbacks γ}

/-- The call whose command `_w_set` sent. -/
def Result.sentBy (r : Result) : Option Nat :=
  match r with
  | ⟨.call i, .wCall (.set _), .done⟩ => some i
  | _ => none

/-- The call ended without an exception. -/
def Call.hasReturned : Call → Bool
  | .done _ (.returned _) => true
  | _ => false

/-- A result that says that a command was sent is that of a `set_dps` that returned. -/
theorem Result.sentBy_eq {r : Result} {i : Nat} (h : r.sentBy = some i) :
    ∃ dps, r = ⟨.call i, .wCall (.set dps), .done⟩ := by
  unfold sentBy at h
  split at h
  · obtain rfl := Option.some.inj h
    exact ⟨_, rfl⟩
  · exact absurd h (by simp)

namespace World

/-- `_refresh_at` is set, a `_w_status` is queued, the connection has been dropped or a drop is
queued. -/
def ReadBackDue (w : World γ) : Prop :=
  w.dev.refreshAt ≠ none ∨ (∃ x, (x, .wCall .status) ∈ w.queue) ∨ w.dev.api = none ∨
    ∃ x, (x, .wDrop) ∈ w.queue

/-- What a `_w_status` found, that the connection is lost, waits to be handled. -/
def LossWaits (w : World γ) : Prop :=
  ∃ r ∈ w.results, r.job = .wCall .status ∧ ∃ why, r.value = .raised (.lan (.connectionLost why))

/-- The read-back comes, or the loss of the connection. -/
def ReadBackComes (w : World γ) : Prop := w.ReadBackDue ∨ w.LossWaits

/-- A read-back comes if a refresh is due. -/
theorem ReadBackComes.of_refreshAt {w : World γ} (h : w.dev.refreshAt ≠ none) :
    w.ReadBackComes := Or.inl (Or.inl h)

/-- It comes if a status is queued. -/
theorem ReadBackComes.of_status {w : World γ} {x : Waiter} (h : (x, .wCall .status) ∈ w.queue) :
    w.ReadBackComes := Or.inl (Or.inr (Or.inl ⟨x, h⟩))

/-- Without a connection there is nothing to read back: the next open reads the status. -/
theorem ReadBackComes.of_dropped {w : World γ} (h : w.dev.api = none) : w.ReadBackComes :=
  Or.inl (Or.inr (Or.inr (Or.inl h)))

/-- Nor is there with a drop queued. -/
theorem ReadBackComes.of_drop {w : World γ} {x : Waiter} (h : (x, .wDrop) ∈ w.queue) :
    w.ReadBackComes := Or.inl (Or.inr (Or.inr (Or.inr ⟨x, h⟩)))

/-- A step after which each reason for the read-back has led to one. -/
theorem ReadBackComes.elim {w w' : World γ} (h : w.ReadBackComes)
    (hrefresh : w.dev.refreshAt ≠ none → w'.ReadBackComes)
    (hstatus : ∀ x, (x, .wCall .status) ∈ w.queue → w'.ReadBackComes)
    (hdropped : w.dev.api = none → w'.ReadBackComes)
    (hdrop : ∀ x, (x, .wDrop) ∈ w.queue → w'.ReadBackComes)
    (hloss : w.LossWaits → w'.ReadBackComes) : w'.ReadBackComes := by
  rcases h with (h | ⟨x, h⟩ | h | ⟨x, h⟩) | h
  · exact hrefresh h
  · exact hstatus x h
  · exact hdropped h
  · exact hdrop x h
  · exact hloss h

/-! ## Steps of the worker -/

/-- A step of the worker that runs no job to its end, or one that opens nothing. -/
theorem ReadBackComes.kept {w w' : World γ} (h : w.ReadBackComes)
    (hrefresh : w'.dev.refreshAt = w.dev.refreshAt) (hqueue : w'.queue = w.queue)
    (hapi : w'.dev.api = w.dev.api) (hresults : ∀ r ∈ w.results, r ∈ w'.results) :
    w'.ReadBackComes := by
  refine h.elim (fun hr => .of_refreshAt (by rwa [hrefresh])) (fun x hx => ?_)
    (fun hnone => .of_dropped (by rwa [hapi])) (fun x hx => ?_) ?_
  · exact .of_status (x := x) (by rwa [hqueue])
  · exact .of_drop (x := x) (by rwa [hqueue])
  · intro hparts
    obtain ⟨r, hr, hloss⟩ := hparts
    exact Or.inr ⟨r, hresults r hr, hloss⟩

/-- A library call runs: a status that is not a full one is a loss.  The drop that follows a loss
brings a new open, and that one a full status. -/
theorem ReadBackComes.ran {w w' : World γ} {x : Waiter} {c : LibraryCall} {value : JobValue}
    {rest : List (Waiter × Job)} (h : w.ReadBackComes) (hqueue : w.queue = (x, .wCall c) :: rest)
    (hrest : w'.queue = rest) (hresults : w'.results = w.results ++ [⟨x, .wCall c, value⟩])
    (hrefresh : w'.dev.refreshAt = w.dev.refreshAt) (hapi : w'.dev.api = w.dev.api)
    (hread : c = .status → StatusRead value)
    (hfull : (Result.mk x (.wCall c) value).isFull = false) : w'.ReadBackComes := by
  refine h.elim (fun hr => .of_refreshAt (by rwa [hrefresh])) (fun y hy => ?_)
    (fun hnone => .of_dropped (by rwa [hapi])) (fun y hy => ?_) ?_
  · rw [hqueue] at hy
    rcases List.mem_cons.mp hy with heq | hy
    · -- the status job itself ran, and lost the connection
      obtain ⟨rfl, hjob⟩ := Prod.mk.inj heq
      obtain rfl := Job.wCall.inj hjob
      refine Or.inr ⟨_, by rw [hresults]; exact List.mem_append_right _ List.mem_cons_self, rfl, ?_⟩
      have hvalue := hread rfl
      unfold StatusRead at hvalue
      split at hvalue
      · exact absurd hfull (by simp [Result.isFull])
      · exact ⟨_, rfl⟩
      · exact hvalue.elim
    · exact .of_status (x := y) (by rwa [hrest])
  · rw [hqueue] at hy
    rcases List.mem_cons.mp hy with heq | hy
    · exact absurd (Prod.mk.inj heq).2 (by simp)
    · exact .of_drop (x := y) (by rwa [hrest])
  · intro hparts
    obtain ⟨r, hr, hloss⟩ := hparts
    exact Or.inr ⟨r, by rw [hresults]; exact List.mem_append_left _ hr, hloss⟩

/-- **The worker** reads a full status, or the read-back still comes.  The job that will bring it
is queued or running, and the queue is worked off in order. -/
theorem ReadBackComes.worker {w w' : World γ} {a : Action} (hw : w.ReadBackComes)
    (h : WorkerMove w a w') (hskip : a ≠ .skip) (hok : w.InOrder a)
    (hfull : ∀ r ∈ w'.results, r.isFull = false) : w'.ReadBackComes := by
  have hposts : ∀ {w₀ : World γ} {x : Waiter} {value : JobValue}, w₀.dev = w.dev →
      w₀.queue = w.queue → w₀.results = w.results → (w₀.post x .wOpen value).ReadBackComes := by
    intro w₀ x value hdev hqueue hresults
    refine hw.kept (by rw [← hdev]; rfl) hqueue (by rw [← hdev]; rfl) fun r hr => ?_
    exact List.mem_append_left _ (by rwa [hresults])
  have hlast : ∀ {w₀ : World γ} {x : Waiter} {job : Job} {value : JobValue},
      (∀ r ∈ (w₀.post x job value).results, r.isFull = false) →
      (Result.mk x job value).isFull = false :=
    fun hfull => hfull _ (List.mem_append_right _ List.mem_cons_self)
  cases h with
  | took => exact .of_dropped (by simp)
  | listed => exact hw.kept rfl rfl rfl fun _ => id
  | created => exact hw.kept rfl rfl rfl fun _ => id
  | nextVersion => exact hw.kept rfl rfl rfl fun _ => id
  | opened => exact absurd (hlast hfull) (by simp [Result.isFull])
  | dropped => exact .of_dropped (by simp [post])
  | notHeld _ hqueue => exact hw.ran hqueue rfl rfl rfl rfl (fun _ => trivial) (hlast hfull)
  | callRaised _ _ _ hreply => exact absurd hreply (Reply.not_raised hok.1)
  | @callReturned reply now _ c _ _ result _ hqueue =>
      refine hw.ran hqueue rfl rfl (noteTimes_sameData c reply now w.dev).refreshAt
        (noteTimes_same c reply now w.dev).1 (fun hc => ?_) (hlast hfull)
      subst hc
      exact libraryValue_status reply result
  | skipped => exact absurd rfl hskip
  | _ => exact hposts rfl rfl rfl

/-! ## Turns of the coroutines -/

end World

/-- Handling anything but a full status keeps a set `_refresh_at`. -/
theorem Applied.refresh {now : ℚ} {d : Device} {c : γ} {r : Result} {h : Handled γ}
    (happlied : Applied cb now d c r h) (hfull : r.isFull = false) (hset : d.refreshAt ≠ none) :
    h.dev.refreshAt ≠ none := by
  cases happlied with
  | opened hvalue => exact absurd hfull (by simp [Result.isFull, hvalue])
  | full hvalue => exact absurd hfull (by simp [Result.isFull, hvalue])
  | pushed =>
      unfold handleDps
      dsimp only
      split <;> exact hset
  | unavailable => rwa [(setAvailable_sameData now false _ d c).refreshAt]
  | openFailed => rwa [(openFailed_sameData now _ d c).refreshAt]
  | nothing _ _ _ hrefresh => exact hrefresh hset

/-- `_run` drops the connection that a status found lost. -/
theorem loopResume_drops {now : ℚ} {d : Device} {c : γ} {pc : Loop} {why : LostReason}
    {t : Turn γ Loop} (hjob : pc.awaits = some (.wCall .status))
    (h : loopResume cb now d c pc (.raised (.lan (.connectionLost why))) = some t) :
    t.pc.awaits = some .wDrop := by
  cases pc with
  | reading b =>
      obtain rfl := Option.some.inj h
      rfl
  | _ => exact absurd hjob (by simp [Loop.awaits])

/-- `async_refresh` drops the connection that its status found lost. -/
theorem callResume_drops {now : ℚ} {d : Device} {c : γ} {pc : Call} {why : LostReason}
    {t : Turn γ Call} (hjob : pc.awaits = some (.wCall .status))
    (h : callResume cb now d c pc (.raised (.lan (.connectionLost why))) = some t) :
    t.pc.awaits = some .wDrop := by
  cases pc with
  | refreshing =>
      obtain rfl := Option.some.inj h
      rfl
  | _ => exact absurd hjob (by simp [Call.awaits])

/-- `async_set_dps` sets `_refresh_at` once its command was sent. -/
theorem callResume_sent {now : ℚ} {d : Device} {c : γ} {pc : Call} {dps : PyDict}
    {t : Turn γ Call} (hjob : pc.awaits = some (.wCall (.set dps)))
    (h : callResume cb now d c pc .done = some t) : t.dev.refreshAt ≠ none := by
  cases pc with
  | setting dps' =>
      obtain rfl := Option.some.inj h
      simp
  | _ => exact absurd hjob (by simp [Call.awaits])

namespace World

/-! ## Steps on the event loop -/

/-- While the executor accepts jobs, `_run` submits the one it goes on to. -/
theorem loopGoes_submits {w : World γ} {t : Turn γ Loop} {job : Job}
    (hexec : w.executor = .accepting) (hjob : t.pc.awaits = some job) :
    (.loop, job) ∈ (w.loopGoes t).queue := by
  rcases loopGoes_loop w t with hloop | ⟨_, hrefused⟩
  · rw [loopGoes_queue, hloop, hjob]
    simp
  · exact absurd hrefused (by simp [hexec, Executor.accepts])

/-- While the executor accepts jobs, a call submits the one it goes on to. -/
theorem callGoes_submits {w : World γ} {n : Nat} {t : Turn γ Call} {job : Job}
    (hexec : w.executor = .accepting) (hjob : t.pc.awaits = some job) :
    (.call n, job) ∈ (w.callGoes n t).queue := by
  obtain ⟨pc, _, hqueue, hpc⟩ := callGoes_spec w n t
  rcases hpc with rfl | ⟨_, hrefused⟩
  · rw [hqueue, hjob]
    simp
  · exact absurd hrefused (by simp [hexec, Executor.accepts])

/-- A step on the event loop after which a set `_refresh_at` still is or a status is queued, and
that handles no loss. -/
theorem ReadBackComes.submits {w w' : World γ} {results : List Result} (h : w.ReadBackComes)
    (hstep : w.Submits results w') (hrefresh : w.dev.refreshAt ≠ none → w'.ReadBackComes)
    (hloss : w.LossWaits → w'.ReadBackComes) : w'.ReadBackComes := by
  obtain ⟨x, jobs, _, hqueue⟩ := hstep.queue
  refine h.elim hrefresh (fun y hy => ?_) (fun hnone => .of_dropped (by rwa [hstep.api]))
    (fun y hy => ?_) hloss
  · exact .of_status (x := y) (by rw [hqueue]; exact List.mem_append_left _ hy)
  · exact .of_drop (x := y) (by rw [hqueue]; exact List.mem_append_left _ hy)

/-- **Handling** anything but a full status keeps the read-back.  A loss that is handled leads to a
drop of the connection. -/
theorem ReadBackComes.took {w w' : World γ} {now : ℚ} {r : Result} {rest : List Result}
    (hw : w.ReadBackComes) (horder : w.Orderly) (hresults : w.results = r :: rest)
    (hfull : r.isFull = false) (h : Took cb now w r rest w') : w'.ReadBackComes := by
  have hfirst : w.results[0]? = some r := by rw [hresults]; rfl
  have hawaits := (horder.tracked.of_result hfirst (horder.attends (by simp [hresults]))).1
  have hexec : ({ w with results := rest } : World γ).executor = .accepting := horder.accepting
  refine hw.submits h.submits (fun hset => ?_) ?_
  · cases h with
    | byLoop _ ht =>
        obtain ⟨d, happlied, honward⟩ := loopResume_applied ht
        rcases honward.refresh (happlied.refresh hfull hset) with hkeep | hjob
        · exact .of_refreshAt (by simpa using hkeep)
        · exact .of_status (loopGoes_submits hexec hjob)
    | byCall _ _ ht =>
        obtain ⟨d, happlied, honward⟩ := callResume_applied ht
        rcases honward.refresh (happlied.refresh hfull hset) with hkeep | hjob
        · exact .of_refreshAt (by simpa using hkeep)
        · exact .of_status (callGoes_submits hexec hjob)
  · intro hparts
    obtain ⟨r', hr', hjob, why, hvalue⟩ := hparts
    rw [hresults] at hr'
    rcases List.mem_cons.mp hr' with rfl | hr'
    · -- the loss itself is handled: the coroutine goes on to drop the connection
      cases h with
      | byLoop hx ht =>
          rw [hvalue] at ht
          rw [hx, hjob] at hawaits
          exact .of_drop (loopGoes_submits hexec (loopResume_drops hawaits ht))
      | @byCall n pc _ hx hpc ht =>
          rw [hvalue] at ht
          rw [hx, hjob] at hawaits
          have hpcjob : pc.awaits = some (.wCall .status) := by
            simpa [World.awaits, hpc] using hawaits
          exact .of_drop (callGoes_submits hexec (callResume_drops hpcjob ht))
    · exact Or.inr ⟨r', by rw [h.submits.results]; exact hr', hjob, why, hvalue⟩

/-- Once the result of a sent command is handled, its read-back comes. -/
theorem ReadBackComes.sent {w w' : World γ} {now : ℚ} {r : Result} {rest : List Result} {i : Nat}
    (horder : w.Orderly) (hresults : w.results = r :: rest) (hsent : r.sentBy = some i)
    (h : Took cb now w r rest w') : w'.ReadBackComes := by
  have hfirst : w.results[0]? = some r := by rw [hresults]; rfl
  have hawaits := (horder.tracked.of_result hfirst (horder.attends (by simp [hresults]))).1
  obtain ⟨dps, rfl⟩ := Result.sentBy_eq hsent
  cases h with
  | byLoop hx => exact absurd hx (by simp)
  | @byCall n pc t hx hpc ht =>
      obtain rfl : i = n := Waiter.call.inj hx
      have hjob : pc.awaits = some (.wCall (.set dps)) := by
        simpa [World.awaits, hpc] using hawaits
      exact .of_refreshAt (by simpa using callResume_sent hjob ht)

/-- Steps that handle nothing keep the read-back.  They may add jobs at the end, and take none
away. -/
theorem ReadBackComes.quiet {w w' : World γ} (hw : w.ReadBackComes) (horder : w.Orderly)
    (h : Quiet w w') : w'.ReadBackComes := by
  refine hw.submits h.submits (fun hset => ?_) ?_
  · cases h with
    | stayed => exact .of_refreshAt hset
    | started => exact .of_refreshAt hset
    | @went now backoff =>
        rcases (loopTop_onward now backoff w.dev w.client).refresh hset with hkeep | hjob
        · exact .of_refreshAt (by simpa using hkeep)
        · exact .of_status (loopGoes_submits horder.accepting hjob)
    | called => exact .of_refreshAt (by simpa using hset)
    | reconfigured => exact .of_refreshAt (by simpa using hset)
  · intro hparts
    obtain ⟨r, hr, hloss⟩ := hparts
    exact Or.inr ⟨r, by rw [h.submits.results]; exact hr, hloss⟩

/-! ## All runs -/

/-- The read-back of every command that was sent, and whose `async_set_dps` went on, comes unless
a full status was read behind it. -/
def ReadBacks (handled : List Result) (w : World γ) : Prop :=
  ∀ before r after i, handled = before ++ r :: after → r.sentBy = some i →
    (∀ r' ∈ after ++ w.results, r'.isFull = false) → w.ReadBackComes

/-- The worker keeps what comes after each command, as long as it is not skipped: a status it runs
becomes a result, and a drop leaves the device without a connection. -/
theorem ReadBacks.worker {handled : List Result} {w w' : World γ} {a : Action}
    (hw : w.ReadBacks handled) (h : WorkerMove w a w') (hskip : a ≠ .skip) (hok : w.InOrder a) :
    w'.ReadBacks handled := by
  intro before r after i hhandled hsent hunread
  obtain ⟨new, hnew, _⟩ := h.posted
  have hbefore : w.ReadBackComes := by
    refine hw before r after i hhandled hsent fun r' hr' => hunread r' ?_
    rw [hnew, ← List.append_assoc]
    exact List.mem_append_left _ hr'
  exact hbefore.worker h hskip hok fun r' hr' => hunread r' (List.mem_append_right _ hr')

/-- Taking up the first result keeps it.  For a command that was sent, this is where the refresh is
noted. -/
theorem ReadBacks.took {handled : List Result} {w w' : World γ} {now : ℚ} {r : Result}
    {rest : List Result} (hw : w.ReadBacks handled) (horder : w.Orderly)
    (hresults : w.results = r :: rest) (h : Took cb now w r rest w') :
    w'.ReadBacks (handled ++ [r]) := by
  intro before r' after i hhandled hsent hunread
  rw [h.submits.results] at hunread
  rcases List.eq_nil_or_concat after with rfl | ⟨after', last, rfl⟩
  · obtain ⟨_, hlast⟩ := List.append_inj' hhandled rfl
    obtain rfl : r = r' := (List.cons.inj hlast).1
    exact ReadBackComes.sent horder hresults hsent h
  · have hsplit : handled ++ [r] = (before ++ r' :: after') ++ [last] := by simpa using hhandled
    obtain ⟨hfront, hlast⟩ := List.append_inj' hsplit rfl
    obtain rfl : r = last := (List.cons.inj hlast).1
    have hbefore : w.ReadBackComes := by
      refine hw before r' after' i hfront hsent fun x hx => hunread x ?_
      simpa [hresults] using hx
    exact hbefore.took horder hresults (hunread r (by simp)) h

/-- So does a step that takes up no result. -/
theorem ReadBacks.quiet {handled : List Result} {w w' : World γ} (hw : w.ReadBacks handled)
    (horder : w.Orderly) (h : Quiet w w') : w'.ReadBacks handled := by
  intro before r after i hhandled hsent hunread
  rw [h.submits.results] at hunread
  exact (hw before r after i hhandled hsent hunread).quiet horder h

/-- A call that has ended awaits no result. -/
theorem Orderly.not_waiting {w : World γ} (hw : w.Orderly) {r : Result} {i : Nat}
    (hwaiter : r.waiter = .call i) {pc : Call} (hpc : w.calls[i]? = some pc)
    (hreturned : pc.hasReturned = true) : r ∉ w.results := by
  intro hr
  obtain ⟨k, hk, rfl⟩ := List.getElem_of_mem hr
  have hawaits := (hw.tracked.of_result (List.getElem?_eq_getElem hk) (hw.attends hr)).1
  rw [hwaiter] at hawaits
  cases pc with
  | done op ending => exact absurd hawaits (by simp [World.awaits, hpc, Call.awaits])
  | _ => exact absurd hreturned (by simp [Call.hasReturned])

/-- **The read-back of a command is not lost.**  Where library calls return, waiters are resumed
in worker order, calls are not cancelled and the device is not closed: after `_w_set` sent a
command and its `async_set_dps` returned, and as long as no full status was read behind it,
`_refresh_at` is set, a `_w_status` is queued, the connection has been dropped, a drop is queued,
or the loss of the connection that a `_w_status` found waits to be handled. -/
theorem read_back_comes {config : DeviceConfig} {timings : Timings} {hint : Option PyStr}
    {client : γ} {as : List Action} {s : Logged γ} {before after : List Result} {r : Result}
    {i : Nat} {pc : Call}
    (hrun : Run (Logged.step cb) (fun s a => s.world.InOrder a)
      (Logged.init config timings hint client) as s)
    (hlog : s.log = before ++ r :: after) (hsent : r.sentBy = some i)
    (hpc : s.world.calls[i]? = some pc) (hreturned : pc.hasReturned = true)
    (hunread : ∀ r' ∈ after, r'.isFull = false) : s.world.ReadBackComes := by
  obtain ⟨horder, handled, hhandled, hbacks⟩ := Logged.invariant
    (fun _ _ h => h) (fun handled w => w.ReadBacks handled)
    (fun before r after i hnil => absurd hnil (by simp))
    (fun _ _ _ _ _ hw h hskip hok => hw.worker h hskip hok)
    (fun _ _ _ _ _ _ horder hw hresults _ h => hw.took horder hresults h)
    (fun _ _ _ horder hw h => hw.quiet horder h) hrun
  obtain ⟨dps, hr⟩ := Result.sentBy_eq hsent
  have hnot : r ∉ s.world.results := horder.not_waiting (by rw [hr]) hpc hreturned
  rw [hlog] at hhandled
  rcases List.append_eq_append_iff.mp hhandled with ⟨mid, hfront, hback⟩ | ⟨mid, hfront, hback⟩
  · cases mid with
    | nil =>
        refine absurd ?_ hnot
        rw [show s.world.results = r :: after from hback.symm]
        exact List.mem_cons_self
    | cons x mid =>
        obtain ⟨rfl, rfl⟩ := List.cons.inj hback
        exact hbacks before r mid i hfront hsent hunread
  · refine absurd ?_ hnot
    rw [hback]
    exact List.mem_append_right _ List.mem_cons_self

/-! ## Examples -/

/-- The device connects and the owner switches it on. -/
def commandActions : List Action :=
  openActions ++ [.resume 0 0, .request (.setDps (PyDict.ofMembers [(py "1", .bool true)])),
    .work (statusReply true) 0, .resume 0 0]

/-- What the examples show of a run: the second result is of a command that the second call sent
before it returned, and no full status was read since. -/
structure CommandSent (s : Logged γ) : Prop where
  sent : s.log[1]?.bind Result.sentBy = some 1
  returned : s.world.calls[1]?.any Call.hasReturned = true
  unread : ∀ r ∈ s.log.drop 2, r.isFull = false

instance (s : Logged γ) : Decidable (CommandSent s) :=
  decidable_of_iff (_ ∧ _ ∧ _) ⟨fun ⟨h₁, h₂, h₃⟩ => ⟨h₁, h₂, h₃⟩, fun h => ⟨h.1, h.2, h.3⟩⟩

/-- A command is sent, and a refresh is due. -/
theorem read_back_comes_after_command :
    ∃ s : Logged Unit, CommandSent s ∧ s.world.ReadBackComes := by
  let start : Logged Unit := .init exampleConfig {} none ()
  let execution := exec (Logged.step (Callbacks.none Unit)) start commandActions
  obtain ⟨s, hs⟩ := Option.isSome_iff_exists.mp (show execution.isSome = true by decide +kernel)
  have hrun : Run (Logged.step (Callbacks.none Unit)) (fun s a => s.world.InOrder a) start
      commandActions s := Run.of_meets hs (by decide +kernel)
  have hfacts : ∀ v ∈ execution, CommandSent v := by decide +kernel
  have hsent := hfacts s hs
  obtain ⟨r, hr, hcall⟩ := Option.bind_eq_some_iff.mp hsent.sent
  obtain ⟨pc, hpc, hreturned⟩ := (Option.any_eq_true _ _).mp hsent.returned
  exact ⟨s, hsent, read_back_comes hrun (split_eraseIdx hr).1 hcall hpc hreturned hsent.unread⟩

/-- **The failed read-back.**  The status job behind the command found the connection lost, and
the background task has not handled that yet: no read is due, and nothing is dropped. -/
theorem failed_read_back_waits :
    ¬ ∀ (as : List Action) (s : Logged Unit) (before after : List Result) (r : Result) (i : Nat)
      (pc : Call), Run (Logged.step (Callbacks.none Unit)) (fun s a => s.world.InOrder a)
        (Logged.init exampleConfig {} none ()) as s →
      s.log = before ++ r :: after → r.sentBy = some i → s.world.calls[i]? = some pc →
      pc.hasReturned = true → (∀ r' ∈ after, r'.isFull = false) → s.world.ReadBackDue := by
  intro hclaim
  let start : Logged Unit := .init exampleConfig {} none ()
  let actions : List Action := commandActions ++ [.start, .begin 10, .work (statusReply false) 10]
  let execution := exec (Logged.step (Callbacks.none Unit)) start actions
  obtain ⟨s, hs⟩ := Option.isSome_iff_exists.mp (show execution.isSome = true by decide +kernel)
  have hrun : Run (Logged.step (Callbacks.none Unit)) (fun s a => s.world.InOrder a) start
      actions s := Run.of_meets hs (by decide +kernel)
  have hfacts : ∀ v ∈ execution, CommandSent v ∧ v.world.dev.refreshAt = none ∧
      v.world.queue.isEmpty = true ∧ v.world.dev.api = some 0 := by decide +kernel
  obtain ⟨hsent, hrefresh, hempty, hheld⟩ := hfacts s hs
  have hqueue : s.world.queue = [] := List.isEmpty_iff.mp hempty
  obtain ⟨r, hr, hcall⟩ := Option.bind_eq_some_iff.mp hsent.sent
  obtain ⟨pc, hpc, hreturned⟩ := (Option.any_eq_true _ _).mp hsent.returned
  rcases hclaim actions s _ _ r 1 pc hrun (split_eraseIdx hr).1 hcall hpc hreturned hsent.unread
    with h | ⟨_, h⟩ | h | ⟨_, h⟩
  · exact h hrefresh
  · exact absurd h (by simp [hqueue])
  · exact absurd (hheld.symm.trans h) (by simp)
  · exact absurd h (by simp [hqueue])

end World

end Lan
