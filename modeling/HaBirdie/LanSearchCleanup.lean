import HaBirdie.LanSearch

/-!
# What a network search leaves behind

An attempt that runs to its end has closed its device, whatever `async_connect` led to, and so
has an attempt that is cancelled while it waits or connects: its `finally` still runs
`async_close`.  A cancellation that arrives while the attempt is inside its own `async_close`
ends that close where it stands, and the closed flag makes any later one return at once.

`Spared` excludes that, and the socket that the library leaves open when `status` raises
(`LanClose`).  In every run within it, an attempt that has ended has released its device
(`leaves_nothing`).
-/

namespace Lan

open Python StepRuns

namespace World

variable {γ : Type} {cb : Callbacks γ} {w w' : World γ} {a : Action}

/-! ## The device of an attempt -/

/-- A background task that was not started stays so, until the owner starts it. -/
theorem notStarted_step (hstart : a ≠ .start) (hrequest : ∀ r, a ≠ .request r)
    (hloop : w.loop = .notStarted) (h : w.step cb a = some w') : w'.loop = .notStarted := by
  rcases step_moves h with hmove | hmove
  · exact hmove.keeps.loop.trans hloop
  cases hmove with
  | startedBefore => exact hloop
  | started => exact absurd rfl hstart
  | begun hready => exact absurd (hloop.symm.trans hready) (by simp)
  | woken _ ht => rw [hloop] at ht; exact absurd ht (by simp [loopWake])
  | requested => exact absurd rfl (hrequest _)
  | loopResumed _ _ ht => rw [hloop] at ht; exact absurd ht (by simp [loopResume])
  | callResumed => simpa using hloop
  | taskEnded => simpa using hloop
  | _ => exact hloop

/-- The device is connecting: `async_connect` is its only call. -/
structure Connects (w : World γ) : Prop where
  closable : w.Closable
  opened : w.dev.closed = false
  loop : w.loop = .notStarted
  call : ∃ c, w.calls = [c] ∧ c.op = .connect

/-- The device is closing: `async_connect` has ended and `async_close` has not. -/
structure Closes (w : World γ) : Prop where
  closable : w.Closable
  loop : w.loop = .notStarted
  call : ∃ ending c, w.calls = [.done .connect ending, c] ∧ c.op = .close ∧ c.isDone = false

/-- The device is closed and released, and none of its calls goes on. -/
structure Settled (w : World γ) : Prop where
  released : w.Released
  loop : w.loop = .notStarted
  calls : ∀ c ∈ w.calls, c.isDone = true

/-- A connecting device has not been asked to close. -/
theorem Connects.no_close (hw : w.Connects) : ∀ c ∈ w.calls, c.op ≠ .close := by
  obtain ⟨c, hcalls, hop⟩ := hw.call
  intro c' hc' hclose
  rw [hcalls] at hc'
  obtain rfl := List.mem_singleton.mp hc'
  exact absurd (hop.symm.trans hclose) (by simp)

/-- The executor of a connecting device takes jobs. -/
theorem Connects.accepting (hw : w.Connects) : w.executor = .accepting := by
  rcases hw.closable.phase with hfinished | ⟨_, ⟨_, hexec, _⟩ | ⟨hclosed, _⟩⟩
  · exact absurd hfinished (not_finished_of_none hw.no_close)
  · exact hexec
  · exact absurd (hw.opened.symm.trans hclosed) (by simp)

/-- A device just created, with `async_connect` called. -/
theorem Connects.init (config : DeviceConfig) (timings : Timings) (hint : Option PyStr)
    (client : γ) : ((World.init config timings hint client).request .connect).Connects := by
  have hclosable := Closable.init config timings hint client
  have hsafe : (World.init config timings hint client).CloseSafe (.request .connect) := trivial
  have hstep : (World.init config timings hint client).step (Callbacks.none γ)
      (.request .connect) = some ((World.init config timings hint client).request .connect) := rfl
  exact ⟨(hclosable.step hsafe hstep).1, rfl, rfl, .connecting, rfl, rfl⟩

/-- Every step but the owner's keeps the device connecting, whether its call has ended or not. -/
theorem Connects.step (hw : w.Connects) (hstart : a ≠ .start) (hrequest : ∀ r, a ≠ .request r)
    (hsafe : w.CloseSafe a) (h : w.step cb a = some w') : w'.Connects := by
  refine ⟨(hw.closable.step hsafe h).1, (closed_step h (hrequest _)).trans hw.opened,
    notStarted_step hstart hrequest hw.loop h, ?_⟩
  obtain ⟨c, hcalls, hop⟩ := hw.call
  rcases calls_step h with hsame | ⟨r, _, rfl, _⟩ | ⟨j, c₀, c', _, hc₀, _, hop', hset⟩
  · exact ⟨c, hsame.trans hcalls, hop⟩
  · exact absurd rfl (hrequest r)
  · rw [hcalls] at hc₀ hset
    obtain ⟨rfl, rfl⟩ : j = 0 ∧ c₀ = c := by
      cases j with
      | zero => exact ⟨rfl, (Option.some.inj hc₀).symm⟩
      | succ j => exact absurd hc₀ (by simp)
    exact ⟨c', hset, hop'.trans hop⟩

/-- **After `async_connect` the device is closed**, whatever became of the call.  A device of the
search has no background task, so the close has its drop to wait for. -/
theorem Connects.close (hw : w.Connects) {ending : Ending} {op : Operation}
    (hcall : (w.calls[0]? : Option Call) = some (.done op ending)) :
    (w.request .close).Closes := by
  have hsafe : w.CloseSafe (.request .close) := fun _ => by rw [hw.loop]; rfl
  have hstep : w.step (Callbacks.none γ) (.request .close) = some (w.request .close) := rfl
  have hclose : w.request .close = w.marked.newCall .closeDropping := by
    simp [request, World.close, marked, hw.opened, hw.loop]
  have hexec : w.marked.executor = .accepting := hw.accepting
  refine ⟨(hw.closable.step hsafe hstep).1, ?_, ending, .closeDropping, ?_, rfl, rfl⟩
  · rw [hclose, newCall_loop]
    exact hw.loop
  · obtain ⟨c, hcalls, hop⟩ := hw.call
    rw [hcalls] at hcall
    obtain rfl : c = .done op ending := Option.some.inj hcall
    obtain rfl : op = .connect := hop
    obtain ⟨pc, hnew, _, hpc⟩ := newCall_spec w.marked .closeDropping
    rcases hpc with rfl | ⟨_, hrefuse⟩
    · rw [hclose, hnew]
      exact congrArg (· ++ [Call.closeDropping]) hcalls
    · exact absurd hrefuse (by simp [hexec, Executor.accepts])

/-- A close that goes on has not finished. -/
theorem Closes.not_finished (hw : w.Closes) : ¬ w.CloseFinished := by
  obtain ⟨e, c, hcalls, hop, hnot⟩ := hw.call
  have hconnect : (Call.done .connect e).op ≠ .close := by simp [Call.op]
  rw [closeFinished_iff, hcalls]
  simp [hconnect, hop, hnot]

/-- **A close that is not cancelled goes on, or ends with everything released.**  This is
`Closing.step` for a device with one other call. -/
theorem Closes.step (hw : w.Closes) (hstart : a ≠ .start) (hrequest : ∀ r, a ≠ .request r)
    (hsafe : w.CloseSafe a) (h : w.step cb a = some w') :
    w'.Closes ∨ (w.actsOn a).isSome = true ∧ w'.Settled ∧
      ∃ ending, (w'.calls[1]? : Option Call) = some (.done .close ending) := by
  obtain ⟨e, c, hcalls, hop, hnot⟩ := hw.call
  obtain ⟨hclosable, hreleased⟩ := hw.closable.step hsafe h
  have hloop := notStarted_step hstart hrequest hw.loop h
  rcases calls_step h with hsame | ⟨r, _, rfl, _⟩ | ⟨j, c₀, c', hj, hc₀, hnot₀, hop', hset⟩
  · exact Or.inl ⟨hclosable, hloop, e, c, hsame.trans hcalls, hop, hnot⟩
  · exact absurd rfl (hrequest r)
  · rw [hcalls] at hc₀ hset
    obtain ⟨rfl, rfl⟩ : j = 1 ∧ c₀ = c := by
      match j with
      | 0 =>
          obtain rfl : Call.done .connect e = c₀ := Option.some.inj hc₀
          exact absurd hnot₀ (by simp [Call.isDone])
      | 1 => exact ⟨rfl, (Option.some.inj hc₀).symm⟩
      | j + 2 => exact absurd hc₀ (by simp)
    have hcalls' : w'.calls = [.done .connect e, c'] := hset
    have hop'' : c'.op = .close := hop'.trans hop
    cases hdone : c'.isDone with
    | false => exact Or.inl ⟨hclosable, hloop, e, c', hcalls', hop'', hdone⟩
    | true =>
        obtain ⟨ending, rfl⟩ : ∃ ending, c' = .done .close ending := by
          cases c' with
          | done op ending => exact ⟨ending, by rw [show op = .close from hop'']⟩
          | _ => exact absurd hdone (by simp [Call.isDone])
        have hfinished : w'.CloseFinished := by
          rw [closeFinished_iff, hcalls']
          simp [Call.op, Call.isDone]
        refine Or.inr ⟨by simp [hj], ⟨hreleased hw.not_finished hfinished, hloop, ?_⟩, ending, ?_⟩
        · rw [hcalls']
          simp [Call.isDone]
        · rw [hcalls']
          rfl

/-- What is settled stays so, in every step that is not the owner's.  Jobs that are left find no
connection. -/
theorem Settled.step (hw : w.Settled) (howner : a.isOwners = false)
    (h : w.step cb a = some w') : w'.Settled := by
  have hreleased := hw.released
  have hcall : ∀ {i : ℕ} {c : Call}, w.calls[i]? = some c → c.isDone = true :=
    fun hc => hw.calls _ (List.mem_of_getElem? hc)
  have hsealed := hreleased.sealed.step h
  rcases step_moves h with hmove | hmove
  · exact (hmove.not_stopped hreleased.queue hreleased.worker).elim
  have hexec : w.executor = .stopped := hreleased.executor
  cases hmove with
  | begun hready => exact absurd (hw.loop.symm.trans hready) (by simp)
  | woken _ ht => rw [hw.loop] at ht; exact absurd ht (by simp [loopWake])
  | loopResumed _ _ ht => rw [hw.loop] at ht; exact absurd ht (by simp [loopResume])
  | callResumed _ _ hpc ht =>
      obtain ⟨job, hjob⟩ := callResume_awaits ht
      have hdone := hcall hpc
      cases ‹Call› <;> simp_all [Call.awaits, Call.isDone]
  | forgotten =>
      exact ⟨⟨hsealed, hexec, hreleased.queue, hreleased.worker, hreleased.keys⟩, hw.loop,
        hw.calls⟩
  | taskEnded hc => exact absurd (hcall hc) (by simp [Call.isDone])
  | shutdownBegun hqueued => exact absurd (hexec.symm.trans hqueued) (by simp)
  | shutdownFinished hstopping => exact absurd (hexec.symm.trans hstopping) (by simp)
  | keyReleased hc => exact absurd (hcall hc) (by simp [Call.isDone])
  | _ => exact absurd howner (by simp [Action.isOwners])

end World

/-! ## Attempts -/

namespace SearchAttempt

/-- What the device of an attempt is like at each stage. -/
inductive Sound : SearchAttempt → Prop
  | waiting {host : PyStr} : Sound ⟨host, none, .waiting⟩
  | connecting {host : PyStr} {w : World Unit} (hw : w.Connects) :
      Sound ⟨host, some w, .connecting⟩
  | closing {host : PyStr} {w : World Unit} {leaving : Leaving} (hw : w.Closes) :
      Sound ⟨host, some w, .closing leaving⟩
  | done {host : PyStr} {device : Option (World Unit)} {ending : TaskEnd}
      (hw : ∀ w ∈ device, w.Settled) : Sound ⟨host, device, .done ending⟩

/-- The semaphore lets in an attempt that waits. -/
theorem begin_sound (s : SearchSettings) {a : SearchAttempt} (ha : a.Sound)
    (hstage : a.stage = .waiting) : (a.begin s).Sound := by
  cases ha with
  | @waiting host =>
      unfold begin
      cases DeviceConfig.make s.deviceId host s.localKey s.protocolVersion s.port with
      | error e => exact .done (by simp)
      | ok config => exact .connecting (World.Connects.init config s.timings none ())
  | _ => exact absurd hstage (by simp)

/-- An attempt that has ended goes nowhere. -/
theorem goOn_done (configured : PyStr) {a : SearchAttempt} (ha : a.isDone = true) :
    a.goOn configured = a := by
  cases hstage : a.stage with
  | done => simp [goOn, hstage]
  | _ => exact absurd ha (by simp [isDone, hstage])

/-- An attempt goes on from `async_connect` to `async_close`, whatever the first led to, so the
device is closed before the attempt ends. -/
theorem goOn_sound (configured : PyStr) {a : SearchAttempt} (ha : a.Sound) :
    (a.goOn configured).Sound := by
  cases ha with
  | waiting => exact .waiting
  | @connecting host w hw =>
      obtain ⟨c, hcalls, _⟩ := hw.call
      cases c with
      | done op e =>
          have hcall : (w.calls[0]? : Option Call) = some (.done op e) := by rw [hcalls]; rfl
          simpa [goOn, hcall] using Sound.closing (hw.close hcall)
      | _ => simpa [goOn, hcalls] using Sound.connecting hw
  | @closing host w leaving hw =>
      obtain ⟨e, c, hcalls, _, hnot⟩ := hw.call
      cases c with
      | done => exact absurd hnot (by simp [Call.isDone])
      | _ => simpa [goOn, hcalls] using Sound.closing hw
  | done hw =>
      rw [goOn_done configured rfl]
      exact .done hw

/-- What a step of its device does to an attempt. -/
theorem onDevice_spec {configured : PyStr} {action : Action} {a a' : SearchAttempt}
    (h : a.onDevice configured action = some a') :
    ∃ w w', a.device = some w ∧ w.step (Callbacks.none Unit) action = some w' ∧
      a' = if (w.actsOn action).isSome then { a with device := some w' }.goOn configured
        else { a with device := some w' } := by
  obtain ⟨w, hdevice, hrest⟩ := Option.bind_eq_some_iff.mp h
  obtain ⟨w', hstep, hgoes⟩ := Option.bind_eq_some_iff.mp hrest
  exact ⟨w, w', hdevice, hstep, (Option.some.inj hgoes).symm⟩

/-- **A step of its device keeps an attempt sound.**  The attempt connects, closes or has ended, and
goes on where its call has. -/
theorem onDevice_sound {configured : PyStr} {action : Action} {a a' : SearchAttempt}
    (ha : a.Sound) (howner : action.isOwners = false)
    (hsafe : ∀ w ∈ a.device, w.CloseSafe action)
    (h : a.onDevice configured action = some a') : a'.Sound := by
  obtain ⟨hstart, hrequest⟩ := Action.not_owners howner
  obtain ⟨w, w', hdevice, hstep, rfl⟩ := onDevice_spec h
  have hsafe' := hsafe w hdevice
  -- but for the end of the close, the attempt goes on from a sound state
  have hkeep : { a with device := some w' }.Sound →
      (if (w.actsOn action).isSome then { a with device := some w' }.goOn configured
        else { a with device := some w' }).Sound := by
    intro hsound
    split
    · exact goOn_sound configured hsound
    · exact hsound
  cases ha with
  | waiting => exact absurd hdevice (by simp)
  | connecting hw =>
      obtain rfl := Option.some.inj hdevice
      exact hkeep (.connecting (hw.step hstart hrequest hsafe' hstep))
  | closing hw =>
      obtain rfl := Option.some.inj hdevice
      rcases hw.step hstart hrequest hsafe' hstep with hw' | ⟨hacts, hw', e, hcall⟩
      · exact hkeep (.closing hw')
      · rw [if_pos hacts]
        simpa [goOn, hcall] using Sound.done (by simpa using hw')
  | done hw => exact hkeep (.done (by simpa using (hw w hdevice).step howner hstep))

/-- **A cancellation outside of the close keeps an attempt sound**: its close is still to
come. -/
theorem cancel_sound {a : SearchAttempt} (ha : a.Sound) (hclosing : a.isClosing = false) :
    a.cancel.Sound := by
  cases ha with
  | waiting => exact .done (by simp)
  | @connecting host w hw =>
      refine .connecting ?_
      change ((w.cancel 0).getD w).Connects
      cases hstep : w.cancel 0 with
      | none => exact hw
      | some w' =>
          obtain ⟨c, hcalls, hop⟩ := hw.call
          have hsafe : w.CloseSafe (.cancel 0) := by
            intro c' hc'
            rw [hcalls] at hc'
            obtain rfl : c = c' := Option.some.inj hc'
            cases c <;> simp_all [Call.op, Call.isClosing]
          have hdone : w.step (Callbacks.none Unit) (.cancel 0) = some w' := hstep
          exact hw.step (by simp) (by simp) hsafe hdone
  | closing => exact absurd hclosing (by simp [isClosing])
  | done hw => exact .done hw

/-- An attempt that has ended stays as it has. -/
theorem onDevice_stage {configured : PyStr} {action : Action} {a a' : SearchAttempt}
    (ha : a.isDone = true) (h : a.onDevice configured action = some a') : a'.stage = a.stage := by
  obtain ⟨w, w', _, _, rfl⟩ := onDevice_spec h
  have hdone : { a with device := some w' }.isDone = true := ha
  split
  · rw [goOn_done configured hdone]
  · rfl

/-- An attempt that has ended stays ended. -/
theorem onDevice_done {configured : PyStr} {action : Action} {a a' : SearchAttempt}
    (ha : a.isDone = true) (h : a.onDevice configured action = some a') : a'.isDone = true := by
  unfold isDone at ha ⊢
  rw [onDevice_stage ha h]
  exact ha

end SearchAttempt

/-! ## The search -/

namespace Search

/-- No attempt is inside its own `async_close`. -/
def NoneClosing (s : Search) : Prop := ∀ a ∈ s.attempts, a.isClosing = false

instance (s : Search) : Decidable s.NoneClosing :=
  inferInstanceAs (Decidable (∀ a ∈ s.attempts, a.isClosing = false))

/-- The condition under which a search cleans up: no attempt is inside its own `async_close`
when the search stops, because an attempt found the device or raised, or because its caller
cancels it; and no `status` of a connection attempt raises with its socket open. -/
def Spared (s : Search) : SearchAction → Prop
  | .onDevice _ (.answer reply _) => reply.outcome.isOk = true ∨ reply.socket = false
  | .collect => (∀ i ∈ s.completed.head?, ∀ e ∈ s.endOf i, e.isNone = true) ∨ s.NoneClosing
  | .cancel => s.NoneClosing
  | _ => True

instance (s : Search) : (a : SearchAction) → Decidable (s.Spared a)
  | .onDevice _ (.answer reply _) => inferInstanceAs (Decidable (_ ∨ reply.socket = false))
  | .collect => inferInstanceAs (Decidable
      ((∀ i ∈ s.completed.head?, ∀ e ∈ s.endOf i, e.isNone = true) ∨ s.NoneClosing))
  | .cancel => inferInstanceAs (Decidable s.NoneClosing)
  | .begin _ | .wake _ | .gathered => isTrue trivial
  | .onDevice _ .start | .onDevice _ (.begin _) | .onDevice _ (.wakeUp _)
  | .onDevice _ (.timeout _) | .onDevice _ (.request _) | .onDevice _ (.resume _ _)
  | .onDevice _ (.taskEnded _) | .onDevice _ (.cancel _) | .onDevice _ .take
  | .onDevice _ .listVersions | .onDevice _ (.tryVersion _) | .onDevice _ (.work _ _)
  | .onDevice _ .skip | .onDevice _ .beginShutdown | .onDevice _ .finishShutdown
  | .onDevice _ (.shutdownDone _) => isTrue trivial

/-- The devices are as the stages of their attempts say, and a finished search has no task
left. -/
structure Clean (s : Search) : Prop where
  sound : ∀ a ∈ s.attempts, a.Sound
  ended : s.isFinished = true → s.allDone = true

/-- All attempts have ended if each has. -/
theorem allDone_iff (s : Search) : s.allDone = true ↔ ∀ a ∈ s.attempts, a.isDone = true :=
  List.all_eq_true

/-- Where all attempts have ended, none is closing. -/
theorem noneClosing_of_allDone {s : Search} (h : s.allDone = true) : s.NoneClosing := by
  intro a ha
  have hdone := s.allDone_iff.mp h a ha
  cases hstage : a.stage with
  | done => simp [SearchAttempt.isClosing, hstage]
  | _ => exact absurd hdone (by simp [SearchAttempt.isDone, hstage])

/-- A search that begins has created no device. -/
theorem Clean.start (settings : SearchSettings) (candidates : List PyStr) :
    (Search.start settings candidates).Clean := by
  refine ⟨fun a ha => ?_, fun hfinished => ?_⟩
  · obtain ⟨host, _, rfl⟩ := List.mem_map.mp ha
    exact .waiting
  · cases candidates with
    | nil => rfl
    | cons host rest => exact absurd hfinished (by simp [Search.start, isFinished])

/-- An attempt that goes on and is sound keeps the search clean. -/
theorem Clean.put {s : Search} (hs : s.Clean) {i : ℕ} {a a' : SearchAttempt}
    (hi : s.attempts[i]? = some a) (ha' : a'.Sound) (hdone : a.isDone = true → a'.isDone = true) :
    (s.put i a a').Clean := by
  refine ⟨fun b hb => ?_, fun hfinished => ?_⟩
  · rcases List.mem_or_eq_of_mem_set hb with hb | rfl
    · exact hs.sound b hb
    · exact ha'
  · have hall := s.allDone_iff.mp (hs.ended hfinished)
    apply (allDone_iff _).mpr
    intro b hb
    rcases List.mem_or_eq_of_mem_set hb with hb | rfl
    · exact hall b hb
    · exact hdone (hall a (List.mem_of_getElem? hi))

/-- Stopping while no attempt is closing. -/
theorem Clean.stop {s : Search} (hs : s.Clean) (hnone : s.NoneClosing) (ending : TaskEnd) :
    (s.stop ending).Clean := by
  refine ⟨fun b hb => ?_, fun hfinished => absurd hfinished (by simp [Search.stop, isFinished])⟩
  obtain ⟨a, ha, rfl⟩ := List.mem_map.mp hb
  exact SearchAttempt.cancel_sound (hs.sound a ha) (hnone a ha)

/-- **Every step of the search that meets the condition keeps it clean.**  The condition is used
where the search is stopped and where the library's `status` raises. -/
theorem Clean.step {s s' : Search} {a : SearchAction} (hs : s.Clean) (hspared : s.Spared a)
    (h : s.step a = some s') : s'.Clean := by
  cases a with
  | begin i =>
      obtain ⟨a, hi, hrest⟩ := Option.bind_eq_some_iff.mp h
      split at hrest
      · rename_i hstage
        split at hrest
        · obtain rfl := Option.some.inj hrest
          have ha := hs.sound a (List.mem_of_getElem? hi)
          exact hs.put hi (SearchAttempt.begin_sound _ ha hstage)
            (by simp [SearchAttempt.isDone, hstage])
        · exact absurd hrest (by simp)
      · exact absurd hrest (by simp)
  | onDevice i action =>
      obtain ⟨a, hi, hrest⟩ := Option.bind_eq_some_iff.mp h
      split at hrest
      · exact absurd hrest (by simp)
      · rename_i howner
        obtain ⟨a', hstep, hput⟩ := Option.bind_eq_some_iff.mp hrest
        obtain rfl := Option.some.inj hput
        have hsafe : ∀ w ∈ a.device, w.CloseSafe action := by
          intro w _
          cases action with
          | answer reply closeFailure => exact hspared
          | request r => exact absurd rfl howner
          | cancel k => exact absurd rfl howner
          | _ => trivial
        have ha := hs.sound a (List.mem_of_getElem? hi)
        exact hs.put hi (SearchAttempt.onDevice_sound ha (by simpa using howner) hsafe hstep)
          fun hdone => SearchAttempt.onDevice_done hdone hstep
  | wake i =>
      obtain ⟨a, hi, hput⟩ := Option.bind_eq_some_iff.mp h
      obtain rfl := Option.some.inj hput
      have ha := hs.sound a (List.mem_of_getElem? hi)
      exact hs.put hi (SearchAttempt.goOn_sound _ ha)
        fun hdone => by rw [SearchAttempt.goOn_done _ hdone]; exact hdone
  | collect =>
      simp only [Search.step, collect] at h
      split at h
      · rename_i i rest hphase hcompleted
        have hrest : { s with completed := rest }.Clean := ⟨hs.sound, hs.ended⟩
        split at h
        · rename_i ending hend
          split at h
          · rename_i hstops
            obtain rfl := Option.some.inj h
            refine hrest.stop ?_ ending
            rcases Bool.or_eq_true _ _ |>.mp hstops with hfound | hlast
            · apply hspared.resolve_left
              intro hnothing
              have hisNone := hnothing i (by simp [hcompleted]) ending hend
              simp [hisNone] at hfound
            · exact noneClosing_of_allDone (Bool.and_eq_true _ _ |>.mp hlast).2
          · obtain rfl := Option.some.inj h
            exact hrest
        · exact absurd h (by simp)
      · exact absurd h (by simp)
  | gathered =>
      simp only [Search.step, gathered] at h
      split at h
      · split at h
        · rename_i hall
          obtain rfl := Option.some.inj h
          exact ⟨hs.sound, fun _ => hall⟩
        · exact absurd h (by simp)
      · exact absurd h (by simp)
  | cancel =>
      simp only [Search.step, Search.cancel] at h
      split at h
      · obtain rfl := Option.some.inj h
        exact hs.stop hspared _
      · obtain rfl := Option.some.inj h
        exact hs.stop hspared _
      · exact absurd h (by simp)

/-- **A finished search leaves nothing behind.**  For every list of candidates, in every run
that meets the condition, each attempt that has ended has released its device: no connection
is open, the executor is shut down and each registration of the key is released.  When the
search has finished, that is every device it created. -/
theorem leaves_nothing {settings : SearchSettings} {candidates : List PyStr}
    {as : List SearchAction} {s : Search}
    (hrun : Run Search.step Spared (Search.start settings candidates) as s) :
    (s.isFinished = true → ∀ a ∈ s.attempts, ∀ w ∈ a.device, w.Released) ∧
      ∀ a ∈ s.attempts, a.isDone = true → ∀ w ∈ a.device, w.Released := by
  have hs : s.Clean :=
    hrun.invariant Clean (fun _ _ _ hs hok h => hs.step hok h) (Clean.start settings candidates)
  have hdone : ∀ a ∈ s.attempts, a.isDone = true → ∀ w ∈ a.device, w.Released := by
    intro a ha hdone w hw
    cases hs.sound a ha with
    | done hsettled => exact (hsettled w hw).released
    | _ => exact absurd hdone (by simp [SearchAttempt.isDone])
  refine ⟨fun hfinished a ha => ?_, hdone⟩
  exact hdone a ha (s.allDone_iff.mp (hs.ended hfinished) a ha)

/-- A search for the device of `exampleConfig` at two addresses. -/
def exampleSearch : Search :=
  Search.start
    { deviceId := exampleConfig.deviceId
      localKey := exampleConfig.localKey
      protocolVersion := exampleConfig.protocolVersion }
    [exampleConfig.host, py "192.168.1.30"]

/-- Attempt `i` connects, and the library answers `reply`. -/
def connectsTo (i : Nat) (reply : Reply) : List SearchAction :=
  [.begin i, .onDevice i .take, .onDevice i .listVersions, .onDevice i (.tryVersion none),
    .onDevice i (.answer reply none), .onDevice i (.resume 0 0)]

/-- Attempt `i` closes its device and ends. -/
def closesDevice (i : Nat) : List SearchAction :=
  [.onDevice i (.work (statusReply true) 0), .onDevice i (.resume 0 0),
    .onDevice i .beginShutdown, .onDevice i .finishShutdown, .onDevice i (.shutdownDone 1)]

/-- A host that is not reachable after all. -/
def unreachableReply : Reply where
  outcome := .ok (.obj [(py "Err", .str (py "901"))])
  socket := false

/-- The first address has the device, the second does not answer and is closed before the
search takes up the first. -/
def sparedActions : List SearchAction :=
  connectsTo 0 (statusReply true) ++ closesDevice 0 ++ connectsTo 1 unreachableReply ++
    closesDevice 1 ++ [.collect, .gathered]

/-- Of two addresses the first has the device, the second does not answer.  Both devices are
released when the search has finished. -/
theorem leaves_nothing_after_find :
    ∃ s : Search, s.isFinished = true ∧ (s.attempts.map fun a => a.device.isSome) = [true, true] ∧
      ((s.isFinished = true → ∀ a ∈ s.attempts, ∀ w ∈ a.device, w.Released) ∧
        ∀ a ∈ s.attempts, a.isDone = true → ∀ w ∈ a.device, w.Released) := by
  let execution := exec Search.step exampleSearch sparedActions
  obtain ⟨s, hs⟩ := Option.isSome_iff_exists.mp (show execution.isSome = true by decide +kernel)
  have hrun : Run Search.step Spared exampleSearch sparedActions s :=
    Run.of_meets hs (by decide +kernel)
  have hfacts : ∀ s ∈ execution, s.isFinished = true ∧
      (s.attempts.map fun a => a.device.isSome) = [true, true] := by decide +kernel
  obtain ⟨hfinished, hdevices⟩ := hfacts s hs
  exact ⟨s, hfinished, hdevices, leaves_nothing hrun⟩

/-- As before, but the search takes up the first attempt while the second awaits the worker's
drop in its own `async_close`. -/
def cutActions : List SearchAction :=
  connectsTo 0 (statusReply true) ++ closesDevice 0 ++ connectsTo 1 unreachableReply ++
    [.collect, .wake 1, .gathered]

/-- The search found the device and has finished, but the device of the other address keeps
its executor and its registration of the key. -/
theorem cut_close_leaks :
    ∃ s : Search, Run Search.step Anything exampleSearch cutActions s ∧ s.isFinished = true ∧
      ∃ a ∈ s.attempts, ∃ w ∈ a.device, ¬ w.Released ∧ w.dev.closed = true ∧
        w.executor = .accepting ∧ w.registered = [exampleConfig.localKey] ∧ w.released = [] := by
  let execution := exec Search.step exampleSearch cutActions
  obtain ⟨s, hs⟩ := Option.isSome_iff_exists.mp (show execution.isSome = true by decide +kernel)
  have hfacts : ∀ s ∈ execution, s.isFinished = true ∧ ∃ a ∈ s.attempts, ∃ w ∈ a.device,
      w.dev.closed = true ∧ w.executor = .accepting ∧
        w.registered = [exampleConfig.localKey] ∧ w.released = [] := by decide +kernel
  obtain ⟨hfinished, a, ha, w, hw, hclosed, hexec, hkeys⟩ := hfacts s hs
  have hleak : ¬ w.Released := fun h => absurd (hexec.symm.trans h.executor) (by simp)
  exact ⟨s, Run.of_exec hs, hfinished, a, ha, w, hw, hleak, hclosed, hexec, hkeys⟩

end Search

end Lan
