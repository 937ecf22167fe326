import HaBirdie.LanSearchCleanup

/-!
# What a network search returns

Each address has an outcome: its port is closed, or an attempt there finds that it accepts the
key, or ends with a `LanError` or with another exception.  An attempt contains a `LanError`
only.  So the search returns what it should exactly if no attempt that it takes up ended with
another exception (`finds_device_iff`); one that did ends the search, also when another
address accepts the key.

The search takes up the attempts in the order in which they end.  As long as nothing cancels an
attempt, it ends as its host's outcome says, because `async_close` returns (`Standing`).  While the
search goes on, every attempt that has ended was taken up without a result or is still to be
taken up (`Searching`).
-/

namespace Lan

open Python StepRuns

/-! ## Addresses and their outcomes -/

/-- What becomes of a connection attempt at an address. -/
inductive HostOutcome
  | portClosed
  | acceptsKey
  | lanError
  | otherError
deriving DecidableEq

/-- An address with its outcome. -/
structure Host where
  address : PyStr
  outcome : HostOutcome

/-- The address accepts a TCP connection. -/
def Host.opensPort (h : Host) : Bool := h.outcome ≠ .portClosed

/-- `async_open_ports`, given what `accepts` returned for each address. -/
def asyncOpenPorts (addresses : List PyStr) (results : List Bool) : List PyStr :=
  ((addresses.zip results).filter Prod.snd).map Prod.fst

/-- The addresses that accept connections, in order. -/
def candidates (hosts : List Host) : List Host := hosts.filter Host.opensPort

/-- If `accepts` returns for each address whether its port is open, the candidates are the hosts
that open it, in their order. -/
theorem asyncOpenPorts_eq (hosts : List Host) :
    asyncOpenPorts (hosts.map Host.address) (hosts.map Host.opensPort) =
      (candidates hosts).map Host.address := by
  induction hosts with
  | nil => rfl
  | cons h hosts ih =>
      unfold asyncOpenPorts candidates at ih ⊢
      cases hopen : h.opensPort with
      | true => simpa [hopen] using ih
      | false => simpa [hopen] using ih

/-- The outcome of an address: where `DeviceConfig` refuses the settings, it raises. -/
def SearchSettings.comesTo (s : SearchSettings) (h : Host) : HostOutcome :=
  match h.outcome with
  | .portClosed => .portClosed
  | outcome =>
      match DeviceConfig.make s.deviceId h.address s.localKey s.protocolVersion s.port with
      | .error _ => .otherError
      | .ok _ => outcome

/-- An address whose port is closed comes to nothing, whatever the settings. -/
theorem comesTo_closed {s : SearchSettings} {h : Host} (hport : h.opensPort = false) :
    s.comesTo h = .portClosed := by
  have hclosed : h.outcome = .portClosed := by simpa [Host.opensPort] using hport
  unfold SearchSettings.comesTo
  rw [hclosed]

/-- Where `DeviceConfig` refuses the settings, every open address ends with another exception. -/
theorem comesTo_refused {s : SearchSettings} {h : Host} {e : PyException}
    (hport : h.opensPort = true)
    (hmake : DeviceConfig.make s.deviceId h.address s.localKey s.protocolVersion s.port =
      .error e) : s.comesTo h = .otherError := by
  unfold SearchSettings.comesTo
  cases houtcome : h.outcome with
  | portClosed => exact absurd houtcome (by simpa [Host.opensPort] using hport)
  | _ => simp [hmake]

/-- **The search found the device if it is there**: without an address that accepts the key it
returns `None`, and else a device at such an address. -/
structure Finds (s : SearchSettings) (hosts : List Host) (ending : TaskEnd) : Prop where
  nothing : (∀ h ∈ hosts, s.comesTo h ≠ .acceptsKey) → ending = .returned none
  found : (∃ h ∈ hosts, s.comesTo h = .acceptsKey) →
    ∃ f, ending = .returned (some f) ∧ ∃ h ∈ hosts, h.address = f.host ∧
      s.comesTo h = .acceptsKey

/-- `async_connect` ended as the outcome says, unless it was cancelled. -/
def Ending.agrees (outcome : HostOutcome) : Ending → Bool
  | .returned _ => outcome = .acceptsKey
  | .raised (.lan _) => outcome = .lanError
  | .raised (.foreign _) => outcome = .otherError
  | .cancelled => true

/-- A call of `async_connect` that has ended agrees with the outcome. -/
def Call.connectAgrees (outcome : HostOutcome) : Call → Bool
  | .done .connect e => e.agrees outcome
  | _ => true

/-- A task of the search ended as the outcome of its host says. -/
def EndsAs (outcome : HostOutcome) (host : PyStr) : TaskEnd → Prop
  | .returned (some f) => outcome = .acceptsKey ∧ f.host = host
  | .returned none => outcome = .lanError
  | .raised _ => outcome = .otherError
  | .cancelled => False

/-- **An attempt whose close returns ends as its host's outcome says.**  Cancelled attempts are left
out, since they say nothing about their host. -/
theorem ending_endsAs {outcome : HostOutcome} {e : Ending} (hagrees : e.agrees outcome = true)
    (he : e ≠ .cancelled) (configured host : PyStr) (w : World Unit) :
    EndsAs outcome host
      (SearchAttempt.ending configured host w e.leaving (.returned none)) := by
  cases e with
  | returned dps => exact ⟨of_decide_eq_true hagrees, rfl⟩
  | raised r =>
      cases r with
      | lan e =>
          have houtcome : outcome = .lanError := of_decide_eq_true hagrees
          exact houtcome
      | foreign e =>
          have houtcome : outcome = .otherError := of_decide_eq_true hagrees
          exact houtcome
  | cancelled => exact absurd rfl he

/-! ## The device of an attempt that is not cancelled -/

namespace World

variable {γ : Type} {cb : Callbacks γ} {w w' : World γ} {a : Action}

/-- `async_connect` always ends when its open has. -/
theorem connecting_ends {now : ℚ} {d : Device} {c : γ} {value : JobValue} {t : Turn γ Call}
    (h : callResume cb now d c .connecting value = some t) :
    ∃ e, t.pc = .done .connect e ∧ e ≠ .cancelled := by
  cases value with
  | opened version dps =>
      rcases callResume_opened h with ⟨dps', hpc⟩ | ⟨e, hpc⟩
      · exact ⟨_, hpc, by simp⟩
      · exact ⟨_, hpc, by simp⟩
  | raised r =>
      obtain rfl := Option.some.inj h
      exact ⟨_, rfl, by simp⟩
  | _ => exact absurd h (by simp [callResume])

/-- The jobs are tracked, drops return, and `start` was not called. -/
structure Attended (w : World γ) : Prop where
  tracked : w.Tracked
  drained : w.Drained
  loop : w.loop = .notStarted

/-- Every step but a request keeps it, and the one request that an attempt makes, to close, does
too. -/
theorem Attended.step (hw : w.Attended) (hstart : a ≠ .start)
    (hrequest : ∀ r, a = .request r → r = .close ∧ w.dev.closed = false)
    (h : w.step cb a = some w') : w'.Attended := by
  refine ⟨hw.tracked.step h, hw.drained.step h, ?_⟩
  by_cases hclose : a = .request .close
  · subst hclose
    obtain rfl := Option.some.inj h
    have hopen := (hrequest .close rfl).2
    simp [request, World.close, hopen, hw.loop]
  · refine notStarted_step hstart (fun r hr => ?_) hw.loop h
    obtain ⟨rfl, _⟩ := hrequest r hr
    exact hclose hr

/-- `async_connect` is the only call, and it has not ended or ended with `pc`. -/
structure ConnectsAlone (w : World γ) (pc : Call) : Prop where
  attended : w.Attended
  opened : w.dev.closed = false
  accepting : w.executor = .accepting
  calls : w.calls = [pc]

/-- `async_connect` has ended, and `async_close` has not. -/
structure ClosesAfter (w : World γ) (e : Ending) : Prop where
  attended : w.Attended
  calls : ∃ c, w.calls = [.done .connect e, c] ∧ (c = .closeDropping ∨ c = .closeShutdown)

/-- A device just created, with `async_connect` called, has that one call. -/
theorem ConnectsAlone.init (config : DeviceConfig) (timings : Timings) (hint : Option PyStr)
    (client : γ) :
    ((World.init config timings hint client).request .connect).ConnectsAlone .connecting := by
  have hstep : (World.init config timings hint client).step (Callbacks.none γ)
      (.request .connect) = some ((World.init config timings hint client).request .connect) := rfl
  have hdrained : (World.init config timings hint client).Drained :=
    ⟨fun h => absurd h (by simp [World.init]), by simp [World.init]⟩
  exact ⟨⟨(Tracked.init config timings hint client).step hstep, hdrained.step hstep, rfl⟩, rfl,
    rfl, rfl⟩

/-- **`async_connect` goes on or ends**, as long as only the device itself moves.  There is no
other call and no background task at such a device. -/
theorem ConnectsAlone.step (hw : w.ConnectsAlone .connecting) (howner : a.isOwners = false)
    (h : w.step cb a = some w') :
    w'.ConnectsAlone .connecting ∨ (w.actsOn a).isSome = true ∧
      ∃ e, e ≠ .cancelled ∧ w'.ConnectsAlone (.done .connect e) := by
  obtain ⟨hstart, hrequest⟩ := Action.not_owners howner
  have hat : ∀ {i : Nat} {c : Call}, w.calls[i]? = some c → i = 0 ∧ c = .connecting := by
    intro i c hc
    rw [hw.calls] at hc
    cases i with
    | zero => exact ⟨rfl, (Option.some.inj hc).symm⟩
    | succ i => exact absurd hc (by simp)
  have hattended := hw.attended.step hstart (fun r hr => absurd hr (hrequest r)) h
  have hopen := (closed_step h (hrequest _)).trans hw.opened
  have haccepting : w'.executor = .accepting := by
    apply accepting_step h hw.accepting
    intro c hc
    rw [hw.calls] at hc
    obtain rfl := List.mem_singleton.mp hc
    simp
  have hsame : w'.calls = w.calls → w'.ConnectsAlone .connecting := fun hcalls =>
    ⟨hattended, hopen, haccepting, hcalls.trans hw.calls⟩
  rcases step_moves h with hmove | hmove
  · exact Or.inl (hsame hmove.keeps.calls)
  cases hmove with
  | begun => exact Or.inl (hsame (by simp))
  | woken => exact Or.inl (hsame (by simp))
  | loopResumed => exact Or.inl (hsame (by simp))
  | @callResumed i n now r pc t hr hx hpc ht =>
      obtain ⟨rfl, rfl⟩ := hat hpc
      obtain ⟨e, hpc', he⟩ := connecting_ends ht
      let w₀ : World γ := { w with results := w.results.eraseIdx i }
      obtain ⟨pc', hcalls, _, hends⟩ := callGoes_spec w₀ 0 t
      rcases hends with rfl | ⟨_, hrefused⟩
      · refine Or.inr ⟨by simp [actsOn, hr, hx], e, he, hattended, hopen, haccepting, ?_⟩
        rw [hcalls, hpc', show w₀.calls = [.connecting] from hw.calls]
        rfl
      · rw [show w₀.executor = .accepting from hw.accepting] at hrefused
        exact absurd hrefused (by simp [Executor.accepts])
  | forgotten => exact Or.inl (hsame rfl)
  | taskEnded hcall => exact absurd (hat hcall).2 (by simp)
  | shutdownBegun => exact Or.inl (hsame rfl)
  | shutdownFinished => exact Or.inl (hsame rfl)
  | keyReleased hcall => exact absurd (hat hcall).2 (by simp)
  | _ => exact absurd howner (by simp [Action.isOwners])

/-- After `async_connect` the device is closed. -/
theorem ConnectsAlone.close {e : Ending} (hw : w.ConnectsAlone (.done .connect e)) :
    (w.request .close).ClosesAfter e := by
  have hstep : w.step (Callbacks.none γ) (.request .close) = some (w.request .close) := rfl
  have hclose : w.request .close = w.marked.newCall .closeDropping := by
    simp [request, World.close, marked, hw.opened, hw.attended.loop]
  refine ⟨hw.attended.step (by simp) (fun r hr => ?_) hstep, .closeDropping, ?_, Or.inl rfl⟩
  · exact ⟨(Action.request.inj hr).symm, hw.opened⟩
  · obtain ⟨pc, hnew, _, hpc⟩ := newCall_spec w.marked .closeDropping
    rcases hpc with rfl | ⟨_, hrefuse⟩
    · rw [hclose, hnew, show w.marked.calls = w.calls from rfl, hw.calls]
      rfl
    · rw [show w.marked.executor = .accepting from hw.accepting] at hrefuse
      exact absurd hrefuse (by simp [Executor.accepts])

/-- **A close that is not cancelled goes on or returns.**  No task was started, so the close has
only its drop and the shutdown to wait for. -/
theorem ClosesAfter.step {e : Ending} (hw : w.ClosesAfter e) (howner : a.isOwners = false)
    (h : w.step cb a = some w') :
    w'.ClosesAfter e ∨ (w.actsOn a).isSome = true ∧
      w'.calls = [.done .connect e, .done .close (.returned none)] := by
  obtain ⟨hstart, hrequest⟩ := Action.not_owners howner
  obtain ⟨c, hcalls, hc⟩ := hw.calls
  have hat : ∀ {i : Nat} {c' : Call}, w.calls[i]? = some c' → c'.isDone = false →
      i = 1 ∧ c' = c := by
    intro i c' hc' hdone
    rw [hcalls] at hc'
    cases i with
    | zero =>
        obtain rfl : Call.done .connect e = c' := Option.some.inj hc'
        exact absurd hdone (by simp [Call.isDone])
    | succ i =>
        cases i with
        | zero => exact ⟨rfl, (Option.some.inj hc').symm⟩
        | succ i => exact absurd hc' (by simp)
  have hattended := hw.attended.step hstart (fun r hr => absurd hr (hrequest r)) h
  have hsame : w'.calls = w.calls → w'.ClosesAfter e := fun hsame =>
    ⟨hattended, c, hsame.trans hcalls, hc⟩
  rcases step_moves h with hmove | hmove
  · exact Or.inl (hsame hmove.keeps.calls)
  cases hmove with
  | begun => exact Or.inl (hsame (by simp))
  | woken => exact Or.inl (hsame (by simp))
  | loopResumed => exact Or.inl (hsame (by simp))
  | @callResumed i n now r pc t hr hx hpc ht =>
      obtain ⟨job, hjob⟩ := callResume_awaits ht
      have hdone : pc.isDone = false := by
        cases pc with
        | done => exact absurd hjob (by simp [Call.awaits])
        | _ => rfl
      obtain ⟨rfl, rfl⟩ := hat hpc hdone
      rcases hc with rfl | rfl
      · obtain ⟨hawaits, _, _⟩ := hw.attended.tracked.of_result hr (by rw [hx]; simp)
        have hdrop : r.job = .wDrop := by
          rw [hx] at hawaits
          simpa [awaits, hpc, Call.awaits] using hawaits.symm
        have hvalue := hw.attended.drained.drops r (List.mem_of_getElem? hr) (by rw [hx]; simp)
          hdrop
        rw [hvalue] at ht
        obtain rfl := Option.some.inj ht
        refine Or.inl ⟨hattended, .closeShutdown, ?_, Or.inr rfl⟩
        simp [callGoes, Call.awaits, hcalls]
      · exact absurd hjob (by simp [Call.awaits])
  | forgotten => exact Or.inl (hsame rfl)
  | taskEnded hcall =>
      obtain ⟨_, rfl⟩ := hat hcall rfl
      exact absurd hc (by simp)
  | shutdownBegun => exact Or.inl (hsame rfl)
  | shutdownFinished => exact Or.inl (hsame rfl)
  | keyReleased hcall =>
      obtain ⟨rfl, _⟩ := hat hcall rfl
      exact Or.inr ⟨rfl, by simp [hcalls]⟩
  | _ => exact absurd howner (by simp [Action.isOwners])

end World

/-! ## Attempts that are not cancelled -/

namespace SearchAttempt

/-- Where the attempt at a host stands, if nothing has cancelled it. -/
inductive Standing (settings : SearchSettings) (h : Host) : SearchAttempt → Prop
  | waiting : Standing settings h ⟨h.address, none, .waiting⟩
  | connecting {w : World Unit} (hw : w.ConnectsAlone .connecting) :
      Standing settings h ⟨h.address, some w, .connecting⟩
  | closing {w : World Unit} {e : Ending} (hw : w.ClosesAfter e) (he : e ≠ .cancelled) :
      Standing settings h ⟨h.address, some w, .closing e.leaving⟩
  | ended {device : Option (World Unit)} {ending : TaskEnd}
      (hend : EndsAs (settings.comesTo h) h.address ending) :
      Standing settings h ⟨h.address, device, .done ending⟩

variable {settings : SearchSettings} {h : Host} {a a' : SearchAttempt}

/-- The semaphore lets in an attempt that waits. -/
theorem Standing.begin (ha : Standing settings h a) (hport : h.opensPort = true)
    (hstage : a.stage = .waiting) : Standing settings h (a.begin settings) := by
  cases ha with
  | waiting =>
      unfold SearchAttempt.begin
      cases hmake : DeviceConfig.make settings.deviceId h.address settings.localKey
          settings.protocolVersion settings.port with
      | error e => exact .ended (comesTo_refused hport hmake)
      | ok config => exact .connecting (World.ConnectsAlone.init config settings.timings none ())
  | _ => exact absurd hstage (by simp)

/-- An attempt that was not cancelled has gone on where its call ended. -/
theorem Standing.goOn (ha : Standing settings h a) (configured : PyStr) :
    a.goOn configured = a := by
  cases ha with
  | waiting => rfl
  | connecting hw => simp [SearchAttempt.goOn, hw.calls]
  | closing hw he =>
      obtain ⟨c, hcalls, hc⟩ := hw.calls
      rcases hc with rfl | rfl
      · simp [SearchAttempt.goOn, hcalls]
      · simp [SearchAttempt.goOn, hcalls]
  | ended hend => exact goOn_done configured rfl

/-- **A step of its device** takes an attempt on, to an end that agrees with the host.  The cases
are the places of the attempt: connecting, closing or done. -/
theorem Standing.onDevice {configured : PyStr} {action : Action} (ha : Standing settings h a)
    (howner : action.isOwners = false)
    (hagrees : ∀ w ∈ a.device, ∀ c ∈ (w.calls[0]? : Option Call),
      c.connectAgrees (settings.comesTo h) = true)
    (hstep : a.onDevice configured action = some a') : Standing settings h a' := by
  obtain ⟨w, w', hdevice, hw', rfl⟩ := onDevice_spec hstep
  have hkeep : Standing settings h { a with device := some w' } →
      Standing settings h (if (w.actsOn action).isSome then
        { a with device := some w' }.goOn configured else { a with device := some w' }) := by
    intro hstanding
    split
    · rw [hstanding.goOn]
      exact hstanding
    · exact hstanding
  cases ha with
  | waiting => exact absurd hdevice (by simp)
  | connecting hw =>
      obtain rfl := Option.some.inj hdevice
      rcases hw.step howner hw' with hw' | ⟨hacts, e, he, hw'⟩
      · exact hkeep (.connecting hw')
      · rw [if_pos hacts]
        simpa [SearchAttempt.goOn, hw'.calls] using Standing.closing hw'.close he
  | @closing w₀ e hw he =>
      obtain rfl := Option.some.inj hdevice
      rcases hw.step howner hw' with hw' | ⟨hacts, hcalls⟩
      · exact hkeep (.closing hw' he)
      · rw [if_pos hacts]
        obtain ⟨c, hbefore, _⟩ := hw.calls
        have hagrees' : e.agrees (settings.comesTo h) = true :=
          hagrees w₀ rfl (.done .connect e) (by rw [hbefore]; rfl)
        simpa [SearchAttempt.goOn, hcalls] using
          Standing.ended (ending_endsAs hagrees' he configured h.address w')
  | ended hend => exact hkeep (.ended hend)

end SearchAttempt

/-! ## The search -/

namespace Search

open SearchAttempt (Standing)

/-- `async_find_device` for the addresses. -/
def find (settings : SearchSettings) (hosts : List Host) : Search :=
  start settings (asyncOpenPorts (hosts.map Host.address) (hosts.map Host.opensPort))

/-- Each `async_connect` that has ended agrees with the outcome of its host. -/
def AnswersAs (cs : List Host) (s : Search) : Prop :=
  ∀ p ∈ s.attempts.zip cs, ∀ w ∈ p.1.device, ∀ c ∈ (w.calls[0]? : Option Call),
    c.connectAgrees (s.settings.comesTo p.2) = true

/-- The search is not cancelled, and the hosts answer as their outcomes say. -/
def Undisturbed (cs : List Host) (s : Search) (a : SearchAction) : Prop :=
  s.AnswersAs cs ∧ match a with
    | .cancel => False
    | _ => True

/-- The outcome of the host whose attempt is taken up next. -/
def takesUp (cs : List Host) (s : Search) : Option HostOutcome :=
  s.completed.head?.bind fun i => (cs[i]?).map s.settings.comesTo

/-- No attempt that was taken up had ended with another exception than a `LanError`. -/
def Contained (cs : List Host) (past : Search → SearchAction → Prop) : Prop :=
  ∀ u, past u .collect → u.takesUp cs ≠ some .otherError

/-- One more step keeps it contained, unless it takes up an attempt that ended with another
exception. -/
theorem contained_since {cs : List Host} {past : Search → SearchAction → Prop} {s : Search}
    {a : SearchAction} :
    Contained cs (since past s a) ↔
      Contained cs past ∧ (a = .collect → s.takesUp cs ≠ some .otherError) := by
  constructor
  · intro h
    refine ⟨fun u hu => h u (Or.inl hu), ?_⟩
    intro heq
    obtain rfl := heq
    exact h s (Or.inr ⟨rfl, rfl⟩)
  · intro hparts u hcases
    obtain ⟨hpast, hlast⟩ := hparts
    rcases hcases with hu | ⟨rfl, ha⟩
    · exact hpast u hu
    · exact hlast ha.symm

/-- While the search awaits the next attempt: each attempt stands as its host answers, and has
been taken up without a result if it has ended and is not to be taken up yet. -/
structure Searching (settings : SearchSettings) (cs : List Host) (s : Search) : Prop where
  same : s.settings = settings
  length : s.attempts.length = cs.length
  standing : ∀ (i : Nat) h a, cs[i]? = some h → s.attempts[i]? = some a → Standing settings h a
  completed : ∀ i ∈ s.completed, ∃ a, s.attempts[i]? = some a ∧ a.isDone = true
  accounted : ∀ (i : Nat) a, s.attempts[i]? = some a → a.isDone = true →
    i ∈ s.completed ∨ a.stage = .done (.returned none)
  going : s.completed = [] → s.allDone = false

/-- What the search is going to return, or has returned: it found the device if it is there, or
an attempt ended with another exception. -/
def Verdict (settings : SearchSettings) (hosts : List Host)
    (past : Search → SearchAction → Prop) (ending : TaskEnd) : Prop :=
  Contained (candidates hosts) past ∧ Finds settings hosts ending ∨
    ¬ Contained (candidates hosts) past ∧ ∃ r, ending = .raised r

/-- What holds of a search that was not cancelled. -/
def Progress (settings : SearchSettings) (hosts : List Host)
    (past : Search → SearchAction → Prop) (s : Search) : Prop :=
  match s.phase with
  | .searching => Searching settings (candidates hosts) s ∧ Contained (candidates hosts) past
  | .stopping ending | .finished ending => Verdict settings hosts past ending

variable {settings : SearchSettings} {hosts cs : List Host} {s s' : Search}

/-- Only addresses that accept connections can accept the key. -/
theorem mem_candidates {h : Host} (hh : h ∈ hosts) (haccepts : settings.comesTo h = .acceptsKey) :
    h ∈ candidates hosts := by
  refine List.mem_filter.mpr ⟨hh, ?_⟩
  by_contra hport
  rw [comesTo_closed (Bool.eq_false_of_not_eq_true hport)] at haccepts
  exact absurd haccepts (by simp)

/-- Returning `None` is right where no candidate accepts the key. -/
theorem finds_nothing (hnone : ∀ h ∈ candidates hosts, settings.comesTo h ≠ .acceptsKey) :
    Finds settings hosts (.returned none) := by
  refine ⟨fun _ => rfl, ?_⟩
  intro hparts
  obtain ⟨h, hh, haccepts⟩ := hparts
  exact absurd haccepts (hnone h (mem_candidates hh haccepts))

/-- Returning a candidate that accepts the key is right. -/
theorem finds_device {h : Host} {f : FoundDevice} (hh : h ∈ candidates hosts)
    (haccepts : settings.comesTo h = .acceptsKey) (hhost : f.host = h.address) :
    Finds settings hosts (.returned (some f)) := by
  have hmem := List.mem_of_mem_filter hh
  exact ⟨fun hnone => absurd haccepts (hnone h hmem), fun _ =>
    ⟨f, rfl, h, hmem, hhost.symm, haccepts⟩⟩

/-- A search that raises has not found what it should: neither the device nor that there is
none. -/
theorem not_finds_raised (r : Raised) : ¬ Finds settings hosts (.raised r) := by
  intro hfinds
  by_cases hthere : ∃ h ∈ hosts, settings.comesTo h = .acceptsKey
  · obtain ⟨f, hf, _⟩ := hfinds.found hthere
    exact absurd hf (by simp)
  · have hnothing := hfinds.nothing fun h hh haccepts => hthere ⟨h, hh, haccepts⟩
    exact absurd hnothing (by simp)

/-- The verdict says whether the search found the device if it is there. -/
theorem Verdict.finds_iff {past : Search → SearchAction → Prop} {ending : TaskEnd}
    (hv : Verdict settings hosts past ending) :
    Finds settings hosts ending ↔ Contained (candidates hosts) past := by
  rcases hv with ⟨hcontained, hfinds⟩ | ⟨hnot, r, rfl⟩
  · exact iff_of_true hfinds hcontained
  · exact iff_of_false (not_finds_raised r) hnot

/-- A search that begins has taken up nothing; without candidates it is over, and rightly with
`None`. -/
theorem Progress.start (settings : SearchSettings) (hosts : List Host) :
    Progress settings hosts (fun _ _ => False) (find settings hosts) := by
  unfold Progress find Search.start
  rw [asyncOpenPorts_eq]
  have hcontained : Contained (candidates hosts) fun _ _ => False := fun _ hu => absurd hu id
  cases hempty : candidates hosts with
  | nil =>
      refine Or.inl ⟨hempty ▸ hcontained, finds_nothing ?_⟩
      rw [hempty]
      simp
  | cons h rest =>
      refine ⟨⟨rfl, by simp, ?_, by simp, ?_, ?_⟩, fun _ hu => absurd hu id⟩
      · intro i h' a hh' ha
        simp only [List.map_map, List.getElem?_map, hh', Option.map_some, Option.some.injEq] at ha
        subst ha
        exact .waiting
      · intro i a ha hdone
        obtain ⟨b, hb, rfl⟩ := List.mem_map.mp (List.mem_of_getElem? ha)
        exact absurd hdone (by simp [SearchAttempt.isDone])
      · intro _
        simp [allDone, SearchAttempt.isDone]

/-- An attempt moves, and stands as its host answers.  The other attempts are as before, and one
that has ended moves no more. -/
theorem Searching.put (hs : Searching settings cs s) {i : Nat} {a a' : SearchAttempt}
    (hi : s.attempts[i]? = some a) (hstanding : ∀ h, cs[i]? = some h → Standing settings h a')
    (hdone : a.isDone = true → a'.stage = a.stage) : Searching settings cs (s.put i a a') := by
  have hlt : i < s.attempts.length := (List.getElem?_eq_some_iff.mp hi).1
  have hkept : a.isDone = true → a'.isDone = true := by
    intro h
    simpa [SearchAttempt.isDone, hdone h] using h
  have hself : (s.put i a a').attempts[i]? = some a' := List.getElem?_set_self hlt
  have hother : ∀ {j : Nat}, i ≠ j → (s.put i a a').attempts[j]? = s.attempts[j]? :=
    fun hij => List.getElem?_set_ne hij
  have hcompleted : ∀ j ∈ s.completed, j ∈ (s.put i a a').completed := by
    intro j hj
    unfold Search.put
    dsimp only
    split
    · exact List.mem_append_left _ hj
    · exact hj
  refine ⟨hs.same, ?_, fun j h b hh hb => ?_, fun j hj => ?_, fun j b hb hbdone => ?_,
    fun hnil => ?_⟩
  · exact (List.length_set ..).trans hs.length
  · by_cases hij : i = j
    · subst hij
      obtain rfl := Option.some.inj (hself.symm.trans hb)
      exact hstanding h hh
    · rw [hother hij] at hb
      exact hs.standing j h b hh hb
  · have hcases : j ∈ s.completed ∨ j = i ∧ a'.isDone = true := by
      unfold Search.put at hj
      dsimp only at hj
      split at hj
      · rename_i hends
        rcases List.mem_append.mp hj with hj | hj
        · exact Or.inl hj
        · exact Or.inr ⟨List.mem_singleton.mp hj, (Bool.and_eq_true _ _ |>.mp hends).2⟩
      · exact Or.inl hj
    rcases hcases with hj | ⟨rfl, ha'⟩
    · obtain ⟨b, hb, hbdone⟩ := hs.completed j hj
      by_cases hij : i = j
      · subst hij
        obtain rfl := Option.some.inj (hi.symm.trans hb)
        exact ⟨a', hself, hkept hbdone⟩
      · exact ⟨b, (hother hij).trans hb, hbdone⟩
    · exact ⟨a', hself, ha'⟩
  · by_cases hij : i = j
    · subst hij
      obtain rfl := Option.some.inj (hself.symm.trans hb)
      cases hadone : a.isDone with
      | true =>
          rcases hs.accounted i a hi hadone with hmem | hstage
          · exact Or.inl (hcompleted i hmem)
          · exact Or.inr ((hdone hadone).trans hstage)
      | false =>
          apply Or.inl
          simp [Search.put, hadone, hbdone]
    · rw [hother hij] at hb
      exact (hs.accounted j b hb hbdone).imp_left (hcompleted j)
  · have hnil' : s.completed = [] := by
      cases hold : s.completed with
      | nil => rfl
      | cons j rest =>
          have hmem := hcompleted j (by rw [hold]; exact List.mem_cons_self)
          rw [hnil] at hmem
          exact absurd hmem (by simp)
    have hgoing := hs.going hnil'
    by_contra hall
    have hall' := (allDone_iff _).mp (Bool.eq_true_of_not_eq_false hall)
    refine absurd ((allDone_iff s).mpr fun b hb => ?_) (by simp [hgoing])
    obtain ⟨j, hj⟩ := List.getElem?_of_mem hb
    by_cases hij : i = j
    · subst hij
      obtain rfl := Option.some.inj (hi.symm.trans hj)
      have ha'done := hall' a' (List.mem_of_getElem? hself)
      cases hadone : a.isDone with
      | true => rfl
      | false => exact absurd hnil (by simp [Search.put, ha'done, hadone])
    · exact hall' b (List.mem_of_getElem? ((hother hij).trans hj))

/-- An attempt that has ended so stands there. -/
theorem stage_of_endOf {i : Nat} {a : SearchAttempt} {ending : TaskEnd}
    (hend : s.endOf i = some ending) (ha : s.attempts[i]? = some a) : a.stage = .done ending := by
  unfold endOf at hend
  rw [ha] at hend
  dsimp only [Option.bind_some] at hend
  split at hend
  · rename_i hstage
    rw [hstage, Option.some.inj hend]
  · exact absurd hend (by simp)

/-- How the attempt that is taken up has ended. -/
theorem Searching.taken (hs : Searching settings cs s) {i : Nat} {rest : List Nat}
    (hcompleted : s.completed = i :: rest) :
    ∃ h ending, cs[i]? = some h ∧ s.endOf i = some ending ∧
      EndsAs (settings.comesTo h) h.address ending ∧
      s.takesUp cs = some (settings.comesTo h) := by
  obtain ⟨a, hi, hdone⟩ := hs.completed i (by rw [hcompleted]; exact List.mem_cons_self)
  have hlt : i < cs.length := hs.length ▸ (List.getElem?_eq_some_iff.mp hi).1
  obtain ⟨h, hh⟩ : ∃ h, cs[i]? = some h := ⟨_, List.getElem?_eq_getElem hlt⟩
  cases hs.standing i h a hh hi with
  | @ended device ending hend =>
      refine ⟨h, ending, hh, by simp [endOf, hi], hend, ?_⟩
      simp [takesUp, hcompleted, hh, hs.same]
  | _ => exact absurd hdone (by simp [SearchAttempt.isDone])

/-- After the last attempt without a result no host accepts the key.  Had another one found the
device, the search would have stopped with it. -/
theorem Searching.none_accepts (hs : Searching settings cs s) {i : Nat}
    (hcompleted : s.completed = [i]) (hend : s.endOf i = some (.returned none))
    (hall : s.allDone = true) : ∀ h ∈ cs, settings.comesTo h ≠ .acceptsKey := by
  intro h hh haccepts
  obtain ⟨j, hj⟩ := List.getElem?_of_mem hh
  have hlt : j < s.attempts.length := hs.length.symm ▸ (List.getElem?_eq_some_iff.mp hj).1
  obtain ⟨a, ha⟩ : ∃ a, s.attempts[j]? = some a := ⟨_, List.getElem?_eq_getElem hlt⟩
  have hdone := (allDone_iff s).mp hall a (List.mem_of_getElem? ha)
  have hstage : a.stage = .done (.returned none) := by
    rcases hs.accounted j a ha hdone with hmem | hstage
    · rw [hcompleted] at hmem
      obtain rfl := List.mem_singleton.mp hmem
      exact stage_of_endOf hend ha
    · exact hstage
  cases hs.standing j h a hj ha with
  | ended hend =>
      obtain rfl := Stage.done.inj hstage
      exact absurd (haccepts.symm.trans hend) (by simp)
  | _ => exact absurd hdone (by simp [SearchAttempt.isDone])

/-- What taking up an attempt does: it stops the search with the end of the attempt, unless that
has no result and more attempts are to come. -/
theorem collect_spec (h : s.collect = some s') :
    ∃ i rest ending, s.phase = .searching ∧ s.completed = i :: rest ∧ s.endOf i = some ending ∧
      ((ending.isNone = true → rest = [] ∧ s.allDone = true) ∧
          s' = stop ending { s with completed := rest } ∨
        ending.isNone = true ∧ (rest = [] → s.allDone = false) ∧
          s' = { s with completed := rest }) := by
  unfold Search.collect at h
  split at h
  · rename_i i rest hphase hcompleted
    dsimp only at h
    split at h
    · rename_i ending hend
      refine ⟨i, rest, ending, hphase, hcompleted, hend, ?_⟩
      split at h
      · rename_i hstops
        refine Or.inl ⟨fun hnone => ?_, (Option.some.inj h).symm⟩
        have hlast : rest.isEmpty = true ∧ s.allDone = true := by
          simpa [hnone, allDone] using hstops
        exact ⟨List.isEmpty_iff.mp hlast.1, hlast.2⟩
      · rename_i hmore
        have hgoes : ending.isNone = true ∧ (rest = [] → s.allDone = false) := by
          simpa [allDone] using hmore
        exact Or.inr ⟨hgoes.1, hgoes.2, (Option.some.inj h).symm⟩
    · exact absurd h (by simp)
  · exact absurd h (by simp)

/-- **The search takes up an attempt**: it goes on after a `LanError`, and ends with a device
that accepts the key, with another exception, or with nothing after the last. -/
theorem Searching.collect {past : Search → SearchAction → Prop}
    (hs : Searching settings (candidates hosts) s) (hcontained : Contained (candidates hosts) past)
    (h : s.collect = some s') : Progress settings hosts (since past s .collect) s' := by
  obtain ⟨i, rest, ending, hphase, hcompleted, hend, hgoes⟩ := collect_spec h
  obtain ⟨host, ending', hhost, hend', hends, htakes⟩ := hs.taken hcompleted
  obtain rfl := Option.some.inj (hend.symm.trans hend')
  have hmem : host ∈ candidates hosts := List.mem_of_getElem? hhost
  have hpast : settings.comesTo host ≠ .otherError →
      Contained (candidates hosts) (since past s .collect) := by
    intro hne
    refine contained_since.mpr ⟨hcontained, fun _ => ?_⟩
    rw [htakes]
    exact fun heq => hne (Option.some.inj heq)
  rcases hgoes with ⟨hlast, rfl⟩ | ⟨hnone, hmore, rfl⟩
  · cases ending with
    | returned found =>
        cases found with
        | some f =>
            obtain ⟨haccepts, hhost⟩ : settings.comesTo host = .acceptsKey ∧
              f.host = host.address := hends
            exact Or.inl ⟨hpast (by rw [haccepts]; simp), finds_device hmem haccepts hhost⟩
        | none =>
            have hlan : settings.comesTo host = .lanError := hends
            obtain ⟨rfl, hall⟩ := hlast rfl
            exact Or.inl ⟨hpast (by rw [hlan]; simp),
              finds_nothing (hs.none_accepts hcompleted hend hall)⟩
    | raised r =>
        have hother : settings.comesTo host = .otherError := hends
        refine Or.inr ⟨fun hall => ?_, r, rfl⟩
        exact (contained_since.mp hall).2 rfl (by rw [htakes, hother])
    | cancelled => exact hends.elim
  · obtain rfl : ending = .returned none := by
      unfold TaskEnd.isNone at hnone
      split at hnone
      · rfl
      · exact absurd hnone (by simp)
    have hlan : settings.comesTo host = .lanError := hends
    have hsearching : Searching settings (candidates hosts) { s with completed := rest } := by
      refine ⟨hs.same, hs.length, hs.standing, fun j hj => ?_, fun j a ha hdone => ?_, hmore⟩
      · exact hs.completed j (by rw [hcompleted]; exact List.mem_cons_of_mem i hj)
      · rcases hs.accounted j a ha hdone with hj | hstage
        · rw [hcompleted] at hj
          rcases List.mem_cons.mp hj with rfl | hj
          · exact Or.inr (stage_of_endOf hend ha)
          · exact Or.inl hj
        · exact Or.inr hstage
    unfold Progress
    split
    · exact ⟨hsearching, hpast (by rw [hlan]; simp)⟩
    · rename_i hstops
      exact absurd (hphase.symm.trans hstops) (by simp)
    · rename_i hends
      exact absurd (hphase.symm.trans hends) (by simp)

/-- A step other than taking up an attempt keeps the verdict. -/
theorem Verdict.kept {past : Search → SearchAction → Prop} {ending : TaskEnd} {a : SearchAction}
    (hv : Verdict settings hosts past ending) (ha : a ≠ .collect) :
    Verdict settings hosts (since past s a) ending := by
  have hsame : Contained (candidates hosts) (since past s a) ↔
      Contained (candidates hosts) past :=
    contained_since.trans (and_iff_left fun hcollect => absurd hcollect ha)
  unfold Verdict
  rw [hsame]
  exact hv

/-- **One step** of a search that is not disturbed.  Steps of the attempts keep the phase; taking
one up or the end of the cleanup moves it on. -/
theorem Progress.step {past : Search → SearchAction → Prop} {a : SearchAction}
    (hs : Progress settings hosts past s) (hok : s.Undisturbed (candidates hosts) a)
    (h : s.step a = some s') : Progress settings hosts (since past s a) s' := by
  -- attempts that move leave the phase
  have hmoves : ∀ {i : Nat} {b b' : SearchAttempt}, a ≠ .collect → s.attempts[i]? = some b →
      (∀ host ∈ (candidates hosts)[i]?, Searching settings (candidates hosts) s →
        Standing settings host b → Standing settings host b') →
      (b.isDone = true → b'.stage = b.stage) →
        Progress settings hosts (since past s a) (s.put i b b') := by
    intro i b b' hcollect hi hstanding hdone
    unfold Progress at hs ⊢
    rw [show (s.put i b b').phase = s.phase from rfl]
    cases hphase : s.phase with
    | searching =>
        rw [hphase] at hs
        have hput := hs.1.put hi (fun host hhost =>
          hstanding host hhost hs.1 (hs.1.standing i host b hhost hi)) hdone
        exact ⟨hput, contained_since.mpr ⟨hs.2, fun ha => absurd ha hcollect⟩⟩
    | stopping ending =>
        rw [hphase] at hs
        exact Verdict.kept hs hcollect
    | finished ending =>
        rw [hphase] at hs
        exact Verdict.kept hs hcollect
  cases a with
  | begin i =>
      obtain ⟨b, hi, hrest⟩ := Option.bind_eq_some_iff.mp h
      split at hrest
      · rename_i hstage
        split at hrest
        · obtain rfl := Option.some.inj hrest
          refine hmoves (by simp) hi (fun host hhost hsearching hb => ?_) fun hdone => ?_
          · have hport := List.of_mem_filter (List.mem_of_getElem? hhost)
            rw [hsearching.same]
            exact hb.begin hport hstage
          · exact absurd hdone (by simp [SearchAttempt.isDone, hstage])
        · exact absurd hrest (by simp)
      · exact absurd hrest (by simp)
  | onDevice i action =>
      obtain ⟨b, hi, hrest⟩ := Option.bind_eq_some_iff.mp h
      split at hrest
      · exact absurd hrest (by simp)
      · rename_i howner
        obtain ⟨b', hstep, hput⟩ := Option.bind_eq_some_iff.mp hrest
        obtain rfl := Option.some.inj hput
        refine hmoves (by simp) hi (fun host hhost hsearching hb => ?_)
          fun hdone => SearchAttempt.onDevice_stage hdone hstep
        have hpair : (b, host) ∈ s.attempts.zip (candidates hosts) := by
          exact List.mem_of_getElem? (List.getElem?_zip_eq_some.mpr ⟨hi, hhost⟩)
        refine hb.onDevice (by simpa using howner) (fun w hw c hc => ?_) hstep
        rw [← hsearching.same]
        exact hok.1 (b, host) hpair w hw c hc
  | wake i =>
      obtain ⟨b, hi, hput⟩ := Option.bind_eq_some_iff.mp h
      obtain rfl := Option.some.inj hput
      refine hmoves (by simp) hi (fun host hhost hsearching hb => ?_) fun hdone => ?_
      · rw [hb.goOn]
        exact hb
      · rw [SearchAttempt.goOn_done _ hdone]
  | collect =>
      have hphase := (collect_spec h).choose_spec.choose_spec.choose_spec.1
      unfold Progress at hs
      rw [hphase] at hs
      exact hs.1.collect hs.2 h
  | gathered =>
      simp only [Search.step, gathered] at h
      split at h
      · rename_i ending hphase
        split at h
        · obtain rfl := Option.some.inj h
          unfold Progress at hs
          rw [hphase] at hs
          exact Verdict.kept hs (by simp)
        · exact absurd h (by simp)
      · exact absurd h (by simp)
  | cancel => exact hok.2.elim

/-! ## The end of a search -/

/-- Stopping leaves attempts alone that have ended. -/
theorem allDone_stop (ending : TaskEnd) (hall : s.allDone = true) :
    (s.stop ending).allDone = true := by
  apply (allDone_iff _).mpr
  intro b hb
  obtain ⟨a, ha, rfl⟩ := List.mem_map.mp hb
  have hdone := (allDone_iff s).mp hall a ha
  cases hstage : a.stage with
  | done ending => simpa [SearchAttempt.cancel, hstage] using hdone
  | _ => exact absurd hdone (by simp [SearchAttempt.isDone, hstage])

/-- The search can take up an attempt that has ended. -/
theorem collect_eq {i : Nat} {rest : List Nat} {ending : TaskEnd} (hphase : s.phase = .searching)
    (hcompleted : s.completed = i :: rest) (hend : s.endOf i = some ending) :
    s.collect = if !ending.isNone || rest.isEmpty && s.allDone then
      some (stop ending { s with completed := rest }) else some { s with completed := rest } := by
  obtain ⟨settings, attempts, completed, phase⟩ := s
  dsimp only at hphase hcompleted
  subst hphase hcompleted
  have hend' : endOf ⟨settings, attempts, rest, .searching⟩ i = some ending := hend
  simp only [Search.collect, hend']
  rfl

/-- Where all attempts have ended, so does the search: it takes them up until it stops.  The
induction is on those not taken up yet. -/
theorem ends_of_allDone (hall : s.allDone = true)
    (hcompleted : s.phase = .searching → s.completed ≠ [] ∧
      ∀ i ∈ s.completed, i < s.attempts.length) :
    ∃ bs t, Run Search.step Anything s bs t ∧ t.isFinished = true ∧
      ∀ b ∈ bs, b = .collect ∨ b = .gathered := by
  have hgathers : ∀ {u : Search} {ending : TaskEnd}, u.phase = .stopping ending →
      u.allDone = true → ∃ t, u.step .gathered = some t ∧ t.isFinished = true := by
    intro u ending hphase hdone
    refine ⟨{ u with phase := .finished ending }, ?_, rfl⟩
    simp [Search.step, gathered, hphase, hdone]
  cases hphase : s.phase with
  | finished ending => exact ⟨[], s, .nil s, by simp [isFinished, hphase], by simp⟩
  | stopping ending =>
      obtain ⟨t, ht, hfinished⟩ := hgathers hphase hall
      exact ⟨[.gathered], t, .cons trivial ht (.nil t), hfinished, by simp⟩
  | searching =>
      obtain ⟨hne, hlt⟩ := hcompleted hphase
      clear hcompleted
      -- induction on the attempts that are still to be taken up
      induction hlist : s.completed generalizing s with
      | nil => exact absurd hlist hne
      | cons i rest ih =>
          have hi : i < s.attempts.length := hlt i (by rw [hlist]; exact List.mem_cons_self)
          have hdone := (allDone_iff s).mp hall s.attempts[i] (List.getElem_mem hi)
          obtain ⟨ending, hstage⟩ : ∃ ending, s.attempts[i].stage = .done ending := by
            cases hstage : s.attempts[i].stage with
            | done ending => exact ⟨ending, rfl⟩
            | _ => exact absurd hdone (by simp [SearchAttempt.isDone, hstage])
          have hend : s.endOf i = some ending := by
            simp [endOf, List.getElem?_eq_getElem hi, hstage]
          have hcollect := collect_eq hphase hlist hend
          split at hcollect
          · obtain ⟨t, ht, hfinished⟩ := hgathers
              (u := stop ending { s with completed := rest }) rfl
              (allDone_stop (s := { s with completed := rest }) ending hall)
            exact ⟨[.collect, .gathered], t, .cons trivial hcollect (.cons trivial ht (.nil t)),
              hfinished, by simp⟩
          · rename_i hmore
            have hrest : rest ≠ [] := by
              intro heq
              obtain rfl := heq
              exact hmore (by simp [hall])
            obtain ⟨bs, t, hrun, hfinished, hbs⟩ := ih (s := { s with completed := rest }) hall
              hphase hrest (fun j hj => hlt j (by rw [hlist]; exact List.mem_cons_of_mem i hj)) rfl
            refine ⟨.collect :: bs, t, .cons trivial hcollect hrun, hfinished, fun b hb => ?_⟩
            rcases List.mem_cons.mp hb with rfl | hb
            · exact Or.inl rfl
            · exact hbs b hb

/-- **The search finds the device if it is there** exactly if no attempt that it takes up ended
with another exception than a `LanError`.  For every list of addresses, every outcome of each and
every run of a search that is not cancelled: where all attempts have ended, the search ends after
taking them up; and what it has ended with is `None` if no address accepts the key, and a
device at an address that does otherwise, if and only if each attempt it took up had ended
without another exception. -/
theorem finds_device_iff {as : List SearchAction}
    (hrun : Run Search.step (Undisturbed (candidates hosts)) (find settings hosts) as s) :
    (s.allDone = true → ∃ bs t, Run Search.step Anything s bs t ∧ t.isFinished = true ∧
      ∀ b ∈ bs, b = .collect ∨ b = .gathered) ∧
    ∀ ending, s.phase = .finished ending → (Finds settings hosts ending ↔
      Contained (candidates hosts) (Happened Search.step (find settings hosts) as)) := by
  have hs : Progress settings hosts (Happened Search.step (find settings hosts) as) s :=
    hrun.history (fun past u => Progress settings hosts past u)
      (fun _ _ _ _ hu hok hstep => hu.step hok hstep) (Progress.start settings hosts)
  unfold Progress at hs
  refine ⟨fun hall => ends_of_allDone hall fun hphase => ?_, fun ending hphase => ?_⟩
  · rw [hphase] at hs
    refine ⟨fun hnil => absurd (hs.1.going hnil) (by simp [hall]), fun i hi => ?_⟩
    obtain ⟨a, ha, _⟩ := hs.1.completed i hi
    exact (List.getElem?_eq_some_iff.mp ha).1
  · rw [hphase] at hs
    exact Verdict.finds_iff hs

/-! ## Examples -/

instance (cs : List Host) (s : Search) : Decidable (s.AnswersAs cs) :=
  inferInstanceAs (Decidable (∀ p ∈ s.attempts.zip cs, ∀ w ∈ p.1.device,
    ∀ c ∈ (w.calls[0]? : Option Call), c.connectAgrees (s.settings.comesTo p.2) = true))

instance (cs : List Host) (s : Search) : (a : SearchAction) → Decidable (s.Undisturbed cs a)
  | .cancel => isFalse fun h => h.2
  | .begin _ | .onDevice _ _ | .wake _ | .collect | .gathered =>
      inferInstanceAs (Decidable (s.AnswersAs cs ∧ True))

/-- The settings of the search for the device of `exampleConfig`. -/
def exampleSettings : SearchSettings where
  deviceId := exampleConfig.deviceId
  localKey := exampleConfig.localKey
  protocolVersion := exampleConfig.protocolVersion

/-- A closed port, another host, and the device. -/
def threeHosts : List Host :=
  [⟨py "192.168.1.10", .portClosed⟩, ⟨py "192.168.1.30", .lanError⟩,
    ⟨exampleConfig.host, .acceptsKey⟩]

/-- The host that is not the device ends first. -/
def deviceLast : List SearchAction :=
  connectsTo 0 unreachableReply ++ closesDevice 0 ++ [.collect] ++
    connectsTo 1 (statusReply true) ++ closesDevice 1 ++ [.collect, .gathered]

/-- The step does not take up an attempt that ended with another exception. -/
def TakesContained (cs : List Host) (s : Search) : SearchAction → Prop
  | .collect => s.takesUp cs ≠ some .otherError
  | _ => True

instance (cs : List Host) (s : Search) : (a : SearchAction) → Decidable (s.TakesContained cs a)
  | .collect => inferInstanceAs (Decidable (s.takesUp cs ≠ some .otherError))
  | .begin _ | .onDevice _ _ | .wake _ | .gathered | .cancel => isTrue trivial

/-- Of three addresses the last one has the device, and it is found.  One is closed, so it is none
of the two that the search connects to. -/
theorem finds_device_iff_last :
    ∃ (s : Search) (ending : TaskEnd), s.phase = .finished ending ∧
      Finds exampleSettings threeHosts ending := by
  let start := find exampleSettings threeHosts
  let execution := exec Search.step start deviceLast
  obtain ⟨s, hs⟩ := Option.isSome_iff_exists.mp (show execution.isSome = true by decide +kernel)
  have hfinished : ∀ u ∈ execution, u.isFinished = true := by decide +kernel
  obtain ⟨ending, hphase⟩ : ∃ ending, s.phase = .finished ending := by
    have hs' := hfinished s hs
    unfold isFinished at hs'
    split at hs'
    · rename_i ending hphase
      exact ⟨ending, hphase⟩
    · exact absurd hs' (by simp)
  have hrun : Run Search.step (Undisturbed (candidates threeHosts)) start deviceLast s :=
    Run.of_meets hs (by decide +kernel)
  have htakes : Run Search.step (TakesContained (candidates threeHosts)) start deviceLast s :=
    Run.of_meets hs (by decide +kernel)
  exact ⟨s, ending, hphase, ((finds_device_iff hrun).2 ending hphase).mpr fun u hu =>
    htakes.ok_of_happened hu⟩

/-- A host that answers with something unexpected, and the device. -/
def twoHosts : List Host :=
  [⟨py "192.168.1.30", .otherError⟩, ⟨exampleConfig.host, .acceptsKey⟩]

/-- The library raises. -/
def raisingReply : Reply where
  outcome := .error .valueError
  socket := false

/-- The other host ends first, while the attempt at the device waits for its open. -/
def otherFirst : List SearchAction :=
  .begin 1 :: connectsTo 0 raisingReply ++ closesDevice 0 ++
    [.collect, .wake 1, .onDevice 1 .skip] ++ closesDevice 1 ++ [.gathered]

/-- The search has ended with an exception. -/
def hasRaised (s : Search) : Bool :=
  match s.phase with
  | .finished (.raised _) => true
  | _ => false

/-- **A host that answers with something unexpected hides the device.**  The second address has it,
but the search ends with the error of the first. -/
theorem other_error_hides_device :
    ¬ ∀ (as : List SearchAction) (s : Search) (ending : TaskEnd),
      Run Search.step (Undisturbed (candidates twoHosts)) (find exampleSettings twoHosts) as s →
        s.phase = .finished ending → Finds exampleSettings twoHosts ending := by
  intro hclaim
  let start := find exampleSettings twoHosts
  let execution := exec Search.step start otherFirst
  obtain ⟨s, hs⟩ := Option.isSome_iff_exists.mp (show execution.isSome = true by decide +kernel)
  have hrun : Run Search.step (Undisturbed (candidates twoHosts)) start otherFirst s :=
    Run.of_meets hs (by decide +kernel)
  have hraised : ∀ u ∈ execution, u.hasRaised = true := by decide +kernel
  have hs' := hraised s hs
  unfold hasRaised at hs'
  split at hs'
  · rename_i r hphase
    exact not_finds_raised r (hclaim otherFirst s _ hrun hphase)
  · exact absurd hs' (by simp)

end Search

end Lan
