import HaBirdie.LanClose
import HaBirdie.LanReports
import HaBirdie.PublishedState

/-!
# What a reconnect publishes

When a connection is reopened, `_handle_connected` first announces that the device is available
and then merges the status that opened it.  The coordinator publishes in both callbacks, and in
the first it decodes the DPs from before the loss.  So for a moment the past is shown as the
present, and automations run on it.

`Observed` is a coordinator on its LAN client together with every state that the LAN callbacks
published since the last reopening, each with all that was reported from the opening status on.
`shown_includes_reopened` holds where a status that reopens a connection repeats what is known
(`AlreadyKnown`).
-/

namespace Purifier

open Python Lan StepRuns

/-- A coordinator with every state that its LAN callbacks passed to `async_set_updated_data`. -/
structure Publisher where
  coordinator : Coordinator
  published : List PurifierState := []

namespace Publisher

/-- After a callback that publishes unless it raises, or one that publishes nothing. -/
def after (p : Publisher) (publishes : Bool) (result : Coordinator × Option PyException) :
    Publisher × Option PyException :=
  ({ coordinator := result.1
     published :=
      if publishes && result.2.isNone then p.published ++ result.1.data.toList else p.published },
    result.2)

/-- `_async_on_status`, which publishes. -/
def onStatus (dps : PyDict) (dev : Device) (now : ℚ) (p : Publisher) :
    Publisher × Option PyException :=
  p.after true (p.coordinator.onStatus dps dev now)

/-- `_async_on_availability`, which publishes when the device is available again and something
was published before. -/
def onAvailability (available : Bool) (error : Option LanError) (dev : Device) (now : ℚ)
    (p : Publisher) : Publisher × Option PyException :=
  p.after (available && p.coordinator.data.isSome)
    (p.coordinator.onAvailability available error dev now)

/-- `_async_on_error`, which publishes nothing. -/
def onError (error : LanError) (dev : Device) (now : ℚ) (p : Publisher) :
    Publisher × Option PyException :=
  p.after false (p.coordinator.onError error dev now)

def callbacks : Callbacks Publisher := ⟨onStatus, onAvailability, onError⟩

end Publisher

/-! ## The coordinator on its LAN client -/

/-- A step of the LAN client, or what the coordinator does after its own calls of it. -/
inductive CoordinatorStep
  | lan (a : Action)
  | updated (i : Nat)
  | commandSent (i : Nat) (dps : PyDict)

/-- `_async_update_data` after `async_refresh`, with what Home Assistant makes of it. -/
def Coordinator.updateData (dps : PyDict) (c : Coordinator) : Coordinator :=
  match fromDps dps with
  | .ok state => c.setUpdatedData state
  | .error _ => { c with lastUpdateSuccess := false }

/-- What the device has reported since its connection was reopened, after one more result is
handled. -/
def reportedSince (since : Option PyDict) (r : Result) : Option PyDict :=
  match r.waiter, r.value with
  | .nobody, _ => since
  | .loop, .opened _ dps | .call _, .opened _ dps => some dps
  | _, _ => since.map fun known => mergeResult known r

/-- A coordinator with its LAN client, what the device has reported since the connection was
reopened, and the states that the LAN callbacks published since, each with what had been
reported by then. -/
structure Observed where
  world : World Publisher
  since : Option PyDict := none
  shown : List (PyDict × PurifierState) := []

namespace Observed

/-- `__init__`. -/
def start (entry : EntryData) (config : DeviceConfig) (searches : Searches) : Observed where
  world := .init config {} entry.detectedVersion { coordinator := { entry, searches } }

/-- The result that a step of the LAN client handles. -/
def handles (w : World Publisher) : Action → Option Result
  | .resume i _ => w.results[i]?
  | _ => none

/-- The coordinator itself changes. -/
def update (s : Observed) (coordinator : Coordinator) : Observed :=
  { s with world := { s.world with client := { s.world.client with coordinator } } }

def step (s : Observed) : CoordinatorStep → Option Observed
  | .lan a =>
      (s.world.step Publisher.callbacks a).map fun w =>
        let since := (handles s.world a).elim s.since (reportedSince s.since)
        let new := w.client.published.drop s.world.client.published.length
        { world := w, since
          shown := s.shown ++ since.toList.flatMap fun known => new.map (known, ·) }
  | .updated i =>
      match s.world.calls[i]? with
      | some (.done .refresh (.returned (some dps))) =>
          some (s.update (s.world.client.coordinator.updateData dps))
      | _ => none
  | .commandSent i dps =>
      match s.world.calls[i]? with
      | some (.done .setDps (.returned none)) =>
          some (s.update (s.world.client.coordinator.commandSent dps).1)
      | _ => none

/-- The status that opened a connection. -/
def openingStatus (r : Result) : Option PyDict :=
  match r.value with
  | .opened _ dps => some dps
  | _ => none

/-- The assumption on a step: where the status that opened a connection is handled, the device
was unavailable and something was published before, all its values are known already. -/
def AlreadyKnown (s : Observed) : CoordinatorStep → Prop
  | .lan a => ∀ r ∈ handles s.world a, r.waiter ≠ .nobody → ∀ dps ∈ openingStatus r,
      s.world.dev.available = false → s.world.client.coordinator.data ≠ none →
      Repeats s.world.dev.dps dps
  | _ => True

end Observed

/-! ## What the callbacks publish -/

/-- Known values that are updated with a report repeat it. -/
theorem Repeats.update_self (known report : PyDict) : Repeats (known.update report) report := by
  intro dp value hvalue
  refine ⟨value, ?_, Json.Identical.refl _⟩
  rw [PyDict.lookup_update, hvalue]
  rfl

/-- What repeats a report goes on repeating it when both are updated with the next one. -/
theorem Repeats.update {known since : PyDict} (h : Repeats known since) (report : PyDict) :
    Repeats (known.update report) (since.update report) := by
  intro dp value hvalue
  rw [PyDict.lookup_update] at hvalue ⊢
  cases hreport : report.lookup dp with
  | none =>
      rw [hreport] at hvalue
      exact h dp value hvalue
  | some reported =>
      rw [hreport] at hvalue
      obtain rfl := Option.some.inj hvalue
      exact ⟨reported, rfl, Json.Identical.refl _⟩

/-- All values of the reports since a reopening are in the map. -/
def Includes (dps : PyDict) (since : Option PyDict) : Prop := ∀ known ∈ since, Repeats dps known

/-- States are published, decoded from maps with all values of the reports since a reopening. -/
def Tells (since : Option PyDict) (p p' : Publisher) : Prop :=
  ∃ new, p'.published = p.published ++ new ∧ ∀ s ∈ new, Includes s.dps since

/-- Where nothing is published, nothing wrong is told. -/
theorem Tells.nothing {since : Option PyDict} {p p' : Publisher}
    (h : p'.published = p.published) : Tells since p p' :=
  ⟨[], by rw [h, List.append_nil], by simp⟩

/-- Nor is it in two steps if it is in neither. -/
theorem Tells.trans {since : Option PyDict} {p p' p'' : Publisher} (h : Tells since p p')
    (h' : Tells since p' p'') : Tells since p p'' := by
  obtain ⟨new, hnew, htells⟩ := h
  obtain ⟨new', hnew', htells'⟩ := h'
  refine ⟨new ++ new', by rw [hnew', hnew, List.append_assoc], fun s hs => ?_⟩
  rcases List.mem_append.mp hs with hs | hs
  · exact htells s hs
  · exact htells' s hs

/-- A callback that decodes and publishes a map. -/
theorem Tells.publish {since : Option PyDict} {dps : PyDict} (h : Includes dps since)
    (p : Publisher) (c : Coordinator) : Tells since p (p.after true (c.publish dps)).1 := by
  unfold Coordinator.publish
  cases hdps : fromDps dps with
  | error e => exact .nothing rfl
  | ok state =>
      refine ⟨[state], rfl, fun s hs => ?_⟩
      obtain rfl := List.mem_singleton.mp hs
      rw [(fromDps_decoded hdps).dps]
      exact h

/-- A report is handled. -/
theorem handleDps_tells {since : Option PyDict} (now : ℚ) (report : PyDict) (full : Bool)
    (dev : Device) (p : Publisher) (h : Includes (dev.dps.update report) since) :
    Tells since p (handleDps Publisher.callbacks now report full dev p).client := by
  unfold handleDps
  dsimp only
  split
  · exact Tells.publish h p p.coordinator
  · exact .nothing rfl

/-- The device becomes unavailable. -/
theorem setAvailable_false_tells {since : Option PyDict} (now : ℚ) (error : Option LanError)
    (dev : Device) (p : Publisher) :
    Tells since p (setAvailable Publisher.callbacks now false error dev p).client := by
  unfold setAvailable
  split
  · exact .nothing rfl
  · exact .nothing rfl

/-- An open fails. -/
theorem openFailed_tells {since : Option PyDict} (now : ℚ) (error : LanError) (dev : Device)
    (p : Publisher) : Tells since p (openFailed Publisher.callbacks now error dev p).client := by
  let dev' : Device := { dev with lastError := some error }
  have hset : Tells since p
      (setAvailable Publisher.callbacks now false (some error) dev' p).client :=
    setAvailable_false_tells now (some error) dev' p
  unfold openFailed Handled.andThen
  split
  · exact hset
  · exact hset.trans (.nothing rfl)

/-- The device is available again, and raises nothing unless it publishes.  What it publishes is
what was known before, so this has to include the reopening. -/
theorem setAvailable_true_tells {since : Option PyDict} {now : ℚ} {dev : Device} {p : Publisher}
    (h : dev.available = false → p.coordinator.data ≠ none → Includes dev.dps since) :
    Tells since p (setAvailable Publisher.callbacks now true none dev p).client ∧
      ((setAvailable Publisher.callbacks now true none dev p).raised ≠ none →
        Includes dev.dps since) := by
  unfold setAvailable
  split
  · exact ⟨.nothing rfl, fun hraised => absurd rfl hraised⟩
  · rename_i hav
    have hun : dev.available = false := Bool.eq_false_of_not_eq_true (Ne.symm hav)
    let dev' : Device := { dev with available := true }
    let c := p.coordinator.reachedAgain dev'.version
    cases hdata : p.coordinator.data with
    | none =>
        have hquiet : Publisher.onAvailability true none dev' now p = p.after false (c, none) := by
          simp [Publisher.onAvailability, Coordinator.onAvailability, hdata, c]
        refine ⟨.nothing ?_, fun hraised => absurd ?_ hraised⟩
        · exact congrArg (fun result => result.1.published) hquiet
        · exact congrArg Prod.snd hquiet
    | some state =>
        have hincludes : Includes dev'.dps since := h hun (by simp [hdata])
        have hpublishes : Publisher.onAvailability true none dev' now p =
            p.after true (c.publish dev'.dps) := by
          simp [Publisher.onAvailability, Coordinator.onAvailability, hdata, c]
        refine ⟨?_, fun _ => hincludes⟩
        have htells := Tells.publish hincludes p c
        rw [← hpublishes] at htells
        exact htells

/-- The status that opened a connection is handled.  The assumption is on the status alone: where
it is announced first, it repeats what is known. -/
theorem handleConnected_tells {now : ℚ} {version : PyStr} {report : PyDict} {dev : Device}
    {p : Publisher}
    (h : dev.available = false → p.coordinator.data ≠ none → Repeats dev.dps report) :
    let handled := handleConnected Publisher.callbacks now version report dev p
    Tells (some report) p handled.client ∧ Includes handled.dev.dps (some report) := by
  let dev' : Device :=
    { dev with version := some version, lastError := none, lastRx := now, lastHeartbeat := now }
  let announced := setAvailable Publisher.callbacks now true none dev' p
  have hknown : dev'.available = false → p.coordinator.data ≠ none →
      Includes dev'.dps (some report) := by
    intro hun hdata known hsome
    obtain rfl := Option.some.inj hsome
    exact h hun hdata
  obtain ⟨htells, hraised⟩ : Tells (some report) p announced.client ∧
      (announced.raised ≠ none → Includes dev'.dps (some report)) :=
    setAvailable_true_tells hknown
  have hsame : SameData dev' announced.dev := setAvailable_sameData now true none dev' p
  have hdps : announced.dev.dps = dev.dps := hsame.dps
  have hmerged : Includes (announced.dev.dps.update report) (some report) := by
    intro known hsome
    obtain rfl := Option.some.inj hsome
    exact Repeats.update_self _ _
  show Tells (some report) p
      (announced.andThen (handleDps Publisher.callbacks now report true)).client ∧
    Includes (announced.andThen (handleDps Publisher.callbacks now report true)).dev.dps
      (some report)
  unfold Handled.andThen
  cases hr : announced.raised with
  | some e =>
      refine ⟨htells, ?_⟩
      rw [hdps]
      exact hraised (by rw [hr]; simp)
  | none =>
      refine ⟨htells.trans (handleDps_tells now report true _ _ hmerged), ?_⟩
      rw [handleDps_dps]
      exact hmerged

/-- The DPs from before are published first, where they decode. -/
theorem setAvailable_publishes {now : ℚ} {dev : Device} {p : Publisher}
    (hun : dev.available = false) (hdata : p.coordinator.data ≠ none) (hdec : Decodable dev.dps) :
    ∃ state, state.dps = dev.dps ∧
      (setAvailable Publisher.callbacks now true none dev p).client.published =
        p.published ++ [state] := by
  obtain ⟨state, hstate⟩ := (fromDps_ok_iff dev.dps).mpr hdec
  refine ⟨state, (fromDps_decoded hstate).dps, ?_⟩
  obtain ⟨old, hold⟩ := Option.ne_none_iff_exists'.mp hdata
  simp [setAvailable, hun, Publisher.callbacks, Publisher.onAvailability, Publisher.after,
    Coordinator.onAvailability, Coordinator.publish, Coordinator.setUpdatedData, hold, hstate]

/-- **One reopening**, exactly: after a loss, and where the DPs from before decode, nothing is
published without the status that opened the connection if and only if that status repeats what
is known. -/
theorem handleConnected_tells_iff {now : ℚ} {version : PyStr} {report : PyDict} {dev : Device}
    {p : Publisher} (hun : dev.available = false) (hdata : p.coordinator.data ≠ none)
    (hdec : Decodable dev.dps) :
    Tells (some report) p (handleConnected Publisher.callbacks now version report dev p).client ↔
      Repeats dev.dps report := by
  constructor
  · intro hparts
    obtain ⟨new, hnew, htells⟩ := hparts
    let dev' : Device :=
      { dev with version := some version, lastError := none, lastRx := now, lastHeartbeat := now }
    let announced := setAvailable Publisher.callbacks now true none dev' p
    obtain ⟨state, hstate, hfirst⟩ : ∃ state, state.dps = dev'.dps ∧
        announced.client.published = p.published ++ [state] :=
      @setAvailable_publishes now dev' p hun hdata hdec
    have hrest : Tells none announced.client
        (announced.andThen (handleDps Publisher.callbacks now report true)).client := by
      unfold Handled.andThen
      cases announced.raised with
      | some e => exact .nothing rfl
      | none => exact handleDps_tells now report true _ _ (by simp [Includes])
    obtain ⟨later, hlater, _⟩ := hrest
    have hmem : state ∈ new := by
      have hall : p.published ++ new = p.published ++ ([state] ++ later) := by
        rw [← hnew, ← List.append_assoc, ← hfirst]
        exact hlater
      rw [List.append_cancel_left hall]
      exact List.mem_append_left _ List.mem_cons_self
    have hincludes := htells state hmem report rfl
    rwa [hstate] at hincludes
  · intro hrepeats
    exact (handleConnected_tells fun _ _ => hrepeats).1

/-- With an open, what was reported since is its report. -/
theorem reportedSince_opened {r : Result} (hx : r.waiter ≠ .nobody) {version : PyStr}
    {dps : PyDict} (hvalue : r.value = .opened version dps) (since : Option PyDict) :
    reportedSince since r = some dps := by
  obtain ⟨x, job, value⟩ := r
  obtain rfl : value = .opened version dps := hvalue
  cases x with
  | nobody => exact absurd rfl hx
  | _ => rfl

/-- With any other result it is what was known, and that result. -/
theorem reportedSince_later {r : Result} (hx : r.waiter ≠ .nobody)
    (hvalue : ∀ version dps, r.value ≠ .opened version dps) (since : Option PyDict) :
    reportedSince since r = since.map fun known => mergeResult known r := by
  obtain ⟨x, job, value⟩ := r
  cases value with
  | opened version dps => exact absurd rfl (hvalue version dps)
  | _ =>
      cases x with
      | nobody => exact absurd rfl hx
      | _ => rfl

/-- A merged report is in the map. -/
theorem Includes.merged {r : Result} (hx : r.waiter ≠ .nobody) {known report : PyDict}
    {since : Option PyDict} (h : Includes known since) (hreport : r.report = some report)
    (hvalue : ∀ version dps, r.value ≠ .opened version dps) :
    Includes (known.update report) (reportedSince since r) := by
  intro merged hmerged
  rw [reportedSince_later hx hvalue] at hmerged
  obtain ⟨old, hold, rfl⟩ := Option.map_eq_some_iff.mp hmerged
  rw [mergeResult, hreport]
  exact (h old hold).update report

/-- A result without a report adds nothing. -/
theorem reportedSince_unread {r : Result} (hx : r.waiter ≠ .nobody) (hreport : r.report = none)
    (since : Option PyDict) : reportedSince since r = since := by
  have hvalue : ∀ version dps, r.value ≠ .opened version dps := by
    intro version dps hvalue
    exact absurd hreport (by simp [Result.report, hvalue])
  rw [reportedSince_later hx hvalue]
  cases since with
  | none => rfl
  | some known => simp [mergeResult, hreport]

/-- **Handling a result** publishes nothing older than the reopening.  Only an open starts a new
one; the other results add to what has been reported since. -/
theorem handled_tells {now : ℚ} {dev : Device} {p : Publisher} {r : Result}
    {handled : Handled Publisher} {since : Option PyDict} (hx : r.waiter ≠ .nobody)
    (happlied : Applied Publisher.callbacks now dev p r handled) (hsince : Includes dev.dps since)
    (hknown : ∀ version dps, r.value = .opened version dps → dev.available = false →
      p.coordinator.data ≠ none → Repeats dev.dps dps) :
    Tells (reportedSince since r) p handled.client ∧
      Includes handled.dev.dps (reportedSince since r) := by
  cases happlied with
  | @opened version dps hvalue =>
      rw [reportedSince_opened hx hvalue]
      exact handleConnected_tells (hknown version dps hvalue)
  | full hvalue =>
      have hincludes := hsince.merged hx (by rw [Result.report, hvalue]) (by simp [hvalue])
      refine ⟨handleDps_tells now _ true dev p hincludes, ?_⟩
      rw [handleDps_dps]
      exact hincludes
  | pushed hvalue =>
      have hincludes := hsince.merged hx (by rw [Result.report, hvalue]) (by simp [hvalue])
      refine ⟨handleDps_tells now _ false dev p hincludes, ?_⟩
      rw [handleDps_dps]
      exact hincludes
  | unavailable hreport =>
      rw [reportedSince_unread hx hreport, (setAvailable_sameData now false _ dev p).dps]
      exact ⟨setAvailable_false_tells now _ dev p, hsince⟩
  | openFailed hreport =>
      rw [reportedSince_unread hx hreport, (openFailed_sameData now _ dev p).dps]
      exact ⟨openFailed_tells now _ dev p, hsince⟩
  | nothing hfull hempty hdps =>
      refine ⟨.nothing rfl, ?_⟩
      rw [hdps]
      cases hreport : r.report with
      | none =>
          rw [reportedSince_unread hx hreport]
          exact hsince
      | some report =>
          have hmerged := hsince.merged hx hreport fun version dps hvalue =>
            absurd hfull (by simp [Result.isFull, hvalue])
          rwa [update_of_isEmpty (hempty report hreport)] at hmerged

/-! ## Steps and runs -/

namespace Observed

/-- What no step may lose. -/
structure Current (s : Observed) : Prop where
  known : Includes s.world.dev.dps s.since
  shown : ∀ e ∈ s.shown, Repeats e.2.dps e.1

/-- A step on the event loop that handles no result changes no DP and publishes nothing.  This
leaves the calls that begin or are cancelled, and the wake-ups of `_run`. -/
theorem untold {w w' : World Publisher} {a : Action}
    (h : World.OwnerMove Publisher.callbacks w a w') (hnone : handles w a = none) :
    w'.dev.dps = w.dev.dps ∧ w'.client = w.client := by
  cases h with
  | startedBefore => exact ⟨rfl, rfl⟩
  | started => exact ⟨rfl, rfl⟩
  | @begun now =>
      have hgo := loopTop_onward now w.dev.timings.reconnectMin w.dev w.client
      exact ⟨by simpa using hgo.dps, by simpa using hgo.client⟩
  | @woken _ now t _ ht =>
      obtain ⟨backoff, rfl⟩ := World.loopWake_top ht
      have hgo := loopTop_onward now backoff w.dev w.client
      exact ⟨by simpa using hgo.dps, by simpa using hgo.client⟩
  | requested hmove =>
      cases hmove with
      | called => exact ⟨by simp, by simp⟩
      | reconfigured => exact ⟨by simp, by simp⟩
      | closeRaised => exact ⟨by simp [World.marked], by simp [World.marked]⟩
      | closeDrops => exact ⟨by simp [World.marked], by simp [World.marked]⟩
      | closeCancels =>
          exact ⟨by simp [World.marked, World.abandon], by simp [World.marked, World.abandon]⟩
  | loopResumed hr => exact absurd (hnone.symm.trans hr) (by simp)
  | callResumed hr => exact absurd (hnone.symm.trans hr) (by simp)
  | forgotten hr => exact absurd (hnone.symm.trans hr) (by simp)
  | taskEnded => exact ⟨by simp, by simp⟩
  | cancelSuppressed => exact ⟨rfl, rfl⟩
  | shutdownCancelled => exact ⟨rfl, rfl⟩
  | cancelled => exact ⟨rfl, rfl⟩
  | shutdownBegun => exact ⟨rfl, rfl⟩
  | shutdownFinished => exact ⟨rfl, rfl⟩
  | keyReleased => exact ⟨rfl, rfl⟩

/-- A step that handles the result `r` of a coroutine.  What is published is decided by the
handling, whatever the coroutine goes on with. -/
theorem told {w w' : World Publisher} {i : Nat} {now : ℚ} {r : Result}
    (h : World.OwnerMove Publisher.callbacks w (.resume i now) w') (hr : w.results[i]? = some r)
    (hx : r.waiter ≠ .nobody) :
    ∃ handled, Applied Publisher.callbacks now w.dev w.client r handled ∧
      w'.dev.dps = handled.dev.dps ∧ w'.client = handled.client := by
  cases h with
  | woken ha => exact absurd ha (by simp)
  | loopResumed hr' _ ht =>
      obtain rfl := Option.some.inj (hr.symm.trans hr')
      obtain ⟨handled, happlied, hgo⟩ := loopResume_applied ht
      exact ⟨handled, happlied, by simpa using hgo.dps, by simpa using hgo.client⟩
  | callResumed hr' _ _ ht =>
      obtain rfl := Option.some.inj (hr.symm.trans hr')
      obtain ⟨handled, happlied, hgo⟩ := callResume_applied ht
      exact ⟨handled, happlied, by simpa using hgo.dps, by simpa using hgo.client⟩
  | forgotten hr' hnobody =>
      obtain rfl := Option.some.inj (hr.symm.trans hr')
      exact absurd hnobody hx

/-- A step that drops a result which nobody awaits. -/
theorem forgotten {w w' : World Publisher} {i : Nat} {now : ℚ} {r : Result}
    (h : World.OwnerMove Publisher.callbacks w (.resume i now) w') (hr : w.results[i]? = some r)
    (hx : r.waiter = .nobody) : w'.dev.dps = w.dev.dps ∧ w'.client = w.client := by
  cases h with
  | woken ha => exact absurd ha (by simp)
  | loopResumed hr' hloop =>
      obtain rfl := Option.some.inj (hr.symm.trans hr')
      exact absurd (hx.symm.trans hloop) (by simp)
  | callResumed hr' hcall =>
      obtain rfl := Option.some.inj (hr.symm.trans hr')
      exact absurd (hx.symm.trans hcall) (by simp)
  | forgotten => exact ⟨rfl, rfl⟩

/-- What a step of the LAN client publishes, and what it has merged since the reopening.  The
worker publishes nothing, so this is about the event loop. -/
theorem lan_tells {s : Observed} {w : World Publisher} {a : Action} (hs : s.Current)
    (hok : s.AlreadyKnown (.lan a)) (h : s.world.step Publisher.callbacks a = some w) :
    let since := (handles s.world a).elim s.since (reportedSince s.since)
    Tells since s.world.client w.client ∧ Includes w.dev.dps since := by
  dsimp only
  rcases World.step_moves h with hmove | hmove
  · have hnone : handles s.world a = none := by
      cases hmove <;> rfl
    rw [hnone, hmove.sameData.dps]
    exact ⟨.nothing (by rw [hmove.keeps.client]), hs.known⟩
  · cases hr : handles s.world a with
    | none =>
        obtain ⟨hdps, hclient⟩ := untold hmove hr
        rw [hdps]
        exact ⟨.nothing (by rw [hclient]), hs.known⟩
    | some r =>
        cases a with
        | resume i now =>
            by_cases hx : r.waiter = .nobody
            · have hsame : reportedSince s.since r = s.since := by
                rw [reportedSince, hx]
              show Tells (reportedSince s.since r) _ _ ∧ Includes _ (reportedSince s.since r)
              rw [hsame]
              obtain ⟨hdps, hclient⟩ := forgotten hmove hr hx
              rw [hdps]
              exact ⟨.nothing (by rw [hclient]), hs.known⟩
            · obtain ⟨handled, happlied, hdps, hclient⟩ := told hmove hr hx
              show Tells (reportedSince s.since r) _ _ ∧ Includes _ (reportedSince s.since r)
              rw [hdps, hclient]
              apply handled_tells hx happlied hs.known
              intro version dps hvalue
              exact hok r hr hx dps (by rw [openingStatus, hvalue]; rfl)
        | _ => exact absurd hr (by simp [handles])

/-- The states that a step of the LAN client adds to those shown. -/
theorem Current.lan {s : Observed} {w : World Publisher} {since : Option PyDict} (hs : s.Current)
    (hknown : Includes w.dev.dps since) (htells : Tells since s.world.client w.client) :
    Current
      { world := w, since
        shown := s.shown ++ since.toList.flatMap fun known =>
          (w.client.published.drop s.world.client.published.length).map (known, ·) } := by
  refine ⟨hknown, fun e he => ?_⟩
  rcases List.mem_append.mp he with he | he
  · exact hs.shown e he
  · obtain ⟨known, hmem, he⟩ := List.mem_flatMap.mp he
    obtain ⟨state, hstate, rfl⟩ := List.mem_map.mp he
    obtain ⟨new, hnew, htold⟩ := htells
    rw [hnew, List.drop_left] at hstate
    exact htold state hstate known (Option.mem_toList.mp hmem)

/-- **One step** publishes nothing older than the reopening.  The coordinator's own steps publish
what the client knows at that moment. -/
theorem Current.step {s s' : Observed} {a : CoordinatorStep} (hs : s.Current)
    (hok : s.AlreadyKnown a) (h : s.step a = some s') : s'.Current := by
  cases a with
  | updated i =>
      simp only [Observed.step] at h
      split at h
      · obtain rfl := Option.some.inj h
        exact ⟨hs.known, hs.shown⟩
      · exact absurd h (by simp)
  | commandSent i dps =>
      simp only [Observed.step] at h
      split at h
      · obtain rfl := Option.some.inj h
        exact ⟨hs.known, hs.shown⟩
      · exact absurd h (by simp)
  | lan a =>
      obtain ⟨w, hstep, rfl⟩ := Option.map_eq_some_iff.mp h
      obtain ⟨htells, hknown⟩ := lan_tells hs hok hstep
      exact hs.lan hknown htells

/-- **A reconnect publishes the present.**  In every run in which a status that reopens a
connection, on a device that was unavailable and after something was published, only repeats what
is known: every state that the LAN callbacks publish after a connection is reopened is decoded
from DPs that include the status that opened it and all reports handled since. -/
theorem shown_includes_reopened {entry : EntryData} {config : DeviceConfig} {searches : Searches}
    {as : List CoordinatorStep} {s : Observed}
    (hrun : Run Observed.step AlreadyKnown (Observed.start entry config searches) as s) :
    ∀ e ∈ s.shown, Repeats e.2.dps e.1 := by
  have hstart : (Observed.start entry config searches).Current := by
    refine ⟨fun known hknown => absurd hknown (by simp [Observed.start]), fun e he => ?_⟩
    exact absurd he (by simp [Observed.start])
  exact (hrun.invariant Current (fun _ _ _ hs hok h => hs.step hok h) hstart).shown

/-! ## Examples -/

instance (s : Observed) : (a : CoordinatorStep) → Decidable (s.AlreadyKnown a)
  | .lan a =>
      inferInstanceAs (Decidable (∀ r ∈ handles s.world a, r.waiter ≠ .nobody →
        ∀ dps ∈ openingStatus r, _ → _ → _))
  | .updated _ | .commandSent _ _ => isTrue trivial

/-- The device connects, its connection is lost, and a reply opens the next one. -/
def reopenedActions (reply : Reply) : List CoordinatorStep :=
  let actions : List Action := World.firstStatus (statusReply true) ++
    [.work (statusReply false) 0, .resume 0 0, .work (statusReply true) 0, .resume 0 0,
      .timeout 1, .take, .listVersions, .tryVersion none, .answer reply none, .resume 0 1]
  actions.map .lan

/-- The coordinator of the examples. -/
def observedExample : Observed := start Coordinator.exampleEntry exampleConfig {}

/-- A device is lost and comes back with the same status: three states are shown, and each repeats
what was reported since. -/
theorem shown_after_same_status :
    ∃ s : Observed, s.shown.length = 3 ∧ ∀ e ∈ s.shown, Repeats e.2.dps e.1 := by
  let actions := reopenedActions (statusReply true)
  let execution := exec Observed.step observedExample actions
  obtain ⟨s, hs⟩ := Option.isSome_iff_exists.mp (show execution.isSome = true by decide +kernel)
  have hrun : Run Observed.step AlreadyKnown observedExample actions s :=
    Run.of_meets hs (by decide +kernel)
  have hfacts : ∀ v ∈ execution, v.shown.length = 3 := by decide +kernel
  exact ⟨s, hfacts s hs, shown_includes_reopened hrun⟩

/-- **The past as the present.**  The purifier was switched off while the connection was lost, and
when it is reopened the coordinator first publishes that it is on. -/
theorem past_shown_as_present :
    ¬ ∀ (as : List CoordinatorStep) (s : Observed),
      Run Observed.step Anything observedExample as s → ∀ e ∈ s.shown, Repeats e.2.dps e.1 := by
  intro hclaim
  let actions := reopenedActions World.offReply
  let execution := exec Observed.step observedExample actions
  obtain ⟨s, hs⟩ := Option.isSome_iff_exists.mp (show execution.isSome = true by decide +kernel)
  have hfacts : ∀ v ∈ execution, ∃ e ∈ v.shown, ¬ Repeats e.2.dps e.1 := by decide +kernel
  obtain ⟨e, he, hpast⟩ := hfacts s hs
  exact hpast (hclaim actions s (Run.of_exec hs) e he)

end Observed

end Purifier
