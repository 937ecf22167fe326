import HaBirdie.LanLog
import HaBirdie.LoopSurvival

/-!
# Reports in the order of the worker

The worker reads DP reports in its jobs, and the coroutines that await them merge them into
`LanDevice.dps` on the event loop, when the worker has long gone on.  Where results are handled
in the order of the worker, `dps` is at any time the merge of all reports handled, whoever
requested them.

One report is lost on the way: `_handle_connected` announces the device as available before it
merges the status that opened the connection, and an exception of that callback leaves the
status behind.  `dps_merged` holds where it does not raise (`AnnouncesFirst`).
-/

namespace Lan

open Python JobTracking StepRuns Purifier

variable {γ : Type} {cb : Callbacks γ}

/-- The right-biased merge of all reports, in order. -/
def merged (log : List Result) : PyDict := (log.filterMap Result.report).foldl PyDict.update ∅

/-- One more result is merged into what was reported before. -/
theorem merged_snoc (log : List Result) (r : Result) :
    merged (log ++ [r]) = mergeResult (merged log) r := by
  unfold merged mergeResult
  rw [List.filterMap_append, List.foldl_append]
  cases h : r.report with
  | none => simp [h]
  | some report => simp [h]

/-- The attributes with which `_handle_connected` announces the device. -/
def reached (now : ℚ) (version : PyStr) (dev : Device) : Device :=
  { dev with version := some version, lastError := none, lastRx := now, lastHeartbeat := now }

/-- What `_handle_connected` announces raises nothing. -/
def AnnouncesOpened (cb : Callbacks γ) (now : ℚ) (dev : Device) (client : γ) (r : Result) : Prop :=
  match r.value with
  | .opened version _ =>
      (setAvailable cb now true none (reached now version dev) client).raised = none
  | _ => True

/-! ## Handling one result -/

/-- The status of an announced open is merged. -/
theorem handleConnected_dps {now : ℚ} {version : PyStr} {dps : PyDict} {dev : Device} {client : γ}
    (h : (setAvailable cb now true none (reached now version dev) client).raised = none) :
    (handleConnected cb now version dps dev client).dev.dps = dev.dps.update dps := by
  have hsame : (setAvailable cb now true none (reached now version dev) client).dev.dps = dev.dps :=
    (setAvailable_sameData now true none (reached now version dev) client).dps
  unfold handleConnected Handled.andThen
  dsimp only
  unfold reached at h hsame
  rw [h, handleDps_dps, hsame]

/-- Handling a result merges its report. -/
theorem Applied.dps {now : ℚ} {d : Device} {c : γ} {r : Result} {h : Handled γ}
    (happlied : Applied cb now d c r h) (hannounces : AnnouncesOpened cb now d c r) :
    h.dev.dps = mergeResult d.dps r := by
  have hreads : ∀ report, r.report = some report → mergeResult d.dps r = d.dps.update report := by
    intro report hreport
    rw [mergeResult, hreport]
  have hnone : r.report = none → mergeResult d.dps r = d.dps := by
    intro hreport
    rw [mergeResult, hreport]
  cases happlied with
  | opened hvalue =>
      unfold AnnouncesOpened at hannounces
      rw [hvalue] at hannounces
      rw [hreads _ (by rw [Result.report, hvalue])]
      exact handleConnected_dps hannounces
  | full hvalue =>
      rw [hreads _ (by rw [Result.report, hvalue])]
      exact handleDps_dps cb now _ true d c
  | pushed hvalue =>
      rw [hreads _ (by rw [Result.report, hvalue])]
      exact handleDps_dps cb now _ false d c
  | unavailable hreport => rw [hnone hreport, (setAvailable_sameData now false _ d c).dps]
  | openFailed hreport => rw [hnone hreport, (openFailed_sameData now _ d c).dps]
  | nothing _ hempty hdps =>
      rw [hdps]
      cases hreport : r.report with
      | none => exact (hnone hreport).symm
      | some report =>
          rw [hreads report hreport]
          exact (update_of_isEmpty (hempty report hreport)).symm

namespace World

/-! ## All runs -/

/-- A step that takes up no result leaves the DPs as they are. -/
theorem Quiet.dps {w w' : World γ} (h : Quiet w w') : w'.dev.dps = w.dev.dps := by
  cases h with
  | stayed => rfl
  | started => rfl
  | went => rw [loopGoes_dev, (loopTop_onward _ _ _ _).dps]
  | called => rw [newCall_dev]
  | reconfigured => rw [newCall_dev]

/-- Taking up a result merges what it reports, where the callbacks of an open return. -/
theorem Took.dps {w w' : World γ} {now : ℚ} {r : Result} {rest : List Result}
    (hannounces : AnnouncesOpened cb now w.dev w.client r) (h : Took cb now w r rest w') :
    w'.dev.dps = mergeResult w.dev.dps r := by
  cases h with
  | byLoop _ ht =>
      obtain ⟨d, happlied, honward⟩ := loopResume_applied ht
      rw [loopGoes_dev, honward.dps, happlied.dps hannounces]
  | byCall _ _ ht =>
      obtain ⟨d, happlied, honward⟩ := callResume_applied ht
      rw [callGoes_dev, honward.dps, happlied.dps hannounces]

/-- The assumption on a step: when the status that opened a connection is handled, the
announcement of the device before it raises nothing. -/
def AnnouncesFirst (cb : Callbacks γ) (w : World γ) : Action → Prop
  | .resume i now => ∀ r ∈ w.results[i]?, AnnouncesOpened cb now w.dev w.client r
  | _ => True

/-- **No report is lost or applied out of order.**  Where library calls return, waiters are
resumed in worker order, calls are not cancelled and the device is not closed, and where
announcing a reopened connection raises nothing: whenever no result waits, `dps` is the
right-biased merge of all reports that the worker read, in the order in which it read them. -/
theorem dps_merged {config : DeviceConfig} {timings : Timings} {hint : Option PyStr}
    {client : γ} {as : List Action} {s : Logged γ}
    (hrun : Run (Logged.step cb) (fun s a => s.world.InOrder a ∧ s.world.AnnouncesFirst cb a)
      (Logged.init config timings hint client) as s)
    (hhandled : s.world.results = []) : s.world.dev.dps = merged s.log := by
  have hinOrder : ∀ (w : World γ) (a : Action), w.InOrder a ∧ w.AnnouncesFirst cb a →
      w.InOrder a := fun _ _ h => h.1
  obtain ⟨_, handled, hlog, hdps⟩ :=
    Logged.invariant hinOrder
      (fun handled w => w.dev.dps = merged handled) rfl
      (fun _ _ _ _ _ hw h _ _ => h.sameData.dps.trans hw)
      (fun handled w w' r rest now _ hw hresults hok h => by
        have hannounces : AnnouncesOpened cb now w.dev w.client r :=
          hok.2 r (by rw [hresults]; exact rfl)
        rw [h.dps hannounces, hw, merged_snoc])
      (fun _ _ _ _ hw h => h.dps.trans hw) hrun
  rw [hdps, hlog, hhandled, List.append_nil]

/-! ## Examples -/

instance (now : ℚ) (dev : Device) (client : γ) (r : Result) :
    Decidable (AnnouncesOpened cb now dev client r) :=
  match r with
  | ⟨_, _, .opened version _⟩ =>
      inferInstanceAs
        (Decidable ((setAvailable cb now true none (reached now version dev) client).raised = none))
  | ⟨_, _, .dps _⟩ | ⟨_, _, .received _⟩ | ⟨_, _, .done⟩ | ⟨_, _, .raised _⟩ => isTrue trivial

instance (w : World γ) : (a : Action) → Decidable (w.AnnouncesFirst cb a)
  | .resume i now =>
      inferInstanceAs (Decidable (∀ r ∈ w.results[i]?, AnnouncesOpened cb now w.dev w.client r))
  | .start | .begin _ | .wakeUp _ | .timeout _ | .request _ | .cancel _ | .taskEnded _ | .take
  | .listVersions | .tryVersion _ | .answer _ _ | .work _ _ | .skip | .beginShutdown
  | .finishShutdown | .shutdownDone _ => isTrue trivial

/-- A purifier that is switched off. -/
def offReply : Reply where
  outcome := .ok (.obj [(py "dps", .obj [(dpSwitch, .bool false)])])
  socket := true

/-- The device connects, and a refresh finds it switched off. -/
def refreshedActions : List Action :=
  firstStatus (statusReply true) ++ [.request .refresh, .work (statusReply true) 0, .resume 0 0,
    .work offReply 0, .resume 0 0]

/-- A device with the coordinator of a purifier. -/
def purifierDevice : Logged Coordinator :=
  .init exampleConfig {} none { entry := Coordinator.exampleEntry }

/-- A device connects and refreshes: its DPs are the reports that it has taken up, merged. -/
theorem dps_merged_after_refresh :
    ∃ s : Logged Coordinator, 0 < s.log.length ∧ s.world.dev.dps = merged s.log := by
  let execution := exec (Logged.step Coordinator.callbacks) purifierDevice refreshedActions
  obtain ⟨s, hs⟩ := Option.isSome_iff_exists.mp (show execution.isSome = true by decide +kernel)
  have hrun : Run (Logged.step Coordinator.callbacks)
      (fun s a => s.world.InOrder a ∧ s.world.AnnouncesFirst Coordinator.callbacks a)
      purifierDevice refreshedActions s := Run.of_meets hs (by decide +kernel)
  have hfacts : ∀ v ∈ execution, 0 < v.log.length ∧ v.world.results.isEmpty = true := by
    decide +kernel
  obtain ⟨hlog, hempty⟩ := hfacts s hs
  exact ⟨s, hlog, dps_merged hrun (List.isEmpty_iff.mp hempty)⟩

/-- A refresh reads `NaN`, the connection is lost, and the purifier has been switched off when it
is reopened. -/
def lostReportActions : List Action :=
  firstStatus (statusReply true) ++ [.request .refresh, .work (statusReply true) 0, .resume 0 0,
    .work nanReply 0, .resume 0 0, .work (statusReply false) 0, .resume 0 0,
    .work (statusReply true) 0, .resume 0 0, .timeout 1, .take, .listVersions, .tryVersion none,
    .answer offReply none, .resume 0 1]

/-- **A lost report.**  Announcing the reopened connection publishes the `NaN` from before again,
which raises, and the status that opened the connection is never merged. -/
theorem reopened_status_lost :
    ¬ ∀ (as : List Action) (s : Logged Coordinator),
      Run (Logged.step Coordinator.callbacks) (fun s a => s.world.InOrder a) purifierDevice as s →
      s.world.results = [] → s.world.dev.dps = merged s.log := by
  intro hclaim
  let execution := exec (Logged.step Coordinator.callbacks) purifierDevice lostReportActions
  obtain ⟨s, hs⟩ := Option.isSome_iff_exists.mp (show execution.isSome = true by decide +kernel)
  have hrun : Run (Logged.step Coordinator.callbacks) (fun s a => s.world.InOrder a)
      purifierDevice lostReportActions s := Run.of_meets hs (by decide +kernel)
  have hfacts : ∀ v ∈ execution, v.world.results.isEmpty = true ∧
      Json.pyEq (v.world.dev.dps.get dpSwitch) (.bool true) = true ∧
      Json.pyEq ((merged v.log).get dpSwitch) (.bool true) = false := by decide +kernel
  obtain ⟨hempty, hknown, hread⟩ := hfacts s hs
  rw [hclaim lostReportActions s hrun (List.isEmpty_iff.mp hempty), hread] at hknown
  exact absurd hknown (by simp)

end World

end Lan
