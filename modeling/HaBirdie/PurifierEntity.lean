import HaBirdie.LanAvailability
import HaBirdie.LanLog
import HaBirdie.LoopSurvival

/-!
# Entities show the connection

`purifier/entity.py`, and the calls through which the coordinator uses its device:
`_async_update_data` and `async_send_dps`.

An entity is available while the coordinator's last update succeeded and the DPs it shows have been
reported.  That flag has many writers: the three callbacks of the LAN client, a refresh that
returns or fails, a command that was sent.  What they write is not what the device is at that
moment, because results of the worker still wait; so the invariant (`Reflected`) compares the flag
with `available` in the state where it is written, and says what is still to come where they differ
(`Unsettled`).
-/

namespace Purifier

open Python Lan

/-- `reported`. -/
def PurifierState.reported (required : List PyStr) (s : PurifierState) : Bool :=
  required.all fun dp => decide (dp ∈ s.dps)

namespace Coordinator

/-- `available` of an entity that shows the DPs in `required`. -/
def available (required : List PyStr) (c : Coordinator) : Bool :=
  c.lastUpdateSuccess && c.data.any (PurifierState.reported required)

/-- A refresh of the `DataUpdateCoordinator`, after `async_refresh` in `_async_update_data` ended.
An exception other than `UpdateFailed` fails the update, too. -/
def refreshed (dev : Device) : Ending → Coordinator → Coordinator
  | .returned (some dps), c =>
      match fromDps dps with
      | .ok state => c.setUpdatedData state
      | .error _ => { c with lastUpdateSuccess := false }
  | .raised (.lan _), c => c.setUpdateError (.deviceUnreachable dev.config.host)
  | .raised (.foreign _), c => { c with lastUpdateSuccess := false }
  | _, c => c

/-- What the coordinator does after a call of its device ended. -/
def goesOn (dev : Device) (sends : Option PyDict) : Call → Coordinator → Coordinator
  | .done .refresh ending, c => c.refreshed dev ending
  | .done .setDps (.returned _), c => sends.elim c fun dps => (c.commandSent dps).1
  | _, c => c

end Coordinator

namespace Home

/-- The call that goes on in a step, and the DPs it is to send. -/
def goingOn (w : World Coordinator) : Action → Option (Nat × Option PyDict)
  | .request (.setDps dps) => some (w.calls.length, some dps)
  | .request _ => some (w.calls.length, none)
  | .resume i now => (w.actsOn (.resume i now)).map fun n =>
      (n, match w.calls[n]? with
        | some (.setting dps) => some dps
        | _ => none)
  | _ => none

/-- The coordinator goes on after a step of its device. -/
def continued (w : World Coordinator) (a : Action) (w' : World Coordinator) : World Coordinator :=
  match goingOn w a with
  | none => w'
  | some (n, sends) =>
      match w'.calls[n]? with
      | none => w'
      | some pc => { w' with client := w'.client.goesOn w'.dev sends pc }

/-- A step of a purifier with its coordinator. -/
def step (w : World Coordinator) (a : Action) : Option (World Coordinator) :=
  (w.step Coordinator.callbacks a).map (continued w a)

/-- The assumptions on a step: those on the device (`Ordinary`), a command writes some DP, and each
report that is handled decodes together with what is known. -/
def Usual (w : World Coordinator) (a : Action) : Prop :=
  w.Ordinary a ∧
    match a with
    | .request (.setDps dps) => dps.entries ≠ []
    | .resume i _ => ∀ r ∈ w.results[i]?, Decodable (mergeResult w.dev.dps r)
    | _ => True

end Home

end Purifier

namespace Lan

open Python

variable {γ : Type} {cb : Callbacks γ}

/-! ## Handling and going on -/

/-- Up to its next await a coroutine leaves the DPs, `available` and the owner as handling left
them. -/
structure Shown {pc : Type} (h : Handled γ) (t : Turn γ pc) : Prop where
  dps : t.dev.dps = h.dev.dps
  available : t.dev.available = h.dev.available
  client : t.client = h.client

/-- Callbacks that were handled and a turn that publishes nothing show together what the callbacks
showed. -/
theorem Handled.shown {pc : Type} (h : Handled γ) {fail : PyException → pc}
    {k : Device → γ → Turn γ pc} (hk : ∀ d c, Shown ⟨d, c, none⟩ (k d c)) :
    Shown h (h.turn fail k) := by
  unfold Handled.turn
  cases h.raised with
  | some e => exact ⟨rfl, rfl, rfl⟩
  | none =>
      have hnext := hk h.dev h.client
      exact ⟨hnext.dps, hnext.available, hnext.client⟩

/-- A pass of `_run` up to its await publishes nothing. -/
theorem loopTop_shown (now backoff : ℚ) (d : Device) (c : γ) :
    Shown ⟨d, c, none⟩ (loopTop now backoff d c) := by
  have honward := loopTop_onward now backoff d c
  exact ⟨honward.dps, (loopTop_turned now backoff d c).available, honward.client⟩

/-- A step of `_run` that fails publishes nothing before its drop is done. -/
theorem loopFailed_shown (backoff : ℚ) (r : Raised) (d : Device) (c : γ) :
    Shown ⟨d, c, none⟩ (loopFailed backoff r d c) := by
  have honward := loopFailed_onward backoff r d c
  exact ⟨honward.dps, (loopFailed_turned backoff r d c).available, honward.client⟩

/-- Nor does a call that fails. -/
theorem callFailed_shown (op : Operation) (dropping : LostReason → Call) (r : Raised) (d : Device)
    (c : γ) : Shown ⟨d, c, none⟩ (callFailed op dropping r d c) := by
  unfold callFailed
  split
  · exact ⟨rfl, rfl, rfl⟩
  · exact ⟨rfl, rfl, rfl⟩

/-- `_run` takes up a result: it handles it and goes on.  What the coordinator is shown is decided
by the handling alone, so it is stated once for `_run` and the calls. -/
theorem loopResume_shown {now : ℚ} {d : Device} {c : γ} {pc : Loop} {r : Result}
    {t : Turn γ Loop} (h : loopResume cb now d c pc r.value = some t) :
    ∃ handled, Applied cb now d c r handled ∧ Shown handled t := by
  obtain ⟨x, job, value⟩ := r
  cases pc with
  | opening b =>
      cases value with
      | opened version dps =>
          obtain rfl := Option.some.inj h
          exact ⟨_, .opened rfl, Handled.shown _ (loopTop_shown now _)⟩
      | raised r =>
          cases r with
          | lan e =>
              obtain rfl := Option.some.inj h
              exact ⟨_, .openFailed rfl, Handled.shown _ fun _ _ => ⟨rfl, rfl, rfl⟩⟩
          | foreign e =>
              obtain rfl := Option.some.inj h
              exact ⟨_, .unread rfl, rfl, rfl, rfl⟩
      | _ => exact absurd h (by simp [loopResume])
  | reading b =>
      cases value with
      | dps dps =>
          obtain rfl := Option.some.inj h
          exact ⟨_, .full rfl, Handled.shown _ (loopTop_shown now b)⟩
      | raised r =>
          obtain rfl := Option.some.inj h
          exact ⟨_, .unread rfl, loopFailed_shown b r d c⟩
      | _ => exact absurd h (by simp [loopResume])
  | beating b =>
      cases value with
      | done =>
          obtain rfl := Option.some.inj h
          exact ⟨_, .unread rfl, rfl, rfl, rfl⟩
      | raised r =>
          obtain rfl := Option.some.inj h
          exact ⟨_, .unread rfl, loopFailed_shown b r d c⟩
      | _ => exact absurd h (by simp [loopResume])
  | receiving b =>
      cases value with
      | received dps? =>
          cases dps? with
          | none =>
              obtain rfl := Option.some.inj h
              exact ⟨_, .unread rfl, loopTop_shown now b d c⟩
          | some dps =>
              simp only [loopResume] at h
              split at h
              · rename_i hempty
                obtain rfl := Option.some.inj h
                refine ⟨_, .nothing rfl (fun report hreport => ?_) rfl id rfl,
                  loopTop_shown now b d c⟩
                obtain rfl := Option.some.inj hreport
                exact hempty
              · obtain rfl := Option.some.inj h
                exact ⟨_, .pushed rfl, Handled.shown _ (loopTop_shown now b)⟩
      | raised r =>
          obtain rfl := Option.some.inj h
          exact ⟨_, .unread rfl, loopFailed_shown b r d c⟩
      | _ => exact absurd h (by simp [loopResume])
  | dropping b why =>
      cases value with
      | done =>
          obtain rfl := Option.some.inj h
          exact ⟨_, .unavailable rfl, Handled.shown _ fun _ _ => ⟨rfl, rfl, rfl⟩⟩
      | raised r =>
          obtain rfl := Option.some.inj h
          exact ⟨_, .unread rfl, rfl, rfl, rfl⟩
      | _ => exact absurd h (by simp [loopResume])
  | _ => exact absurd h (by simp [loopResume])

/-- A call takes up a result: it handles it and goes on, as `_run` does.  A result that it only
raises it handles by doing nothing. -/
theorem callResume_shown {now : ℚ} {d : Device} {c : γ} {pc : Call} {r : Result}
    {t : Turn γ Call} (h : callResume cb now d c pc r.value = some t) :
    ∃ handled, Applied cb now d c r handled ∧ Shown handled t := by
  obtain ⟨x, job, value⟩ := r
  have hraised : ∀ {r : Raised}, value = .raised r → Shown ⟨d, c, none⟩ t →
      ∃ handled, Applied cb now d c ⟨x, job, value⟩ handled ∧ Shown handled t := by
    intro r heq hshown
    obtain rfl := heq
    exact ⟨_, .unread rfl, hshown⟩
  cases pc with
  | connecting =>
      cases value with
      | opened version dps =>
          obtain rfl := Option.some.inj h
          exact ⟨_, .opened rfl, Handled.shown _ fun _ _ => ⟨rfl, rfl, rfl⟩⟩
      | raised r =>
          obtain rfl := Option.some.inj h
          exact hraised rfl ⟨rfl, rfl, rfl⟩
      | _ => exact absurd h (by simp [callResume])
  | refreshing =>
      cases value with
      | dps dps =>
          obtain rfl := Option.some.inj h
          exact ⟨_, .full rfl, Handled.shown _ fun _ _ => ⟨rfl, rfl, rfl⟩⟩
      | raised r =>
          obtain rfl := Option.some.inj h
          exact hraised rfl (callFailed_shown _ _ r d c)
      | _ => exact absurd h (by simp [callResume])
  | refreshLost why =>
      cases value with
      | done =>
          obtain rfl := Option.some.inj h
          exact ⟨_, .unavailable rfl, Handled.shown _ fun _ _ => ⟨rfl, rfl, rfl⟩⟩
      | raised r =>
          obtain rfl := Option.some.inj h
          exact hraised rfl ⟨rfl, rfl, rfl⟩
      | _ => exact absurd h (by simp [callResume])
  | setting dps =>
      cases value with
      | done =>
          obtain rfl := Option.some.inj h
          let d' : Device := { d with refreshAt := some (now + d.timings.refreshAfterCommand) }
          exact ⟨⟨d', c, none⟩, .nothing rfl (fun _ hr => absurd hr (by simp [Result.report])) rfl
            (by simp [d']) rfl, rfl, rfl, rfl⟩
      | raised r =>
          obtain rfl := Option.some.inj h
          exact hraised rfl (callFailed_shown _ _ r d c)
      | _ => exact absurd h (by simp [callResume])
  | settingLost why =>
      cases value with
      | done =>
          obtain rfl := Option.some.inj h
          exact ⟨_, .unavailable rfl, Handled.shown _ fun _ _ => ⟨rfl, rfl, rfl⟩⟩
      | raised r =>
          obtain rfl := Option.some.inj h
          exact hraised rfl ⟨rfl, rfl, rfl⟩
      | _ => exact absurd h (by simp [callResume])
  | reconfiguring =>
      cases value with
      | done =>
          obtain rfl := Option.some.inj h
          by_cases hav : d.available = true
          · rw [if_pos hav]
            exact ⟨_, .unavailable rfl, Handled.shown _ fun _ _ => ⟨rfl, rfl, rfl⟩⟩
          · rw [if_neg hav]
            exact ⟨_, .unread rfl, rfl, rfl, rfl⟩
      | raised r =>
          obtain rfl := Option.some.inj h
          exact hraised rfl ⟨rfl, rfl, rfl⟩
      | _ => exact absurd h (by simp [callResume])
  | closeDropping =>
      cases value with
      | done =>
          obtain rfl := Option.some.inj h
          exact ⟨_, .unread rfl, rfl, rfl, rfl⟩
      | raised r =>
          obtain rfl := Option.some.inj h
          exact hraised rfl ⟨rfl, rfl, rfl⟩
      | _ => exact absurd h (by simp [callResume])
  | _ => exact absurd h (by simp [callResume])

end Lan

namespace Purifier

open Python Lan StepRuns

/-! ## The coordinator and its device -/

/-- What the coordinator shows agrees with its device. -/
structure Agrees (d : Device) (c : Coordinator) : Prop where
  decodes : Decodable d.dps
  published : d.available = true → c.data ≠ none
  sound : c.data ≠ none → c.lastUpdateSuccess = true → d.available = true
  knows : ∀ state, c.data = some state → ∀ dp ∈ d.dps, dp ∈ state.dps

/-- Of the device only the DPs and the availability matter. -/
theorem Agrees.congr {d d' : Device} {c : Coordinator} (h : Agrees d c) (hdps : d'.dps = d.dps)
    (hav : d'.available = d.available) : Agrees d' c where
  decodes := by rw [hdps]; exact h.decodes
  published := by rw [hav]; exact h.published
  sound := by rw [hav]; exact h.sound
  knows := by rw [hdps]; exact h.knows

/-- Publishing DPs that decode. -/
theorem Coordinator.publish_decodable {dps : PyDict} (h : Decodable dps) (c : Coordinator) :
    ∃ state, state.dps = dps ∧ c.publish dps = (c.setUpdatedData state, none) := by
  obtain ⟨state, hstate⟩ := (fromDps_ok_iff dps).mpr h
  exact ⟨state, (fromDps_decoded hstate).dps, by simp [publish, hstate]⟩

/-- A device that was lost fails the last update. -/
theorem Coordinator.onAvailability_lost (c : Coordinator) (error : Option LanError) (d : Device)
    (now : ℚ) :
    (onAvailability false error d now c).1.data = c.data ∧
      (onAvailability false error d now c).1.lastUpdateSuccess = false := by
  unfold onAvailability
  rw [if_neg (by simp)]
  split
  · exact ⟨rfl, rfl⟩
  · exact ⟨rfl, rfl⟩

/-- A failed open of `_run` is only counted. -/
theorem Coordinator.onError_kept (c : Coordinator) (error : LanError) (d : Device) (now : ℚ) :
    (onError error d now c).1.data = c.data ∧
      (onError error d now c).1.lastUpdateSuccess = c.lastUpdateSuccess := by
  unfold onError
  dsimp only
  split
  · split
    · exact ⟨rfl, rfl⟩
    · exact ⟨rfl, rfl⟩
  · exact ⟨rfl, rfl⟩

/-- A state of all DPs of an available device is published. -/
theorem Agrees.updated {d : Device} {c : Coordinator} {state : PurifierState}
    (hdec : Decodable d.dps) (hav : d.available = true) (hknows : ∀ dp ∈ d.dps, dp ∈ state.dps) :
    Agrees d (c.setUpdatedData state) where
  decodes := hdec
  published _ := by simp [Coordinator.setUpdatedData]
  sound _ _ := hav
  knows t ht := by
    obtain rfl : state = t := Option.some.inj ht
    exact hknows

/-- After handling, the coordinator agrees, and where the device is available its last update
succeeded if it did before or the result was an open. -/
structure Handles (c : Coordinator) (r : Result) (h : Handled Coordinator) : Prop where
  raised : h.raised = none
  agrees : Agrees h.dev h.client
  success : h.dev.available = true →
    c.lastUpdateSuccess = true ∨ r.effect = some true → h.client.lastUpdateSuccess = true

/-- A full status of an available device. -/
theorem handles_full (now : ℚ) {report : PyDict} {d : Device} (c c₀ : Coordinator) (r : Result)
    (hdec : Decodable (d.dps.update report)) (hav : d.available = true) :
    Handles c₀ r (handleDps Coordinator.callbacks now report true d c) := by
  obtain ⟨state, hdps, hpublish⟩ := Coordinator.publish_decodable hdec c
  have hhandled : handleDps Coordinator.callbacks now report true d c =
      ⟨mergeReport now report true d, c.setUpdatedData state, none⟩ := by
    unfold handleDps
    rw [if_pos (by simp)]
    show Handled.mk _ (c.publish (d.dps.update report)).1 (c.publish (d.dps.update report)).2 = _
    rw [hpublish]
  rw [hhandled]
  refine ⟨rfl, Agrees.updated hdec hav fun dp hdp => ?_, fun _ _ => rfl⟩
  rw [hdps]
  exact hdp

/-- A pushed report of an available device: its DPs are merged, and the coordinator gets the merged
map.  A report without news publishes nothing, and what is shown stays right. -/
theorem Agrees.pushed (now : ℚ) {report : PyDict} {d : Device} {c : Coordinator} {r : Result}
    (h : Agrees d c) (hdec : Decodable (d.dps.update report)) (hav : d.available = true)
    (heffect : r.effect = none) :
    Handles c r (handleDps Coordinator.callbacks now report false d c) := by
  obtain ⟨state, hdps, hpublish⟩ := Coordinator.publish_decodable hdec c
  unfold handleDps
  dsimp only
  split
  · show Handles c r ⟨mergeReport now report false d, (c.publish (d.dps.update report)).1,
      (c.publish (d.dps.update report)).2⟩
    rw [hpublish]
    refine ⟨rfl, Agrees.updated hdec hav fun dp hdp => ?_, fun _ _ => rfl⟩
    rw [hdps]
    exact hdp
  · rename_i hnews
    simp only [Bool.or_false, Bool.not_eq_true, reportsNews, Bool.or_eq_false_iff,
      List.any_eq_false, decide_eq_true_eq, not_not] at hnews
    refine ⟨rfl, ⟨hdec, h.published, h.sound, fun state hstate dp hdp => ?_⟩, ?_⟩
    · -- nothing new: every DP of the report was known
      apply h.knows state hstate dp
      rcases AList.mem_union.mp hdp with hreport | hknown
      · obtain ⟨e, he, rfl⟩ := List.mem_map.mp hreport
        exact hnews.2 e he
      · exact hknown
    · intro _ hsuccess
      rcases hsuccess with hsuccess | hopened
      · exact hsuccess
      · exact absurd (heffect.symm.trans hopened) (by simp)

/-- Announcing that the device has become unavailable. -/
theorem Agrees.unavailable (now : ℚ) (error : Option LanError) {d : Device} {c : Coordinator}
    (r : Result) (h : Agrees d c) :
    Handles c r (setAvailable Coordinator.callbacks now false error d c) := by
  unfold setAvailable
  split
  · rename_i hav
    exact ⟨rfl, h, fun h => absurd (hav.trans h) (by simp)⟩
  · obtain ⟨hdata, hfailed⟩ := c.onAvailability_lost error { d with available := false } now
    refine ⟨Coordinator.onAvailability_false_raised error _ now c,
      ⟨h.decodes, by simp, fun _ hsuccess => ?_, fun state hstate => ?_⟩, by simp⟩
    · exact absurd (hfailed.symm.trans hsuccess) (by simp)
    · exact h.knows state (hdata.symm.trans hstate)

/-- A failed open of `_run`: the device is unavailable afterwards, and so the coordinator shows it.
The callbacks of a coordinator raise nothing here, so `_run` goes on. -/
theorem Agrees.openFailed (now : ℚ) (error : LanError) {d : Device} {c : Coordinator}
    (r : Result) (h : Agrees d c) :
    Handles c r (Lan.openFailed Coordinator.callbacks now error d c) := by
  have hagrees : Agrees { d with lastError := some error } c := h.congr rfl rfl
  obtain ⟨hraised, hset, _⟩ := hagrees.unavailable now (some error) r
  have hav := setAvailable_available Coordinator.callbacks now false (some error)
    { d with lastError := some error } c
  unfold Lan.openFailed Handled.andThen
  rw [hraised]
  dsimp only
  generalize setAvailable Coordinator.callbacks now false (some error)
    { d with lastError := some error } c = first at hset hav ⊢
  obtain ⟨hdata, hsuccess⟩ := first.client.onError_kept error first.dev now
  refine ⟨Coordinator.onError_raised error first.dev now first.client, ⟨hset.decodes, ?_, ?_, ?_⟩,
    fun h => absurd (hav.symm.trans h) (by simp)⟩
  · intro havailable
    exact absurd (hav.symm.trans havailable) (by simp)
  · intro hsome hlast
    exact hset.sound (by rw [← hdata]; exact hsome) (hsuccess.symm.trans hlast)
  · intro state hstate
    exact hset.knows state (hdata.symm.trans hstate)

/-- A successful open: the device becomes available, and the opening status is merged.  The first
call publishes what was known before, the second one the whole of what is known now. -/
theorem Agrees.opened (now : ℚ) (version : PyStr) {dps : PyDict} {d : Device} {c : Coordinator}
    (r : Result) (h : Agrees d c) (hdec : Decodable (d.dps.update dps)) :
    Handles c r (handleConnected Coordinator.callbacks now version dps d c) := by
  let d' : Device :=
    { d with version := some version, lastError := none, lastRx := now, lastHeartbeat := now }
  have hraised : (setAvailable Coordinator.callbacks now true none d' c).raised = none := by
    unfold setAvailable
    split
    · rfl
    · exact (Coordinator.onAvailability_raised none { d' with available := true } now c).mpr
        fun _ => h.decodes
  have hav := setAvailable_available Coordinator.callbacks now true none d' c
  have hdps : (setAvailable Coordinator.callbacks now true none d' c).dev.dps = d.dps :=
    (@setAvailable_sameData _ Coordinator.callbacks now true none d' c).dps
  show Handles c r ((setAvailable Coordinator.callbacks now true none d' c).andThen
    (handleDps Coordinator.callbacks now dps true))
  unfold Handled.andThen
  rw [hraised]
  exact handles_full now _ c r (by rw [hdps]; exact hdec) hav

end Purifier

namespace Lan

/-- A report, or a command that was sent: there was a connection when the worker posted it. -/
def Result.live (r : Result) : Bool :=
  match r.job, r.value with
  | _, .dps _ => true
  | _, .received (some _) => true
  | .wCall (.set _), .done => true
  | _, _ => false

/-- Only an open makes a device available. -/
theorem effect_true {x : Waiter} {job : Job} {value : JobValue}
    (h : Lan.effect x job value = some true) : ∃ version dps, value = .opened version dps := by
  cases value with
  | opened version dps => exact ⟨version, dps, rfl⟩
  | raised r => cases x <;> cases job <;> cases r <;> exact absurd h (by simp [Lan.effect])
  | _ => cases x <;> cases job <;> exact absurd h (by simp [Lan.effect])

/-- A report that was received does not change the availability. -/
theorem effect_received (x : Waiter) (job : Job) (report : Option Python.PyDict) :
    Lan.effect x job (.received report) = none := by
  cases x <;> cases job <;> rfl

/-- The results that wait and show a connection do so after the effects of those before them. -/
def Live : Bool → List Result → Prop
  | _, [] => True
  | b, r :: rs => (r.live = true → b = true) ∧ Live (r.effect.getD b) rs

/-- One more result: where it shows a connection, the device is available after all results before
it. -/
theorem Live.snoc {b : Bool} {rs : List Result} {r : Result} (h : Live b rs)
    (hr : r.live = true → settle b rs = true) : Live b (rs ++ [r]) := by
  induction rs generalizing b with
  | nil => exact ⟨hr, trivial⟩
  | cons r' rs ih => exact ⟨h.1, ih h.2 hr⟩

/-- Some result has an effect, if all of them together do. -/
theorem exists_effect {b : Bool} {rs : List Result} (h : settle b rs ≠ b) :
    ∃ r ∈ rs, r.effect ≠ none := by
  induction rs generalizing b with
  | nil => exact absurd rfl h
  | cons r rs ih =>
      by_cases heffect : r.effect = none
      · rw [settle_cons, heffect] at h
        obtain ⟨r', hr', heffect'⟩ := ih h
        exact ⟨r', List.mem_cons_of_mem r hr', heffect'⟩
      · exact ⟨r, List.mem_cons_self, heffect⟩

namespace World

variable {γ : Type} {w w' : World γ} {a : Action}

/-- An ordinary step takes the results in their order. -/
theorem Ordinary.inOrder (h : w.Ordinary a) : w.InOrder a := by
  cases a with
  | request r =>
      cases r with
      | close => exact absurd h id
      | _ => exact ⟨trivial, trivial⟩
  | cancel i => exact absurd h id
  | resume i now => exact ⟨trivial, h⟩
  | tryVersion failure => exact ⟨h, trivial⟩
  | answer reply closeFailure => exact ⟨h, trivial⟩
  | work reply now => exact ⟨h, trivial⟩
  | _ => exact ⟨trivial, trivial⟩

/-- In an ordinary step library calls return. -/
theorem Ordinary.libraryReturns (h : w.Ordinary a) : w.LibraryReturns a := by
  cases a with
  | tryVersion failure => exact h
  | answer reply closeFailure => exact h
  | work reply now => exact h
  | _ => trivial

/-- A result whose effect is still to come, or an open that the worker is at. -/
def Unsettled (w : World γ) : Prop := (∃ r ∈ w.results, r.effect ≠ none) ∨ w.worker.current ≠ []

/-- The worker posts at most one result, and one that shows a connection only if there is one.
Such a job runs in a single step, so the worker was idle before. -/
theorem WorkerMove.posts_live (h : WorkerMove w a w') :
    w'.results = w.results ∨ ∃ r, w'.results = w.results ++ [r] ∧
      (r.live = true → w.worker = .idle ∧ w.dev.api ≠ none) := by
  cases h with
  | took => exact Or.inl (by simp)
  | listed => exact Or.inl rfl
  | created => exact Or.inl rfl
  | nextVersion => exact Or.inl rfl
  | skipped => exact Or.inl rfl
  | @dropped _ _ x =>
      exact Or.inr ⟨⟨x, .wDrop, .done⟩, by simp [post], fun h => absurd h (by simp [Result.live])⟩
  | notHeld => exact Or.inr ⟨_, rfl, fun h => absurd h (by simp [Result.live])⟩
  | callRaised => exact Or.inr ⟨_, rfl, fun h => absurd h (by simp [Result.live])⟩
  | callReturned hworker _ hheld =>
      refine Or.inr ⟨_, rfl, fun _ => ⟨hworker, fun hnone => ?_⟩⟩
      rw [heldApi, hnone] at hheld
      exact absurd hheld (by simp)
  | _ => exact Or.inr ⟨_, rfl, fun h => absurd h (by simp [Result.live])⟩

/-- What is unsettled stays so while the worker goes on, or the device is unavailable.  An open
that the worker is at ends with a result that has an effect, unless it failed on an unavailable
device. -/
theorem WorkerMove.unsettled (hw : w.Consistent) (hok : w.Ordinary a) (h : WorkerMove w a w')
    (hunsettled : w.Unsettled) : w'.Unsettled ∨ w.dev.available = false := by
  have hold : ∀ {w' : World γ} {new : List Result}, w'.results = w.results ++ new →
      w.worker = .idle → w'.Unsettled := by
    intro w' new hresults hidle
    obtain ⟨r, hr, heffect⟩ := hunsettled.resolve_right (by simp [hidle, Worker.current])
    exact Or.inl ⟨r, by rw [hresults]; exact List.mem_append_left _ hr, heffect⟩
  -- an open that failed makes the device unavailable, or nothing was open before it
  have hfailed : ∀ {w₀ : World γ} {x : Waiter} {e : LanError}, w.worker.current = [(x, .wOpen)] →
      (w₀.post x .wOpen (.raised (.lan e))).Unsettled ∨ w.dev.available = false := by
    intro w₀ x e hcurrent
    cases x with
    | loop =>
        refine Or.inl (Or.inl
          ⟨⟨.loop, .wOpen, .raised (.lan e)⟩, ?_, by simp [Result.effect, effect]⟩)
        simp [post]
    | call i => exact Or.inr (hw.unopened i (by simp [toRun, hcurrent])).available
    | nobody => exact absurd rfl (hw.attended (.nobody, .wOpen) (by simp [pending, hcurrent]))
  cases h with
  | took => exact Or.inl (Or.inr (by simp [Worker.current]))
  | listed => exact Or.inl (Or.inr (by simp [Worker.current]))
  | created => exact Or.inl (Or.inr (by simp [Worker.current]))
  | nextVersion => exact Or.inl (Or.inr (by simp [Worker.current]))
  | noneLeft hworker => exact hfailed (by rw [hworker]; rfl)
  | foundClosed hworker => exact hfailed (by rw [hworker]; rfl)
  | createFailed => exact absurd hok (by simp [Ordinary])
  | statusRaised _ hreply => exact absurd hreply (Reply.not_raised hok.1)
  | @opened _ _ x _ version _ _ _ dps =>
      refine Or.inl (Or.inl ⟨⟨x, .wOpen, .opened version dps⟩, by simp [post], ?_⟩)
      simp [Result.effect, effect]
  | closeRaised => exact absurd hok.2 (by simp)
  | unreachable hworker => exact hfailed (by rw [hworker]; rfl)
  | @dropped _ _ x _ hworker =>
      exact Or.inl (@hold _ [⟨x, .wDrop, .done⟩] (by simp [post]) hworker)
  | notHeld hworker => exact Or.inl (hold rfl hworker)
  | callRaised hworker => exact Or.inl (hold rfl hworker)
  | callReturned hworker => exact Or.inl (hold rfl hworker)
  | skipped hworker => exact Or.inl (@hold _ [] (by simp) hworker)

end World

end Lan

namespace Purifier

open Python Lan StepRuns

/-- Handling a result keeps the agreement, whichever result it is.  This puts the four lemmas above
together. -/
theorem Agrees.applied {now : ℚ} {d : Device} {c : Coordinator} {r : Result}
    {handled : Handled Coordinator} (h : Agrees d c)
    (happlied : Applied Coordinator.callbacks now d c r handled)
    (hdec : Decodable (mergeResult d.dps r)) (hlive : r.live = true → d.available = true) :
    Handles c r handled := by
  cases happlied with
  | @opened version dps hvalue =>
      refine h.opened now version r ?_
      simpa [mergeResult, Result.report, hvalue] using hdec
  | @full dps hvalue =>
      refine handles_full now c c r ?_ (hlive (by simp [Result.live, hvalue]))
      simpa [mergeResult, Result.report, hvalue] using hdec
  | @pushed dps hvalue =>
      refine h.pushed now ?_ (hlive (by simp [Result.live, hvalue])) ?_
      · simpa [mergeResult, Result.report, hvalue] using hdec
      · rw [Result.effect, hvalue]
        exact effect_received _ _ _
  | unavailable => exact h.unavailable now _ r
  | openFailed => exact h.openFailed now _ r
  | nothing hfull _ hdps _ hav =>
      refine ⟨rfl, h.congr hdps hav, fun _ hsuccess => ?_⟩
      rcases hsuccess with hsuccess | hopened
      · exact hsuccess
      · obtain ⟨version, dps, hvalue⟩ := effect_true hopened
        exact absurd hfull (by simp [Result.isFull, hvalue])

namespace Home

/-! ## Steps of the device -/

/-- What the coordinator shows, next to what is still to come. -/
structure Showing (w : World Coordinator) : Prop where
  opened : w.dev.closed = false
  agrees : Agrees w.dev w.client
  live : Live w.dev.available w.results
  current : w.dev.available = true → w.client.lastUpdateSuccess = true ∨ w.Unsettled

/-- The invariant. -/
structure Reflected (w : World Coordinator) : Prop extends Showing w where
  consistent : w.Consistent
  orderly : w.Orderly
  normal : w.NormalResults

/-- A coordinator just created shows nothing yet, and nothing is to come. -/
theorem Reflected.init (entry : EntryData) (config : DeviceConfig) (searches : Searches) :
    Reflected (Coordinator.start entry config searches) where
  opened := rfl
  agrees :=
    { decodes := show Decodable ∅ by decide
      published := fun h => absurd h (by simp [Coordinator.start, World.init])
      sound := fun h => absurd rfl h
      knows := fun _ h => absurd h (by simp [Coordinator.start, World.init]) }
  live := trivial
  current h := absurd h (by simp [Coordinator.start, World.init])
  consistent := World.Consistent.init _ _ _ _
  orderly := World.Orderly.init _ _ _ _
  normal := by simp [World.NormalResults, Coordinator.start, World.init]

/-- The worker's steps: they show the coordinator nothing.  What they post is to be taken up, and
is accounted for in the device's view. -/
theorem Showing.worked {w w' : World Coordinator} {a : Action} (hw : Showing w)
    (hconsistent : w.Consistent) (hok : w.Ordinary a) (h : World.WorkerMove w a w') :
    Showing w' := by
  have hav : w'.dev.available = w.dev.available := h.keeps.available
  refine ⟨h.keeps.closed.trans hw.opened, ?agrees, ?live, ?current⟩
  case agrees =>
    rw [h.keeps.client]
    exact hw.agrees.congr h.sameData.dps hav
  case live =>
    rw [hav]
    rcases h.posts_live with hresults | ⟨r, hresults, hlive⟩
    · rw [hresults]
      exact hw.live
    · rw [hresults]
      refine hw.live.snoc fun hr => ?_
      obtain ⟨hidle, hapi⟩ := hlive hr
      rw [hconsistent.settled (by rw [hidle]; rfl), Option.isSome_iff_ne_none]
      exact hapi
  case current =>
    intro havailable
    rw [hav] at havailable
    rw [h.keeps.client]
    rcases hw.current havailable with hsuccess | hunsettled
    · exact Or.inl hsuccess
    · rcases h.unsettled hconsistent hok hunsettled with hunsettled | hfalse
      · exact Or.inr hunsettled
      · exact absurd (hfalse.symm.trans havailable) (by simp)

/-- A step that takes up no result and tells the coordinator nothing. -/
theorem Showing.kept {w w' : World Coordinator} (hw : Showing w)
    (hclosed : w'.dev.closed = w.dev.closed) (hdps : w'.dev.dps = w.dev.dps)
    (hav : w'.dev.available = w.dev.available) (hclient : w'.client = w.client)
    (hresults : w'.results = w.results) (hworker : w'.worker = w.worker) : Showing w' where
  opened := hclosed.trans hw.opened
  agrees := by
    rw [hclient]
    exact hw.agrees.congr hdps hav
  live := by
    rw [hav, hresults]
    exact hw.live
  current h := by
    rw [hclient, World.Unsettled, hresults, hworker]
    exact hw.current (hav.symm.trans h)

/-- A coroutine takes up the first result: the device and the coordinator learn of it in the same
turn.  The results behind it were posted later and are taken up in their order. -/
theorem Showing.taken {w w' : World Coordinator} {r : Result} {rest : List Result}
    {handled : Handled Coordinator} (hw : Showing w) (hresults : w.results = r :: rest)
    (hhandled : Handles w.client r handled) (hclosed : w'.dev.closed = w.dev.closed)
    (hdps : w'.dev.dps = handled.dev.dps) (hav : w'.dev.available = handled.dev.available)
    (hclient : w'.client = handled.client)
    (heffect : w'.dev.available = r.effect.getD w.dev.available) (hrest : w'.results = rest)
    (hworker : w'.worker = w.worker) : Showing w' := by
  refine ⟨hclosed.trans hw.opened, ?agrees, ?live, ?current⟩
  case agrees =>
    rw [hclient]
    exact hhandled.agrees.congr hdps hav
  case live =>
    have hlive := hw.live
    rw [hresults] at hlive
    rw [hrest, heffect]
    exact hlive.2
  case current =>
    intro havailable
    have hsuccess : w.client.lastUpdateSuccess = true ∨ r.effect = some true →
        w'.client.lastUpdateSuccess = true := by
      rw [hclient]
      exact hhandled.success (hav.symm.trans havailable)
    cases heff : r.effect with
    | some b =>
        -- an effect that leaves the device available is an open
        rw [heff, Option.getD_some] at heffect
        obtain rfl : true = b := havailable.symm.trans heffect
        exact Or.inl (hsuccess (Or.inr heff))
    | none =>
        rw [heff, Option.getD_none] at heffect
        rcases hw.current (heffect.symm.trans havailable) with hbefore | ⟨r', hr', hne⟩ | hbusy
        · exact Or.inl (hsuccess (Or.inl hbefore))
        · rw [hresults] at hr'
          rcases List.mem_cons.mp hr' with rfl | hr'
          · exact absurd heff hne
          · exact Or.inr (Or.inl ⟨r', by rw [hrest]; exact hr', hne⟩)
        · exact Or.inr (Or.inr (by rw [hworker]; exact hbusy))

/-- A result is taken up, by `_run` or a call, and is handled there.  Since results are taken up in
order it is the first one. -/
theorem Reflected.took {w w' : World Coordinator} {now : ℚ} {r : Result} {rest : List Result}
    (hw : Reflected w) (hresults : w.results = r :: rest)
    (hdec : Decodable (mergeResult w.dev.dps r))
    (h : World.Took Coordinator.callbacks now w r rest w') : Showing w' := by
  have hhead : w.results[0]? = some r := by rw [hresults]; rfl
  have hattends : r.waiter ≠ .nobody := hw.orderly.attends (List.mem_of_getElem? hhead)
  have hjob := (hw.orderly.tracked.of_result hhead hattends).1
  have hlive : r.live = true → w.dev.available = true := by
    have hlive := hw.live
    rw [hresults] at hlive
    exact hlive.1
  cases h with
  | @byLoop t hx ht =>
      obtain ⟨handled, happlied, hshown⟩ := loopResume_shown ht
      have hhandled := hw.agrees.applied happlied hdec hlive
      rw [hx] at hjob
      have hturn := loopResume_turned hjob ht
      refine hw.toShowing.taken hresults hhandled ?_ ?_ ?_ ?_ ?_ (by simp) (by simp)
      · simpa using hturn.same.closed
      · simpa using hshown.dps
      · simpa using hshown.available
      · simpa using hshown.client
      · simpa [Result.effect, hx] using hturn.available
  | @byCall n pc t hx hpc ht =>
      obtain ⟨handled, happlied, hshown⟩ := callResume_shown ht
      have hhandled := hw.agrees.applied happlied hdec hlive
      rw [hx, World.awaits, hpc] at hjob
      have hturn := callResume_turned n hjob (hw.orderly.noClose pc (List.mem_of_getElem? hpc)) ht
      refine hw.toShowing.taken hresults hhandled ?_ ?_ ?_ ?_ ?_ (by simp) (by simp)
      · simpa using hturn.same.closed
      · simpa using hshown.dps
      · simpa using hshown.available
      · simpa using hshown.client
      · simpa [Result.effect, hx] using hturn.available

/-- A step on the event loop that takes up no result. -/
theorem Showing.quiet {w w' : World Coordinator} (hw : Showing w) (h : World.Quiet w w') :
    Showing w' := by
  cases h with
  | stayed => exact hw
  | started => exact hw.kept rfl rfl rfl rfl rfl rfl
  | @went now backoff =>
      have hshown := loopTop_shown now backoff w.dev w.client
      have hturn := loopTop_turned now backoff w.dev w.client
      exact hw.kept (by simpa using hturn.same.closed) (by simpa using hshown.dps)
        (by simpa using hshown.available) (by simpa using hshown.client) (by simp) (by simp)
  | called => exact hw.kept (by simp) (by simp) (by simp) (by simp) (by simp) (by simp)
  | reconfigured => exact hw.kept (by simp) (by simp) (by simp) (by simp) (by simp) (by simp)

/-- **A step of the device** keeps the invariant. -/
theorem Reflected.device {w w' : World Coordinator} {a : Action} (hw : Reflected w)
    (hok : Usual w a) (h : w.step Coordinator.callbacks a = some w') : Reflected w' := by
  refine
    { toShowing := ?_, consistent := hw.consistent.step hok.1 h,
      orderly := hw.orderly.step hok.1.inOrder h,
      normal := hw.normal.step hok.1.libraryReturns h }
  cases hw.orderly.flow hok.1.inOrder h with
  | worked hmove => exact hw.toShowing.worked hw.consistent hok.1 hmove
  | took ha hresults htook =>
      subst ha
      exact hw.took hresults (hok.2 _ (by rw [hresults]; rfl)) htook
  | quiet hquiet => exact hw.toShowing.quiet hquiet

/-! ## The coordinator goes on -/

/-- What the coordinator relies on where a call has got to. -/
def Goes (w : World Coordinator) (sends : Option PyDict) : Call → Prop
  | .done .refresh (.returned dps) => dps = some w.dev.dps ∧ w.dev.available = true
  | .done .refresh (.raised _) => w.dev.available = true → w.Unsettled
  | .done .setDps (.returned _) => sends ≠ none → w.dev.available = true
  | _ => True

/-- A failed refresh. -/
theorem Showing.failed {w : World Coordinator} {c : Coordinator} (hw : Showing w)
    (hdata : c.data = w.client.data) (hfailed : c.lastUpdateSuccess = false)
    (hunsettled : w.dev.available = true → w.Unsettled) : Showing { w with client := c } where
  opened := hw.opened
  agrees :=
    { decodes := hw.agrees.decodes
      published := fun h => by rw [hdata]; exact hw.agrees.published h
      sound := fun _ h => absurd (hfailed.symm.trans h) (by simp)
      knows := fun state hstate => hw.agrees.knows state (hdata.symm.trans hstate) }
  live := hw.live
  current h := Or.inr (hunsettled h)

/-- A published state of all DPs, while the device is available. -/
theorem Showing.updated {w : World Coordinator} {state : PurifierState} (hw : Showing w)
    (hav : w.dev.available = true) (hknows : ∀ dp ∈ w.dev.dps, dp ∈ state.dps) :
    Showing { w with client := w.client.setUpdatedData state } where
  opened := hw.opened
  agrees := Agrees.updated hw.agrees.decodes hav hknows
  live := hw.live
  current _ := Or.inl rfl

/-- An expected state has all DPs of the state before. -/
theorem applyDps_knows {state expected : PurifierState} {dps : PyDict}
    (h : applyDps state dps = .ok expected) {dp : PyStr} (hdp : dp ∈ state.dps) :
    dp ∈ expected.dps := by
  rw [(fromDps_decoded h).dps]
  exact AList.mem_union.mpr (Or.inr hdp)

/-- A call of an entity that goes on leaves what is shown, but for the state that it expects.  A
command that returned found the device available. -/
theorem Showing.continued {w : World Coordinator} {sends : Option PyDict} {pc : Call}
    (hw : Showing w) (hgoes : Goes w sends pc) :
    Showing { w with client := w.client.goesOn w.dev sends pc } := by
  cases pc with
  | done op ending =>
      cases op with
      | refresh =>
          cases ending with
          | returned dps =>
              obtain ⟨rfl, hav⟩ := hgoes
              obtain ⟨state, hstate⟩ := (fromDps_ok_iff _).mpr hw.agrees.decodes
              have hupdated : w.client.goesOn w.dev sends
                  (.done .refresh (.returned (some w.dev.dps))) =
                w.client.setUpdatedData state := by
                simp [Coordinator.goesOn, Coordinator.refreshed, hstate]
              rw [hupdated]
              refine hw.updated hav fun dp hdp => ?_
              rw [(fromDps_decoded hstate).dps]
              exact hdp
          | raised r =>
              cases r with
              | lan e => exact hw.failed rfl rfl hgoes
              | foreign e => exact hw.failed rfl rfl hgoes
          | cancelled => exact hw
      | setDps =>
          cases ending with
          | returned v =>
              cases sends with
              | none => exact hw
              | some dps =>
                  have hav : w.dev.available = true := hgoes (by simp)
                  show Showing { w with client := (w.client.commandSent dps).1 }
                  unfold Coordinator.commandSent
                  cases hdata : w.client.data with
                  | none => exact hw
                  | some state =>
                      dsimp only
                      split
                      · rename_i expected hexpected
                        exact hw.updated hav fun dp hdp =>
                          applyDps_knows hexpected (hw.agrees.knows state hdata dp hdp)
                      · exact hw
          | raised r => exact hw
          | cancelled => exact hw
      | _ => exact hw
  | _ => exact hw

/-- The coordinator changes nothing that the device's invariants are about: it goes on with its own
data after the device's call has returned. -/
theorem Reflected.continued {w : World Coordinator} {sends : Option PyDict} {pc : Call}
    (hw : Reflected w) (hgoes : Goes w sends pc) :
    Reflected { w with client := w.client.goesOn w.dev sends pc } := by
  obtain ⟨hshowing, hconsistent, horderly, hnormal⟩ := hw
  refine ⟨hshowing.continued hgoes, ?_, ?_, hnormal⟩
  · exact
      { tracked := hconsistent.tracked.congr rfl rfl fun _ => rfl
        noClose := hconsistent.noClose
        attended := hconsistent.attended
        settled := hconsistent.settled
        opening := hconsistent.opening
        order := hconsistent.order
        unopened := fun i hi =>
          have hun := hconsistent.unopened i hi
          ⟨hun.api, hun.available, hun.results⟩
        fresh := hconsistent.fresh }
  · exact
      { tracked := horderly.tracked.congr rfl rfl fun _ => rfl
        noClose := horderly.noClose
        accepting := horderly.accepting
        attended := horderly.attended
        statuses := horderly.statuses }

/-- A call took up a result, and may have returned with it.  A command returns without an error
only if the device took it. -/
theorem Reflected.goes_call {w w' : World Coordinator} {now : ℚ} {r : Result} {rest : List Result}
    {n : ℕ} {pc : Call} {t : Turn Coordinator Call} (sends : Option PyDict) (hw : Reflected w)
    (hresults : w.results = r :: rest) (hdec : Decodable (mergeResult w.dev.dps r))
    (hx : r.waiter = .call n) (hpc : w.calls[n]? = some pc)
    (ht : callResume Coordinator.callbacks now w.dev w.client pc r.value = some t)
    (hdev : w'.dev = t.dev) : Goes w' sends t.pc := by
  have hhead : w.results[0]? = some r := by rw [hresults]; rfl
  have hmem : r ∈ w.results := List.mem_of_getElem? hhead
  have hattends : r.waiter ≠ .nobody := hw.orderly.attends hmem
  have hjob := (hw.orderly.tracked.of_result hhead hattends).1
  rw [hx, World.awaits, hpc] at hjob
  have hnormal := hw.normal r hmem hattends
  have hlive : r.live = true → w.dev.available = true := by
    have hlive := hw.live
    rw [hresults] at hlive
    exact hlive.1
  have hturn := callResume_turned n hjob (hw.orderly.noClose pc (List.mem_of_getElem? hpc)) ht
  have hother : t.pc.op ≠ .refresh → t.pc.op ≠ .setDps → Goes w' sends t.pc := by
    intro hrefresh hset
    cases hgoes : t.pc with
    | done op ending =>
        rw [hgoes] at hrefresh hset
        cases op with
        | refresh => exact absurd rfl hrefresh
        | setDps => exact absurd rfl hset
        | _ => trivial
    | _ => trivial
  obtain ⟨x, job, value⟩ := r
  cases pc with
  | refreshing =>
      obtain rfl : Job.wCall .status = job := Option.some.inj hjob
      cases value with
      | dps dps =>
          have hav : w.dev.available = true := hlive rfl
          have hhandled := handles_full now w.client w.client ⟨x, .wCall .status, .dps dps⟩ hdec hav
          obtain rfl := Option.some.inj ht
          unfold Handled.turn at hdev ⊢
          rw [hhandled.raised] at hdev ⊢
          refine ⟨by rw [hdev], ?_⟩
          rw [hdev]
          exact (handleDps_available _ now dps true w.dev w.client).trans hav
      | raised raised =>
          cases raised with
          | lan e =>
              cases e with
              | connectionLost why =>
                  obtain rfl := Option.some.inj ht
                  trivial
              | _ => exact absurd hnormal (by simp [normalFor])
          | foreign e => exact absurd hnormal (by simp [normalFor])
      | _ => exact absurd hnormal (by simp [normalFor])
  | refreshLost why =>
      obtain rfl : Job.wDrop = job := Option.some.inj hjob
      cases value with
      | done =>
          -- the connection was dropped, and with it the device became unavailable
          have hav : w'.dev.available = false := by
            rw [hdev, hturn.available]
            cases x <;> rfl
          obtain rfl := Option.some.inj ht
          unfold callLost Handled.turn
          split
          · exact fun h => absurd (hav.symm.trans h) (by simp)
          · exact fun h => absurd (hav.symm.trans h) (by simp)
      | _ => exact absurd hnormal (by simp [normalFor])
  | setting dps =>
      obtain rfl : Job.wCall (.set dps) = job := Option.some.inj hjob
      cases value with
      | done =>
          have hav : w.dev.available = true := hlive rfl
          obtain rfl := Option.some.inj ht
          intro _
          rw [hdev]
          exact hav
      | raised raised =>
          obtain rfl := Option.some.inj ht
          unfold callFailed
          split
          · trivial
          · trivial
      | _ => exact absurd hnormal (by simp [normalFor])
  | settingLost why =>
      cases value with
      | done =>
          obtain rfl := Option.some.inj ht
          unfold callLost Handled.turn
          split
          · trivial
          · trivial
      | raised raised =>
          obtain rfl := Option.some.inj ht
          trivial
      | _ => exact absurd ht (by simp [callResume])
  | done op ending => exact absurd hjob (by simp [Call.awaits])
  | _ => exact hother (by rw [hturn.pc.op]; simp [Call.op]) (by rw [hturn.pc.op]; simp [Call.op])

/-- A new call is where its request leads, because the executor accepts its job. -/
theorem newCall_at {w : World Coordinator} (hw : w.executor = .accepting) (pc : Call) :
    (w.newCall pc).calls[w.calls.length]? = some pc := by
  obtain ⟨pc', hcalls, _, hpc⟩ := World.newCall_spec w pc
  rcases hpc with rfl | ⟨_, hrefuse⟩
  · rw [hcalls]
    simp
  · exact absurd hrefuse (by simp [hw, Executor.accepts])

/-- Without a connection an available device has something unsettled. -/
theorem Reflected.unsettled {w : World Coordinator} {why : UnreachableReason} (hw : Reflected w)
    (hnone : World.requireConnection w.dev = some why) (hav : w.dev.available = true) :
    w.Unsettled := by
  have hapi : w.dev.api.isSome = false := by
    unfold World.requireConnection at hnone
    rw [hw.opened] at hnone
    cases hapi : w.dev.api with
    | none => rfl
    | some id => exact absurd hnone (by simp [hapi])
  by_cases hidle : w.worker.current = []
  · refine Or.inl (exists_effect (b := w.dev.available) ?_)
    rw [hw.consistent.settled hidle, hapi, hav]
    simp
  · exact Or.inr hidle

/-- A call of the coordinator begins.  It awaits its first job, or is refused at once and changes
nothing. -/
theorem Reflected.goes_request {w : World Coordinator} {r : Request} {pc : Call}
    {sends : Option PyDict} (hw : Reflected w) (hok : Usual w (.request r))
    (hpc : (w.request r).calls[w.calls.length]? = some pc) : Goes (w.request r) sends pc := by
  have hnew : ∀ pc', (w.newCall pc').calls[w.calls.length]? = some pc → pc' = pc := by
    intro pc' h
    rw [newCall_at hw.orderly.accepting pc'] at h
    exact Option.some.inj h
  cases r with
  | connect =>
      obtain rfl := hnew .connecting hpc
      trivial
  | refresh =>
      unfold World.request at hpc ⊢
      dsimp only at hpc ⊢
      cases hconnection : World.requireConnection w.dev with
      | some why =>
          rw [hconnection] at hpc
          obtain rfl := hnew _ hpc
          intro hav
          rw [World.newCall_dev] at hav
          have hunsettled := hw.unsettled hconnection hav
          unfold World.Unsettled at hunsettled ⊢
          rw [World.newCall_results, World.newCall_worker]
          exact hunsettled
      | none =>
          rw [hconnection] at hpc
          obtain rfl := hnew _ hpc
          trivial
  | setDps dps =>
      have hne : dps.entries.isEmpty = false := by
        rw [List.isEmpty_eq_false_iff]
        exact hok.2
      unfold World.request at hpc ⊢
      dsimp only at hpc ⊢
      rw [hne, if_neg (by simp)] at hpc
      cases hconnection : World.requireConnection w.dev with
      | some why =>
          rw [hconnection] at hpc
          obtain rfl := hnew _ hpc
          trivial
      | none =>
          rw [hconnection] at hpc
          obtain rfl := hnew _ hpc
          trivial
  | reconfigure changes =>
      have hop : pc.op = .reconfigure := by
        obtain ⟨pc', hcalls, hop⟩ := (World.request_moves w (.reconfigure changes)).calls
        rw [hcalls] at hpc
        obtain rfl : pc' = pc := by simpa using hpc
        exact hop
      cases pc with
      | done op ending =>
          obtain rfl : op = .reconfigure := hop
          trivial
      | _ => trivial
  | close => exact absurd hok.1 id

/-- **A step of a purifier with its coordinator** keeps the invariant: first what the device does,
then what the caller goes on with in the same turn. -/
theorem Reflected.step {w w' : World Coordinator} {a : Action} (hw : Reflected w)
    (hok : Usual w a) (h : step w a = some w') : Reflected w' := by
  obtain ⟨w₁, hstep, rfl⟩ := Option.map_eq_some_iff.mp h
  have hdevice : Reflected w₁ := hw.device hok hstep
  have hgoes : ∀ n sends pc, goingOn w a = some (n, sends) → w₁.calls[n]? = some pc →
      Goes w₁ sends pc := by
    intro n sends pc hgoing hpc
    cases a with
    | request r =>
        obtain rfl := Option.some.inj hstep
        have hn : n = w.calls.length := by
          cases r <;> exact (Prod.mk.inj (Option.some.inj hgoing)).1.symm
        subst hn
        exact hw.goes_request hok hpc
    | resume i now =>
        obtain ⟨m, hacts, hm⟩ := Option.map_eq_some_iff.mp hgoing
        cases World.resume_moves hstep with
        | loopResumed hr hx => exact absurd hacts (by simp [World.actsOn, hr, hx])
        | forgotten hr hx => exact absurd hacts (by simp [World.actsOn, hr, hx])
        | woken ha => exact absurd ha (by simp)
        | @callResumed _ n' _ r place t hr hx hplace ht =>
            obtain rfl : i = 0 := hok.1
            obtain ⟨rest, hresults, _⟩ := World.head_erased hr
            obtain rfl : n' = m := by simpa [World.actsOn, hr, hx] using hacts
            obtain ⟨rfl, _⟩ := Prod.mk.inj hm
            obtain ⟨pc', hcalls, _, hpc'⟩ :=
              World.callGoes_spec { w with results := w.results.eraseIdx 0 } n' t
            rw [hcalls, List.getElem?_set_self (List.getElem?_eq_some_iff.mp hplace).1] at hpc
            obtain rfl := Option.some.inj hpc
            rcases hpc' with rfl | ⟨_, hrefuse⟩
            · exact hw.goes_call sends hresults (hok.2 _ hr) hx hplace ht (by simp)
            · exact absurd hrefuse (by simp [hw.orderly.accepting, Executor.accepts])
    | _ => exact absurd hgoing (by simp [goingOn])
  unfold Home.continued
  cases hgoing : goingOn w a with
  | none => exact hdevice
  | some going =>
      obtain ⟨n, sends⟩ := going
      dsimp only
      cases hpc : w₁.calls[n]? with
      | none => exact hdevice
      | some pc => exact hdevice.continued (hgoes n sends pc hgoing hpc)

/-! ## Runs -/

/-- **Entities show the connection.**  For every run in which library calls return, no call is
cancelled, the device is not closed, results are taken up in order, commands write some DP and the
reports that are handled decode: whatever DPs an entity shows, it is available only while the
device is; with no job queued or running and no result waiting, it is available exactly when a
library connection is held and the published state has its DPs; and a published state has all DPs
that the device reported. -/
theorem entity_available_iff {entry : EntryData} {config : DeviceConfig} {searches : Searches}
    {as : List Action} {w : World Coordinator}
    (hrun : Run step Usual (Coordinator.start entry config searches) as w) :
    (∀ required, w.client.available required = true → w.dev.available = true) ∧
    (w.AtRest → ∀ required, w.client.available required = true ↔
      w.dev.api ≠ none ∧ ∃ state, w.client.data = some state ∧ state.reported required = true) ∧
    (∀ state, w.client.data = some state → ∀ dp ∈ w.dev.dps, dp ∈ state.dps) := by
  have hw : Reflected w :=
    hrun.invariant Reflected (fun _ _ _ hs hok h => hs.step hok h)
      (Reflected.init entry config searches)
  have havailable : ∀ required, w.client.available required = true ↔
      w.client.lastUpdateSuccess = true ∧
        ∃ state, w.client.data = some state ∧ state.reported required = true := by
    intro required
    unfold Coordinator.available
    rw [Bool.and_eq_true, Option.any_eq_true]
  have hsound : ∀ required, w.client.available required = true → w.dev.available = true := by
    intro required h
    obtain ⟨hsuccess, state, hstate, _⟩ := (havailable required).mp h
    exact hw.agrees.sound (by rw [hstate]; simp) hsuccess
  refine ⟨hsound, fun hrest required => ?_, hw.agrees.knows⟩
  have hidle : w.worker.current = [] := by rw [hrest.worker]; rfl
  have hheld : w.dev.available = true ↔ w.dev.api ≠ none := by
    have hsettled := hw.consistent.settled hidle
    rw [hrest.results, settle_nil] at hsettled
    rw [hsettled, Option.isSome_iff_ne_none]
  constructor
  · intro h
    exact ⟨hheld.mp (hsound required h), ((havailable required).mp h).2⟩
  · rintro ⟨hapi, hreported⟩
    refine (havailable required).mpr ⟨?_, hreported⟩
    rcases hw.current (hheld.mpr hapi) with hsuccess | ⟨r, hr, _⟩ | hbusy
    · exact hsuccess
    · exact absurd hr (by simp [hrest.results])
    · exact absurd hidle hbusy

instance (w : World Coordinator) : (a : Action) → Decidable (Usual w a)
  | .request (.setDps dps) =>
      have : Decidable (dps.entries = []) :=
        decidable_of_iff (dps.entries.isEmpty = true) List.isEmpty_iff
      inferInstanceAs (Decidable (w.Ordinary (.request (.setDps dps)) ∧ ¬ dps.entries = []))
  | .resume i now => inferInstanceAs (Decidable (w.Ordinary (.resume i now) ∧
      ∀ r ∈ w.results[i]?, Decodable (mergeResult w.dev.dps r)))
  | .request .connect | .request .refresh | .request (.reconfigure _) | .request .close | .start
  | .begin _ | .wakeUp _ | .timeout _ | .taskEnded _ | .cancel _ | .take | .listVersions
  | .tryVersion _ | .answer _ _ | .work _ _ | .skip | .beginShutdown | .finishShutdown
  | .shutdownDone _ => inferInstanceAs (Decidable (w.Ordinary _ ∧ True))

/-- Set up, switched off, and switched on again while the connection is lost. -/
def lostCommand : List Action :=
  openActions ++ [.resume 0 0, .request .refresh, .work (statusReply true) 1, .resume 0 1,
    .request (.setDps (powerDps false)), .work ⟨.ok .null, true, false⟩ 2, .resume 0 2,
    .request (.setDps (powerDps true)), .work ⟨.ok .null, false, false⟩ 3, .resume 0 3,
    .work ⟨.ok .null, false, false⟩ 4, .resume 0 4]

/-- A purifier that is on loses its connection: what it showed is kept, and no entity is
available. -/
theorem entity_available_iff_lost :
    ∃ w : World Coordinator,
      (w.AtRest ∧ w.client.data.map PurifierState.power = some (some false)) ∧
      (∀ required, w.client.available required = true → w.dev.available = true) ∧
      (w.AtRest → ∀ required, w.client.available required = true ↔
        w.dev.api ≠ none ∧ ∃ state, w.client.data = some state ∧ state.reported required = true) ∧
      (∀ state, w.client.data = some state → ∀ dp ∈ w.dev.dps, dp ∈ state.dps) := by
  let start := Coordinator.start Coordinator.exampleEntry exampleConfig {}
  let execution := exec step start lostCommand
  obtain ⟨w, hw⟩ := Option.isSome_iff_exists.mp (show execution.isSome = true by decide +kernel)
  have hfacts : ∀ w ∈ execution, w.AtRest ∧
      w.client.data.map PurifierState.power = some (some false) := by decide +kernel
  exact ⟨w, hfacts w hw, entity_available_iff (Run.of_meets hw (by decide +kernel))⟩

end Home

end Purifier
