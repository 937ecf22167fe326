import HaBirdie.ConfigFlowSteps
import HaBirdie.StepRuns

/-!
# Purifiers that are offered

`_async_on_device` of `purifier/discovery.py` hears every announcement on the network.  One of a
purifier that is set up makes its entry follow; one of another Podium asks Home Assistant for a
config flow, which starts later or not at all, among the flows and entries of `ConfigFlow`.

* `offered_once`: a device is offered exactly if it announced itself as a Podium while no
  purifier entry had its ID, and then once, whatever becomes of the offer or of its entry.
* `offers_lead`: a device has at most one flow of the discovery, which shows nothing but the form
  for its key, and which adds nothing but that device with the announced address.
-/

namespace ConfigFlow

open Python StepRuns
open Lan (DeviceConfig)

/-! ## The flow of an announced device -/

/-- What the flow of an announced device comes to. -/
def FlowResult.Offered (device : DiscoveredDevice) : FlowResult → Prop
  | .raised | .abort _ => True
  | .form step _ _ => step = .purifierKey
  | .createEntry data =>
      data.isPurifier = true ∧ data.deviceId = some device.deviceId ∧
        data.host = some device.host ∧
        data.productKey = device.productKey.filter fun key => !key.isEmpty
  | .menu | .progress _ | .progressDone _ => False

/-- What a step of it awaits: a check of the announced device. -/
def Await.IsFor (device : DiscoveredDevice) : Await → Prop
  | .check config _ (.key d) =>
      d = device ∧ config.deviceId = device.deviceId ∧ config.host = device.host
  | _ => False

/-- A flow for an announced device. -/
structure Flow.IsFor (device : DiscoveredDevice) (flow : Flow) : Prop where
  uniqueId : flow.uniqueId = some device.deviceId
  purifier : ∀ d ∈ flow.purifier, d = device
  shown : flow.shown.Offered device
  calls : ∀ a ∈ flow.calls, a.IsFor device

def Outcome.IsFor (device : DiscoveredDevice) : Outcome → Prop
  | .awaits a => a.IsFor device
  | .result shown => shown.Offered device

structure Turn.IsFor (device : DiscoveredDevice) (t : Turn) : Prop where
  flow : t.flow.IsFor device
  outcome : t.outcome.IsFor device

variable {device : DiscoveredDevice} {r : Registry} {flow : Flow}

/-- A step that ends with a result for the device leaves the flow one for it. -/
theorem Flow.IsFor.ends (h : flow.IsFor device) {result : FlowResult}
    (hresult : result.Offered device) : (flow.ends r result).IsFor device := ⟨h, hresult⟩

/-- The step that asks for the key tries it with the announced address.  The entered key is the
only thing it takes from the user. -/
theorem asyncStepPurifierKey_isFor (h : flow.IsFor device) (input : Option UserInput) :
    (asyncStepPurifierKey r flow input).IsFor device := by
  unfold asyncStepPurifierKey
  split
  · exact h.ends trivial
  · exact h.ends rfl
  · rename_i d input hd
    obtain rfl := h.purifier d hd
    split
    · exact h.ends trivial
    · exact h.ends rfl
    · unfold Flow.checks
      split
      · exact h.ends trivial
      · rename_i config hmake
        obtain ⟨hid, hhost, _⟩ := DeviceConfig.make_ok hmake
        exact ⟨h, rfl, hid, hhost⟩

/-- `_async_create_purifier` creates what was announced, if the settings have the announced ID and
host. -/
theorem asyncCreatePurifier_isFor (h : flow.IsFor device) {config : DeviceConfig}
    (hid : config.deviceId = device.deviceId) (hhost : config.host = device.host)
    (version : Option PyStr) :
    (asyncCreatePurifier r flow config version device.productKey).IsFor device := by
  have h' : { flow with uniqueId := some config.deviceId }.IsFor device :=
    ⟨by rw [hid], h.purifier, h.shown, h.calls⟩
  unfold asyncCreatePurifier
  dsimp only
  split
  · exact h'.ends trivial
  · refine h'.ends ⟨rfl, ?_, ?_, rfl⟩
    · rw [hid]
    · rw [hhost]

/-- A checked key of an announced device adds that device, under its ID.  With a wrong key the form
is shown again and the flow is still for the same device. -/
theorem checked_isFor (h : flow.IsFor device) {config : DeviceConfig} {hint : Option PyStr}
    {purpose : Check} (hcall : (Await.check config hint purpose).IsFor device)
    (result : ConnectionResult) : (checked r flow config result purpose).IsFor device := by
  cases purpose with
  | key d =>
      obtain ⟨rfl, hid, hhost⟩ := hcall
      simp only [checked, addChecked]
      split
      · exact h.ends rfl
      · split
        · exact h.ends trivial
        · exact h.ends rfl
        · exact asyncCreatePurifier_isFor h hid hhost _
  | manual step productKey input => exact absurd hcall id
  | reauth entryId => exact absurd hcall id
  | reconfigure entryId input => exact absurd hcall id

/-- The flow manager calls no step of it but the one that asks for the key. -/
theorem FlowResult.Offered.next {shown : FlowResult} (h : shown.Offered device) {step : Step}
    (hnext : shown.next = some step) : step = .purifierKey := by
  cases shown with
  | form _ _ _ => exact (Option.some.inj hnext).symm.trans h
  | menu => exact absurd h id
  | progress _ => exact absurd h id
  | progressDone _ => exact absurd h id
  | _ => exact absurd hnext (by simp [FlowResult.next])

/-- The only step that such a flow shows is the form for its key, and that step stays with the
device. -/
theorem runStep_isFor (h : flow.IsFor device) {step : Step} (hnext : flow.shown.next = some step)
    (input : Option UserInput) (early : Bool) :
    (runStep r flow input early step).IsFor device := by
  obtain rfl := h.shown.next hnext
  exact asyncStepPurifierKey_isFor h input

/-- The flow that an announcement starts is for the device that was announced. -/
theorem asyncStepIntegrationDiscovery_isFor (r : Registry) (device : DiscoveredDevice) :
    (asyncStepIntegrationDiscovery r device).IsFor device := by
  have hnew : Flow.IsFor device
      { source := .integrationDiscovery, uniqueId := some device.deviceId } :=
    ⟨rfl, by simp, trivial, by simp⟩
  unfold asyncStepIntegrationDiscovery
  dsimp only
  split
  · exact ⟨hnew, trivial⟩
  · have hasks : Flow.IsFor device
        { source := .integrationDiscovery, uniqueId := some device.deviceId
          purifier := some device } :=
      ⟨rfl, fun d hd => (Option.some.inj hd).symm, trivial, by simp⟩
    exact asyncStepPurifierKey_isFor hasks none

/-! ## A flow keeps its source -/

@[simp] theorem ends_source (r : Registry) (flow : Flow) (result : FlowResult) :
    (flow.ends r result).flow.source = flow.source := rfl

@[simp] theorem checks_source (r : Registry) (flow : Flow)
    (deviceId host localKey version : PyStr) (hint : Option PyStr) (purpose : Check) :
    (flow.checks r deviceId host localKey version hint purpose).flow.source = flow.source := by
  unfold Flow.checks
  split <;> rfl

@[simp] theorem asyncCreatePurifier_source (r : Registry) (flow : Flow) (config : DeviceConfig)
    (version productKey : Option PyStr) :
    (asyncCreatePurifier r flow config version productKey).flow.source = flow.source := by
  unfold asyncCreatePurifier
  dsimp only
  split <;> rfl

@[simp] theorem asyncStepPurifierKey_source (r : Registry) (flow : Flow)
    (input : Option UserInput) :
    (asyncStepPurifierKey r flow input).flow.source = flow.source := by
  unfold asyncStepPurifierKey
  split
  · rfl
  · rfl
  · split <;> simp

@[simp] theorem asyncStepPurifierSearch_source (r : Registry) (flow : Flow) (early : Bool) :
    (asyncStepPurifierSearch r flow early).flow.source = flow.source := by
  unfold asyncStepPurifierSearch
  split
  · rfl
  · dsimp only
    split
    · rfl
    · split <;> rfl
    · rfl

@[simp] theorem manualSubmitted_source (step : Step) (r : Registry) (flow : Flow)
    (input : UserInput) (deviceId : PyStr) :
    (manualSubmitted step r flow input deviceId).flow.source = flow.source := by
  unfold manualSubmitted
  split
  · rfl
  · dsimp only
    split
    · rfl
    · split
      · rfl
      · split
        · rfl
        · split
          · split <;> simp
          · simp

@[simp] theorem asyncPurifierManual_source (step : Step) (r : Registry) (flow : Flow)
    (input : Option UserInput) :
    (asyncPurifierManual step r flow input).flow.source = flow.source := by
  unfold asyncPurifierManual
  dsimp only
  split
  · rfl
  · split <;> simp

theorem manualScanned_source (step : Step) (deviceId localKey version : PyStr)
    (input : UserInput) (r : Registry) (flow : Flow) (found : Option (List DiscoveredDevice))
    (early : Bool) :
    (manualScanned step deviceId localKey version input r flow found early).flow.source =
      flow.source := by
  unfold manualScanned
  split
  · rfl
  · split <;> simp

@[simp] theorem reauthForm_source (r : Registry) (flow : Flow) (data : EntryData)
    (errors : List (PyStr × PyStr)) :
    (reauthForm r flow data errors).flow.source = flow.source := by
  unfold reauthForm
  split <;> rfl

@[simp] theorem reconfigureForm_source (r : Registry) (flow : Flow) (data : EntryData)
    (input : Option UserInput) (errors : List (PyStr × PyStr)) :
    (reconfigureForm r flow data input errors).flow.source = flow.source := by
  unfold reconfigureForm
  split <;> rfl

@[simp] theorem asyncStepReauthConfirm_source (r : Registry) (flow : Flow)
    (input : Option UserInput) :
    (asyncStepReauthConfirm r flow input).flow.source = flow.source := by
  unfold asyncStepReauthConfirm
  split
  · split
    · rfl
    · simp
    · split
      · rfl
      · simp
      · split <;> simp
  · rfl

@[simp] theorem asyncStepReconfigure_source (r : Registry) (flow : Flow)
    (input : Option UserInput) :
    (asyncStepReconfigure r flow input).flow.source = flow.source := by
  unfold asyncStepReconfigure
  split
  · split
    · rfl
    · split
      · rfl
      · split
        · simp
        · split
          · simp
          · split <;> simp
          · rfl
  · rfl

/-- The flow manager calls a step.  None of them changes what the flow was started by. -/
theorem runStep_source (r : Registry) (flow : Flow) (input : Option UserInput) (early : Bool)
    (step : Step) : (runStep r flow input early step).flow.source = flow.source := by
  cases step with
  | purifier =>
      simp only [runStep, asyncStepPurifier]
      split <;> rfl
  | purifierPick =>
      simp only [runStep, asyncStepPurifierPick]
      split
      · rfl
      · split
        · simp
        · split <;> simp
  | purifierSearchFound =>
      simp only [runStep, asyncStepPurifierSearchFound]
      split
      · rfl
      · split
        · rfl
        · split <;> simp
  | _ => simp [runStep]

/-- A step goes on after its check.  Whether it creates an entry, updates one or shows its form
again, the source of the flow stays. -/
theorem checked_source (r : Registry) (flow : Flow) (config : DeviceConfig)
    (result : ConnectionResult) (purpose : Check) :
    (checked r flow config result purpose).flow.source = flow.source := by
  have hadd : ∀ (productKey : Option PyStr) (form : List (PyStr × PyStr) → FlowResult),
      (addChecked r flow config productKey form result).flow.source = flow.source := by
    intro productKey form
    unfold addChecked
    split
    · rfl
    · split <;> simp
  have hupdate : ∀ (entryId : ℕ) (changes : EntryData → EntryData) (reason : PyStr),
      (asyncUpdateReloadAndAbort r flow entryId changes reason).flow.source = flow.source := by
    intro entryId changes reason
    unfold asyncUpdateReloadAndAbort
    split <;> rfl
  unfold checked
  split
  · exact hadd _ _
  · exact hadd _ _
  · split
    · exact hupdate _ _ _
    · split <;> simp
  · split
    · exact hupdate _ _ _
    · split <;> simp

/-! ## The flows of the discovery -/

/-- A flow goes on: it keeps its source, and stays one for the device it was for. -/
structure Flow.Continues (flow flow' : Flow) : Prop where
  source : flow'.source = flow.source
  isFor : ∀ device, flow.IsFor device → flow'.IsFor device

/-- A step of a flow. -/
structure Turn.Continues (flow : Flow) (t : Turn) : Prop where
  source : t.flow.source = flow.source
  isFor : ∀ device, flow.IsFor device → t.IsFor device

/-- Each flow of the discovery is an earlier one that has gone on. -/
def System.Continues (s s' : System) : Prop :=
  ∀ (i : ℕ) (flow' : Flow), s'.flows[i]? = some flow' → flow'.source = .integrationDiscovery →
    ∃ flow, s.flows[i]? = some flow ∧ flow.Continues flow'

namespace System

variable {s s' : System} {i : ℕ} {flow : Flow} {t : Turn}

/-- Where no flow moves, each goes on. -/
theorem continues_of_same (h : s'.flows = s.flows) : s.Continues s' := fun i flow' hi _ => by
  rw [h] at hi
  exact ⟨flow', hi, rfl, fun _ hfor => hfor⟩

/-- One flow goes on. -/
theorem continues_of_set {flow' : Flow} (hi : s.flows[i]? = some flow)
    (hset : s'.flows = s.flows.set i flow') (hflow : flow.Continues flow') : s.Continues s' := by
  intro j flow'' hj _
  rw [hset, List.getElem?_set] at hj
  split at hj
  · rename_i hij
    subst hij
    split at hj
    · obtain rfl := Option.some.inj hj
      exact ⟨flow, hi, hflow⟩
    · exact absurd hj (by simp)
  · exact ⟨flow'', hj, rfl, fun _ hfor => hfor⟩

/-- What the flow manager makes of a step: one flow is replaced, by one of the same source and for
the same device.  The other flows are as before. -/
theorem finish_flows (i : ℕ) (t : Turn) (s : System) :
    ∃ flow', (s.finish i t).flows = s.flows.set i flow' ∧ flow'.source = t.flow.source ∧
      ∀ device, t.IsFor device → flow'.IsFor device := by
  have hshown : ∀ (shown : FlowResult) (removed : Bool) (device : DiscoveredDevice),
      t.flow.IsFor device → shown.Offered device →
      { t.flow with shown, removed }.IsFor device :=
    fun shown removed device h hoffered => ⟨h.uniqueId, h.purifier, hoffered, h.calls⟩
  unfold finish
  dsimp only
  split
  · rename_i a houtcome
    refine ⟨_, rfl, rfl, fun device hfor => ⟨hfor.flow.uniqueId, hfor.flow.purifier,
      hfor.flow.shown, fun b hb => ?_⟩⟩
    have hawaits := hfor.outcome
    rw [houtcome] at hawaits
    rcases List.mem_append.mp hb with hb | hb
    · exact hfor.flow.calls b hb
    · obtain rfl := List.mem_singleton.mp hb
      exact hawaits
  · exact ⟨_, rfl, rfl, fun device hfor => hfor.flow⟩
  · exact ⟨_, rfl, rfl, fun device hfor => hshown _ _ device hfor.flow trivial⟩
  · rename_i data houtcome
    refine ⟨_, rfl, rfl, fun device hfor => hshown _ _ device hfor.flow ?_⟩
    have hresult := hfor.outcome
    rw [houtcome] at hresult
    exact hresult
  · rename_i houtcome
    refine ⟨_, rfl, rfl, fun device hfor => hshown _ _ device hfor.flow ?_⟩
    have hresult := hfor.outcome
    rw [houtcome] at hresult
    exact hresult

/-- The flow manager takes a step that continues its flow; the other flows are as they were. -/
theorem finish_continues (hi : s.flows[i]? = some flow) (ht : t.Continues flow) :
    s.Continues (s.finish i t) := by
  obtain ⟨flow', hset, hsource, hfor⟩ := finish_flows i t s
  exact continues_of_set hi hset
    ⟨hsource.trans ht.source, fun device h => hfor device (ht.isFor device h)⟩

/-- A new flow is the last one. -/
theorem starts_flows (t : Turn) (s : System) :
    ∃ flow', (s.starts t).flows = s.flows ++ [flow'] ∧ flow'.source = t.flow.source ∧
      ∀ device, t.IsFor device → flow'.IsFor device := by
  obtain ⟨flow', hset, hsource, hfor⟩ :=
    finish_flows s.flows.length t { s with flows := s.flows ++ [t.flow] }
  refine ⟨flow', ?_, hsource, hfor⟩
  unfold starts
  rw [hset]
  simp

/-- A flow that is started by the user or by an entry is none of the discovery. -/
theorem starts_continues (hsource : t.flow.source ≠ .integrationDiscovery) :
    s.Continues (s.starts t) := by
  obtain ⟨flow', hflows, hkept, _⟩ := starts_flows t s
  intro i flow'' hi hdiscovery
  rw [hflows, List.getElem?_append] at hi
  split at hi
  · exact ⟨flow'', hi, rfl, fun _ hfor => hfor⟩
  · obtain rfl := List.mem_singleton.mp (List.mem_of_getElem? hi)
    exact absurd (hkept.symm.trans hdiscovery) hsource

/-- **Only the discovery starts a flow of the discovery**, and no other event makes one of them
one for another device. -/
theorem continues {e : Event} (h : s.step e = some s') (he : ∀ device, e ≠ .discovered device) :
    s.Continues s' := by
  cases e with
  | startUser =>
      obtain rfl := Option.some.inj h
      exact starts_continues (by simp)
  | discovered device => exact absurd rfl (he device)
  | startReauth entryId =>
      obtain rfl := Option.some.inj h
      exact starts_continues (by simp)
  | startReconfigure entryId =>
      obtain rfl := Option.some.inj h
      exact starts_continues (by simp)
  | configure i input early =>
      obtain ⟨flow, hflow, step, hnext, hs'⟩ : ∃ flow, s.flow i = some flow ∧
          ∃ step, flow.shown.next = some step ∧
            s.finish i (runStep s.registry flow input early step) = s' := by
        simpa [System.step, configure, Option.bind_eq_some_iff] using h
      subst hs'
      have hi : s.flows[i]? = some flow := (Option.filter_eq_some_iff.mp hflow).1
      exact finish_continues hi ⟨runStep_source _ _ _ _ _,
        fun device hfor => runStep_isFor hfor hnext input early⟩
  | lanScanned i found =>
      obtain ⟨flow, hi, hrest⟩ := Option.bind_eq_some_iff.mp h
      split at hrest
      · obtain rfl := Option.some.inj hrest
        exact continues_of_set hi rfl
          ⟨rfl, fun device hfor => ⟨hfor.uniqueId, hfor.purifier, hfor.shown, hfor.calls⟩⟩
      · exact absurd hrest (by simp)
  | searched i found =>
      obtain ⟨flow, hi, hrest⟩ := Option.bind_eq_some_iff.mp h
      obtain ⟨search, _, hrest⟩ := Option.bind_eq_some_iff.mp hrest
      split at hrest
      · obtain rfl := Option.some.inj hrest
        exact continues_of_set hi rfl
          ⟨rfl, fun device hfor => ⟨hfor.uniqueId, hfor.purifier, hfor.shown, hfor.calls⟩⟩
      · exact absurd hrest (by simp)
  | scanned i k found early =>
      obtain ⟨flow, hi, hrest⟩ := Option.bind_eq_some_iff.mp h
      split at hrest
      · rename_i hcall
        obtain rfl := Option.some.inj hrest
        refine finish_continues hi ⟨manualScanned_source _ _ _ _ _ _ _ _ _, fun device hfor => ?_⟩
        exact absurd (hfor.calls _ (List.mem_of_getElem? hcall)) id
      · exact absurd hrest (by simp)
  | checked i k ending version closed =>
      obtain ⟨flow, hi, hrest⟩ := Option.bind_eq_some_iff.mp h
      split at hrest
      · rename_i config hint purpose hcall
        have herased : ∀ device, flow.IsFor device →
            { flow with calls := flow.calls.eraseIdx k }.IsFor device := fun device hfor =>
          ⟨hfor.uniqueId, hfor.purifier, hfor.shown,
            fun a ha => hfor.calls a (List.mem_of_mem_eraseIdx ha)⟩
        dsimp only at hrest
        split at hrest
        · obtain rfl := Option.some.inj hrest
          exact finish_continues hi ⟨rfl, fun device hfor => (herased device hfor).ends trivial⟩
        · obtain rfl := Option.some.inj hrest
          refine finish_continues hi ⟨checked_source _ _ _ _ _, fun device hfor => ?_⟩
          exact checked_isFor (herased device hfor) (hfor.calls _ (List.mem_of_getElem? hcall)) _
      · exact absurd hrest (by simp)
  | flowRemoved i =>
      obtain ⟨flow, hi, rfl⟩ := Option.map_eq_some_iff.mp h
      exact continues_of_set hi rfl
        ⟨rfl, fun device hfor => ⟨hfor.uniqueId, hfor.purifier, hfor.shown, hfor.calls⟩⟩
  | entryAdded uniqueId ignored =>
      obtain rfl := Option.some.inj h
      exact continues_of_same rfl
  | entryRemoved entryId =>
      obtain rfl := Option.some.inj h
      exact continues_of_same rfl
  | hostStored entryId host =>
      obtain rfl := Option.some.inj h
      exact continues_of_same rfl
  | versionStored entryId version =>
      obtain rfl := Option.some.inj h
      exact continues_of_same rfl

/-- The discovery starts a flow for its device. -/
theorem discovered_flows (h : s.step (.discovered device) = some s') :
    ∃ flow', s'.flows = s.flows ++ [flow'] ∧ flow'.IsFor device := by
  simp only [System.step] at h
  split at h
  · exact absurd h (by simp)
  · obtain rfl := Option.some.inj h
    obtain ⟨flow', hflows, _, hfor⟩ :=
      starts_flows (asyncStepIntegrationDiscovery s.registry device) s
    exact ⟨flow', hflows, hfor device (asyncStepIntegrationDiscovery_isFor s.registry device)⟩

end System

/-! ## What the discovery hears -/

/-- The first purifier entry of a device. -/
def Registry.purifier (deviceId : PyStr) (r : Registry) : Option Entry :=
  r.entries.find? fun e => e.data.isPurifier && decide (e.data.deviceId = some deviceId)

/-- `PurifierDiscovery` among the entries and flows.  `loaded` are the entries whose
`runtime_data` is a coordinator.  The flows it asked for are `asked`, and those of them that have
not begun `starting`; `following` are its calls of `async_set_host`. -/
structure Offers where
  system : System := {}
  loaded : List ℕ := []
  offered : List PyStr := []
  asked : List DiscoveredDevice := []
  starting : List DiscoveredDevice := []
  following : List (ℕ × PyStr) := []

namespace Offers

/-- `_async_on_device`. -/
def asyncOnDevice (device : DiscoveredDevice) (o : Offers) : Offers :=
  match o.system.registry.purifier device.deviceId with
  | some entry =>
      if entry.data.host ≠ some device.host && o.loaded.contains entry.entryId then
        { o with following := o.following ++ [(entry.entryId, device.host)] }
      else o
  | none =>
      if isBirdiePurifier device && !o.offered.contains device.deviceId then
        { o with
          offered := o.offered ++ [device.deviceId]
          asked := o.asked ++ [device]
          starting := o.starting ++ [device] }
      else o

/-- A device announces itself, a flow that was asked for starts or does not, an entry gets and
loses its coordinator, and whatever else happens among the flows and entries. -/
inductive Event
  | announced (device : DiscoveredDevice)
  | started (j : ℕ)
  | dropped (j : ℕ)
  | loaded (entryId : ℕ)
  | unloaded (entryId : ℕ)
  | elsewhere (e : ConfigFlow.Event)

/-- One step.  A flow that starts while another one has its ID is aborted. -/
def step (o : Offers) : Event → Option Offers
  | .announced device => some (o.asyncOnDevice device)
  | .started j =>
      o.starting[j]?.map fun device =>
        { o with
          starting := o.starting.eraseIdx j
          system := (o.system.step (.discovered device)).getD o.system }
  | .dropped j => o.starting[j]?.map fun _ => { o with starting := o.starting.eraseIdx j }
  | .loaded entryId => some { o with loaded := o.loaded ++ [entryId] }
  | .unloaded entryId => some { o with loaded := o.loaded.filter fun e => e ≠ entryId }
  | .elsewhere e =>
      match e with
      | .discovered _ => none
      | _ => (o.system.step e).map fun system => { o with system }

/-- At the start there are only entries. -/
def start (r : Registry) : Offers := { system := { registry := r } }

/-- A Podium that no purifier entry has. -/
def IsNew (o : Offers) (device : DiscoveredDevice) : Prop :=
  isBirdiePurifier device = true ∧ o.system.registry.purifier device.deviceId = none

/-- The device announces itself as the purifier of an entry with another address. -/
def Moved (o : Offers) (device : DiscoveredDevice) (entryId : ℕ) : Prop :=
  ∃ entry, o.system.registry.purifier device.deviceId = some entry ∧ entry.entryId = entryId ∧
    entry.data.host ≠ some device.host

/-- What an announcement leads to: a flow for a device that is new and was not asked for, nothing,
or a loaded entry that follows its device to another address. -/
theorem asyncOnDevice_cases (device : DiscoveredDevice) (o : Offers) :
    (o.IsNew device ∧ device.deviceId ∉ o.offered ∧
        o.asyncOnDevice device =
          { o with
            offered := o.offered ++ [device.deviceId]
            asked := o.asked ++ [device]
            starting := o.starting ++ [device] }) ∨
      ((o.IsNew device → device.deviceId ∈ o.offered) ∧ o.asyncOnDevice device = o) ∨
      ∃ entryId, ¬ o.IsNew device ∧ o.Moved device entryId ∧
        o.asyncOnDevice device =
          { o with following := o.following ++ [(entryId, device.host)] } := by
  unfold asyncOnDevice
  cases hentry : o.system.registry.purifier device.deviceId with
  | some entry =>
      have hold : ¬ o.IsNew device := fun hnew => by simp [hnew.2] at hentry
      dsimp only
      split
      · rename_i hmoved
        have hother : entry.data.host ≠ some device.host :=
          of_decide_eq_true ((Bool.and_eq_true _ _).mp hmoved).1
        exact Or.inr (Or.inr ⟨entry.entryId, hold, ⟨entry, hentry, rfl, hother⟩, rfl⟩)
      · exact Or.inr (Or.inl ⟨fun hnew => absurd hnew hold, rfl⟩)
  | none =>
      dsimp only
      split
      · rename_i hoffer
        obtain ⟨hbirdie, hfresh⟩ := (Bool.and_eq_true _ _).mp hoffer
        exact Or.inl ⟨⟨hbirdie, hentry⟩, by simpa using hfresh, rfl⟩
      · rename_i hnot
        refine Or.inr (Or.inl ⟨fun hnew => ?_, rfl⟩)
        by_contra hoffered
        exact hnot ((Bool.and_eq_true _ _).mpr ⟨hnew.1, by simpa using hoffered⟩)

/-- Elsewhere no flow of the discovery starts. -/
theorem elsewhere_step {o o' : Offers} {e : ConfigFlow.Event}
    (h : o.step (.elsewhere e) = some o') :
    (∀ device, e ≠ .discovered device) ∧
      ∃ s', o.system.step e = some s' ∧ o' = { o with system := s' } := by
  simp only [Offers.step] at h
  split at h
  · exact absurd h (by simp)
  · rename_i hother
    obtain ⟨s', hs', rfl⟩ := Option.map_eq_some_iff.mp h
    exact ⟨hother, s', hs', rfl⟩

/-! ### Who is offered -/

/-- What is offered has been announced when it was new, and what was announced then is offered. -/
structure Asked (past : Offers → Event → Prop) (o : Offers) : Prop where
  offered : o.offered = o.asked.map DiscoveredDevice.deviceId
  once : o.offered.Nodup
  announced : ∀ device ∈ o.asked, ∃ u, past u (.announced device) ∧ u.IsNew device
  heard : ∀ u device, past u (.announced device) → u.IsNew device → device.deviceId ∈ o.offered
  moved : ∀ f ∈ o.following, ∃ u device, past u (.announced device) ∧ u.Moved device f.1 ∧
    f.2 = device.host

variable {past : Offers → Event → Prop} {o o' : Offers}

/-- A step that is no announcement asks for nobody.  The lists are as before, and it adds no
announcement to those heard. -/
theorem Asked.same (h : o.Asked past) {e : Event} (he : ∀ device, e ≠ .announced device)
    (hoffered : o'.offered = o.offered) (hasked : o'.asked = o.asked)
    (hfollowing : o'.following = o.following) : o'.Asked (since past o e) := by
  refine ⟨?_, ?_, ?_, ?_, ?_⟩
  · rw [hoffered, hasked, h.offered]
  · rw [hoffered]
    exact h.once
  · intro device hdevice
    rw [hasked] at hdevice
    obtain ⟨u, hu, hnew⟩ := h.announced device hdevice
    exact ⟨u, Or.inl hu, hnew⟩
  · intro u device hu hnew
    rw [hoffered]
    rcases hu with hu | ⟨_, heq⟩
    · exact h.heard u device hu hnew
    · exact absurd heq.symm (he device)
  · intro f hf
    rw [hfollowing] at hf
    obtain ⟨u, device, hu, hmoved⟩ := h.moved f hf
    exact ⟨u, device, Or.inl hu, hmoved⟩

/-- An announcement asks for a flow if the device is new, and otherwise changes at most an
address. -/
theorem Asked.hears (h : o.Asked past) (device : DiscoveredDevice) :
    (o.asyncOnDevice device).Asked (since past o (.announced device)) := by
  have hannounced : ∀ d ∈ o.asked, ∃ u, since past o (.announced device) u (.announced d) ∧
      u.IsNew d := fun d hd =>
    (h.announced d hd).imp fun u hu => ⟨Or.inl hu.1, hu.2⟩
  have hmoved : ∀ f ∈ o.following, ∃ u d, since past o (.announced device) u (.announced d) ∧
      u.Moved d f.1 ∧ f.2 = d.host := fun f hf => by
    obtain ⟨u, d, hu, hrest⟩ := h.moved f hf
    exact ⟨u, d, Or.inl hu, hrest⟩
  have hheard : ∀ u d, since past o (.announced device) u (.announced d) → u.IsNew d →
      d.deviceId ∈ o.offered ∨ d = device ∧ o.IsNew device := by
    intro u d hu hnew
    rcases hu with hu | ⟨rfl, heq⟩
    · exact Or.inl (h.heard u d hu hnew)
    · obtain rfl : d = device := Event.announced.inj heq
      exact Or.inr ⟨rfl, hnew⟩
  rcases asyncOnDevice_cases device o with ⟨hnew, hfresh, heq⟩ | ⟨hknown, heq⟩ |
    ⟨entryId, hold, hmove, heq⟩
  · rw [heq]
    refine ⟨?_, ?_, ?_, ?_, hmoved⟩
    · simp [h.offered]
    · refine List.nodup_append.mpr ⟨h.once, List.nodup_singleton _, fun a ha b hb heq => ?_⟩
      obtain rfl := List.mem_singleton.mp hb
      exact hfresh (heq ▸ ha)
    · intro d hd
      rcases List.mem_append.mp hd with hd | hd
      · exact hannounced d hd
      · obtain rfl := List.mem_singleton.mp hd
        exact ⟨o, Or.inr ⟨rfl, rfl⟩, hnew⟩
    · intro u d hu hnew'
      rcases hheard u d hu hnew' with hd | ⟨rfl, _⟩
      · exact List.mem_append_left _ hd
      · exact List.mem_append_right _ (List.mem_singleton_self _)
  · rw [heq]
    refine ⟨h.offered, h.once, hannounced, fun u d hu hnew => ?_, hmoved⟩
    rcases hheard u d hu hnew with hd | ⟨rfl, hd⟩
    · exact hd
    · exact hknown hd
  · rw [heq]
    refine ⟨h.offered, h.once, hannounced, fun u d hu hnew => ?_, fun f hf => ?_⟩
    · rcases hheard u d hu hnew with hd | ⟨rfl, hd⟩
      · exact hd
      · exact absurd hd hold
    · rcases List.mem_append.mp hf with hf | hf
      · exact hmoved f hf
      · obtain rfl := List.mem_singleton.mp hf
        exact ⟨o, device, Or.inr ⟨rfl, rfl⟩, hmove, rfl⟩

/-- Every step keeps the account of who was asked for, once and after an announcement.  Only
announcements add to it. -/
theorem Asked.step (h : o.Asked past) {e : Event} (hstep : o.step e = some o') :
    o'.Asked (since past o e) := by
  cases e with
  | announced device =>
      obtain rfl := Option.some.inj hstep
      exact h.hears device
  | started j =>
      obtain ⟨device, _, rfl⟩ := Option.map_eq_some_iff.mp hstep
      exact h.same (by simp) rfl rfl rfl
  | dropped j =>
      obtain ⟨device, _, rfl⟩ := Option.map_eq_some_iff.mp hstep
      exact h.same (by simp) rfl rfl rfl
  | loaded entryId =>
      obtain rfl := Option.some.inj hstep
      exact h.same (by simp) rfl rfl rfl
  | unloaded entryId =>
      obtain rfl := Option.some.inj hstep
      exact h.same (by simp) rfl rfl rfl
  | elsewhere e =>
      obtain ⟨_, s', _, rfl⟩ := elsewhere_step hstep
      exact h.same (by simp) rfl rfl rfl

/-- **A purifier is offered once, and only while it is not set up.**  In every run, the devices
that are offered are those that announced themselves as a Podium while no purifier entry had
their ID, each of them once, with an address announced then; a device that has an entry is only
followed, by that entry, to an address that it announced. -/
theorem offered_once {r : Registry} {as : List Event} {o : Offers}
    (hrun : Run Offers.step Anything (start r) as o) :
    (o.asked.map DiscoveredDevice.deviceId).Nodup ∧
      (∀ device ∈ o.asked, ∃ u, Happened Offers.step (start r) as u (.announced device) ∧
        u.IsNew device) ∧
      (∀ u device, Happened Offers.step (start r) as u (.announced device) → u.IsNew device →
        ∃ offered ∈ o.asked, offered.deviceId = device.deviceId) ∧
      ∀ f ∈ o.following, ∃ u device,
        Happened Offers.step (start r) as u (.announced device) ∧ u.Moved device f.1 ∧
          f.2 = device.host := by
  have hstart : Asked (fun _ _ => False) (start r) :=
    ⟨rfl, List.nodup_nil, by simp [start], by simp, by simp [start]⟩
  have h := hrun.history Asked (fun _ _ _ _ hinv _ hstep => hinv.step hstep) hstart
  refine ⟨?_, h.announced, fun u device hu hnew => ?_, h.moved⟩
  · rw [← h.offered]
    exact h.once
  · have hoffered := h.heard u device hu hnew
    rw [h.offered] at hoffered
    exact List.mem_map.mp hoffered

/-- A Podium. -/
def podium : DiscoveredDevice :=
  ⟨py "bf01", py "10.0.0.5", some (py "3.4"), some (py "a2zf7q0zxcutn5dy")⟩

/-- The Podium announces itself twice and is added with its key; then it has another address. -/
def podiumAdded : List Event :=
  [.announced podium, .announced podium, .started 0,
    .elsewhere (.configure 0 (some { localKey := some (py "0123456789abcdef") }) false),
    .elsewhere (.checked 0 0 (.returned (some ∅)) (some (py "3.4")) true), .loaded 0,
    .announced { podium with host := py "10.0.0.6" }]

/-- A Podium announces itself, is added, and announces itself at another address: it is offered
once, and its entry follows. -/
theorem offered_once_added :
    ∃ o : Offers, Run Offers.step Anything (start {}) podiumAdded o ∧
      o.offered = [py "bf01"] ∧ o.following = [(0, py "10.0.0.6")] ∧
      (o.asked.map DiscoveredDevice.deviceId).Nodup ∧
      ∃ u device, Happened Offers.step (start {}) podiumAdded u (.announced device) ∧
        u.Moved device 0 ∧ device.host = py "10.0.0.6" := by
  let execution := exec Offers.step (start {}) podiumAdded
  obtain ⟨o, ho⟩ := Option.isSome_iff_exists.mp (show execution.isSome = true by decide)
  have hfacts : ∀ o ∈ execution, o.offered = [py "bf01"] ∧ o.following = [(0, py "10.0.0.6")] := by
    decide
  obtain ⟨hoffered, hfollowing⟩ := hfacts o ho
  obtain ⟨honce, _, _, hmoved⟩ := offered_once (Run.of_exec ho)
  obtain ⟨u, device, hu, hmove, hhost⟩ := hmoved (0, py "10.0.0.6") (by simp [hfollowing])
  exact ⟨o, Run.of_exec ho, hoffered, hfollowing, honce, u, device, hu, hmove, hhost.symm⟩

/-! ### What an offer leads to -/

/-- Erasing an element from a list without repetitions leaves none of it. -/
theorem notMem_eraseIdx {l : List PyStr} {j : ℕ} {a : PyStr} (hl : l.Nodup)
    (hj : l[j]? = some a) : a ∉ l.eraseIdx j := by
  obtain ⟨hlt, rfl⟩ := List.getElem?_eq_some_iff.mp hj
  rw [← hl.erase_getElem j hlt]
  exact hl.not_mem_erase

/-- The IDs of the flows that have not begun. -/
def waiting (o : Offers) : List PyStr := o.starting.map DiscoveredDevice.deviceId

/-- Every device that was asked for has one flow at most: one that has not begun, or one. -/
structure Led (o : Offers) : Prop where
  offered : o.offered = o.asked.map DiscoveredDevice.deviceId
  starting : ∀ device ∈ o.starting, device ∈ o.asked
  once : o.waiting.Nodup
  flows : ∀ (i : ℕ) (flow : Flow), o.system.flows[i]? = some flow →
    flow.source = .integrationDiscovery →
    ∃ device ∈ o.asked, flow.IsFor device ∧ device.deviceId ∉ o.waiting
  distinct : ∀ (i j : ℕ) (flow flow' : Flow), o.system.flows[i]? = some flow →
    o.system.flows[j]? = some flow' → flow.source = .integrationDiscovery →
    flow'.source = .integrationDiscovery → flow.uniqueId = flow'.uniqueId → i = j

/-- Flows that go on are for their devices as before.  None begins here, so there is still one for
each device that no longer waits. -/
theorem Led.continues (h : o.Led) {s' : System} (hs : o.system.Continues s') :
    Led { o with system := s' } := by
  refine ⟨h.offered, h.starting, h.once, fun i flow' hi hsource => ?_, ?_⟩
  · obtain ⟨flow, hold, hgoes⟩ := hs i flow' hi hsource
    obtain ⟨device, hasked, hfor, hbegun⟩ := h.flows i flow hold (hgoes.source ▸ hsource)
    exact ⟨device, hasked, hgoes.isFor device hfor, hbegun⟩
  · intro i j flow' flow'' hi hj hsource hsource' hid
    obtain ⟨flow, hold, hgoes⟩ := hs i flow' hi hsource
    obtain ⟨other, hold', hgoes'⟩ := hs j flow'' hj hsource'
    obtain ⟨device, _, hfor, _⟩ := h.flows i flow hold (hgoes.source ▸ hsource)
    obtain ⟨device', _, hfor', _⟩ := h.flows j other hold' (hgoes'.source ▸ hsource')
    refine h.distinct i j flow other hold hold' (hgoes.source ▸ hsource)
      (hgoes'.source ▸ hsource') ?_
    calc flow.uniqueId = some device.deviceId := hfor.uniqueId
      _ = flow'.uniqueId := (hgoes.isFor device hfor).uniqueId.symm
      _ = flow''.uniqueId := hid
      _ = some device'.deviceId := (hgoes'.isFor device' hfor').uniqueId
      _ = other.uniqueId := hfor'.uniqueId.symm

/-- The IDs that wait for their flow, after one has begun. -/
theorem waiting_eraseIdx (o : Offers) (j : ℕ) :
    waiting { o with starting := o.starting.eraseIdx j } = o.waiting.eraseIdx j :=
  (List.eraseIdx_map _ _ _).symm

/-- A flow that was asked for does not wait any more. -/
theorem Led.dropped (h : o.Led) (j : ℕ) :
    Led { o with starting := o.starting.eraseIdx j } := by
  refine ⟨h.offered, fun device hdevice => h.starting device (List.mem_of_mem_eraseIdx hdevice),
    ?_, fun i flow hi hsource => ?_, h.distinct⟩
  · rw [waiting_eraseIdx]
    exact h.once.eraseIdx j
  · obtain ⟨device, hasked, hfor, hbegun⟩ := h.flows i flow hi hsource
    refine ⟨device, hasked, hfor, fun hmem => hbegun ?_⟩
    rw [waiting_eraseIdx] at hmem
    exact List.mem_of_mem_eraseIdx hmem

/-- The flow of a device that waits no more is the only one of its device.  It is begun for a
device that was asked for, and takes its place among those that have begun. -/
theorem Led.begins (h : o.Led) {device : DiscoveredDevice} (hasked : device ∈ o.asked)
    (hnone : ∀ (i : ℕ) (flow : Flow), o.system.flows[i]? = some flow →
      flow.source = .integrationDiscovery → flow.uniqueId ≠ some device.deviceId)
    (hbegun : device.deviceId ∉ o.waiting) {s' : System}
    (hs : o.system.step (.discovered device) = some s') : Led { o with system := s' } := by
  obtain ⟨new, hflows, hfor⟩ := System.discovered_flows hs
  have hcases : ∀ (i : ℕ) (flow : Flow), s'.flows[i]? = some flow →
      o.system.flows[i]? = some flow ∨ i = o.system.flows.length ∧ flow = new := by
    intro i flow hi
    rw [hflows, List.getElem?_append] at hi
    split at hi
    · exact Or.inl hi
    · rename_i hlt
      obtain ⟨hlast, heq⟩ := List.getElem?_eq_some_iff.mp hi
      rw [List.length_singleton] at hlast
      refine Or.inr ⟨by omega, ?_⟩
      rw [← heq]
      simp
  refine ⟨h.offered, h.starting, h.once, fun i flow hi hsource => ?_, ?_⟩
  · rcases hcases i flow hi with hold | ⟨_, rfl⟩
    · exact h.flows i flow hold hsource
    · exact ⟨device, hasked, hfor, hbegun⟩
  · intro i j flow flow' hi hj hsource hsource' hid
    rcases hcases i flow hi with hold | ⟨hi', rfl⟩
    · rcases hcases j flow' hj with hold' | ⟨_, rfl⟩
      · exact h.distinct i j flow flow' hold hold' hsource hsource' hid
      · exact absurd (hid.trans hfor.uniqueId) (hnone i flow hold hsource)
    · rcases hcases j flow' hj with hold' | ⟨hj', _⟩
      · exact absurd (hid.symm.trans hfor.uniqueId) (hnone j flow' hold' hsource')
      · omega

/-- An announcement gives no device a second flow: a device that was offered is not asked for
again. -/
theorem Led.hears (h : o.Led) (device : DiscoveredDevice) : (o.asyncOnDevice device).Led := by
  rcases asyncOnDevice_cases device o with ⟨_, hfresh, heq⟩ | ⟨_, heq⟩ | ⟨entryId, _, _, heq⟩
  · have hasked : ∀ d ∈ o.asked, d.deviceId ≠ device.deviceId := by
      intro d hd hsame
      rw [h.offered] at hfresh
      exact hfresh (List.mem_map.mpr ⟨d, hd, hsame⟩)
    have hwaiting : waiting
        { o with
          offered := o.offered ++ [device.deviceId]
          asked := o.asked ++ [device]
          starting := o.starting ++ [device] } = o.waiting ++ [device.deviceId] := by
      simp [waiting]
    rw [heq]
    refine ⟨?_, ?_, ?_, fun i flow hi hsource => ?_, h.distinct⟩
    · simp [h.offered]
    · intro d hd
      rcases List.mem_append.mp hd with hd | hd
      · exact List.mem_append_left _ (h.starting d hd)
      · exact List.mem_append_right _ hd
    · rw [hwaiting]
      refine List.nodup_append.mpr ⟨h.once, List.nodup_singleton _, fun a ha b hb heq => ?_⟩
      obtain ⟨d, hd, rfl⟩ := List.mem_map.mp ha
      obtain rfl := List.mem_singleton.mp hb
      exact hasked d (h.starting d hd) heq
    · obtain ⟨d, hd, hfor, hbegun⟩ := h.flows i flow hi hsource
      refine ⟨d, List.mem_append_left _ hd, hfor, fun hmem => ?_⟩
      rw [hwaiting] at hmem
      rcases List.mem_append.mp hmem with hmem | hmem
      · exact hbegun hmem
      · exact hasked d hd (List.mem_singleton.mp hmem)
  · rw [heq]
    exact h
  · rw [heq]
    exact ⟨h.offered, h.starting, h.once, h.flows, h.distinct⟩

/-- Every step keeps it: a flow of the discovery begins once for each device that was asked for.
The flow manager's own events only move flows on. -/
theorem Led.step (h : o.Led) {e : Event} (hstep : o.step e = some o') : o'.Led := by
  cases e with
  | announced device =>
      obtain rfl := Option.some.inj hstep
      exact h.hears device
  | started j =>
      obtain ⟨device, hj, rfl⟩ := Option.map_eq_some_iff.mp hstep
      have hwaits : o.waiting[j]? = some device.deviceId := by simp [waiting, hj]
      cases hs : o.system.step (.discovered device) with
      | none => exact h.dropped j
      | some s' =>
          have hbegun : device.deviceId ∉
              waiting { o with starting := o.starting.eraseIdx j } := by
            rw [waiting_eraseIdx]
            exact notMem_eraseIdx h.once hwaits
          refine (h.dropped j).begins (h.starting device (List.mem_of_getElem? hj)) ?_ hbegun hs
          intro i flow hi hsource hid
          obtain ⟨d, _, hfor, hnot⟩ := h.flows i flow hi hsource
          have hsame : d.deviceId = device.deviceId :=
            Option.some.inj (hfor.uniqueId.symm.trans hid)
          exact hnot (hsame ▸ List.mem_of_getElem? hwaits)
  | dropped j =>
      obtain ⟨device, _, rfl⟩ := Option.map_eq_some_iff.mp hstep
      exact h.dropped j
  | loaded entryId =>
      obtain rfl := Option.some.inj hstep
      exact ⟨h.offered, h.starting, h.once, h.flows, h.distinct⟩
  | unloaded entryId =>
      obtain rfl := Option.some.inj hstep
      exact ⟨h.offered, h.starting, h.once, h.flows, h.distinct⟩
  | elsewhere e =>
      obtain ⟨hother, s', hs', rfl⟩ := elsewhere_step hstep
      exact h.continues (System.continues hs' hother)

/-- A Podium's product key is not empty. -/
theorem productKey_filter {device : DiscoveredDevice} (h : isBirdiePurifier device = true) :
    device.productKey.filter (fun key => !key.isEmpty) = device.productKey := by
  obtain ⟨key, hkey, hproduct⟩ := isPurifierProduct_some h
  have hnonempty : ∀ key ∈ Purifier.productKeys, key.isEmpty = false := by decide
  rw [hproduct]
  simp [hnonempty key hkey]

/-- **An offer leads to its purifier, or nowhere.**  In every run, each flow of the discovery is
that of a device that was offered, and no other one is; it shows nothing but the form for the
key, and it adds nothing but that device, with the address and the product that it announced when
it was new. -/
theorem offers_lead {r : Registry} {as : List Event} {o : Offers}
    (hrun : Run Offers.step Anything (start r) as o) :
    (∀ (i : ℕ) (flow : Flow), o.system.flows[i]? = some flow →
      flow.source = .integrationDiscovery →
      ∃ device u, Happened Offers.step (start r) as u (.announced device) ∧ u.IsNew device ∧
        flow.uniqueId = some device.deviceId ∧
        (∀ step, flow.shown.next = some step → step = .purifierKey) ∧
        ∀ data, flow.shown = .createEntry data →
          data.isPurifier = true ∧ data.deviceId = some device.deviceId ∧
            data.host = some device.host ∧ data.productKey = device.productKey) ∧
      ∀ (i j : ℕ) (flow flow' : Flow), o.system.flows[i]? = some flow →
        o.system.flows[j]? = some flow' → flow.source = .integrationDiscovery →
        flow'.source = .integrationDiscovery → flow.uniqueId = flow'.uniqueId → i = j := by
  have hstart : Asked (fun _ _ => False) (start r) :=
    ⟨rfl, List.nodup_nil, by simp [start], by simp, by simp [start]⟩
  have hled : (start r).Led := ⟨rfl, by simp [start], List.nodup_nil, by simp [start],
    by simp [start]⟩
  have hasked := hrun.history Asked (fun _ _ _ _ hinv _ hstep => hinv.step hstep) hstart
  have h := hrun.invariant Led (fun _ _ _ hinv _ hstep => hinv.step hstep) hled
  refine ⟨fun i flow hi hsource => ?_, h.distinct⟩
  obtain ⟨device, hdevice, hfor, _⟩ := h.flows i flow hi hsource
  obtain ⟨u, hu, hnew⟩ := hasked.announced device hdevice
  have hshown := hfor.shown
  refine ⟨device, u, hu, hnew, hfor.uniqueId, fun step hnext => ?_, fun data hdata => ?_⟩
  · exact hfor.shown.next hnext
  · rw [hdata] at hshown
    obtain ⟨hpurifier, hid, hhost, hproduct⟩ := hshown
    exact ⟨hpurifier, hid, hhost, hproduct.trans (productKey_filter hnew.1)⟩

/-- The entry of the Podium came from the flow of its announcement.  The key was entered by the
user, the address was announced. -/
theorem offers_lead_added :
    ∃ (o : Offers) (flow : Flow), Run Offers.step Anything (start {}) podiumAdded o ∧
      (o.system.registry.entries.map fun e => e.data.host) = [some (py "10.0.0.5")] ∧
      o.system.flows[0]? = some flow ∧
      ∃ device u, Happened Offers.step (start {}) podiumAdded u (.announced device) ∧
        u.IsNew device ∧ flow.uniqueId = some device.deviceId := by
  let execution := exec Offers.step (start {}) podiumAdded
  obtain ⟨o, ho⟩ := Option.isSome_iff_exists.mp (show execution.isSome = true by decide)
  have hfacts : ∀ o ∈ execution,
      (o.system.registry.entries.map fun e => e.data.host) = [some (py "10.0.0.5")] ∧
      ∃ flow ∈ o.system.flows[0]?, flow.source = .integrationDiscovery := by
    decide
  obtain ⟨hentries, flow, hflow, hsource⟩ := hfacts o ho
  obtain ⟨device, u, hu, hnew, hid, _, _⟩ :=
    (offers_lead (Run.of_exec ho)).1 0 flow hflow hsource
  exact ⟨o, flow, Run.of_exec ho, hentries, hflow, device, u, hu, hnew, hid⟩

end Offers

end ConfigFlow
