import HaBirdie.ConfigEntries

/-!
# What a config flow goes back to

What a flow keeps between its steps (`_lan_devices`, `_purifier`, `_search`) and the local
variables of its awaiting steps each go back to something that happened in that flow: an
announcement that was heard, a connection that succeeded, a submission of settings.  `Backed`
says so relative to what happened (`past`), and every step of the flow keeps it (`Turn.Good`).

Two flows, or two steps of one flow, never get in each other's way, since a step goes on with
its own local variables after an await.  Only one thing is carried in the flow itself: that
`async_step_purifier_search_found` is called after `_is_podium` held of what was found
(`Shows`).
-/

namespace ConfigFlow

open Python
open Lan (DeviceConfig Ending FoundDevice Changes protocolAuto defaultPort)
open Purifier (productKeys looksLikePurifier)

/-! ## What happens in a flow -/

/-- The announcements that an event brings to flow `i`. -/
def Event.hears (s : System) (i : ℕ) : Event → List DiscoveredDevice
  | .discovered device => if s.flows.length = i then [device] else []
  | .lanScanned j (some found) => if j = i then found else []
  | .scanned j _ (some found) _ => if j = i then found else []
  | _ => []

/-- The event is a connection in flow `i`, with this ID and key at this host, that succeeds and
reports `dps`. -/
inductive Connects (s : System) (i : ℕ) (deviceId localKey host : PyStr) (dps : PyDict) :
    Event → Prop
  | checked {k : ℕ} {flow : Flow} {config : DeviceConfig} {hint version : Option PyStr}
      {purpose : Check} {reported : Option PyDict} (hflow : s.flows[i]? = some flow)
      (hcall : flow.calls[k]? = some (.check config hint purpose))
      (hid : config.deviceId = deviceId) (hkey : config.localKey = localKey)
      (hhost : config.host = host) (hdps : reported.getD ∅ = dps) :
      Connects s i deviceId localKey host dps (.checked i k (.returned reported) version true)
  | searched {flow : Flow} {search : NetworkSearch} {found : FoundDevice}
      (hflow : s.flows[i]? = some flow) (hsearch : flow.search = some search)
      (hid : search.deviceId = deviceId) (hkey : search.localKey = localKey)
      (hhost : found.host = host) (hdps : found.dps = dps) :
      Connects s i deviceId localKey host dps (.searched i (some found))

/-- The settings of `config` are those submitted, and the others those of the entry. -/
structure Takes (submitted : Changes) (data : EntryData) (config : DeviceConfig) : Prop where
  deviceId : data.deviceId = some config.deviceId
  localKey : submitted.localKey.or data.localKey = some config.localKey
  host : submitted.host.or data.host = some config.host
  version : submitted.protocolVersion.getD (data.protocolVersion.getD protocolAuto) =
    config.protocolVersion

/-- What the reauth form submits. -/
def reauthSubmits (input : UserInput) : Changes := { localKey := some input.enteredKey }

/-- What the reconfigure form submits: an empty key is none, a version that is left out is
automatic. -/
def reconfigureSubmits (input : UserInput) : Changes where
  localKey := if input.enteredKey = [] then none else some input.enteredKey
  host := input.host.map strip
  protocolVersion := some input.version

section Past

variable (past : System → Event → Prop) (i : ℕ)

/-- The device announced itself in flow `i`. -/
def Announced (device : DiscoveredDevice) : Prop :=
  ∃ s event, past s event ∧ device ∈ event.hears s i

/-- A connection with this ID and key succeeded at the host in flow `i`. -/
def Connected (deviceId localKey host : PyStr) (dps : PyDict) : Prop :=
  ∃ s event, past s event ∧ Connects s i deviceId localKey host dps event

/-- Flow `i` submitted settings that make `config` with what the entry had then. -/
def Submitted (entryId : ℕ) (submits : UserInput → Changes) (config : DeviceConfig) : Prop :=
  ∃ s input early entry, past s (.configure i (some input) early) ∧
    entry ∈ s.registry.entries ∧ entry.entryId = entryId ∧ Takes (submits input) entry.data config

/-- What is to hold of the data of a purifier entry that flow `i` creates. -/
def Admissible (r : Registry) (data : EntryData) : Prop :=
  ∃ deviceId localKey host dps,
    data.deviceId = some deviceId ∧ data.localKey = some localKey ∧ data.host = some host ∧
    deviceId ≠ [] ∧ r.Free deviceId ∧ localKey.length = 16 ∧
    Connected past i deviceId localKey host dps ∧
    ((∃ device, Announced past i device ∧ device.deviceId = deviceId ∧
        ∃ key ∈ productKeys, device.productKey = some key) ∨
      looksLikePurifier dps = .ok true)

/-! ## What the flow keeps -/

/-- What a search goes back to. -/
structure NetworkSearch.Backed (n : NetworkSearch) : Prop where
  key : n.localKey.length = 16
  step : n.step ≠ .purifierSearchFound
  task : ∀ found, n.task = .done (some found) →
    Connected past i n.deviceId n.localKey found.host found.dps
  found : ∀ found ∈ n.found, Connected past i n.deviceId n.localKey found.host found.dps

/-- What the local variables of an awaiting step go back to. -/
inductive Await.Backed (r : Registry) : Await → Prop
  | scan {step : Step} {deviceId localKey version : PyStr} {input : UserInput}
      (hstep : step ≠ .purifierSearchFound) (hkey : localKey.length = 16) :
      Await.Backed r (.scan step deviceId localKey version input)
  | key {config : DeviceConfig} {hint : Option PyStr} {device : DiscoveredDevice}
      (hkey : config.localKey.length = 16) (hid : device.deviceId = config.deviceId)
      (hheard : Announced past i device) : Await.Backed r (.check config hint (.key device))
  | manual {config : DeviceConfig} {hint : Option PyStr} {step : Step}
      {productKey : Option PyStr} {input : UserInput} (hstep : step ≠ .purifierSearchFound)
      (hkey : config.localKey.length = 16)
      (hheard : ∀ key, productKey = some key → ∃ device, Announced past i device ∧
        device.deviceId = config.deviceId ∧ device.productKey = some key) :
      Await.Backed r (.check config hint (.manual step productKey input))
  | reauth {config : DeviceConfig} {hint : Option PyStr} {entryId : ℕ}
      (hhas : r.Has entryId config)
      (hsubmitted : Submitted past i entryId reauthSubmits config) :
      Await.Backed r (.check config hint (.reauth entryId))
  | reconfigure {config : DeviceConfig} {hint : Option PyStr} {entryId : ℕ} {input : UserInput}
      (hhas : r.Has entryId config)
      (hsubmitted : Submitted past i entryId reconfigureSubmits config) :
      Await.Backed r (.check config hint (.reconfigure entryId input))

/-- What a flow goes back to. -/
structure Flow.Backed (r : Registry) (flow : Flow) : Prop where
  task : ∀ found, flow.lanTask = .done found → ∀ device ∈ found, Announced past i device
  devices : ∀ device ∈ flow.lanDevices, Announced past i device
  purifier : ∀ device ∈ flow.purifier, Announced past i device
  search : ∀ n ∈ flow.search, n.Backed past i
  calls : ∀ a ∈ flow.calls, a.Backed past i r

/-- `async_step_purifier_search_found` is called only for a podium. -/
def Shows (result : FlowResult) (search : Option NetworkSearch) : Prop :=
  result.next = some .purifierSearchFound →
    ∀ n ∈ search, ∀ found ∈ n.found, looksLikePurifier found.dps = .ok true

/-- What is to hold of the outcome of a step. -/
def Outcome.Good (r : Registry) (flow : Flow) : Outcome → Prop
  | .awaits a => a.Backed past i r ∧ Shows flow.shown flow.search
  | .result .raised => Shows flow.shown flow.search
  | .result (.createEntry data) =>
      Admissible past i r data ∧ flow.uniqueId = data.deviceId ∧ data.isPurifier = true
  | .result shown => Shows shown flow.search

/-- What is to hold of a step of flow `i`. -/
structure Turn.Good (t : Turn) : Prop where
  flow : t.flow.Backed past i t.registry
  outcome : t.outcome.Good past i t.registry t.flow

end Past

variable {past past' : System → Event → Prop} {i : ℕ} {r r' : Registry} {flow : Flow}

/-! ## What happened stays so -/

/-- An announcement stays heard. -/
theorem Announced.mono (hpast : ∀ s event, past s event → past' s event)
    {device : DiscoveredDevice} (h : Announced past i device) : Announced past' i device := by
  obtain ⟨s, event, hevent, hhears⟩ := h
  exact ⟨s, event, hpast s event hevent, hhears⟩

/-- A connection that succeeded stays one that succeeded. -/
theorem Connected.mono (hpast : ∀ s event, past s event → past' s event)
    {deviceId localKey host : PyStr} {dps : PyDict}
    (h : Connected past i deviceId localKey host dps) :
    Connected past' i deviceId localKey host dps := by
  obtain ⟨s, event, hevent, hconnects⟩ := h
  exact ⟨s, event, hpast s event hevent, hconnects⟩

/-- What was submitted stays submitted. -/
theorem Submitted.mono (hpast : ∀ s event, past s event → past' s event) {entryId : ℕ}
    {submits : UserInput → Changes} {config : DeviceConfig}
    (h : Submitted past i entryId submits config) : Submitted past' i entryId submits config := by
  obtain ⟨s, input, early, entry, hevent, hrest⟩ := h
  exact ⟨s, input, early, entry, hpast s _ hevent, hrest⟩

/-- What a search goes back to does not vanish: it stays backed when more happens. -/
theorem NetworkSearch.Backed.mono (hpast : ∀ s event, past s event → past' s event)
    {n : NetworkSearch} (h : n.Backed past i) : n.Backed past' i :=
  ⟨h.key, h.step, fun found hfound => (h.task found hfound).mono hpast,
    fun found hfound => (h.found found hfound).mono hpast⟩

/-- The local variables of an awaiting step stay backed when more happens and the entries keep
their IDs, so that the step can go on after its await as if nothing had been in between. -/
theorem Await.Backed.mono (hpast : ∀ s event, past s event → past' s event)
    (hkeeps : r.Keeps r') {a : Await} (h : a.Backed past i r) : a.Backed past' i r' := by
  cases h with
  | scan hstep hkey => exact .scan hstep hkey
  | key hkey hid hheard => exact .key hkey hid (hheard.mono hpast)
  | manual hstep hkey hheard =>
      refine .manual hstep hkey fun key hproduct => ?_
      obtain ⟨device, hdevice, hrest⟩ := hheard key hproduct
      exact ⟨device, hdevice.mono hpast, hrest⟩
  | reauth hhas hsubmitted => exact .reauth (hhas.keeps hkeeps) (hsubmitted.mono hpast)
  | reconfigure hhas hsubmitted => exact .reconfigure (hhas.keeps hkeeps) (hsubmitted.mono hpast)

/-- A flow stays backed while other flows take their steps. -/
theorem Flow.Backed.mono (hpast : ∀ s event, past s event → past' s event)
    (hkeeps : r.Keeps r') (h : flow.Backed past i r) : flow.Backed past' i r' :=
  ⟨fun found hdone device hdevice => (h.task found hdone device hdevice).mono hpast,
    fun device hdevice => (h.devices device hdevice).mono hpast,
    fun device hdevice => (h.purifier device hdevice).mono hpast,
    fun n hn => (h.search n hn).mono hpast,
    fun a ha => (h.calls a ha).mono hpast hkeeps⟩

/-! ## The steps -/

/-- A result that does not lead to `async_step_purifier_search_found` needs no podium. -/
theorem Shows.of_next {result : FlowResult} {search : Option NetworkSearch}
    (h : result.next ≠ some .purifierSearchFound) : Shows result search := fun hnext =>
  absurd hnext h

/-- A flow without a search needs no podium either. -/
theorem Shows.of_none (result : FlowResult) : Shows result none := fun _ _ hn =>
  absurd hn (by simp)

/-- A step that only shows something keeps the flow. -/
theorem Flow.Backed.ends (h : flow.Backed past i r) {result : FlowResult}
    (hgood : (Outcome.result result).Good past i r flow) : (flow.ends r result).Good past i :=
  ⟨h, hgood⟩

/-- A step that raises leaves a flow backed, and what it showed it still shows. -/
theorem Flow.Backed.raises (h : flow.Backed past i r) (hshows : Shows flow.shown flow.search) :
    (flow.ends r .raised).Good past i := ⟨h, hshows⟩

/-- A step whose next step is not `purifier_search_found`. -/
theorem Flow.Backed.shows (h : flow.Backed past i r) (hshows : Shows flow.shown flow.search)
    {result : FlowResult} (hnext : result.next ≠ some .purifierSearchFound)
    (hentry : ∀ data, result ≠ .createEntry data) : (flow.ends r result).Good past i := by
  apply h.ends
  cases result with
  | createEntry data => exact absurd rfl (hentry data)
  | raised => exact hshows
  | _ => exact Shows.of_next hnext

/-- Settings that are constructed and then awaited are good if the await goes back to something,
whatever settings come out of the construction.  Where that raises, the flow stays. -/
theorem checks_good (h : flow.Backed past i r) (hshows : Shows flow.shown flow.search)
    {deviceId host localKey version : PyStr} {hint : Option PyStr} {purpose : Check}
    (hbacked : ∀ config : DeviceConfig, config.deviceId = deviceId → config.host = host →
      config.localKey = localKey → config.protocolVersion = version →
      (Await.check config hint purpose).Backed past i r) :
    (flow.checks r deviceId host localKey version hint purpose).Good past i := by
  unfold Flow.checks
  cases hmake : DeviceConfig.make deviceId host localKey version defaultPort with
  | error e => exact h.raises hshows
  | ok config =>
      obtain ⟨hid, hhost, hkey, hversion⟩ := DeviceConfig.make_ok hmake
      exact ⟨h, hbacked config hid hhost hkey hversion, hshows⟩

/-- **The one place that creates a purifier entry**: what was checked is admissible.  Every step
that adds a purifier ends here, so this is where the ID is found to be free and the other
conditions come together. -/
theorem asyncCreatePurifier_good (hr : r.Sound) (h : flow.Backed past i r)
    {config : DeviceConfig} {version productKey : Option PyStr} {dps : PyDict}
    (hkey : config.localKey.length = 16)
    (hconnected : Connected past i config.deviceId config.localKey config.host dps)
    (hpodium : (∃ device, Announced past i device ∧ device.deviceId = config.deviceId ∧
        ∃ key ∈ productKeys, device.productKey = some key) ∨
      looksLikePurifier dps = .ok true) :
    (asyncCreatePurifier r flow config version productKey).Good past i := by
  have h' : { flow with uniqueId := some config.deviceId }.Backed past i r :=
    ⟨h.task, h.devices, h.purifier, h.search, h.calls⟩
  unfold asyncCreatePurifier
  dsimp only
  split
  · exact h'.ends (Shows.of_next (by simp [alreadyConfigured, FlowResult.next]))
  · rename_i hconfigured
    have hid : { flow with uniqueId := some config.deviceId }.uniqueId = some config.deviceId := rfl
    have hfree := hr.free hid (by simpa using hconfigured)
    exact h'.ends ⟨⟨_, _, _, dps, rfl, rfl, rfl, config.deviceId_ne, hfree, hkey, hconnected,
      hpodium⟩, rfl, rfl⟩

/-- A key that is accepted is the one that was entered, without the spaces around it, and has the
length of a local key. -/
theorem cleanLocalKey_some {value key : PyStr} (h : cleanLocalKey value = some key) :
    key = strip value ∧ key.length = 16 := by
  unfold cleanLocalKey at h
  dsimp only at h
  split at h
  · rename_i hlength
    obtain rfl := Option.some.inj h
    exact ⟨rfl, hlength⟩
  · exact absurd h (by simp)

/-- A purifier's product key is one of `PRODUCT_KEYS`. -/
theorem isPurifierProduct_some {productKey : Option PyStr}
    (h : isPurifierProduct productKey = true) : ∃ key ∈ productKeys, productKey = some key := by
  cases productKey with
  | none => exact absurd h (by simp [isPurifierProduct])
  | some key => exact ⟨key, by simpa [isPurifierProduct] using h, rfl⟩

/-- What `_is_podium` accepts. -/
theorem isPodium_true {dps : PyDict} {productKey : Option PyStr}
    (h : isPodium dps productKey = .ok true) :
    (∃ key ∈ productKeys, productKey = some key) ∨ looksLikePurifier dps = .ok true := by
  unfold isPodium at h
  split at h
  · rename_i hproduct
    exact Or.inl (isPurifierProduct_some hproduct)
  · exact Or.inr h

/-- A task that is done after it was started had been done before, or has ended at once. -/
theorem FlowTask.start_done {α : Type} {ended : Option α} {task : FlowTask α} {result : α}
    (h : task.start ended = .done result) : task = .done result ∨ ended = some result := by
  cases task with
  | notStarted =>
      cases ended with
      | none => exact absurd h (by simp [FlowTask.start])
      | some result' =>
          obtain rfl : result' = result := by simpa [FlowTask.start] using h
          exact Or.inr rfl
  | running => exact absurd h (by simp [FlowTask.start])
  | done result' => exact Or.inl h

/-- `async_step_purifier`: the devices it offers were announced to the scan of this flow, and a
scan that ended at once has found none. -/
theorem asyncStepPurifier_good (h : flow.Backed past i r) (early : Bool) :
    (asyncStepPurifier r flow early).Good past i := by
  have htask : ∀ found, flow.lanTask.start (if early then some [] else none) = .done found →
      ∀ device ∈ found, Announced past i device := by
    intro found hdone device hdevice
    rcases FlowTask.start_done hdone with hold | hearly
    · exact h.task found hold device hdevice
    · cases early with
      | false => exact absurd hearly (by simp)
      | true =>
          obtain rfl : [] = found := by simpa using hearly
          exact absurd hdevice (by simp)
  unfold asyncStepPurifier
  dsimp only
  split
  · rename_i found hdone
    have hdevices : ∀ device ∈ found.filter (fun device =>
        isBirdiePurifier device && !r.currentIds.contains device.deviceId),
        Announced past i device := fun device hdevice =>
      htask found hdone device (List.mem_filter.mp hdevice).1
    have h' : ({ flow with
        lanTask := flow.lanTask.start (if early then some [] else none)
        lanDevices := found.filter fun device =>
          isBirdiePurifier device && !r.currentIds.contains device.deviceId } : Flow).Backed
        past i r := ⟨htask, hdevices, h.purifier, h.search, h.calls⟩
    refine h'.ends (Shows.of_next ?_)
    split <;> simp [FlowResult.next]
  · have h' : { flow with
        lanTask := flow.lanTask.start (if early then some [] else none) }.Backed past i r :=
      ⟨htask, h.devices, h.purifier, h.search, h.calls⟩
    exact h'.ends (Shows.of_next (by simp [FlowResult.next]))

/-- `async_step_purifier_key`: it checks the key that was entered against the address that the
device announced in this flow. -/
theorem asyncStepPurifierKey_good (h : flow.Backed past i r)
    (hshows : Shows flow.shown flow.search) (input : Option UserInput) :
    (asyncStepPurifierKey r flow input).Good past i := by
  unfold asyncStepPurifierKey
  split
  · exact h.raises hshows
  · exact h.shows hshows (by simp [FlowResult.next]) (by simp)
  · rename_i device input hdevice
    split
    · exact h.raises hshows
    · exact h.shows hshows (by simp [FlowResult.next]) (by simp)
    · rename_i key hkey
      obtain ⟨value, _, hclean⟩ := Option.map_eq_some_iff.mp hkey
      apply checks_good h hshows
      intro config hid _ hlocal _
      refine .key ?_ hid.symm (h.purifier device hdevice)
      rw [hlocal]
      exact (cleanLocalKey_some hclean).2

/-- Only a search whose report looks like a purifier goes on to
`async_step_purifier_search_found`. -/
theorem asyncStepPurifierSearch_good (h : flow.Backed past i r) (early : Bool)
    (hquiet : ∀ n found, flow.search = some n → n.task = .done (some found) →
      flow.shown.next ≠ some .purifierSearchFound) :
    (asyncStepPurifierSearch r flow early).Good past i := by
  unfold asyncStepPurifierSearch
  cases hsearch : flow.search with
  | none =>
      apply h.ends
      rw [Outcome.Good, hsearch]
      exact Shows.of_none _
  | some n =>
      have hn := h.search n hsearch
      have htask : ∀ found,
          n.task.start (if early then some none else none) = .done (some found) →
            n.task = .done (some found) := by
        intro found hdone
        refine (FlowTask.start_done hdone).resolve_right ?_
        cases early <;> simp
      -- the flow with the search as the step leaves it
      have hflow : ∀ n' : NetworkSearch, n'.Backed past i →
          { flow with search := some n' }.Backed past i r := fun n' hn' =>
        ⟨h.task, h.devices, h.purifier, by simpa using hn', h.calls⟩
      have hbacked : ∀ (found : Option FoundDevice) (notAPodium : Bool),
          (∀ f, found = some f → Connected past i n.deviceId n.localKey f.host f.dps) →
          ({ n with
            task := n.task.start (if early then some none else none)
            found
            notAPodium } : NetworkSearch).Backed past i := fun found notAPodium hfound =>
        ⟨hn.key, hn.step, fun f hf => hn.task f (htask f hf), hfound⟩
      dsimp only
      split
      · refine (hflow _ (hbacked none n.notAPodium (by simp))).ends (Shows.of_next ?_)
        simpa [FlowResult.next] using hn.step
      · rename_i found hdone
        have hconnected : ∀ f, some found = some f →
            Connected past i n.deviceId n.localKey f.host f.dps := by
          intro f hf
          obtain rfl := Option.some.inj hf
          exact hn.task found (htask found hdone)
        split
        · refine (hflow _ (hbacked (some found) n.notAPodium hconnected)).ends ?_
          exact Shows.of_next (hquiet n found hsearch (htask found hdone))
        · rename_i hpodium
          refine (hflow _ (hbacked (some found) n.notAPodium hconnected)).ends ?_
          intro _ n' hn' f hf
          obtain rfl := Option.some.inj hn'
          obtain rfl : found = f := Option.some.inj hf
          refine (isPodium_true hpodium).resolve_left ?_
          intro hparts
          obtain ⟨_, _, hnone⟩ := hparts
          exact absurd hnone (by simp)
        · refine (hflow _ (hbacked none true (by simp))).ends (Shows.of_next ?_)
          simpa [FlowResult.next] using hn.step
      · exact (hflow _ (hbacked n.found n.notAPodium hn.found)).ends
          (Shows.of_next (by simp [FlowResult.next]))

/-- Dropping the search forgets nothing else. -/
theorem Flow.Backed.cleared (h : flow.Backed past i r) :
    { flow with search := none }.Backed past i r :=
  ⟨h.task, h.devices, h.purifier, by simp, h.calls⟩

/-- The search found the purifier: `_is_podium` held of its report.  The step itself does not look
again; that it is called after a podium only is `Shows`. -/
theorem asyncStepPurifierSearchFound_good (hr : r.Sound) (h : flow.Backed past i r)
    (hpodium : ∀ n ∈ flow.search, ∀ found ∈ n.found, looksLikePurifier found.dps = .ok true) :
    (asyncStepPurifierSearchFound r flow).Good past i := by
  unfold asyncStepPurifierSearchFound
  dsimp only
  cases hsearch : flow.search with
  | none => exact h.cleared.raises (Shows.of_none _)
  | some n =>
      have hn := h.search n hsearch
      dsimp only
      cases hfound : n.found with
      | none => exact h.cleared.raises (Shows.of_none _)
      | some found =>
          dsimp only
          cases hmake : DeviceConfig.make n.deviceId found.host n.localKey n.protocolVersion
              defaultPort with
          | error e => exact h.cleared.raises (Shows.of_none _)
          | ok config =>
              obtain ⟨hid, hhost, hkey, _⟩ := DeviceConfig.make_ok hmake
              have hconnected : Connected past i config.deviceId config.localKey config.host
                  found.dps := by
                rw [hid, hkey, hhost]
                exact hn.found found hfound
              refine asyncCreatePurifier_good hr h.cleared ?_ hconnected
                (Or.inr (hpodium n hsearch found hfound))
              rw [hkey]
              exact hn.key

/-- A submitted manual form: the ID, the key and the address are those that were entered, or the
address and the product key are those of a device that was announced to this flow. -/
theorem manualSubmitted_good (h : flow.Backed past i r) (hshows : Shows flow.shown flow.search)
    {step : Step} (hstep : step ≠ .purifierSearchFound) (input : UserInput) (deviceId : PyStr) :
    (manualSubmitted step r flow input deviceId).Good past i := by
  unfold manualSubmitted
  split
  · exact h.raises hshows
  · rename_i key? hkey?
    have h' : { flow with uniqueId := some deviceId }.Backed past i r :=
      ⟨h.task, h.devices, h.purifier, h.search, h.calls⟩
    dsimp only
    split
    · exact h'.ends (Shows.of_next (by simp [alreadyConfigured, FlowResult.next]))
    · split
      · exact h'.ends (Shows.of_next (by simpa [FlowResult.next] using hstep))
      · split
        · exact h'.ends (Shows.of_next (by simpa [FlowResult.next] using hstep))
        · rename_i key
          obtain ⟨value, _, hclean⟩ := Option.map_eq_some_iff.mp hkey?
          have hlength : key.length = 16 := (cleanLocalKey_some hclean).2
          split
          · split
            · exact ⟨h', .scan hstep hlength, hshows⟩
            · rename_i device hfound
              apply checks_good h' hshows
              intro config hid _ hlocal _
              refine .manual hstep (by rw [hlocal]; exact hlength) fun product hproduct => ?_
              have hdevice : device.deviceId = deviceId := by
                simpa using List.find?_some hfound
              exact ⟨device, h.devices device (List.mem_of_find?_eq_some hfound),
                hdevice.trans hid.symm, hproduct⟩
          · apply checks_good h' hshows
            intro config _ _ hlocal _
            exact .manual hstep (by rw [hlocal]; exact hlength) (by simp)

/-- `_async_purifier_manual` up to its first await.  Back from a search it shows the form again. -/
theorem asyncPurifierManual_good (h : flow.Backed past i r) {step : Step}
    (hstep : step ≠ .purifierSearchFound) (input : Option UserInput) :
    (asyncPurifierManual step r flow input).Good past i := by
  unfold asyncPurifierManual
  dsimp only
  split
  · exact h.cleared.ends (Shows.of_next (by simpa [FlowResult.next] using hstep))
  · split
    · exact h.cleared.ends (Shows.of_next (by simpa [FlowResult.next] using hstep))
    · exact manualSubmitted_good h.cleared (Shows.of_none _) hstep _ _

/-- `_async_purifier_manual` after its scan: what it found was announced in this flow, and what it
did not find it searches with the entered ID and key. -/
theorem manualScanned_good (h : flow.Backed past i r) (hshows : Shows flow.shown flow.search)
    {step : Step} (hstep : step ≠ .purifierSearchFound) {deviceId localKey version : PyStr}
    (hkey : localKey.length = 16) (input : UserInput) {found : Option (List DiscoveredDevice)}
    (hheard : ∀ devices, found = some devices → ∀ device ∈ devices, Announced past i device)
    (early : Bool) :
    (manualScanned step deviceId localKey version input r flow found early).Good past i := by
  unfold manualScanned
  split
  · exact h.raises hshows
  · rename_i devices
    split
    · refine asyncStepPurifierSearch_good ?_ early ?_
      · refine ⟨h.task, h.devices, h.purifier, ?_, h.calls⟩
        intro n hn
        obtain rfl := Option.some.inj hn
        exact ⟨hkey, hstep, by simp, by simp⟩
      · intro n f hn hdone
        obtain rfl := Option.some.inj hn
        exact absurd hdone (by simp)
    · rename_i device hfound
      apply checks_good h hshows
      intro config hid _ hlocal _
      refine .manual hstep (by rw [hlocal]; exact hkey) fun product hproduct => ?_
      have hdevice : device.deviceId = deviceId := by simpa using List.find?_some hfound
      exact ⟨device, hheard devices rfl device (List.mem_of_find?_eq_some hfound),
        hdevice.trans hid.symm, hproduct⟩

/-- `async_step_purifier_pick`: the device that is picked was announced to the scan of this
flow. -/
theorem asyncStepPurifierPick_good (h : flow.Backed past i r)
    (hshows : Shows flow.shown flow.search) (input : Option UserInput) :
    (asyncStepPurifierPick r flow input).Good past i := by
  unfold asyncStepPurifierPick
  split
  · exact h.ends (Shows.of_next (by simp [FlowResult.next]))
  · split
    · exact asyncPurifierManual_good h (by simp) none
    · split
      · exact h.raises hshows
      · rename_i device hfound
        have h' : { flow with purifier := some device }.Backed past i r := by
          refine ⟨h.task, h.devices, ?_, h.search, h.calls⟩
          intro d hd
          obtain rfl := Option.some.inj hd
          exact h.devices device (List.mem_of_find?_eq_some hfound)
        exact asyncStepPurifierKey_good h' hshows none

/-- The step was called by a submission, with the entries as they are. -/
def SubmittedNow (past : System → Event → Prop) (i : ℕ) (r : Registry)
    (input : Option UserInput) : Prop :=
  ∀ submitted, input = some submitted →
    ∃ s early, past s (.configure i (some submitted) early) ∧ s.registry = r

/-- What a form submits counts against the entry as it is at the submission, which is what the step
reads before its await. -/
theorem SubmittedNow.submitted {input : UserInput} (h : SubmittedNow past i r (some input))
    {entryId : ℕ} {e : Entry} (he : r.entry entryId = some e) {submits : UserInput → Changes}
    {config : DeviceConfig} (htakes : Takes (submits input) e.data config) :
    Submitted past i entryId submits config := by
  obtain ⟨s, early, hevent, rfl⟩ := h input rfl
  obtain ⟨hmem, hentryId⟩ := Registry.mem_of_entry he
  exact ⟨s, input, early, e, hevent, hmem, hentryId, htakes⟩

/-- The form of the reauth step keeps the flow as it is. -/
theorem reauthForm_good (h : flow.Backed past i r) (hshows : Shows flow.shown flow.search)
    (data : EntryData) (errors : List (PyStr × PyStr)) :
    (reauthForm r flow data errors).Good past i := by
  unfold reauthForm
  split
  · exact h.raises hshows
  · exact h.ends (Shows.of_next (by simp [FlowResult.next]))

/-- The form of the reconfigure step keeps the flow as it is. -/
theorem reconfigureForm_good (h : flow.Backed past i r) (hshows : Shows flow.shown flow.search)
    (data : EntryData) (input : Option UserInput) (errors : List (PyStr × PyStr)) :
    (reconfigureForm r flow data input errors).Good past i := by
  unfold reconfigureForm
  split
  · exact h.ends (Shows.of_next (by simp [FlowResult.next]))
  · exact h.raises hshows

/-- The reauth step tries the entered key with what the entry has.  What it read of the entry
before the await goes along in its local variables. -/
theorem asyncStepReauthConfirm_good (hr : r.Sound) (h : flow.Backed past i r)
    (hshows : Shows flow.shown flow.search) {input : Option UserInput}
    (hnow : SubmittedNow past i r input) : (asyncStepReauthConfirm r flow input).Good past i := by
  unfold asyncStepReauthConfirm
  split
  · rename_i entryId _
    split
    · exact h.raises hshows
    · exact reauthForm_good h hshows _ _
    · rename_i entry input hentry
      split
      · exact h.raises hshows
      · exact reauthForm_good h hshows _ _
      · rename_i key hkey
        obtain ⟨value, hvalue, hclean⟩ := Option.map_eq_some_iff.mp hkey
        obtain ⟨rfl, _⟩ := cleanLocalKey_some hclean
        split
        · rename_i deviceId host hdevice hhost
          apply checks_good h hshows
          intro config hid hhost' hlocal hversion
          have hid' : entry.data.deviceId = some config.deviceId := by rw [hid, hdevice]
          refine .reauth (hr.has hentry hid') (hnow.submitted hentry ?_)
          exact
            { deviceId := hid'
              localKey := by simp [reauthSubmits, UserInput.enteredKey, hvalue, hlocal]
              host := by simp [reauthSubmits, hhost, hhost']
              version := by simp [reauthSubmits, hversion] }
        · exact h.raises hshows
  · exact h.raises hshows

/-- The key that `async_step_reconfigure` tries is what `reconfigureSubmits` says: the entered one,
or the entry's if none was entered. -/
theorem reconfigureKey_some {data : EntryData} {input : UserInput} {key : PyStr}
    (h : reconfigureKey data input = some (some key)) :
    (reconfigureSubmits input).localKey.or data.localKey = some key := by
  unfold reconfigureKey at h
  unfold reconfigureSubmits
  split at h
  · rename_i hempty
    obtain ⟨stored, hstored, hsame⟩ := Option.map_eq_some_iff.mp h
    obtain rfl := Option.some.inj hsame
    simp [hempty, hstored]
  · rename_i hentered
    obtain ⟨rfl, _⟩ := cleanLocalKey_some (Option.some.inj h)
    have hstrip : strip input.enteredKey = input.enteredKey := strip_strip _
    simp [hentered, hstrip]

/-- The reconfigure step tries what was entered, and the key of the entry where none was.  Here too
the local variables say what was submitted, whatever happens to the entry meanwhile. -/
theorem asyncStepReconfigure_good (hr : r.Sound) (h : flow.Backed past i r)
    (hshows : Shows flow.shown flow.search) {input : Option UserInput}
    (hnow : SubmittedNow past i r input) : (asyncStepReconfigure r flow input).Good past i := by
  unfold asyncStepReconfigure
  split
  · rename_i entryId _
    split
    · exact h.raises hshows
    · rename_i entry hentry
      split
      · exact h.ends (Shows.of_next (by simp [FlowResult.next]))
      · split
        · exact reconfigureForm_good h hshows _ _ _
        · rename_i input
          split
          · exact reconfigureForm_good h hshows _ _ _
          · rename_i key host deviceId hkey hhost hdevice
            split
            · exact reconfigureForm_good h hshows _ _ _
            · apply checks_good h hshows
              intro config hid hhost' hlocal hversion
              have hid' : entry.data.deviceId = some config.deviceId := by rw [hid, hdevice]
              refine .reconfigure (hr.has hentry hid') (hnow.submitted hentry ?_)
              exact
                { deviceId := hid'
                  localKey := by rw [hlocal]; exact reconfigureKey_some hkey
                  host := by simp [reconfigureSubmits, hhost, hhost']
                  version := by simp [reconfigureSubmits, hversion] }
          · exact h.raises hshows
  · exact h.raises hshows

/-- The end of the two steps that add a checked purifier.  What they create connected with exactly
these settings, and announced a product key of `PRODUCT_KEYS` or looks like a purifier; otherwise
they show their form again. -/
theorem addChecked_good (hr : r.Sound) (h : flow.Backed past i r)
    (hshows : Shows flow.shown flow.search) {config : DeviceConfig} {productKey : Option PyStr}
    {form : List (PyStr × PyStr) → FlowResult} {result : ConnectionResult}
    (hform : ∀ errors, (form errors).next ≠ some .purifierSearchFound ∧
      ∀ data, form errors ≠ .createEntry data)
    (hkey : config.localKey.length = 16)
    (hconnected : ∀ version dps, result = .works version dps →
      Connected past i config.deviceId config.localKey config.host dps)
    (hheard : ∀ key, productKey = some key → ∃ device, Announced past i device ∧
      device.deviceId = config.deviceId ∧ device.productKey = some key) :
    (addChecked r flow config productKey form result).Good past i := by
  unfold addChecked
  split
  · exact h.shows hshows (hform _).1 (hform _).2
  · rename_i version dps
    split
    · exact h.raises hshows
    · exact h.shows hshows (hform _).1 (hform _).2
    · rename_i hpodium
      apply asyncCreatePurifier_good hr h hkey (hconnected version dps rfl)
      refine (isPodium_true hpodium).imp_left ?_
      intro hparts
      obtain ⟨key, hmem, hproduct⟩ := hparts
      obtain ⟨device, hdevice, hid, hproduct'⟩ := hheard key hproduct
      exact ⟨device, hdevice, hid, key, hmem, hproduct'⟩

/-- A step with what is to hold of it and of the entries after it. -/
structure Turn.Fine (past : System → Event → Prop) (i : ℕ) (r : Registry) (t : Turn) : Prop where
  good : t.Good past i
  sound : t.registry.Sound
  keeps : r.Keeps t.registry

/-- A good turn that leaves the entries alone is fine. -/
theorem Turn.Good.fine {t : Turn} (h : t.Good past i) (hr : r.Sound) (hsame : t.registry = r) :
    t.Fine past i r :=
  ⟨h, by rw [hsame]; exact hr, by rw [hsame]; exact Registry.Keeps.refl r⟩

/-- `async_update_reload_and_abort` with changes that keep the device ID keeps the entries
sound. -/
theorem asyncUpdateReloadAndAbort_fine (hr : r.Sound) (h : flow.Backed past i r)
    (hshows : Shows flow.shown flow.search) (entryId : ℕ) {changes : EntryData → EntryData}
    (hchanges : ∀ data, (changes data).deviceId = data.deviceId) (reason : PyStr) :
    (asyncUpdateReloadAndAbort r flow entryId changes reason).Fine past i r := by
  unfold asyncUpdateReloadAndAbort
  split
  · exact (h.raises hshows).fine hr rfl
  · obtain ⟨hsound, hkeeps⟩ := hr.update entryId hchanges
    have h' := h.mono (fun _ _ hevent => hevent) hkeeps
    exact ⟨h'.ends (Shows.of_next (by simp [FlowResult.next])), hsound, hkeeps⟩

/-! ### Which steps change entries -/

@[simp] theorem ends_registry (r : Registry) (flow : Flow) (result : FlowResult) :
    (flow.ends r result).registry = r := rfl

/-- Awaiting a check does not touch the entries. -/
@[simp] theorem checks_registry (r : Registry) (flow : Flow)
    (deviceId host localKey version : PyStr) (hint : Option PyStr) (purpose : Check) :
    (flow.checks r deviceId host localKey version hint purpose).registry = r := by
  unfold Flow.checks
  split <;> rfl

/-- `_async_create_purifier` leaves it to the flow manager to add the entry. -/
@[simp] theorem asyncCreatePurifier_registry (r : Registry) (flow : Flow)
    (config : DeviceConfig) (version productKey : Option PyStr) :
    (asyncCreatePurifier r flow config version productKey).registry = r := by
  unfold asyncCreatePurifier
  dsimp only
  split <;> rfl

/-- `async_step_purifier_key` does not touch the entries. -/
@[simp] theorem asyncStepPurifierKey_registry (r : Registry) (flow : Flow)
    (input : Option UserInput) : (asyncStepPurifierKey r flow input).registry = r := by
  unfold asyncStepPurifierKey
  split
  · rfl
  · rfl
  · split <;> simp

/-- Neither does `async_step_purifier_search`. -/
@[simp] theorem asyncStepPurifierSearch_registry (r : Registry) (flow : Flow) (early : Bool) :
    (asyncStepPurifierSearch r flow early).registry = r := by
  unfold asyncStepPurifierSearch
  split
  · rfl
  · dsimp only
    split
    · rfl
    · split <;> rfl
    · rfl

/-- Nor does `_async_purifier_manual`, before its first await or after it. -/
@[simp] theorem asyncPurifierManual_registry (step : Step) (r : Registry) (flow : Flow)
    (input : Option UserInput) : (asyncPurifierManual step r flow input).registry = r := by
  unfold asyncPurifierManual manualSubmitted
  dsimp only
  split
  · rfl
  · split
    · rfl
    · split
      · rfl
      · split
        · rfl
        · split
          · rfl
          · split
            · rfl
            · split
              · split <;> simp
              · simp

@[simp] theorem manualScanned_registry (step : Step) (deviceId localKey version : PyStr)
    (input : UserInput) (r : Registry) (flow : Flow) (found : Option (List DiscoveredDevice))
    (early : Bool) :
    (manualScanned step deviceId localKey version input r flow found early).registry = r := by
  unfold manualScanned
  split
  · rfl
  · split <;> simp

@[simp] theorem reauthForm_registry (r : Registry) (flow : Flow) (data : EntryData)
    (errors : List (PyStr × PyStr)) : (reauthForm r flow data errors).registry = r := by
  unfold reauthForm
  split <;> rfl

@[simp] theorem reconfigureForm_registry (r : Registry) (flow : Flow) (data : EntryData)
    (input : Option UserInput) (errors : List (PyStr × PyStr)) :
    (reconfigureForm r flow data input errors).registry = r := by
  unfold reconfigureForm
  split <;> rfl

/-- `async_step_reauth_confirm` writes nothing before its check. -/
@[simp] theorem asyncStepReauthConfirm_registry (r : Registry) (flow : Flow)
    (input : Option UserInput) : (asyncStepReauthConfirm r flow input).registry = r := by
  unfold asyncStepReauthConfirm
  split
  · split
    · rfl
    · simp
    · split
      · rfl
      · simp
      · split <;> simp
  · rfl

/-- `async_step_reconfigure` writes nothing before its check. -/
@[simp] theorem asyncStepReconfigure_registry (r : Registry) (flow : Flow)
    (input : Option UserInput) : (asyncStepReconfigure r flow input).registry = r := by
  unfold asyncStepReconfigure
  split
  · split
    · rfl
    · split
      · rfl
      · split
        · simp
        · split
          · simp
          · split <;> simp
          · rfl
  · rfl

/-- The steps that add a purifier write no entry themselves. -/
@[simp] theorem addChecked_registry (r : Registry) (flow : Flow) (config : DeviceConfig)
    (productKey : Option PyStr) (form : List (PyStr × PyStr) → FlowResult)
    (result : ConnectionResult) :
    (addChecked r flow config productKey form result).registry = r := by
  unfold addChecked
  split
  · rfl
  · split <;> simp

/-- A flow that has just been created goes back to nothing. -/
theorem Flow.Backed.new (past : System → Event → Prop) (i : ℕ) (r : Registry) (source : Source)
    (uniqueId : Option PyStr) : ({ source, uniqueId } : Flow).Backed past i r :=
  ⟨by simp, by simp, by simp, by simp, by simp⟩

/-- An announcement of a device with an entry brings its address; that of another one starts a
flow for it. -/
theorem asyncStepIntegrationDiscovery_fine (hr : r.Sound) {device : DiscoveredDevice}
    (hheard : Announced past i device) :
    (asyncStepIntegrationDiscovery r device).Fine past i r := by
  unfold asyncStepIntegrationDiscovery
  dsimp only
  split
  · rename_i entry _
    have hchange : ∀ data : EntryData,
        { data with host := some device.host }.deviceId = data.deviceId := fun _ => rfl
    obtain ⟨hsound, hkeeps⟩ := hr.update entry.entryId hchange
    refine ⟨(Flow.Backed.new _ _ _ _ _).ends ?_, hsound, hkeeps⟩
    exact Shows.of_next (by simp [alreadyConfigured, FlowResult.next])
  · let flow : Flow :=
      { source := .integrationDiscovery, uniqueId := some device.deviceId
        purifier := some device }
    have hnew : flow.Backed past i r := by
      refine ⟨by simp [flow], by simp [flow], ?_, by simp [flow], by simp [flow]⟩
      intro d hd
      obtain rfl := Option.some.inj hd
      exact hheard
    exact (asyncStepPurifierKey_good hnew (Shows.of_none _) none).fine hr (by simp)

/-- **No step changes an entry before its await**: the steps that the flow manager calls leave
the entries alone. -/
theorem runStep_registry (r : Registry) (flow : Flow) (input : Option UserInput) (early : Bool)
    (step : Step) : (runStep r flow input early step).registry = r := by
  cases step with
  | purifier =>
      simp only [runStep, asyncStepPurifier]
      split <;> rfl
  | purifierPick =>
      simp only [runStep, asyncStepPurifierPick]
      split
      · rfl
      · split
        · simp
        · split <;> simp
  | purifierSearchFound =>
      simp only [runStep, asyncStepPurifierSearchFound]
      split
      · rfl
      · split
        · rfl
        · split <;> simp
  | _ => simp [runStep]

/-! ### A step before and after its await -/

/-- The flow manager calls a step, and every step is good: up to its await it leaves the entries
alone, and what it shows, keeps or awaits goes back to something that happened in its flow. -/
theorem runStep_good (hr : r.Sound) (h : flow.Backed past i r)
    (hshows : Shows flow.shown flow.search) {input : Option UserInput}
    (hnow : SubmittedNow past i r input) (early : Bool) {step : Step}
    (hnext : flow.shown.next = some step) : (runStep r flow input early step).Good past i := by
  cases step with
  | user => exact h.ends (Shows.of_next (by simp [FlowResult.next]))
  | purifier => exact asyncStepPurifier_good h early
  | purifierPick => exact asyncStepPurifierPick_good h hshows input
  | purifierKey => exact asyncStepPurifierKey_good h hshows input
  | purifierNotFound => exact asyncPurifierManual_good h (by simp) input
  | purifierManual => exact asyncPurifierManual_good h (by simp) input
  | purifierSearch =>
      exact asyncStepPurifierSearch_good h early fun _ _ _ _ => by rw [hnext]; simp
  | purifierSearchFound => exact asyncStepPurifierSearchFound_good hr h (hshows hnext)
  | reauthConfirm => exact asyncStepReauthConfirm_good hr h hshows hnow
  | reconfigure => exact asyncStepReconfigure_good hr h hshows hnow

/-- A step goes on after its check.  The check names what it was made for, and what it was made
with was backed when it began, which is enough for each of the four ways to go on. -/
theorem checked_fine (hr : r.Sound) (h : flow.Backed past i r)
    (hshows : Shows flow.shown flow.search) {config : DeviceConfig} {hint : Option PyStr}
    {purpose : Check} (hbacked : (Await.check config hint purpose).Backed past i r)
    {result : ConnectionResult}
    (hconnected : ∀ version dps, result = .works version dps →
      Connected past i config.deviceId config.localKey config.host dps) :
    (checked r flow config result purpose).Fine past i r := by
  cases hbacked with
  | @key _ _ device hkey hid hheard =>
      simp only [checked]
      refine Turn.Good.fine ?_ hr (by simp)
      refine addChecked_good hr h hshows (fun errors => ?_) hkey hconnected ?_
      · exact ⟨by simp [FlowResult.next], by simp⟩
      · exact fun product hproduct => ⟨device, hheard, hid, hproduct⟩
  | manual hstep hkey hheard =>
      simp only [checked]
      refine Turn.Good.fine ?_ hr (by simp)
      refine addChecked_good hr h hshows (fun errors => ?_) hkey hconnected hheard
      exact ⟨by simpa [FlowResult.next] using hstep, by simp⟩
  | @reauth _ _ entryId =>
      simp only [checked]
      cases result with
      | works version dps =>
          refine asyncUpdateReloadAndAbort_fine hr h hshows entryId ?_ _
          exact fun _ => rfl
      | failed error =>
          dsimp only
          split
          · exact (h.raises hshows).fine hr rfl
          · exact (reauthForm_good h hshows _ _).fine hr (by simp)
  | @reconfigure _ _ entryId input =>
      simp only [checked]
      cases result with
      | works version dps =>
          refine asyncUpdateReloadAndAbort_fine hr h hshows entryId ?_ _
          exact fun _ => rfl
      | failed error =>
          dsimp only
          split
          · exact (h.raises hshows).fine hr rfl
          · exact (reconfigureForm_good h hshows _ _ _).fine hr (by simp)

/-- A check that says the device works has connected to it. -/
theorem asyncCheckConnection_works {ending : Ending} {version version' : Option PyStr}
    {closed : Bool} {dps : PyDict}
    (h : asyncCheckConnection ending version closed = some (.works version' dps)) :
    version' = version ∧ closed = true ∧
      ∃ reported, ending = .returned reported ∧ reported.getD ∅ = dps := by
  unfold asyncCheckConnection at h
  split at h
  · exact absurd h (by simp)
  · rename_i hclosed
    split at h
    · rename_i reported
      obtain ⟨rfl, rfl⟩ := ConnectionResult.works.inj (Option.some.inj h)
      exact ⟨rfl, by simpa using hclosed, reported, rfl, rfl⟩
    all_goals exact absurd h (by simp)

/-- A step that has gone on after its await is no longer one that awaits; the others are as they
were. -/
theorem Flow.Backed.erase (h : flow.Backed past i r) (k : ℕ) :
    { flow with calls := flow.calls.eraseIdx k }.Backed past i r :=
  ⟨h.task, h.devices, h.purifier, h.search, fun a ha => h.calls a (List.mem_of_mem_eraseIdx ha)⟩

/-- The steps that go on after a check change entries only where the device accepted the
settings. -/
theorem checked_writes (r : Registry) (flow : Flow) (config : DeviceConfig)
    (result : ConnectionResult) (purpose : Check) :
    (checked r flow config result purpose).registry = r ∨
    ∃ version dps reason, result = .works version dps ∧
      (checked r flow config result purpose).outcome = .result (.abort reason) ∧
      ((∃ entryId, purpose = .reauth entryId ∧
        (checked r flow config result purpose).registry = r.update entryId fun data =>
          { data with localKey := some config.localKey, detectedVersion := version }) ∨
      ∃ entryId input, purpose = .reconfigure entryId input ∧
        (checked r flow config result purpose).registry = r.update entryId fun data =>
          { data with
            localKey := some config.localKey
            host := some config.host
            protocolVersion := some config.protocolVersion
            detectedVersion := version }) := by
  cases purpose with
  | key device => exact Or.inl (by simp [checked])
  | manual step productKey input => exact Or.inl (by simp [checked])
  | reauth entryId =>
      simp only [checked]
      cases result with
      | works version dps =>
          simp only [asyncUpdateReloadAndAbort]
          split
          · exact Or.inl rfl
          · exact Or.inr ⟨version, dps, _, rfl, rfl, Or.inl ⟨entryId, rfl, rfl⟩⟩
      | failed error =>
          apply Or.inl
          dsimp only
          split <;> simp
  | reconfigure entryId input =>
      simp only [checked]
      cases result with
      | works version dps =>
          simp only [asyncUpdateReloadAndAbort]
          split
          · exact Or.inl rfl
          · exact Or.inr ⟨version, dps, _, rfl, rfl, Or.inr ⟨entryId, input, rfl, rfl⟩⟩
      | failed error =>
          apply Or.inl
          dsimp only
          split <;> simp

/-- An announcement changes the address of the entry that has the device. -/
theorem asyncStepIntegrationDiscovery_writes (r : Registry) (device : DiscoveredDevice) :
    (asyncStepIntegrationDiscovery r device).registry = r ∨
    ∃ entry, r.forUniqueId device.deviceId = some entry ∧
      (asyncStepIntegrationDiscovery r device).registry =
        r.update entry.entryId (fun data => { data with host := some device.host }) ∧
      (asyncStepIntegrationDiscovery r device).outcome = .result alreadyConfigured := by
  unfold asyncStepIntegrationDiscovery
  dsimp only
  split
  · rename_i entry hentry
    exact Or.inr ⟨entry, hentry, rfl, rfl⟩
  · exact Or.inl (by simp)

end ConfigFlow
