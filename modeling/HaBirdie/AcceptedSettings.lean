import HaBirdie.ConfigFlowSteps
import HaBirdie.StepRuns

/-!
# The config flow stores what a device accepted

The flow manager runs any number of flows, whose steps interleave at their awaits, while entries
come and go.  All of them together go back to what happened (`System.Backed`), so the last step of
a flow, which creates or rewrites an entry, reads off that a device accepted what it stores.

`stores_accepted` says so for every run.  In one place the reconfigure step does not keep what the
entry has: a protocol version that is not submitted is automatic (`omitted_version_not_kept`).
-/

namespace ConfigFlow

open Python StepRuns
open Lan (DeviceConfig Ending protocolAuto)

variable {past past' : System → Event → Prop} {i : ℕ} {r : Registry} {flow : Flow}

/-! ## Runs -/

/-- The invariant of the config flow, relative to what happened. -/
structure System.Backed (past : System → Event → Prop) (s : System) : Prop where
  registry : s.registry.Sound
  flows : ∀ (i : ℕ) (flow : Flow), s.flows[i]? = some flow →
    flow.Backed past i s.registry ∧ Shows flow.shown flow.search

/-- What flows go back to does not vanish. -/
theorem System.Backed.mono {s : System} (hpast : ∀ s event, past s event → past' s event)
    (hs : s.Backed past) : s.Backed past' := by
  refine ⟨hs.registry, fun i flow hi => ?_⟩
  obtain ⟨hflow, hshows⟩ := hs.flows i flow hi
  exact ⟨hflow.mono hpast (Registry.Keeps.refl _), hshows⟩

/-- One flow changes, and the entries.  The flow is backed over the new entries, and the others are
because their entries keep their IDs. -/
theorem put_backed {s : System}
    (hothers : ∀ (j : ℕ) (flow : Flow), j ≠ i → s.flows[j]? = some flow →
      flow.Backed past j s.registry ∧ Shows flow.shown flow.search)
    (hsound : r.Sound) (hkeeps : s.registry.Keeps r) (hflow : flow.Backed past i r)
    (hshows : Shows flow.shown flow.search) :
    System.Backed past { registry := r, flows := s.flows.set i flow } := by
  refine ⟨hsound, fun j flow' hj => ?_⟩
  by_cases hij : i = j
  · subst hij
    rw [List.getElem?_set] at hj
    split at hj
    · split at hj
      · obtain rfl := Option.some.inj hj
        exact ⟨hflow, hshows⟩
      · exact absurd hj (by simp)
    · exact absurd rfl ‹_›
  · rw [List.getElem?_set_ne hij] at hj
    obtain ⟨hbacked, hshown⟩ := hothers j flow' (Ne.symm hij) hj
    exact ⟨hbacked.mono (fun _ _ hevent => hevent) hkeeps, hshown⟩

/-- The flow manager takes a step that is fine.  Whichever outcome it has, the flow goes back to
what happened, and a new entry keeps the unique IDs different. -/
theorem finish_backed {s : System} {t : Turn} (ht : t.Fine past i s.registry)
    (hothers : ∀ (j : ℕ) (flow : Flow), j ≠ i → s.flows[j]? = some flow →
      flow.Backed past j s.registry ∧ Shows flow.shown flow.search) :
    (s.finish i t).Backed past := by
  have hflow := ht.good.flow
  have hgood := ht.good.outcome
  have hshown : ∀ shown : FlowResult, Shows shown t.flow.search → ∀ removed,
      System.Backed past
        { registry := t.registry, flows := s.flows.set i { t.flow with shown, removed } } :=
    fun shown hshows removed => put_backed hothers ht.sound ht.keeps
      ⟨hflow.task, hflow.devices, hflow.purifier, hflow.search, hflow.calls⟩ hshows
  unfold System.finish
  dsimp only
  split
  · rename_i a houtcome
    rw [houtcome] at hgood
    refine put_backed hothers ht.sound ht.keeps
      ⟨hflow.task, hflow.devices, hflow.purifier, hflow.search, ?_⟩ hgood.2
    intro b hb
    rcases List.mem_append.mp hb with hb | hb
    · exact hflow.calls b hb
    · obtain rfl := List.mem_singleton.mp hb
      exact hgood.1
  · rename_i houtcome
    rw [houtcome] at hgood
    exact put_backed hothers ht.sound ht.keeps hflow hgood
  · exact hshown _ (Shows.of_next (by simp [FlowResult.next])) true
  · rename_i data houtcome
    rw [houtcome] at hgood
    obtain ⟨_, huid, _⟩ := hgood
    have hadd : (t.registry.add t.flow.uniqueId false data).Sound ∧
        t.registry.Keeps (t.registry.add t.flow.uniqueId false data) :=
      ht.sound.add fun id hid => ⟨huid.trans hid, rfl⟩
    have hcreated : Shows (.createEntry data) t.flow.search :=
      Shows.of_next (by simp [FlowResult.next])
    split
    · exact hshown _ hcreated true
    · have hflow' := hflow.mono (fun _ _ hevent => hevent) hadd.2
      exact put_backed hothers hadd.1 (ht.keeps.trans hadd.2)
        ⟨hflow'.task, hflow'.devices, hflow'.purifier, hflow'.search, hflow'.calls⟩ hcreated
  · rename_i shown hraised habort hcreate houtcome
    rw [houtcome] at hgood
    refine hshown shown ?_ t.flow.removed
    cases shown with
    | raised => exact absurd rfl hraised
    | createEntry data => exact absurd rfl (hcreate data)
    | _ => exact hgood

/-- While one flow takes a step, the others are backed. -/
theorem System.Backed.others {s : System} (hs : s.Backed past) :
    ∀ (j : ℕ) (flow : Flow), j ≠ i → s.flows[j]? = some flow →
      flow.Backed past j s.registry ∧ Shows flow.shown flow.search :=
  fun j flow _ => hs.flows j flow

/-- Only entries change. -/
theorem System.Backed.entries {s : System} (hs : s.Backed past)
    (hr : r.Sound ∧ s.registry.Keeps r) : System.Backed past { s with registry := r } := by
  refine ⟨hr.1, fun i flow hi => ?_⟩
  obtain ⟨hflow, hshows⟩ := hs.flows i flow hi
  exact ⟨hflow.mono (fun _ _ hevent => hevent) hr.2, hshows⟩

/-! ## What is created and what is rewritten -/

/-- The flow that an event starts or goes on with. -/
def Event.inFlow (s : System) : Event → Option ℕ
  | .startUser | .discovered _ | .startReauth _ | .startReconfigure _ => some s.flows.length
  | .configure i _ _ | .lanScanned i _ | .searched i _ | .scanned i _ _ _ | .checked i _ _ _ _
  | .flowRemoved i => some i
  | .entryAdded _ _ | .entryRemoved _ | .hostStored _ _ | .versionStored _ _ => none

/-- The events that change the data of the entry `e`, with the data after them: an announcement
and the loaded purifier store what they know, and the two steps that change settings rewrite
what the device accepted. -/
inductive Rewrites (past : System → Event → Prop) (s : System) (e : Entry) :
    Event → EntryData → Prop
  | announced {device : DiscoveredDevice} (hid : e.uniqueId = some device.deviceId) :
      Rewrites past s e (.discovered device) { e.data with host := some device.host }
  | hostStored {host : PyStr} :
      Rewrites past s e (.hostStored e.entryId host) { e.data with host := some host }
  | versionStored {version : PyStr} :
      Rewrites past s e (.versionStored e.entryId version)
        { e.data with detectedVersion := some version }
  | reauth {i k : ℕ} {flow : Flow} {config : DeviceConfig} {hint version : Option PyStr}
      {reported : Option PyDict} (hflow : s.flows[i]? = some flow)
      (hcall : flow.calls[k]? = some (.check config hint (.reauth e.entryId)))
      (hid : e.data.deviceId = some config.deviceId)
      (hsubmitted : Submitted past i e.entryId reauthSubmits config) :
      Rewrites past s e (.checked i k (.returned reported) version true)
        { e.data with localKey := some config.localKey, detectedVersion := version }
  | reconfigure {i k : ℕ} {flow : Flow} {config : DeviceConfig} {hint version : Option PyStr}
      {reported : Option PyDict} {input : UserInput} (hflow : s.flows[i]? = some flow)
      (hcall : flow.calls[k]? = some (.check config hint (.reconfigure e.entryId input)))
      (hid : e.data.deviceId = some config.deviceId)
      (hsubmitted : Submitted past i e.entryId reconfigureSubmits config) :
      Rewrites past s e (.checked i k (.returned reported) version true)
        { e.data with
          localKey := some config.localKey
          host := some config.host
          protocolVersion := some config.protocolVersion
          detectedVersion := version }

/-- The flow manager adds only what a step creates, under a fresh entry ID and with the unique ID
of the flow. -/
theorem mem_finish {s : System} {t : Turn} {e : Entry}
    (h : e ∈ (s.finish i t).registry.entries) :
    e ∈ t.registry.entries ∨ ∃ data, t.outcome = .result (.createEntry data) ∧
      e = ⟨t.registry.nextId, t.flow.uniqueId, false, data⟩ := by
  unfold System.finish at h
  dsimp only at h
  split at h
  · exact Or.inl h
  · exact Or.inl h
  · exact Or.inl h
  · rename_i data houtcome
    split at h
    · exact Or.inl h
    · rcases Registry.mem_add h with rfl | ⟨h, _⟩
      · exact Or.inr ⟨data, houtcome, rfl⟩
      · exact Or.inl h
  · exact Or.inl h

/-- Each entry after an event is one from before it, with the same data or with data that the
event may write, or a new one that is no purifier's. -/
def Registry.From (past : System → Event → Prop) (s : System) (event : Event) (r : Registry) :
    Prop :=
  ∀ e' ∈ r.entries,
    (∃ e ∈ s.registry.entries, e.entryId = e'.entryId ∧
      (e'.data = e.data ∨ Rewrites past s e event e'.data)) ∨
    e'.data.isPurifier = false ∧ e'.entryId = s.registry.nextId

/-- Entries that stay as they are come from themselves. -/
theorem Registry.From.same (past : System → Event → Prop) (s : System) (event : Event) :
    s.registry.From past s event := fun e he => Or.inl ⟨e, he, rfl, Or.inl rfl⟩

/-- An update of one entry is one of the rewrites that the event may do. -/
theorem Registry.From.update {s : System} {event : Event} {entryId : ℕ}
    {change : EntryData → EntryData}
    (h : ∀ e ∈ s.registry.entries, e.entryId = entryId → Rewrites past s e event (change e.data)) :
    (s.registry.update entryId change).From past s event := by
  intro e' he'
  obtain ⟨e, he, rfl⟩ := mem_update he'
  refine Or.inl ⟨e, he, ?_, ?_⟩
  · split <;> rfl
  · split
    · rename_i hid
      exact Or.inr (h e he hid)
    · exact Or.inl rfl

/-- What an event comes to: a step that the flow manager finishes, a change within a flow, or
one of the entries from outside. -/
inductive Move (past : System → Event → Prop) (s : System) (event : Event) : System → Prop
  | finishes {i : ℕ} {t : Turn} {flows : List Flow} (hin : event.inFlow s = some i)
      (ht : t.Fine (since past s event) i s.registry) (hfrom : t.registry.From past s event)
      (hcreates : ∀ data, t.outcome = .result (.createEntry data) → t.registry = s.registry)
      (hothers : ∀ (j : ℕ) (flow : Flow), j ≠ i → flows[j]? = some flow →
        flow.Backed (since past s event) j s.registry ∧ Shows flow.shown flow.search) :
      Move past s event (System.finish i t { registry := s.registry, flows })
  | waits {flows : List Flow}
      (hbacked : System.Backed (since past s event) { registry := s.registry, flows }) :
      Move past s event { registry := s.registry, flows }
  | outside {r : Registry} (hsound : r.Sound ∧ s.registry.Keeps r)
      (hfrom : r.From past s event) : Move past s event { s with registry := r }

/-- A step that leaves the entries alone. -/
theorem Move.of_good {s : System} {event : Event} {t : Turn} (hs : s.Backed (since past s event))
    (hin : event.inFlow s = some i) (ht : t.Good (since past s event) i)
    (hsame : t.registry = s.registry) : Move past s event (s.finish i t) :=
  .finishes hin (ht.fine hs.registry hsame) (by rw [hsame]; exact Registry.From.same past s event)
    (fun _ _ => hsame) hs.others

/-- The first step of a new flow. -/
theorem Move.of_start {s : System} {event : Event} {t : Turn}
    (hs : s.Backed (since past s event)) (hin : event.inFlow s = some s.flows.length)
    (ht : t.Fine (since past s event) s.flows.length s.registry)
    (hfrom : t.registry.From past s event)
    (hcreates : ∀ data, t.outcome = .result (.createEntry data) → t.registry = s.registry) :
    Move past s event (s.starts t) := by
  refine .finishes hin ht hfrom hcreates fun j flow hj hflow => hs.flows j flow ?_
  have hlt : j < (s.flows ++ [t.flow]).length := (List.getElem?_eq_some_iff.mp hflow).1
  rw [List.length_append, List.length_singleton] at hlt
  rwa [List.getElem?_append_left (by omega)] at hflow

/-- What a check that succeeds means for the flow it was made in. -/
theorem checked_connects {s : System} {k : ℕ} {ending : Ending} {version : Option PyStr}
    {closed : Bool} {config : DeviceConfig} {hint : Option PyStr} {purpose : Check}
    (hflow : s.flows[i]? = some flow)
    (hcall : flow.calls[k]? = some (.check config hint purpose)) {result : ConnectionResult}
    (hresult : asyncCheckConnection ending version closed = some result) :
    ∀ version' dps, result = .works version' dps →
      Connected (since past s (.checked i k ending version closed)) i config.deviceId
        config.localKey config.host dps := by
  intro version' dps heq
  obtain rfl := heq
  obtain ⟨rfl, rfl, reported, rfl, hdps⟩ := asyncCheckConnection_works hresult
  exact ⟨s, _, Or.inr ⟨rfl, rfl⟩, .checked hflow hcall rfl rfl rfl hdps⟩

/-- What a check that goes on writes, it had submitted and the device accepts it.  A check that
adds a purifier writes no entry itself. -/
theorem checked_writes_from {s : System} {k : ℕ} {ending : Ending} {version : Option PyStr}
    {closed : Bool} {config : DeviceConfig} {hint : Option PyStr} {purpose : Check}
    (hflow : s.flows[i]? = some flow)
    (hcall : flow.calls[k]? = some (.check config hint purpose))
    (hbacked : (Await.check config hint purpose).Backed past i s.registry)
    {result : ConnectionResult}
    (hresult : asyncCheckConnection ending version closed = some result) (flow' : Flow) :
    (checked s.registry flow' config result purpose).registry.From past s
        (.checked i k ending version closed) ∧
      ∀ data, (checked s.registry flow' config result purpose).outcome =
          .result (.createEntry data) →
        (checked s.registry flow' config result purpose).registry = s.registry := by
  rcases checked_writes s.registry flow' config result purpose with
    hsame | ⟨version', dps, reason, rfl, habort, hwrites⟩
  · rw [hsame]
    exact ⟨Registry.From.same _ _ _, fun _ _ => rfl⟩
  · refine ⟨?_, fun data hcreate => absurd (habort.symm.trans hcreate) (by simp)⟩
    obtain ⟨rfl, rfl, reported, rfl, _⟩ := asyncCheckConnection_works hresult
    rcases hwrites with ⟨entryId, rfl, hupdate⟩ | ⟨entryId, input, rfl, hupdate⟩
    · rw [hupdate]
      apply Registry.From.update
      intro e he hid
      subst hid
      cases hbacked with
      | reauth hhas hsubmitted =>
          exact .reauth hflow hcall (hhas.2 e he rfl) hsubmitted
    · rw [hupdate]
      apply Registry.From.update
      intro e he hid
      subst hid
      cases hbacked with
      | reconfigure hhas hsubmitted =>
          exact .reconfigure hflow hcall (hhas.2 e he rfl) hsubmitted

/-- **What events come to.**  This is the one case distinction over all events; the two halves of
the result and the invariant itself are read off it. -/
theorem System.Backed.moves {s s' : System} {event : Event} (hold : s.Backed past)
    (h : s.step event = some s') : Move past s event s' := by
  have hs : s.Backed (since past s event) := hold.mono fun _ _ => Or.inl
  have hnow : since past s event s event := Or.inr ⟨rfl, rfl⟩
  have hr := hs.registry
  have hnone : ∀ i, SubmittedNow (since past s event) i s.registry none := fun i _ hnot =>
    absurd hnot (by simp)
  have hstart : ∀ {t : Turn}, event.inFlow s = some s.flows.length →
      t.Good (since past s event) s.flows.length → t.registry = s.registry →
      Move past s event (s.starts t) := fun hin ht hsame =>
    .of_start hs hin (ht.fine hr hsame) (by rw [hsame]; exact Registry.From.same past s event)
      fun _ _ => hsame
  cases event with
  | startUser =>
      obtain rfl := Option.some.inj h
      refine hstart rfl ?_ rfl
      exact (Flow.Backed.new _ _ _ _ _).ends (Shows.of_next (by simp [FlowResult.next]))
  | discovered device =>
      simp only [System.step] at h
      split at h
      · exact absurd h (by simp)
      · obtain rfl := Option.some.inj h
        have hheard : Announced (since past s (.discovered device)) s.flows.length device :=
          ⟨s, _, hnow, by simp [Event.hears]⟩
        refine .of_start hs rfl (asyncStepIntegrationDiscovery_fine hr hheard) ?_ ?_
        · rcases asyncStepIntegrationDiscovery_writes s.registry device with
            hsame | ⟨entry, hentry, hupdate, _⟩
          · rw [hsame]
            exact Registry.From.same _ _ _
          · rw [hupdate]
            apply Registry.From.update
            intro e he hid
            obtain rfl := hr.entryIds e he entry (List.mem_of_find?_eq_some hentry) hid
            exact .announced (by simpa using List.find?_some hentry)
        · intro data hcreate
          rcases asyncStepIntegrationDiscovery_writes s.registry device with
            hsame | ⟨_, _, _, habort⟩
          · exact hsame
          · exact absurd (habort.symm.trans hcreate) (by simp [alreadyConfigured])
  | startReauth entryId =>
      obtain rfl := Option.some.inj h
      refine hstart rfl ?_ (by simp)
      exact asyncStepReauthConfirm_good hr (Flow.Backed.new _ _ _ _ _) (Shows.of_none _) (hnone _)
  | startReconfigure entryId =>
      obtain rfl := Option.some.inj h
      refine hstart rfl ?_ (by simp)
      exact asyncStepReconfigure_good hr (Flow.Backed.new _ _ _ _ _) (Shows.of_none _) (hnone _)
  | configure i input early =>
      obtain ⟨flow, hflow, hrest⟩ := Option.bind_eq_some_iff.mp h
      obtain ⟨step, hnext, hfinish⟩ := Option.bind_eq_some_iff.mp hrest
      obtain rfl := Option.some.inj hfinish
      obtain ⟨hbacked, hshows⟩ := hs.flows i flow (Option.filter_eq_some_iff.mp hflow).1
      refine .of_good hs rfl (runStep_good hr hbacked hshows ?_ early hnext)
        (runStep_registry _ _ _ _ _)
      intro submitted heq
      obtain rfl := heq
      exact ⟨s, early, hnow, rfl⟩
  | lanScanned i found =>
      obtain ⟨flow, hflow, hrest⟩ := Option.bind_eq_some_iff.mp h
      obtain ⟨hbacked, hshows⟩ := hs.flows i flow hflow
      split at hrest
      · obtain rfl := Option.some.inj hrest
        refine .waits (put_backed hs.others hr (Registry.Keeps.refl _)
          ⟨?_, hbacked.devices, hbacked.purifier, hbacked.search, hbacked.calls⟩ hshows)
        intro devices hdone device hdevice
        obtain rfl : found.getD [] = devices := by simpa using hdone
        cases found with
        | none => exact absurd hdevice (by simp)
        | some found => exact ⟨s, _, hnow, by simpa [Event.hears] using hdevice⟩
      · exact absurd hrest (by simp)
  | searched i found =>
      obtain ⟨flow, hflow, hrest⟩ := Option.bind_eq_some_iff.mp h
      obtain ⟨search, hsearch, hrest⟩ := Option.bind_eq_some_iff.mp hrest
      obtain ⟨hbacked, hshows⟩ := hs.flows i flow hflow
      have hn := hbacked.search search hsearch
      split at hrest
      · obtain rfl := Option.some.inj hrest
        refine .waits (put_backed hs.others hr (Registry.Keeps.refl _)
          ⟨hbacked.task, hbacked.devices, hbacked.purifier, ?_, hbacked.calls⟩ ?_)
        · intro n hn'
          obtain rfl := Option.some.inj hn'
          refine ⟨hn.key, hn.step, fun f hdone => ?_, hn.found⟩
          obtain rfl : found = some f := by simpa using hdone
          exact ⟨s, _, hnow, .searched hflow hsearch rfl rfl rfl rfl⟩
        · intro hnext n hn'
          obtain rfl := Option.some.inj hn'
          exact hshows hnext search hsearch
      · exact absurd hrest (by simp)
  | scanned i k found early =>
      obtain ⟨flow, hflow, hrest⟩ := Option.bind_eq_some_iff.mp h
      obtain ⟨hbacked, hshows⟩ := hs.flows i flow hflow
      split at hrest
      · rename_i step deviceId localKey version input hcall
        obtain rfl := Option.some.inj hrest
        refine .of_good hs rfl ?_ (by simp)
        cases hbacked.calls _ (List.mem_of_getElem? hcall) with
        | scan hstep hkey =>
            refine manualScanned_good (hbacked.erase k) hshows hstep hkey input ?_ early
            intro devices heq device hdevice
            obtain rfl := heq
            exact ⟨s, _, hnow, by simpa [Event.hears] using hdevice⟩
      · exact absurd hrest (by simp)
  | checked i k ending version closed =>
      obtain ⟨flow, hflow, hrest⟩ := Option.bind_eq_some_iff.mp h
      obtain ⟨hbacked, hshows⟩ := hs.flows i flow hflow
      split at hrest
      · rename_i config hint purpose hcall
        split at hrest
        · obtain rfl := Option.some.inj hrest
          exact .of_good hs rfl ((hbacked.erase k).raises hshows) rfl
        · rename_i result hresult
          obtain rfl := Option.some.inj hrest
          have hawait := hbacked.calls _ (List.mem_of_getElem? hcall)
          have hfine := checked_fine hr (hbacked.erase k) hshows hawait
            (checked_connects hflow hcall hresult)
          obtain ⟨hbefore, _⟩ := hold.flows i flow hflow
          have hwrites := checked_writes_from hflow hcall
            (hbefore.calls _ (List.mem_of_getElem? hcall)) hresult
            { flow with calls := flow.calls.eraseIdx k }
          exact .finishes rfl hfine hwrites.1 hwrites.2 hs.others
      · exact absurd hrest (by simp)
  | flowRemoved i =>
      obtain ⟨flow, hflow, rfl⟩ := Option.map_eq_some_iff.mp h
      obtain ⟨hbacked, hshows⟩ := hs.flows i flow hflow
      exact .waits (put_backed hs.others hr (Registry.Keeps.refl _)
        ⟨hbacked.task, hbacked.devices, hbacked.purifier, hbacked.search, hbacked.calls⟩ hshows)
  | entryAdded uniqueId ignored =>
      obtain rfl := Option.some.inj h
      refine .outside (hr.add (by simp)) fun e' he' => ?_
      rcases Registry.mem_add he' with rfl | ⟨he', _⟩
      · exact Or.inr ⟨rfl, rfl⟩
      · exact Or.inl ⟨e', he', rfl, Or.inl rfl⟩
  | entryRemoved entryId =>
      obtain rfl := Option.some.inj h
      exact .outside (hr.remove entryId) fun e' he' =>
        Or.inl ⟨e', (List.mem_filter.mp he').1, rfl, Or.inl rfl⟩
  | hostStored entryId host =>
      obtain rfl := Option.some.inj h
      refine .outside (hr.update entryId ?_) (Registry.From.update ?_)
      · exact fun _ => rfl
      · intro e he heq
        obtain rfl := heq
        exact .hostStored
  | versionStored entryId version =>
      obtain rfl := Option.some.inj h
      refine .outside (hr.update entryId ?_) (Registry.From.update ?_)
      · exact fun _ => rfl
      · intro e he heq
        obtain rfl := heq
        exact .versionStored

/-- **Every event keeps the invariant.** -/
theorem System.Backed.step {s s' : System} {event : Event} (hs : s.Backed past)
    (h : s.step event = some s') : s'.Backed (since past s event) := by
  cases hs.moves h with
  | finishes _ ht _ _ hothers => exact finish_backed ht hothers
  | waits hbacked => exact hbacked
  | outside hsound => exact (hs.mono fun _ _ => Or.inl).entries hsound

/-- **What a step creates was accepted**: a new purifier entry is admissible.  It cannot come from
an update, which keeps entry IDs, nor from outside, where no purifiers are added. -/
theorem System.Backed.created {s s' : System} {event : Event} (hs : s.Backed past)
    (h : s.step event = some s') {e : Entry} (he : e ∈ s'.registry.entries)
    (hpurifier : e.data.isPurifier = true)
    (hnew : ∀ e₀ ∈ s.registry.entries, e₀.entryId ≠ e.entryId) :
    ∃ i, event.inFlow s = some i ∧ Admissible (since past s event) i s.registry e.data := by
  have hold : ∀ {r : Registry}, r.From past s event → e ∉ r.entries := by
    intro r hfrom hmem
    rcases hfrom e hmem with ⟨e₀, he₀, hid, _⟩ | ⟨hno, _⟩
    · exact hnew e₀ he₀ hid
    · exact absurd (hno.symm.trans hpurifier) (by simp)
  cases hs.moves h with
  | @finishes i t _ hin ht hfrom hcreates =>
      rcases mem_finish he with he | ⟨data, houtcome, rfl⟩
      · exact absurd he (hold hfrom)
      · have hgood := ht.good.outcome
        rw [houtcome, hcreates data houtcome] at hgood
        exact ⟨i, hin, hgood.1⟩
  | waits => exact absurd he (hold (Registry.From.same past s event))
  | outside _ hfrom => exact absurd he (hold hfrom)

/-- **What changes in an entry was accepted**, announced or stored by the loaded purifier.  An
entry that is added has a fresh ID, so it is none that was there before. -/
theorem System.Backed.rewritten {s s' : System} {event : Event} (hs : s.Backed past)
    (h : s.step event = some s') {e e' : Entry} (he : e ∈ s.registry.entries)
    (he' : e' ∈ s'.registry.entries) (hid : e'.entryId = e.entryId) (hdata : e'.data ≠ e.data) :
    Rewrites past s e event e'.data := by
  have hlt : e'.entryId < s.registry.nextId := by
    rw [hid]
    exact hs.registry.ids e he
  have hold : ∀ {r : Registry}, r.From past s event → e' ∈ r.entries →
      Rewrites past s e event e'.data := by
    intro r hfrom hmem
    rcases hfrom e' hmem with ⟨e₀, he₀, hid₀, hwrites⟩ | ⟨_, hnext⟩
    · obtain rfl := hs.registry.entryIds e₀ he₀ e he (hid₀.trans hid)
      exact hwrites.resolve_left hdata
    · omega
  cases hs.moves h with
  | @finishes i t _ hin ht hfrom hcreates =>
      rcases mem_finish he' with he' | ⟨data, _, rfl⟩
      · exact hold hfrom he'
      · exact absurd hlt (by simpa using ht.keeps.next)
  | waits => exact hold (Registry.From.same past s event) he'
  | outside _ hfrom => exact hold hfrom he'

/-- Nothing has happened yet. -/
theorem System.Backed.empty : System.Backed (fun _ _ => False) {} :=
  ⟨⟨by simp, by simp, by simp, by simp⟩, by simp⟩

/-- **The config flow stores what a device accepted.**  Over every run, whatever the users
enter, the devices announce and answer, and the order of all flows and their steps:

* a purifier entry is created only with a non-empty device ID that is free, a key of 16
  characters and a host for which, in this flow, a connection with exactly these succeeded; and
  the device announced a product key of `PRODUCT_KEYS` in this flow or reported DPs that look
  like a purifier;
* the steps that change settings change an entry only when a connection succeeds that was made
  with the entry's ID and the settings submitted, the others as they were in the entry at the
  submission, except that a version left out is automatic; they write what that connection
  used and the version it detected.  All other changes of an entry's data are the address
  and the version that announcements and the loaded purifier store. -/
theorem stores_accepted {as : List Event} {s s' : System} {event : Event}
    (hrun : Run System.step Anything {} as s) (h : s.step event = some s') :
    (∀ e ∈ s'.registry.entries, e.data.isPurifier = true →
      (∀ e₀ ∈ s.registry.entries, e₀.entryId ≠ e.entryId) →
        ∃ i, event.inFlow s = some i ∧
          Admissible (Happened System.step {} (as ++ [event])) i s.registry e.data) ∧
    ∀ e ∈ s.registry.entries, ∀ e' ∈ s'.registry.entries, e'.entryId = e.entryId →
      e'.data ≠ e.data → Rewrites (Happened System.step {} as) s e event e'.data := by
  have hs : s.Backed (Happened System.step {} as) :=
    hrun.history (fun past s => s.Backed past) (fun _ _ _ _ hs _ h => hs.step h)
      System.Backed.empty
  have hgrown : Happened System.step {} (as ++ [event]) =
      since (Happened System.step {} as) s event := by
    funext u b
    exact propext (happened_concat hrun.exec)
  rw [hgrown]
  exact ⟨fun e he hpurifier hnew => hs.created h he hpurifier hnew,
    fun e he e' he' hid hdata => hs.rewritten h he he' hid hdata⟩

/-- A purifier is entered with its address, and its connection is checked. -/
def manualEvents : List Event :=
  [.startUser, .configure 0 none false, .lanScanned 0 none, .configure 0 none false,
    .configure 0
      (some
        { deviceId := some (py "bf01")
          localKey := some (py " 0123456789abcdef")
          host := some (py "192.168.1.20")
          advanced := some (some (py "3.4")) }) false]

/-- The device accepts the connection. -/
def accepted (i : ℕ) : Event := .checked i 0 (.returned (some ∅)) (some (py "3.4")) true

/-- A purifier is entered with its address, and its connection is accepted. -/
theorem stores_accepted_entered :
    ∃ s s' : System, s.step (accepted 0) = some s' ∧
      (s'.registry.entries.map fun e => e.data.deviceId) = [some (py "bf01")] ∧
      ((∀ e ∈ s'.registry.entries, e.data.isPurifier = true →
        (∀ e₀ ∈ s.registry.entries, e₀.entryId ≠ e.entryId) →
          ∃ i, (accepted 0).inFlow s = some i ∧
            Admissible (Happened System.step {} (manualEvents ++ [accepted 0])) i s.registry
              e.data) ∧
      ∀ e ∈ s.registry.entries, ∀ e' ∈ s'.registry.entries, e'.entryId = e.entryId →
        e'.data ≠ e.data → Rewrites (Happened System.step {} manualEvents) s e (accepted 0)
          e'.data) := by
  let execution := exec System.step {} manualEvents
  obtain ⟨s, hs⟩ := Option.isSome_iff_exists.mp (show execution.isSome = true by decide +kernel)
  have hfacts : ∀ s ∈ execution, ∃ s' ∈ s.step (accepted 0),
      (s'.registry.entries.map fun e => e.data.deviceId) = [some (py "bf01")] := by
    decide +kernel
  obtain ⟨s', hstep, hentries⟩ := hfacts s hs
  exact ⟨s, s', hstep, hentries, stores_accepted (Run.of_exec hs) hstep⟩

/-! ## A version that is left out -/

/-- The settings that a step tries. -/
def Await.config : Await → Option DeviceConfig
  | .scan _ _ _ _ _ => none
  | .check config _ _ => some config

/-- The reconfigure form without a version. -/
def withoutVersion : UserInput := { host := some (py "10.0.0.8"), advanced := some none }

/-- The purifier with version 3.4 is added, and its settings are to be changed. -/
def reconfigureEvents : List Event := manualEvents ++ [accepted 0, .startReconfigure 0]

/-- The entry has version 3.4 when an address alone is submitted, but the connection is made
with the automatic version, and that is what the entry has afterwards. -/
theorem omitted_version_not_kept :
    ∃ (s s₁ s₂ : System) (e e₂ : Entry) (config : DeviceConfig),
      Run System.step Anything {} reconfigureEvents s ∧
      s.step (.configure 1 (some withoutVersion) false) = some s₁ ∧
      s₁.step (accepted 1) = some s₂ ∧
      e ∈ s.registry.entries ∧ e₂ ∈ s₂.registry.entries ∧ e₂.entryId = e.entryId ∧
      e.data.protocolVersion = some (py "3.4") ∧
      e₂.data.protocolVersion = some protocolAuto ∧
      (s₁.flows[1]?.bind fun flow => flow.calls[0]?.bind Await.config) = some config ∧
      ¬ Takes { reconfigureSubmits withoutVersion with protocolVersion := none } e.data
        config := by
  let execution := exec System.step {} reconfigureEvents
  obtain ⟨s, hs⟩ := Option.isSome_iff_exists.mp (show execution.isSome = true by decide +kernel)
  have hbefore : ∀ s ∈ execution,
      (s.registry.entries.map fun e => (e.entryId, e.data.protocolVersion)) =
        [(0, some (py "3.4"))] := by decide +kernel
  have hfacts : ∀ s ∈ execution,
      ∃ s₁ ∈ s.step (.configure 1 (some withoutVersion) false),
        (s₁.flows[1]?.bind fun flow => flow.calls[0]?.bind Await.config).map
            DeviceConfig.protocolVersion = some protocolAuto ∧
        ∃ s₂ ∈ s₁.step (accepted 1),
          (s₂.registry.entries.map fun e => (e.entryId, e.data.protocolVersion)) =
            [(0, some protocolAuto)] := by decide +kernel
  obtain ⟨s₁, hs₁, htried, s₂, hs₂, hafter⟩ := hfacts s hs
  obtain ⟨e, he, hfields⟩ := List.map_eq_singleton_iff.mp (hbefore s hs)
  obtain ⟨e₂, he₂, hfields₂⟩ := List.map_eq_singleton_iff.mp hafter
  obtain ⟨config, hconfig, hauto⟩ := Option.map_eq_some_iff.mp htried
  obtain ⟨hid, hversion⟩ := Prod.mk.inj hfields
  obtain ⟨hid₂, hversion₂⟩ := Prod.mk.inj hfields₂
  refine ⟨s, s₁, s₂, e, e₂, config, Run.of_exec hs, hs₁, hs₂, by simp [he], by simp [he₂],
    hid₂.trans hid.symm, hversion, hversion₂, hconfig, fun htakes => ?_⟩
  have hkept := htakes.version
  rw [hversion, hauto] at hkept
  exact absurd hkept (by decide)

end ConfigFlow
