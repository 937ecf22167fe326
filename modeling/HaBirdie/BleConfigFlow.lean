import HaBirdie.PythonValues
import HaBirdie.StepRuns

/-!
# The config flow of a Bluetooth Birdie

The Bluetooth steps of `config_flow.py`: a device that Home Assistant discovers is confirmed, or
the user picks one that a short scan finds, or enters an address.  Flows run next to each other,
and to those of purifiers, over the entries of the domain.

Of Home Assistant it is assumed that an entry that is added takes the place of one with its unique
ID and ends all other flows that have it (`System.add`), that `_abort_if_unique_id_configured`
aborts where an entry has the unique ID, unless it is ignored and the user started the flow
(`configured`), and that the flow manager checks the input against the form and calls the step
that the last result names (`FlowResult.admits`, `FlowResult.passes`, `System.finish`).

`configured_stays` says that no flow replaces an entry that is set up, although the step that
confirms a discovery does not look again whether its device has been set up meanwhile.
-/

namespace BleFlow

open Python StepRuns

/-! ## Advertisements -/

/-- The interpreter's Unicode tables: what stands for a character outside ASCII in `str.lower` and
in `str.upper`. -/
structure UnicodeTables where
  lower : PyStr → ℕ → PyStr
  upper : PyStr → ℕ → PyStr

/-- `normalize_address`. -/
def normalizeAddress (unicode : UnicodeTables) (address : PyStr) : PyStr :=
  upper unicode.upper (strip address)

/-- `ENVIRONMENTAL_SERVICE_UUID`. -/
def environmentalServiceUuid : PyStr := py "4c9b9a7b-370d-473b-8109-f4dfeb661012"

/-- `BIRDIE_NAME_PREFIXES`. -/
def birdieNamePrefixes : List PyStr := [py "Birdie", py "Birdie Pro"]

/-- `is_birdie_name`. -/
def isBirdieName (name : Option PyStr) : Bool :=
  name.any fun name => !name.isEmpty && birdieNamePrefixes.any fun start => start.isPrefixOf name

/-- `is_birdie_advertisement`. -/
def isBirdieAdvertisement (unicode : UnicodeTables) (name : Option PyStr)
    (serviceUuids : List PyStr) : Bool :=
  (serviceUuids.map (lower unicode.lower)).contains environmentalServiceUuid || isBirdieName name

/-- What the flow reads of a `BluetoothServiceInfoBleak`. -/
structure ServiceInfo where
  address : PyStr
  name : Option PyStr
  serviceUuids : List PyStr

/-- `_is_supported`. -/
def isSupported (unicode : UnicodeTables) (info : ServiceInfo) : Bool :=
  isBirdieAdvertisement unicode info.name info.serviceUuids

/-- `a or b`. -/
def orElse (a : Option PyStr) (b : PyStr) : PyStr := (a.filter fun s => !s.isEmpty).getD b

/-- `_discovery_title`. -/
def discoveryTitle (info : ServiceInfo) : PyStr := orElse info.name info.address

/-! ## Entries -/

/-- The entry that a Bluetooth flow creates. -/
structure BluetoothData where
  title : PyStr
  address : PyStr
  name : PyStr
deriving DecidableEq

/-- A config entry of the domain; those of purifiers have no `bluetooth`. -/
structure Entry where
  uniqueId : Option PyStr
  ignored : Bool := false
  bluetooth : Option BluetoothData := none
deriving DecidableEq

/-- `_async_current_ids(include_ignore=False)`. -/
def currentIds (entries : List Entry) : List PyStr :=
  (entries.filter fun e => !e.ignored).filterMap Entry.uniqueId

/-! ## Flows -/

inductive Step
  | bluetoothConfirm
  | ble
  | scan

/-- The input of the form with an address. -/
structure UserInput where
  address : PyStr
  name : Option PyStr := none

/-- What a step is called with: that input, or one without an address, like the choice of the
menu. -/
inductive Input
  | entered (input : UserInput)
  | other

/-- The result of a step.  The form with an address has the `choices`, or a free field if there
are none. -/
inductive FlowResult
  | menu
  | confirm
  | addressForm (choices : List PyStr)
  | progress
  | progressDone
  | createEntry (data : BluetoothData)
  | abort (reason : PyStr)
deriving DecidableEq

/-- The step that the flow manager calls after a result. -/
def FlowResult.next : FlowResult → Option Step
  | .menu | .addressForm _ | .progressDone => some .ble
  | .confirm => some .bluetoothConfirm
  | .progress => some .scan
  | .createEntry _ | .abort _ => none

/-- The flow manager takes the input: at the menu a choice, and at the form with an address one of
the choices, if there are any.  It does not check what a progress step is given. -/
def FlowResult.admits (input : Option Input) : FlowResult → Bool
  | .addressForm choices =>
      match input with
      | none => true
      | some (.entered input) => choices.isEmpty || choices.contains input.address
      | some .other => false
  | .menu =>
      match input with
      | some .other => true
      | _ => false
  | _ => true

/-- What the flow manager passes on to the next step: anything but the choice of the menu. -/
def FlowResult.passes (input : Option Input) : FlowResult → Option Input
  | .menu => none
  | _ => input

/-- `_scan_task`; one that waits has its `current_ids`. -/
inductive ScanTask
  | notStarted
  | waiting (currentIds : List PyStr)
  | done

/-- A `BirdieConfigFlow`; `discovered` are its `_discovered_devices`, by address. -/
structure Flow where
  isUser : Bool := false
  discoveryInfo : Option ServiceInfo := none
  discovered : List (PyStr × PyStr) := []
  scanComplete : Bool := false
  scanTask : ScanTask := .notStarted
  uniqueId : Option PyStr := none
  shown : FlowResult := .menu
  removed : Bool := false

/-- The addresses that the user may pick. -/
def Flow.choices (flow : Flow) : List PyStr := flow.discovered.map Prod.fst

/-- `_abort_if_unique_id_configured`, whether it aborts: the user may add what was ignored. -/
def configured (entries : List Entry) (flow : Flow) : Bool :=
  match flow.uniqueId.bind fun id => entries.find? fun e => e.uniqueId = some id with
  | none => false
  | some entry => !(entry.ignored && flow.isUser)

section Steps

variable (unicode : UnicodeTables)

/-- `_async_add_discovery`. -/
def addDiscovery (currentIds : List PyStr) (discovered : List (PyStr × PyStr))
    (info : ServiceInfo) : List (PyStr × PyStr) :=
  let address := normalizeAddress unicode info.address
  if currentIds.contains address || (discovered.map Prod.fst).contains address then discovered
  else if isSupported unicode info then discovered ++ [(address, discoveryTitle info)]
  else discovered

/-- `_async_collect_cached_discoveries`; what is connectable comes first in `cached`. -/
def collectCached (currentIds : List PyStr) (cached : List ServiceInfo)
    (discovered : List (PyStr × PyStr)) : List (PyStr × PyStr) :=
  cached.foldl (addDiscovery unicode currentIds) discovered

/-- `_async_scan_for_devices` up to its await, in a new task. -/
def scanForDevices (entries : List Entry) (cached : List ServiceInfo) (flow : Flow) : Flow :=
  let discovered := collectCached unicode (currentIds entries) cached flow.discovered
  { flow with
    discovered
    scanTask := if discovered.isEmpty then .waiting (currentIds entries) else .done }

/-- `async_step_scan`. -/
def asyncStepScan (entries : List Entry) (cached : List ServiceInfo) (flow : Flow) :
    Flow × FlowResult :=
  let flow := match flow.scanTask with
    | .notStarted => scanForDevices unicode entries cached flow
    | _ => flow
  match flow.scanTask with
  | .done => ({ flow with scanTask := .notStarted, scanComplete := true }, .progressDone)
  | _ => (flow, .progress)

/-- `async_step_ble`.  Where the input has no address it raises `KeyError`, and the flow stays:
unlike the steps for purifiers it does not look whether the input is that of its form. -/
def asyncStepBle (entries : List Entry) (cached : List ServiceInfo) (input : Option Input)
    (flow : Flow) : Flow × FlowResult :=
  match input with
  | some .other => (flow, flow.shown)
  | some (.entered input) =>
      let address := normalizeAddress unicode input.address
      let title := orElse input.name (orElse (flow.discovered.lookup address) address)
      let flow := { flow with uniqueId := some address }
      if configured entries flow then (flow, .abort (py "already_configured"))
      else (flow, .createEntry ⟨title, address, title⟩)
  | none =>
      if flow.scanComplete then
        let discovered := collectCached unicode (currentIds entries) cached flow.discovered
        ({ flow with discovered }, .addressForm (discovered.map Prod.fst))
      else asyncStepScan unicode entries cached flow

/-- `async_step_bluetooth_confirm`; without a discovery its assertion fails, and the flow stays. -/
def asyncStepBluetoothConfirm (input : Option Input) (flow : Flow) : Flow × FlowResult :=
  match flow.discoveryInfo, input with
  | none, _ => (flow, flow.shown)
  | some _, none => (flow, .confirm)
  | some info, some _ =>
      let title := discoveryTitle info
      (flow, .createEntry
        ⟨title, normalizeAddress unicode info.address, orElse info.name title⟩)

/-- The flow manager calls a step. -/
def runStep (entries : List Entry) (cached : List ServiceInfo) (input : Option Input)
    (flow : Flow) : Step → Flow × FlowResult
  | .bluetoothConfirm => asyncStepBluetoothConfirm unicode input flow
  | .ble => asyncStepBle unicode entries cached input flow
  | .scan => asyncStepScan unicode entries cached flow

end Steps

/-! ## The flow manager and the entries -/

/-- The entries of the domain and all Bluetooth flows. -/
structure System where
  entries : List Entry := []
  flows : List Flow := []

/-- Home Assistant discovers a device, the user starts a flow and submits a form, a scan hears an
advertisement and ends, and outside of these flows entries and flows come and go. -/
inductive Event
  | discovered (info : ServiceInfo)
  | startUser
  | configure (i : ℕ) (input : Option Input) (cached : List ServiceInfo)
  | heard (i : ℕ) (info : ServiceInfo)
  | scanEnded (i : ℕ)
  | flowRemoved (i : ℕ)
  | entryAdded (uniqueId : PyStr) (ignored : Bool)
  | entryRemoved (uniqueId : PyStr)

namespace System

/-- The unique IDs of all entries. -/
def ids (s : System) : List PyStr := s.entries.filterMap Entry.uniqueId

/-- A new entry takes the place of one with its unique ID, and ends the flows that have it. -/
def add (entry : Entry) (s : System) : System where
  entries := (s.entries.filter fun e => entry.uniqueId.isNone || e.uniqueId ≠ entry.uniqueId) ++
    [entry]
  flows := s.flows.map fun flow =>
    if entry.uniqueId.isSome ∧ flow.uniqueId = entry.uniqueId then { flow with removed := true }
    else flow

/-- The flow manager takes the result of a step of flow `i`. -/
def finish (i : ℕ) (turn : Flow × FlowResult) (s : System) : System :=
  let flow := { turn.1 with shown := turn.2 }
  match turn.2 with
  | .createEntry data =>
      let s := s.add ⟨flow.uniqueId, false, some data⟩
      { s with flows := s.flows.set i { flow with removed := true } }
  | .abort _ => { s with flows := s.flows.set i { flow with removed := true } }
  | _ => { s with flows := s.flows.set i flow }

/-- A flow in progress. -/
def flow (i : ℕ) (s : System) : Option Flow := s.flows[i]?.filter fun flow => !flow.removed

/-- A flow in progress has the ID. -/
def inProgress (uniqueId : PyStr) (s : System) : Bool :=
  s.flows.any fun flow => !flow.removed && flow.uniqueId = some uniqueId

section Events

variable (unicode : UnicodeTables)

/-- `async_step_bluetooth` of a new flow.  One that is aborted leaves nothing behind. -/
def asyncStepBluetooth (info : ServiceInfo) (s : System) : System :=
  let address := normalizeAddress unicode info.address
  let flow : Flow :=
    { discoveryInfo := some info, uniqueId := some address, shown := .confirm }
  if !isSupported unicode info || s.inProgress address || configured s.entries flow then s
  else { s with flows := s.flows ++ [flow] }

/-- The next step of a flow is called.  After `progressDone` the flow manager goes on by itself,
with the input that it was given for the step before: that is an event of its own.  If the scan
ends at once, this input is the choice of the menu. -/
def configure (i : ℕ) (input : Option Input) (cached : List ServiceInfo) (s : System) :
    Option System := do
  let flow ← s.flow i
  let step ← flow.shown.next
  if flow.shown.admits input then
    pure (s.finish i (runStep unicode s.entries cached (flow.shown.passes input) flow step))
  else none

/-- `_async_discovered_device` of the scan of a flow. -/
def heard (i : ℕ) (info : ServiceInfo) (s : System) : Option System := do
  let flow ← s.flows[i]?
  match flow.scanTask with
  | .waiting currentIds =>
      pure { s with
        flows := s.flows.set i
          { flow with discovered := addDiscovery unicode currentIds flow.discovered info } }
  | _ => none

/-- The scan of a flow has waited long enough, or has heard of a candidate. -/
def scanEnded (i : ℕ) (s : System) : Option System := do
  let flow ← s.flows[i]?
  match flow.scanTask with
  | .waiting _ => pure { s with flows := s.flows.set i { flow with scanTask := .done } }
  | _ => none

/-- One event.  Other flows add no entry with an ID that is taken. -/
def step (s : System) : Event → Option System
  | .discovered info => some (s.asyncStepBluetooth unicode info)
  | .startUser => some { s with flows := s.flows ++ [{ isUser := true }] }
  | .configure i input cached => s.configure unicode i input cached
  | .heard i info => s.heard unicode i info
  | .scanEnded i => s.scanEnded i
  | .flowRemoved i =>
      s.flows[i]?.map fun flow => { s with flows := s.flows.set i { flow with removed := true } }
  | .entryAdded uniqueId ignored =>
      if s.ids.contains uniqueId then none
      else some (s.add { uniqueId := some uniqueId, ignored })
  | .entryRemoved uniqueId =>
      some { s with entries := s.entries.filter fun e => e.uniqueId ≠ some uniqueId }

end Events

end System

/-! ## Entries that stay -/

/-- An ID is taken if an entry has it. -/
theorem mem_ids {s : System} {id : PyStr} :
    id ∈ s.ids ↔ ∃ e ∈ s.entries, e.uniqueId = some id := List.mem_filterMap

/-- Two entries without an ID in common. -/
def Entry.Other (e e' : Entry) : Prop :=
  ∀ id, e.uniqueId = some id → ∀ id', e'.uniqueId = some id' → id ≠ id'

instance : Std.Symm Entry.Other :=
  ⟨fun _ _ hother id hid id' hid' heq => hother id' hid' id hid heq.symm⟩

/-- An ID has one entry. -/
theorem eq_of_uniqueId {entries : List Entry} {e e' : Entry} {id : PyStr}
    (hnodup : (entries.filterMap Entry.uniqueId).Nodup) (he : e ∈ entries) (he' : e' ∈ entries)
    (hid : e.uniqueId = some id) (hid' : e'.uniqueId = some id) : e = e' := by
  by_contra hne
  have hothers : entries.Pairwise Entry.Other := List.pairwise_filterMap.mp hnodup
  exact hothers.forall he he' hne id hid id hid' rfl

/-- What is not configured is free, but for the user what is ignored.  An ID belongs to one entry
at most, so the first one found is the only one. -/
theorem configured_false {entries : List Entry} {flow : Flow} {id : PyStr}
    (hnodup : (entries.filterMap Entry.uniqueId).Nodup) (hid : flow.uniqueId = some id)
    (h : configured entries flow = false) :
    ∀ e ∈ entries, e.uniqueId = some id → e.ignored = true ∧ flow.isUser = true := by
  intro e he heid
  unfold configured at h
  rw [hid, Option.bind_some] at h
  cases hfind : entries.find? fun e => e.uniqueId = some id with
  | none =>
      have hnot := List.find?_eq_none.mp hfind e he
      exact absurd heid (by simpa using hnot)
  | some entry =>
      rw [hfind] at h
      have hentry : entry.uniqueId = some id := by simpa using List.find?_some hfind
      have hsame : entry = e :=
        eq_of_uniqueId hnodup (List.mem_of_find?_eq_some hfind) he hentry heid
      simpa [hsame] using h

namespace System

variable {unicode : UnicodeTables} {past : System → Event → Prop} {s s' : System}

/-- A flow in progress has the ID of no entry; one that confirms a discovery has that of its
device. -/
structure Keeps (unicode : UnicodeTables) (past : System → Event → Prop) (ids : List PyStr)
    (flow : Flow) : Prop where
  free : ∀ id, flow.uniqueId = some id → id ∉ ids
  confirms : ∀ info, flow.discoveryInfo = some info →
    flow.uniqueId = some (normalizeAddress unicode info.address) ∧
      isSupported unicode info = true ∧ ∃ u, past u (.discovered info)

/-- The entries have different IDs, and no flow in progress has one of them. -/
structure Apart (unicode : UnicodeTables) (past : System → Event → Prop) (s : System) : Prop where
  distinct : s.ids.Nodup
  flows : ∀ flow ∈ s.flows, flow.removed = false → Keeps unicode past s.ids flow

/-- The entries stay, and each flow is removed or keeps what it has to. -/
theorem Apart.same (h : s.Apart unicode past) (hentries : s'.entries = s.entries)
    (hflows : ∀ flow ∈ s'.flows, flow.removed = false → Keeps unicode past s.ids flow) :
    s'.Apart unicode past := by
  have hids : s'.ids = s.ids := by simp [ids, hentries]
  refine ⟨hids ▸ h.distinct, fun flow hflow hremoved => ?_⟩
  rw [hids]
  exact hflows flow hflow hremoved

/-- One flow changes. -/
theorem Apart.put (h : s.Apart unicode past) (i : ℕ) {flow : Flow}
    (hflow : flow.removed = false → Keeps unicode past s.ids flow) :
    Apart unicode past { s with flows := s.flows.set i flow } := by
  refine h.same rfl fun other hother hremoved => ?_
  rcases List.mem_or_eq_of_mem_set hother with hold | rfl
  · exact h.flows other hold hremoved
  · exact hflow hremoved

/-- A new entry ends the flows with its ID.  So the flows that are left have IDs that no entry has,
the new one included. -/
theorem Apart.add (h : s.Apart unicode past) {entry : Entry} {id : PyStr}
    (hid : entry.uniqueId = some id) : (s.add entry).Apart unicode past := by
  have hids : ∀ other, other ∈ (s.add entry).ids ↔ other ∈ s.ids ∧ other ≠ id ∨ other = id := by
    intro other
    rw [mem_ids, mem_ids]
    constructor
    · rintro ⟨e, he, heid⟩
      rcases List.mem_append.mp he with he | he
      · obtain ⟨hold, hne⟩ := List.mem_filter.mp he
        refine Or.inl ⟨⟨e, hold, heid⟩, fun heq => ?_⟩
        simp [hid, heid, heq] at hne
      · obtain rfl := List.mem_singleton.mp he
        exact Or.inr (Option.some.inj (heid.symm.trans hid))
    · rintro (⟨⟨e, he, heid⟩, hne⟩ | rfl)
      · refine ⟨e, List.mem_append_left _ (List.mem_filter.mpr ⟨he, ?_⟩), heid⟩
        simp [hid, heid, hne]
      · exact ⟨entry, List.mem_append_right _ (List.mem_singleton_self _), hid⟩
  have hkept : ∀ flow ∈ (s.add entry).flows, flow.removed = false →
      flow ∈ s.flows ∧ flow.uniqueId ≠ some id := by
    intro flow hflow hremoved
    obtain ⟨old, hold, rfl⟩ := List.mem_map.mp hflow
    split at hremoved
    · exact absurd hremoved (by simp)
    · rename_i hnot
      rw [if_neg hnot]
      refine ⟨hold, fun heq => hnot ⟨by simp [hid], ?_⟩⟩
      rw [heq, hid]
  refine ⟨?_, fun flow hflow hremoved => ?_⟩
  · have hfiltered : (List.filterMap Entry.uniqueId
        (s.entries.filter fun e => entry.uniqueId.isNone || e.uniqueId ≠ entry.uniqueId)).Nodup :=
      h.distinct.sublist (List.filter_sublist.filterMap _)
    unfold ids System.add
    dsimp only
    rw [List.filterMap_append]
    refine List.nodup_append.mpr ⟨hfiltered, ?_, ?_⟩
    · simp [hid]
    · intro a ha b hb heq
      obtain ⟨e, he, heid⟩ := List.mem_filterMap.mp ha
      obtain rfl : b = id := by simpa [hid] using hb
      have hne := (List.mem_filter.mp he).2
      simp [hid, heid, heq] at hne
  · obtain ⟨hold, hne⟩ := hkept flow hflow hremoved
    have hkeeps := h.flows flow hold hremoved
    refine ⟨fun other hother => ?_, hkeeps.confirms⟩
    rw [hids]
    rintro (⟨hmem, _⟩ | rfl)
    · exact hkeeps.free other hother hmem
    · exact hne hother

/-- The steps of a flow that go on keep its ID and its discovery.  Those that end it need no care,
because the flow is gone. -/
theorem runStep_keeps (entries : List Entry) (cached : List ServiceInfo)
    (input : Option Input) (flow : Flow) (step : Step)
    (hcreate : ∀ data, (runStep unicode entries cached input flow step).2 ≠ .createEntry data)
    (habort : ∀ reason, (runStep unicode entries cached input flow step).2 ≠ .abort reason) :
    (runStep unicode entries cached input flow step).1.uniqueId = flow.uniqueId ∧
      (runStep unicode entries cached input flow step).1.discoveryInfo = flow.discoveryInfo ∧
      (runStep unicode entries cached input flow step).1.removed = flow.removed := by
  have hscan : (asyncStepScan unicode entries cached flow).1.uniqueId = flow.uniqueId ∧
      (asyncStepScan unicode entries cached flow).1.discoveryInfo = flow.discoveryInfo ∧
      (asyncStepScan unicode entries cached flow).1.removed = flow.removed := by
    unfold asyncStepScan scanForDevices
    dsimp only
    split <;> split <;> exact ⟨rfl, rfl, rfl⟩
  cases step with
  | scan => exact hscan
  | bluetoothConfirm =>
      unfold runStep asyncStepBluetoothConfirm
      dsimp only
      split <;> exact ⟨rfl, rfl, rfl⟩
  | ble =>
      cases input with
      | none =>
          unfold runStep asyncStepBle
          dsimp only
          split
          · exact ⟨rfl, rfl, rfl⟩
          · exact hscan
      | some input =>
          cases input with
          | other => exact ⟨rfl, rfl, rfl⟩
          | entered input =>
              simp only [runStep, asyncStepBle] at hcreate habort
              split at hcreate
              · rename_i hconfigured
                rw [if_pos hconfigured] at habort
                exact absurd rfl (habort _)
              · exact absurd rfl (hcreate _)

/-- The address of a new entry is that of the device that is confirmed, or the one submitted, and
nobody but an ignored entry has it. -/
theorem runStep_creates (h : s.Apart unicode past) {cached : List ServiceInfo}
    {input : Option Input} {flow flow' : Flow} {step : Step} {data : BluetoothData}
    (hflow : flow ∈ s.flows) (hremoved : flow.removed = false)
    (hshown : flow.shown.next = some step)
    (hrun : runStep unicode s.entries cached input flow step = (flow', .createEntry data)) :
    flow'.uniqueId = some data.address ∧
      (∀ e ∈ s.entries, e.uniqueId = some data.address → e.ignored = true) ∧
      ((∃ info, data.address = normalizeAddress unicode info.address ∧
          isSupported unicode info = true ∧ ∃ u, past u (.discovered info)) ∨
        ∃ entered, input = some (.entered entered) ∧
          data.address = normalizeAddress unicode entered.address) := by
  have hscan : (asyncStepScan unicode s.entries cached flow).2 ≠ .createEntry data := by
    unfold asyncStepScan
    dsimp only
    split <;> simp
  have hstays : (flow, flow.shown) ≠ (flow', .createEntry data) := by
    intro hsame
    have hcreated : flow.shown = .createEntry data := congrArg Prod.snd hsame
    rw [hcreated] at hshown
    exact absurd hshown (by simp [FlowResult.next])
  cases step with
  | scan =>
      rw [show runStep unicode s.entries cached input flow .scan =
        asyncStepScan unicode s.entries cached flow from rfl] at hrun
      exact absurd (congrArg Prod.snd hrun) hscan
  | bluetoothConfirm =>
      simp only [runStep, asyncStepBluetoothConfirm] at hrun
      split at hrun
      · exact absurd hrun hstays
      · exact absurd (congrArg Prod.snd hrun) (by simp)
      · rename_i info _ hinfo
        obtain ⟨rfl, hdata⟩ := Prod.mk.inj hrun
        obtain rfl := FlowResult.createEntry.inj hdata
        have hkeeps := h.flows flow hflow hremoved
        obtain ⟨hid, hsupported, hpast⟩ := hkeeps.confirms info hinfo
        refine ⟨hid, fun e he heid => ?_, Or.inl ⟨info, rfl, hsupported, hpast⟩⟩
        exact absurd (mem_ids.mpr ⟨e, he, heid⟩) (hkeeps.free _ hid)
  | ble =>
      cases input with
      | none =>
          simp only [runStep, asyncStepBle] at hrun
          split at hrun
          · exact absurd (congrArg Prod.snd hrun) (by simp)
          · exact absurd (congrArg Prod.snd hrun) hscan
      | some input =>
          cases input with
          | other => exact absurd hrun hstays
          | entered entered =>
              simp only [runStep, asyncStepBle] at hrun
              split at hrun
              · exact absurd (congrArg Prod.snd hrun) (by simp)
              · rename_i hconfigured
                obtain ⟨rfl, hdata⟩ := Prod.mk.inj hrun
                obtain rfl := FlowResult.createEntry.inj hdata
                refine ⟨rfl, fun e he heid => ?_, Or.inr ⟨entered, rfl, rfl⟩⟩
                exact (configured_false h.distinct rfl (Bool.eq_false_of_not_eq_true hconfigured) e
                  he heid).1

/-- A flow that stays apart from the entries does so as more happens. -/
theorem Keeps.since {ids : List PyStr} {flow : Flow} (h : Keeps unicode past ids flow)
    (u : System) (e : Event) : Keeps unicode (StepRuns.since past u e) ids flow := by
  refine ⟨h.free, fun info hinfo => ?_⟩
  obtain ⟨hid, hsupported, v, hv⟩ := h.confirms info hinfo
  exact ⟨hid, hsupported, v, Or.inl hv⟩

/-- Entries and flows stay apart as more happens. -/
theorem Apart.since (h : s.Apart unicode past) (u : System) (e : Event) :
    s.Apart unicode (StepRuns.since past u e) :=
  ⟨h.distinct, fun flow hflow hremoved => (h.flows flow hflow hremoved).since u e⟩

/-- A flow in progress is one that was not removed. -/
theorem flow_some {i : ℕ} {flow : Flow} (h : s.flow i = some flow) :
    s.flows[i]? = some flow ∧ flow.removed = false := by
  simpa [System.flow, Option.filter_eq_some_iff] using h

/-- What is passed on is what was submitted. -/
theorem passes_some {shown : FlowResult} {input : Option Input} {passed : Input}
    (h : shown.passes input = some passed) : input = some passed := by
  cases shown with
  | menu => exact absurd h (by simp [FlowResult.passes])
  | _ => exact h

/-- A flow in progress takes its next step. -/
theorem configure_some {i : ℕ} {input : Option Input} {cached : List ServiceInfo}
    (h : s.configure unicode i input cached = some s') :
    ∃ flow step, s.flows[i]? = some flow ∧ flow.removed = false ∧ flow.shown.next = some step ∧
      s' = s.finish i
        (runStep unicode s.entries cached (flow.shown.passes input) flow step) := by
  obtain ⟨flow, hflow, hrest⟩ := Option.bind_eq_some_iff.mp h
  obtain ⟨step, hnext, hrest⟩ := Option.bind_eq_some_iff.mp hrest
  split at hrest
  · obtain ⟨hi, hremoved⟩ := flow_some hflow
    exact ⟨flow, step, hi, hremoved, hnext, (Option.some.inj hrest).symm⟩
  · exact absurd hrest (by simp)

/-- The flow manager takes the result of a step: it ends the flow, adds its entry or shows what
comes next.  The entry replaces one of the same ID that the user ignored. -/
theorem Apart.finish (h : s.Apart unicode past) {i : ℕ} {cached : List ServiceInfo}
    {input : Option Input} {flow : Flow} {step : Step} (hi : s.flows[i]? = some flow)
    (hremoved : flow.removed = false) (hshown : flow.shown.next = some step) :
    (s.finish i (runStep unicode s.entries cached input flow step)).Apart unicode past := by
  have hmem := List.mem_of_getElem? hi
  have hkept : ∀ flow' result, runStep unicode s.entries cached input flow step =
      (flow', result) → (∀ data, result ≠ .createEntry data) → (∀ reason, result ≠ .abort reason) →
      Keeps unicode past s.ids { flow' with shown := result } := by
    intro flow' result hturn hcreate habort
    have hkeeps := h.flows flow hmem hremoved
    have hsecond : (runStep unicode s.entries cached input flow step).2 = result :=
      congrArg Prod.snd hturn
    obtain ⟨hid, hinfo, _⟩ := runStep_keeps s.entries cached input flow step
      (fun data heq => hcreate data (hsecond.symm.trans heq))
      (fun reason heq => habort reason (hsecond.symm.trans heq))
    rw [hturn] at hid hinfo
    refine ⟨fun id hfree => hkeeps.free id (hid.symm.trans hfree), fun info hthis => ?_⟩
    obtain ⟨hsame, hrest⟩ := hkeeps.confirms info (hinfo.symm.trans hthis)
    exact ⟨hid.trans hsame, hrest⟩
  cases hturn : runStep unicode s.entries cached input flow step with
  | mk flow' result =>
      cases result with
      | createEntry data =>
          obtain ⟨hid, _, _⟩ := runStep_creates h hmem hremoved hshown hturn
          have hadd : (s.add ⟨flow'.uniqueId, false, some data⟩).Apart unicode past := h.add hid
          refine hadd.same rfl fun other hother hgoes => ?_
          rcases List.mem_or_eq_of_mem_set hother with hold | rfl
          · exact hadd.flows other hold hgoes
          · exact absurd hgoes (by simp)
      | abort reason => exact h.put i fun hgoes => absurd hgoes (by simp)
      | menu => exact h.put i fun _ => hkept flow' _ hturn (by simp) (by simp)
      | confirm => exact h.put i fun _ => hkept flow' _ hturn (by simp) (by simp)
      | addressForm _ => exact h.put i fun _ => hkept flow' _ hturn (by simp) (by simp)
      | progress => exact h.put i fun _ => hkept flow' _ hturn (by simp) (by simp)
      | progressDone => exact h.put i fun _ => hkept flow' _ hturn (by simp) (by simp)

/-- The flow of a discovery has an ID that no entry has.  Otherwise it is aborted before it is
shown. -/
theorem Apart.discovered (h : s.Apart unicode past) {info : ServiceInfo}
    (hpast : ∃ u, past u (.discovered info)) :
    (s.asyncStepBluetooth unicode info).Apart unicode past := by
  unfold asyncStepBluetooth
  dsimp only
  split
  · exact h
  · rename_i hgoes
    obtain ⟨hsupported, _, hfree⟩ : isSupported unicode info = true ∧ _ ∧
        configured s.entries _ = false := by simpa [and_assoc] using hgoes
    refine h.same rfl fun flow hflow hremoved => ?_
    rcases List.mem_append.mp hflow with hold | hnew
    · exact h.flows flow hold hremoved
    · obtain rfl := List.mem_singleton.mp hnew
      refine ⟨fun id hid hmem => ?_, fun other hother => ?_⟩
      · obtain ⟨e, he, heid⟩ := mem_ids.mp hmem
        have hnobody := configured_false h.distinct hid hfree e he heid
        exact absurd hnobody.2 (by simp)
      · obtain rfl := Option.some.inj hother
        exact ⟨rfl, hsupported, hpast⟩

/-- **One step** keeps the IDs apart.  Flows begin, take a step or end, and entries are removed or
added from outside. -/
theorem Apart.step (h : s.Apart unicode past) {e : Event} (hstep : s.step unicode e = some s') :
    s'.Apart unicode (StepRuns.since past s e) := by
  have hold := h.since s e
  cases e with
  | discovered info =>
      obtain rfl := Option.some.inj hstep
      exact hold.discovered ⟨s, Or.inr ⟨rfl, rfl⟩⟩
  | startUser =>
      obtain rfl := Option.some.inj hstep
      refine hold.same rfl fun flow hflow hremoved => ?_
      rcases List.mem_append.mp hflow with hflow | hflow
      · exact hold.flows flow hflow hremoved
      · obtain rfl := List.mem_singleton.mp hflow
        exact ⟨by simp, by simp⟩
  | configure i input cached =>
      obtain ⟨flow, step, hi, hremoved, hnext, rfl⟩ := configure_some hstep
      exact hold.finish hi hremoved hnext
  | heard i info =>
      obtain ⟨flow, hi, hrest⟩ := Option.bind_eq_some_iff.mp hstep
      split at hrest
      · obtain rfl := Option.some.inj hrest
        refine hold.put i fun hremoved => ?_
        have hkeeps := hold.flows flow (List.mem_of_getElem? hi) hremoved
        exact ⟨hkeeps.free, hkeeps.confirms⟩
      · exact absurd hrest (by simp)
  | scanEnded i =>
      obtain ⟨flow, hi, hrest⟩ := Option.bind_eq_some_iff.mp hstep
      split at hrest
      · obtain rfl := Option.some.inj hrest
        refine hold.put i fun hremoved => ?_
        have hkeeps := hold.flows flow (List.mem_of_getElem? hi) hremoved
        exact ⟨hkeeps.free, hkeeps.confirms⟩
      · exact absurd hrest (by simp)
  | flowRemoved i =>
      obtain ⟨flow, _, rfl⟩ := Option.map_eq_some_iff.mp hstep
      exact hold.put i fun hremoved => absurd hremoved (by simp)
  | entryAdded uniqueId ignored =>
      simp only [System.step] at hstep
      split at hstep
      · exact absurd hstep (by simp)
      · obtain rfl := Option.some.inj hstep
        exact hold.add rfl
  | entryRemoved uniqueId =>
      obtain rfl := Option.some.inj hstep
      have hfewer : ids { s with entries := s.entries.filter fun e => e.uniqueId ≠ some uniqueId } ⊆
          s.ids := (List.filter_sublist.filterMap _).subset
      refine ⟨hold.distinct.sublist (List.filter_sublist.filterMap _),
        fun flow hflow hremoved => ?_⟩
      have hkeeps := hold.flows flow hflow hremoved
      exact ⟨fun id hid hmem => hkeeps.free id hid (hfewer hmem), hkeeps.confirms⟩

/-- Where the address of an entry that a Bluetooth flow adds comes from. -/
def FromDevice (unicode : UnicodeTables) (past : System → Event → Prop) (e : Event)
    (address : PyStr) : Prop :=
  (∃ info, address = normalizeAddress unicode info.address ∧ isSupported unicode info = true ∧
      ∃ u, past u (.discovered info)) ∨
    ∃ i entered cached, e = .configure i (some (.entered entered)) cached ∧
      address = normalizeAddress unicode entered.address

/-- What a step does to the entries. -/
inductive Writes (unicode : UnicodeTables) (past : System → Event → Prop) (s : System) (e : Event) :
    List Entry → Prop
  | nothing : Writes unicode past s e s.entries
  | removes (id : PyStr) (he : e = .entryRemoved id) :
      Writes unicode past s e (s.entries.filter fun entry => entry.uniqueId ≠ some id)
  | adds (entry : Entry) (id : PyStr) (hid : entry.uniqueId = some id)
      (hfree : ∀ other ∈ s.entries, other.uniqueId = some id → other.ignored = true)
      (hdata : ∀ data, entry.bluetooth = some data →
        id = data.address ∧ FromDevice unicode past e data.address) :
      Writes unicode past s e (s.add entry).entries

/-- What a step does to the entries: nothing, or it removes one, or it adds one whose ID is free
and which, if it is a Bluetooth device, comes from this step. -/
theorem Apart.writes (h : s.Apart unicode past) {e : Event} (hstep : s.step unicode e = some s') :
    Writes unicode past s e s'.entries := by
  cases e with
  | discovered info =>
      obtain rfl := Option.some.inj hstep
      unfold asyncStepBluetooth
      dsimp only
      split <;> exact .nothing
  | startUser =>
      obtain rfl := Option.some.inj hstep
      exact .nothing
  | configure i input cached =>
      obtain ⟨flow, step, hi, hremoved, hnext, rfl⟩ := configure_some hstep
      cases hturn : runStep unicode s.entries cached (flow.shown.passes input) flow step with
      | mk flow' result =>
          cases result with
          | createEntry data =>
              obtain ⟨hid, hfree, hfrom⟩ :=
                runStep_creates h (List.mem_of_getElem? hi) hremoved hnext hturn
              refine .adds ⟨flow'.uniqueId, false, some data⟩ data.address hid hfree ?_
              intro data' hdata'
              obtain rfl := Option.some.inj hdata'
              refine ⟨rfl, hfrom.imp id fun hentered => ?_⟩
              obtain ⟨entered, hpassed, haddress⟩ := hentered
              exact ⟨i, entered, cached, by rw [passes_some hpassed], haddress⟩
          | _ => exact .nothing
  | heard i info =>
      obtain ⟨flow, _, hrest⟩ := Option.bind_eq_some_iff.mp hstep
      split at hrest
      · obtain rfl := Option.some.inj hrest
        exact .nothing
      · exact absurd hrest (by simp)
  | scanEnded i =>
      obtain ⟨flow, _, hrest⟩ := Option.bind_eq_some_iff.mp hstep
      split at hrest
      · obtain rfl := Option.some.inj hrest
        exact .nothing
      · exact absurd hrest (by simp)
  | flowRemoved i =>
      obtain ⟨flow, _, rfl⟩ := Option.map_eq_some_iff.mp hstep
      exact .nothing
  | entryAdded uniqueId ignored =>
      simp only [System.step] at hstep
      split at hstep
      · exact absurd hstep (by simp)
      · rename_i hfree
        obtain rfl := Option.some.inj hstep
        refine .adds { uniqueId := some uniqueId, ignored } uniqueId rfl ?_ (by simp)
        intro other hother hid
        have hmem : uniqueId ∈ s.ids := mem_ids.mpr ⟨other, hother, hid⟩
        exact absurd (List.contains_iff_mem.mpr hmem) hfree
  | entryRemoved uniqueId =>
      obtain rfl := Option.some.inj hstep
      exact .removes uniqueId rfl

/-- **No entry that is set up is replaced.**  In every run, whatever is discovered, entered and
confirmed next to each other: the unique IDs of the entries are different; a step leaves every
entry that is not ignored, unless it removes it; and an entry that a step of a Bluetooth flow adds
has its address as the unique ID, which is that of a device that Home Assistant discovered and
that looks like a Birdie, or the one that the user submits in this step. -/
theorem configured_stays {entries : List Entry} {as : List Event} {s s' : System} {e : Event}
    (hentries : (entries.filterMap Entry.uniqueId).Nodup)
    (hrun : Run (System.step unicode) Anything { entries } as s)
    (hstep : s.step unicode e = some s') :
    s'.ids.Nodup ∧
      (∀ entry ∈ s.entries, entry.ignored = false →
        (∀ id, e = .entryRemoved id → entry.uniqueId ≠ some id) → entry ∈ s'.entries) ∧
      ∀ entry ∈ s'.entries, entry ∉ s.entries → ∀ data, entry.bluetooth = some data →
        entry.uniqueId = some data.address ∧
          FromDevice unicode (Happened (System.step unicode) { entries } as) e data.address := by
  have hstart : Apart unicode (fun _ _ => False) { entries } := ⟨hentries, by simp⟩
  have h := hrun.history (Apart unicode) (fun _ _ _ _ hinv _ hstep => hinv.step hstep) hstart
  have hwrites := h.writes hstep
  refine ⟨(h.step hstep).distinct, fun entry hentry hshown hstays => ?_,
    fun entry hentry hnew data hdata => ?_⟩
  · generalize s'.entries = after at hwrites ⊢
    cases hwrites with
    | nothing => exact hentry
    | removes id he => exact List.mem_filter.mpr ⟨hentry, by simpa using hstays id he⟩
    | adds added id hid hfree _ =>
        refine List.mem_append_left _ (List.mem_filter.mpr ⟨hentry, ?_⟩)
        have hother : entry.uniqueId ≠ some id := fun heq => by
          have hignored := hfree entry hentry heq
          exact absurd (hshown.symm.trans hignored) (by simp)
        simp [hid, hother]
  · generalize s'.entries = after at hwrites hentry
    cases hwrites with
    | nothing => exact absurd hentry hnew
    | removes id _ => exact absurd (List.mem_of_mem_filter hentry) hnew
    | adds added id hid _ hfrom =>
        rcases List.mem_append.mp hentry with hold | hadded
        · exact absurd (List.mem_of_mem_filter hold) hnew
        · obtain rfl := List.mem_singleton.mp hadded
          obtain ⟨rfl, hdevice⟩ := hfrom data hdata
          exact ⟨hid, hdevice⟩

end System

/-- ASCII is enough here. -/
def asciiTables : UnicodeTables := ⟨fun _ _ => [], fun _ _ => []⟩

def birdiePro : ServiceInfo where
  address := py "AA:BB:CC:11:22:33"
  name := some (py "Birdie Pro")
  serviceUuids := [environmentalServiceUuid]

/-- A Birdie Pro is discovered, and before that is confirmed, the scan of a user finds it at once:
the choice of the menu is passed on to the step after the scan, which raises; the user comes back
to the flow and has the form. -/
def pickEvents : List Event :=
  [.entryAdded (py "bf01") false, .discovered birdiePro, .startUser,
    .configure 1 (some .other) [birdiePro], .configure 1 (some .other) [birdiePro],
    .configure 1 none [birdiePro]]

/-- The user picks it. -/
def picked : Event :=
  .configure 1
    (some (.entered { address := py "AA:BB:CC:11:22:33", name := some (py "Office") })) []

/-- The entry of a purifier stays, and the new one has the address as its ID.  The Bluetooth device
was picked from what the cache had of it. -/
theorem configured_stays_picked :
    ∃ s s' : System, Run (System.step asciiTables) Anything {} pickEvents s ∧
      s.step asciiTables picked = some s' ∧ s.ids = [py "bf01"] ∧
      (s'.entries.map Entry.bluetooth) =
        [none, some ⟨py "Office", py "AA:BB:CC:11:22:33", py "Office"⟩] ∧
      s'.ids.Nodup ∧ (∀ entry ∈ s.entries, entry.ignored = false → entry ∈ s'.entries) ∧
      ∀ entry ∈ s'.entries, entry ∉ s.entries → ∀ data, entry.bluetooth = some data →
        entry.uniqueId = some data.address := by
  let execution := exec (System.step asciiTables) {} pickEvents
  obtain ⟨s, hs⟩ := Option.isSome_iff_exists.mp (show execution.isSome = true by decide)
  have hfacts : ∀ s ∈ execution, ∃ s' ∈ s.step asciiTables picked, s.ids = [py "bf01"] ∧
      (s'.entries.map Entry.bluetooth) =
        [none, some ⟨py "Office", py "AA:BB:CC:11:22:33", py "Office"⟩] := by decide
  obtain ⟨s', hstep, hids, hentries⟩ := hfacts s hs
  obtain ⟨hnodup, hstays, hadded⟩ := System.configured_stays (by simp) (Run.of_exec hs) hstep
  exact ⟨s, s', Run.of_exec hs, hstep, hids, hentries, hnodup,
    fun entry hmem hkept => hstays entry hmem hkept (by simp [picked]),
    fun entry hmem hnew data hdata => (hadded entry hmem hnew data hdata).1⟩

end BleFlow
