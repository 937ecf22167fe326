import HaBirdie.BleConfigFlow

/-!
# What the user may pick

A flow that the user starts looks at what Home Assistant has cached of advertisements, and if that
has no new Birdie, it scans: it hears advertisements for a while, takes the IDs as set up that
were so when it began, and looks at the cache once more before each form.  Other flows and
entries come and go meanwhile.

`choices_seen` is the whole-run statement: the form has exactly what the flow has looked at that
looks like a Birdie and was not set up then.
-/

namespace BleFlow

open Python StepRuns

/-! ## Discoveries -/

section Discoveries

variable {unicode : UnicodeTables} {currentIds : List PyStr}

/-- A candidate that is set up or in the list is not added. -/
theorem known_iff {choices : List PyStr} {address : PyStr} :
    (currentIds.contains address || choices.contains address) = true ↔
      address ∈ currentIds ∨ address ∈ choices := by
  rw [Bool.or_eq_true, List.contains_iff_mem, List.contains_iff_mem]

/-- An address is never collected twice. -/
theorem addDiscovery_nodup {discovered : List (PyStr × PyStr)} (info : ServiceInfo)
    (h : (discovered.map Prod.fst).Nodup) :
    ((addDiscovery unicode currentIds discovered info).map Prod.fst).Nodup := by
  unfold addDiscovery
  dsimp only
  split
  · exact h
  · rename_i hnew
    split
    · rw [List.map_append]
      refine List.nodup_append.mpr ⟨h, by simp, fun a ha b hb heq => ?_⟩
      obtain rfl : b = normalizeAddress unicode info.address := by simpa using hb
      exact hnew (known_iff.mpr (Or.inr (heq ▸ ha)))
    · exact h

/-- What is collected was there before, or is the address of an advertisement that looks like a
Birdie and is not set up. -/
theorem mem_addDiscovery {discovered : List (PyStr × PyStr)} {info : ServiceInfo}
    {choice : PyStr × PyStr} (h : choice ∈ addDiscovery unicode currentIds discovered info) :
    choice ∈ discovered ∨
      isSupported unicode info = true ∧
        choice = (normalizeAddress unicode info.address, discoveryTitle info) ∧
          choice.1 ∉ currentIds := by
  unfold addDiscovery at h
  dsimp only at h
  split at h
  · exact Or.inl h
  · rename_i hnew
    split at h
    · rename_i hsupported
      rcases List.mem_append.mp h with hold | hadded
      · exact Or.inl hold
      · obtain rfl := List.mem_singleton.mp hadded
        exact Or.inr ⟨hsupported, rfl, fun hmem => hnew (known_iff.mpr (Or.inl hmem))⟩
    · exact Or.inl h

/-- Nothing that was collected is given up. -/
theorem addDiscovery_mono (discovered : List (PyStr × PyStr)) (info : ServiceInfo) :
    discovered ⊆ addDiscovery unicode currentIds discovered info := by
  intro choice hmem
  unfold addDiscovery
  dsimp only
  split
  · exact hmem
  · split
    · exact List.mem_append_left _ hmem
    · exact hmem

/-- The address of an advertisement that looks like a Birdie is collected, unless it is set up. -/
theorem addDiscovery_adds (discovered : List (PyStr × PyStr)) {info : ServiceInfo}
    (hsupported : isSupported unicode info = true) :
    normalizeAddress unicode info.address ∈ currentIds ∨
      normalizeAddress unicode info.address ∈
        (addDiscovery unicode currentIds discovered info).map Prod.fst := by
  unfold addDiscovery
  dsimp only
  split
  · rename_i hknown
    exact known_iff.mp hknown
  · exact Or.inr (by simp)

/-- Going through the cache collects no address twice. -/
theorem collectCached_nodup {discovered : List (PyStr × PyStr)} (infos : List ServiceInfo)
    (h : (discovered.map Prod.fst).Nodup) :
    ((collectCached unicode currentIds infos discovered).map Prod.fst).Nodup := by
  unfold collectCached
  induction infos generalizing discovered with
  | nil => exact h
  | cons info infos ih => exact ih (addDiscovery_nodup info h)

/-- What is collected from the cache was there before, or is an advertisement of it that looks like
a Birdie and is not set up. -/
theorem mem_collectCached {discovered : List (PyStr × PyStr)} {infos : List ServiceInfo}
    {choice : PyStr × PyStr} (h : choice ∈ collectCached unicode currentIds infos discovered) :
    choice ∈ discovered ∨ ∃ info ∈ infos, isSupported unicode info = true ∧
      choice = (normalizeAddress unicode info.address, discoveryTitle info) ∧
        choice.1 ∉ currentIds := by
  unfold collectCached at h
  induction infos generalizing discovered with
  | nil => exact Or.inl h
  | cons info infos ih =>
      rcases ih h with hold | ⟨other, hother, hrest⟩
      · rcases mem_addDiscovery hold with hold | hadded
        · exact Or.inl hold
        · exact Or.inr ⟨info, List.mem_cons_self, hadded⟩
      · exact Or.inr ⟨other, List.mem_cons_of_mem _ hother, hrest⟩

/-- Nothing that was collected before is given up. -/
theorem collectCached_mono (discovered : List (PyStr × PyStr)) (infos : List ServiceInfo) :
    discovered ⊆ collectCached unicode currentIds infos discovered := by
  unfold collectCached
  induction infos generalizing discovered with
  | nil => exact fun _ hmem => hmem
  | cons info infos ih => exact List.Subset.trans (addDiscovery_mono discovered info) (ih _)

/-- Every advertisement of the cache that looks like a Birdie is collected, unless it is set up. -/
theorem collectCached_adds (discovered : List (PyStr × PyStr)) {infos : List ServiceInfo}
    {info : ServiceInfo} (hinfo : info ∈ infos) (hsupported : isSupported unicode info = true) :
    normalizeAddress unicode info.address ∈ currentIds ∨
      normalizeAddress unicode info.address ∈
        (collectCached unicode currentIds infos discovered).map Prod.fst := by
  induction infos generalizing discovered with
  | nil => exact absurd hinfo (by simp)
  | cons first infos ih =>
      rcases List.mem_cons.mp hinfo with rfl | hlater
      · rcases addDiscovery_adds discovered hsupported with hknown | hadded
        · exact Or.inl hknown
        · exact Or.inr (List.map_subset _ (collectCached_mono _ infos) hadded)
      · exact ih _ hlater

end Discoveries

/-! ## What a flow looks at -/

/-- The next step of the flow collects what is cached. -/
def Flow.collects (input : Option Input) (flow : Flow) : Bool :=
  match flow.shown.next, flow.scanTask with
  | some .scan, .notStarted => true
  | some .ble, .notStarted => (flow.shown.passes input).isNone
  | some .ble, _ => flow.scanComplete && (flow.shown.passes input).isNone
  | _, _ => false

/-- What a step of a flow looks at, with the IDs that it takes as set up. -/
def System.looks (s : System) : Event → Option (ℕ × List PyStr × List ServiceInfo)
  | .configure i input cached =>
      (s.flow i).bind fun flow =>
        if flow.collects input then some (i, currentIds s.entries, cached) else none
  | .heard i info =>
      s.flows[i]?.bind fun flow =>
        match flow.scanTask with
        | .waiting ids => some (i, ids, [info])
        | _ => none
  | _ => none

/-- Flow `i` has looked at the advertisement, with the IDs that were set up when it looked, or
when the scan began that heard it. -/
def Looked (past : System → Event → Prop) (i : ℕ) (ids : List PyStr) (info : ServiceInfo) : Prop :=
  (∃ u e infos, past u e ∧ u.looks e = some (i, ids, infos) ∧ info ∈ infos) ∧
    ∃ u e infos, past u e ∧ u.looks e = some (i, ids, infos) ∧ ids = currentIds u.entries

section Runs

variable {unicode : UnicodeTables} {past : System → Event → Prop} {s s' : System} {i : ℕ}
  {flow flow' : Flow} {e : Event}

/-- The choices of flow `i` are what it has looked at. -/
structure Sees (unicode : UnicodeTables) (past : System → Event → Prop) (i : ℕ) (flow : Flow) :
    Prop where
  once : flow.choices.Nodup
  seen : ∀ choice ∈ flow.discovered, ∃ ids info, Looked past i ids info ∧
    isSupported unicode info = true ∧
    choice = (normalizeAddress unicode info.address, discoveryTitle info) ∧ choice.1 ∉ ids
  all : ∀ u e ids infos info, past u e → u.looks e = some (i, ids, infos) → info ∈ infos →
    isSupported unicode info = true →
    normalizeAddress unicode info.address ∈ ids ∨
      normalizeAddress unicode info.address ∈ flow.choices
  ids : ∀ ids, flow.scanTask = .waiting ids →
    ∃ u e infos, past u e ∧ u.looks e = some (i, ids, infos) ∧ ids = currentIds u.entries
  form : ∀ choices, flow.shown = .addressForm choices →
    choices = flow.choices ∧ flow.scanComplete = true
  complete : flow.scanComplete = true → flow.scanTask = .notStarted ∧ flow.shown.next ≠ some .scan

/-- A flow that has looked at an advertisement has looked at it ever after. -/
theorem Looked.since {ids : List PyStr} {info : ServiceInfo} (h : Looked past i ids info)
    (u : System) (e : Event) : Looked (StepRuns.since past u e) i ids info := by
  obtain ⟨⟨v, a, infos, hpast, hlooks, hinfo⟩, w, b, infos', hpast', hlooks', hids⟩ := h
  exact ⟨⟨v, a, infos, Or.inl hpast, hlooks, hinfo⟩, w, b, infos', Or.inl hpast', hlooks', hids⟩

/-- A step in which the flow does not look at anything.  Its devices are as before, so what it has
seen and what it offers do not change either. -/
theorem Sees.stays (h : Sees unicode past i flow)
    (hnot : ∀ ids infos, s.looks e ≠ some (i, ids, infos))
    (hdiscovered : flow'.discovered = flow.discovered)
    (hscan : ∀ ids, flow'.scanTask = .waiting ids → flow.scanTask = .waiting ids)
    (hform : ∀ choices, flow'.shown = .addressForm choices →
      choices = flow'.choices ∧ flow'.scanComplete = true)
    (hcomplete : flow'.scanComplete = true →
      flow'.scanTask = .notStarted ∧ flow'.shown.next ≠ some .scan) :
    Sees unicode (StepRuns.since past s e) i flow' := by
  have hchoices : flow'.choices = flow.choices := congrArg (List.map Prod.fst) hdiscovered
  refine ⟨hchoices ▸ h.once, fun choice hmem => ?_, fun u a ids infos info hpast hlooks hinfo => ?_,
    fun ids hwaits => ?_, hform, hcomplete⟩
  · obtain ⟨ids, info, hlooked, hrest⟩ := h.seen choice (hdiscovered ▸ hmem)
    exact ⟨ids, info, hlooked.since s e, hrest⟩
  · rw [hchoices]
    rcases hpast with hpast | ⟨rfl, rfl⟩
    · exact h.all u a ids infos info hpast hlooks hinfo
    · exact absurd hlooks (hnot ids infos)
  · obtain ⟨u, a, infos, hpast, hrest⟩ := h.ids ids (hscan ids hwaits)
    exact ⟨u, a, infos, Or.inl hpast, hrest⟩

/-- A step in which the flow looks at something: the devices that it knows are those seen before,
with those of this look that are not configured. -/
theorem Sees.looks (h : Sees unicode past i flow) {ids : List PyStr} {infos : List ServiceInfo}
    (hlooks : s.looks e = some (i, ids, infos))
    (hids : ids = currentIds s.entries ∨ flow.scanTask = .waiting ids)
    (hdiscovered : flow'.discovered = collectCached unicode ids infos flow.discovered)
    (hscan : ∀ ids', flow'.scanTask = .waiting ids' → ids' = ids)
    (hform : ∀ choices, flow'.shown = .addressForm choices →
      choices = flow'.choices ∧ flow'.scanComplete = true)
    (hcomplete : flow'.scanComplete = true →
      flow'.scanTask = .notStarted ∧ flow'.shown.next ≠ some .scan) :
    Sees unicode (StepRuns.since past s e) i flow' := by
  have hchoices : flow'.choices =
      (collectCached unicode ids infos flow.discovered).map Prod.fst :=
    congrArg (List.map Prod.fst) hdiscovered
  have hbegan : ∃ u a infos, StepRuns.since past s e u a ∧ u.looks a = some (i, ids, infos) ∧
      ids = currentIds u.entries := by
    rcases hids with hids | hwaits
    · exact ⟨s, e, infos, Or.inr ⟨rfl, rfl⟩, hlooks, hids⟩
    · obtain ⟨u, a, infos, hpast, hrest⟩ := h.ids ids hwaits
      exact ⟨u, a, infos, Or.inl hpast, hrest⟩
  refine ⟨?_, fun choice hmem => ?_, fun u a ids' infos' info hpast hlooked hinfo hsupported => ?_,
    fun ids' hwaits => ?_, hform, hcomplete⟩
  · rw [hchoices]
    exact collectCached_nodup infos h.once
  · rw [hdiscovered] at hmem
    rcases mem_collectCached hmem with hold | ⟨info, hinfo, hrest⟩
    · obtain ⟨ids', info, hlooked, hrest⟩ := h.seen choice hold
      exact ⟨ids', info, hlooked.since s e, hrest⟩
    · exact ⟨ids, info, ⟨⟨s, e, infos, Or.inr ⟨rfl, rfl⟩, hlooks, hinfo⟩, hbegan⟩, hrest⟩
  · rw [hchoices]
    rcases hpast with hpast | ⟨rfl, rfl⟩
    · rcases h.all u a ids' infos' info hpast hlooked hinfo hsupported with hknown | hold
      · exact Or.inl hknown
      · exact Or.inr (List.map_subset _ (collectCached_mono _ infos) hold)
    · obtain ⟨rfl, rfl⟩ : ids = ids' ∧ infos = infos' := by
        simpa using hlooks.symm.trans hlooked
      exact collectCached_adds _ hinfo hsupported
  · obtain rfl := hscan ids' hwaits
    exact hbegan

/-- A step of a flow looks at the cache where it collects. -/
theorem looks_configure (input : Option Input) (cached : List ServiceInfo)
    (hflow : s.flow i = some flow) :
    s.looks (.configure i input cached) =
      if flow.collects input = true then some (i, currentIds s.entries, cached) else none := by
  simp [System.looks, hflow]

/-- It looks at nothing where it does not. -/
theorem not_looks_configure (input : Option Input) (cached : List ServiceInfo)
    (hflow : s.flow i = some flow) (hcollects : flow.collects input = false) :
    ∀ ids infos, s.looks (.configure i input cached) ≠ some (i, ids, infos) := by
  intro ids infos hsome
  rw [looks_configure input cached hflow, if_neg (by simp [hcollects])] at hsome
  exact absurd hsome (by simp)

/-- The scan begins, goes on or is over.  It looks at the cache when it begins, with the IDs of
that moment, and not again. -/
theorem Sees.scan (h : Sees unicode past i flow) {input : Option Input}
    {cached : List ServiceInfo} (hflow : s.flow i = some flow)
    (hopen : flow.scanComplete = false)
    (hcollects : flow.collects input = true ↔ flow.scanTask = .notStarted) :
    Sees unicode (StepRuns.since past s (.configure i input cached)) i
      { (asyncStepScan unicode s.entries cached flow).1 with
        shown := (asyncStepScan unicode s.entries cached flow).2 } := by
  have hlooks := looks_configure input cached hflow
  cases htask : flow.scanTask with
  | notStarted =>
      rw [if_pos (hcollects.mpr htask)] at hlooks
      unfold asyncStepScan scanForDevices
      rw [htask]
      dsimp only
      split
      · exact h.looks hlooks (Or.inl rfl) rfl (by simp) (by simp) (by simp [FlowResult.next])
      · refine h.looks hlooks (Or.inl rfl) rfl (fun ids hwaits => ?_) (by simp) (by simp [hopen])
        dsimp only at hwaits
        split at hwaits
        · exact (ScanTask.waiting.inj hwaits).symm
        · exact absurd hwaits (by simp)
  | waiting ids =>
      have hnot := not_looks_configure input cached hflow
        (Bool.eq_false_of_not_eq_true fun hboth => absurd (hcollects.mp hboth) (by simp [htask]))
      unfold asyncStepScan
      rw [htask]
      dsimp only
      rw [htask]
      exact h.stays hnot rfl (fun _ hwaits => hwaits) (by simp) (by simp [hopen])
  | done =>
      have hnot := not_looks_configure input cached hflow
        (Bool.eq_false_of_not_eq_true fun hboth => absurd (hcollects.mp hboth) (by simp [htask]))
      unfold asyncStepScan
      rw [htask]
      dsimp only
      rw [htask]
      exact h.stays hnot rfl (by simp) (by simp) (by simp [FlowResult.next])

/-- A step of a flow: the scan, the address form or the confirmation.  The cache is looked at when
a scan begins, and before the form that follows it. -/
theorem Sees.turn (h : Sees unicode past i flow) {input : Option Input}
    {cached : List ServiceInfo} {step : Step} (hflow : s.flow i = some flow)
    (hnext : flow.shown.next = some step) :
    Sees unicode (StepRuns.since past s (.configure i input cached)) i
      { (runStep unicode s.entries cached (flow.shown.passes input) flow step).1 with
        shown := (runStep unicode s.entries cached (flow.shown.passes input) flow step).2 } := by
  have hlooks := looks_configure input cached hflow
  cases step with
  | bluetoothConfirm =>
      have hnot := not_looks_configure input cached hflow
        (by simp [Flow.collects, hnext])
      have hcomplete : flow.scanComplete = true → flow.scanTask = .notStarted := fun hdone =>
        (h.complete hdone).1
      simp only [runStep, asyncStepBluetoothConfirm]
      split
      · exact h.stays hnot rfl (fun _ hwaits => hwaits) h.form h.complete
      · exact h.stays hnot rfl (fun _ hwaits => hwaits) (by simp)
          (fun hdone => ⟨hcomplete hdone, by simp [FlowResult.next]⟩)
      · exact h.stays hnot rfl (fun _ hwaits => hwaits) (by simp)
          (fun hdone => ⟨hcomplete hdone, by simp [FlowResult.next]⟩)
  | scan =>
      have hopen : flow.scanComplete = false := by
        apply Bool.eq_false_of_not_eq_true
        intro hdone
        exact (h.complete hdone).2 hnext
      refine h.scan hflow hopen ?_
      cases htask : flow.scanTask <;> simp [Flow.collects, hnext, htask]
  | ble =>
      cases hpassed : flow.shown.passes input with
      | some passed =>
          have hnot := not_looks_configure input cached hflow
            (by cases htask : flow.scanTask <;> simp [Flow.collects, hnext, htask, hpassed])
          have hcomplete : flow.scanComplete = true → flow.scanTask = .notStarted := fun hdone =>
            (h.complete hdone).1
          cases passed with
          | other =>
              -- `KeyError`: the flow stays
              exact h.stays hnot rfl (fun _ hwaits => hwaits) h.form h.complete
          | entered entered =>
              simp only [runStep, asyncStepBle]
              split
              · exact h.stays hnot rfl (fun _ hwaits => hwaits) (by simp)
                  (fun hdone => ⟨hcomplete hdone, by simp [FlowResult.next]⟩)
              · exact h.stays hnot rfl (fun _ hwaits => hwaits) (by simp)
                  (fun hdone => ⟨hcomplete hdone, by simp [FlowResult.next]⟩)
      | none =>
          cases hdone : flow.scanComplete with
          | true =>
              have htask := (h.complete hdone).1
              have hcollects : flow.collects input = true := by
                simp [Flow.collects, hnext, htask, hpassed]
              rw [if_pos hcollects] at hlooks
              simp only [runStep, asyncStepBle, hdone, if_true]
              refine h.looks hlooks (Or.inl rfl) rfl (by simp [htask]) ?_ ?_
              · intro choices hform
                exact ⟨(FlowResult.addressForm.inj hform).symm, rfl⟩
              · exact fun _ => ⟨htask, by simp [FlowResult.next]⟩
          | false =>
              simp only [runStep, asyncStepBle, hdone]
              refine h.scan hflow hdone ?_
              cases htask : flow.scanTask <;> simp [Flow.collects, hnext, htask, hdone, hpassed]

/-- A flow that takes no part in a step. -/
theorem Sees.other (h : Sees unicode past i flow)
    (hnot : ∀ ids infos, s.looks e ≠ some (i, ids, infos)) (removed : Bool) :
    Sees unicode (StepRuns.since past s e) i { flow with removed } :=
  h.stays hnot rfl (fun _ hwaits => hwaits) h.form h.complete

/-- A scan is under way only while there is no form. -/
theorem Sees.scanning (h : Sees unicode past i flow) {ids : List PyStr}
    (hwaits : flow.scanTask = .waiting ids) :
    flow.scanComplete = false ∧ ∀ choices, flow.shown ≠ .addressForm choices := by
  have hopen : flow.scanComplete = false := by
    apply Bool.eq_false_of_not_eq_true
    intro hdone
    exact absurd ((h.complete hdone).1.symm.trans hwaits) (by simp)
  refine ⟨hopen, fun choices hshown => ?_⟩
  exact absurd ((h.form choices hshown).2.symm.trans hopen) (by simp)

/-- What the flows of a system offer. -/
structure System.Seen (unicode : UnicodeTables) (past : System → Event → Prop) (s : System) :
    Prop where
  born : ∀ u e i ids infos, past u e → u.looks e = some (i, ids, infos) → i < s.flows.length
  flows : ∀ (i : ℕ) (flow : Flow), s.flows[i]? = some flow → Sees unicode past i flow

/-- Only a flow that there is looks at anything.  An advertisement is heard by the scans that wait,
which are flows too. -/
theorem looks_lt {ids : List PyStr} {infos : List ServiceInfo}
    (h : s.looks e = some (i, ids, infos)) : i < s.flows.length := by
  unfold System.looks at h
  split at h
  · obtain ⟨flow, hflow, hrest⟩ := Option.bind_eq_some_iff.mp h
    split at hrest
    · obtain ⟨rfl, _⟩ := Prod.mk.inj (Option.some.inj hrest)
      exact (List.getElem?_eq_some_iff.mp (System.flow_some hflow).1).1
    · exact absurd hrest (by simp)
  · obtain ⟨flow, hflow, hrest⟩ := Option.bind_eq_some_iff.mp h
    split at hrest
    · obtain ⟨rfl, _⟩ := Prod.mk.inj (Option.some.inj hrest)
      exact (List.getElem?_eq_some_iff.mp hflow).1
    · exact absurd hrest (by simp)
  · exact absurd h (by simp)

namespace System

/-- No flow has looked at anything before it began. -/
theorem Seen.born_since (h : s.Seen unicode past) (hlength : s.flows.length ≤ s'.flows.length) :
    ∀ u a i ids infos, StepRuns.since past s e u a → u.looks a = some (i, ids, infos) →
      i < s'.flows.length := by
  intro u a i ids infos hpast hlooks
  rcases hpast with hpast | ⟨rfl, rfl⟩
  · exact (h.born u a i ids infos hpast hlooks).trans_le hlength
  · exact (looks_lt hlooks).trans_le hlength

/-- A new flow has looked at nothing.  It knows no device and offers none, and the other flows are
as before. -/
theorem Seen.new (h : s.Seen unicode past) (flow : Flow)
    (hnot : ∀ i ids infos, s.looks e ≠ some (i, ids, infos))
    (hflows : s'.flows = s.flows ++ [flow]) (hdiscovered : flow.discovered = [])
    (htask : flow.scanTask = .notStarted) (hopen : flow.scanComplete = false)
    (hform : ∀ choices, flow.shown ≠ .addressForm choices) :
    s'.Seen unicode (StepRuns.since past s e) := by
  refine ⟨h.born_since (by simp [hflows]), fun i flow' hi => ?_⟩
  rw [hflows, List.getElem?_append] at hi
  split at hi
  · have hold := (h.flows i flow' hi).other (hnot i) flow'.removed
    exact hold
  · rename_i hlast
    obtain rfl := List.mem_singleton.mp (List.mem_of_getElem? hi)
    have hnothing : ∀ u a ids infos, StepRuns.since past s e u a →
        u.looks a ≠ some (i, ids, infos) := by
      intro u a ids infos hpast hlooks
      rcases hpast with hpast | ⟨rfl, rfl⟩
      · exact hlast (h.born u a i ids infos hpast hlooks)
      · exact hnot i ids infos hlooks
    refine ⟨by simp [Flow.choices, hdiscovered], by simp [hdiscovered],
      fun u a ids infos info hpast hlooks => absurd hlooks (hnothing u a ids infos hpast),
      by simp [htask], fun choices hshown => absurd hshown (hform choices), by simp [hopen]⟩

/-- The flows after one of them has changed; any may have been removed. -/
theorem Seen.changed (h : s.Seen unicode past) {turned : Flow}
    (hlength : s'.flows.length = s.flows.length)
    (hflows : ∀ (j : ℕ) (flow' : Flow), s'.flows[j]? = some flow' →
      j = i ∧ flow' = { turned with removed := flow'.removed } ∨
        j ≠ i ∧ ∃ old, s.flows[j]? = some old ∧ flow' = { old with removed := flow'.removed })
    (hnot : ∀ j ids infos, j ≠ i → s.looks e ≠ some (j, ids, infos))
    (hturned : Sees unicode (StepRuns.since past s e) i turned) :
    s'.Seen unicode (StepRuns.since past s e) := by
  refine ⟨h.born_since hlength.ge, fun j flow' hj => ?_⟩
  rcases hflows j flow' hj with ⟨rfl, heq⟩ | ⟨hne, old, hold, heq⟩
  · rw [heq]
    exact ⟨hturned.once, hturned.seen, hturned.all, hturned.ids, hturned.form, hturned.complete⟩
  · rw [heq]
    exact (h.flows j old hold).other (fun ids infos => hnot j ids infos hne) flow'.removed

/-- Changing one flow leaves the others. -/
theorem set_flows {turned : Flow} (j : ℕ) (flow' : Flow)
    (hj : (s.flows.set i turned)[j]? = some flow') :
    j = i ∧ flow' = { turned with removed := flow'.removed } ∨
      j ≠ i ∧ ∃ old, s.flows[j]? = some old ∧ flow' = { old with removed := flow'.removed } := by
  rw [List.getElem?_set] at hj
  split at hj
  · rename_i hij
    split at hj
    · obtain rfl := Option.some.inj hj
      exact Or.inl ⟨hij.symm, rfl⟩
    · exact absurd hj (by simp)
  · rename_i hij
    exact Or.inr ⟨fun h => hij h.symm, flow', hj, rfl⟩

/-- A new entry ends flows, and leaves what they have collected. -/
theorem add_flows {entry : Entry} (j : ℕ) (flow' : Flow)
    (hj : (s.add entry).flows[j]? = some flow') :
    ∃ old, s.flows[j]? = some old ∧ flow' = { old with removed := flow'.removed } := by
  obtain ⟨old, hold, rfl⟩ := Option.map_eq_some_iff.mp ((List.getElem?_map ..).symm.trans hj)
  refine ⟨old, hold, ?_⟩
  split <;> rfl

/-- Finishing a step changes the flow that took it; of the others, some end.  Those that end keep
all the rest that they had. -/
theorem finish_flows {turn : Flow × FlowResult} (j : ℕ) (flow' : Flow)
    (hj : (s.finish i turn).flows[j]? = some flow') :
    j = i ∧ flow' = { turn.1 with shown := turn.2, removed := flow'.removed } ∨
      j ≠ i ∧ ∃ old, s.flows[j]? = some old ∧ flow' = { old with removed := flow'.removed } := by
  unfold finish at hj
  dsimp only at hj
  split at hj
  · rename_i data hcreated
    rcases set_flows (s := s.add ⟨turn.1.uniqueId, false, some data⟩) j flow' hj with
      hsame | ⟨hne, added, hadded, heq⟩
    · exact Or.inl hsame
    · obtain ⟨old, hold, heq'⟩ := add_flows j added hadded
      exact Or.inr ⟨hne, old, hold, by rw [heq, heq']⟩
  · exact set_flows j flow' hj
  · exact set_flows j flow' hj

/-- Finishing a step starts no flow. -/
theorem finish_length (i : ℕ) (turn : Flow × FlowResult) (s : System) :
    (s.finish i turn).flows.length = s.flows.length := by
  unfold finish
  dsimp only
  split <;> simp [System.add]

/-- **One step** keeps the choices to what was seen.  The event is that of a flow that looks, of
one that does not, or no flow's at all. -/
theorem Seen.step (h : s.Seen unicode past) (hstep : s.step unicode e = some s') :
    s'.Seen unicode (StepRuns.since past s e) := by
  have hsame : (∀ i ids infos, s.looks e ≠ some (i, ids, infos)) → s'.flows = s.flows →
      s'.Seen unicode (StepRuns.since past s e) := by
    intro hnot hflows
    refine ⟨h.born_since (by rw [hflows]), fun i flow hi => ?_⟩
    exact (h.flows i flow (hflows ▸ hi)).other (hnot i) flow.removed
  cases e with
  | discovered info =>
      obtain rfl := Option.some.inj hstep
      have hnot : ∀ i ids infos, s.looks (.discovered info) ≠ some (i, ids, infos) := by
        simp [System.looks]
      by_cases hgoes : (!isSupported unicode info ||
          s.inProgress (normalizeAddress unicode info.address) ||
          configured s.entries
            { discoveryInfo := some info
              uniqueId := some (normalizeAddress unicode info.address)
              shown := .confirm }) = true
      · exact hsame hnot (by simp only [asyncStepBluetooth, if_pos hgoes])
      · refine h.new
          { discoveryInfo := some info
            uniqueId := some (normalizeAddress unicode info.address)
            shown := .confirm } hnot ?_ rfl rfl rfl (by simp)
        simp only [asyncStepBluetooth, if_neg hgoes]
  | startUser =>
      obtain rfl := Option.some.inj hstep
      exact h.new { isUser := true } (by simp [System.looks]) rfl rfl rfl rfl (by simp)
  | configure i input cached =>
      obtain ⟨flow, hflow, hrest⟩ := Option.bind_eq_some_iff.mp hstep
      obtain ⟨step, hnext, hrest⟩ := Option.bind_eq_some_iff.mp hrest
      split at hrest
      · obtain rfl := Option.some.inj hrest
        have hsees := h.flows i flow (flow_some hflow).1
        refine h.changed (finish_length i _ s) finish_flows (fun j ids infos hne hlooks => ?_)
          (hsees.turn hflow hnext)
        rw [looks_configure input cached hflow] at hlooks
        split at hlooks
        · exact hne (Prod.mk.inj (Option.some.inj hlooks)).1.symm
        · exact absurd hlooks (by simp)
      · exact absurd hrest (by simp)
  | heard i info =>
      obtain ⟨flow, hi, hrest⟩ := Option.bind_eq_some_iff.mp hstep
      split at hrest
      · rename_i ids hwaits
        obtain rfl := Option.some.inj hrest
        have hsees := h.flows i flow hi
        have hlooks : s.looks (.heard i info) = some (i, ids, [info]) := by
          simp [System.looks, hi, hwaits]
        obtain ⟨hopen, hform⟩ := hsees.scanning hwaits
        refine h.changed (by simp) set_flows (fun j ids' infos hne hother => ?_)
          (hsees.looks hlooks (Or.inr hwaits) rfl ?_ ?_ ?_)
        · exact hne (Prod.mk.inj (Option.some.inj (hother.symm.trans hlooks))).1
        · exact fun ids' hwaits' => ScanTask.waiting.inj (hwaits'.symm.trans hwaits)
        · exact fun choices hshown => absurd hshown (hform choices)
        · exact fun hdone => absurd (hdone.symm.trans hopen) (by simp)
      · exact absurd hrest (by simp)
  | scanEnded i =>
      obtain ⟨flow, hi, hrest⟩ := Option.bind_eq_some_iff.mp hstep
      split at hrest
      · rename_i ids hwaits
        obtain rfl := Option.some.inj hrest
        have hsees := h.flows i flow hi
        have hnot : ∀ j ids infos, s.looks (.scanEnded i) ≠ some (j, ids, infos) := by
          simp [System.looks]
        obtain ⟨hopen, hform⟩ := hsees.scanning hwaits
        refine h.changed (by simp) set_flows (fun j ids' infos _ => hnot j ids' infos)
          (hsees.stays (hnot i) rfl (by simp) ?_ ?_)
        · exact fun choices hshown => absurd hshown (hform choices)
        · exact fun hdone => absurd (hdone.symm.trans hopen) (by simp)
      · exact absurd hrest (by simp)
  | flowRemoved i =>
      obtain ⟨flow, hi, rfl⟩ := Option.map_eq_some_iff.mp hstep
      have hnot : ∀ j ids infos, s.looks (.flowRemoved i) ≠ some (j, ids, infos) := by
        simp [System.looks]
      exact h.changed (by simp) set_flows (fun j ids infos _ => hnot j ids infos)
        ((h.flows i flow hi).other (hnot i) true)
  | entryAdded uniqueId ignored =>
      simp only [System.step] at hstep
      split at hstep
      · exact absurd hstep (by simp)
      · obtain rfl := Option.some.inj hstep
        have hnot : ∀ i ids infos,
            s.looks (.entryAdded uniqueId ignored) ≠ some (i, ids, infos) := by
          simp [System.looks]
        refine ⟨h.born_since (by simp [System.add]), fun j flow hj => ?_⟩
        obtain ⟨old, hold, heq⟩ := add_flows j flow hj
        rw [heq]
        exact (h.flows j old hold).other (hnot j) flow.removed
  | entryRemoved uniqueId =>
      obtain rfl := Option.some.inj hstep
      exact hsame (by simp [System.looks]) rfl

/-- **The user picks what the flow has seen.**  In every run, the form of a flow has, each once,
exactly the addresses of the advertisements that look like a Birdie and that the flow has looked
at, cached or heard during its scan, but for those that were set up then. -/
theorem choices_seen {entries : List Entry} {as : List Event} {s : System} {i : ℕ} {flow : Flow}
    {choices : List PyStr} (hrun : Run (System.step unicode) Anything { entries } as s)
    (hi : s.flows[i]? = some flow) (hform : flow.shown = .addressForm choices) :
    choices.Nodup ∧
      (∀ address ∈ choices, ∃ ids info,
        Looked (Happened (System.step unicode) { entries } as) i ids info ∧
          isSupported unicode info = true ∧ address = normalizeAddress unicode info.address ∧
          address ∉ ids) ∧
      ∀ ids info, Looked (Happened (System.step unicode) { entries } as) i ids info →
        isSupported unicode info = true →
        normalizeAddress unicode info.address ∈ ids ∨
          normalizeAddress unicode info.address ∈ choices := by
  have hstart : Seen unicode (fun _ _ => False) { entries } := ⟨by simp, by simp⟩
  have h := hrun.history (Seen unicode) (fun _ _ _ _ hinv _ hstep => hinv.step hstep) hstart
  have hsees := h.flows i flow hi
  obtain ⟨rfl, _⟩ := hsees.form choices hform
  refine ⟨hsees.once, fun address hmem => ?_, fun ids info hlooked hsupported => ?_⟩
  · obtain ⟨choice, hchoice, rfl⟩ := List.mem_map.mp hmem
    obtain ⟨ids, info, hlooked, hsupported, heq, hfree⟩ := hsees.seen choice hchoice
    exact ⟨ids, info, hlooked, hsupported, congrArg Prod.fst heq, hfree⟩
  · obtain ⟨⟨u, e, infos, hpast, hlooks, hinfo⟩, _⟩ := hlooked
    exact hsees.all u e ids infos info hpast hlooks hinfo hsupported

end System

end Runs

/-- The form has the one address, of the Birdie Pro that was cached. -/
theorem choices_seen_picked :
    ∃ (s : System) (flow : Flow), Run (System.step asciiTables) Anything {} pickEvents s ∧
      s.flows[1]? = some flow ∧ flow.shown = .addressForm [py "AA:BB:CC:11:22:33"] ∧
      ∃ ids info, Looked (Happened (System.step asciiTables) {} pickEvents) 1 ids info ∧
        isSupported asciiTables info = true ∧
        py "AA:BB:CC:11:22:33" = normalizeAddress asciiTables info.address ∧
        py "AA:BB:CC:11:22:33" ∉ ids := by
  let execution := exec (System.step asciiTables) {} pickEvents
  obtain ⟨s, hs⟩ := Option.isSome_iff_exists.mp (show execution.isSome = true by decide)
  have hfacts : ∀ s ∈ execution, ∃ flow ∈ s.flows[1]?,
      flow.shown = .addressForm [py "AA:BB:CC:11:22:33"] := by decide
  obtain ⟨flow, hflow, hshown⟩ := hfacts s hs
  obtain ⟨_, hseen, _⟩ := System.choices_seen (Run.of_exec hs) hflow hshown
  exact ⟨s, flow, Run.of_exec hs, hflow, hshown, hseen _ (by simp)⟩

end BleFlow
