import HaBirdie.ConfigFlow

/-!
# Config entries with unique IDs

Entries come and go, and their data changes, but no two share an entry ID or a unique ID, and
the entry of a purifier has its device ID as its unique ID (`Registry.Sound`).  An entry keeps its
device ID as long as it lives, and its entry ID is not used again (`Registry.Keeps`), so that what
a step found out about an entry before an await is true behind it.

That the unique IDs differ rests on Home Assistant, which lets an entry that is added take the
place of one with its unique ID and never uses an entry ID again; both are built into
`Registry.add`, and assumed of it (see `ConfigFlow`).
-/

namespace ConfigFlow

open Python
open Lan (DeviceConfig)

variable {r r' : Registry} {flow : Flow}

/-- No two entries share an ID, and a purifier's entry has its device ID as its unique ID. -/
structure Registry.Sound (r : Registry) : Prop where
  ids : ∀ e ∈ r.entries, e.entryId < r.nextId
  entryIds : ∀ e ∈ r.entries, ∀ e' ∈ r.entries, e.entryId = e'.entryId → e = e'
  uniqueIds : ∀ e ∈ r.entries, ∀ e' ∈ r.entries, ∀ id, e.uniqueId = some id →
    e'.uniqueId = some id → e = e'
  deviceIds : ∀ e ∈ r.entries, ∀ id, e.data.deviceId = some id →
    e.uniqueId = some id ∧ e.ignored = false

/-- Entries keep their device ID, and entry IDs are not used again. -/
structure Registry.Keeps (r r' : Registry) : Prop where
  next : r.nextId ≤ r'.nextId
  old : ∀ e' ∈ r'.entries, e'.entryId < r.nextId →
    ∃ e ∈ r.entries, e.entryId = e'.entryId ∧ e.data.deviceId = e'.data.deviceId

/-- The ID is no entry's: none has it in its data, and only an ignored one as its unique ID. -/
def Registry.Free (r : Registry) (deviceId : PyStr) : Prop :=
  ∀ e ∈ r.entries, e.data.deviceId ≠ some deviceId ∧ (e.uniqueId = some deviceId → e.ignored = true)

/-- The entry, while there is one, has the ID that is checked. -/
def Registry.Has (r : Registry) (entryId : ℕ) (config : DeviceConfig) : Prop :=
  entryId < r.nextId ∧
    ∀ e ∈ r.entries, e.entryId = entryId → e.data.deviceId = some config.deviceId

/-- Nothing changes where nothing happens. -/
theorem Registry.Keeps.refl (r : Registry) : r.Keeps r := ⟨le_rfl, fun e he _ => ⟨e, he, rfl, rfl⟩⟩

/-- Entries keep their IDs over several steps. -/
theorem Registry.Keeps.trans {r'' : Registry} (h : r.Keeps r') (h' : r'.Keeps r'') :
    r.Keeps r'' := by
  refine ⟨h.next.trans h'.next, fun e'' he'' hlt => ?_⟩
  obtain ⟨e', he', hid', hdevice'⟩ := h'.old e'' he'' (hlt.trans_le h.next)
  obtain ⟨e, he, hid, hdevice⟩ := h.old e' he' (by omega)
  exact ⟨e, he, hid.trans hid', hdevice.trans hdevice'⟩

/-- What a step found out about an entry before an await holds behind it, if there is the entry
still. -/
theorem Registry.Has.keeps {entryId : ℕ} {config : DeviceConfig} (h : r.Has entryId config)
    (hkeeps : r.Keeps r') : r'.Has entryId config := by
  refine ⟨h.1.trans_le hkeeps.next, fun e' he' hid => ?_⟩
  obtain ⟨e, he, heid, hdevice⟩ := hkeeps.old e' he' (by rw [hid]; exact h.1)
  rw [← hdevice]
  exact h.2 e he (heid.trans hid)

/-- The entry of an update. -/
theorem Registry.mem_update {entryId : ℕ} {change : EntryData → EntryData} {e' : Entry}
    (h : e' ∈ (r.update entryId change).entries) :
    ∃ e ∈ r.entries, e' = if e.entryId = entryId then { e with data := change e.data } else e := by
  obtain ⟨e, he, rfl⟩ := List.mem_map.mp h
  exact ⟨e, he, rfl⟩

/-- An update that keeps the device ID keeps the entries sound. -/
theorem Registry.Sound.update (hr : r.Sound) (entryId : ℕ) {change : EntryData → EntryData}
    (hchange : ∀ data, (change data).deviceId = data.deviceId) :
    (r.update entryId change).Sound ∧ r.Keeps (r.update entryId change) := by
  have hfields : ∀ e : Entry,
      (if e.entryId = entryId then { e with data := change e.data } else e).entryId = e.entryId ∧
      (if e.entryId = entryId then { e with data := change e.data } else e).uniqueId =
        e.uniqueId ∧
      (if e.entryId = entryId then { e with data := change e.data } else e).ignored =
        e.ignored ∧
      (if e.entryId = entryId then { e with data := change e.data } else e).data.deviceId =
        e.data.deviceId := by
    intro e
    split
    · exact ⟨rfl, rfl, rfl, hchange e.data⟩
    · exact ⟨rfl, rfl, rfl, rfl⟩
  constructor
  · constructor
    · intro e' he'
      obtain ⟨e, he, rfl⟩ := mem_update he'
      rw [(hfields e).1]
      exact hr.ids e he
    · intro e₁ he₁ e₂ he₂ hid
      obtain ⟨d₁, hd₁, rfl⟩ := mem_update he₁
      obtain ⟨d₂, hd₂, rfl⟩ := mem_update he₂
      rw [(hfields d₁).1, (hfields d₂).1] at hid
      rw [hr.entryIds d₁ hd₁ d₂ hd₂ hid]
    · intro e₁ he₁ e₂ he₂ id hid₁ hid₂
      obtain ⟨d₁, hd₁, rfl⟩ := mem_update he₁
      obtain ⟨d₂, hd₂, rfl⟩ := mem_update he₂
      rw [(hfields _).2.1] at hid₁ hid₂
      rw [hr.uniqueIds d₁ hd₁ d₂ hd₂ id hid₁ hid₂]
    · intro e' he' id hid
      obtain ⟨e, he, rfl⟩ := mem_update he'
      rw [(hfields e).2.2.2] at hid
      rw [(hfields e).2.1, (hfields e).2.2.1]
      exact hr.deviceIds e he id hid
  · refine ⟨le_rfl, fun e' he' _ => ?_⟩
    obtain ⟨e, he, rfl⟩ := mem_update he'
    exact ⟨e, he, (hfields e).1.symm, (hfields e).2.2.2.symm⟩

/-- An entry after another was added: the new one, or an old one with another unique ID. -/
theorem Registry.mem_add {uniqueId : Option PyStr} {ignored : Bool} {data : EntryData}
    {e : Entry} (h : e ∈ (r.add uniqueId ignored data).entries) :
    e = ⟨r.nextId, uniqueId, ignored, data⟩ ∨
      e ∈ r.entries ∧ ∀ id, uniqueId = some id → e.uniqueId ≠ some id := by
  rcases List.mem_append.mp h with h | h
  · obtain ⟨he, hid⟩ := List.mem_filter.mp h
    refine Or.inr ⟨he, ?_⟩
    intro id heq
    obtain rfl := heq
    simpa using hid
  · exact Or.inl (List.mem_singleton.mp h)

/-- A new entry takes the place of one with its unique ID, so the unique IDs stay different; its
entry ID is new. -/
theorem Registry.Sound.add (hr : r.Sound) {uniqueId : Option PyStr} {ignored : Bool}
    {data : EntryData}
    (hdata : ∀ id, data.deviceId = some id → uniqueId = some id ∧ ignored = false) :
    (r.add uniqueId ignored data).Sound ∧ r.Keeps (r.add uniqueId ignored data) := by
  constructor
  · constructor
    · intro e he
      rcases mem_add he with rfl | ⟨he, _⟩
      · exact Nat.lt_succ_self _
      · exact (hr.ids e he).trans (Nat.lt_succ_self _)
    · intro e he e' he' hid
      rcases mem_add he with rfl | ⟨he, _⟩ <;> rcases mem_add he' with rfl | ⟨he', _⟩
      · rfl
      · exact absurd (hr.ids e' he') (by rw [← hid]; simp)
      · exact absurd (hr.ids e he) (by rw [hid]; simp)
      · exact hr.entryIds e he e' he' hid
    · intro e he e' he' id hid hid'
      rcases mem_add he with rfl | ⟨he, hother⟩ <;> rcases mem_add he' with rfl | ⟨he', hother'⟩
      · rfl
      · exact absurd hid' (hother' id hid)
      · exact absurd hid (hother id hid')
      · exact hr.uniqueIds e he e' he' id hid hid'
    · intro e he id hid
      rcases mem_add he with rfl | ⟨he, _⟩
      · exact hdata id hid
      · exact hr.deviceIds e he id hid
  · refine ⟨Nat.le_succ _, fun e he hlt => ?_⟩
    rcases mem_add he with rfl | ⟨he, _⟩
    · exact absurd hlt (by simp)
    · exact ⟨e, he, rfl, rfl⟩

/-- Removing an entry keeps the others sound. -/
theorem Registry.Sound.remove (hr : r.Sound) (entryId : ℕ) :
    (r.remove entryId).Sound ∧ r.Keeps (r.remove entryId) := by
  have hmem : ∀ e ∈ (r.remove entryId).entries, e ∈ r.entries := fun e he =>
    (List.mem_filter.mp he).1
  constructor
  · exact
      { ids := fun e he => hr.ids e (hmem e he)
        entryIds := fun e he e' he' => hr.entryIds e (hmem e he) e' (hmem e' he')
        uniqueIds := fun e he e' he' => hr.uniqueIds e (hmem e he) e' (hmem e' he')
        deviceIds := fun e he => hr.deviceIds e (hmem e he) }
  · exact ⟨le_rfl, fun e he _ => ⟨e, hmem e he, rfl, rfl⟩⟩

/-- An entry that is found is one of the entries, and has the ID. -/
theorem Registry.mem_of_entry {entryId : ℕ} {e : Entry} (h : r.entry entryId = some e) :
    e ∈ r.entries ∧ e.entryId = entryId :=
  ⟨List.mem_of_find?_eq_some h, by simpa using List.find?_some h⟩

/-- Where `_abort_if_unique_id_configured` lets a flow go on, the ID is free. -/
theorem Registry.Sound.free (hr : r.Sound) {deviceId : PyStr}
    (hid : flow.uniqueId = some deviceId) (h : configured r flow = false) : r.Free deviceId := by
  intro e he
  cases hfound : r.forUniqueId deviceId with
  | none =>
      have hnot : e.uniqueId ≠ some deviceId := by
        simpa using List.find?_eq_none.mp hfound e he
      exact ⟨fun hdevice => hnot (hr.deviceIds e he _ hdevice).1,
        fun hunique => absurd hunique hnot⟩
  | some e' =>
      have he' : e' ∈ r.entries := List.mem_of_find?_eq_some hfound
      have hunique' : e'.uniqueId = some deviceId := by simpa using List.find?_some hfound
      have hignored : e'.ignored = true := by
        simp only [configured, hid, Option.bind_some, hfound] at h
        simp only [Bool.not_eq_false', Bool.and_eq_true] at h
        exact h.1
      refine ⟨fun hdevice => ?_, fun hunique => ?_⟩
      · obtain ⟨hunique, hnot⟩ := hr.deviceIds e he _ hdevice
        obtain rfl := hr.uniqueIds e he e' he' _ hunique hunique'
        exact absurd (hignored.symm.trans hnot) (by simp)
      · obtain rfl := hr.uniqueIds e he e' he' _ hunique hunique'
        exact hignored

/-- The settings of an entry are for its device. -/
theorem Registry.Sound.has (hr : r.Sound) {entryId : ℕ} {e : Entry} {config : DeviceConfig}
    (he : r.entry entryId = some e) (hid : e.data.deviceId = some config.deviceId) :
    r.Has entryId config := by
  obtain ⟨hmem, hentryId⟩ := mem_of_entry he
  refine ⟨by rw [← hentryId]; exact hr.ids e hmem, fun e' he' hid' => ?_⟩
  obtain rfl := hr.entryIds e hmem e' he' (hentryId.trans hid'.symm)
  exact hid

end ConfigFlow
