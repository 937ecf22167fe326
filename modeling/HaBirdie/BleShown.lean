import HaBirdie.BleConnection

/-!
# What a Birdie shows is what it reported

Values reach the data of a `BirdieCoordinator` in three ways: a notification schedules its value
on the event loop, an initial read publishes all that it has read once it is complete, and a
write publishes the value that it reads back.  Between their arrival and the data they are under
way, while other calls go on, links drop, and calls fail.

`Heard` is a connection with the values that arrived and those that were merged into the data.
`shows_what_arrived` says for every run that the data is the initial one with the merged values,
and that of each way exactly what arrived is merged or under way, in its order.
-/

namespace Ble

open Python StepRuns

/-- How a value arrives: by notification, in the initial read of a call, or read back. -/
inductive Way
  | notification
  | initialRead (i : Nat)
  | readBack
deriving DecidableEq

/-- What came one way, in order. -/
def along (way : Way) (l : List (Way × Change)) : List Change :=
  l.filterMap fun v => if v.1 = way then some v.2 else none

@[simp] theorem along_nil (way : Way) : along way [] = [] := rfl

/-- What took a way is in the order in which it took it. -/
theorem along_append (way : Way) (l l' : List (Way × Change)) :
    along way (l ++ l') = along way l ++ along way l' := List.filterMap_append

@[simp] theorem along_same (way : Way) (changes : List Change) :
    along way (changes.map (Prod.mk way)) = changes := by
  simp [along, List.filterMap_map]

/-- Values of one way are none of another. -/
theorem along_other {way way' : Way} (h : way' ≠ way) (changes : List Change) :
    along way (changes.map (Prod.mk way')) = [] := by
  simp [along, List.filterMap_map, h]

/-- Availability does not matter to the values. -/
theorem updated_with_available (changes : List Change) (d : BirdieData) (b : Bool) :
    ({ d with available := b } : BirdieData).updated changes =
      { d.updated changes with available := b } := by
  unfold BirdieData.updated
  induction changes generalizing d with
  | nil => rfl
  | cons change changes ih =>
      have hchange : ({ d with available := b } : BirdieData).change change =
          { d.change change with available := b } := by cases change <;> rfl
      rw [List.foldl_cons, hchange, ih, List.foldl_cons]

/-- Merging two lists of values is merging one after the other. -/
theorem updated_append (changes changes' : List Change) (d : BirdieData) :
    d.updated (changes ++ changes') = (d.updated changes).updated changes' := List.foldl_append

/-- What a call has read and not yet published. -/
def Call.gathered : Call → List Change
  | .reading _ _ _ values => values
  | _ => []

/-- A call past its initial read has published what it read. -/
theorem Call.gathered_of_later {c : Call} (h : c.Later) : c.gathered = [] := by
  cases c with
  | reading p c rest values => exact absurd h.staged (by simp [staged])
  | _ => rfl

/-- The value that a scheduled callback brings. -/
def Scheduled.value : Scheduled → Option Change
  | .values change => some change
  | .disconnect => none

/-- The value of a payload, if it parses. -/
def decoded (c : Characteristic) (payload : Bytes) : List Change :=
  match parseCharacteristicValues c payload with
  | .ok change => [change]
  | .error _ => []

namespace World

/-- What arrived one way and is not yet in the data. -/
def underWay (w : World) : Way → List Change
  | .notification => w.scheduled.filterMap Scheduled.value
  | .initialRead i => (w.calls[i]?.map Call.gathered).getD []
  | .readBack => []

/-- What arrives in a step. -/
def arrivals (w : World) : Event → List (Way × Change)
  | .notified _ c payload => (decoded c payload).map (Prod.mk .notification)
  | .readDone i (some payload) =>
      match w.calls[i]? with
      | some (.reading _ c _ _) => (decoded c payload).map (Prod.mk (.initialRead i))
      | _ => []
  | .readBack i (some payload) =>
      match w.calls[i]? with
      | some (.readingBack r) =>
          (decoded r.setting.characteristic payload).map (Prod.mk .readBack)
      | _ => []
  | _ => []

/-- What a step merges into the data. -/
def merges (w : World) : Event → List (Way × Change)
  | .readDone i payload =>
      match w.calls[i]? with
      | some (.reading _ c rest values) =>
          if (w.nextRead rest).isNone then
            (readValues c payload values).map (Prod.mk (.initialRead i))
          else []
      | _ => []
  | .readBack i payload => w.arrivals (.readBack i payload)
  | .runScheduled => ((w.scheduled.take 1).filterMap Scheduled.value).map (Prod.mk .notification)
  | _ => []

/-! ## Turns that merge nothing -/

/-- A turn of a call that leaves the values alone and gathers none. -/
structure Quiet (i : Nat) (w w' : World) : Prop where
  data : ∃ b, w'.data = { w.data with available := b }
  scheduled : w'.scheduled = w.scheduled
  calls : ∃ pc, w'.calls = w.calls.set i pc ∧ pc.gathered = []

/-- A call that goes to another await, and has gathered nothing there, is quiet. -/
theorem goes_quiet {i : Nat} {w : World} {pc : Call} (hpc : pc.gathered = []) :
    Quiet i w (w.goes i pc) := ⟨⟨w.data.available, rfl⟩, rfl, pc, rfl, hpc⟩

/-- Client, lock and availability may have changed before. -/
theorem Quiet.after {i : Nat} {w w₀ w' : World} (h : Quiet i w₀ w')
    (hdata : ∃ b, w₀.data = { w.data with available := b })
    (hscheduled : w₀.scheduled = w.scheduled) (hcalls : w₀.calls = w.calls) : Quiet i w w' := by
  obtain ⟨b, hb⟩ := h.data
  obtain ⟨a, ha⟩ := hdata
  obtain ⟨pc, hset, hpc⟩ := h.calls
  exact ⟨⟨b, by rw [hb, ha]⟩, h.scheduled.trans hscheduled, pc, by rw [hset, hcalls], hpc⟩

/-- Only client and lock have changed before. -/
theorem Quiet.same {i : Nat} {w w₀ w' : World} (h : Quiet i w₀ w') (hdata : w₀.data = w.data)
    (hscheduled : w₀.scheduled = w.scheduled) (hcalls : w₀.calls = w.calls) : Quiet i w w' :=
  h.after ⟨w.data.available, hdata⟩ hscheduled hcalls

/-- A write begins without any value. -/
theorem startWrite_quiet (i : Nat) (r : Write) (w : World) : Quiet i w (w.startWrite i r) := by
  obtain ⟨pc, hgoes, hpc⟩ := startWrite_calls i r w
  rw [hgoes]
  apply goes_quiet
  rcases hpc with rfl | ⟨e, rfl⟩
  · rfl
  · rfl

/-- A connect that returns has published its values before. -/
theorem connectReturns_quiet (i : Nat) (p : Purpose) (result : Bool) (w : World) :
    Quiet i w (w.connectReturns i p result) := by
  unfold connectReturns
  dsimp only
  split
  · exact (goes_quiet rfl).same rfl rfl rfl
  · exact (startWrite_quiet i _ w.release).same rfl rfl rfl
  · exact (goes_quiet rfl).same rfl rfl rfl

/-- A connect that raises publishes nothing more. -/
theorem connectRaises_quiet (i : Nat) (e : Ending) (w : World) :
    Quiet i w (w.connectRaises i e) := (goes_quiet rfl).same rfl rfl rfl

/-- Subscribing to the remaining characteristics brings no value by itself. -/
theorem subscribeRest_quiet (i : Nat) (p : Purpose) (k : Nat) (services : Services)
    (rest : List Characteristic) (w : World) :
    Quiet i w (w.subscribeRest i p k services rest) := by
  unfold subscribeRest
  split
  · exact goes_quiet rfl
  · exact connectReturns_quiet i p true w

/-- Nor does the beginning of `async_start_notify`. -/
theorem startNotify_quiet (i : Nat) (p : Purpose) (w : World) :
    Quiet i w (w.startNotify i p) := by
  unfold startNotify
  split
  · exact subscribeRest_quiet i p _ _ _ w
  · exact connectRaises_quiet i _ w
  · exact connectRaises_quiet i _ w

/-- An initial read that is complete publishes what it has gathered. -/
theorem readRest_quiet {i : Nat} {p : Purpose} {rest : List Characteristic}
    {values : List Change} {w : World} (hnext : w.nextRead rest = none) :
    Quiet i { w with data := w.data.updated values } (w.readRest i p rest values) := by
  unfold readRest
  rw [hnext]
  exact (startNotify_quiet i p (w.handleAvailable values)).after ⟨true, rfl⟩ rfl rfl

/-- A client that is connected has read nothing yet.  The value of the initial read arrives with
later events. -/
theorem clientConnected_quiet (i : Nat) (p : Purpose) (result : Bool) (w : World) :
    Quiet i w (w.clientConnected i p result) := by
  unfold clientConnected
  split
  · cases hnext : w.nextRead readCharacteristics with
    | none =>
        have hquiet : Quiet i { w with data := w.data.updated [] }
            (w.readRest i p readCharacteristics []) := readRest_quiet hnext
        exact hquiet.same rfl rfl rfl
    | some next =>
        unfold readRest
        rw [hnext]
        exact goes_quiet rfl
  · have hreturns := connectReturns_quiet i p false (w.setAvailable false)
    rw [setAvailable_eq] at hreturns ⊢
    exact hreturns.after ⟨false, rfl⟩ rfl rfl

/-- A call that has disconnected leaves the values as they were, but for the availability. -/
theorem disconnected_quiet (i : Nat) (w : World) : Quiet i w (w.disconnected i) := by
  unfold disconnected
  rw [setAvailable_eq]
  exact (goes_quiet rfl).after ⟨false, rfl⟩ rfl rfl

section Teardown

variable {pc : Nat → Teardown → Call} {after : World → World} {i : Nat}

/-- A teardown is quiet if what comes after it is. -/
theorem startTeardown_quiet (hpc : ∀ k t, (pc k t).gathered = [])
    (hafter : ∀ w, Quiet i w (after w)) (w : World) :
    Quiet i w (w.startTeardown pc after i) := by
  unfold startTeardown
  dsimp only
  split
  · exact (hafter _).same rfl rfl rfl
  · split
    · exact (goes_quiet (hpc _ _)).same rfl rfl rfl
    · exact (hafter _).same rfl rfl rfl

/-- So is the rest of a teardown. -/
theorem teardownRest_quiet (hpc : ∀ k t, (pc k t).gathered = [])
    (hafter : ∀ w, Quiet i w (after w)) (k : Nat) (t : Teardown) (w : World) :
    Quiet i w (w.teardownRest pc after i k t) := by
  unfold teardownRest
  split
  · exact (hafter _).same rfl rfl rfl
  · split
    · exact goes_quiet (hpc _ _)
    · exact (hafter _).same rfl rfl rfl

end Teardown

/-- Whether the services are those of a Birdie or not, no value has come. -/
theorem servicesFound_quiet (i : Nat) (p : Purpose) (services : Option Services) (w : World) :
    Quiet i w (w.servicesFound i p services) := by
  unfold servicesFound
  cases services with
  | some s => exact (clientConnected_quiet i p true _).same rfl rfl rfl
  | none =>
      exact startTeardown_quiet (fun _ _ => rfl) (clientConnected_quiet i p false) w

/-- Neither has one where the device is looked up. -/
theorem deviceFound_quiet (i : Nat) (p : Purpose) (found : Bool) (w : World) :
    Quiet i w (w.deviceFound i p found) := by
  unfold deviceFound
  split
  · exact (goes_quiet rfl).same rfl rfl rfl
  · exact clientConnected_quiet i p false w

/-- Nor when the link is established. -/
theorem establish_quiet (i : Nat) (p : Purpose) (link : Link) (services : Option Services)
    (w : World) : Quiet i w (w.establish i p link services) := by
  unfold establish
  dsimp only
  split
  · split
    · exact (servicesFound_quiet i p _ _).same rfl rfl rfl
    · exact (goes_quiet rfl).same rfl rfl rfl
  · exact (clientConnected_quiet i p false _).same rfl rfl rfl

/-- Nor when a call gets the connect lock. -/
theorem locked_quiet (i : Nat) (p : Purpose) (w : World) : Quiet i w (w.locked i p) := by
  unfold locked
  dsimp only
  split
  · exact (clientConnected_quiet i p true _).same rfl rfl rfl
  · split
    · exact (goes_quiet rfl).same rfl rfl rfl
    · exact (goes_quiet rfl).same rfl rfl rfl

/-- A read-back begins without any value: what it brings is still to come. -/
theorem startReadBack_quiet (i : Nat) (r : Write) (w : World) :
    Quiet i w (w.startReadBack i r) := by
  unfold startReadBack
  split
  · exact goes_quiet rfl
  · exact goes_quiet rfl

/-! ## Steps -/

/-- The data takes what is merged, and of each way nothing is lost, doubled or overtaken. -/
structure Conserves (w w' : World) (arrived merged : List (Way × Change)) : Prop where
  data : ∃ b, w'.data = { w.data.updated (merged.map Prod.snd) with available := b }
  ways : ∀ way, w.underWay way ++ along way arrived = along way merged ++ w'.underWay way

/-- A call that goes on has what it gathers now under way, and the other calls what they had. -/
theorem underWay_set {w w' : World} {i : Nat} {pc : Call} (hi : i < w.calls.length)
    (hcalls : w'.calls = w.calls.set i pc) (hscheduled : w'.scheduled = w.scheduled)
    (way : Way) :
    w'.underWay way = if way = .initialRead i then pc.gathered else w.underWay way := by
  cases way with
  | notification => simp [underWay, hscheduled]
  | readBack => rfl
  | initialRead j =>
      by_cases hij : i = j
      · subst hij
        simp [underWay, hcalls, List.getElem?_set_self hi]
      · have hji : ¬ j = i := fun h => hij h.symm
        simp [underWay, hcalls, List.getElem?_set_ne hij, hji]

/-- The initial read of a call has under way what the call has gathered. -/
theorem underWay_call {w : World} {i : Nat} {old : Call} (hi : w.calls[i]? = some old) :
    w.underWay (.initialRead i) = old.gathered := by simp [underWay, hi]

/-- A quiet turn of a call that had gathered nothing conserves all values, with none arrived and
none merged. -/
theorem Quiet.conserves {w w' : World} {i : Nat} {old : Call} (h : Quiet i w w')
    (hi : w.calls[i]? = some old) (hold : old.gathered = []) : Conserves w w' [] [] := by
  obtain ⟨pc, hset, hpc⟩ := h.calls
  obtain ⟨hlt, _⟩ := List.getElem?_eq_some_iff.mp hi
  refine ⟨h.data, fun way => ?_⟩
  rw [underWay_set hlt hset h.scheduled way, along_nil, List.append_nil, List.nil_append]
  split
  · rename_i hway
    rw [hway, underWay_call hi, hold, hpc]
  · rfl

/-- A new call gathers nothing.  So of each way the same values are under way as before. -/
theorem underWay_new {w w' : World} {pc : Call} (hpc : pc.gathered = [])
    (hcalls : w'.calls = w.calls ++ [pc]) (hscheduled : w'.scheduled = w.scheduled) (way : Way) :
    w'.underWay way = w.underWay way := by
  cases way with
  | notification => simp [underWay, hscheduled]
  | readBack => rfl
  | initialRead j =>
      rcases Nat.lt_trichotomy j w.calls.length with hlt | rfl | hgt
      · simp [underWay, hcalls, List.getElem?_append_left hlt]
      · simp [underWay, hcalls, hpc]
      · have hnone : w'.calls[j]? = none := by
          rw [hcalls]
          apply List.getElem?_eq_none
          simp
          omega
        simp [underWay, hnone, List.getElem?_eq_none (Nat.le_of_lt hgt)]

/-- A step that leaves the values and what is under way conserves them. -/
theorem conserves_of_same {w w' : World} (hdata : ∃ b, w'.data = { w.data with available := b })
    (hways : ∀ way, w'.underWay way = w.underWay way) : Conserves w w' [] [] :=
  ⟨hdata, fun way => by simp [hways way]⟩

/-- A new call has gathered nothing. -/
theorem newCall_conserves (w : World) {pc : Call} (hpc : pc.gathered = []) :
    Conserves w (w.newCall pc) [] [] :=
  conserves_of_same ⟨w.data.available, rfl⟩ (underWay_new hpc rfl rfl)

/-- A turn that follows one which merges nothing. -/
theorem Conserves.trans {w w₀ w' : World} (h : Conserves w w₀ [] []) (h' : Conserves w₀ w' [] []) :
    Conserves w w' [] [] := by
  obtain ⟨a, ha⟩ := h.data
  obtain ⟨b, hb⟩ := h'.data
  refine ⟨⟨b, ?_⟩, fun way => ?_⟩
  · rw [hb, ha]
    rfl
  · have hways' := h'.ways way
    rw [along_nil, List.append_nil, List.nil_append] at hways'
    rw [h.ways way, hways']

/-- Setting the threshold conserves all values. -/
theorem asyncSet_conserves (r : Write) (w : World) : Conserves w (w.asyncSet r) [] [] := by
  unfold asyncSet
  split
  · split
    · exact (newCall_conserves w rfl).trans
        ((startWrite_quiet _ r _).conserves (getElem?_newCall w _) rfl)
    · exact newCall_conserves w rfl
  · exact newCall_conserves w rfl

/-- So does `async_disconnect`. -/
theorem asyncDisconnect_conserves (w : World) : Conserves w w.asyncDisconnect [] [] := by
  unfold asyncDisconnect
  have hnew : Conserves w
      ({ w with expectedConnected := false }.newCall (.done (.returned true))) [] [] :=
    conserves_of_same ⟨w.data.available, rfl⟩ (underWay_new rfl rfl rfl)
  have hteardown : Quiet w.calls.length _
      (({ w with expectedConnected := false }.newCall (.done (.returned true))).startTeardown
        .disconnecting (disconnected w.calls.length) w.calls.length) :=
    startTeardown_quiet (fun _ _ => rfl) (disconnected_quiet w.calls.length) _
  exact hnew.trans
    (hteardown.conserves (getElem?_newCall { w with expectedConnected := false } _) rfl)

/-- A read appends what the payload decodes to, and nothing if there is none or it does not
decode. -/
theorem readValues_eq (c : Characteristic) (payload : Option Bytes) (values : List Change) :
    readValues c payload values = values ++ (payload.map (decoded c)).getD [] := by
  cases payload with
  | none => simp [readValues]
  | some data =>
      cases hparse : parseCharacteristicValues c data with
      | ok change => simp [readValues, decoded, hparse]
      | error e => simp [readValues, decoded, hparse]

/-- One payload of an initial read: gathered, or published with all others.  Until then the values
that were gathered are under way, and in the order of the characteristics. -/
theorem readDone_conserves {w : World} {i : Nat} {p : Purpose} {c : Characteristic}
    {rest : List Characteristic} {values : List Change} (payload : Option Bytes)
    (hi : w.calls[i]? = some (.reading p c rest values)) :
    Conserves w (w.readRest i p rest (readValues c payload values))
      (w.arrivals (.readDone i payload)) (w.merges (.readDone i payload)) := by
  obtain ⟨hlt, _⟩ := List.getElem?_eq_some_iff.mp hi
  have harrivals : w.arrivals (.readDone i payload) =
      ((payload.map (decoded c)).getD []).map (Prod.mk (.initialRead i)) := by
    cases payload with
    | none => rfl
    | some data => simp [arrivals, hi]
  have hgathered : ∀ way, w.underWay way ++ along way (w.arrivals (.readDone i payload)) =
      if way = .initialRead i then readValues c payload values else w.underWay way := by
    intro way
    rw [harrivals]
    split
    · rename_i hway
      rw [hway, underWay_call hi, along_same, readValues_eq]
      rfl
    · rename_i hway
      rw [along_other (fun h => hway h.symm), List.append_nil]
  cases hnext : w.nextRead rest with
  | some next =>
      have hmerges : w.merges (.readDone i payload) = [] := by simp [merges, hi, hnext]
      rw [hmerges]
      refine ⟨⟨w.data.available, ?_⟩, fun way => ?_⟩
      · unfold readRest
        rw [hnext]
        rfl
      · have hset : (w.readRest i p rest (readValues c payload values)).calls =
            w.calls.set i (.reading p next.1 next.2 (readValues c payload values)) := by
          unfold readRest
          rw [hnext]
          rfl
        have hscheduled : (w.readRest i p rest (readValues c payload values)).scheduled =
            w.scheduled := by
          unfold readRest
          rw [hnext]
          rfl
        rw [hgathered, underWay_set hlt hset hscheduled way]
        rfl
  | none =>
      have hmerges : w.merges (.readDone i payload) =
          (readValues c payload values).map (Prod.mk (.initialRead i)) := by
        simp [merges, hi, hnext]
      have hquiet : Quiet i { w with data := w.data.updated (readValues c payload values) }
          (w.readRest i p rest (readValues c payload values)) := readRest_quiet hnext
      obtain ⟨b, hb⟩ := hquiet.data
      obtain ⟨pc, hset, hpc⟩ := hquiet.calls
      rw [hmerges]
      refine ⟨⟨b, ?_⟩, fun way => ?_⟩
      · rw [hb, List.map_map]
        have hsnd : (Prod.snd ∘ Prod.mk (Way.initialRead i) : Change → Change) = id := rfl
        rw [hsnd, List.map_id]
      · rw [hgathered, underWay_set hlt hset hquiet.scheduled way]
        split
        · rename_i hway
          rw [hway, along_same, hpc, List.append_nil]
        · rename_i hway
          rw [along_other (fun h => hway h.symm), List.nil_append]

/-- A value that is read back is merged at once.  Nothing is under way along this way before or
after. -/
theorem readBack_conserves {w : World} {i : Nat} {r : Write} {payload : Bytes}
    (hi : w.calls[i]? = some (.readingBack r)) :
    Conserves w (w.readBackDone i r payload) (w.arrivals (.readBack i (some payload)))
      (w.merges (.readBack i (some payload))) := by
  have harrivals : w.arrivals (.readBack i (some payload)) =
      (decoded r.setting.characteristic payload).map (Prod.mk .readBack) := by
    simp [arrivals, hi]
  have hmerges : w.merges (.readBack i (some payload)) =
      (decoded r.setting.characteristic payload).map (Prod.mk .readBack) := harrivals
  rw [harrivals, hmerges]
  unfold readBackDone decoded
  cases hparse : parseCharacteristicValues r.setting.characteristic payload with
  | ok change =>
    have hquiet : Quiet i (w.handleAvailable [change])
        ((w.handleAvailable [change]).goes i (.done (.returned true))) := goes_quiet rfl
    have hkept := hquiet.conserves hi rfl
    refine ⟨⟨true, rfl⟩, fun way => ?_⟩
    have hway := hkept.ways way
    rw [along_nil, List.append_nil, List.nil_append] at hway
    rw [← hway]
    cases way with
    | notification => simp [along, underWay, handleAvailable]
    | initialRead j => simp [along, underWay, handleAvailable]
    | readBack => rfl
  | error e => exact (goes_quiet rfl).conserves hi rfl

/-- A notification's value waits its turn on the event loop. -/
theorem handleNotify_conserves (w : World) (k : Nat) (c : Characteristic) (payload : Bytes) :
    Conserves w (w.handleNotify c payload) (w.arrivals (.notified k c payload)) [] := by
  unfold handleNotify arrivals decoded
  split
  · rename_i change hparse
    refine ⟨⟨w.data.available, rfl⟩, fun way => ?_⟩
    cases way with
    | notification => simp [underWay, along, Scheduled.value, hparse]
    | initialRead i => simp [underWay, along, hparse]
    | readBack => simp [underWay, along, hparse]
  · rename_i e hparse
    refine ⟨⟨w.data.available, rfl⟩, fun way => ?_⟩
    simp [hparse]

/-- The first callback on the event loop runs.  It merges the value that it was scheduled with, or
marks the device unavailable. -/
theorem runCallback_conserves {w : World} {s : Scheduled} {rest : List Scheduled}
    (hs : w.scheduled = s :: rest) :
    Conserves w ({ w with scheduled := rest }.runCallback s) [] (w.merges .runScheduled) := by
  cases s with
  | values change =>
      have hmerges : w.merges .runScheduled = [(Way.notification, change)] := by
        simp [merges, hs, Scheduled.value]
      rw [hmerges]
      refine ⟨⟨w.data.available, ?_⟩, fun way => ?_⟩
      · have hkept := updated_with_available [change] w.data w.data.available
        exact hkept
      · cases way with
        | notification => simp [underWay, along, hs, Scheduled.value, runCallback, handleValues]
        | initialRead i => simp [underWay, along, runCallback, handleValues]
        | readBack => rfl
  | disconnect =>
      have hmerges : w.merges .runScheduled = [] := by simp [merges, hs, Scheduled.value]
      rw [hmerges]
      unfold runCallback
      rw [setAvailable_eq]
      refine conserves_of_same ⟨false, rfl⟩ fun way => ?_
      cases way with
      | notification =>
          have hvalue : Scheduled.disconnect.value = none := rfl
          simp [underWay, hs, hvalue]
      | initialRead i => rfl
      | readBack => rfl

/-- **One step** merges what it says, and of each way what arrived is merged or under way.  By
cases over what can move. -/
theorem step_conserves {w w' : World} {e : Event} (h : w.step e = some w') :
    Conserves w w' (w.arrivals e) (w.merges e) := by
  cases moves h with
  | connect => exact newCall_conserves w rfl
  | advertised =>
      unfold connectIfExpected
      split
      · exact newCall_conserves w rfl
      · exact newCall_conserves w rfl
  | set => exact asyncSet_conserves _ w
  | disconnect => exact asyncDisconnect_conserves w
  | lock hi => exact (locked_quiet _ _ w).conserves hi rfl
  | deviceKnown hi => exact (deviceFound_quiet _ _ true w).conserves hi rfl
  | deviceUnknown hi => exact (goes_quiet rfl).conserves hi rfl
  | gotDevice hi => exact (deviceFound_quiet _ _ _ w).conserves hi rfl
  | raised hi hold =>
      exact (connectRaises_quiet _ _ w).conserves hi (Call.gathered_of_later hold)
  | abandoned => exact conserves_of_same ⟨w.data.available, rfl⟩ fun way => by cases way <;> rfl
  | established hi => exact (establish_quiet _ _ _ _ w).conserves hi rfl
  | establishFailed hi => exact (clientConnected_quiet _ _ false w).conserves hi rfl
  | gotServices hi => exact (servicesFound_quiet _ _ _ w).conserves hi rfl
  | readDone hi => exact readDone_conserves _ hi
  | @subscribed i k p services c rest hi =>
      have hquiet : Quiet i w ((w.subscribe k c).subscribeRest i p k services rest) :=
        (subscribeRest_quiet i p k services rest (w.subscribe k c)).same rfl rfl rfl
      exact hquiet.conserves hi rfl
  | subscribeFailed hi => exact (subscribeRest_quiet _ _ _ _ _ w).conserves hi rfl
  | wrote hi => exact (startReadBack_quiet _ _ w).conserves hi rfl
  | writeFailed hi => exact (goes_quiet rfl).conserves hi rfl
  | readBack hi => exact readBack_conserves hi
  | readBackFailed hi => exact (goes_quiet rfl).conserves hi rfl
  | connectTornDown hi =>
      exact (teardownRest_quiet (fun _ _ => rfl) (clientConnected_quiet _ _ false) _ _ w).conserves
        hi rfl
  | disconnectTornDown hi =>
      exact (teardownRest_quiet (fun _ _ => rfl) (disconnected_quiet _) _ _ w).conserves hi rfl
  | lost => exact conserves_of_same ⟨w.data.available, rfl⟩ fun way => by cases way <;> rfl
  | reported =>
      refine conserves_of_same ?_ fun way => ?_
      · unfold handleDisconnect
        dsimp only
        split
        · exact ⟨w.data.available, rfl⟩
        · exact ⟨w.data.available, rfl⟩
      · unfold handleDisconnect
        dsimp only
        split
        · cases way <;> rfl
        · cases way with
          | notification => simp [underWay, forget, setLink, Scheduled.value]
          | initialRead i => rfl
          | readBack => rfl
  | notified => exact handleNotify_conserves w _ _ _
  | ranScheduled hs => exact runCallback_conserves hs

end World

/-! ## Runs -/

/-- A connection, with what has arrived and what was merged into its data. -/
structure Heard where
  world : World
  arrived : List (Way × Change) := []
  merged : List (Way × Change) := []

namespace Heard

def step (h : Heard) (e : World.Event) : Option Heard :=
  (h.world.step e).map fun w =>
    { world := w
      arrived := h.arrived ++ h.world.arrivals e
      merged := h.merged ++ h.world.merges e }

/-- The data is the first one with what was merged, and what arrived is merged or under way. -/
structure Shows (d : BirdieData) (h : Heard) : Prop where
  data : h.world.data =
    { d.updated (h.merged.map Prod.snd) with available := h.world.data.available }
  ways : ∀ way, along way h.arrived = along way h.merged ++ h.world.underWay way

/-- Every step accounts for what it brings: the new values have arrived, and are merged or under
way. -/
theorem Shows.step {d : BirdieData} {h h' : Heard} {e : World.Event} (hshows : h.Shows d)
    (hstep : h.step e = some h') : h'.Shows d := by
  obtain ⟨w', hworld, rfl⟩ := Option.map_eq_some_iff.mp hstep
  have hconserves := World.step_conserves hworld
  refine ⟨?_, fun way => ?_⟩
  · obtain ⟨b, hb⟩ := hconserves.data
    dsimp only
    rw [hb, hshows.data, updated_with_available, List.map_append, updated_append]
  · dsimp only
    rw [along_append, along_append, hshows.ways way, List.append_assoc, hconserves.ways way,
      List.append_assoc]

/-- **What a Birdie shows is what it reported.**  After every run, the data is the initial one
with the merged values, and of each way the values that arrived are those that were merged,
followed by those under way: none is lost, doubled or overtaken. -/
theorem shows_what_arrived {d : BirdieData} {as : List World.Event} {h : Heard}
    (hrun : Run step Anything { world := World.init d } as h) :
    h.world.data =
        { d.updated (h.merged.map Prod.snd) with available := h.world.data.available } ∧
      ∀ way, along way h.arrived = along way h.merged ++ h.world.underWay way := by
  have hstart : Shows d { world := World.init d } := by
    refine ⟨rfl, fun way => ?_⟩
    cases way <;> rfl
  have hshows : h.Shows d :=
    hrun.invariant (Shows d) (fun _ _ _ hinv _ hstep => hinv.step hstep) hstart
  exact ⟨hshows.data, hshows.ways⟩

/-- A first connect reads 400 ppm; then the Birdie notifies of 500 ppm, and of 501 ppm. -/
def risingCo2 : List World.Event :=
  [.connect, .lock 0, .staleClosed 0 true, .established 0 .connected (some [(.co2, ⟨true, true⟩)]),
    .readDone 0 (some [0x90, 0x01]), .subscribed 0 true, .notified 0 .co2 [0xf4, 0x01],
    .runScheduled, .notified 0 .co2 [0xf5, 0x01]]

/-- The data has what was read and the first notification; the second one is under way.  What was
read came along another way, so it is accounted for apart. -/
theorem shows_what_arrived_rising :
    ∃ h : Heard, Run step Anything { world := World.init { address := [] } } risingCo2 h ∧
      along (.initialRead 0) h.merged = [.co2Ppm 400] ∧
      along .notification h.arrived = [.co2Ppm 500] ++ h.world.underWay .notification ∧
      h.world.data.co2Ppm = some 500 := by
  have hexec : ∃ h, exec step { world := World.init { address := [] } } risingCo2 = some h ∧
      h.merged = [(.initialRead 0, .co2Ppm 400), (.notification, .co2Ppm 500)] :=
    ⟨_, rfl, rfl⟩
  obtain ⟨h, hexec, hmerged⟩ := hexec
  have hrun : Run step Anything { world := World.init { address := [] } } risingCo2 h :=
    Run.of_exec hexec
  obtain ⟨hdata, hways⟩ := shows_what_arrived hrun
  refine ⟨h, hrun, ?_, ?_, ?_⟩
  · rw [hmerged]
    rfl
  · rw [hways .notification, hmerged]
    rfl
  · rw [hdata, hmerged]
    rfl

end Heard

end Ble
