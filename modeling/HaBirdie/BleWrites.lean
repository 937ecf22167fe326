import HaBirdie.BleAvailability

/-!
# Writes that take effect or fail

`async_set_co2_threshold` and `async_set_cool_down` check the value, connect if necessary, write,
read back, and store what was read.  What goes wrong on the way should leave them as a
`HomeAssistantError`, with the stored value as it was.

Errors of the write and of the read-back do.  Four others pass through unchanged, since only
`BirdieBleError` is translated, and only around the write itself (`sound`): what looking for the
device raises, a link that is lost until `async_start_notify` of the reconnect begins, and a
read-back that does not parse.  `write_clean_iff` says that a call is clean exactly if none of
its own steps is one of these.
-/

namespace Ble

open Python StepRuns

/-- The field of the data that a write is about. -/
def Setting.field : Setting → BirdieData → Option Int
  | .co2Threshold => BirdieData.co2ThresholdPpm
  | .coolDown => BirdieData.coolDownMinutes

/-- What a read-back changes. -/
def Setting.change : Setting → Int → Change
  | .co2Threshold => .co2ThresholdPpm
  | .coolDown => .coolDownMinutes

/-- The call returned what was asked for, or raised a `HomeAssistantError`. -/
def Ending.isClean : Ending → Bool
  | .returned true | .homeAssistantError _ => true
  | _ => false

deriving instance DecidableEq for BirdieBleError, HomeAssistantError, Ending

/-- How the call has ended. -/
def Call.ending : Call → Option Ending
  | .done e => some e
  | _ => none

/-- A call with an ending has ended so. -/
theorem Call.eq_done {c : Call} {e : Ending} (h : c.ending = some e) : c = .done e := by
  cases c with
  | done e' => exact congrArg Call.done (Option.some.inj h)
  | _ => exact absurd h (by simp [ending])

/-- A call on its way, not beyond the write of its value. -/
def Call.Onward (p : Purpose) : Call → Prop
  | .locking q | .closingStale q | .gettingDevice q | .establishing q | .gettingServices q _
  | .failing q _ _ | .reading q _ _ _ | .subscribing q _ _ _ _ => q = p
  | .writing r => p = .write r
  | .readingBack _ | .disconnecting _ _ => False
  | .done e => p = .connect ∨ ∃ error, e = .homeAssistantError error

/-- A parsed read-back is a value of the setting. -/
theorem parse_setting {s : Setting} {data : Bytes} {change : Change}
    (h : parseCharacteristicValues s.characteristic data = .ok change) :
    ∃ n, change = s.change n := by
  have hmap : ∀ (x : Except PyException Int) (f : Int → Change), x.map f = .ok change →
      ∃ n, change = f n := by
    intro x f hx
    cases x with
    | error e => exact absurd hx (by simp [Except.map])
    | ok n => exact ⟨n, (Except.ok.inj hx).symm⟩
  cases s with
  | co2Threshold => exact hmap _ _ h
  | coolDown => exact hmap _ _ h

namespace World

/-! ## The turns of a connect -/

/-- A turn of a call: if it is sound, the call goes on for its purpose, else it ends with
another exception; the values of the settings stay. -/
structure Turn (p : Purpose) (i : Nat) (sound : Bool) (w w' : World) : Prop where
  calls : ∃ pc, w'.calls = w.calls.set i pc ∧ (sound = true → pc.Onward p) ∧
    (sound = false → ∃ e, pc = .done e ∧ e.isClean = false)
  field : ∀ s : Setting, s.field w'.data = s.field w.data

variable {i : Nat} {p : Purpose}

/-- A call that goes to another await is on its way. -/
theorem Turn.goes {w : World} {pc : Call} (hpc : pc.Onward p) : Turn p i true w (w.goes i pc) :=
  ⟨⟨pc, rfl, fun _ => hpc, fun h => absurd h (by simp)⟩, fun _ => rfl⟩

/-- Only calls and data matter, and of the data only the settings. -/
theorem Turn.after {sound : Bool} {w w₀ w' : World} (h : Turn p i sound w₀ w')
    (hcalls : w₀.calls = w.calls) (hfield : ∀ s : Setting, s.field w₀.data = s.field w.data) :
    Turn p i sound w w' := by
  obtain ⟨pc, hset, hpc⟩ := h.calls
  exact ⟨⟨pc, by rw [hset, hcalls], hpc⟩, fun s => (h.field s).trans (hfield s)⟩

/-- The availability is not one of the settings. -/
theorem setAvailable_field (b : Bool) (w : World) (s : Setting) :
    s.field (w.setAvailable b).data = s.field w.data := by
  rw [setAvailable_eq]
  cases s <;> rfl

/-- A connect that returns lets the write begin; where it could not connect, the write ends with
the `HomeAssistantError` that says so. -/
theorem connectReturns_turn (i : Nat) (p : Purpose) (result : Bool) (w : World) :
    Turn p i true w (w.connectReturns i p result) := by
  unfold connectReturns
  dsimp only
  split
  · exact Turn.after (Turn.goes (Or.inl rfl : Call.Onward .connect (.done _))) rfl fun _ => rfl
  · rename_i r
    obtain ⟨pc, hgoes, hpc⟩ := startWrite_calls i r w.release
    rw [hgoes]
    refine Turn.after (Turn.goes ?_) rfl fun _ => rfl
    rcases hpc with rfl | ⟨e, rfl⟩
    · rfl
    · exact Or.inr ⟨e, rfl⟩
  · rename_i r
    have hfails : Call.Onward (.write r) (.done (.homeAssistantError .unableToConnect)) :=
      Or.inr ⟨_, rfl⟩
    exact Turn.after (Turn.goes hfails) rfl fun _ => rfl

/-- A connect that raises another exception ends the write with it. -/
theorem connectRaises_turn (i : Nat) (p : Purpose) (w : World) {e : Ending}
    (he : e.isClean = false) : Turn p i false w (w.connectRaises i e) :=
  ⟨⟨_, rfl, fun h => absurd h (by simp), fun _ => ⟨e, rfl, he⟩⟩, fun _ => rfl⟩

/-- Subscribing raises nothing of its own: what a characteristic lacks is skipped. -/
theorem subscribeRest_turn (i : Nat) (p : Purpose) (k : Nat) (services : Services)
    (rest : List Characteristic) (w : World) :
    Turn p i true w (w.subscribeRest i p k services rest) := by
  unfold subscribeRest
  split
  · exact Turn.goes rfl
  · exact connectReturns_turn i p true w

/-- The client is connected and its services are known. -/
def usableNow (w : World) : Bool := w.isConnected && w.client.services.isSome

/-- A connected client passes `_require_client`. -/
theorem requireClient_of_connected {w : World} (h : w.isConnected = true) :
    ∃ k, w.requireClient = .ok k := by
  unfold isConnected at h
  unfold requireClient
  split
  · rename_i k hk
    rw [hk] at h
    have hlinked : w.linked k = true := h
    exact ⟨k, if_pos hlinked⟩
  · rename_i hnone
    rw [hnone] at h
    exact absurd h (by simp)

/-- One that is not connected raises. -/
theorem requireClient_of_not_connected {w : World} (h : w.isConnected = false) :
    w.requireClient = .error .notConnected := by
  unfold isConnected at h
  unfold requireClient
  split
  · rename_i k hk
    rw [hk] at h
    have hlinked : w.linked k = false := h
    rw [hlinked]
    rfl
  · rfl

/-- `async_start_notify` raises exactly if the client is not connected or has no services. -/
theorem startNotify_turn (i : Nat) (p : Purpose) (w : World) :
    Turn p i w.usableNow w (w.startNotify i p) := by
  unfold usableNow startNotify
  cases hconn : w.isConnected with
  | false =>
      rw [requireClient_of_not_connected hconn]
      exact connectRaises_turn i p w rfl
  | true =>
      obtain ⟨k, hk⟩ := requireClient_of_connected hconn
      rw [hk]
      unfold requireServices
      cases w.client.services with
      | some s => exact subscribeRest_turn i p k s notifyCharacteristics w
      | none => exact connectRaises_turn i p w rfl

/-- A characteristic can be read only where the client is connected and has its services.
`nextRead` passes over all of them otherwise. -/
theorem usableNow_of_nextRead {w : World} {l rest : List Characteristic} {c : Characteristic}
    (h : w.nextRead l = some (c, rest)) : w.usableNow = true := by
  induction l with
  | nil => exact absurd h (by simp [nextRead])
  | cons x l ih =>
      unfold nextRead at h
      split at h
      · rename_i k hread
        unfold usableNow
        cases hconn : w.isConnected with
        | false =>
            simp [readUuid, requireClient_of_not_connected hconn, bind, Except.bind] at hread
        | true =>
            cases hservices : w.client.services with
            | some s => rfl
            | none =>
                obtain ⟨j, hj⟩ := requireClient_of_connected hconn
                simp [readUuid, hj, getCharacteristic, requireServices, hservices, bind,
                  Except.bind] at hread
      · exact ih h

/-- The values that an initial read leaves in the data: it is published once it is complete. -/
def publishedBy (w : World) (rest : List Characteristic) (values : List Change) : BirdieData :=
  if (w.nextRead rest).isNone then w.data.updated values else w.data

/-- The last value of the initial read is published, and then `async_start_notify` may raise. -/
theorem readRest_turn (i : Nat) (p : Purpose) (rest : List Characteristic) (values : List Change)
    (w : World) :
    Turn p i w.usableNow { w with data := w.publishedBy rest values }
      (w.readRest i p rest values) := by
  unfold readRest publishedBy
  cases hnext : w.nextRead rest with
  | some next =>
      rw [usableNow_of_nextRead hnext]
      exact Turn.goes rfl
  | none =>
      refine (startNotify_turn i p (w.handleAvailable values)).after rfl fun s => ?_
      cases s <;> rfl

/-- With a connected client the connect reads and subscribes, and what may raise there is
`async_start_notify`. -/
theorem clientConnected_true_turn (i : Nat) (p : Purpose) (w : World) :
    Turn p i w.usableNow w (w.clientConnected i p true) := by
  have hturn := readRest_turn i p readCharacteristics [] w
  refine hturn.after rfl fun s => ?_
  unfold publishedBy
  dsimp only
  split
  · rfl
  · rfl

/-- Without one the connect returns. -/
theorem clientConnected_false_turn (i : Nat) (p : Purpose) (w : World) :
    Turn p i true w (w.clientConnected i p false) := by
  have hturn := connectReturns_turn i p false (w.setAvailable false)
  exact hturn.after (by rw [setAvailable_eq]) (setAvailable_field false w)

/-- A failing connect tears its client down. -/
theorem teardown_turn {w w₁ : World} (i : Nat) (p : Purpose) (hcalls : w₁.calls = w.calls)
    (hdata : w₁.data = w.data) : Turn p i true w (failed i p w₁) := by
  apply (clientConnected_false_turn i p w₁).after hcalls
  intro s
  rw [hdata]

/-- The teardown of a connect that fails raises nothing: after it the connect returns.  So a write
goes on behind it and finds no client. -/
theorem startTeardown_turn (i : Nat) (p : Purpose) (w : World) :
    Turn p i true w (w.startTeardown (.failing p) (failed i p) i) := by
  unfold startTeardown
  dsimp only
  split
  · refine teardown_turn i p ?_ ?_
    · rfl
    · rfl
  · split
    · refine Turn.after (Turn.goes ?_) ?_ fun _ => ?_
      · rfl
      · rfl
      · rfl
    · refine teardown_turn i p ?_ ?_
      · rfl
      · rfl

/-- Nor does the rest of it. -/
theorem failingRest_turn (i : Nat) (p : Purpose) (k : Nat) (t : Teardown) (w : World) :
    Turn p i true w (w.teardownRest (.failing p) (failed i p) i k t) := by
  unfold teardownRest
  split
  · exact teardown_turn i p rfl rfl
  · split
    · exact Turn.goes rfl
    · exact teardown_turn i p rfl rfl

/-- Services that are those of a Birdie are stored, and then the client must still be connected. -/
theorem servicesFound_turn (i : Nat) (p : Purpose) (services : Option Services) (w : World) :
    Turn p i (services.isNone || w.isConnected) w (w.servicesFound i p services) := by
  unfold servicesFound
  cases services with
  | none => exact startTeardown_turn i p w
  | some s =>
      have hturn := clientConnected_true_turn i p
        { w with client := { w.client with services := some s } }
      have hsound : usableNow { w with client := { w.client with services := some s } } =
          w.isConnected := by
        simp only [usableNow, Option.isSome_some, Bool.and_true]
        rfl
      rw [hsound] at hturn
      exact hturn.after rfl fun _ => rfl

/-- With a device the connect goes on to establish the link; without one it returns. -/
theorem deviceFound_turn (i : Nat) (p : Purpose) (found : Bool) (w : World) :
    Turn p i true w (w.deviceFound i p found) := by
  unfold deviceFound
  split
  · exact Turn.after (Turn.goes rfl) rfl fun _ => rfl
  · exact clientConnected_false_turn i p w

/-- Establishing the link goes on to the services, or to what follows at once.  A link that fails
ends the connect, which raises nothing either. -/
theorem establish_turn (i : Nat) (p : Purpose) (link : Link) (services : Option Services)
    (w : World) : Turn p i true w (w.establish i p link services) := by
  unfold establish
  dsimp only
  split
  · rename_i hlink
    subst hlink
    split
    · rename_i s _
      have hturn := servicesFound_turn i p (some s)
        { w with
          bleaks := w.bleaks ++ [{ link := .connected }]
          client := { w.client with client := some w.bleaks.length } }
      have hconn : isConnected
          { w with
            bleaks := w.bleaks ++ [{ link := .connected }]
            client := { w.client with client := some w.bleaks.length } } = true := by
        simp [isConnected, linked]
      rw [hconn] at hturn
      exact hturn.after rfl fun _ => rfl
    · exact Turn.after (Turn.goes rfl) rfl fun _ => rfl
  · exact (clientConnected_false_turn i p _).after rfl fun _ => rfl

/-- With the lock a connect begins, or the client is connected already and then needs its
services. -/
theorem locked_turn (i : Nat) (p : Purpose) (w : World) :
    Turn p i (!w.isConnected || w.client.services.isSome) w (w.locked i p) := by
  unfold locked
  dsimp only
  cases hconn : w.isConnected with
  | true =>
      have hsame : isConnected { w with connectLock := some i, expectedConnected := true } =
          true := hconn
      have hturn := clientConnected_true_turn i p
        { w with connectLock := some i, expectedConnected := true }
      have hsound : usableNow { w with connectLock := some i, expectedConnected := true } =
          w.client.services.isSome := by
        unfold usableNow
        rw [hsame]
        rfl
      rw [hsound] at hturn
      rw [if_pos hsame]
      exact hturn.after rfl fun _ => rfl
  | false =>
      have hsame : isConnected { w with connectLock := some i, expectedConnected := true } =
          false := hconn
      rw [hsame]
      refine Turn.after (Turn.goes rfl) ?_ fun s => ?_
      · split <;> rfl
      · split <;> rfl

/-- The call of a write, up to its first await. -/
theorem asyncSet_turn (w : World) (r : Write) :
    ∃ pc, (w.asyncSet r).calls = w.calls ++ [pc] ∧ pc.Onward (.write r) ∧
      (w.asyncSet r).data = w.data := by
  unfold asyncSet
  split
  · split
    · obtain ⟨pc, hgoes, hpc⟩ := startWrite_calls w.calls.length r (w.newCall (.writing r))
      rw [hgoes]
      refine ⟨pc, by simp [goes, newCall], ?_, rfl⟩
      rcases hpc with rfl | ⟨e, rfl⟩
      · rfl
      · exact Or.inr ⟨e, rfl⟩
    · exact ⟨_, rfl, rfl, rfl⟩
  · exact ⟨_, rfl, Or.inr ⟨_, rfl⟩, rfl⟩

/-! ## Steps -/

/-- No exception leaves the call in this step, but a `HomeAssistantError`: looking for the device
does not raise, the client is connected and has its services where `async_start_notify` begins,
and a read-back parses. -/
def sound (w : World) : Event → Bool
  | .raised _ => false
  | .lock _ => !w.isConnected || w.client.services.isSome
  | .gotServices _ services => (usable services).isNone || w.isConnected
  | .readDone _ _ => w.usableNow
  | .readBack i payload => payload.isNone || w.readsBack i payload
  | _ => true

/-- The data with the values that the end of an initial read publishes. -/
def initialValues (w : World) : Event → BirdieData
  | .readDone i payload =>
      match w.calls[i]? with
      | some (.reading _ c rest values) => w.publishedBy rest (readValues c payload values)
      | _ => w.data
  | _ => w.data

/-- **A step of a call** on its way to its write.  Either it is still on its way, or the write has
succeeded and the value is read back. -/
theorem step_turn {w w' : World} {e : Event} {pc : Call} (hi : w.calls[i]? = some pc)
    (hpc : pc.Onward p) (hcall : e.call = some i) (h : w.step e = some w') :
    Turn p i (w.sound e) { w with data := w.initialValues e } w' ∨
      ∃ r, p = .write r ∧ e = .wrote i true ∧ w' = w.goes i (.readingBack r) := by
  have hat : ∀ {j : Nat} {c : Call}, some j = some i → w.calls[j]? = some c → i = j ∧ c = pc := by
    intro j c hj hc
    obtain rfl := Option.some.inj hj
    exact ⟨rfl, Option.some.inj (hc.symm.trans hi)⟩
  cases moves h with
  | lock hj =>
      obtain ⟨rfl, rfl⟩ := hat hcall hj
      obtain rfl : _ = p := hpc
      exact Or.inl (locked_turn _ _ w)
  | deviceKnown hj =>
      obtain ⟨rfl, rfl⟩ := hat hcall hj
      obtain rfl : _ = p := hpc
      exact Or.inl (deviceFound_turn _ _ true w)
  | deviceUnknown hj =>
      obtain ⟨rfl, rfl⟩ := hat hcall hj
      exact Or.inl (Turn.goes hpc)
  | gotDevice hj =>
      obtain ⟨rfl, rfl⟩ := hat hcall hj
      obtain rfl : _ = p := hpc
      exact Or.inl (deviceFound_turn _ _ _ w)
  | raised hj =>
      obtain ⟨rfl, _⟩ := hat hcall hj
      exact Or.inl (connectRaises_turn _ p w rfl)
  | abandoned hj =>
      obtain ⟨rfl, rfl⟩ := hat hcall hj
      refine Or.inl ⟨⟨_, ?_, fun _ => hpc, fun h => absurd h (by simp [sound])⟩, fun _ => rfl⟩
      obtain ⟨hlt, hget⟩ := List.getElem?_eq_some_iff.mp hj
      rw [← hget, List.set_getElem_self hlt]
  | established hj =>
      obtain ⟨rfl, rfl⟩ := hat hcall hj
      obtain rfl : _ = p := hpc
      exact Or.inl (establish_turn _ _ _ _ w)
  | establishFailed hj =>
      obtain ⟨rfl, rfl⟩ := hat hcall hj
      obtain rfl : _ = p := hpc
      exact Or.inl (clientConnected_false_turn _ _ w)
  | gotServices hj =>
      obtain ⟨rfl, rfl⟩ := hat hcall hj
      obtain rfl : _ = p := hpc
      exact Or.inl (servicesFound_turn _ _ _ w)
  | @readDone j q c rest values payload hj =>
      obtain ⟨rfl, rfl⟩ := hat hcall hj
      obtain rfl : q = p := hpc
      have hvalues : w.initialValues (.readDone i payload) =
          w.publishedBy rest (readValues c payload values) := by simp [initialValues, hj]
      rw [hvalues]
      exact Or.inl (readRest_turn i q rest _ w)
  | subscribed hj =>
      obtain ⟨rfl, rfl⟩ := hat hcall hj
      obtain rfl : _ = p := hpc
      exact Or.inl ((subscribeRest_turn _ _ _ _ _ _).after rfl fun _ => rfl)
  | subscribeFailed hj =>
      obtain ⟨rfl, rfl⟩ := hat hcall hj
      obtain rfl : _ = p := hpc
      exact Or.inl (subscribeRest_turn _ _ _ _ _ w)
  | @wrote j r hj =>
      obtain ⟨rfl, rfl⟩ := hat hcall hj
      obtain rfl : p = .write r := hpc
      unfold startReadBack
      split
      · exact Or.inr ⟨r, rfl, rfl, rfl⟩
      · exact Or.inl (Turn.goes (Or.inr ⟨_, rfl⟩))
  | @writeFailed j r hj =>
      obtain ⟨rfl, rfl⟩ := hat hcall hj
      obtain rfl : p = .write r := hpc
      exact Or.inl (Turn.goes (Or.inr ⟨_, rfl⟩))
  | readBack hj =>
      obtain ⟨rfl, rfl⟩ := hat hcall hj
      exact absurd hpc id
  | readBackFailed hj =>
      obtain ⟨rfl, rfl⟩ := hat hcall hj
      exact absurd hpc id
  | connectTornDown hj =>
      obtain ⟨rfl, rfl⟩ := hat hcall hj
      obtain rfl : _ = p := hpc
      exact Or.inl (failingRest_turn _ _ _ _ w)
  | disconnectTornDown hj =>
      obtain ⟨rfl, rfl⟩ := hat hcall hj
      exact absurd hpc id
  | _ => exact absurd hcall (by simp [Event.call])

/-- **A step of a call** that reads its value back.  What was read is decoded, and the decoder may
raise. -/
theorem readBack_step {w w' : World} {e : Event} {r : Write}
    (hi : w.calls[i]? = some (.readingBack r)) (hcall : e.call = some i)
    (h : w.step e = some w') :
    (e = .readBack i none ∧ w' = w.goes i (.done (.homeAssistantError
        (.unableToWrite r.setting (.failedToRead r.setting.characteristic))))) ∨
      ∃ data, e = .readBack i (some data) ∧ w' = w.readBackDone i r data := by
  cases moves h with
  | @readBack j q data hj =>
      obtain rfl : j = i := Option.some.inj hcall
      obtain rfl : q = r := by simpa using hj.symm.trans hi
      exact Or.inr ⟨data, rfl, rfl⟩
  | @readBackFailed j q hj =>
      obtain rfl : j = i := Option.some.inj hcall
      obtain rfl : q = r := by simpa using hj.symm.trans hi
      exact Or.inl ⟨rfl, rfl⟩
  | raised =>
      obtain rfl := Option.some.inj hcall
      obtain ⟨p, hj | hj⟩ := raised_stage h <;> exact absurd (hj.symm.trans hi) (by simp)
  | _ => simp_all [Event.call]

/-- A step of a call that disconnects is one of its teardown. -/
theorem disconnecting_step {w w' : World} {e : Event} {k : Nat} {t : Teardown}
    (hi : w.calls[i]? = some (.disconnecting k t)) (hcall : e.call = some i)
    (h : w.step e = some w') :
    w' = w.teardownRest .disconnecting (disconnected i) i k t := by
  cases moves h with
  | @disconnectTornDown j k' t' hj =>
      obtain rfl : j = i := Option.some.inj hcall
      obtain ⟨rfl, rfl⟩ : k' = k ∧ t' = t := by simpa using hj.symm.trans hi
      rfl
  | raised =>
      obtain rfl := Option.some.inj hcall
      obtain ⟨p, hj | hj⟩ := raised_stage h <;> exact absurd (hj.symm.trans hi) (by simp)
  | _ => simp_all [Event.call]

/-- Only an await that ends moves a call, and a call that has ended awaits nothing. -/
theorem moved_call {w w' : World} {e : Event} (hcall : e.call = some i)
    (h : w.step e = some w') : ∃ pc, w.calls[i]? = some pc ∧ pc.isDone = false := by
  cases moves h with
  | raised =>
      obtain rfl := Option.some.inj hcall
      obtain ⟨p, hj | hj⟩ := raised_stage h
      · exact ⟨_, hj, rfl⟩
      · exact ⟨_, hj, rfl⟩
  | _ => simp_all [Event.call, Call.isDone]

/-- A step moves the call whose await ends and no other; else it at most adds a call.  So the write
keeps its place while others go on. -/
theorem step_sets {w w' : World} {e : Event} (h : w.step e = some w') :
    (∃ l, w'.calls = w.calls ++ l) ∨ ∃ i pc, e.call = some i ∧ w'.calls = w.calls.set i pc := by
  cases hcall : e.call with
  | some i =>
      obtain ⟨pc, hi, hdone⟩ := moved_call hcall h
      refine Or.inr ⟨i, ?_⟩
      have honward : ∀ p : Purpose, pc.Onward p →
          ∃ pc', some i = some i ∧ w'.calls = w.calls.set i pc' := by
        intro p hpc
        rcases step_turn hi hpc hcall h with hturn | ⟨r, _, _, rfl⟩
        · obtain ⟨pc', hset, _⟩ := hturn.calls
          exact ⟨pc', rfl, hset⟩
        · exact ⟨_, rfl, rfl⟩
      cases pc with
      | readingBack r =>
          rcases readBack_step hi hcall h with ⟨_, rfl⟩ | ⟨data, _, rfl⟩
          · exact ⟨_, rfl, rfl⟩
          · unfold readBackDone
            split
            · exact ⟨_, rfl, rfl⟩
            · exact ⟨_, rfl, rfl⟩
      | disconnecting k t =>
          obtain rfl := disconnecting_step hi hcall h
          rcases teardownRest_cases .disconnecting (disconnected i) i k t w with
            ⟨t', h⟩ | ⟨w₁, hforgot, h⟩
          · rw [h]
            exact ⟨_, rfl, rfl⟩
          · obtain ⟨pc', _, hset⟩ := (disconnected_leads i w₁).calls
            rw [h, hset, hforgot.calls]
            exact ⟨pc', rfl, rfl⟩
      | done ending => exact absurd hdone (by simp [Call.isDone])
      | writing r => exact honward (.write r) rfl
      | _ => exact honward _ rfl
  | none =>
      left
      cases moves h with
      | connect => exact ⟨_, rfl⟩
      | advertised =>
          unfold connectIfExpected
          split
          · exact ⟨_, rfl⟩
          · exact ⟨_, rfl⟩
      | @set r =>
          obtain ⟨pc, hcalls, _⟩ := asyncSet_turn w r
          exact ⟨_, hcalls⟩
      | disconnect =>
          unfold asyncDisconnect
          dsimp only
          rcases startTeardown_cases .disconnecting (disconnected w.calls.length) w.calls.length
            ({ w with expectedConnected := false }.newCall (.done (.returned true))) with
            ⟨k, t, h⟩ | ⟨w₁, hforgot, h⟩
          · rw [h]
            exact ⟨[.disconnecting k t], by simp [goes, newCall]⟩
          · obtain ⟨pc, _, hset⟩ := (disconnected_leads w.calls.length w₁).calls
            rw [h, hset, hforgot.calls]
            exact ⟨[pc], by simp [newCall]⟩
      | lost => exact ⟨[], by simp [setLink]⟩
      | reported =>
          refine ⟨[], ?_⟩
          unfold handleDisconnect
          dsimp only
          split <;> simp [forget, setLink]
      | notified =>
          refine ⟨[], ?_⟩
          unfold handleNotify
          split <;> simp
      | @ranScheduled s =>
          refine ⟨[], ?_⟩
          cases s with
          | values change => simp [runCallback, handleValues]
          | disconnect => simp [runCallback, setAvailable_eq]
      | _ => exact absurd hcall (by simp [Event.call])

/-- The other calls stay where they are. -/
theorem call_kept {w w' : World} {e : Event} {old : Call} (h : w.step e = some w')
    (hi : w.calls[i]? = some old) (hother : e.call ≠ some i) : w'.calls[i]? = some old := by
  have hlt : i < w.calls.length := (List.getElem?_eq_some_iff.mp hi).1
  rcases step_sets h with ⟨l, hcalls⟩ | ⟨j, pc, hcall, hcalls⟩
  · rw [hcalls, List.getElem?_append_left hlt]
    exact hi
  · have hji : j ≠ i := by
      intro heq
      obtain rfl := heq
      exact hother hcall
    rw [hcalls, List.getElem?_set_ne hji]
    exact hi

/-! ## Runs of a write -/

/-- None of the call's own steps lets another exception out. -/
def Safe (i : Nat) (past : World → Event → Prop) : Prop :=
  ∀ w e, past w e → e.call = some i → w.sound e = true

/-- What a step of the write does to its field: where it returns, the field is the value that
was read back after the write; else the field is as it was, or as the initial read of the
reconnect found it. -/
structure Effect (past : World → Event → Prop) (r : Write) (i : Nat) (w : World) (e : Event)
    (w' : World) : Prop where
  returned : w'.calls[i]? = some (.done (.returned true)) →
    (∃ u, past u (.wrote i true)) ∧ ∃ data n, e = .readBack i (some data) ∧
      parseCharacteristicValues r.setting.characteristic data = .ok (r.setting.change n) ∧
      r.setting.field w'.data = some n
  kept : w'.calls[i]? ≠ some (.done (.returned true)) →
    r.setting.field w'.data = r.setting.field (w.initialValues e)

/-- **The write took effect as it was read back, or failed cleanly.** -/
structure CleanWrite (w₀ w₁ : World) (r : Write) (es : List Event) (ending : Ending) : Prop where
  ending : ending = .returned true ∨ ∃ e, ending = .homeAssistantError e
  begun : r.setting.field w₁.data = r.setting.field w₀.data
  effect : ∀ before e after w w', es = before ++ e :: after → exec step w₁ before = some w →
    w.step e = some w' → e.call = some w₀.calls.length →
      Effect (Happened step w₁ before) r w₀.calls.length w e w'

/-- Where the call of a write stands, after its past. -/
inductive Stage (r : Write) (i : Nat) (past : World → Event → Prop) : Call → Prop
  | onward {pc : Call} (hpc : pc.Onward (.write r)) (hsafe : Safe i past) : Stage r i past pc
  | readingBack (hsafe : Safe i past) (hwrote : ∃ u, past u (.wrote i true)) :
      Stage r i past (.readingBack r)
  | returned (hsafe : Safe i past) : Stage r i past (.done (.returned true))
  | raised {e : Ending} (he : e.isClean = false) (hnotSafe : ¬ Safe i past) :
      Stage r i past (.done e)

/-- None of the call's steps has let another exception out, and this one does not either. -/
theorem safe_since {past : World → Event → Prop} {w : World} {e : Event} :
    Safe i (since past w e) ↔ Safe i past ∧ (e.call = some i → w.sound e = true) :=
  forall_since

/-- A step of another call. -/
theorem Stage.other {r : Write} {past : World → Event → Prop} {pc : Call} {w : World}
    {e : Event} (h : Stage r i past pc) (hother : e.call ≠ some i) :
    Stage r i (since past w e) pc := by
  have hsame : Safe i (since past w e) ↔ Safe i past := by
    rw [safe_since]
    exact and_iff_left fun hcall => absurd hcall hother
  cases h with
  | onward hpc hsafe => exact .onward hpc (hsame.mpr hsafe)
  | readingBack hsafe hwrote =>
      obtain ⟨u, hu⟩ := hwrote
      exact .readingBack (hsame.mpr hsafe) ⟨u, Or.inl hu⟩
  | returned hsafe => exact .returned (hsame.mpr hsafe)
  | raised he hnotSafe => exact .raised he fun hsafe => hnotSafe (hsame.mp hsafe)

/-- A write on its way has not returned. -/
theorem onward_not_returned {r : Write} {pc : Call} (h : pc.Onward (.write r)) :
    pc ≠ .done (.returned true) := by
  intro heq
  obtain rfl := heq
  rcases h with h | ⟨e, h⟩
  · exact absurd h (by simp)
  · exact absurd h (by simp)

/-- A call that ended with another exception has not returned. -/
theorem not_returned_of_not_clean {e : Ending} (h : e.isClean = false) :
    Call.done e ≠ .done (.returned true) := by
  intro heq
  obtain rfl := Call.done.inj heq
  exact absurd h (by simp [Ending.isClean])

/-- A step on the way to the write, or of the write itself.  The history has to tell of a
successful write before anything is read back. -/
theorem onward_stage {w w' : World} {e : Event} {r : Write} {pc : Call}
    {past : World → Event → Prop} (hi : w.calls[i]? = some pc) (hpc : pc.Onward (.write r))
    (hsafe : Safe i past) (hcall : e.call = some i) (h : w.step e = some w') :
    ∃ pc', w'.calls[i]? = some pc' ∧ Stage r i (since past w e) pc' ∧ Effect past r i w e w' := by
  have hlt : i < w.calls.length := (List.getElem?_eq_some_iff.mp hi).1
  rcases step_turn hi hpc hcall h with hturn | ⟨r', hr', rfl, rfl⟩
  · obtain ⟨pc', hset, hgood, hbad⟩ := hturn.calls
    have hi' : w'.calls[i]? = some pc' := by
      rw [hset, List.getElem?_set_self hlt]
    have heffect : pc' ≠ .done (.returned true) → Effect past r i w e w' := fun hne =>
      ⟨fun hreturned => absurd (Option.some.inj (hi'.symm.trans hreturned)) hne,
        fun _ => hturn.field r.setting⟩
    cases hsound : w.sound e with
    | true =>
        have honward := hgood hsound
        refine ⟨pc', hi', .onward honward ?_, heffect (onward_not_returned honward)⟩
        exact safe_since.mpr ⟨hsafe, fun _ => hsound⟩
    | false =>
        obtain ⟨ending, rfl, hending⟩ := hbad hsound
        refine ⟨_, hi', .raised hending fun hall => ?_,
          heffect (not_returned_of_not_clean hending)⟩
        exact absurd ((safe_since.mp hall).2 hcall) (by simp [hsound])
  · obtain rfl : r = r' := by simpa using hr'
    refine ⟨_, by simp [goes, hlt], .readingBack ?_ ⟨w, Or.inr ⟨rfl, rfl⟩⟩, ?_, ?_⟩
    · exact safe_since.mpr ⟨hsafe, fun _ => rfl⟩
    · intro hreturned
      simp [goes, hlt] at hreturned
    · intro _
      rfl

/-- **The end of a write**: what was read back is stored, or an exception leaves the call.  Here
the write's ending is determined by the bytes alone. -/
theorem readBack_stage {w w' : World} {e : Event} {r : Write} {past : World → Event → Prop}
    (hi : w.calls[i]? = some (.readingBack r)) (hsafe : Safe i past)
    (hwrote : ∃ u, past u (.wrote i true)) (hcall : e.call = some i)
    (h : w.step e = some w') :
    ∃ pc', w'.calls[i]? = some pc' ∧ Stage r i (since past w e) pc' ∧ Effect past r i w e w' := by
  have hlt : i < w.calls.length := (List.getElem?_eq_some_iff.mp hi).1
  rcases readBack_step hi hcall h with ⟨rfl, rfl⟩ | ⟨data, rfl, rfl⟩
  · have honward : Call.Onward (.write r) (.done (.homeAssistantError
        (.unableToWrite r.setting (.failedToRead r.setting.characteristic)))) :=
      Or.inr ⟨_, rfl⟩
    refine ⟨_, by simp only [goes, List.getElem?_set_self hlt], .onward honward ?_, ?_,
      fun _ => rfl⟩
    · exact safe_since.mpr ⟨hsafe, fun _ => rfl⟩
    · intro hreturned
      simp [goes, hlt] at hreturned
  · unfold readBackDone
    cases hparse : parseCharacteristicValues r.setting.characteristic data with
    | ok change =>
        have hsound : w.sound (.readBack i (some data)) = true := by
          simp [sound, readsBack, hi, hparse, Except.isOk, Except.toBool]
        obtain ⟨n, rfl⟩ := parse_setting hparse
        refine ⟨_, by simp [goes, handleAvailable, hlt], .returned ?_, fun _ => ?_, ?_⟩
        · exact safe_since.mpr ⟨hsafe, fun _ => hsound⟩
        · refine ⟨hwrote, data, n, rfl, hparse, ?_⟩
          cases r.setting <;> rfl
        · intro hnot
          exact absurd (by simp [goes, handleAvailable, hlt]) hnot
    | error error =>
        have hsound : w.sound (.readBack i (some data)) = false := by
          simp [sound, readsBack, hi, hparse, Except.isOk, Except.toBool]
        have hraises : Ending.valueError.isClean = false := rfl
        refine ⟨_, by simp only [goes, List.getElem?_set_self hlt],
          .raised hraises fun hall => ?_, ?_, fun _ => rfl⟩
        · exact absurd ((safe_since.mp hall).2 rfl) (by simp [hsound])
        · intro hreturned
          simp [goes, hlt] at hreturned

/-- **One step**, of the write or of another call.  A step of another call leaves the stage as it
is, because the call is where it was. -/
theorem Stage.next {w w' : World} {e : Event} {r : Write} {pc : Call}
    {past : World → Event → Prop} (hi : w.calls[i]? = some pc) (hpc : Stage r i past pc)
    (h : w.step e = some w') :
    ∃ pc', w'.calls[i]? = some pc' ∧ Stage r i (since past w e) pc' ∧
      (e.call = some i → Effect past r i w e w') := by
  by_cases hcall : e.call = some i
  · have hawaits : pc.isDone = false := by
      obtain ⟨pc₀, hi₀, hdone⟩ := moved_call hcall h
      obtain rfl := Option.some.inj (hi₀.symm.trans hi)
      exact hdone
    cases hpc with
    | onward hpc hsafe =>
        obtain ⟨pc', hi', hstage, heffect⟩ := onward_stage hi hpc hsafe hcall h
        exact ⟨pc', hi', hstage, fun _ => heffect⟩
    | readingBack hsafe hwrote =>
        obtain ⟨pc', hi', hstage, heffect⟩ := readBack_stage hi hsafe hwrote hcall h
        exact ⟨pc', hi', hstage, fun _ => heffect⟩
    | returned => exact absurd hawaits (by simp [Call.isDone])
    | raised => exact absurd hawaits (by simp [Call.isDone])
  · exact ⟨pc, call_kept h hi hcall, hpc.other hcall, fun hown => absurd hown hcall⟩

/-- Where the call of a write stands after any run. -/
theorem stage_run {w₀ w₁ w : World} {r : Write} {es : List Event}
    (hcall : w₀.step (.set r) = some w₁) (hrun : Run step Anything w₁ es w) :
    ∃ pc, w.calls[w₀.calls.length]? = some pc ∧
      Stage r w₀.calls.length (Happened step w₁ es) pc := by
  obtain rfl := Option.some.inj hcall
  refine hrun.history (fun past v => ∃ pc, v.calls[w₀.calls.length]? = some pc ∧
    Stage r w₀.calls.length past pc) ?_ ?_
  · intro past v e v' hparts _ hstep
    obtain ⟨pc, hi, hpc⟩ := hparts
    obtain ⟨pc', hi', hstage, _⟩ := Stage.next hi hpc hstep
    exact ⟨pc', hi', hstage⟩
  · obtain ⟨pc, hcalls, hpc, _⟩ := asyncSet_turn w₀ r
    exact ⟨pc, by simp [hcalls], .onward hpc fun _ _ h => absurd h id⟩

/-- **When a write takes effect as read back or fails cleanly.**  For every value and every run
from any state: exactly when no step of the call raises what is not translated: looking for
the device, a link that is lost before the subscriptions of a reconnect begin, and a read-back
that does not parse. -/
theorem write_clean_iff {w₀ w₁ w : World} {r : Write} {es : List Event} {ending : Ending}
    (hcall : w₀.step (.set r) = some w₁) (hrun : Run step Anything w₁ es w)
    (hdone : w.calls[w₀.calls.length]? = some (.done ending)) :
    CleanWrite w₀ w₁ r es ending ↔ Safe w₀.calls.length (Happened step w₁ es) := by
  obtain ⟨pc, hi, hstage⟩ := stage_run hcall hrun
  obtain rfl := Option.some.inj (hi.symm.trans hdone)
  have hbegun : r.setting.field w₁.data = r.setting.field w₀.data := by
    obtain rfl := Option.some.inj hcall
    obtain ⟨_, _, _, hdata⟩ := asyncSet_turn w₀ r
    rw [hdata]
  have heffect : ∀ before e after v v', es = before ++ e :: after →
      exec step w₁ before = some v → v.step e = some v' → e.call = some w₀.calls.length →
        Effect (Happened step w₁ before) r w₀.calls.length v e v' := by
    intro before e after v v' _ hexec hstep hown
    obtain ⟨pc, hi, hpc⟩ := stage_run hcall (Run.of_exec hexec)
    obtain ⟨_, _, _, heffect⟩ := Stage.next hi hpc hstep
    exact heffect hown
  cases hstage with
  | onward hpc hsafe =>
      refine iff_of_true ⟨Or.inr ?_, hbegun, heffect⟩ hsafe
      exact hpc.resolve_left (by simp)
  | returned hsafe => exact iff_of_true ⟨Or.inl rfl, hbegun, heffect⟩ hsafe
  | raised he hnotSafe =>
      refine iff_of_false (fun hclean => ?_) hnotSafe
      rcases hclean.ending with rfl | ⟨error, rfl⟩
      · exact absurd he (by simp [Ending.isClean])
      · exact absurd he (by simp [Ending.isClean])

/-- A Birdie of which only the CO2 threshold can be read. -/
def thresholdServices : Services := [(.iaqCo2Threshold, ⟨true, false⟩)]

/-- A write to a device that is not connected, up to its read-back: the reconnect reads 800. -/
def writing : List Event :=
  [.lock 0, .staleClosed 0 true, .established 0 .connected (some thresholdServices),
    .readDone 0 (some [32, 3]), .wrote 0 true]

/-- A threshold is written, and a read-back of two bytes confirms it.  The value that is shown then
is the one that was written. -/
theorem write_clean_iff_read_back :
    ∃ w₁ w : World, (init exampleData).step (.set ⟨.co2Threshold, 1000⟩) = some w₁ ∧
      w.data.co2ThresholdPpm = some 1000 ∧
      CleanWrite (init exampleData) w₁ ⟨.co2Threshold, 1000⟩
        (writing ++ [.readBack 0 (some [232, 3])]) (.returned true) := by
  let events := writing ++ [.readBack 0 (some [232, 3])]
  let start := (init exampleData).asyncSet ⟨.co2Threshold, 1000⟩
  let execution := exec step start events
  obtain ⟨w, hw⟩ := Option.isSome_iff_exists.mp (show execution.isSome = true by decide +kernel)
  have hfacts : ∀ v ∈ execution, v.data.co2ThresholdPpm = some 1000 := by decide +kernel
  have hends : ∀ v ∈ execution, v.calls[0]?.bind Call.ending = some (.returned true) := by
    decide +kernel
  obtain ⟨c, hc, hending⟩ := Option.bind_eq_some_iff.mp (hends w hw)
  rw [Call.eq_done hending] at hc
  have hsafe : Run step (fun v e => e.call = some 0 → v.sound e = true) start events w :=
    Run.of_meets hw (by decide +kernel)
  refine ⟨start, w, rfl, hfacts w hw, ?_⟩
  exact (write_clean_iff rfl (Run.of_exec hw) hc).mpr fun v e h => hsafe.ok_of_happened h

/-- **A read-back of the wrong length leaves the write as a `ValueError`.**  The device took the
value all the same. -/
theorem write_raises_value_error :
    ∃ w₁ w : World, (init exampleData).step (.set ⟨.co2Threshold, 1000⟩) = some w₁ ∧
      Run step Anything w₁ (writing ++ [.readBack 0 (some [232, 3, 0])]) w ∧
      w.calls[0]? = some (.done .valueError) ∧
      ¬ CleanWrite (init exampleData) w₁ ⟨.co2Threshold, 1000⟩
        (writing ++ [.readBack 0 (some [232, 3, 0])]) .valueError := by
  let events := writing ++ [.readBack 0 (some [232, 3, 0])]
  let start := (init exampleData).asyncSet ⟨.co2Threshold, 1000⟩
  let execution := exec step start events
  obtain ⟨w, hw⟩ := Option.isSome_iff_exists.mp (show execution.isSome = true by decide +kernel)
  have hends : ∀ v ∈ execution, v.calls[0]?.bind Call.ending = some .valueError := by
    decide +kernel
  obtain ⟨c, hc, hending⟩ := Option.bind_eq_some_iff.mp (hends w hw)
  rw [Call.eq_done hending] at hc
  refine ⟨start, w, rfl, Run.of_exec hw, hc, fun hclean => ?_⟩
  rcases hclean.ending with h | ⟨error, h⟩
  · exact absurd h (by simp)
  · exact absurd h (by simp)

end World

end Ble
