import HaBirdie.BleConnection

/-!
# Whether Bluetooth availability is claimed without a connection

A Birdie is shown available from the moment its initial values are published.  What marks it
unavailable again is the disconnect callback of the library, unless the client expects the
disconnect, and the calls that tear the connection down.

The invariant says who vouches for an availability that is shown (`Vouched`): the connection
itself, a callback that is still to come, or a call that tears down.  It is kept as long as
nobody publishes values, and no callback is taken for an expected one, without such a voucher
(`DropsNoticed`).  `available_connected` is the whole-run statement.
-/

namespace Ble

open Python StepRuns

/-- The scheduled callback of a disconnect. -/
def Scheduled.isDisconnect : Scheduled → Bool
  | .values _ => false
  | .disconnect => true

namespace World

/-- A call will mark the device unavailable. -/
def Tearing (w : World) : Prop := ∃ c ∈ w.calls, c.tearsDown = true

/-- A callback or a call will mark the device unavailable. -/
def Corrected (w : World) : Prop :=
  (∃ s ∈ w.scheduled, s.isDisconnect = true) ∨ w.Tearing ∨ ∃ b ∈ w.bleaks, b.link = .lost

/-- The availability that is shown is true, or will be corrected. -/
def Vouched (w : World) : Prop := w.isConnected = true ∨ w.Corrected

/-- No operation is in progress and no callback is still to come. -/
def Idle (w : World) : Prop :=
  (∀ c ∈ w.calls, c.isDone = true) ∧ w.scheduled.isEmpty = true ∧
    ∀ b ∈ w.bleaks, b.link ≠ .lost

/-- A read-back that is going to be published. -/
def readsBack (w : World) (i : Nat) (payload : Option Bytes) : Bool :=
  match w.calls[i]?, payload with
  | some (.readingBack r), some data =>
      (parseCharacteristicValues r.setting.characteristic data).isOk
  | _, _ => false

/-- Every call that goes on to publish values after an await, and every disconnect callback that
the client expects while the device is shown available, has its voucher. -/
def DropsNoticed (w : World) : Event → Prop
  | .gotServices _ services => (usable services).isSome = true → w.Vouched
  | .readDone _ _ => w.Vouched
  | .readBack i payload => w.readsBack i payload = true → w.Vouched
  | .reported k =>
      w.data.available = true → w.client.expectedDisconnect = true →
        (w.setLink k .reported).Corrected
  | _ => True

/-- The invariant: a shown availability has its voucher. -/
def Shown (w : World) : Prop := w.data.available = true → w.Vouched

/-- What vouches stays when only a call that does not tear down goes on. -/
theorem Vouched.leads {w w' : World} {i : Nat} {good : Call → Prop} {b : Bool} {old : Call}
    (h : w.Vouched) (hi : w.calls[i]? = some old) (hold : old.tearsDown = false)
    (hl : Leads i good b w w') : w'.Vouched := by
  obtain ⟨pc, _, hcalls⟩ := hl.calls
  rcases h with hconn | ⟨s, hs, hdrop⟩ | htears | ⟨k, hk, hlost⟩
  · apply Or.inl
    unfold isConnected linked
    rw [hl.client, hl.bleaks]
    exact hconn
  · exact Or.inr (Or.inl ⟨s, hl.scheduled ▸ hs, hdrop⟩)
  · exact Or.inr (Or.inr (Or.inl (stays hcalls hi hold htears)))
  · exact Or.inr (Or.inr (Or.inr ⟨k, hl.bleaks ▸ hk, hlost⟩))

/-- The turn of a call that does not tear down. -/
theorem Shown.leads {w w' : World} {i : Nat} {good : Call → Prop} {b : Bool} {old : Call}
    (hb : b = true → w.Vouched) (hi : w.calls[i]? = some old) (hold : old.tearsDown = false)
    (hl : Leads i good b w w') : w'.Shown := fun hav =>
  (hb (hl.available.symm.trans hav)).leads hi hold hl

/-- A call that goes to another await, outside of a teardown, keeps what is shown true. -/
theorem Shown.goes {w : World} (hw : w.Shown) {i : Nat} {old : Call}
    (hi : w.calls[i]? = some old) (hold : old.tearsDown = false) (pc : Call) :
    (w.goes i pc).Shown := by
  have hl : Leads i (fun _ => True) w.data.available w (w.goes i pc) := goes_leads i w trivial
  exact Shown.leads hw hi hold hl

/-- Data that is unavailable promises nothing. -/
theorem Shown.unavailable {w : World} (h : w.data.available = false) : w.Shown := fun hav =>
  absurd (h.symm.trans hav) (by simp)

/-- A call that tears down vouches. -/
theorem Shown.tearing {w : World} {i : Nat} {pc : Call} (hi : i < w.calls.length)
    (hpc : pc.tearsDown = true) : (w.goes i pc).Shown := fun _ =>
  Or.inr (Or.inr (Or.inl ⟨pc, List.mem_set hi pc, hpc⟩))

/-- Changing what does not vouch. -/
theorem Vouched.congr {w w' : World} (h : w.Vouched) (hclient : w'.client.client = w.client.client)
    (hbleaks : w'.bleaks = w.bleaks) (hscheduled : ∀ s ∈ w.scheduled, s ∈ w'.scheduled)
    (hcalls : ∀ c ∈ w.calls, c ∈ w'.calls) : w'.Vouched := by
  rcases h with hconn | ⟨s, hs, hdrop⟩ | ⟨c, hc, htears⟩ | ⟨k, hk, hlost⟩
  · apply Or.inl
    unfold isConnected linked
    rw [hclient, hbleaks]
    exact hconn
  · exact Or.inr (Or.inl ⟨s, hscheduled s hs, hdrop⟩)
  · exact Or.inr (Or.inr (Or.inl ⟨c, hcalls c hc, htears⟩))
  · exact Or.inr (Or.inr (Or.inr ⟨k, hbleaks ▸ hk, hlost⟩))

/-- A new call takes nothing away from what is shown. -/
theorem Shown.newCall {w : World} (hw : w.Shown) (pc : Call) : (w.newCall pc).Shown := fun hav =>
  (hw hav).congr rfl rfl (fun _ => id) fun _ => List.mem_append_left _

/-- An initial read that has a voucher where it publishes. -/
theorem Shown.readRest {w : World} (hv : w.data.available = true → w.Vouched) {i : Nat}
    {old : Call} (hi : w.calls[i]? = some old) (hold : old.tearsDown = false) (p : Purpose)
    {rest : List Characteristic} (values : List Change)
    (hpublish : w.nextRead rest = none → w.Vouched) : (w.readRest i p rest values).Shown := by
  rcases readRest_cases i p rest values w with ⟨_, hl⟩ | ⟨hnone, hl⟩
  · exact Shown.leads hv hi hold hl
  · exact Shown.leads (fun _ => hpublish hnone) hi hold hl

/-- A connect that failed makes the data unavailable. -/
theorem Shown.clientConnected_false {w : World} (i : Nat) (p : Purpose) :
    (w.clientConnected i p false).Shown :=
  .unavailable (World.clientConnected_false i p w).available

/-- A teardown vouches until it is over, and then the device is unavailable. -/
theorem Shown.startTeardown {pc : Nat → Teardown → Call} {after : World → World} {i : Nat}
    {w : World} (hi : i < w.calls.length) (hpc : ∀ k t, (pc k t).tearsDown = true)
    (hafter : ∀ w, (after w).data.available = false) : (w.startTeardown pc after i).Shown := by
  rcases startTeardown_cases pc after i w with ⟨k, t, h⟩ | ⟨w₁, _, h⟩
  · rw [h]
    exact .tearing hi (hpc k t)
  · rw [h]
    exact .unavailable (hafter w₁)

/-- During a teardown the call itself vouches: it makes the data unavailable when it is over. -/
theorem Shown.teardownRest {pc : Nat → Teardown → Call} {after : World → World} {i k : Nat}
    {t : Teardown} {w : World} (hi : i < w.calls.length) (hpc : ∀ k t, (pc k t).tearsDown = true)
    (hafter : ∀ w, (after w).data.available = false) :
    (w.teardownRest pc after i k t).Shown := by
  rcases teardownRest_cases pc after i k t w with ⟨t', h⟩ | ⟨w₁, _, h⟩
  · rw [h]
    exact .tearing hi (hpc k t')
  · rw [h]
    exact .unavailable (hafter w₁)

/-- A connect that failed leaves the data unavailable. -/
theorem failed_unavailable (i : Nat) (p : Purpose) (w : World) :
    (w.failed i p).data.available = false :=
  (World.clientConnected_false i p w).available

/-- A disconnect that has ended leaves the data unavailable. -/
theorem disconnected_unavailable (i : Nat) (w : World) :
    (w.disconnected i).data.available = false :=
  (disconnected_leads i w).available

/-- A write that begins takes nothing away from what is shown. -/
theorem Shown.asyncSet {w : World} (hw : w.Shown) (r : Write) : (w.asyncSet r).Shown := by
  unfold World.asyncSet
  split
  · split
    · have hnew := hw.newCall (.writing r)
      exact Shown.leads hnew (getElem?_newCall w _) rfl (startWrite_leads _ r _)
    · exact hw.newCall _
  · exact hw.newCall _

/-- With the lock a connect begins, or finds the client connected.  A client that is forgotten
first takes the availability with it. -/
theorem Shown.locked {w : World} (hw : w.Shown) {i : Nat} {p : Purpose}
    (hi : w.calls[i]? = some (.locking p)) : (w.locked i p).Shown := by
  unfold World.locked
  dsimp only
  split
  · rename_i hconn
    exact Shown.readRest (fun _ => Or.inl hconn) hi rfl p [] fun _ => Or.inl hconn
  · rename_i hoff
    have hkept : Shown { w with connectLock := some i, expectedConnected := true } := hw
    split
    · have hforgot : Shown
          (forget { w with connectLock := some i, expectedConnected := true }) := fun hav =>
        Or.inr ((hw hav).resolve_left hoff)
      exact hforgot.goes hi rfl _
    · exact hkept.goes hi rfl _

/-- Looking the device up changes nothing that is shown, and without a device the data becomes
unavailable. -/
theorem Shown.deviceFound {w : World} (hw : w.Shown) {i : Nat} {p : Purpose} {old : Call}
    (hi : w.calls[i]? = some old) (hold : old.tearsDown = false) (found : Bool) :
    (w.deviceFound i p found).Shown := by
  unfold World.deviceFound
  split
  · have hsame : Shown { w with client := { w.client with expectedDisconnect := false } } :=
      fun hav => (hw hav).congr rfl rfl (fun _ => id) fun _ => id
    exact hsame.goes hi hold _
  · exact Shown.clientConnected_false i p

/-- A library client that was just stored is connected.  If its link is gone already, the callback
of the disconnect is scheduled. -/
theorem Shown.establish {w : World} {i : Nat} {p : Purpose} {old : Call}
    (hi : w.calls[i]? = some old) (hold : old.tearsDown = false) (link : Link)
    (services : Option Services) : (w.establish i p link services).Shown := by
  unfold World.establish
  dsimp only
  split
  · rename_i hlink
    have hconn : ∀ services, isConnected
        { w with
          bleaks := w.bleaks ++ [{ link }]
          client := { w.client with client := some w.bleaks.length, services } } = true := by
      intro services
      simp [isConnected, linked, hlink]
    split
    · exact Shown.readRest (fun _ => Or.inl (hconn _)) hi hold p [] fun _ => Or.inl (hconn _)
    · exact Shown.goes (fun _ => Or.inl (hconn _)) hi hold _
  · exact Shown.clientConnected_false i p

/-- With its services the client is vouched for, and only then are values published as
available. -/
theorem Shown.servicesFound {w : World} (hw : w.Shown) {i : Nat} {p : Purpose} {old : Call}
    (hi : w.calls[i]? = some old) (hold : old.tearsDown = false) (services : Option Services)
    (hok : services.isSome = true → w.Vouched) : (w.servicesFound i p services).Shown := by
  unfold World.servicesFound
  cases services with
  | none =>
      exact Shown.startTeardown (List.getElem?_eq_some_iff.mp hi).1 (fun _ _ => rfl)
        (failed_unavailable i p)
  | some s =>
      have hv : ∀ {w₀ : World}, w₀.Vouched →
          Vouched { w₀ with client := { w₀.client with services := some s } } := fun h =>
        h.congr rfl rfl (fun _ => id) fun _ => id
      exact Shown.readRest (fun hav => hv (hw hav)) hi hold p [] fun _ => hv (hok rfl)

/-- A subscription takes nothing away from a client that is vouched for: its link and its callback
stay. -/
theorem Vouched.subscribe {w : World} (h : w.Vouched) (k : Nat) (c : Characteristic) :
    (w.subscribe k c).Vouched := by
  have hlink : ∀ j, (w.subscribe k c).linked j = w.linked j := by
    intro j
    simp only [linked, World.subscribe, List.getElem?_modify]
    cases hj : w.bleaks[j]? with
    | none => simp
    | some b => by_cases hkj : k = j <;> simp [hkj]
  rcases h with hconn | hdrop | htears | ⟨b, hb, hlost⟩
  · apply Or.inl
    unfold isConnected at hconn ⊢
    rw [show (w.subscribe k c).linked = w.linked from funext hlink]
    exact hconn
  · exact Or.inr (Or.inl hdrop)
  · exact Or.inr (Or.inr (Or.inl htears))
  · obtain ⟨j, hj⟩ := List.mem_iff_getElem?.mp hb
    refine Or.inr (Or.inr (Or.inr ?_))
    by_cases hkj : k = j
    · have hmod : (w.subscribe k c).bleaks[j]? =
          some { b with subscribed := b.subscribed ++ [c] } := by
        simp [World.subscribe, hj, hkj]
      exact ⟨_, List.mem_of_getElem? hmod, hlost⟩
    · have hmod : (w.subscribe k c).bleaks[j]? = some b := by
        simp [World.subscribe, hj, hkj]
      exact ⟨b, List.mem_of_getElem? hmod, hlost⟩

/-- A link that drops leaves its callback to come. -/
theorem Vouched.lost {w : World} {k : Nat} (hk : w.linked k = true) :
    (w.setLink k .lost).Vouched := by
  unfold linked at hk
  obtain ⟨b, hb, _⟩ := (Option.any_eq_true _ _).mp hk
  have hmod : (w.setLink k .lost).bleaks[k]? = some { b with link := .lost } := by
    simp [setLink, hb]
  exact Or.inr (Or.inr (Or.inr ⟨_, List.mem_of_getElem? hmod, rfl⟩))

/-- The disconnect callback of the library. -/
theorem Shown.reported {w : World} (k : Nat)
    (hok : w.data.available = true → w.client.expectedDisconnect = true →
      (w.setLink k .reported).Corrected) :
    ((w.setLink k .reported).handleDisconnect).Shown := by
  unfold handleDisconnect
  dsimp only
  split
  · rename_i hexpected
    exact fun hav => Or.inr (hok hav hexpected)
  · exact fun _ => Or.inr (Or.inl ⟨.disconnect, by simp, rfl⟩)

/-- A scheduled callback runs: the one of a disconnect marks the device unavailable.  The one of a
notification only merges a value. -/
theorem Shown.runCallback {w : World} (hw : w.Shown) {s : Scheduled} {rest : List Scheduled}
    (hs : w.scheduled = s :: rest) : ({ w with scheduled := rest }.runCallback s).Shown := by
  cases s with
  | disconnect =>
      refine .unavailable ?_
      unfold World.runCallback
      dsimp only
      rw [setAvailable_eq]
  | values change =>
      intro hav
      have hwas : w.data.available = true := by
        simpa [World.runCallback, handleValues] using hav
      rcases hw hwas with hconn | ⟨s, hmem, hdrop⟩ | hrest
      · exact Or.inl hconn
      · rw [hs] at hmem
        rcases List.mem_cons.mp hmem with rfl | hmem
        · exact absurd hdrop (by simp [Scheduled.isDisconnect])
        · exact Or.inr (Or.inl ⟨s, hmem, hdrop⟩)
      · exact Or.inr (Or.inr hrest)

/-- A read-back that is published has its voucher. -/
theorem Shown.readBackDone {w : World} (hw : w.Shown) {i : Nat} {r : Write} {data : Bytes}
    (hi : w.calls[i]? = some (.readingBack r))
    (hok : w.readsBack i (some data) = true → w.Vouched) : (w.readBackDone i r data).Shown := by
  unfold World.readBackDone
  split
  · rename_i change hparse
    have hv : w.Vouched := hok (by simp [readsBack, hi, hparse, Except.isOk, Except.toBool])
    have hpublished : (w.handleAvailable [change]).Vouched :=
      hv.congr rfl rfl (fun _ => id) fun _ => id
    exact Shown.goes (fun _ => hpublished) hi rfl _
  · exact hw.goes hi rfl _

/-- **One step** in which drops are noticed.  By cases over what can move; the assumption is used
where a call goes on to publish values and where a disconnect is reported. -/
theorem Shown.step {w w' : World} {a : Event} (hw : w.Shown) (hok : w.DropsNoticed a)
    (h : w.step a = some w') : w'.Shown := by
  cases moves h with
  | connect => exact hw.newCall _
  | advertised =>
      unfold World.connectIfExpected
      split
      · exact hw.newCall _
      · exact hw.newCall _
  | set => exact hw.asyncSet _
  | disconnect =>
      exact Shown.startTeardown (by simp [World.newCall]) (fun _ _ => rfl)
        (disconnected_unavailable _)
  | lock hi => exact hw.locked hi
  | deviceKnown hi => exact hw.deviceFound hi rfl true
  | deviceUnknown hi => exact hw.goes hi rfl _
  | gotDevice hi => exact hw.deviceFound hi rfl _
  | raised hi hold => exact Shown.leads hw hi hold.tearsDown (connectRaises_leads _ _ w)
  | abandoned =>
      have hlast : (⟨.lost, []⟩ : BleakClient) ∈ w.bleaks ++ [⟨.lost, []⟩] := by simp
      exact fun _ => Or.inr (Or.inr (Or.inr ⟨_, hlast, rfl⟩))
  | established hi => exact Shown.establish hi rfl _ _
  | establishFailed => exact Shown.clientConnected_false _ _
  | gotServices hi => exact hw.servicesFound hi rfl _ hok
  | readDone hi => exact Shown.readRest hw hi rfl _ _ fun _ => hok
  | subscribed hi =>
      exact Shown.leads (fun hav => (hw hav).subscribe _ _) hi rfl
        (subscribeRest_leads _ _ _ _ _ (w.subscribe _ _))
  | subscribeFailed hi => exact Shown.leads hw hi rfl (subscribeRest_leads _ _ _ _ _ w)
  | wrote hi =>
      unfold startReadBack
      split
      · exact hw.goes hi rfl _
      · exact hw.goes hi rfl _
  | writeFailed hi => exact hw.goes hi rfl _
  | readBack hi => exact hw.readBackDone hi hok
  | readBackFailed hi => exact hw.goes hi rfl _
  | connectTornDown hi =>
      exact Shown.teardownRest (List.getElem?_eq_some_iff.mp hi).1 (fun _ _ => rfl)
        (failed_unavailable _ _)
  | disconnectTornDown hi =>
      exact Shown.teardownRest (List.getElem?_eq_some_iff.mp hi).1 (fun _ _ => rfl)
        (disconnected_unavailable _)
  | lost hk => exact fun _ => Vouched.lost hk
  | reported => exact Shown.reported _ hok
  | notified =>
      unfold handleNotify
      split
      · exact fun hav => (hw hav).congr rfl rfl (fun _ => List.mem_append_left _) fun _ => id
      · exact hw
  | ranScheduled hs => exact hw.runCallback hs

/-- **Availability is not claimed without a connection**: in every run in which drops are
noticed, whenever no operation is in progress and no callback is still to come, a device that
is shown available is connected. -/
theorem available_connected {data : BirdieData} {as : List Event} {w : World}
    (hrun : Run step DropsNoticed (init data) as w) (hidle : w.Idle)
    (hav : w.data.available = true) : w.isConnected = true := by
  have hinit : (init data).Shown := .unavailable rfl
  have hw := hrun.invariant Shown (fun _ _ _ hs hok h => hs.step hok h) hinit
  obtain ⟨hdone, hscheduled, hlinks⟩ := hidle
  rcases hw hav with hconn | ⟨s, hs, _⟩ | ⟨c, hc, htears⟩ | ⟨b, hb, hlost⟩
  · exact hconn
  · exact absurd hs (by simp [List.isEmpty_iff.mp hscheduled])
  · exact absurd htears (by simp [(Call.later_of_isDone (hdone c hc)).tearsDown])
  · exact absurd hlost (hlinks b hb)

/-! ## Examples -/

instance (w : World) : Decidable w.Tearing := inferInstanceAs (Decidable (∃ c ∈ w.calls, _))

instance (w : World) : Decidable w.Corrected := inferInstanceAs (Decidable (_ ∨ _ ∨ _))

instance (w : World) : Decidable w.Vouched := inferInstanceAs (Decidable (_ ∨ _))

instance (w : World) : Decidable w.Idle := inferInstanceAs (Decidable (_ ∧ _ ∧ _))

instance (w : World) (a : Event) : Decidable (w.DropsNoticed a) := by
  unfold DropsNoticed
  split <;> infer_instance

/-- A Birdie of which only the CO2 value can be read and notifies. -/
def exampleServices : Services := [(.co2, ⟨true, true⟩)]

def exampleData : BirdieData := { address := py "AA:BB:CC:DD:EE:FF" }

/-- The connect up to the read of the CO2 value. -/
def connecting : List Event :=
  [.connect, .lock 0, .staleClosed 0 true, .established 0 .connected (some exampleServices)]

/-- The value is read and its characteristic subscribed. -/
theorem available_connected_after_setup :
    ∃ w : World, w.data.co2Ppm = some 1000 ∧ w.data.available = true ∧
      w.isConnected = true := by
  let actions := connecting ++ [.readDone 0 (some [232, 3]), .subscribed 0 true]
  let execution := exec step (init exampleData) actions
  obtain ⟨w, hw⟩ := Option.isSome_iff_exists.mp (show execution.isSome = true by decide +kernel)
  have hfacts : ∀ v ∈ execution, v.data.co2Ppm = some 1000 ∧ v.data.available = true ∧
      v.Idle := by decide +kernel
  obtain ⟨hvalue, hav, hidle⟩ := hfacts w hw
  exact ⟨w, hvalue, hav, available_connected (Run.of_meets hw (by decide +kernel)) hidle hav⟩

/-- **A link that drops during the initial read leaves the device shown available.**  The
disconnect callback finds it still unavailable; then the read fails, which is passed over,
and the values are published. -/
theorem available_after_drop :
    ∃ w : World, Run step Anything (init exampleData)
        (connecting ++ [.lost 0, .reported 0, .runScheduled, .readDone 0 none]) w ∧
      w.Idle ∧ w.data.available = true ∧ w.isConnected = false := by
  let execution := exec step (init exampleData)
    (connecting ++ [.lost 0, .reported 0, .runScheduled, .readDone 0 none])
  obtain ⟨w, hw⟩ := Option.isSome_iff_exists.mp (show execution.isSome = true by decide +kernel)
  have hfacts : ∀ v ∈ execution, v.Idle ∧ v.data.available = true ∧ v.isConnected = false := by
    decide +kernel
  exact ⟨w, Run.of_exec hw, hfacts w hw⟩

end World

end Ble
