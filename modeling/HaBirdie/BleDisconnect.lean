import HaBirdie.BleAvailability

/-!
# Whether a Bluetooth disconnect is final

`async_disconnect` does not take the connect lock, so an `async_connect` may be under way.
One that waits for the lock makes the connection expected again when it takes it, and one that
has the lock stores its library client and publishes its values when they arrive.

`disconnect_final` is about all states after an `async_disconnect` in which no such connect
gets that far (`ConnectsYield`): once every call has ended, nothing is connected, expected or
shown available.
-/

namespace Ble

open Python StepRuns

/-- The coordinator's `async_disconnect` at an await. -/
def Call.isDisconnecting : Call → Bool
  | .disconnecting _ _ => true
  | _ => false

/-- A call past its teardown does not disconnect. -/
theorem Call.Later.isDisconnecting {c : Call} (h : c.Later) : c.isDisconnecting = false := by
  cases c with
  | disconnecting k t => exact absurd h.tearsDown (by simp [Call.tearsDown])
  | _ => rfl

namespace World

/-- An `async_disconnect` is in progress. -/
def Disconnecting (w : World) : Prop := ∃ c ∈ w.calls, c.isDisconnecting = true

/-- An `async_connect` is between storing its library client and publishing its values. -/
def Staged (w : World) : Prop := ∃ c ∈ w.calls, c.staged = true

/-- The event starts an `async_connect`. -/
def startsConnect (w : World) : Event → Bool
  | .connect => true
  | .advertised => w.expectedConnected && !w.isConnected
  | .set r => r.inRange && !w.isConnected
  | _ => false

/-- A call that waits for the connect lock takes it. -/
def takesLock : Event → Bool
  | .lock _ => true
  | _ => false

/-- The client has found its services and none of its characteristics can be read. -/
def nothingToRead (w : World) (services : Services) : Bool :=
  (nextRead { w with client := { w.client with services := some services } }
    readCharacteristics).isNone

/-- The event leads a call to publish its values as available. -/
def publishes (w : World) : Event → Bool
  | .established _ link services =>
      decide (link = .connected) && (usable services).any fun s =>
        nothingToRead
          { w with
            bleaks := w.bleaks ++ [{ link }]
            client := { w.client with client := some w.bleaks.length } } s
  | .gotServices _ services => (usable services).any w.nothingToRead
  | .readDone i _ =>
      match w.calls[i]? with
      | some (.reading _ _ rest _) => (w.nextRead rest).isNone
      | _ => false
  | .readBack i payload => w.readsBack i payload
  | _ => false

/-- No `async_connect` starts, none that waits takes the connect lock, and nobody publishes
values unless an `async_disconnect` is in progress. -/
def ConnectsYield (w : World) (a : Event) : Prop :=
  w.startsConnect a = false ∧ takesLock a = false ∧ (w.publishes a = true → w.Disconnecting)

/-- The invariant after an `async_disconnect`. -/
structure Settling (w : World) : Prop where
  expected : w.expectedConnected = false
  available : w.data.available = true → w.Disconnecting
  client : w.client.client ≠ none → w.Disconnecting ∨ w.Staged

/-- The turn of a call that does not disconnect: where it leaves its stage or becomes available,
an `async_disconnect` is in progress. -/
theorem Settling.leads {w w' : World} {i : Nat} {good : Call → Prop} {b : Bool} {old : Call}
    (hw : w.Settling) (hi : w.calls[i]? = some old) (hold : old.isDisconnecting = false)
    (hl : Leads i good b w w') (hb : b = true → w.Disconnecting)
    (hstaged : old.staged = true → (∀ pc, good pc → pc.staged = true) ∨ w.Disconnecting) :
    w'.Settling := by
  obtain ⟨pc, hpc, hcalls⟩ := hl.calls
  have hstill : w.Disconnecting → w'.Disconnecting := stays hcalls hi hold
  refine
    { expected := hl.expected.trans hw.expected, available := ?available, client := ?client }
  case available =>
    intro hav
    exact hstill (hb (hl.available.symm.trans hav))
  case client =>
    intro hclient
    rw [hl.client] at hclient
    rcases hw.client hclient with hdis | hst
    · exact Or.inl (hstill hdis)
    · cases holds : old.staged with
      | false => exact Or.inr (stays hcalls hi holds hst)
      | true =>
          rcases hstaged holds with hgood | hdis
          · refine Or.inr ⟨pc, ?_, hgood pc hpc⟩
            rw [hcalls]
            exact List.mem_set (List.getElem?_eq_some_iff.mp hi).1 pc
          · exact Or.inl (hstill hdis)

/-- The client is forgotten and the device unavailable. -/
theorem Settling.gone {w : World} (hexpected : w.expectedConnected = false)
    (hav : w.data.available = false) (hclient : w.client.client = none) : w.Settling :=
  ⟨hexpected, fun h => absurd (hav.symm.trans h) (by simp), fun h => absurd hclient h⟩

/-- Data and client changed where no availability and no client came. -/
theorem Settling.congr {w w' : World} (hw : w.Settling)
    (hexpected : w'.expectedConnected = w.expectedConnected)
    (hav : w'.data.available = true → w.data.available = true)
    (hclient : w'.client.client ≠ none → w.client.client ≠ none)
    (hcalls : ∀ c ∈ w.calls, c ∈ w'.calls) : w'.Settling := by
  have hdis : w.Disconnecting → w'.Disconnecting := fun ⟨c, hc, h⟩ => ⟨c, hcalls c hc, h⟩
  have hst : w.Staged → w'.Staged := fun ⟨c, hc, h⟩ => ⟨c, hcalls c hc, h⟩
  exact ⟨hexpected.trans hw.expected, fun h => hdis (hw.available (hav h)),
    fun h => (hw.client (hclient h)).imp hdis hst⟩

/-- A new call does not stop a disconnect from being the last word. -/
theorem Settling.newCall {w : World} (hw : w.Settling) (pc : Call) : (w.newCall pc).Settling :=
  hw.congr rfl id id fun _ => List.mem_append_left _

/-- A call that is in no stage goes on. -/
theorem Settling.goes {w : World} (hw : w.Settling) {i : Nat} {old : Call}
    (hi : w.calls[i]? = some old) (hold : old.Later) (pc : Call) : (w.goes i pc).Settling := by
  have hl : Leads i (fun _ => True) w.data.available w (w.goes i pc) := goes_leads i w trivial
  exact hw.leads hi hold.isDisconnecting hl hw.available
    fun h => absurd (hold.staged.symm.trans h) (by simp)

/-- Nor does a call that goes on past its connect. -/
theorem Settling.leadsLater {w w' : World} {i : Nat} {old : Call} (hw : w.Settling)
    (hi : w.calls[i]? = some old) (hold : old.Later)
    (hl : Leads i Call.Later w.data.available w w') : w'.Settling :=
  hw.leads hi hold.isDisconnecting hl hw.available
    fun h => absurd (hold.staged.symm.trans h) (by simp)

/-- A connect whose teardown goes on stays in its stage. -/
theorem Settling.failing {w : World} (hw : w.Settling) {i k : Nat} {p : Purpose} {t : Teardown}
    {old : Call} (hi : w.calls[i]? = some old) (hold : old.isDisconnecting = false) :
    (w.goes i (.failing p k t)).Settling := by
  have hl : Leads i (fun pc => pc.staged = true) w.data.available w
      (w.goes i (.failing p k t)) := goes_leads i w rfl
  exact hw.leads hi hold hl hw.available fun _ => Or.inl fun _ h => h

/-- A connect that fails: what it stored before is forgotten.  The task gives the lock back, and
its caller goes on without a client. -/
theorem Settling.fails {w : World} (hw : w.Settling) {i : Nat} {old : Call}
    (hi : w.calls[i]? = some old) (hold : old.isDisconnecting = false)
    (hclient : old.staged = true → w.client.client = none) (p : Purpose) :
    (w.clientConnected i p false).Settling := by
  have hl := World.clientConnected_false i p w
  obtain ⟨pc, _, hcalls⟩ := hl.calls
  refine
    { expected := hl.expected.trans hw.expected, available := ?available, client := ?client }
  case available =>
    intro hav
    exact absurd (hl.available.symm.trans hav) (by simp)
  case client =>
    intro hne
    rw [hl.client] at hne
    rcases hw.client hne with hdis | hst
    · exact Or.inl (stays hcalls hi hold hdis)
    · cases holds : old.staged with
      | false => exact Or.inr (stays hcalls hi holds hst)
      | true => exact absurd (hclient holds) hne

/-- An initial read goes on, or publishes.  It may publish only where another disconnect is on its
way. -/
theorem Settling.readRest (w : World) {i : Nat} {old : Call}
    (hexpected : w.expectedConnected = false)
    (havailable : w.data.available = true → w.Disconnecting)
    (hi : w.calls[i]? = some old) (hold : old.isDisconnecting = false) (p : Purpose)
    {rest : List Characteristic} (values : List Change)
    (hpublish : w.nextRead rest = none → w.Disconnecting) :
    (w.readRest i p rest values).Settling := by
  have hlt := (List.getElem?_eq_some_iff.mp hi).1
  rcases readRest_cases i p rest values w with ⟨_, hl⟩ | ⟨hnone, hl⟩
  · obtain ⟨pc, hpc, hcalls⟩ := hl.calls
    have hmem : pc ∈ (w.readRest i p rest values).calls := by
      rw [hcalls]
      exact List.mem_set hlt pc
    refine
      { expected := hl.expected.trans hexpected, available := ?_,
        client := fun _ => Or.inr ⟨pc, hmem, hpc.1⟩ }
    intro hav
    exact stays hcalls hi hold (havailable (hl.available.symm.trans hav))
  · obtain ⟨pc, _, hcalls⟩ := hl.calls
    have hdis : Disconnecting (w.readRest i p rest values) :=
      stays hcalls hi hold (hpublish hnone)
    exact ⟨hl.expected.trans hexpected, fun _ => hdis, fun _ => Or.inl hdis⟩

/-- What a call that tears down leads to when it is over. -/
theorem Settling.torn {w : World} (hexpected : w.expectedConnected = false)
    (hclient : w.client.client = none) {i : Nat} {w' : World}
    (hl : Leads i Call.Later false w w') : w'.Settling :=
  .gone (hl.expected.trans hexpected) hl.available (by rw [hl.client]; exact hclient)

/-- **An `async_disconnect` settles** any state. -/
theorem asyncDisconnect_settling (w : World) : w.asyncDisconnect.Settling := by
  unfold asyncDisconnect
  dsimp only
  rcases startTeardown_cases .disconnecting (disconnected w.calls.length) w.calls.length
    ({ w with expectedConnected := false }.newCall (.done (.returned true))) with
    ⟨k, t, h⟩ | ⟨w₁, hforgot, h⟩
  · rw [h]
    have hdis : Disconnecting (goes w.calls.length (.disconnecting k t)
        { ({ w with expectedConnected := false }.newCall (.done (.returned true))) with
          client := { w.client with expectedDisconnect := true } }) :=
      ⟨.disconnecting k t, List.mem_set (by simp [World.newCall]) _, rfl⟩
    exact ⟨rfl, fun _ => hdis, fun _ => Or.inl hdis⟩
  · rw [h]
    exact .torn (hforgot.expected.trans rfl) hforgot.client (disconnected_leads _ w₁)

/-- The services of a connect arrive, or its connection is torn down.  With nothing to read the
data is published at once. -/
theorem Settling.servicesFound {w : World} (hw : w.Settling) {i k : Nat} {p : Purpose}
    (hi : w.calls[i]? = some (.gettingServices p k)) (services : Option Services)
    (hpublish : services.any w.nothingToRead = true → w.Disconnecting) :
    (w.servicesFound i p services).Settling := by
  unfold World.servicesFound
  cases services with
  | some s =>
      let w₀ : World := { w with client := { w.client with services := some s } }
      have hread : (w₀.readRest i p readCharacteristics []).Settling :=
        Settling.readRest w₀ hw.expected hw.available hi rfl p [] fun hnone =>
          hpublish (by simpa [nothingToRead] using hnone)
      exact hread
  | none =>
      rcases startTeardown_cases (.failing p) (failed i p) i w with ⟨k', t, h⟩ | ⟨w₁, hforgot, h⟩
      · dsimp only
        rw [h]
        have hsame : Settling { w with client := { w.client with expectedDisconnect := true } } :=
          hw.congr rfl id id fun _ => id
        exact hsame.failing hi rfl
      · dsimp only
        rw [h]
        exact .torn (hforgot.expected.trans hw.expected) hforgot.client
          (World.clientConnected_false i p w₁)

/-- A library client is stored, or the connect fails.  Where the services are cached, this turn may
reach the publication. -/
theorem Settling.establish {w : World} (hw : w.Settling) {i : Nat} {p : Purpose}
    (hi : w.calls[i]? = some (.establishing p)) (link : Link) (services : Option Services)
    (hpublish : w.publishes (.established i link services) = true → w.Disconnecting) :
    (w.establish i p link services).Settling := by
  unfold World.establish
  dsimp only
  split
  · rename_i hlink
    split
    · rename_i s hs
      let w₀ : World :=
        { w with
          bleaks := w.bleaks ++ [{ link }]
          client := { w.client with client := some w.bleaks.length, services := some s } }
      have hread : (w₀.readRest i p readCharacteristics []).Settling := by
        refine Settling.readRest w₀ hw.expected hw.available hi rfl p [] fun hnone => hpublish ?_
        simp only [publishes, hs, Option.any_some]
        exact Bool.and_eq_true_iff.mpr
          ⟨decide_eq_true hlink, Option.isNone_iff_eq_none.mpr hnone⟩
      exact hread
    · -- it awaits its services and is in a stage
      have hstaged : Staged (World.goes i (.gettingServices p w.bleaks.length)
          { w with
            bleaks := w.bleaks ++ [{ link }]
            client := { w.client with client := some w.bleaks.length } }) :=
        ⟨_, List.mem_set (List.getElem?_eq_some_iff.mp hi).1 _, rfl⟩
      exact ⟨hw.expected, fun hav => stays rfl hi rfl (hw.available hav), fun _ => Or.inr hstaged⟩
  · have hsame : Settling { w with bleaks := w.bleaks ++ [{ link }] } :=
      hw.congr rfl id id fun _ => id
    exact hsame.fails hi rfl (fun h => absurd h (by simp [Call.staged])) p

/-- Nor one that looks its device up. -/
theorem Settling.deviceFound {w : World} (hw : w.Settling) {i : Nat} {p : Purpose} {old : Call}
    (hi : w.calls[i]? = some old) (hold : old.Later) (found : Bool) :
    (w.deviceFound i p found).Settling := by
  unfold World.deviceFound
  split
  · have hsame : Settling { w with client := { w.client with expectedDisconnect := false } } :=
      hw.congr rfl id id fun _ => id
    exact hsame.goes hi hold _
  · exact hw.fails hi hold.isDisconnecting
      (fun h => absurd (hold.staged.symm.trans h) (by simp)) p

/-- Nor a write that finds the client connected, or whose value is refused. -/
theorem Settling.asyncSet {w : World} (hw : w.Settling) {r : Write}
    (hok : (r.inRange && !w.isConnected) = false) : (w.asyncSet r).Settling := by
  unfold World.asyncSet
  split
  · rename_i hrange
    have hconn : w.isConnected = true := by simpa [hrange] using hok
    rw [if_pos hconn]
    exact (hw.newCall (.writing r)).leadsLater (getElem?_newCall w _) ⟨rfl, rfl⟩
      (startWrite_leads _ r _)
  · exact hw.newCall _

/-- The published read-back of a write. -/
theorem Settling.readBack {w : World} (hw : w.Settling) {i : Nat} {r : Write}
    (hi : w.calls[i]? = some (.readingBack r)) (data : Bytes)
    (hpublish : w.readsBack i (some data) = true → w.Disconnecting) :
    (w.readBackDone i r data).Settling := by
  unfold readBackDone
  split
  · rename_i change hparse
    have hdis : w.Disconnecting :=
      hpublish (by simp [readsBack, hi, hparse, Except.isOk, Except.toBool])
    have hstill : Disconnecting ((w.handleAvailable [change]).goes i (.done (.returned true))) :=
      stays rfl hi rfl hdis
    exact ⟨hw.expected, fun _ => hstill, fun _ => Or.inl hstill⟩
  · exact hw.goes hi ⟨rfl, rfl⟩ _

/-- An `async_disconnect` goes on, or is over. -/
theorem Settling.disconnectRest {w : World} (hw : w.Settling) {i k : Nat} {t : Teardown}
    (hi : w.calls[i]? = some (.disconnecting k t)) :
    (w.teardownRest .disconnecting (disconnected i) i k t).Settling := by
  rcases teardownRest_cases .disconnecting (disconnected i) i k t w with
    ⟨t', h⟩ | ⟨w₁, hforgot, h⟩
  · rw [h]
    have hdis : Disconnecting (w.goes i (.disconnecting k t')) :=
      ⟨_, List.mem_set (List.getElem?_eq_some_iff.mp hi).1 _, rfl⟩
    exact ⟨hw.expected, fun _ => hdis, fun _ => Or.inl hdis⟩
  · rw [h]
    exact .torn (hforgot.expected.trans hw.expected) hforgot.client (disconnected_leads i w₁)

/-- The teardown of a failing connect goes on, or is over. -/
theorem Settling.failingRest {w : World} (hw : w.Settling) {i k : Nat} {p : Purpose}
    {t : Teardown} (hi : w.calls[i]? = some (.failing p k t)) :
    (w.teardownRest (.failing p) (failed i p) i k t).Settling := by
  rcases teardownRest_cases (.failing p) (failed i p) i k t w with ⟨t', h⟩ | ⟨w₁, hforgot, h⟩
  · rw [h]
    exact hw.failing hi rfl
  · rw [h]
    exact .torn (hforgot.expected.trans hw.expected) hforgot.client
      (World.clientConnected_false i p w₁)

/-- **One step** after an `async_disconnect`.  The steps that could publish are those that the
assumption is about. -/
theorem Settling.step {w w' : World} {a : Event} (hw : w.Settling) (hok : w.ConnectsYield a)
    (h : w.step a = some w') : w'.Settling := by
  obtain ⟨hstart, hlock, hpublish⟩ := hok
  cases moves h with
  | connect => exact absurd hstart (by simp [startsConnect])
  | advertised =>
      unfold World.connectIfExpected
      rw [if_neg (by simpa [startsConnect] using hstart)]
      exact hw.newCall _
  | set => exact hw.asyncSet hstart
  | disconnect => exact asyncDisconnect_settling w
  | lock => exact absurd hlock (by simp [takesLock])
  | deviceKnown hi => exact hw.deviceFound hi ⟨rfl, rfl⟩ true
  | deviceUnknown hi => exact hw.goes hi ⟨rfl, rfl⟩ _
  | gotDevice hi => exact hw.deviceFound hi ⟨rfl, rfl⟩ _
  | raised hi hold => exact hw.leadsLater hi hold (connectRaises_leads _ _ w)
  | abandoned => exact hw.congr rfl id id fun _ => id
  | established hi => exact hw.establish hi _ _ hpublish
  | establishFailed hi => exact hw.fails hi rfl (fun h => absurd h (by simp [Call.staged])) _
  | gotServices hi => exact hw.servicesFound hi _ hpublish
  | readDone hi =>
      refine Settling.readRest _ hw.expected hw.available hi rfl _ _ fun hnone => hpublish ?_
      simp [publishes, hi, hnone]
  | @subscribed i k p services c rest hi =>
      have hsame : (w.subscribe k c).Settling := hw.congr rfl id id fun _ => id
      exact hsame.leadsLater hi ⟨rfl, rfl⟩ (subscribeRest_leads i p k services rest _)
  | subscribeFailed hi => exact hw.leadsLater hi ⟨rfl, rfl⟩ (subscribeRest_leads _ _ _ _ _ w)
  | wrote hi =>
      unfold startReadBack
      split
      · exact hw.goes hi ⟨rfl, rfl⟩ _
      · exact hw.goes hi ⟨rfl, rfl⟩ _
  | writeFailed hi => exact hw.goes hi ⟨rfl, rfl⟩ _
  | readBack hi => exact hw.readBack hi _ hpublish
  | readBackFailed hi => exact hw.goes hi ⟨rfl, rfl⟩ _
  | connectTornDown hi => exact hw.failingRest hi
  | disconnectTornDown hi => exact hw.disconnectRest hi
  | lost => exact hw.congr rfl id id fun _ => id
  | reported =>
      unfold handleDisconnect
      dsimp only
      split
      · exact hw.congr rfl id (fun h => absurd rfl h) fun _ => id
      · exact hw.congr rfl id (fun h => absurd rfl h) fun _ => id
  | notified =>
      unfold handleNotify
      split
      · exact hw.congr rfl id id fun _ => id
      · exact hw
  | @ranScheduled s rest =>
      cases s with
      | values change => exact hw.congr rfl (by simp [runCallback, handleValues]) id fun _ => id
      | disconnect =>
          unfold runCallback
          dsimp only
          rw [setAvailable_eq]
          exact hw.congr rfl (by simp) id fun _ => id

/-- **A disconnect is final.**  After an `async_disconnect` in any state, in every run in which no
`async_connect` starts, no waiting one takes the lock and nobody publishes values without an
`async_disconnect` in progress: once all calls have ended, the client holds no connection,
none is expected, and the device is shown unavailable. -/
theorem disconnect_final {w w₁ w' : World} {as : List Event} (hcall : w.step .disconnect = some w₁)
    (hrun : Run step ConnectsYield w₁ as w') (hdone : ∀ c ∈ w'.calls, c.isDone = true) :
    w'.isConnected = false ∧ w'.expectedConnected = false ∧ w'.data.available = false := by
  obtain rfl := Option.some.inj hcall
  have hw := hrun.invariant Settling (fun _ _ _ hs hok h => hs.step hok h)
    (asyncDisconnect_settling w)
  have hnot : ¬ w'.Disconnecting := by
    intro hparts
    obtain ⟨c, hc, hdis⟩ := hparts
    have hlater := (Call.later_of_isDone (hdone c hc)).isDisconnecting
    exact absurd (hlater.symm.trans hdis) (by simp)
  have hunstaged : ¬ w'.Staged := by
    intro hparts
    obtain ⟨c, hc, hst⟩ := hparts
    have hlater := (Call.later_of_isDone (hdone c hc)).staged
    exact absurd (hlater.symm.trans hst) (by simp)
  have hclient : w'.client.client = none := by
    by_contra hne
    exact (hw.client hne).elim hnot hunstaged
  refine ⟨by simp [isConnected, hclient], hw.expected, ?_⟩
  by_contra hav
  exact hnot (hw.available (by simpa using hav))

/-! ## Examples -/

instance (w : World) : Decidable w.Disconnecting :=
  inferInstanceAs (Decidable (∃ c ∈ w.calls, _))

instance (w : World) (a : Event) : Decidable (w.ConnectsYield a) :=
  inferInstanceAs (Decidable (_ ∧ _ ∧ (_ → w.Disconnecting)))

/-- A Birdie that was set up is disconnected. -/
theorem disconnect_final_after_setup :
    ∃ w w' : World, w.isConnected = true ∧ w'.isConnected = false ∧
      w'.expectedConnected = false ∧ w'.data.available = false := by
  let setup := exec step (init exampleData)
    (connecting ++ [.readDone 0 (some [232, 3]), .subscribed 0 true])
  obtain ⟨w, hw⟩ := Option.isSome_iff_exists.mp (show setup.isSome = true by decide +kernel)
  have hafter : ∀ w ∈ setup, w.isConnected = true ∧ ∃ w₁ ∈ w.step .disconnect,
      Meets step ConnectsYield w₁ [.tornDown 1, .tornDown 1] ∧
      ∃ w' ∈ exec step w₁ [.tornDown 1, .tornDown 1], ∀ c ∈ w'.calls, c.isDone = true := by
    decide +kernel
  obtain ⟨hconn, w₁, hw₁, hmeets, w', hw', hdone⟩ := hafter w hw
  exact ⟨w, w', hconn, disconnect_final hw₁ (Run.of_meets hw' hmeets) hdone⟩

/-- **A connect in flight outlives the disconnect.**  The client holds no library client yet when
`async_disconnect` runs; then the connection is established and its values published. -/
theorem connect_outlives_disconnect :
    ∃ w w₁ w' : World,
      Run step Anything (init exampleData) [.connect, .lock 0, .staleClosed 0 true] w ∧
      w.step .disconnect = some w₁ ∧
      Run step (fun w a => w.startsConnect a = false) w₁
        [.established 0 .connected (some exampleServices), .readDone 0 (some [232, 3]),
          .subscribed 0 true] w' ∧
      (∀ c ∈ w'.calls, c.isDone = true) ∧ w'.isConnected = true ∧ w'.data.available = true := by
  let setup := exec step (init exampleData) [.connect, .lock 0, .staleClosed 0 true]
  let after : List Event := [.established 0 .connected (some exampleServices),
    .readDone 0 (some [232, 3]), .subscribed 0 true]
  obtain ⟨w, hw⟩ := Option.isSome_iff_exists.mp (show setup.isSome = true by decide +kernel)
  have hafter : ∀ w ∈ setup, ∃ w₁ ∈ w.step .disconnect,
      Meets step (fun w a => w.startsConnect a = false) w₁ after ∧
      ∃ w' ∈ exec step w₁ after, (∀ c ∈ w'.calls, c.isDone = true) ∧
        w'.isConnected = true ∧ w'.data.available = true := by
    decide +kernel
  obtain ⟨w₁, hw₁, hmeets, w', hw', hdone, hconn, hav⟩ := hafter w hw
  exact ⟨w, w₁, w', Run.of_exec hw, hw₁, Run.of_meets hw' hmeets, hdone, hconn, hav⟩

end World

end Ble
