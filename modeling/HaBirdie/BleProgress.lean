import HaBirdie.BleSubscriptions
import Mathlib.Algebra.Order.BigOperators.Group.List

/-!
# Every Bluetooth call ends

A call of a `BirdieCoordinator` waits for the connect lock or for the library, and whoever holds
the lock waits for the library.  So there is no deadlock: whatever the library answers, a call that
has not ended goes on, or waits for a lock whose holder does (`LockHeld`).

Nor is there a livelock.  `awaitsLeft` bounds how many awaits can still end.  It counts, for each
call, the characteristics that are left to read and to subscribe, and the subscriptions that a
teardown may have to stop; a subscription that one call adds was counted for it before.  Every end
of an await makes it smaller, whatever happens to the link in between (`awaitsLeft_step`).
-/

namespace Ble

open Python StepRuns

/-! ## What is left -/

/-- The awaits of a write after its connect. -/
def Purpose.left : Purpose → ℕ
  | .connect => 0
  | .write _ => 2

def Teardown.left : Teardown → ℕ
  | .stopping rest => rest.length + 2
  | .closing => 1

/-- How many subscriptions a call can still add. -/
def Call.subscribes : Call → ℕ
  | .locking _ | .closingStale _ | .gettingDevice _ | .establishing _ | .gettingServices _ _
  | .reading _ _ _ _ => notifyCharacteristics.length
  | .subscribing _ _ _ _ rest => rest.length + 1
  | _ => 0

/-- The awaits of a connect from its initial read on. -/
def Purpose.readsLeft (p : Purpose) : ℕ :=
  readCharacteristics.length + notifyCharacteristics.length + p.left

/-- How many awaits of a call can still end, when at most `n` subscriptions are to be stopped. -/
def Call.left (n : ℕ) : Call → ℕ
  | .locking p => p.readsLeft + n + 7
  | .closingStale p => p.readsLeft + n + 6
  | .gettingDevice p => p.readsLeft + n + 5
  | .establishing p => p.readsLeft + n + 4
  | .gettingServices p _ => p.readsLeft + n + 3
  | .failing _ _ t => t.left
  | .reading p _ rest _ => rest.length + 1 + notifyCharacteristics.length + p.left
  | .subscribing p _ _ _ rest => rest.length + 1 + p.left
  | .writing _ => 2
  | .readingBack _ => 1
  | .disconnecting _ t => t.left
  | .done _ => 0

/-- With less subscriptions to stop, less is left. -/
theorem Call.left_mono {m n : ℕ} (h : m ≤ n) (c : Call) : c.left m ≤ c.left n := by
  cases c <;> simp only [Call.left] <;> omega

/-- A client that is kept or forgotten has no more subscriptions to stop than before. -/
theorem BleClient.Kept.length_le {c c' : BleClient} (h : c.Kept c') :
    c'.notifyCharacteristics.length ≤ c.notifyCharacteristics.length := by
  rcases h with ⟨_, _, hsame⟩ | ⟨_, hnone⟩
  · rw [hsame]
  · simp [hnone]

namespace World

/-- The subscriptions that there are, and those that may be added. -/
def subscriptions (w : World) : ℕ :=
  w.client.notifyCharacteristics.length + (w.calls.map Call.subscribes).sum

/-- How many awaits can still end. -/
def awaitsLeft (w : World) : ℕ := (w.calls.map (Call.left w.subscriptions)).sum

/-! ## The turn of a call -/

/-- What a turn of the `i`-th call leaves: at most `left` awaits and `subs` subscriptions to go,
and the lock, if the call `holds` it, as long as it is in its connect. -/
structure Turned (i : ℕ) (holds : Bool) (subs left n : ℕ) (w w' : World) : Prop where
  place : ∃ pc, w'.calls = w.calls.set i pc ∧ pc.left n ≤ left ∧
    w'.client.notifyCharacteristics.length + pc.subscribes ≤
      w.client.notifyCharacteristics.length + subs ∧
    (pc.inConnect = true ∧ holds = true ∧ w'.connectLock = w.connectLock ∨
      pc.inConnect = false ∧ w'.connectLock = if holds then none else w.connectLock)

variable {i subs left n : ℕ} {holds : Bool}

/-- Going on within the connect. -/
theorem Turned.stays {w : World} {pc : Call} (hin : pc.inConnect = true) (hleft : pc.left n ≤ left)
    (hsubs : pc.subscribes ≤ subs) : Turned i true subs left n w (w.goes i pc) :=
  ⟨pc, rfl, hleft, Nat.add_le_add_left hsubs _, Or.inl ⟨hin, rfl, rfl⟩⟩

/-- Going on outside of it. -/
theorem Turned.outside {w : World} {pc : Call} (hin : pc.inConnect = false)
    (hleft : pc.left n ≤ left) (hsubs : pc.subscribes ≤ subs) :
    Turned i false subs left n w (w.goes i pc) :=
  ⟨pc, rfl, hleft, Nat.add_le_add_left hsubs _, Or.inr ⟨hin, rfl⟩⟩

/-- What has at most so much to go has at most more to go. -/
theorem Turned.mono {subs' left' : ℕ} {w w' : World} (h : Turned i holds subs left n w w')
    (hsubs : subs ≤ subs') (hleft : left ≤ left') : Turned i holds subs' left' n w w' := by
  obtain ⟨pc, hcalls, hpc, hcount, hlock⟩ := h.place
  exact ⟨pc, hcalls, hpc.trans hleft, hcount.trans (Nat.add_le_add_left hsubs _), hlock⟩

/-- The client may have lost subscriptions before. -/
theorem Turned.after {w w₀ w' : World} (h : Turned i holds subs left n w₀ w')
    (hcalls : w₀.calls = w.calls)
    (hnotify : w₀.client.notifyCharacteristics.length ≤ w.client.notifyCharacteristics.length)
    (hlock : w₀.connectLock = w.connectLock) : Turned i holds subs left n w w' := by
  obtain ⟨pc, hset, hpc, hcount, hkept⟩ := h.place
  exact ⟨pc, hcalls ▸ hset, hpc, hcount.trans (Nat.add_le_add_right hnotify _), hlock ▸ hkept⟩

/-- The lock is released, and nobody else's is touched. -/
theorem Turned.released {w w' : World} (h : Turned i false subs left n w.release w') :
    Turned i true subs left n w w' := by
  obtain ⟨pc, hset, hpc, hcount, hlock⟩ := h.place
  rcases hlock with ⟨_, hfalse, _⟩ | ⟨hin, hnone⟩
  · exact absurd hfalse (by simp)
  · exact ⟨pc, hset, hpc, hcount, Or.inr ⟨hin, hnone⟩⟩

/-- A write has its write and its read-back to go, and asks for no lock. -/
theorem startWrite_turned (r : Write) (w : World) :
    Turned i false 0 2 n w (w.startWrite i r) := by
  obtain ⟨pc, hgoes, hpc⟩ := startWrite_calls i r w
  rw [hgoes]
  rcases hpc with rfl | ⟨e, rfl⟩
  · exact .outside rfl (le_refl 2) (le_refl 0)
  · exact .outside rfl (Nat.zero_le 2) (le_refl 0)

/-- A connect that returns leaves its call with what the call wanted the connection for. -/
theorem connectReturns_turned (p : Purpose) (result : Bool) (w : World) :
    Turned i true 0 p.left n w (w.connectReturns i p result) := by
  unfold connectReturns
  dsimp only
  split
  · exact Turned.released (.outside rfl (Nat.zero_le _) (le_refl 0))
  · exact Turned.released (startWrite_turned _ _)
  · exact Turned.released (.outside rfl (Nat.zero_le _) (le_refl 0))

/-- A connect that raises ends its call. -/
theorem connectRaises_turned (e : Ending) (w : World) :
    Turned i true 0 0 n w (w.connectRaises i e) :=
  Turned.released (.outside rfl (le_refl 0) (le_refl 0))

/-- One await for each characteristic that is still to be subscribed to. -/
theorem subscribeRest_turned (p : Purpose) (k : ℕ) (services : Services)
    (rest : List Characteristic) (w : World) :
    Turned i true rest.length (rest.length + p.left) n w (w.subscribeRest i p k services rest) := by
  unfold subscribeRest
  split
  · rename_i c rest' hnext
    have hlength := (nextNotify_sublist hnext).length_le
    rw [List.length_cons] at hlength
    refine .stays rfl ?_ hlength
    simp only [Call.left]
    omega
  · exact (connectReturns_turned p true w).mono (Nat.zero_le _) (Nat.le_add_left _ _)

/-- No more subscriptions than there are characteristics that notify. -/
theorem startNotify_turned (p : Purpose) (w : World) :
    Turned i true notifyCharacteristics.length (notifyCharacteristics.length + p.left) n w
      (w.startNotify i p) := by
  unfold startNotify
  split
  · exact subscribeRest_turned p _ _ _ w
  · exact (connectRaises_turned _ w).mono (Nat.zero_le _) (Nat.zero_le _)
  · exact (connectRaises_turned _ w).mono (Nat.zero_le _) (Nat.zero_le _)

/-- The next read is of a characteristic that is left. -/
theorem nextRead_length {w : World} {l rest : List Characteristic} {c : Characteristic}
    (h : w.nextRead l = some (c, rest)) : rest.length + 1 ≤ l.length := by
  induction l with
  | nil => exact absurd h (by simp [nextRead])
  | cons d l ih =>
      unfold nextRead at h
      split at h
      · obtain ⟨rfl, rfl⟩ := Prod.mk.inj (Option.some.inj h)
        exact le_refl _
      · exact (ih h).trans (Nat.le_succ _)

/-- One await for each characteristic that is still to be read, and then the subscriptions.  A
characteristic that the services lack is passed over without an await. -/
theorem readRest_turned (p : Purpose) (rest : List Characteristic) (values : List Change)
    (w : World) :
    Turned i true notifyCharacteristics.length
      (rest.length + notifyCharacteristics.length + p.left) n w (w.readRest i p rest values) := by
  unfold readRest
  split
  · rename_i c rest' hnext
    have hlength := nextRead_length hnext
    refine .stays rfl ?_ (le_refl _)
    simp only [Call.left]
    omega
  · have hstart := startNotify_turned (i := i) (n := n) p (w.handleAvailable values)
    refine (hstart.mono (le_refl _) (by omega)).after ?_ ?_ ?_
    · rfl
    · exact le_refl _
    · rfl

/-- After the client's part: the initial read, the subscriptions, and what the call wanted the
connection for. -/
theorem clientConnected_turned (p : Purpose) (result : Bool) (w : World) :
    Turned i true notifyCharacteristics.length p.readsLeft n w (w.clientConnected i p result) := by
  unfold clientConnected
  split
  · exact readRest_turned p readCharacteristics [] w
  · rw [setAvailable_eq]
    refine ((connectReturns_turned p false _).mono (Nat.zero_le _) ?_).after ?_ ?_ ?_
    · exact Nat.le_add_left _ _
    · rfl
    · exact le_refl _
    · rfl

/-- A connect that failed is over. -/
theorem failed_turned (p : Purpose) (w : World) : Turned i true 0 0 n w (failed i p w) := by
  unfold failed clientConnected
  rw [if_neg (by simp), setAvailable_eq]
  have hout : Turned i true 0 0 n { w with data := { w.data with available := false } }
      (connectReturns i p false { w with data := { w.data with available := false } }) := by
    cases p with
    | connect => exact Turned.released (.outside rfl (le_refl 0) (le_refl 0))
    | write r => exact Turned.released (.outside rfl (le_refl 0) (le_refl 0))
  refine hout.after ?_ ?_ ?_
  · rfl
  · exact le_refl _
  · rfl

/-- A call that has disconnected has ended. -/
theorem disconnected_turned (w : World) : Turned i false 0 0 n w (disconnected i w) := by
  unfold disconnected
  rw [setAvailable_eq]
  have hout : Turned i false 0 0 n { w with data := { w.data with available := false } }
      (goes i (.done (.returned true)) { w with data := { w.data with available := false } }) :=
    .outside rfl (le_refl 0) (le_refl 0)
  refine hout.after ?_ ?_ ?_
  · rfl
  · exact le_refl _
  · rfl

/-! ### Teardowns -/

/-- A teardown has one await for each subscription that it still has to stop, and one for the
link. -/
theorem nextTeardown_left {w : World} {k : ℕ} {rest : List Characteristic} {t : Teardown}
    (h : w.nextTeardown k rest = some t) : t.left ≤ rest.length + 1 := by
  unfold nextTeardown at h
  split at h
  · obtain rfl := Option.some.inj h
    exact le_refl _
  · split at h
    · obtain rfl := Option.some.inj h
      exact le_refl _
    · exact absurd h (by simp)

/-- The places of a teardown: within the connect if the call holds the lock. -/
structure TearsDown (holds : Bool) (n : ℕ) (pc : ℕ → Teardown → Call) : Prop where
  left : ∀ k t, (pc k t).left n = t.left
  subscribes : ∀ k t, (pc k t).subscribes = 0
  inConnect : ∀ k t, (pc k t).inConnect = holds

/-- A call that goes to a place of its teardown has that teardown to go. -/
theorem TearsDown.goes {pc : ℕ → Teardown → Call} (hpc : TearsDown holds n pc) {w : World} (k : ℕ)
    {t : Teardown} (ht : t.left ≤ left) : Turned i holds 0 left n w (w.goes i (pc k t)) := by
  have hleft := (hpc.left k t).trans_le ht
  have hsubs := (hpc.subscribes k t).le
  cases holds with
  | true => exact .stays (hpc.inConnect k t) hleft hsubs
  | false => exact .outside (hpc.inConnect k t) hleft hsubs

/-- The teardown of a connect that fails is within the connect, and holds the lock. -/
theorem failing_tearsDown (p : Purpose) : TearsDown true n (.failing p) :=
  ⟨fun _ _ => rfl, fun _ _ => rfl, fun _ _ => rfl⟩

/-- The teardown of `async_disconnect` holds no lock. -/
theorem disconnecting_tearsDown : TearsDown false n .disconnecting :=
  ⟨fun _ _ => rfl, fun _ _ => rfl, fun _ _ => rfl⟩

/-- A teardown begins with the subscriptions that there are.  It awaits one stop for each, and the
disconnect at its end. -/
theorem startTeardown_turned {pc : ℕ → Teardown → Call} {after : World → World}
    (hpc : TearsDown holds n pc) (hafter : ∀ w, Turned i holds 0 0 n w (after w)) {w : World}
    (hn : w.client.notifyCharacteristics.length ≤ n) :
    Turned i holds 0 (n + 1) n w (w.startTeardown pc after i) := by
  unfold startTeardown
  dsimp only
  split
  · refine ((hafter _).mono (le_refl 0) (Nat.zero_le _)).after ?_ ?_ ?_
    · rfl
    · exact Nat.zero_le _
    · rfl
  · rename_i k _
    split
    · rename_i t hnext
      have ht : t.left ≤ n + 1 := (nextTeardown_left hnext).trans (Nat.succ_le_succ hn)
      refine (hpc.goes k ht).after ?_ ?_ ?_
      · rfl
      · exact le_refl _
      · rfl
    · refine ((hafter _).mono (le_refl 0) (Nat.zero_le _)).after ?_ ?_ ?_
      · rfl
      · exact Nat.zero_le _
      · rfl

/-- A teardown goes on with one await less.  At its end the caller goes on, with `after`. -/
theorem teardownRest_turned {pc : ℕ → Teardown → Call} {after : World → World}
    (hpc : TearsDown holds n pc) (hafter : ∀ w, Turned i holds 0 0 n w (after w)) (w : World)
    (k : ℕ) (t : Teardown) :
    Turned i holds 0 (t.left - 1) n w (w.teardownRest pc after i k t) := by
  have hover : Turned i holds 0 (t.left - 1) n w (after w.forget) := by
    refine ((hafter _).mono (le_refl 0) (Nat.zero_le _)).after ?_ ?_ ?_
    · rfl
    · exact Nat.zero_le _
    · rfl
  unfold teardownRest
  cases t with
  | closing => exact hover
  | stopping rest =>
      dsimp only
      split
      · rename_i t hnext
        exact hpc.goes k (nextTeardown_left hnext)
      · exact hover

/-! ### Connects -/

/-- Once the services are known: the read and the subscriptions, or a teardown.  The larger of the
two bounds is taken, with room for both. -/
theorem servicesFound_turned (p : Purpose) (services : Option Services) {w : World}
    (hn : w.client.notifyCharacteristics.length ≤ n) :
    Turned i true notifyCharacteristics.length (p.readsLeft + n + 1) n w
      (w.servicesFound i p services) := by
  unfold servicesFound
  split
  · rename_i s
    have hconnected := clientConnected_turned (i := i) (n := n) p true
      { w with client := { w.client with services := some s } }
    refine (hconnected.mono (le_refl _) (by omega)).after ?_ ?_ ?_
    · rfl
    · exact le_refl _
    · rfl
  · exact (startTeardown_turned (failing_tearsDown p) (failed_turned p) hn).mono (Nat.zero_le _)
      (by omega)

/-- Once the device is known: the link, the services, and what comes after them.  Without a device
the connect fails at once. -/
theorem deviceFound_turned (p : Purpose) (found : Bool) (w : World) :
    Turned i true notifyCharacteristics.length (p.readsLeft + n + 4) n w
      (w.deviceFound i p found) := by
  unfold deviceFound
  split
  · have hstays : Turned i true notifyCharacteristics.length (p.readsLeft + n + 4) n
        { w with client := { w.client with expectedDisconnect := false } }
        (goes i (.establishing p)
          { w with client := { w.client with expectedDisconnect := false } }) :=
      .stays rfl (le_refl _) (le_refl _)
    refine hstays.after ?_ ?_ ?_
    · rfl
    · exact le_refl _
    · rfl
  · exact (clientConnected_turned p false w).mono (le_refl _) (by omega)

/-- Once the link is there: the services, and what comes after them or a teardown.  Services that
are cached cost no await. -/
theorem establish_turned (p : Purpose) (link : Link) (services : Option Services) {w : World}
    (hn : w.client.notifyCharacteristics.length ≤ n) :
    Turned i true notifyCharacteristics.length (p.readsLeft + n + 3) n w
      (w.establish i p link services) := by
  unfold establish
  dsimp only
  split
  · split
    · rename_i s _
      refine ((servicesFound_turned p (some s) ?_).mono (le_refl _) (by omega)).after ?_ ?_ ?_
      · exact hn
      · rfl
      · exact le_refl _
      · rfl
    · refine Turned.after (Turned.stays rfl (le_refl _) (le_refl _)) ?_ ?_ ?_
      · rfl
      · exact le_refl _
      · rfl
  · refine ((clientConnected_turned p false _).mono (le_refl _) (by omega)).after ?_ ?_ ?_
    · rfl
    · exact le_refl _
    · rfl

/-- The connect that takes the lock, from the lock on.  A client that is connected already goes on
with the read. -/
theorem locked_turned (p : Purpose) (w : World) :
    Turned i true notifyCharacteristics.length (p.readsLeft + n + 6) n
      { w with connectLock := some i } (w.locked i p) := by
  unfold locked
  dsimp only
  split
  · refine ((clientConnected_turned p true _).mono (le_refl _) (by omega)).after ?_ ?_ ?_
    · rfl
    · exact le_refl _
    · rfl
  · split
    · refine Turned.after (Turned.stays rfl (le_refl _) (le_refl _)) ?_ ?_ ?_
      · rfl
      · exact Nat.zero_le _
      · rfl
    · refine Turned.after (Turned.stays rfl (le_refl _) (le_refl _)) ?_ ?_ ?_
      · rfl
      · exact le_refl _
      · rfl

/-! ### Writes -/

/-- A read-back is one await. -/
theorem startReadBack_turned (r : Write) (w : World) :
    Turned i false 0 1 n w (w.startReadBack i r) := by
  unfold startReadBack
  split
  · exact .outside rfl (le_refl 1) (le_refl 0)
  · exact .outside rfl (Nat.zero_le 1) (le_refl 0)

/-- With the read-back a write has ended, whether its value parses or not. -/
theorem readBackDone_turned (r : Write) (payload : Bytes) (w : World) :
    Turned i false 0 0 n w (w.readBackDone i r payload) := by
  unfold readBackDone
  split
  · rename_i change _
    have hout : Turned i false 0 0 n (w.handleAvailable [change])
        ((w.handleAvailable [change]).goes i (.done (.returned true))) :=
      .outside rfl (le_refl 0) (le_refl 0)
    refine hout.after ?_ ?_ ?_
    · rfl
    · exact le_refl _
    · rfl
  · exact .outside rfl (le_refl 0) (le_refl 0)

/-! ## Steps -/

/-- The owner asks for something. -/
def Event.asks : Event → Bool
  | .connect | .advertised | .set _ | .disconnect => true
  | _ => false

/-- The await of a call ends: the library answers, or the lock is taken.  A retry inside the library
is none. -/
def Event.endsAwait : Event → Bool
  | .abandoned _ => false
  | e => e.call.isSome

/-- What a step is: somebody asks, a call goes on and has less left, a call takes the lock, or no
call goes on. -/
inductive Course (w : World) (e : Event) (w' : World) : Prop
  | asked (he : e.asks = true)
  | went {i left : ℕ} {old : Call} (hi : w.calls[i]? = some old)
      (hleft : left < old.left w.subscriptions)
      (hturn : Turned i old.inConnect old.subscribes left w.subscriptions w w')
  | took {i : ℕ} {p : Purpose} (hi : w.calls[i]? = some (.locking p)) (hfree : w.connectLock = none)
      (hlocked : w' = w.locked i p)
  | aside (he : e.endsAwait = false) (hcalls : w'.calls = w.calls)
      (hlock : w'.connectLock = w.connectLock)
      (hnotify : w'.client.notifyCharacteristics.length ≤ w.client.notifyCharacteristics.length)

/-- The client never has more subscriptions to stop than all calls have made or may still make. -/
theorem notify_le_subscriptions (w : World) :
    w.client.notifyCharacteristics.length ≤ w.subscriptions := Nat.le_add_right _ _

/-- The callback of a lost link moves no call and no lock, and there is nothing left to stop. -/
theorem handleDisconnect_aside (w : World) : w.handleDisconnect.calls = w.calls ∧
    w.handleDisconnect.connectLock = w.connectLock ∧
    w.handleDisconnect.client.notifyCharacteristics = [] := by
  unfold handleDisconnect
  dsimp only
  split <;> exact ⟨rfl, rfl, rfl⟩

/-- What a step comes to.  Either somebody asked for more, or a call has come nearer to its end, or
nobody moved. -/
theorem course {w w' : World} {e : Event} (h : w.step e = some w') : Course w e w' := by
  have hn := w.notify_le_subscriptions
  cases moves h with
  | connect => exact .asked rfl
  | advertised => exact .asked rfl
  | set => exact .asked rfl
  | disconnect => exact .asked rfl
  | lock hi hfree => exact .took hi hfree rfl
  | deviceKnown hi => exact .went hi (by simp [Call.left]) (deviceFound_turned _ true w)
  | deviceUnknown hi =>
      exact .went hi (Nat.lt_succ_self _) (.stays rfl (le_refl _) (le_refl _))
  | gotDevice hi => exact .went hi (Nat.lt_succ_self _) (deviceFound_turned _ _ w)
  | raised hi =>
      obtain ⟨p, hp | hp⟩ := raised_stage h
      · refine .went hp (Nat.succ_pos _) ?_
        exact (connectRaises_turned _ w).mono (Nat.zero_le _) (le_refl 0)
      · refine .went hp (Nat.succ_pos _) ?_
        exact (connectRaises_turned _ w).mono (Nat.zero_le _) (le_refl 0)
  | abandoned => exact .aside rfl rfl rfl (le_refl _)
  | established hi => exact .went hi (Nat.lt_succ_self _) (establish_turned _ _ _ hn)
  | establishFailed hi =>
      refine .went hi ?_ (clientConnected_turned _ false w)
      simp only [Call.left]
      omega
  | gotServices hi =>
      refine .went hi ?_ (servicesFound_turned _ _ hn)
      simp only [Call.left]
      omega
  | @readDone i p c rest values payload hi =>
      refine .went hi ?_ (readRest_turned p rest _ w)
      simp only [Call.left]
      omega
  | @subscribed i k p services c rest hi =>
      obtain ⟨pc, hcalls, hpc, hcount, hlock⟩ :=
        (subscribeRest_turned (i := i) (n := w.subscriptions) p k services rest
          (w.subscribe k c)).place
      refine .went hi ?_ ⟨pc, hcalls, hpc, hcount.trans ?_, hlock⟩
      · simp only [Call.left]
        omega
      · simp only [subscribe, Call.subscribes, List.length_append, List.length_singleton]
        omega
  | @subscribeFailed i k p services c rest hi =>
      refine .went hi ?_
        ((subscribeRest_turned p k services rest w).mono (Nat.le_succ _) (le_refl _))
      simp only [Call.left]
      omega
  | wrote hi => exact .went hi (Nat.lt_succ_self 1) (startReadBack_turned _ w)
  | writeFailed hi => exact .went hi (Nat.succ_pos 1) (.outside rfl (le_refl 0) (le_refl 0))
  | readBack hi => exact .went hi (Nat.succ_pos 0) (readBackDone_turned _ _ w)
  | readBackFailed hi => exact .went hi (Nat.succ_pos 0) (.outside rfl (le_refl 0) (le_refl 0))
  | @connectTornDown i k p t hi =>
      refine .went hi ?_ (teardownRest_turned (failing_tearsDown p) (failed_turned p) w k t)
      cases t <;> exact Nat.lt_succ_self _
  | @disconnectTornDown i k t hi =>
      refine .went hi ?_ (teardownRest_turned disconnecting_tearsDown disconnected_turned w k t)
      cases t <;> exact Nat.lt_succ_self _
  | lost => exact .aside rfl rfl rfl (le_refl _)
  | @reported k b _ hb =>
      obtain ⟨hcalls, hlock, hnone⟩ := handleDisconnect_aside (w.setLink k .reported)
      refine .aside rfl hcalls hlock ?_
      rw [hnone]
      exact Nat.zero_le _
  | @notified k b c payload =>
      unfold handleNotify
      split
      · exact .aside rfl rfl rfl (le_refl _)
      · exact .aside rfl rfl rfl (le_refl _)
  | @ranScheduled s rest hs =>
      cases s with
      | values change => exact .aside rfl rfl rfl (le_refl _)
      | disconnect =>
          simp only [runCallback, setAvailable_eq]
          exact .aside rfl rfl rfl (le_refl _)

/-! ## Awaits end -/

/-- A sum in which one summand is exchanged and none gets larger.  It is used for the awaits that
all calls have left together. -/
theorem sum_set_le {α : Type*} {f g : α → ℕ} (hle : ∀ c, g c ≤ f c) {l : List α} {i : ℕ}
    {a b : α} {m k : ℕ} (h : l[i]? = some a) (hab : g b + m ≤ f a + k) :
    ((l.set i b).map g).sum + m ≤ (l.map f).sum + k := by
  induction l generalizing i with
  | nil => exact absurd h (by simp)
  | cons c l ih =>
      cases i with
      | zero =>
          obtain rfl : c = a := by simpa using h
          have hrest : (l.map g).sum ≤ (l.map f).sum := List.sum_le_sum fun c _ => hle c
          simp only [List.set_cons_zero, List.map_cons, List.sum_cons]
          omega
      | succ i =>
          have hrest := ih (i := i) (by simpa using h)
          have hc := hle c
          simp only [List.set_cons_succ, List.map_cons, List.sum_cons]
          omega

/-- The turn of a call leaves no more subscriptions, and less awaits.  The other calls have as many
left as before, or fewer where subscriptions are gone. -/
theorem Turned.awaitsLeft_lt {w w' : World} {old : Call} (hi : w.calls[i]? = some old)
    (hleft : left < old.left w.subscriptions)
    (h : Turned i holds old.subscribes left w.subscriptions w w') :
    w'.awaitsLeft < w.awaitsLeft := by
  obtain ⟨pc, hcalls, hpc, hcount, _⟩ := h.place
  have hsubs : w'.subscriptions ≤ w.subscriptions := by
    have hsum := sum_set_le (fun c => le_refl (Call.subscribes c)) hi
      (m := w'.client.notifyCharacteristics.length) (k := w.client.notifyCharacteristics.length)
      (b := pc) (by omega)
    rw [subscriptions, subscriptions, hcalls]
    omega
  have hsum := sum_set_le (fun c => c.left_mono hsubs) hi (m := 1) (k := 0) (b := pc) (by
    have hmono := pc.left_mono hsubs
    omega)
  rw [awaitsLeft, awaitsLeft, hcalls]
  omega

/-- **A step** other than a new call leaves no more awaits, and less if it ends one.  An event that
is nobody's turn can only take subscriptions away. -/
theorem awaitsLeft_step {w w' : World} {e : Event} (h : w.step e = some w')
    (hasks : e.asks = false) :
    w'.awaitsLeft + (if e.endsAwait then 1 else 0) ≤ w.awaitsLeft := by
  cases course h with
  | asked he => exact absurd (he.symm.trans hasks) (by simp)
  | went hi hleft hturn =>
      have hless := hturn.awaitsLeft_lt hi hleft
      split <;> omega
  | @took i p hi _ hlocked =>
      have hturn : Turned i true (Call.locking p).subscribes (p.readsLeft + w.subscriptions + 6)
          w.subscriptions { w with connectLock := some i } w' := hlocked ▸ locked_turned p w
      have hless : w'.awaitsLeft < w.awaitsLeft :=
        Turned.awaitsLeft_lt (w := { w with connectLock := some i }) hi (Nat.lt_succ_self _) hturn
      split <;> omega
  | aside he hcalls _ hnotify =>
      have hsubs : w'.subscriptions ≤ w.subscriptions := by
        rw [subscriptions, subscriptions, hcalls]
        omega
      have hle : w'.awaitsLeft ≤ w.awaitsLeft := by
        rw [awaitsLeft, awaitsLeft, hcalls]
        exact List.sum_le_sum fun c _ => c.left_mono hsubs
      rw [he]
      exact hle

/-! ## The lock -/

/-- The connect lock is held by the one call that is in its connect. -/
structure LockHeld (w : World) : Prop where
  holder : ∀ i, w.connectLock = some i → ∃ c, w.calls[i]? = some c ∧ c.inConnect = true
  inside : ∀ i c, w.calls[i]? = some c → c.inConnect = true → w.connectLock = some i

/-- The turn of a call, when the lock is right for the others.  A call that leaves its connect
gives the lock back in the same turn. -/
theorem Turned.lockHeld {w w' : World} {old : Call} (hi : w.calls[i]? = some old)
    (hholder : ∀ j, j ≠ i → w.connectLock = some j →
      ∃ c, w.calls[j]? = some c ∧ c.inConnect = true)
    (hinside : ∀ j c, j ≠ i → w.calls[j]? = some c → c.inConnect = true → w.connectLock = some j)
    (hheld : holds = true ↔ w.connectLock = some i) (h : Turned i holds subs left n w w') :
    w'.LockHeld := by
  obtain ⟨pc, hcalls, _, _, hlock⟩ := h.place
  have hlt := (List.getElem?_eq_some_iff.mp hi).1
  have hself : w'.calls[i]? = some pc := by rw [hcalls, List.getElem?_set_self hlt]
  have hother : ∀ j, j ≠ i → w'.calls[j]? = w.calls[j]? := by
    intro j hj
    rw [hcalls, List.getElem?_set_ne (Ne.symm hj)]
  rcases hlock with ⟨hin, hholds, hsame⟩ | ⟨hout, hlock⟩
  · have hmine := hsame.trans (hheld.mp hholds)
    refine ⟨fun j hj => ?_, fun j c hj hc => ?_⟩
    · obtain rfl : i = j := Option.some.inj (hmine.symm.trans hj)
      exact ⟨pc, hself, hin⟩
    · by_cases hji : j = i
      · rw [hji]
        exact hmine
      · rw [hsame]
        exact hinside j c hji (hother j hji ▸ hj) hc
  · have hout' : ∀ c, w'.calls[i]? = some c → c.inConnect = false := by
      intro c hc
      obtain rfl : pc = c := Option.some.inj (hself.symm.trans hc)
      exact hout
    refine ⟨fun j hj => ?_, fun j c hj hc => ?_⟩
    · have hfree : holds = false := by
        apply Bool.eq_false_of_not_eq_true
        intro hholds
        rw [hholds] at hlock
        exact absurd (hlock.symm.trans hj) (by simp)
      rw [hfree] at hlock hheld
      have hj' : w.connectLock = some j := hlock.symm.trans hj
      have hji : j ≠ i := by
        rintro rfl
        exact absurd (hheld.mpr hj') (by simp)
      rw [hother j hji]
      exact hholder j hji hj'
    · have hji : j ≠ i := by
        rintro rfl
        exact absurd ((hout' c hj).symm.trans hc) (by simp)
      have hj' := hinside j c hji (hother j hji ▸ hj) hc
      have hfree : holds = false := by
        apply Bool.eq_false_of_not_eq_true
        intro hholds
        exact hji (Option.some.inj (hj'.symm.trans (hheld.mp hholds)))
      rw [hlock, hfree]
      exact hj'

/-- A call that holds the lock exactly if it is in its connect goes on. -/
theorem LockHeld.turn {w w' : World} (hw : w.LockHeld) {old : Call}
    (hi : w.calls[i]? = some old) (h : Turned i old.inConnect subs left n w w') : w'.LockHeld := by
  refine h.lockHeld hi (fun j _ => hw.holder j) (fun j c _ => hw.inside j c)
    ⟨hw.inside i old hi, ?_⟩
  intro hlock
  obtain ⟨c, hc, hin⟩ := hw.holder i hlock
  obtain rfl : old = c := Option.some.inj (hi.symm.trans hc)
  exact hin

/-- A new call is in no connect. -/
theorem LockHeld.newCall {w : World} (hw : w.LockHeld) {pc : Call} (hpc : pc.inConnect = false) :
    (w.newCall pc).LockHeld := by
  refine ⟨fun i hi => ?_, fun i c hi hc => ?_⟩
  · obtain ⟨c, hc, hin⟩ := hw.holder i hi
    exact ⟨c, (List.getElem?_append_left (List.getElem?_eq_some_iff.mp hc).1).trans hc, hin⟩
  · rcases Nat.lt_or_ge i w.calls.length with hlt | hge
    · exact hw.inside i c ((List.getElem?_append_left hlt).symm.trans hi) hc
    · have hlast : (w.newCall pc).calls[i]? = [pc][i - w.calls.length]? :=
        List.getElem?_append_right hge
      obtain rfl := List.mem_singleton.mp (List.mem_of_getElem? (hlast.symm.trans hi))
      exact absurd (hpc.symm.trans hc) (by simp)

/-- **Every step** keeps the lock with the call in its connect.  Only the turn of the holder and
the task that takes the free lock change it. -/
theorem LockHeld.step {w w' : World} {e : Event} (hw : w.LockHeld) (h : w.step e = some w') :
    w'.LockHeld := by
  cases course h with
  | went hi _ hturn => exact hw.turn hi hturn
  | @took i p hi hfree hlocked =>
      subst hlocked
      have hnone : ∀ (j : ℕ) (c : Call), w.calls[j]? = some c → c.inConnect = false := by
        intro j c hj
        apply Bool.eq_false_of_not_eq_true
        intro hin
        exact absurd (hfree.symm.trans (hw.inside j c hj hin)) (by simp)
      refine Turned.lockHeld (w := { w with connectLock := some i }) (n := 0) hi
        (fun j hj hlock => ?_) (fun j c _ hj hin => ?_) ?_
        (locked_turned p w)
      · exact absurd (Option.some.inj hlock) (Ne.symm hj)
      · exact absurd ((hnone j c hj).symm.trans hin) (by simp)
      · exact iff_of_true rfl rfl
  | aside _ hcalls hlock =>
      exact ⟨fun i hi => hcalls ▸ hw.holder i (hlock ▸ hi),
        fun i c hi hin => hlock.trans (hw.inside i c (hcalls ▸ hi) hin)⟩
  | asked he =>
      cases moves h with
      | connect => exact hw.newCall rfl
      | advertised =>
          unfold connectIfExpected
          split
          · exact hw.newCall rfl
          · exact hw.newCall rfl
      | @set r =>
          unfold asyncSet
          split
          · split
            · exact (hw.newCall rfl).turn (n := 0) (getElem?_newCall w (.writing r))
                (startWrite_turned r _)
            · exact hw.newCall rfl
          · exact hw.newCall rfl
      | disconnect =>
          unfold asyncDisconnect
          dsimp only
          have hkept : LockHeld { w with expectedConnected := false } := ⟨hw.holder, hw.inside⟩
          exact (hkept.newCall rfl).turn (getElem?_newCall _ (.done (.returned true)))
            (startTeardown_turned (i := w.calls.length) disconnecting_tearsDown
              disconnected_turned (le_refl _))
      | _ => exact absurd he (by simp [Event.asks])

/-- Nobody has asked for the lock yet. -/
theorem LockHeld.init (data : BirdieData) : (World.init data).LockHeld := by
  constructor <;> simp [World.init]

end World

/-! ## Calls end -/

/-- What the library answers where it is asked. -/
structure Answer where
  raises : Bool
  found : Bool
  link : Link
  services : Option Services
  payload : Option Bytes
  success : Bool

/-- How the await of the `i`-th call ends with an answer, or when it gets the lock. -/
def Call.awaitEnds (i : ℕ) (a : Answer) : Call → Option World.Event
  | .locking _ => some (.lock i)
  | .closingStale _ => some (if a.raises then .raised i else .staleClosed i a.found)
  | .gettingDevice _ => some (if a.raises then .raised i else .gotDevice i a.found)
  | .establishing _ =>
      some (if a.raises then .establishFailed i else .established i a.link a.services)
  | .gettingServices _ _ => some (.gotServices i a.services)
  | .failing _ _ _ | .disconnecting _ _ => some (.tornDown i)
  | .reading _ _ _ _ => some (.readDone i a.payload)
  | .subscribing _ _ _ _ _ => some (.subscribed i a.success)
  | .writing _ => some (.wrote i a.success)
  | .readingBack _ => some (.readBack i a.payload)
  | .done _ => none

namespace World

/-- The `i`-th call goes on when it is answered. -/
def GoesOn (w : World) (a : Answer) (i : ℕ) : Prop :=
  ∃ c e w', w.calls[i]? = some c ∧ c.awaitEnds i a = some e ∧ w.step e = some w'

/-- Whoever waits for the library goes on with any answer. -/
theorem goes_on {w : World} {i : ℕ} {c : Call} (a : Answer) (hi : w.calls[i]? = some c)
    (hdone : c.isDone = false) (hlock : ∀ p, c = .locking p → w.connectLock = none) :
    w.GoesOn a i := by
  suffices hsome : ∃ e, c.awaitEnds i a = some e ∧ (w.step e).isSome = true by
    obtain ⟨e, he, hstep⟩ := hsome
    obtain ⟨w', hw'⟩ := Option.isSome_iff_exists.mp hstep
    exact ⟨c, e, w', hi, he, hw'⟩
  cases c with
  | locking p => exact ⟨_, rfl, by simp [World.step, hi, hlock p rfl]⟩
  | closingStale p => refine ⟨_, rfl, ?_⟩; split <;> simp [World.step, hi]
  | gettingDevice p => refine ⟨_, rfl, ?_⟩; split <;> simp [World.step, hi]
  | establishing p => refine ⟨_, rfl, ?_⟩; split <;> simp [World.step, hi]
  | done e => exact absurd hdone (by simp [Call.isDone])
  | _ => exact ⟨_, rfl, by simp [World.step, hi]⟩

/-- **No deadlock.**  A call that has not ended goes on with any answer, or it waits for the lock
and the call that holds it goes on. -/
theorem LockHeld.goes_on {w : World} (hw : w.LockHeld) (a : Answer) {i : ℕ} {c : Call}
    (hi : w.calls[i]? = some c) (hdone : c.isDone = false) :
    w.GoesOn a i ∨ ∃ p j, c = .locking p ∧ w.connectLock = some j ∧ w.GoesOn a j := by
  by_cases hwaits : ∃ p j, c = .locking p ∧ w.connectLock = some j
  · obtain ⟨p, j, hc, hj⟩ := hwaits
    obtain ⟨d, hd, hin⟩ := hw.holder j hj
    refine Or.inr ⟨p, j, hc, hj, World.goes_on a hd ?_ ?_⟩
    · cases d <;> first | rfl | exact absurd hin (by simp [Call.inConnect])
    · rintro q rfl
      exact absurd hin (by simp [Call.inConnect])
  · refine Or.inl (World.goes_on a hi hdone fun p hc => ?_)
    cases hlock : w.connectLock with
    | none => rfl
    | some j => exact absurd ⟨p, j, hc, hlock⟩ hwaits

/-- An end of an await is no new call. -/
theorem awaitEnds_event {i : ℕ} {a : Answer} {c : Call} {e : Event}
    (h : c.awaitEnds i a = some e) : e.asks = false ∧ e.endsAwait = true := by
  cases c <;> simp only [Call.awaitEnds, Option.some.injEq, reduceCtorEq] at h
  all_goals
    subst h
    first
      | exact ⟨rfl, rfl⟩
      | split <;> exact ⟨rfl, rfl⟩

end World

/-- **Every call ends.**  After every run of a coordinator:

* a call that has not ended goes on with any answer of the library, or waits for the lock whose
  holder does;
* as long as nobody asks for more, at most `awaitsLeft` awaits end, whatever the library answers,
  whoever gets the lock and whatever happens to the links;
* so with any answers all calls have ended after no more than that. -/
theorem every_call_ends {data : BirdieData} {es : List World.Event} {w : World}
    (hrun : Run World.step Anything (.init data) es w) :
    (∀ (a : Answer) (i : ℕ) (c : Call), w.calls[i]? = some c → c.isDone = false →
      w.GoesOn a i ∨ ∃ p j, c = .locking p ∧ w.connectLock = some j ∧ w.GoesOn a j) ∧
    (∀ es' u, Run World.step (fun _ e => e.asks = false) w es' u →
      es'.countP World.Event.endsAwait ≤ w.awaitsLeft) ∧
    ∀ answer : World → Answer, ∃ es' u,
      Run World.step (fun v e => ∃ (i : ℕ) (c : Call), v.calls[i]? = some c ∧
        c.awaitEnds i (answer v) = some e) w es' u ∧
      es'.length ≤ w.awaitsLeft ∧ ∀ c ∈ u.calls, c.isDone = true := by
  have hheld : w.LockHeld := hrun.invariant World.LockHeld (fun _ _ _ hw _ h => hw.step h)
    (World.LockHeld.init data)
  refine ⟨fun a i c hi hdone => hheld.goes_on a hi hdone, fun es' u hquiet => ?_,
    fun answer => ?_⟩
  · have hcount : es'.countP World.Event.endsAwait + u.awaitsLeft ≤ w.awaitsLeft := by
      clear hheld hrun
      induction hquiet with
      | nil => simp
      | cons hok hstep _ ih =>
          have hless := World.awaitsLeft_step hstep hok
          rw [List.countP_cons]
          omega
    omega
  · have hnext : ∀ v : World, v.LockHeld → ¬ (∀ c ∈ v.calls, c.isDone = true) →
        ∃ e v', (∃ (i : ℕ) (c : Call), v.calls[i]? = some c ∧
            c.awaitEnds i (answer v) = some e) ∧
          v.step e = some v' ∧ v'.LockHeld ∧ v'.awaitsLeft < v.awaitsLeft := by
      intro v hv hnot
      have hgoes : ∃ i, v.GoesOn (answer v) i := by
        obtain ⟨c, hc, hdone⟩ : ∃ c ∈ v.calls, c.isDone ≠ true := by
          by_contra hall
          exact hnot fun c hc => not_not.mp fun hdone => hall ⟨c, hc, hdone⟩
        obtain ⟨i, hi⟩ := List.mem_iff_getElem?.mp hc
        rcases hv.goes_on (answer v) hi (Bool.eq_false_of_not_eq_true hdone) with
          h | ⟨_, j, _, _, h⟩
        · exact ⟨i, h⟩
        · exact ⟨j, h⟩
      obtain ⟨i, c, e, v', hi, he, hstep⟩ := hgoes
      obtain ⟨hasks, hends⟩ := World.awaitEnds_event he
      have hless := World.awaitsLeft_step hstep hasks
      rw [if_pos hends] at hless
      exact ⟨e, v', ⟨i, c, hi, he⟩, hstep, hv.step hstep, hless⟩
    obtain ⟨es', u, hrun', _, hall, hlength⟩ :=
      reaches World.LockHeld (fun v => ∀ c ∈ v.calls, c.isDone = true) World.awaitsLeft hnext hheld
    exact ⟨es', u, hrun', hlength, hall⟩

/-- Two advertisements, of which the first has the lock: whatever the library answers, both
connects have ended after 77 answers. -/
theorem every_call_ends_advertised :
    ∃ w : World,
      exec World.step (.init World.exampleData) (Watched.advertisedTwice.take 7) = some w ∧
      w.connectLock = some 1 ∧
      ∀ answer : World → Answer, ∃ es' u,
        Run World.step (fun v e => ∃ (i : ℕ) (c : Call), v.calls[i]? = some c ∧
          c.awaitEnds i (answer v) = some e) w es' u ∧
        es'.length ≤ 77 ∧ ∀ c ∈ u.calls, c.isDone = true := by
  let execution := exec World.step (.init World.exampleData) (Watched.advertisedTwice.take 7)
  obtain ⟨w, hw⟩ := Option.isSome_iff_exists.mp (show execution.isSome = true by decide)
  have hfacts : ∀ v ∈ execution, v.connectLock = some 1 ∧ v.awaitsLeft = 77 := by decide
  obtain ⟨hlock, hleft⟩ := hfacts w hw
  refine ⟨w, hw, hlock, fun answer => ?_⟩
  rw [← hleft]
  exact (every_call_ends (Run.of_exec hw)).2.2 answer

end Ble
