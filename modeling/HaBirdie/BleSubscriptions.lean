import HaBirdie.BleAvailability

/-!
# One subscription for each connection

`async_start_notify` subscribes the notification characteristics of the connected client one
after the other.  The connect lock keeps two connects apart, but not their effects:
`async_connect_if_expected` asks whether the client is connected before it waits for the lock,
and whoever gets the lock while the client is connected reads and subscribes all over again.

`Watched` adds the calls of `start_notify` to the state.  In every run in which nobody takes
the lock while the client is connected, and no new client is stored on top of subscriptions of
an earlier one, each characteristic is subscribed once on each client (`OnceEach.step`).  The
invariant is about the holder of the lock only: it is the one call that is on its way to a
subscription or between two of them.
-/

namespace Ble

open Python StepRuns

/-! ## The calls of `start_notify` -/

/-- The call holds the connect lock. -/
def Call.inConnect : Call → Bool
  | .closingStale _ | .gettingDevice _ | .establishing _ | .gettingServices _ _
  | .failing _ _ _ | .reading _ _ _ _ | .subscribing _ _ _ _ _ => true
  | _ => false

/-- The `start_notify` that the call awaits: on which client, for which characteristic. -/
def Call.starts : Call → List (Nat × Characteristic)
  | .subscribing _ k _ c _ => [(k, c)]
  | _ => []

/-- A coordinator, and all calls of `start_notify` so far. -/
structure Watched where
  world : World
  started : List (Nat × Characteristic) := []

namespace Watched

/-- What a step starts: it may leave the call it moves at a `start_notify`. -/
def startsOf (e : World.Event) (w : World) : List (Nat × Characteristic) :=
  (e.call.bind fun i => w.calls[i]?).elim [] Call.starts

def step (s : Watched) (e : World.Event) : Option Watched := do
  let world ← s.world.step e
  pure { world, started := s.started ++ startsOf e world }

def init (data : BirdieData) : Watched := { world := .init data }

/-- **Each characteristic is subscribed at most once on each connection.** -/
def SubscribedOnce (s : Watched) : Prop :=
  (∀ k b c, s.world.bleaks[k]? = some b → c ∈ b.subscribed → s.started.count (k, c) ≤ 1) ∧
    s.world.client.notifyCharacteristics.Nodup

/-- No task takes the connect lock while the client is connected (to something that notifies),
and no client is stored while subscriptions of an earlier one are noted. -/
def ConnectsAfresh (w : World) : World.Event → Prop
  | .lock _ => w.isConnected = false ∨
      ∀ services ∈ w.client.services, World.nextNotify services notifyCharacteristics = none
  | .established _ .connected _ => w.client.notifyCharacteristics = []
  | _ => True

end Watched

/-! ## What a turn leaves behind -/

/-- The client as before, or forgotten with its subscriptions. -/
def BleClient.Kept (c c' : BleClient) : Prop :=
  (c'.client = c.client ∧ c'.services = c.services ∧
      c'.notifyCharacteristics = c.notifyCharacteristics) ∨
    (c'.client = none ∧ c'.notifyCharacteristics = [])

/-- A client that stays as it is is kept. -/
theorem BleClient.Kept.of_eq {c c' : BleClient} (h : c' = c) : c.Kept c' := by
  subst h
  exact Or.inl ⟨rfl, rfl, rfl⟩

/-- What no turn adds: a library client, or a subscription. -/
structure BleClient.Within (c c' : BleClient) : Prop where
  client : c'.client = c.client ∨ c'.client = none
  notify : c'.notifyCharacteristics = c.notifyCharacteristics ∨ c'.notifyCharacteristics = []

/-- A client that stays as it is gains nothing. -/
theorem BleClient.Within.refl (c : BleClient) : c.Within c := ⟨Or.inl rfl, Or.inl rfl⟩

/-- A client that is kept or forgotten gains nothing. -/
theorem BleClient.Kept.within {c c' : BleClient} (h : c.Kept c') : c.Within c' := by
  rcases h with ⟨hclient, _, hnotify⟩ | ⟨hclient, hnotify⟩
  · exact ⟨Or.inl hclient, Or.inl hnotify⟩
  · exact ⟨Or.inr hclient, Or.inr hnotify⟩

/-- Nothing is gained in two turns if nothing is gained in either. -/
theorem BleClient.Within.trans {c c' c'' : BleClient} (h : c.Within c') (h' : c'.Within c'') :
    c.Within c'' := by
  constructor
  · rcases h'.client with heq | hnone
    · rw [heq]
      exact h.client
    · exact Or.inr hnone
  · rcases h'.notify with heq | hnone
    · rw [heq]
      exact h.notify
    · exact Or.inr hnone

/-- Nothing was subscribed on the client. -/
def BleClient.Fresh (c : BleClient) (started : List (Nat × Characteristic)) (k : Nat) : Prop :=
  c.notifyCharacteristics = [] ∧ ∀ x, (k, x) ∉ started

/-- A connect that is about to subscribe finds nothing subscribed, or nothing to subscribe. -/
def BleClient.Ready (c : BleClient) (started : List (Nat × Characteristic)) : Prop :=
  ∀ k, c.client = some k →
    (∀ s ∈ c.services, World.nextNotify s Ble.notifyCharacteristics = none) ∨ c.Fresh started k

/-- Some characteristics are still to be subscribed. -/
def BleClient.Awaits (c : BleClient) (started : List (Nat × Characteristic)) (k : Nat)
    (rest : List Characteristic) : Prop :=
  rest.Nodup ∧ (∀ x ∈ rest, (k, x) ∉ started) ∧ ∀ x ∈ rest, x ∉ c.notifyCharacteristics

/-- What the place of a connect says about its client and the calls so far. -/
def Call.Placed (client : BleClient) (started : List (Nat × Characteristic)) : Call → Prop
  | .gettingServices _ _ => ∀ k, client.client = some k → client.Fresh started k
  | .reading _ _ _ _ => client.Ready started
  | .subscribing _ k _ c rest => (k, c) ∈ started ∧ client.Awaits started k rest ∧
      c ∉ rest ∧ c ∉ client.notifyCharacteristics
  | _ => True

/-- Where nothing was subscribed, nothing is subscribed after the client was kept or forgotten. -/
theorem BleClient.Fresh.kept {c c' : BleClient} {started : List (Nat × Characteristic)} {k : Nat}
    (h : c.Fresh started k) (hkept : c.Kept c') : c'.Fresh started k := by
  rcases hkept with ⟨_, _, hsame⟩ | ⟨_, hnone⟩
  · exact ⟨hsame.trans h.1, h.2⟩
  · exact ⟨hnone, h.2⟩

/-- A place that is sound stays so when another call keeps the client or forgets it.  What was
subscribed on a forgotten client is of no concern any more. -/
theorem Call.Placed.kept {c c' : BleClient} {started : List (Nat × Characteristic)} {pc : Call}
    (h : pc.Placed c started) (hkept : c.Kept c') : pc.Placed c' started := by
  cases pc with
  | gettingServices p k =>
      intro j hj
      rcases hkept with hsame | ⟨hnone, _⟩
      · exact (h j (hsame.1 ▸ hj)).kept (Or.inl hsame)
      · exact absurd (hnone.symm.trans hj) (by simp)
  | reading p x rest values =>
      intro j hj
      rcases hkept with hsame | ⟨hnone, _⟩
      · rcases h j (hsame.1 ▸ hj) with hquiet | hfresh
        · left
          intro s hs
          exact hquiet s (hsame.2.1 ▸ hs)
        · exact Or.inr (hfresh.kept (Or.inl hsame))
      · exact absurd (hnone.symm.trans hj) (by simp)
  | subscribing p k services x rest =>
      obtain ⟨hstarted, ⟨hnodup, hnew, hrest⟩, hx, hnoted⟩ := h
      rcases hkept with ⟨_, _, hsame⟩ | ⟨_, hnone⟩
      · exact ⟨hstarted, ⟨hnodup, hnew, by rwa [hsame]⟩, hx, by rwa [hsame]⟩
      · exact ⟨hstarted, ⟨hnodup, hnew, by simp [hnone]⟩, hx, by simp [hnone]⟩
  | _ => trivial

/-- Outside of its connect a call does not await `start_notify`. -/
theorem Call.starts_of_not_inConnect {pc : Call} (h : pc.inConnect = false) : pc.starts = [] := by
  cases pc with
  | subscribing => exact absurd h (by simp [inConnect])
  | _ => rfl

/-- Outside of its connect the place of a call says nothing about the client. -/
theorem Call.placed_of_not_inConnect {pc : Call} (h : pc.inConnect = false) (c : BleClient)
    (started : List (Nat × Characteristic)) : pc.Placed c started := by
  cases pc with
  | gettingServices => exact absurd h (by simp [inConnect])
  | reading => exact absurd h (by simp [inConnect])
  | subscribing => exact absurd h (by simp [inConnect])
  | _ => trivial

namespace World

/-- The next characteristic is one of those that are left. -/
theorem nextNotify_sublist {s : Services} {l rest : List Characteristic} {x : Characteristic}
    (h : nextNotify s l = some (x, rest)) : (x :: rest).Sublist l := by
  induction l with
  | nil => exact absurd h (by simp [nextNotify])
  | cons y l ih =>
      unfold nextNotify at h
      split at h
      · split at h
        · obtain ⟨rfl, rfl⟩ := Prod.mk.inj (Option.some.inj h)
          exact List.Sublist.refl _
        · exact (ih h).trans (List.sublist_cons_self y l)
      · exact (ih h).trans (List.sublist_cons_self y l)

/-- A turn of the connect that holds the lock: it goes on to a place that is sound, or leaves
the connect and releases the lock. -/
structure Goes (i : Nat) (started : List (Nat × Characteristic)) (w w' : World) : Prop where
  client : w.client.Within w'.client
  bleaks : w'.bleaks = w.bleaks
  pc : ∃ pc, w'.calls = w.calls.set i pc ∧
    (pc.inConnect = true → w'.connectLock = w.connectLock) ∧
    pc.Placed w'.client (started ++ pc.starts) ∧
    ∀ e ∈ pc.starts, e ∉ started ∧ (e.1 < w.bleaks.length ∨ w.client.client = some e.1)

variable {i : Nat} {started : List (Nat × Characteristic)}

/-- Leaving the connect. -/
theorem Goes.leave {w w' : World} {pc : Call} (hclient : w'.client = w.client)
    (hbleaks : w'.bleaks = w.bleaks) (hcalls : w'.calls = w.calls.set i pc)
    (hpc : pc.inConnect = false) : Goes i started w w' := by
  refine ⟨?_, hbleaks, pc, hcalls, fun h => ?_, Call.placed_of_not_inConnect hpc _ _, ?_⟩
  · rw [hclient]
    exact BleClient.Within.refl _
  · exact absurd (hpc.symm.trans h) (by simp)
  · simp [Call.starts_of_not_inConnect hpc]

/-- Going on within the connect, not to a subscription. -/
theorem Goes.stay {w : World} {pc : Call} (hpc : pc.Placed w.client started)
    (hstarts : pc.starts = []) : Goes i started w (w.goes i pc) := by
  refine ⟨BleClient.Within.refl _, rfl, pc, rfl, fun _ => rfl, ?_, by simp [hstarts]⟩
  rw [hstarts, List.append_nil]
  exact hpc

/-- The data may have changed before, and the client have been forgotten.  So a turn may first do
something else and then go on as `Goes` says. -/
theorem Goes.after {w w₀ w' : World} (h : Goes i started w₀ w')
    (hclient : w.client.Within w₀.client) (hcalls : w₀.calls = w.calls)
    (hbleaks : w₀.bleaks = w.bleaks) (hlock : w₀.connectLock = w.connectLock) :
    Goes i started w w' := by
  obtain ⟨pc, hset, hheld, hplaced, hstarts⟩ := h.pc
  refine ⟨hclient.trans h.client, h.bleaks.trans hbleaks, pc, by rw [hset, hcalls],
    fun hin => (hheld hin).trans hlock, hplaced, fun e he => ?_⟩
  obtain ⟨hnew, hknown⟩ := hstarts e he
  refine ⟨hnew, ?_⟩
  rw [hbleaks] at hknown
  rcases hknown with hlt | heq
  · exact Or.inl hlt
  · rcases hclient.client with hsame | hnone
    · exact Or.inr (hsame.symm.trans heq)
    · exact absurd (hnone.symm.trans heq) (by simp)

/-- A connect that returns releases the lock. -/
theorem connectReturns_goes (i : Nat) (p : Purpose) (result : Bool) (w : World) :
    Goes i started w (w.connectReturns i p result) := by
  unfold connectReturns
  dsimp only
  split
  · exact Goes.leave rfl rfl rfl rfl
  · rename_i r
    obtain ⟨pc, hgoes, hpc⟩ := startWrite_calls i r w.release
    have hout : pc.inConnect = false := by rcases hpc with rfl | ⟨e, rfl⟩ <;> rfl
    rw [hgoes]
    exact Goes.leave rfl rfl rfl hout
  · exact Goes.leave rfl rfl rfl rfl

/-- So does one that raises. -/
theorem connectRaises_goes (i : Nat) (e : Ending) (w : World) :
    Goes i started w (w.connectRaises i e) :=
  Goes.leave rfl rfl rfl rfl

/-- **The next subscription** is of a characteristic that was not subscribed.  With none left the
connect goes on, and ends or reads. -/
theorem subscribeRest_goes {w : World} {k : Nat} (p : Purpose) (services : Services)
    {rest : List Characteristic} (hrest : w.client.Awaits started k rest)
    (hk : k < w.bleaks.length ∨ w.client.client = some k) :
    Goes i started w (w.subscribeRest i p k services rest) := by
  unfold subscribeRest
  split
  · rename_i x later hnext
    have hsub := nextNotify_sublist hnext
    obtain ⟨hnodup, hnew, hnoted⟩ := hrest
    obtain ⟨hx, hlater⟩ := List.nodup_cons.mp (hnodup.sublist hsub)
    have hxrest : x ∈ rest := hsub.subset List.mem_cons_self
    refine ⟨BleClient.Within.refl _, rfl, _, rfl, fun _ => rfl,
      ⟨?_, ⟨hlater, ?_, ?_⟩, hx, ?_⟩, ?_⟩
    · simp [Call.starts]
    · intro y hy
      have hyrest := hsub.subset (List.mem_cons_of_mem x hy)
      simp only [Call.starts, List.mem_append, List.mem_singleton, Prod.mk.injEq, true_and,
        not_or]
      refine ⟨hnew y hyrest, ?_⟩
      intro heq
      obtain rfl := heq
      exact hx hy
    · intro y hy
      exact hnoted y (hsub.subset (List.mem_cons_of_mem x hy))
    · exact hnoted x hxrest
    · intro e he
      obtain rfl := List.mem_singleton.mp he
      exact ⟨hnew x hxrest, hk⟩
  · exact connectReturns_goes i p true w

/-- `_require_client` returns the client that there is. -/
theorem requireClient_ok {w : World} {k : Nat} (h : w.requireClient = .ok k) :
    w.client.client = some k := by
  unfold requireClient at h
  split at h
  · rename_i j hj
    split at h
    · obtain rfl := Except.ok.inj h
      exact hj
    · exact absurd h (by simp)
  · exact absurd h (by simp)

/-- `_require_services` returns the services that were found. -/
theorem requireServices_ok {w : World} {s : Services} (h : w.requireServices = .ok s) :
    w.client.services = some s := by
  unfold requireServices at h
  split at h
  · rename_i t ht
    obtain rfl := Except.ok.inj h
    exact ht
  · exact absurd h (by simp)

/-- `async_start_notify` subscribes to characteristics that nobody has subscribed to on this
client, each once; or it raises, or has nothing to do. -/
theorem startNotify_goes {w : World} (p : Purpose) (hready : w.client.Ready started) :
    Goes i started w (w.startNotify i p) := by
  unfold startNotify
  split
  · rename_i k services hclient hservices
    have hk := requireClient_ok hclient
    rcases hready k hk with hquiet | ⟨hnone, hnew⟩
    · have hnothing := hquiet services (requireServices_ok hservices)
      unfold subscribeRest
      rw [hnothing]
      exact connectReturns_goes i p true w
    · refine subscribeRest_goes p services ⟨by decide, fun x _ => hnew x, ?_⟩ (Or.inr hk)
      simp [hnone]
  · exact connectRaises_goes i _ w
  · exact connectRaises_goes i _ w

/-- The initial read goes on to the next characteristic, and after the last one to the
subscriptions. -/
theorem readRest_goes {w : World} (p : Purpose) (rest : List Characteristic)
    (values : List Change) (hready : w.client.Ready started) :
    Goes i started w (w.readRest i p rest values) := by
  unfold readRest
  split
  · exact Goes.stay hready rfl
  · have hgoes : Goes i started (w.handleAvailable values)
        ((w.handleAvailable values).startNotify i p) := startNotify_goes p hready
    exact hgoes.after (BleClient.Within.refl _) rfl rfl rfl

/-- Where the client could not connect, the connect returns. -/
theorem clientConnected_false_goes (i : Nat) (p : Purpose) (w : World) :
    Goes i started w (w.clientConnected i p false) := by
  unfold clientConnected
  rw [if_neg (by simp), setAvailable_eq]
  have hgoes : Goes i started { w with data := { w.data with available := false } } _ :=
    connectReturns_goes i p false { w with data := { w.data with available := false } }
  exact hgoes.after (BleClient.Within.refl _) rfl rfl rfl

/-- With a connected client the connect reads and subscribes; otherwise it returns. -/
theorem clientConnected_goes {w : World} (p : Purpose) (result : Bool)
    (hready : result = true → w.client.Ready started) :
    Goes i started w (w.clientConnected i p result) := by
  cases result with
  | true => exact readRest_goes p readCharacteristics [] (hready rfl)
  | false => exact clientConnected_false_goes i p w

/-- The client's `async_disconnect` keeps the client, or forgets it; it awaits, or is over.  Either
way it starts no subscription. -/
theorem startTeardown_kept (pc : Nat → Teardown → Call) (after : World → World) (i : Nat)
    (w : World) :
    ∃ w₁ : World, w.client.Kept w₁.client ∧ w₁.calls = w.calls ∧ w₁.bleaks = w.bleaks ∧
      w₁.connectLock = w.connectLock ∧
      ((∃ k t, w.startTeardown pc after i = w₁.goes i (pc k t)) ∨
        w.startTeardown pc after i = after w₁) := by
  unfold startTeardown
  dsimp only
  split
  · rename_i hnone
    refine ⟨_, ?_, ?_, ?_, ?_, Or.inr rfl⟩
    · exact Or.inr ⟨hnone, rfl⟩
    · rfl
    · rfl
    · rfl
  · split
    · refine ⟨_, ?_, ?_, ?_, ?_, Or.inl ⟨_, _, rfl⟩⟩
      · exact Or.inl ⟨rfl, rfl, rfl⟩
      · rfl
      · rfl
      · rfl
    · refine ⟨_, ?_, ?_, ?_, ?_, Or.inr rfl⟩
      · exact Or.inr ⟨rfl, rfl⟩
      · rfl
      · rfl
      · rfl

/-- A teardown goes to its next await, or forgets the client and what was subscribed. -/
theorem teardownRest_kept (pc : Nat → Teardown → Call) (after : World → World) (i k : Nat)
    (t : Teardown) (w : World) :
    (∃ t', w.teardownRest pc after i k t = w.goes i (pc k t')) ∨
      w.teardownRest pc after i k t = after w.forget := by
  unfold teardownRest
  split
  · exact Or.inr rfl
  · split
    · exact Or.inl ⟨_, rfl⟩
    · exact Or.inr rfl

/-- Forgetting the client forgets its subscriptions. -/
theorem forget_kept (w : World) : w.client.Kept w.forget.client := Or.inr ⟨rfl, rfl⟩

/-- The teardown of a failing connect goes on, or is over. -/
theorem failingRest_goes {w : World} (p : Purpose) (k : Nat) (t : Teardown) :
    Goes i started w (w.teardownRest (.failing p) (failed i p) i k t) := by
  rcases teardownRest_kept (.failing p) (failed i p) i k t w with ⟨t', h⟩ | h
  · rw [h]
    exact Goes.stay trivial rfl
  · rw [h]
    exact (clientConnected_false_goes i p w.forget).after w.forget_kept.within rfl rfl rfl

/-- With the services of a Birdie the connect goes on to its initial read; otherwise it tears
down. -/
theorem servicesFound_goes {w : World} (p : Purpose) (services : Option Services)
    (hfresh : ∀ k, w.client.client = some k → w.client.Fresh started k) :
    Goes i started w (w.servicesFound i p services) := by
  unfold servicesFound
  split
  · rename_i s
    have hready : Goes i started { w with client := { w.client with services := some s } }
        (clientConnected i p true { w with client := { w.client with services := some s } }) :=
      clientConnected_goes p true fun _ k hk => Or.inr (hfresh k hk)
    exact hready.after ⟨Or.inl rfl, Or.inl rfl⟩ rfl rfl rfl
  · obtain ⟨w₁, hkept, hcalls, hbleaks, hlock, h⟩ :=
      startTeardown_kept (.failing p) (failed i p) i w
    rcases h with ⟨k, t, h⟩ | h
    · rw [h]
      refine Goes.after ?_ hkept.within hcalls hbleaks hlock
      exact Goes.stay trivial rfl
    · rw [h]
      exact (clientConnected_false_goes i p w₁).after hkept.within hcalls hbleaks hlock

/-- With a device to connect to the connect goes on to establish the link; otherwise it returns. -/
theorem deviceFound_goes (i : Nat) (p : Purpose) (found : Bool) (w : World) :
    Goes i started w (w.deviceFound i p found) := by
  unfold deviceFound
  split
  · have hgoes : Goes i started { w with client := { w.client with expectedDisconnect := false } }
        ({ w with client := { w.client with expectedDisconnect := false } }.goes i
          (.establishing p)) := Goes.stay trivial rfl
    exact hgoes.after ⟨Or.inl rfl, Or.inl rfl⟩ rfl rfl rfl
  · exact clientConnected_goes p false (by simp)

end World

namespace Watched

/-! ## The invariant -/

/-- Only the holder of the lock is within a connect, its place is sound, and no characteristic
was subscribed twice. -/
structure OnceEach (s : Watched) : Prop where
  locks : ∀ i c, s.world.calls[i]? = some c → c.inConnect = true → s.world.connectLock = some i
  placed : ∀ c ∈ s.world.calls, c.Placed s.world.client s.started
  started : s.started.Nodup
  known : ∀ e ∈ s.started, e.1 < s.world.bleaks.length
  stored : ∀ k, s.world.client.client = some k → k < s.world.bleaks.length
  notify : s.world.client.notifyCharacteristics.Nodup

/-- Before anything happens nothing is subscribed. -/
theorem OnceEach.init (data : BirdieData) : (init data).OnceEach := by
  constructor <;> simp [Watched.init, World.init]

/-- A step that leaves the connects alone: where calls go on, they are in none.  No subscription is
started then, and the list of those started stays. -/
theorem OnceEach.aside {s : Watched} (hs : s.OnceEach) {e : World.Event} {w : World}
    (hcalls : ∀ (j : Nat) (c : Call), w.calls[j]? = some c → c.inConnect = true →
      s.world.calls[j]? = some c)
    (hstarts : ∀ (i : Nat) (c : Call), e.call = some i → w.calls[i]? = some c → c.starts = [])
    (hlock : w.connectLock = s.world.connectLock)
    (hbleaks : s.world.bleaks.length ≤ w.bleaks.length)
    (hclient : s.world.client.Kept w.client) :
    ({ world := w, started := s.started ++ startsOf e w } : Watched).OnceEach := by
  have hnothing : startsOf e w = [] := by
    unfold startsOf
    cases hi : e.call with
    | none => rfl
    | some i =>
        cases hc : w.calls[i]? with
        | none => simp [hc]
        | some c => simp [hc, hstarts i c hi hc]
  rw [hnothing, List.append_nil]
  refine ⟨fun i c hi hin => ?_, fun c hc => ?_, hs.started, fun x hx => ?_, fun k hk => ?_, ?_⟩
  · exact hlock.trans (hs.locks i c (hcalls i c hi hin) hin)
  · cases hin : c.inConnect with
    | false => exact Call.placed_of_not_inConnect hin _ _
    | true =>
        obtain ⟨i, hi⟩ := List.getElem?_of_mem hc
        exact (hs.placed c (List.mem_of_getElem? (hcalls i c hi hin))).kept hclient
  · exact (hs.known x hx).trans_le hbleaks
  · rcases hclient.within.client with hsame | hnone
    · exact (hs.stored k (hsame.symm.trans hk)).trans_le hbleaks
    · exact absurd (hnone.symm.trans hk) (by simp)
  · rcases hclient.within.notify with hsame | hnone
    · rw [hsame]
      exact hs.notify
    · rw [hnone]
      exact List.nodup_nil

/-- **The turn of the connect that holds the lock.**  All that starts subscriptions comes down to
this lemma, because nobody else is in a connect. -/
theorem OnceEach.turn {s : Watched} (hs : s.OnceEach) {e : World.Event} {i : Nat} {w w' : World}
    (h : World.Goes i s.started w w') (hcall : e.call = some i) (hlt : i < s.world.calls.length)
    (halone : ∀ j c, j ≠ i → s.world.calls[j]? = some c → c.inConnect = false)
    (hcalls : w.calls = s.world.calls) (hlock : w.connectLock = some i)
    (hbleaks : s.world.bleaks.length ≤ w.bleaks.length)
    (hstored : ∀ k, w.client.client = some k → k < w.bleaks.length)
    (hnotify : w.client.notifyCharacteristics.Nodup) :
    ({ world := w', started := s.started ++ startsOf e w' } : Watched).OnceEach := by
  obtain ⟨pc, hset, hheld, hplaced, hnew⟩ := h.pc
  rw [hcalls] at hset
  have hpc : w'.calls[i]? = some pc := by rw [hset, List.getElem?_set_self hlt]
  have hstarts : startsOf e w' = pc.starts := by
    unfold startsOf
    rw [hcall]
    simp [hpc]
  have hothers : ∀ j c, j ≠ i → w'.calls[j]? = some c → c.inConnect = false := by
    intro j c hj hc
    rw [hset, List.getElem?_set_ne hj.symm] at hc
    exact halone j c hj hc
  rw [hstarts]
  refine ⟨fun j c hj hin => ?_, fun c hc => ?_, ?_, fun x hx => ?_, fun k hk => ?_, ?_⟩
  · by_cases hji : j = i
    · subst hji
      obtain rfl := Option.some.inj (hpc.symm.trans hj)
      exact (hheld hin).trans hlock
    · exact absurd ((hothers j c hji hj).symm.trans hin) (by simp)
  · obtain ⟨j, hj⟩ := List.getElem?_of_mem hc
    by_cases hji : j = i
    · subst hji
      obtain rfl := Option.some.inj (hpc.symm.trans hj)
      exact hplaced
    · exact Call.placed_of_not_inConnect (hothers j c hji hj) _ _
  · have hone : pc.starts.Nodup := by cases pc <;> simp [Call.starts]
    refine List.nodup_append.mpr ⟨hs.started, hone, ?_⟩
    intro x hx y hy hxy
    exact (hnew y hy).1 (hxy ▸ hx)
  · dsimp only
    rw [h.bleaks]
    rcases List.mem_append.mp hx with hx | hx
    · exact (hs.known x hx).trans_le hbleaks
    · rcases (hnew x hx).2 with hknown | hclient
      · exact hknown
      · exact hstored _ hclient
  · dsimp only
    rw [h.bleaks]
    rcases h.client.client with hsame | hnone
    · exact hstored k (hsame.symm.trans hk)
    · exact absurd (hnone.symm.trans hk) (by simp)
  · rcases h.client.notify with hsame | hnone
    · rw [hsame]
      exact hnotify
    · rw [hnone]
      exact List.nodup_nil

/-- A call within a connect is alone there. -/
theorem OnceEach.alone {s : Watched} (hs : s.OnceEach) {i : Nat} {pc : Call}
    (hi : s.world.calls[i]? = some pc) (hin : pc.inConnect = true) :
    s.world.connectLock = some i ∧
      ∀ j c, j ≠ i → s.world.calls[j]? = some c → c.inConnect = false := by
  have hlock := hs.locks i pc hi hin
  refine ⟨hlock, fun j c hj hc => ?_⟩
  by_contra hother
  have hlock' := hs.locks j c hc (Bool.eq_true_of_not_eq_false hother)
  exact hj (Option.some.inj (hlock'.symm.trans hlock))

/-- The turn of a connect from the state as it is. -/
theorem OnceEach.goes {s : Watched} (hs : s.OnceEach) {e : World.Event} {i : Nat} {pc : Call}
    {w' : World} (hcall : e.call = some i) (hi : s.world.calls[i]? = some pc)
    (hin : pc.inConnect = true) (h : World.Goes i s.started s.world w') :
    ({ world := w', started := s.started ++ startsOf e w' } : Watched).OnceEach := by
  obtain ⟨hlock, halone⟩ := hs.alone hi hin
  exact hs.turn h hcall (List.getElem?_eq_some_iff.mp hi).1 halone rfl hlock le_rfl hs.stored
    hs.notify

/-- A call that is not in a connect goes on, and stays out.  It may have forgotten the client on
its way. -/
theorem OnceEach.goesAside {s : Watched} (hs : s.OnceEach) {e : World.Event} {i : Nat}
    {w : World} (pc : Call) (hpc : pc.inConnect = false) (hcall : e.call = some i)
    (hcalls : w.calls = s.world.calls.set i pc) (hlock : w.connectLock = s.world.connectLock)
    (hbleaks : w.bleaks = s.world.bleaks) (hclient : s.world.client.Kept w.client) :
    ({ world := w, started := s.started ++ startsOf e w } : Watched).OnceEach := by
  have hset : ∀ c, w.calls[i]? = some c → c = pc := by
    intro c hc
    rw [hcalls] at hc
    have hlt := (List.getElem?_eq_some_iff.mp hc).1
    rw [List.length_set] at hlt
    rw [List.getElem?_set_self hlt] at hc
    exact (Option.some.inj hc).symm
  refine hs.aside (fun j c hj hin => ?_) (fun j c hj hc => ?_) hlock (by rw [hbleaks]) hclient
  · by_cases hji : j = i
    · subst hji
      rw [hset c hj, hpc] at hin
      exact absurd hin (by simp)
    · rw [hcalls, List.getElem?_set_ne (Ne.symm hji)] at hj
      exact hj
  · obtain rfl := Option.some.inj (hcall.symm.trans hj)
    rw [hset c hc]
    exact Call.starts_of_not_inConnect hpc

/-- A new call is in no connect. -/
theorem OnceEach.called {s : Watched} (hs : s.OnceEach) {e : World.Event} {w : World}
    (pc : Call) (hpc : pc.inConnect = false) (hcall : e.call = none)
    (hcalls : w.calls = s.world.calls ++ [pc]) (hlock : w.connectLock = s.world.connectLock)
    (hbleaks : w.bleaks = s.world.bleaks) (hclient : s.world.client.Kept w.client) :
    ({ world := w, started := s.started ++ startsOf e w } : Watched).OnceEach := by
  refine hs.aside (fun j c hj hin => ?_) (by simp [hcall]) hlock (by rw [hbleaks]) hclient
  rw [hcalls, List.getElem?_append] at hj
  split at hj
  · exact hj
  · obtain rfl := List.mem_singleton.mp (List.mem_of_getElem? hj)
    exact absurd (hpc.symm.trans hin) (by simp)

/-- A new call that is not in a connect subscribes to nothing. -/
theorem OnceEach.newCall {s : Watched} (hs : s.OnceEach) {e : World.Event} (pc : Call)
    (hpc : pc.inConnect = false) (hcall : e.call = none) :
    ({ world := s.world.newCall pc, started := s.started ++ startsOf e (s.world.newCall pc) } :
      Watched).OnceEach :=
  hs.called pc hpc hcall rfl rfl rfl (BleClient.Kept.of_eq rfl)

/-- Nor does a call that goes on outside of its connect. -/
theorem OnceEach.goesOut {s : Watched} (hs : s.OnceEach) {e : World.Event} {i : Nat} (pc : Call)
    (hpc : pc.inConnect = false) (hcall : e.call = some i) :
    ({ world := s.world.goes i pc, started := s.started ++ startsOf e (s.world.goes i pc) } :
      Watched).OnceEach :=
  hs.goesAside pc hpc hcall rfl rfl rfl (BleClient.Kept.of_eq rfl)

/-- A step that moves no call. -/
theorem OnceEach.still {s : Watched} (hs : s.OnceEach) {e : World.Event} {w : World}
    (hcall : e.call = none) (hcalls : w.calls = s.world.calls)
    (hlock : w.connectLock = s.world.connectLock)
    (hbleaks : w.bleaks.length = s.world.bleaks.length) (hclient : s.world.client.Kept w.client) :
    ({ world := w, started := s.started ++ startsOf e w } : Watched).OnceEach :=
  hs.aside (fun j c hj _ => hcalls ▸ hj) (by simp [hcall]) hlock hbleaks.ge hclient

/-! ## Steps -/

/-- `async_set_co2_threshold` waits for the lock or writes, and subscribes to nothing itself.
Where the client is not connected, the connect that it awaits comes with later events. -/
theorem OnceEach.set {s : Watched} (hs : s.OnceEach) (r : Write) :
    ({ world := s.world.asyncSet r
       started := s.started ++ startsOf (.set r) (s.world.asyncSet r) } : Watched).OnceEach := by
  have hkept := BleClient.Kept.of_eq (rfl : s.world.client = s.world.client)
  unfold World.asyncSet
  split
  · split
    · obtain ⟨pc, hgoes, hpc⟩ :=
        World.startWrite_calls s.world.calls.length r (s.world.newCall (.writing r))
      have hout : pc.inConnect = false := by rcases hpc with rfl | ⟨e, rfl⟩ <;> rfl
      rw [hgoes]
      refine hs.called pc hout rfl ?_ rfl rfl hkept
      simp [World.goes, World.newCall]
    · exact hs.newCall (.locking (.write r)) rfl rfl
  · exact hs.newCall (.done _) rfl rfl

/-- `async_disconnect` stops subscriptions and starts none.  It does not wait for the lock, so a
connect may be going on beside it. -/
theorem OnceEach.disconnect {s : Watched} (hs : s.OnceEach) :
    ({ world := s.world.asyncDisconnect
       started := s.started ++ startsOf .disconnect s.world.asyncDisconnect } :
      Watched).OnceEach := by
  unfold World.asyncDisconnect
  dsimp only
  obtain ⟨w₁, hkept, hcalls, hbleaks, hlock, h⟩ :=
    World.startTeardown_kept .disconnecting (World.disconnected s.world.calls.length)
      s.world.calls.length
      ({ s.world with expectedConnected := false }.newCall (.done (.returned true)))
  have hnew : ∀ pc, w₁.calls.set s.world.calls.length pc = s.world.calls ++ [pc] := by
    intro pc
    rw [hcalls]
    simp [World.newCall]
  rcases h with ⟨k, t, h⟩ | h
  · rw [h]
    exact hs.called (.disconnecting k t) rfl rfl (hnew _) hlock hbleaks hkept
  · rw [h]
    unfold World.disconnected
    rw [World.setAvailable_eq]
    exact hs.called (.done (.returned true)) rfl rfl (hnew _) hlock hbleaks hkept

/-- **A task that takes the lock** starts over only where nothing is to be subscribed.  This is
where the assumption is used that a connect begins afresh. -/
theorem OnceEach.lock {s : Watched} (hs : s.OnceEach) {i : Nat} {p : Purpose}
    (hi : s.world.calls[i]? = some (.locking p)) (hfree : s.world.connectLock = none)
    (hok : ConnectsAfresh s.world (.lock i)) :
    ({ world := s.world.locked i p
       started := s.started ++ startsOf (.lock i) (s.world.locked i p) } : Watched).OnceEach := by
  have halone : ∀ j c, j ≠ i → s.world.calls[j]? = some c → c.inConnect = false := by
    intro j c _ hc
    by_contra hin
    have hlock := hs.locks j c hc (Bool.eq_true_of_not_eq_false hin)
    exact absurd (hfree.symm.trans hlock) (by simp)
  have hlt := (List.getElem?_eq_some_iff.mp hi).1
  unfold World.locked
  dsimp only
  split
  · rename_i hconn
    have hquiet := hok.resolve_left fun hnot => absurd (hnot.symm.trans hconn) (by simp)
    refine hs.turn (World.clientConnected_goes p true fun _ k _ => Or.inl hquiet) rfl hlt halone
      ?_ ?_ le_rfl hs.stored hs.notify
    · rfl
    · rfl
  · split
    · refine hs.turn (World.Goes.stay trivial rfl) rfl hlt halone ?_ ?_ le_rfl ?_ ?_
      · rfl
      · rfl
      · simp [World.forget]
      · exact List.nodup_nil
    · refine hs.turn (World.Goes.stay trivial rfl) rfl hlt halone ?_ ?_ le_rfl hs.stored hs.notify
      · rfl
      · rfl

/-- A new library client has nothing subscribed: its index is larger than those of all
subscriptions so far. -/
theorem OnceEach.established {s : Watched} (hs : s.OnceEach) {i : Nat} {p : Purpose} {link : Link}
    {services : Option Services} (hi : s.world.calls[i]? = some (.establishing p))
    (hok : ConnectsAfresh s.world (.established i link services)) :
    ({ world := s.world.establish i p link services
       started := s.started ++
         startsOf (.established i link services) (s.world.establish i p link services) } :
      Watched).OnceEach := by
  obtain ⟨hlock, halone⟩ := hs.alone hi rfl
  have hlt := (List.getElem?_eq_some_iff.mp hi).1
  have hlen : ∀ b : BleakClient, s.world.bleaks.length ≤ (s.world.bleaks ++ [b]).length := by simp
  have hnew : ∀ x, (s.world.bleaks.length, x) ∉ s.started := by
    intro x hx
    exact absurd (hs.known _ hx) (lt_irrefl _)
  unfold World.establish
  dsimp only
  split
  · rename_i hlink
    subst hlink
    have hstored : ∀ k, (some s.world.bleaks.length : Option Nat) = some k →
        k < (s.world.bleaks ++ [({ link := .connected } : BleakClient)]).length := by
      intro k hk
      obtain rfl := Option.some.inj hk
      simp
    have hfresh : ∀ k, (some s.world.bleaks.length : Option Nat) = some k →
        BleClient.Fresh { s.world.client with client := some s.world.bleaks.length }
          s.started k := by
      intro k hk
      obtain rfl := Option.some.inj hk
      exact ⟨hok, hnew⟩
    split
    · exact hs.turn (World.servicesFound_goes p _ hfresh) rfl hlt halone rfl hlock (hlen _)
        hstored hs.notify
    · exact hs.turn (World.Goes.stay hfresh rfl) rfl hlt halone rfl hlock (hlen _) hstored
        hs.notify
  · refine hs.turn (World.clientConnected_goes p false (by simp)) rfl hlt halone rfl hlock
      (hlen _) ?_ hs.notify
    intro k hk
    exact (hs.stored k hk).trans_le (hlen _)

/-- A subscription that succeeded is noted; it was not noted before.  So the list of those to be
subscribed gets shorter and the next one differs. -/
theorem OnceEach.subscribed {s : Watched} (hs : s.OnceEach) {i k : Nat} {p : Purpose}
    {services : Services} {c : Characteristic} {rest : List Characteristic}
    (hi : s.world.calls[i]? = some (.subscribing p k services c rest)) :
    ({ world := (s.world.subscribe k c).subscribeRest i p k services rest
       started := s.started ++ startsOf (.subscribed i true)
         ((s.world.subscribe k c).subscribeRest i p k services rest) } : Watched).OnceEach := by
  obtain ⟨hlock, halone⟩ := hs.alone hi rfl
  obtain ⟨hstarted, ⟨hnodup, hnew, hrest⟩, hx, hnoted⟩ := hs.placed _ (List.mem_of_getElem? hi)
  have hawaits : (s.world.subscribe k c).client.Awaits s.started k rest := by
    refine ⟨hnodup, hnew, fun x hxrest hxnoted => ?_⟩
    rcases List.mem_append.mp hxnoted with hold | hlast
    · exact hrest x hxrest hold
    · obtain rfl := List.mem_singleton.mp hlast
      exact hx hxrest
  have hlen : s.world.bleaks.length = (s.world.subscribe k c).bleaks.length := by
    simp [World.subscribe]
  have hk : k < (s.world.subscribe k c).bleaks.length := hlen ▸ hs.known _ hstarted
  refine hs.turn (World.subscribeRest_goes p services hawaits (Or.inl hk)) rfl
    (List.getElem?_eq_some_iff.mp hi).1 halone rfl hlock hlen.le ?_ ?_
  · intro j hj
    exact hlen ▸ hs.stored j hj
  · refine List.nodup_append.mpr ⟨hs.notify, List.nodup_singleton c, ?_⟩
    intro x hxold y hy hxy
    rw [hxy, List.mem_singleton.mp hy] at hxold
    exact hnoted hxold

/-- **One step.**  The events of a connect are turns of the task that holds the lock; the others
leave the connects alone. -/
theorem OnceEach.step {s s' : Watched} {e : World.Event} (hs : s.OnceEach)
    (hok : ConnectsAfresh s.world e) (h : s.step e = some s') : s'.OnceEach := by
  obtain ⟨w, hstep, h⟩ := Option.bind_eq_some_iff.mp h
  obtain rfl := Option.some.inj h
  have hsame := BleClient.Kept.of_eq (rfl : s.world.client = s.world.client)
  cases World.moves hstep with
  | connect => exact hs.newCall (.locking .connect) rfl rfl
  | advertised =>
      unfold World.connectIfExpected
      split
      · exact hs.newCall (.locking .connect) rfl rfl
      · exact hs.newCall (.done _) rfl rfl
  | set => exact hs.set _
  | disconnect => exact hs.disconnect
  | lock hi hfree => exact hs.lock hi hfree hok
  | deviceKnown hi => exact hs.goes rfl hi rfl (World.deviceFound_goes _ _ true _)
  | @deviceUnknown i p hi =>
      exact hs.goes rfl hi rfl (World.Goes.stay trivial rfl)
  | gotDevice hi => exact hs.goes rfl hi rfl (World.deviceFound_goes _ _ _ _)
  | raised =>
      obtain ⟨p, hi | hi⟩ := World.raised_stage hstep
      · exact hs.goes rfl hi rfl (World.connectRaises_goes _ _ _)
      · exact hs.goes rfl hi rfl (World.connectRaises_goes _ _ _)
  | @abandoned i p hi =>
      refine hs.aside (fun j c hj _ => hj) (fun j c hj hc => ?_) rfl (by simp) hsame
      obtain rfl : i = j := Option.some.inj hj
      obtain rfl := Option.some.inj (hi.symm.trans hc)
      rfl
  | established hi => exact hs.established hi hok
  | establishFailed hi => exact hs.goes rfl hi rfl (World.clientConnected_goes _ false (by simp))
  | gotServices hi =>
      exact hs.goes rfl hi rfl
        (World.servicesFound_goes _ _ (hs.placed _ (List.mem_of_getElem? hi)))
  | readDone hi =>
      exact hs.goes rfl hi rfl
        (World.readRest_goes _ _ _ (hs.placed _ (List.mem_of_getElem? hi)))
  | subscribed hi => exact hs.subscribed hi
  | subscribeFailed hi =>
      obtain ⟨hstarted, hawaits, _⟩ := hs.placed _ (List.mem_of_getElem? hi)
      exact hs.goes rfl hi rfl
        (World.subscribeRest_goes _ _ hawaits (Or.inl (hs.known _ hstarted)))
  | wrote =>
      unfold World.startReadBack
      split
      · exact hs.goesOut (.readingBack _) rfl rfl
      · exact hs.goesOut (.done _) rfl rfl
  | writeFailed => exact hs.goesOut (.done _) rfl rfl
  | readBack =>
      unfold World.readBackDone
      split
      · exact hs.goesAside (.done _) rfl rfl rfl rfl rfl hsame
      · exact hs.goesOut (.done _) rfl rfl
  | readBackFailed => exact hs.goesOut (.done _) rfl rfl
  | connectTornDown hi => exact hs.goes rfl hi rfl (World.failingRest_goes _ _ _)
  | @disconnectTornDown i k t hi =>
      rcases World.teardownRest_kept .disconnecting (World.disconnected i) i k t s.world with
        ⟨t', h⟩ | h
      · rw [h]
        exact hs.goesOut (.disconnecting k t') rfl rfl
      · rw [h]
        unfold World.disconnected
        rw [World.setAvailable_eq]
        exact hs.goesAside (.done (.returned true)) rfl rfl rfl rfl rfl s.world.forget_kept
  | lost => exact hs.still rfl rfl rfl (by simp [World.setLink]) hsame
  | reported =>
      unfold World.handleDisconnect
      dsimp only
      split
      · exact hs.still rfl rfl rfl (by simp [World.forget, World.setLink]) (Or.inr ⟨rfl, rfl⟩)
      · exact hs.still rfl rfl rfl (by simp [World.forget, World.setLink]) (Or.inr ⟨rfl, rfl⟩)
  | notified =>
      unfold World.handleNotify
      split
      · exact hs.still rfl rfl rfl rfl hsame
      · exact hs.still rfl rfl rfl rfl hsame
  | @ranScheduled c rest =>
      cases c with
      | values change => exact hs.still rfl rfl rfl rfl hsame
      | disconnect =>
          unfold World.runCallback
          dsimp only
          rw [World.setAvailable_eq]
          exact hs.still rfl rfl rfl rfl hsame

/-- **Each characteristic is subscribed once.**  In every run in which no task takes the connect
lock while the client is connected, and no client is stored while subscriptions of an earlier
one are noted, `start_notify` is called at most once for each characteristic on each connection,
and none is noted twice. -/
theorem subscribed_once {data : BirdieData} {es : List World.Event} {s : Watched}
    (hrun : Run step (fun s e => ConnectsAfresh s.world e) (init data) es s) :
    s.SubscribedOnce := by
  have hs : s.OnceEach :=
    hrun.invariant OnceEach (fun _ _ _ hs hok h => hs.step hok h) (OnceEach.init data)
  refine ⟨fun k b c _ _ => ?_, hs.notify⟩
  exact List.nodup_iff_count_le_one.mp hs.started (k, c)

instance (w : World) : (e : World.Event) → Decidable (ConnectsAfresh w e)
  | .lock _ => inferInstanceAs (Decidable (_ ∨ ∀ services ∈ w.client.services, _))
  | .established _ .connected _ =>
      inferInstanceAs (Decidable (w.client.notifyCharacteristics = []))
  | .established _ .lost _ | .established _ .reported _ | .connect | .advertised | .set _
  | .disconnect | .staleClosed _ _ | .gotDevice _ _ | .raised _ | .abandoned _
  | .establishFailed _ | .gotServices _ _ | .readDone _ _ | .subscribed _ _ | .wrote _ _
  | .readBack _ _ | .tornDown _ | .lost _ | .reported _ | .notified _ _ _ | .runScheduled =>
      isTrue trivial

/-- The device drops the link after its CO2 value was subscribed, and is seen again. -/
theorem subscribed_once_reconnected :
    ∃ s : Watched, s.started = [(0, .co2), (1, .co2)] ∧ s.SubscribedOnce := by
  let events := World.connecting ++ [.readDone 0 none, .subscribed 0 true, .lost 0, .reported 0,
    .advertised, .lock 1, .staleClosed 1 true,
    .established 1 .connected (some World.exampleServices), .readDone 1 none, .subscribed 1 true]
  let execution := exec step (init World.exampleData) events
  obtain ⟨s, hs⟩ := Option.isSome_iff_exists.mp (show execution.isSome = true by decide +kernel)
  have hfacts : ∀ t ∈ execution, t.started = [(0, .co2), (1, .co2)] := by decide +kernel
  exact ⟨s, hfacts s hs, subscribed_once (Run.of_meets hs (by decide +kernel))⟩

/-- The connect of setup finds no device; then two advertisements come in. -/
def advertisedTwice : List World.Event :=
  [.connect, .lock 0, .staleClosed 0 true, .establishFailed 0, .advertised, .advertised,
    .lock 1, .staleClosed 1 true, .established 1 .connected (some World.exampleServices),
    .readDone 1 none, .subscribed 1 true, .lock 2, .readDone 2 none, .subscribed 2 true]

/-- **Two advertisements subscribe everything twice.**  Both find the client not connected; the
second waits for the lock, and starts over on the client that the first has connected. -/
theorem subscribed_twice_after_advertisements :
    ∃ s : Watched, Run step Anything (init World.exampleData) advertisedTwice s ∧
      s.started = [(0, .co2), (0, .co2)] ∧
      s.world.client.notifyCharacteristics = [.co2, .co2] ∧ ¬ s.SubscribedOnce := by
  let execution := exec step (init World.exampleData) advertisedTwice
  obtain ⟨s, hs⟩ := Option.isSome_iff_exists.mp (show execution.isSome = true by decide +kernel)
  have hfacts : ∀ t ∈ execution, t.started = [(0, .co2), (0, .co2)] ∧
      t.world.client.notifyCharacteristics = [.co2, .co2] := by decide +kernel
  obtain ⟨hstarted, hnoted⟩ := hfacts s hs
  refine ⟨s, Run.of_exec hs, hstarted, hnoted, fun honce => ?_⟩
  have hnodup := honce.2
  rw [hnoted] at hnodup
  exact absurd hnodup (by decide)

end Watched

end Ble
