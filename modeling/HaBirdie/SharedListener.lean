import HaBirdie.StepRuns
import Mathlib.Data.List.Count

/-!
# The discovery listener that all purifiers share

`PurifierDiscovery` counts the entries that use its `DiscoveryListener` and keeps it while
there are any.  An `async_acquire` awaits twice, while it creates a listener and for each
port that the listener binds; an `async_release` runs through, because `async_stop` awaits
nothing.

`listening_iff_acquired` is the whole-run statement, for acquires that neither overlap in
creating a listener nor raise (`AcquiresAlone`).
-/

namespace Purifier

open StepRuns

/-- The ports that devices announce themselves on: `BROADCAST_PORTS`. -/
def broadcastPorts : List Nat := [6666, 6667]

/-- Who hears the announcements of a listener: the shared discovery, or a scan that uses its
listener. -/
inductive Callback
  | onDevice
  | scan
deriving DecidableEq

/-- `DiscoveryListener`; a transport is given by its port. -/
structure Listener where
  ports : List Nat
  transports : List Nat := []
  callbacks : List Callback := []
deriving DecidableEq

namespace Listener

/-- `listening`. -/
def listening (l : Listener) : Bool := !l.transports.isEmpty

/-- `add_callback`. -/
def addCallback (c : Callback) (l : Listener) : Listener :=
  { l with callbacks := l.callbacks ++ [c] }

/-- What `add_callback` returns: the first occurrence is removed. -/
def removeCallback (c : Callback) (l : Listener) : Listener :=
  { l with callbacks := l.callbacks.erase c }

/-- `async_start` after the endpoint of a port was created. -/
def addTransport (port : Nat) (l : Listener) : Listener :=
  { l with transports := l.transports ++ [port] }

/-- `async_stop`. -/
def stop (l : Listener) : Listener := { l with transports := [] }

/-- The discovery's callback is registered exactly once. -/
def heardOnce (l : Listener) : Prop := l.callbacks.count .onDevice = 1

end Listener

/-- `async_start` up to its next await: the first port that can be bound, and the ports after
it.  A port that cannot be bound is skipped. -/
def nextSocket (binds : Nat → Bool) : List Nat → Option (Nat × List Nat)
  | [] => none
  | port :: rest => if binds port then some (port, rest) else nextSocket binds rest

/-- Where an entry's `async_acquire` stands, and its `async_release` after it. -/
inductive Acquire
  | creating
  | starting (listener port : Nat) (rest : List Nat)
  | acquired
  | released
  | raised
deriving DecidableEq

/-- `PurifierDiscovery` with the listeners it has created and the calls of its entries.
`removeCallback` is the listener whose callback it would remove. -/
structure Discovery where
  users : Nat := 0
  listener : Option Nat := none
  removeCallback : Option Nat := none
  listeners : List Listener := []
  calls : List Acquire := []

namespace Discovery

/-- `async_start` goes on with the ports that are left, or `async_acquire` returns. -/
def startRest (i l : Nat) (binds : Nat → Bool) (ports : List Nat) (w : Discovery) : Discovery :=
  { w with
    calls := w.calls.set i (match nextSocket binds ports with
      | some (port, rest) => .starting l port rest
      | none => .acquired) }

/-- `async_acquire` up to its first await. -/
def asyncAcquire (w : Discovery) : Discovery :=
  { w with
    users := w.users + 1
    calls := w.calls ++ [if w.listener.isSome then .acquired else .creating] }

/-- `async_acquire` after `_async_create_listener`. -/
def created (i : Nat) (binds : Nat → Bool) (w : Discovery) : Discovery :=
  let l := w.listeners.length
  { w with
    listener := some l
    removeCallback := some l
    listeners := w.listeners ++
      [Listener.addCallback .onDevice { ports := broadcastPorts }] }.startRest i l binds
    broadcastPorts

/-- `async_release`. -/
def asyncRelease (w : Discovery) : Discovery :=
  let w := { w with users := w.users - 1 }
  if w.users ≠ 0 then w
  else match w.listener with
    | none => w
    | some l =>
        let listeners := match w.removeCallback with
          | some r => w.listeners.modify r (Listener.removeCallback .onDevice)
          | none => w.listeners
        { w with
          listener := none
          removeCallback := none
          listeners := listeners.modify l Listener.stop }

/-- What the entries do, and how their awaits end. -/
inductive Event
  | acquire
  | created (i : Nat) (binds : Nat → Bool)
  | bound (i : Nat) (binds : Nat → Bool)
  | raised (i : Nat)
  | release (i : Nat)
  | scan (l : Nat)
  | scanned (l : Nat)

/-- One step. -/
def step (w : Discovery) : Event → Option Discovery
  | .acquire => some w.asyncAcquire
  | .created i binds =>
      match w.calls[i]? with
      | some .creating => some (w.created i binds)
      | _ => none
  | .bound i binds =>
      match w.calls[i]? with
      | some (.starting l port rest) =>
          some ({ w with listeners := w.listeners.modify l (Listener.addTransport port) }.startRest
            i l binds rest)
      | _ => none
  | .raised i =>
      match w.calls[i]? with
      | some .creating | some (.starting _ _ _) =>
          some { w with calls := w.calls.set i .raised }
      | _ => none
  | .release i =>
      match w.calls[i]? with
      | some .acquired => some { w with calls := w.calls.set i .released }.asyncRelease
      | _ => none
  | .scan l => some { w with listeners := w.listeners.modify l (Listener.addCallback .scan) }
  | .scanned l => some { w with listeners := w.listeners.modify l (Listener.removeCallback .scan) }

/-! ## Listening and use -/

/-- At most one listener is listening. -/
def OneListening (w : Discovery) : Prop :=
  ∀ (i j : Nat) (l m : Listener), w.listeners[i]? = some l → w.listeners[j]? = some m →
    l.listening = true → m.listening = true → i = j

/-- No call is in progress. -/
def Quiet (w : Discovery) : Prop :=
  ∀ c ∈ w.calls, c = .acquired ∨ c = .released ∨ c = .raised

/-- Some entry has acquired and not released. -/
def InUse (w : Discovery) : Prop := .acquired ∈ w.calls

/-- A listener is listening with the discovery's callback registered exactly once. -/
def Heard (w : Discovery) : Prop := ∃ l ∈ w.listeners, l.listening = true ∧ l.heardOnce

/-- No acquire begins while another one creates its listener, none raises, and a new listener
can bind one of its ports. -/
def AcquiresAlone (w : Discovery) : Event → Prop
  | .acquire => .creating ∉ w.calls
  | .created _ binds => ∃ port ∈ broadcastPorts, binds port = true
  | .raised _ => False
  | _ => True

instance (w : Discovery) (a : Event) : Decidable (w.AcquiresAlone a) := by
  unfold AcquiresAlone
  split <;> infer_instance

/-- A call that the user count counts. -/
def counted : Acquire → Bool
  | .creating | .starting _ _ _ | .acquired => true
  | .released | .raised => false

/-- While there is no listener, at most one acquire creates one and nobody else holds any. -/
structure Unused (w : Discovery) : Prop where
  remover : w.removeCallback = none
  creators : ∀ c ∈ w.calls, counted c = true → c = .creating
  one : w.calls.count .creating ≤ 1

/-- While there is a listener, it is started by one acquire or is listening. -/
structure Used (w : Discovery) (l : Nat) : Prop where
  remover : w.removeCallback = some l
  held : ∃ c ∈ w.calls, counted c = true
  once : ∀ s ∈ w.listeners[l]?, s.heardOnce
  created : l < w.listeners.length
  creators : .creating ∉ w.calls
  starters : ∀ k port rest, .starting k port rest ∈ w.calls → k = l
  started : (∀ port rest, .starting l port rest ∉ w.calls) →
    ∀ s ∈ w.listeners[l]?, s.listening = true

/-- The invariant. -/
structure Balanced (w : Discovery) : Prop where
  users : w.users = w.calls.countP counted
  others : ∀ (i : Nat) (s : Listener), w.listener ≠ some i → w.listeners[i]? = some s →
    s.listening = false
  unused : w.listener = none → w.Unused
  used : ∀ l, w.listener = some l → w.Used l

/-! ## Listeners -/

@[simp] theorem addCallback_listening (c : Callback) (l : Listener) :
    (l.addCallback c).listening = l.listening := rfl

@[simp] theorem removeCallback_listening (c : Callback) (l : Listener) :
    (l.removeCallback c).listening = l.listening := rfl

@[simp] theorem addTransport_listening (port : Nat) (l : Listener) :
    (l.addTransport port).listening = true := by
  simp [Listener.listening, Listener.addTransport]

@[simp] theorem stop_listening (l : Listener) : l.stop.listening = false := rfl

/-- The callback of a scan comes and goes without the discovery's. -/
theorem heardOnce_addCallback {l : Listener} (h : l.heardOnce) :
    (l.addCallback .scan).heardOnce := by
  unfold Listener.heardOnce Listener.addCallback at *
  simpa [List.count_append] using h

/-- A scan that ends takes its own callback away, and the entries' callback stays the one. -/
theorem heardOnce_removeCallback {l : Listener} (h : l.heardOnce) :
    (l.removeCallback .scan).heardOnce := by
  unfold Listener.heardOnce Listener.removeCallback at *
  rw [List.count_erase_of_ne (by decide)]
  exact h

/-- The modified element, or an unmodified one. -/
theorem getElem?_modify_cases {α : Type} {f : α → α} {l : List α} {i j : Nat} {a : α}
    (h : (l.modify i f)[j]? = some a) :
    (i = j ∧ ∃ b, l[j]? = some b ∧ a = f b) ∨ (i ≠ j ∧ l[j]? = some a) := by
  rw [List.getElem?_modify] at h
  obtain ⟨b, hb, hval⟩ := Option.map_eq_some_iff.mp h
  by_cases hij : i = j
  · exact Or.inl ⟨hij, b, hb, by rw [← hval]; exact if_pos hij⟩
  · refine Or.inr ⟨hij, hb.trans ?_⟩
    rw [← hval]
    exact congrArg some (if_neg hij).symm

/-! ## Steps -/

/-- Some port is left to start with. -/
theorem nextSocket_isSome {binds : Nat → Bool} {ports : List Nat}
    (h : ∃ port ∈ ports, binds port = true) :
    ∃ port rest, nextSocket binds ports = some (port, rest) := by
  induction ports with
  | nil => exact absurd h (by simp)
  | cons port ports ih =>
      unfold nextSocket
      split
      · exact ⟨_, _, rfl⟩
      · rename_i hfirst
        obtain ⟨port', hmem, hbinds⟩ := h
        rcases List.mem_cons.mp hmem with rfl | hrest
        · exact absurd hbinds hfirst
        · exact ih ⟨port', hrest, hbinds⟩

/-- Replacing a counted call by a counted one. -/
theorem countP_set_counted {calls : List Acquire} {i : Nat} {c c' : Acquire}
    (hi : calls[i]? = some c) (hc : counted c = true) (hc' : counted c' = true) :
    (calls.set i c').countP counted = calls.countP counted := by
  obtain ⟨hlt, rfl⟩ := List.getElem?_eq_some_iff.mp hi
  have hpos : 0 < calls.countP counted :=
    List.countP_pos_iff.mpr ⟨_, List.getElem_mem hlt, hc⟩
  rw [List.countP_set hlt, if_pos hc, if_pos hc']
  omega

/-- Scans change only their own callback.  What the entries hold and share is as it was. -/
theorem Balanced.scan {w : Discovery} (hw : w.Balanced) (l : Nat) {f : Listener → Listener}
    (hlistening : ∀ s, (f s).listening = s.listening)
    (honce : ∀ s : Listener, s.heardOnce → (f s).heardOnce) :
    Balanced { w with listeners := w.listeners.modify l f } := by
  have hback : ∀ (i : Nat) (s : Listener), (w.listeners.modify l f)[i]? = some s →
      ∃ s₀, w.listeners[i]? = some s₀ ∧ s.listening = s₀.listening ∧
        (s₀.heardOnce → s.heardOnce) := by
    intro i s hs
    rcases getElem?_modify_cases hs with ⟨_, b, hb, rfl⟩ | ⟨_, hs⟩
    · exact ⟨b, hb, hlistening b, honce b⟩
    · exact ⟨s, hs, rfl, id⟩
  refine { users := hw.users, others := ?others, unused := ?unused, used := ?used }
  case others =>
    intro i s hi hs
    obtain ⟨s₀, hs₀, hsame, _⟩ := hback i s hs
    rw [hsame]
    exact hw.others i s₀ hi hs₀
  case unused =>
    intro h
    have hunused := hw.unused h
    exact ⟨hunused.remover, hunused.creators, hunused.one⟩
  case used =>
    intro k hk
    have hused := hw.used k hk
    refine
      { hused with once := ?once, created := by simpa using hused.created, started := ?started }
    case once =>
      intro s hs
      obtain ⟨s₀, hs₀, _, hheard⟩ := hback k s hs
      exact hheard (hused.once s₀ hs₀)
    case started =>
      intro hnone s hs
      obtain ⟨s₀, hs₀, hsame, _⟩ := hback k s hs
      rw [hsame]
      exact hused.started hnone s₀ hs₀

/-- Only the calls change: nobody new creates or starts a listener, and starters stay.  One of the
calls that hold the listener is enough to keep it in use. -/
theorem Used.calls {w w' : Discovery} {l : Nat} (h : w.Used l)
    (hremover : w'.removeCallback = w.removeCallback) (hlisteners : w'.listeners = w.listeners)
    (hheld : ∃ c ∈ w'.calls, counted c = true)
    (hcreating : .creating ∈ w'.calls → .creating ∈ w.calls)
    (hstarting : ∀ k port rest,
      .starting k port rest ∈ w'.calls ↔ .starting k port rest ∈ w.calls) : w'.Used l := by
  refine
    { remover := hremover.trans h.remover, held := hheld, once := ?once, created := ?created,
      creators := fun hc => h.creators (hcreating hc), starters := ?starters,
      started := ?started }
  case once =>
    rw [hlisteners]
    exact h.once
  case created =>
    rw [hlisteners]
    exact h.created
  case starters =>
    intro k port rest hc
    exact h.starters k port rest ((hstarting k port rest).mp hc)
  case started =>
    intro hidle
    rw [hlisteners]
    apply h.started
    intro port rest hc
    exact hidle port rest ((hstarting l port rest).mpr hc)

/-- A new entry waits for a listener to be created, or uses the one there is.  Nobody is creating
one meanwhile, which is what keeps it a single one. -/
theorem Balanced.acquire {w : Discovery} (hw : w.Balanced) (halone : .creating ∉ w.calls) :
    w.asyncAcquire.Balanced := by
  have hcounted : counted (if w.listener.isSome then .acquired else .creating) = true := by
    split <;> rfl
  refine { users := ?users, others := hw.others, unused := ?unused, used := ?used }
  case users => simp [asyncAcquire, hcounted, hw.users]
  case unused =>
    intro h
    have hnone : w.listener = none := h
    have hunused := hw.unused hnone
    refine ⟨hunused.remover, fun c hc hcount => ?_, ?_⟩
    · rcases List.mem_append.mp hc with hc | hc
      · exact hunused.creators c hc hcount
      · simpa [hnone] using hc
    · have hzero : w.calls.count .creating = 0 := List.count_eq_zero.mpr halone
      simp [asyncAcquire, hnone, List.count_append, hzero]
  case used =>
    intro l hl
    have hsome : w.listener = some l := hl
    have hmem : ∀ c : Acquire, c ≠ .acquired → (c ∈ w.asyncAcquire.calls ↔ c ∈ w.calls) := by
      intro c hne
      simp [asyncAcquire, hsome, hne]
    refine (hw.used l hsome).calls rfl rfl ⟨_, List.mem_append_right _ (List.mem_singleton_self _),
      hcounted⟩ ?_ ?_
    · exact (hmem _ (by simp)).mp
    · intro k port rest
      exact hmem _ (by simp)

/-- After the listener was created, the only creator starts it.  It becomes the shared one in the
same turn, with the callback of the entries. -/
theorem Balanced.created {w : Discovery} (hw : w.Balanced) {i : Nat} {binds : Nat → Bool}
    (hi : w.calls[i]? = some .creating) (hbinds : ∃ port ∈ broadcastPorts, binds port = true) :
    (w.created i binds).Balanced := by
  have hmem : .creating ∈ w.calls := List.mem_of_getElem? hi
  have hnone : w.listener = none := by
    cases hl : w.listener with
    | none => rfl
    | some l => exact absurd hmem (hw.used l hl).creators
  have hunused := hw.unused hnone
  obtain ⟨port, rest, hnext⟩ := nextSocket_isSome hbinds
  have hcalls : (w.created i binds).calls =
      w.calls.set i (.starting w.listeners.length port rest) := by
    simp [Discovery.created, startRest, hnext]
  have hlisteners : (w.created i binds).listeners =
      w.listeners ++ [Listener.addCallback .onDevice { ports := broadcastPorts }] := rfl
  obtain ⟨hlt, hget⟩ := List.getElem?_eq_some_iff.mp hi
  have hstarting : .starting w.listeners.length port rest ∈ (w.created i binds).calls := by
    rw [hcalls]
    exact List.mem_set hlt _
  refine { users := ?users, others := ?others, unused := ?unused, used := ?used }
  case users =>
    rw [hcalls, countP_set_counted hi rfl rfl]
    exact hw.users
  case others =>
    intro j s hj hs
    rw [hlisteners] at hs
    have hlast : j ≠ w.listeners.length := by
      intro heq
      obtain rfl := heq
      exact hj rfl
    have hle := (List.getElem?_eq_some_iff.mp hs).1
    simp only [List.length_append, List.length_singleton] at hle
    rw [List.getElem?_append_left (by omega)] at hs
    exact hw.others j s (by simp [hnone]) hs
  case unused =>
    intro h
    exact absurd h (by simp [Discovery.created, startRest])
  case used =>
    intro l hl
    obtain rfl : w.listeners.length = l := Option.some.inj hl
    refine
      { remover := rfl, held := ⟨_, hstarting, rfl⟩, once := ?once, created := by simp [hlisteners],
        creators := ?creators, starters := ?starters, started := ?started }
    case once =>
      intro s hs
      rw [hlisteners, List.getElem?_concat_length] at hs
      obtain rfl := Option.some.inj hs
      simp [Listener.heardOnce, Listener.addCallback]
    case creators =>
      -- it was the only creator
      rw [hcalls, ← List.count_eq_zero, List.count_set hlt]
      have hone := hunused.one
      simp [hget]
      omega
    case starters =>
      intro k q qs hk
      rw [hcalls] at hk
      rcases List.mem_or_eq_of_mem_set hk with hold | hnew
      · exact absurd (hunused.creators _ hold rfl) (by simp)
      · exact (Acquire.starting.inj hnew).1
    case started =>
      intro hidle
      exact absurd hstarting (hidle port rest)

/-- One more port is bound.  After the last one the call has acquired the listener. -/
theorem Balanced.bound {w : Discovery} (hw : w.Balanced) {i l port : Nat} {rest : List Nat}
    (binds : Nat → Bool) (hi : w.calls[i]? = some (.starting l port rest)) :
    ({ w with listeners := w.listeners.modify l (Listener.addTransport port) }.startRest
      i l binds rest).Balanced := by
  have hmem : .starting l port rest ∈ w.calls := List.mem_of_getElem? hi
  obtain ⟨k, hk⟩ : ∃ k, w.listener = some k := by
    cases hl : w.listener with
    | none => exact absurd ((hw.unused hl).creators _ hmem rfl) (by simp)
    | some k => exact ⟨k, rfl⟩
  have hused := hw.used k hk
  obtain rfl : l = k := hused.starters l port rest hmem
  let next : Acquire := match nextSocket binds rest with
    | some (port, rest) => .starting l port rest
    | none => .acquired
  have hnext : counted next = true ∧ next ≠ .creating ∧
      ∀ k q qs, next = .starting k q qs → k = l := by
    dsimp only [next]
    split
    · exact ⟨rfl, by simp, fun k q qs h => by cases h; rfl⟩
    · exact ⟨rfl, by simp, fun k q qs h => by cases h⟩
  obtain ⟨hlt, hget⟩ := List.getElem?_eq_some_iff.mp hi
  refine { users := ?users, others := ?others, unused := ?unused, used := ?used }
  case users =>
    show w.users = (w.calls.set i next).countP counted
    rw [countP_set_counted hi rfl hnext.1]
    exact hw.users
  case others =>
    intro j s hj hs
    rcases getElem?_modify_cases hs with ⟨rfl, _⟩ | ⟨_, hs⟩
    · exact absurd hk hj
    · exact hw.others j s hj hs
  case unused =>
    intro h
    exact absurd (hk.symm.trans h) (by simp)
  case used =>
    intro k' hk'
    obtain rfl : l = k' := Option.some.inj (hk.symm.trans hk')
    have hstarted : ∀ s ∈ (w.listeners.modify l (Listener.addTransport port))[l]?,
        ∃ s₀ ∈ w.listeners[l]?, s = s₀.addTransport port := by
      intro s hs
      rcases getElem?_modify_cases hs with ⟨_, s₀, hs₀, rfl⟩ | ⟨hne, _⟩
      · exact ⟨s₀, hs₀, rfl⟩
      · exact absurd rfl hne
    refine
      { remover := hused.remover, held := ⟨next, List.mem_set hlt _, hnext.1⟩, once := ?once,
        created := by simpa [startRest] using hused.created, creators := ?creators,
        starters := ?starters, started := ?started }
    case once =>
      intro s hs
      obtain ⟨s₀, hs₀, rfl⟩ := hstarted s hs
      exact hused.once s₀ hs₀
    case creators =>
      intro hc
      rcases List.mem_or_eq_of_mem_set hc with hold | hnew
      · exact hused.creators hold
      · exact hnext.2.1 hnew.symm
    case starters =>
      intro k q qs hc
      rcases List.mem_or_eq_of_mem_set hc with hold | hnew
      · exact hused.starters k q qs hold
      · exact hnext.2.2 k q qs hnew.symm
    case started =>
      intro _ s hs
      obtain ⟨s₀, _, rfl⟩ := hstarted s hs
      exact addTransport_listening port s₀

/-- The other calls stay when an entry releases.  Nothing that is still creating or starting is
changed by it. -/
theorem mem_set_released {calls : List Acquire} {i : Nat} {c : Acquire}
    (hi : calls[i]? = some .acquired) (hreleased : c ≠ .released) (hacquired : c ≠ .acquired) :
    c ∈ calls.set i .released ↔ c ∈ calls := by
  constructor
  · intro hc
    rcases List.mem_or_eq_of_mem_set hc with hold | hnew
    · exact hold
    · exact absurd hnew hreleased
  · intro hc
    obtain ⟨j, hj⟩ := List.mem_iff_getElem?.mp hc
    have hij : i ≠ j := by
      intro heq
      obtain rfl := heq
      exact hacquired (Option.some.inj (hj.symm.trans hi))
    have hkept : (calls.set i .released)[j]? = some c := by
      rw [List.getElem?_set_ne hij]
      exact hj
    exact List.mem_of_getElem? hkept

/-- An entry releases: the last one stops the listener.  Before that the callback stays, because
the count is not yet zero. -/
theorem Balanced.release {w : Discovery} (hw : w.Balanced) {i : Nat}
    (hi : w.calls[i]? = some .acquired) :
    ({ w with calls := w.calls.set i .released }.asyncRelease).Balanced := by
  have hmem : .acquired ∈ w.calls := List.mem_of_getElem? hi
  obtain ⟨l, hl⟩ : ∃ l, w.listener = some l := by
    cases hl : w.listener with
    | none => exact absurd ((hw.unused hl).creators _ hmem rfl) (by simp)
    | some l => exact ⟨l, rfl⟩
  have hused := hw.used l hl
  obtain ⟨hlt, hget⟩ := List.getElem?_eq_some_iff.mp hi
  have hcount : (w.calls.set i .released).countP counted = w.users - 1 := by
    rw [List.countP_set hlt, hget, hw.users]
    simp [counted]
  by_cases hlast : w.users - 1 = 0
  · have hnobody : ∀ c ∈ w.calls.set i .released, counted c = false := by
      intro c hc
      have hzero := hcount.trans hlast
      rw [List.countP_eq_zero] at hzero
      simpa using hzero c hc
    have hstopped : ({ w with calls := w.calls.set i .released }.asyncRelease) =
        { w with
          users := w.users - 1
          listener := none
          removeCallback := none
          listeners := (w.listeners.modify l (Listener.removeCallback .onDevice)).modify l
            Listener.stop
          calls := w.calls.set i .released } := by
      simp [asyncRelease, hlast, hl, hused.remover]
    rw [hstopped]
    refine { users := hcount.symm, others := ?others, unused := ?unused, used := ?used }
    case others =>
      intro j s _ hs
      rcases getElem?_modify_cases hs with ⟨rfl, b, _, rfl⟩ | ⟨hne, hs⟩
      · rfl
      · rcases getElem?_modify_cases hs with ⟨heq, _⟩ | ⟨_, hs⟩
        · exact absurd heq hne
        · refine hw.others j s ?_ hs
          intro h
          exact hne (Option.some.inj (hl.symm.trans h))
    case unused =>
      intro _
      have hnone : .creating ∉ w.calls.set i .released := by
        intro h
        exact absurd (hnobody _ h) (by simp [counted])
      refine ⟨rfl, fun c hc hcounted => ?_, ?_⟩
      · exact absurd hcounted (by simp [hnobody c hc])
      · rw [List.count_eq_zero.mpr hnone]
        omega
    case used =>
      intro k hk
      exact absurd hk (by simp)
  · have hkept : ({ w with calls := w.calls.set i .released }.asyncRelease) =
        { w with users := w.users - 1, calls := w.calls.set i .released } := by
      simp [asyncRelease, hlast]
    rw [hkept]
    refine { users := hcount.symm, others := hw.others, unused := ?unused, used := ?used }
    case unused =>
      intro h
      exact absurd (hl.symm.trans h) (by simp)
    case used =>
      intro k hk
      obtain rfl : l = k := Option.some.inj (hl.symm.trans hk)
      refine hused.calls rfl rfl ?_ ?_ ?_
      · exact List.countP_pos_iff.mp (by rw [hcount]; omega)
      · exact (mem_set_released hi (by simp) (by simp)).mp
      · intro k q qs
        exact mem_set_released hi (by simp) (by simp)

/-- **One step** of acquires that are alone.  The assumption is used where an entry begins to
acquire, and nowhere else. -/
theorem Balanced.step {w w' : Discovery} {a : Event} (hw : w.Balanced) (hok : w.AcquiresAlone a)
    (h : w.step a = some w') : w'.Balanced := by
  cases a with
  | acquire =>
      obtain rfl := Option.some.inj h
      exact hw.acquire hok
  | created i binds =>
      simp only [Discovery.step] at h
      split at h
      · rename_i hi
        obtain rfl := Option.some.inj h
        exact hw.created hi hok
      · exact absurd h (by simp)
  | bound i binds =>
      simp only [Discovery.step] at h
      split at h
      · rename_i hi
        obtain rfl := Option.some.inj h
        exact hw.bound binds hi
      · exact absurd h (by simp)
  | raised i => exact absurd hok id
  | release i =>
      simp only [Discovery.step] at h
      split at h
      · rename_i hi
        obtain rfl := Option.some.inj h
        exact hw.release hi
      · exact absurd h (by simp)
  | scan l =>
      obtain rfl := Option.some.inj h
      exact hw.scan l (fun _ => rfl) fun _ => heardOnce_addCallback
  | scanned l =>
      obtain rfl := Option.some.inj h
      exact hw.scan l (fun _ => rfl) fun _ => heardOnce_removeCallback

/-- Listeners other than the current one do not listen. -/
theorem Balanced.oneListening {w : Discovery} (hw : w.Balanced) : w.OneListening := by
  have hcurrent : ∀ (i : Nat) (l : Listener), w.listeners[i]? = some l → l.listening = true →
      w.listener = some i := by
    intro i l hl hon
    by_contra hother
    exact absurd (hw.others i l hother hl) (by simp [hon])
  intro i j l m hl hm honl honm
  exact Option.some.inj ((hcurrent i l hl honl).symm.trans (hcurrent j m hm honm))

/-- Without a call in progress the current listener is started.  So announcements are heard exactly
when an entry has acquired it. -/
theorem Balanced.heard_iff {w : Discovery} (hw : w.Balanced) (hquiet : w.Quiet) :
    w.Heard ↔ w.InUse := by
  constructor
  · intro hparts
    obtain ⟨s, hs, hon, _⟩ := hparts
    obtain ⟨i, hi⟩ := List.mem_iff_getElem?.mp hs
    have hcurrent : w.listener = some i := by
      by_contra hother
      exact absurd (hw.others i s hother hi) (by simp [hon])
    obtain ⟨c, hc, hcounted⟩ := (hw.used i hcurrent).held
    rcases hquiet c hc with rfl | rfl | rfl
    · exact hc
    · exact absurd hcounted (by simp [counted])
    · exact absurd hcounted (by simp [counted])
  · intro hacquired
    cases hl : w.listener with
    | none => exact absurd ((hw.unused hl).creators _ hacquired rfl) (by simp)
    | some l =>
        have hused := hw.used l hl
        obtain ⟨s, hs⟩ : ∃ s, w.listeners[l]? = some s :=
          ⟨_, List.getElem?_eq_getElem hused.created⟩
        refine ⟨s, List.mem_of_getElem? hs, hused.started (fun port rest hc => ?_) s hs,
          hused.once s hs⟩
        rcases hquiet _ hc with h | h | h <;> exact absurd h (by simp)

/-- **The listener is shared.**  In every run in which acquires do not overlap in creating a
listener, do not raise and can bind a port, at most one listener is listening in every state,
and in every state without a call in progress one is, with the discovery's callback
registered exactly once, if and only if some entry has acquired and not released. -/
theorem listening_iff_acquired {as : List Event} {w : Discovery}
    (hrun : Run step AcquiresAlone {} as w) :
    w.OneListening ∧ (w.Quiet → (w.Heard ↔ w.InUse)) := by
  have hinit : Balanced {} := by
    refine ⟨rfl, fun i s _ hs => absurd hs (by simp), fun _ => ⟨rfl, by simp, by simp⟩,
      fun l hl => absurd hl (by simp)⟩
  have hw := hrun.invariant Balanced (fun _ _ _ hs hok h => hs.step hok h) hinit
  exact ⟨hw.oneListening, hw.heard_iff⟩

/-! ## Examples -/

/-- All ports can be bound. -/
def allPorts : Nat → Bool := fun _ => true

/-- An entry acquires and its listener starts. -/
def acquires (i : Nat) : List Event :=
  [.acquire, .created i allPorts, .bound i allPorts, .bound i allPorts]

instance (w : Discovery) : Decidable w.Quiet := inferInstanceAs (Decidable (∀ c ∈ w.calls, _))

instance (w : Discovery) : Decidable w.InUse := inferInstanceAs (Decidable (_ ∈ w.calls))

instance (l : Listener) : Decidable l.heardOnce := inferInstanceAs (Decidable (_ = _))

instance (w : Discovery) : Decidable w.Heard := inferInstanceAs (Decidable (∃ l ∈ w.listeners, _))

/-- Two entries use one listener, and the first releases. -/
theorem listening_shared :
    ∃ w : Discovery, w.InUse ∧ w.Heard ∧ w.OneListening := by
  let actions := acquires 0 ++ [.acquire, .release 0]
  let execution := exec step {} actions
  obtain ⟨w, hw⟩ := Option.isSome_iff_exists.mp (show execution.isSome = true by decide +kernel)
  have hfacts : ∀ v ∈ execution, v.InUse ∧ v.Quiet := by decide +kernel
  obtain ⟨huse, hquiet⟩ := hfacts w hw
  obtain ⟨hone, hiff⟩ := listening_iff_acquired (Run.of_meets hw (by decide +kernel))
  exact ⟨w, huse, (hiff hquiet).mpr huse, hone⟩

/-- **Two acquires at once start two listeners.**  Both find none while the first one is being
created; after both release, one still listens. -/
theorem listeners_leak_after_overlap :
    ∃ w v : Discovery,
      Run step Anything {} [.acquire, .acquire, .created 0 allPorts, .created 1 allPorts,
        .bound 0 allPorts, .bound 1 allPorts, .bound 0 allPorts, .bound 1 allPorts] w ∧
      ¬ w.OneListening ∧
      Run step Anything w [.release 0, .release 1] v ∧ v.Quiet ∧ v.Heard ∧ ¬ v.InUse := by
  let actions : List Event := [.acquire, .acquire, .created 0 allPorts, .created 1 allPorts,
    .bound 0 allPorts, .bound 1 allPorts, .bound 0 allPorts, .bound 1 allPorts]
  let execution := exec step {} actions
  obtain ⟨w, hw⟩ := Option.isSome_iff_exists.mp (show execution.isSome = true by decide +kernel)
  have hlisteners : ∀ w ∈ execution, ∃ l ∈ w.listeners[0]?, ∃ m ∈ w.listeners[1]?,
      l.listening = true ∧ m.listening = true := by decide +kernel
  have hreleased : ∀ w ∈ execution, ∃ v ∈ exec step w [.release 0, .release 1],
      v.Quiet ∧ v.Heard ∧ ¬ v.InUse := by decide +kernel
  obtain ⟨l, hl, m, hm, honl, honm⟩ := hlisteners w hw
  obtain ⟨v, hv, hquiet, hheard, hunused⟩ := hreleased w hw
  refine ⟨w, v, Run.of_exec hw, fun hone => ?_, Run.of_exec hv, hquiet, hheard, hunused⟩
  exact absurd (hone 0 1 l m hl hm honl honm) (by decide)

end Discovery

end Purifier
