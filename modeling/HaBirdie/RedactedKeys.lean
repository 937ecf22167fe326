import HaBirdie.LanClose
import HaBirdie.Redaction
import Mathlib.Algebra.Order.BigOperators.Group.List

/-!
# A key is redacted while a device uses it

Any number of devices share the counter of `lan/redact.py`.  `__init__` registers the key,
`async_reconfigure` registers the new one, takes it over and releases the old one, and
`async_close` releases the key at its end.  Each registration and release is atomic, and
devices may run on different threads, so `async_reconfigure` is three steps here, between
which only its own event loop waits.

The invariant counts: a form is counted as often as the keys in use have it (`Counted`).  A
device uses its key until its close completes, and while it is given another key, both.
-/

namespace Lan

open Python StepRuns

variable {γ : Type}

/-- The call returned. -/
def Call.returns : Call → Bool
  | .done _ (.returned _) => true
  | _ => false

namespace World

variable {cb : Callbacks γ}

/-! ## The close that releases the key -/

/-- The first `async_close` has returned. -/
def closeCompleted (w : World γ) : Bool :=
  (w.calls.find? fun c => c.op = .close).any Call.returns

/-- The close has completed if the first call of `async_close` returned.  Later calls return at
once and say nothing about it. -/
theorem closeCompleted_iff (w : World γ) :
    w.closeCompleted = true ↔ ∃ k dps, w.FirstClose k (.done .close (.returned dps)) := by
  unfold closeCompleted
  rw [← w.firstClose_iff]
  constructor
  · intro hparts
    obtain ⟨k, c, hk, hreturned⟩ := hparts
    cases c with
    | done op ending =>
        obtain rfl : op = .close := hk.2.1
        cases ending with
        | returned dps => exact ⟨k, dps, hk⟩
        | _ => exact absurd hreturned (by simp [Call.returns])
    | _ => exact absurd hreturned (by simp [Call.returns])
  · intro hparts
    obtain ⟨k, dps, hk⟩ := hparts
    exact ⟨k, _, hk, rfl⟩

/-- Where a close returns: at the release of the key, and at once when the device was closed
before. -/
theorem returned_step {w w' : World γ} {a : Action} (h : w.step cb a = some w')
    (ha : ∀ i, a ≠ .shutdownDone i) {k : ℕ} {dps : Option PyDict}
    (hk : w'.calls[k]? = some (.done .close (.returned dps))) :
    w.calls[k]? = some (.done .close (.returned dps)) ∨
      w.dev.closed = true ∧ w.calls.length ≤ k := by
  have hnew : ∀ (w₀ : World γ) (pc : Call), w₀.calls = w.calls →
      pc ≠ .done .close (.returned dps) →
      (w₀.newCall pc).calls[k]? = some (.done .close (.returned dps)) →
      w.calls[k]? = some (.done .close (.returned dps)) := by
    intro w₀ pc hw₀ hpc hk
    obtain ⟨pc', hcalls, _, hpc'⟩ := newCall_spec w₀ pc
    rw [hcalls, hw₀] at hk
    by_cases hlt : k < w.calls.length
    · rwa [List.getElem?_append_left hlt] at hk
    · rw [List.getElem?_append_right (by omega)] at hk
      have hlast := List.mem_singleton.mp (List.mem_of_getElem? hk)
      rcases hpc' with rfl | ⟨rfl, _⟩
      · exact absurd hlast.symm hpc
      · exact absurd hlast (by simp [Call.died])
  have hset : ∀ (n : ℕ) (pc : Call), pc ≠ .done .close (.returned dps) →
      (w.calls.set n pc)[k]? = some (.done .close (.returned dps)) →
      w.calls[k]? = some (.done .close (.returned dps)) := by
    intro n pc hpc hk
    by_cases hnk : n = k
    · subst hnk
      have hlt := (List.getElem?_eq_some_iff.mp hk).1
      rw [List.length_set] at hlt
      rw [List.getElem?_set_self hlt] at hk
      exact absurd (Option.some.inj hk) hpc
    · rwa [List.getElem?_set_ne hnk] at hk
  have hgoes : ∀ (w₀ : World γ) (n : ℕ) (t : Turn γ Call), w₀.calls = w.calls →
      t.pc ≠ .done .close (.returned dps) →
      (w₀.callGoes n t).calls[k]? = some (.done .close (.returned dps)) →
      w.calls[k]? = some (.done .close (.returned dps)) := by
    intro w₀ n t hw₀ ht hk
    obtain ⟨pc', hcalls, _, hpc'⟩ := callGoes_spec w₀ n t
    rw [hcalls, hw₀] at hk
    refine hset n pc' ?_ hk
    rcases hpc' with rfl | ⟨rfl, _⟩
    · exact ht
    · simp [Call.died]
  rcases step_moves h with hmove | hmove
  · exact Or.inl (hmove.keeps.calls ▸ hk)
  cases hmove with
  | startedBefore => exact Or.inl hk
  | started => exact Or.inl hk
  | begun => exact Or.inl (by simpa using hk)
  | woken => exact Or.inl (by simpa using hk)
  | @requested r _ hmove =>
      cases hmove with
      | @called _ pc hop _ _ hclosed =>
          by_cases hpc : pc = .done .close (.returned dps)
          · obtain rfl : r = .close := by
              rw [hpc] at hop
              cases r <;> simp_all [Call.op, Request.op]
            by_cases hlt : k < w.calls.length
            · obtain ⟨pc', hcalls, _⟩ := newCall_spec w pc
              rw [hcalls, List.getElem?_append_left hlt] at hk
              exact Or.inl hk
            · exact Or.inr ⟨(hclosed rfl).1, Nat.le_of_not_lt hlt⟩
          · exact Or.inl (hnew w pc rfl hpc hk)
      | reconfigured =>
          refine Or.inl (hnew _ .reconfiguring ?_ (by simp) hk)
          rfl
      | closeRaised => exact Or.inl (hnew w.marked _ rfl (by simp) hk)
      | closeDrops => exact Or.inl (hnew w.marked .closeDropping rfl (by simp) hk)
      | closeCancels =>
          refine Or.inl (hnew _ .closing ?_ (by simp) hk)
          rfl
  | loopResumed => exact Or.inl (by simpa using hk)
  | @callResumed _ _ _ _ pc t hr hx hpc ht =>
      refine Or.inl (hgoes _ _ t ?_ (fun hdone => ?_) hk)
      · rfl
      have hop : pc.op = .close := by rw [← (callResume_same ht).2, hdone]; rfl
      obtain ⟨_, _, _, hturn⟩ := callResume_close hop ht
      rcases hturn with ⟨hpc', _⟩ | ⟨r, hpc', _⟩
      · exact absurd (hdone.symm.trans hpc') (by simp)
      · exact absurd (hdone.symm.trans hpc') (by simp)
  | forgotten => exact Or.inl hk
  | taskEnded => exact Or.inl (hgoes w _ ⟨w.dev, w.client, .closeDropping⟩ rfl (by simp) hk)
  | cancelSuppressed => exact Or.inl hk
  | shutdownCancelled => exact Or.inl (hset _ _ (by simp) hk)
  | cancelled => exact Or.inl (hset _ _ (by simp) hk)
  | shutdownBegun => exact Or.inl hk
  | shutdownFinished => exact Or.inl hk
  | keyReleased => exact absurd rfl (ha _)

/-- A device is closed once: only the first close does not return at once. -/
structure ClosedOnce (w : World γ) : Prop where
  closed : w.dev.closed = true ↔ ∃ c ∈ w.calls, c.op = .close
  first : ∀ j c, w.calls[j]? = some c → c.op = .close → c.isDone = false → w.FirstClose j c

/-- A device just created is not closed, and nobody has asked for it. -/
theorem ClosedOnce.init (config : DeviceConfig) (timings : Timings) (hint : Option PyStr)
    (client : γ) : (World.init config timings hint client).ClosedOnce where
  closed := by simp [World.init]
  first := by simp [World.init]

/-- An open device has no call of `async_close`. -/
theorem ClosedOnce.not_closed {w : World γ} (hw : w.ClosedOnce) (hopen : w.dev.closed = false) :
    ∀ c ∈ w.calls, c.op ≠ .close := fun c hc hop =>
  absurd (hopen.symm.trans (hw.closed.mpr ⟨c, hc, hop⟩)) (by simp)

/-- Every step keeps it: the flag is set where the first close begins, and every later close
returns at once. -/
theorem ClosedOnce.step {w w' : World γ} {a : Action} (hw : w.ClosedOnce)
    (h : w.step cb a = some w') : w'.ClosedOnce := by
  constructor
  case closed =>
    by_cases hclose : a = .request .close
    · subst hclose
      obtain rfl := Option.some.inj h
      have hmove := request_moves w .close
      obtain ⟨pc, hcalls, hop⟩ := hmove.calls
      exact iff_of_true hmove.closed ⟨pc, by simp [hcalls], hop⟩
    · rw [closed_step h hclose]
      constructor
      · intro hclosed
        obtain ⟨c, hc, hop⟩ := hw.closed.mp hclosed
        obtain ⟨j, hj⟩ := List.getElem?_of_mem hc
        obtain ⟨c', hc', hop'⟩ := call_after h hj
        exact ⟨c', List.mem_of_getElem? hc', hop'.trans hop⟩
      · intro hparts
        obtain ⟨c, hc, hop⟩ := hparts
        by_contra hopen
        have hnone := hw.not_closed (Bool.eq_false_of_not_eq_true hopen)
        exact no_close_step h hclose hnone c hc hop
  case first =>
    intro j c hj hop hnot
    by_cases hlt : j < w.calls.length
    · obtain ⟨c₀, hc₀, hop₀, hsame⟩ := call_before h hj hlt
      have hnot₀ : c₀.isDone = false := by
        by_contra hdone
        rw [hsame (Bool.eq_true_of_not_eq_false hdone)] at hnot
        exact hdone hnot
      exact (hw.first j c₀ hc₀ (hop₀.trans hop) hnot₀).step h hj hop
    · -- a new close
      have hlen : j < w'.calls.length := (List.getElem?_eq_some_iff.mp hj).1
      rcases calls_step h with hsame | ⟨r, pc, rfl, happend, hopr⟩ | ⟨_, _, _, _, _, _, _, hset⟩
      · rw [hsame] at hlen
        exact absurd hlen hlt
      · rw [happend, List.getElem?_append_right (by omega)] at hj
        obtain rfl := List.mem_singleton.mp (List.mem_of_getElem? hj)
        obtain rfl : r = .close := by cases r <;> simp_all [Request.op]
        obtain rfl := Option.some.inj h
        have hopen : w.dev.closed = false := by
          by_contra hclosed
          have hcalls := happend.symm.trans (close_again (Bool.eq_true_of_not_eq_false hclosed))
          obtain rfl : c = .done .close (.returned none) := by simpa using hcalls
          exact absurd hnot (by simp [Call.isDone])
        have hlast : j = w.calls.length := by
          rw [happend, List.length_append, List.length_singleton] at hlen
          omega
        subst hlast
        refine ⟨by simp [happend], hop, fun i hi d hd => ?_⟩
        rw [happend, List.getElem?_append_left hi] at hd
        exact hw.not_closed hopen d (List.mem_of_getElem? hd)
      · rw [hset, List.length_set] at hlen
        exact absurd hlen hlt

/-- An open device has not completed its close. -/
theorem ClosedOnce.not_completed {w : World γ} (hw : w.ClosedOnce)
    (hopen : w.dev.closed = false) : w.closeCompleted = false := by
  by_contra hcompleted
  obtain ⟨k, dps, hk⟩ := w.closeCompleted_iff.mp (Bool.eq_true_of_not_eq_false hcompleted)
  exact hw.not_closed hopen _ (List.mem_of_getElem? hk.1) rfl

/-- No step completes the close but the one that releases the key.  A close that was begun may end
with an exception, and is then not completed. -/
theorem ClosedOnce.completed_step {w w' : World γ} {a : Action} (hw : w.ClosedOnce)
    (ha : ∀ i, a ≠ .shutdownDone i) (h : w.step cb a = some w') :
    w'.closeCompleted = w.closeCompleted := by
  apply Bool.eq_iff_iff.mpr
  rw [closeCompleted_iff, closeCompleted_iff]
  constructor
  · intro hparts
    obtain ⟨k, dps, hk, hop, hbefore⟩ := hparts
    have hnone : ∀ j < k, ∀ c, w.calls[j]? = some c → c.op ≠ .close := by
      intro j hj c hc hop
      obtain ⟨c', hc', hop'⟩ := call_after h hc
      exact hbefore j hj c' hc' (hop'.trans hop)
    rcases returned_step h ha hk with hk | ⟨hclosed, hlen⟩
    · exact ⟨k, dps, hk, hop, hnone⟩
    · obtain ⟨c, hc, hop⟩ := hw.closed.mp hclosed
      obtain ⟨j, hj⟩ := List.getElem?_of_mem hc
      have hlt := (List.getElem?_eq_some_iff.mp hj).1
      exact absurd hop (hnone j (by omega) c hj)
  · intro hparts
    obtain ⟨k, dps, hk⟩ := hparts
    exact ⟨k, dps, hk.step h (call_stays h hk.1 (Or.inr rfl)) rfl⟩

/-- The release of the key completes the close, which had not completed.  So a device gives its key
back once. -/
theorem ClosedOnce.released {w w' : World γ} {i : ℕ} (hw : w.ClosedOnce)
    (h : w.step cb (.shutdownDone i) = some w') :
    w.closeCompleted = false ∧ w'.closeCompleted = true ∧ w'.dev = w.dev := by
  rcases step_moves h with hmove | hmove
  · cases hmove
  · cases hmove with
    | woken ha => rcases ha with ha | ha <;> cases ha
    | keyReleased hcall =>
        have hfirst := hw.first i _ hcall rfl rfl
        have hlt : i < w.calls.length := (List.getElem?_eq_some_iff.mp hcall).1
        refine ⟨?_, ?_, rfl⟩
        · by_contra hcompleted
          obtain ⟨k, dps, hk⟩ :=
            w.closeCompleted_iff.mp (Bool.eq_true_of_not_eq_false hcompleted)
          rcases Nat.lt_trichotomy i k with hik | rfl | hik
          · exact hk.2.2 i hik _ hcall rfl
          · exact absurd (hcall.symm.trans hk.1) (by simp)
          · exact hfirst.2.2 k hik _ hk.1 rfl
        · rw [closeCompleted_iff]
          exact ⟨i, none, hfirst.step h (by simp [hlt]) rfl⟩

/-! ## Changing the key -/

/-- Closing a device keeps its settings. -/
theorem RequestMove.closeConfig {w w' : World γ} (h : RequestMove w .close w') :
    w'.dev.config = w.dev.config := by
  cases h with
  | called => simp
  | closeRaised => simp [marked]
  | closeDrops => simp [marked]
  | closeCancels =>
      rw [newCall_dev]
      rfl

/-- The settings that `async_reconfigure` takes over, if their check accepts them. -/
def configAfter (w : World γ) (changes : Changes) : DeviceConfig :=
  (w.dev.config.replace changes).toOption.getD w.dev.config

end World

/-- How far an `async_reconfigure` that changes the settings is. -/
inductive KeyChange
  | none
  | registered (changes : Changes)
  | replaced (oldKey : PyStr)

/-- A device, and its `async_reconfigure` between two of its steps. -/
structure Member (γ : Type) where
  world : World γ
  change : KeyChange := .none

namespace Member

/-- The keys in use: the device's until its close completes, and while it is replaced, the
other one. -/
def keys (m : Member γ) : List PyStr :=
  (if m.world.closeCompleted then [] else [m.world.dev.config.localKey]) ++
    match m.change with
    | .none => []
    | .registered changes => [(m.world.configAfter changes).localKey]
    | .replaced oldKey => [oldKey]

/-- Steps of a device on its own: between two steps of `async_reconfigure` its event loop
does nothing else. -/
def allows (m : Member γ) (a : Action) : Bool :=
  match m.change with
  | .none =>
      match a with
      | .request (.reconfigure changes) => m.world.configAfter changes = m.world.dev.config
      | _ => true
  | _ => a.isWorker

end Member

/-! ## All devices -/

/-- The devices constructed so far, and `_secrets`. -/
structure Devices (γ : Type) where
  members : List (Member γ) := []
  secrets : Counter := .empty

/-- `rawFirst` is the order in which `_variants` is iterated. -/
inductive DevicesAction (γ : Type)
  | construct (config : DeviceConfig) (timings : Timings) (hint : Option PyStr) (client : γ)
      (rawFirst : Bool)
  | step (d : Nat) (a : Action) (rawFirst : Bool)
  | register (d : Nat) (changes : Changes) (rawFirst : Bool)
  | replace (d : Nat)
  | unregister (d : Nat) (rawFirst : Bool)

namespace Devices

/-- What a step of a device on its own does to the counter: `async_close` ends with the
release of its key. -/
def releasedBy (m : Member γ) (rawFirst : Bool) (secrets : Counter) : Action → Counter
  | .shutdownDone _ => unregisterSecret rawFirst m.world.dev.config.localKey secrets
  | _ => secrets

/-- One step, of which `async_reconfigure` takes three. -/
def step (cb : Nat → Callbacks γ) (s : Devices γ) : DevicesAction γ → Option (Devices γ)
  | .construct config timings hint client rawFirst =>
      some { members := s.members ++ [{ world := .init config timings hint client }]
             secrets := registerSecret rawFirst config.localKey s.secrets }
  | .step d a rawFirst => do
      let m ← s.members[d]?
      if m.allows a then do
        let world ← m.world.step (cb d) a
        pure { members := s.members.set d { m with world }
               secrets := releasedBy m rawFirst s.secrets a }
      else none
  | .register d changes rawFirst => do
      let m ← s.members[d]?
      match m.change with
      | .none =>
          let config := m.world.configAfter changes
          if config = m.world.dev.config then none
          else
            pure { members := s.members.set d { m with change := .registered changes }
                   secrets := registerSecret rawFirst config.localKey s.secrets }
      | _ => none
  | .replace d => do
      let m ← s.members[d]?
      match m.change with
      | .registered changes =>
          pure { s with
            members := s.members.set d
              { world := m.world.request (.reconfigure changes)
                change := .replaced m.world.dev.config.localKey } }
      | _ => none
  | .unregister d rawFirst => do
      let m ← s.members[d]?
      match m.change with
      | .replaced oldKey =>
          pure { members := s.members.set d { m with change := .none }
                 secrets := unregisterSecret rawFirst oldKey s.secrets }
      | _ => none

/-- `async_reconfigure` is called on devices that are not closed. -/
def ReconfiguresOpen (s : Devices γ) : DevicesAction γ → Prop
  | .register d _ _ => ∀ m ∈ s.members[d]?, m.world.dev.closed = false
  | _ => True

instance (s : Devices γ) : (a : DevicesAction γ) → Decidable (s.ReconfiguresOpen a)
  | .register d _ _ => inferInstanceAs (Decidable (∀ m ∈ s.members[d]?, m.world.dev.closed = false))
  | .construct _ _ _ _ _ | .step _ _ _ | .replace _ | .unregister _ _ => isTrue trivial

end Devices

/-- A device is closed once, and not while its key is replaced. -/
structure Member.Sound (m : Member γ) : Prop where
  once : m.world.ClosedOnce
  changing : m.change ≠ .none → m.world.dev.closed = false

/-- How often the keys in use have a form. -/
def Member.uses (m : Member γ) (form : PyStr) : Nat :=
  (m.keys.map fun key => formCount key form).sum

namespace Devices

/-- **The counter counts the uses.** -/
structure Counted (s : Devices γ) : Prop where
  sound : ∀ m ∈ s.members, m.Sound
  count : ∀ form, s.secrets.count form = (s.members.map fun m => m.uses form).sum

/-- Without devices no key is registered. -/
theorem Counted.empty : ({} : Devices γ).Counted :=
  ⟨by simp, fun _ => rfl⟩

/-- A sum after one entry has changed. -/
theorem sum_map_set {α : Type*} (f : α → ℕ) {l : List α} {i : ℕ} {a b : α}
    (h : l[i]? = some a) : ((l.set i b).map f).sum + f a = (l.map f).sum + f b := by
  induction l generalizing i with
  | nil => exact absurd h (by simp)
  | cons c l ih =>
      cases i with
      | zero =>
          obtain rfl : c = a := by simpa using h
          simp only [List.set_cons_zero, List.map_cons, List.sum_cons]
          omega
      | succ i =>
          have hrest := ih (i := i) (by simpa using h)
          simp only [List.set_cons_succ, List.map_cons, List.sum_cons]
          omega

/-- A step of one device keeps the count if what it adds to the counter is what the device
uses more. -/
theorem Counted.update {s : Devices γ} (hs : s.Counted) {d : ℕ} {m m' : Member γ}
    {secrets : Counter} (hm : s.members[d]? = some m) (hsound : m'.Sound)
    (hcount : ∀ form, secrets.count form + m.uses form = s.secrets.count form + m'.uses form) :
    ({ members := s.members.set d m', secrets } : Devices γ).Counted := by
  refine ⟨fun n hn => ?_, fun form => ?_⟩
  · rcases List.mem_or_eq_of_mem_set hn with hn | rfl
    · exact hs.sound n hn
    · exact hsound
  · have hsum := sum_map_set (fun n : Member γ => n.uses form) (b := m') hm
    have hbefore := hs.count form
    have hadded := hcount form
    dsimp only at hsum ⊢
    omega

/-- What a device uses is counted. -/
theorem Counted.uses_le {s : Devices γ} (hs : s.Counted) {m : Member γ} (hm : m ∈ s.members)
    (form : PyStr) : m.uses form ≤ s.secrets.count form := by
  rw [hs.count form]
  exact List.le_sum_of_mem (List.mem_map_of_mem hm)

end Devices

namespace Member

/-- A device whose close has not completed uses its key. -/
theorem uses_open {w : World γ} (hopen : w.closeCompleted = false) (change : KeyChange)
    (form : PyStr) :
    (Member.mk w change).uses form = formCount w.dev.config.localKey form +
      match change with
      | .none => 0
      | .registered changes => formCount (w.configAfter changes).localKey form
      | .replaced oldKey => formCount oldKey form := by
  cases change <;> simp [uses, keys, hopen]

/-- A device whose close has completed uses no key. -/
theorem uses_completed {w : World γ} (hclosed : w.closeCompleted = true) (form : PyStr) :
    (Member.mk w .none).uses form = 0 := by
  simp [uses, keys, hclosed]

end Member

namespace Member

/-- A device just created changes no key, and is open. -/
theorem Sound.init (config : DeviceConfig) (timings : Timings) (hint : Option PyStr)
    (client : γ) : (Member.mk (World.init config timings hint client) .none).Sound :=
  ⟨World.ClosedOnce.init config timings hint client, fun h => absurd rfl h⟩

/-- An open device may change its key. -/
theorem Sound.change {m : Member γ} (hm : m.Sound) (hopen : m.world.dev.closed = false)
    (change : KeyChange) : ({ m with change } : Member γ).Sound :=
  ⟨hm.once, fun _ => hopen⟩

/-- A device on its own that does not release its key goes on using the same keys.  It is given
another one only by `async_reconfigure`, which is counted apart. -/
theorem step_uses {cb : Callbacks γ} {m : Member γ} {w : World γ} {a : Action} (hm : m.Sound)
    (hallows : m.allows a = true) (h : m.world.step cb a = some w)
    (ha : ∀ i, a ≠ .shutdownDone i) (form : PyStr) :
    ({ m with world := w } : Member γ).Sound ∧
      ({ m with world := w } : Member γ).uses form = m.uses form := by
  have honce := hm.once.step h
  have hcompleted := hm.once.completed_step ha h
  have hconfig : w.dev.config = m.world.dev.config := by
    by_cases hreconfigure : ∃ changes, a = .request (.reconfigure changes)
    · obtain ⟨changes, rfl⟩ := hreconfigure
      obtain rfl := Option.some.inj h
      refine (World.reconfigure_settings m.world changes).2.trans ?_
      obtain ⟨world, change⟩ := m
      cases change with
      | none => exact of_decide_eq_true hallows
      | _ => exact absurd hallows (by simp [allows, Action.isWorker])
    · by_cases hclose : a = .request .close
      · subst hclose
        obtain rfl := Option.some.inj h
        exact (World.request_moves m.world .close).closeConfig
      · exact (World.settings_step h (fun changes ha => hreconfigure ⟨changes, ha⟩) hclose).1
  have hkeys : ({ m with world := w } : Member γ).keys = m.keys := by
    obtain ⟨world, change⟩ := m
    simp only [keys, hcompleted, World.configAfter, hconfig]
  refine ⟨⟨honce, fun hchange => ?_⟩, by rw [uses, uses, hkeys]⟩
  have hworker : a.isWorker = true := by
    obtain ⟨world, change⟩ := m
    cases change with
    | none => exact absurd rfl hchange
    | _ => exact hallows
  have hclose : a ≠ .request .close := by
    intro heq
    obtain rfl := heq
    exact absurd hworker (by simp [Action.isWorker])
  exact (World.closed_step h hclose).trans (hm.changing hchange)

end Member

namespace Devices

variable {cb : ℕ → Callbacks γ}

/-- **Every step keeps the count.**  A device is created, moves on its own, changes its key or
releases it, and each time the count of the forms follows. -/
theorem Counted.step {s s' : Devices γ} {e : DevicesAction γ} (hs : s.Counted)
    (hopen : s.ReconfiguresOpen e) (h : s.step cb e = some s') : s'.Counted := by
  cases e with
  | construct config timings hint client rawFirst =>
      obtain rfl := Option.some.inj h
      refine ⟨fun m hm => ?_, fun form => ?_⟩
      · rcases List.mem_append.mp hm with hm | hm
        · exact hs.sound m hm
        · obtain rfl := List.mem_singleton.mp hm
          exact Member.Sound.init config timings hint client
      · have hnew := Member.uses_open (w := .init config timings hint client) rfl .none form
        simp only [count_registerSecret, hs.count form, List.map_append, List.sum_append,
          List.map_singleton, List.sum_singleton, hnew]
        rfl
  | step d a rawFirst =>
      obtain ⟨m, hm, h⟩ := Option.bind_eq_some_iff.mp h
      have hmem := List.mem_of_getElem? hm
      have hsound := hs.sound m hmem
      split at h
      · rename_i hallows
        obtain ⟨w, hstep, h⟩ := Option.bind_eq_some_iff.mp h
        obtain rfl := Option.some.inj h
        by_cases ha : ∃ i, a = .shutdownDone i
        · obtain ⟨i, rfl⟩ := ha
          obtain ⟨hbefore, hafter, hdev⟩ := hsound.once.released hstep
          obtain ⟨world, change⟩ := m
          cases change with
          | none =>
              apply hs.update hm ⟨hsound.once.step hstep, fun h => absurd rfl h⟩
              intro form
              have hle := hs.uses_le hmem form
              have huses := Member.uses_open hbefore .none form
              have hdone := Member.uses_completed hafter form
              simp only [releasedBy, count_unregisterSecret] at hle huses ⊢
              omega
          | _ => exact absurd hallows (by simp [Member.allows, Action.isWorker])
        · have hkeep := Member.step_uses hsound hallows hstep fun i hi => ha ⟨i, hi⟩
          apply hs.update hm (hkeep []).1
          intro form
          have hsecrets : releasedBy m rawFirst s.secrets a = s.secrets := by
            cases a with
            | shutdownDone i => exact absurd ⟨i, rfl⟩ ha
            | _ => rfl
          rw [hsecrets, (hkeep form).2]
      · exact absurd h (by simp)
  | register d changes rawFirst =>
      obtain ⟨m, hm, h⟩ := Option.bind_eq_some_iff.mp h
      have hsound := hs.sound m (List.mem_of_getElem? hm)
      have hdev : m.world.dev.closed = false := hopen m hm
      have hnot := hsound.once.not_completed hdev
      obtain ⟨world, change⟩ := m
      cases change with
      | none =>
          dsimp only at h
          split at h
          · exact absurd h (by simp)
          · obtain rfl := Option.some.inj h
            apply hs.update hm (hsound.change hdev _)
            intro form
            rw [Member.uses_open hnot .none, Member.uses_open hnot (.registered changes),
              count_registerSecret]
            dsimp only
            omega
      | _ => exact absurd h (by simp)
  | replace d =>
      obtain ⟨m, hm, h⟩ := Option.bind_eq_some_iff.mp h
      have hsound := hs.sound m (List.mem_of_getElem? hm)
      obtain ⟨world, change⟩ := m
      cases change with
      | registered changes =>
          obtain rfl := Option.some.inj h
          have hdev := hsound.changing (by simp)
          have hnot := hsound.once.not_completed hdev
          have hstep : world.step (cb d) (.request (.reconfigure changes)) =
              some (world.request (.reconfigure changes)) := rfl
          have honce := hsound.once.step hstep
          obtain ⟨hclosed, hconfig⟩ := World.reconfigure_settings world changes
          have hdev' := hclosed.trans hdev
          have hnot' := honce.not_completed hdev'
          apply hs.update hm ⟨honce, fun _ => hdev'⟩
          intro form
          rw [Member.uses_open hnot (.registered changes), Member.uses_open hnot' (.replaced _)]
          have hkey : (world.request (.reconfigure changes)).dev.config =
              world.configAfter changes := hconfig
          rw [hkey]
          dsimp only
          omega
      | _ => exact absurd h (by simp)
  | unregister d rawFirst =>
      obtain ⟨m, hm, h⟩ := Option.bind_eq_some_iff.mp h
      have hmem := List.mem_of_getElem? hm
      have hsound := hs.sound m hmem
      obtain ⟨world, change⟩ := m
      cases change with
      | replaced oldKey =>
          obtain rfl := Option.some.inj h
          have hdev := hsound.changing (by simp)
          have hnot := hsound.once.not_completed hdev
          apply hs.update hm (hsound.change hdev _)
          intro form
          have hle := hs.uses_le hmem form
          rw [Member.uses_open hnot (.replaced oldKey)] at hle ⊢
          rw [Member.uses_open hnot .none, count_unregisterSecret]
          dsimp only at hle ⊢
          omega
      | _ => exact absurd h (by simp)

/-- What is counted is used by one of the devices.  Texts are those with a positive count, and the
count is a sum over the devices. -/
theorem Counted.mem_texts {s : Devices γ} (hs : s.Counted) (rawFirst : Bool) (form : PyStr) :
    form ∈ s.secrets.texts ↔
      ∃ m ∈ s.members, ∃ key ∈ m.keys, key ≠ [] ∧ form ∈ variants rawFirst key := by
  have hform : ∀ key, 0 < formCount key form ↔ key ≠ [] ∧ form ∈ variants rawFirst key := by
    intro key
    unfold formCount
    rw [mem_variants]
    split
    · rename_i hkey
      exact iff_of_true Nat.one_pos hkey
    · rename_i hkey
      exact iff_of_false (Nat.lt_irrefl 0) hkey
  have hsum : ∀ (l : List ℕ), 0 < l.sum ↔ ∃ n ∈ l, 0 < n := by
    intro l
    rw [Nat.pos_iff_ne_zero, ne_eq, List.sum_eq_zero_iff]
    simp [Nat.pos_iff_ne_zero]
  rw [s.secrets.mem_texts, hs.count form, hsum]
  simp only [List.mem_map, exists_exists_and_eq_and, Member.uses, hsum, hform]

/-- **A key is redacted exactly while a device uses it.**  However constructions, changes of
keys and closes of devices interleave, each form of the key of a device whose close has not
completed is replaced in the log; and what is replaced is a form of a key in use. -/
theorem redacted_while_used {es : List (DevicesAction γ)} {s : Devices γ}
    (hrun : Run (step cb) ReconfiguresOpen {} es s) (rawFirst : Bool) :
    (∀ m ∈ s.members, m.world.closeCompleted = false → m.world.dev.config.localKey ≠ [] →
      ∀ form ∈ variants rawFirst m.world.dev.config.localKey, form ∈ s.secrets.texts) ∧
    ∀ form, form ∈ s.secrets.texts ↔
      ∃ m ∈ s.members, ∃ key ∈ m.keys, key ≠ [] ∧ form ∈ variants rawFirst key := by
  have hs : s.Counted :=
    hrun.invariant Counted (fun _ _ _ hs hok h => hs.step hok h) Counted.empty
  refine ⟨fun m hm hopen hkey form hform => ?_, hs.mem_texts rawFirst⟩
  refine (hs.mem_texts rawFirst form).mpr ⟨m, hm, _, ?_, hkey, hform⟩
  simp [Member.keys, hopen]

/-- Two devices with one key: the first is given another key, the second is closed. -/
def sharedKeyActions : List (DevicesAction Unit) :=
  let changes : Changes := { localKey := some (py "a\"b'c") }
  [.construct exampleConfig {} none () true, .construct exampleConfig {} none () false,
    .register 0 changes true, .replace 0, .unregister 0 false] ++
    ([.request .close, .work (statusReply true) 0, .resume 0 0, .beginShutdown,
      .finishShutdown, .shutdownDone 0] : List Action).map fun a => .step 1 a true

/-- Two devices share a key that is spelled in two ways.  The one closes, and both spellings stay
registered for the other. -/
theorem redacted_while_used_shared :
    ∃ s : Devices Unit,
      s.secrets.texts = [py "a\"b'c", py "a\"b\\'c"] ∧
      (∀ m ∈ s.members, m.world.closeCompleted = false → m.world.dev.config.localKey ≠ [] →
        ∀ form ∈ variants true m.world.dev.config.localKey, form ∈ s.secrets.texts) ∧
      ∀ form, form ∈ s.secrets.texts ↔
        ∃ m ∈ s.members, ∃ key ∈ m.keys, key ≠ [] ∧ form ∈ variants true key := by
  let execution := exec (step fun _ => Callbacks.none Unit) ({} : Devices Unit) sharedKeyActions
  obtain ⟨s, hs⟩ := Option.isSome_iff_exists.mp (show execution.isSome = true by decide +kernel)
  have hrun : Run (step fun _ => Callbacks.none Unit) ReconfiguresOpen {} sharedKeyActions s :=
    Run.of_meets hs (by decide +kernel)
  have hfacts : ∀ t ∈ execution, t.secrets.texts = [py "a\"b'c", py "a\"b\\'c"] := by
    decide +kernel
  exact ⟨s, hfacts s hs, redacted_while_used hrun true⟩

end Devices

end Lan
