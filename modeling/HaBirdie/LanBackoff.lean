import HaBirdie.CappedDoubling
import HaBirdie.LanClose

/-!
# Reconnects back off

After a failed open `_run` sleeps, and it doubles its `backoff` behind the sleep; after a
successful one it starts over.  `Retrying` is a device with the opens of `_run` since its last
successful one (`Attempt`), and the times at which it reads the clock.

`_run` may find a connection that somebody else has opened, and come back to opening one only after
that was lost; the sleep that it owes to the failed open before lies behind it all the same
(`Waited`).  So the invariant says of each place of `_run` what its local variable `backoff` is, and
what has been waited for (`Stands`).
-/

namespace Lan

open Python CappedDoubling StepRuns

variable {γ : Type} {cb : Callbacks γ}

/-! ## Places of the background task -/

/-- `_run` goes on with its `backoff`, but not into the sleep after a failed open; or it ends. -/
inductive Loop.On (backoff : ℚ) : Loop → Prop
  | opening : On backoff (.opening backoff)
  | reading : On backoff (.reading backoff)
  | beating : On backoff (.beating backoff)
  | receiving : On backoff (.receiving backoff)
  | dropping (why : LostReason) : On backoff (.dropping backoff why)
  | pausing : On backoff (.pausing backoff)
  | ended (ending : Ending) : On backoff (.ended ending)

/-- A pass of `_run` keeps the back-off that it goes by.  Whatever it is about to do, it does with
the same `backoff`. -/
theorem loopTop_on (now backoff : ℚ) (d : Device) (c : γ) :
    (loopTop now backoff d c).pc.On backoff := by
  unfold loopTop
  split
  · exact .ended _
  split
  · exact .opening
  unfold loopStep
  split
  · exact .dropping _
  split
  · exact .reading
  split
  · exact .beating
  · exact .receiving

/-- After its callbacks the loop goes by the same back-off, or has died. -/
theorem Handled.on {backoff : ℚ} (h : Handled γ) {k : Device → γ → Turn γ Loop}
    (hk : ∀ d c, (k d c).pc.On backoff) : (h.turn .died k).pc.On backoff := by
  unfold Handled.turn
  split
  · exact .ended _
  · exact hk _ _

/-- A step of `_run` that fails keeps the back-off. -/
theorem loopFailed_on (backoff : ℚ) (r : Raised) (d : Device) (c : γ) :
    (loopFailed backoff r d c).pc.On backoff := by
  unfold loopFailed
  split
  · exact .dropping _
  · exact .ended _

/-- The `backoff` of a place on a connection. -/
def Loop.connectedWith : Loop → Option ℚ
  | .reading b | .beating b | .receiving b | .dropping b _ => some b
  | _ => none

/-- On a connection `_run` goes on with the `backoff` it has.  A connection that is lost is
followed by a pause of a second, and by the next attempt. -/
theorem loopResume_on {now backoff : ℚ} {d : Device} {c : γ} {pc : Loop} {value : JobValue}
    {t : Turn γ Loop} (hpc : pc.connectedWith = some backoff)
    (h : loopResume cb now d c pc value = some t) : t.pc.On backoff := by
  cases pc with
  | reading b =>
      obtain rfl := Option.some.inj hpc
      cases value with
      | dps dps =>
          obtain rfl := Option.some.inj h
          exact Handled.on _ fun d c => loopTop_on now _ d c
      | raised r =>
          obtain rfl := Option.some.inj h
          exact loopFailed_on _ r d c
      | _ => exact absurd h (by simp [loopResume])
  | beating b =>
      obtain rfl := Option.some.inj hpc
      cases value with
      | done =>
          obtain rfl := Option.some.inj h
          exact .receiving
      | raised r =>
          obtain rfl := Option.some.inj h
          exact loopFailed_on _ r d c
      | _ => exact absurd h (by simp [loopResume])
  | receiving b =>
      obtain rfl := Option.some.inj hpc
      cases value with
      | received report =>
          cases report with
          | none =>
              obtain rfl := Option.some.inj h
              exact loopTop_on now _ d c
          | some dps =>
              simp only [loopResume] at h
              split at h
              · obtain rfl := Option.some.inj h
                exact loopTop_on now _ d c
              · obtain rfl := Option.some.inj h
                exact Handled.on _ fun d c => loopTop_on now _ d c
      | raised r =>
          obtain rfl := Option.some.inj h
          exact loopFailed_on _ r d c
      | _ => exact absurd h (by simp [loopResume])
  | dropping b why =>
      obtain rfl := Option.some.inj hpc
      cases value with
      | done =>
          obtain rfl := Option.some.inj h
          exact Handled.on _ fun d c => .pausing
      | raised r =>
          obtain rfl := Option.some.inj h
          exact .ended _
      | _ => exact absurd h (by simp [loopResume])
  | _ => exact absurd hpc (by simp [Loop.connectedWith])

/-- A successful open. -/
def JobValue.isOpened : JobValue → Bool
  | .opened _ _ => true
  | _ => false

/-- On a connection `_run` waits for no open. -/
theorem loopResume_connected {now backoff : ℚ} {d : Device} {c : γ} {pc : Loop} {value : JobValue}
    {t : Turn γ Loop} (hpc : pc.connectedWith = some backoff)
    (h : loopResume cb now d c pc value = some t) : value.isOpened = false := by
  cases value with
  | opened version dps =>
      cases pc with
      | opening => exact absurd hpc (by simp [Loop.connectedWith])
      | _ => exact absurd h (by simp [loopResume])
  | _ => rfl

/-- After an open `_run` starts over with its `backoff`, sleeps for it, or ends.  A success sets it
back to `reconnect_min`. -/
theorem loopResume_opening {now backoff : ℚ} {d : Device} {c : γ} {value : JobValue}
    {t : Turn γ Loop} (h : loopResume cb now d c (.opening backoff) value = some t) :
    value.isOpened = true ∧ t.pc.On d.timings.reconnectMin ∨
      value.isOpened = false ∧ (t.pc = .backingOff backoff ∨ ∃ ending, t.pc = .ended ending) := by
  cases value with
  | opened version dps =>
      obtain rfl := Option.some.inj h
      exact Or.inl ⟨rfl, Handled.on _ fun d' c' => loopTop_on now _ d' c'⟩
  | raised r =>
      refine Or.inr ⟨rfl, ?_⟩
      cases r with
      | lan e =>
          obtain rfl := Option.some.inj h
          unfold Handled.turn
          split
          · exact Or.inr ⟨_, rfl⟩
          · exact Or.inl rfl
      | foreign e =>
          obtain rfl := Option.some.inj h
          exact Or.inr ⟨_, rfl⟩
  | _ => exact absurd h (by simp [loopResume])

namespace World

/-! ## What moves the background task -/

/-- The step is a turn of `_run`. -/
def movesLoop (w : World γ) : Action → Bool
  | .begin _ | .wakeUp _ | .timeout _ => true
  | .resume i _ => (w.results[i]?).any fun r => decide (r.waiter = .loop)
  | _ => false

/-- A turn of `_run`, with the time it reads. -/
inductive LoopTurn (cb : Callbacks γ) (w : World γ) : Action → ℚ → Loop → Prop
  | begun {now : ℚ} (hloop : w.loop = .ready) :
      LoopTurn cb w (.begin now) now (loopTop now w.dev.timings.reconnectMin w.dev w.client).pc
  | woken {a : Action} {now : ℚ} {t : Turn γ Loop} (ha : a = .wakeUp now ∨ a = .timeout now)
      (ht : loopWake now w.dev w.client w.loop = some t) : LoopTurn cb w a now t.pc
  | resumed {i : Nat} {now : ℚ} {r : Result} {t : Turn γ Loop} (hr : w.results[i]? = some r)
      (hx : r.waiter = .loop) (ht : loopResume cb now w.dev w.client w.loop r.value = some t) :
      LoopTurn cb w (.resume i now) now t.pc

/-- **The turns of `_run`**; it dies where the executor refuses its next job.  All that concerns
the back-off is read off these. -/
theorem loop_turns {w w' : World γ} {a : Action} (h : w.step cb a = some w')
    (hmoves : w.movesLoop a = true) :
    ∃ now pc, LoopTurn cb w a now pc ∧ (w'.loop = pc ∨ ∃ ending, w'.loop = .ended ending) := by
  have hgoes : ∀ (w₀ : World γ) (t : Turn γ Loop),
      (w₀.loopGoes t).loop = t.pc ∨ ∃ ending, (w₀.loopGoes t).loop = .ended ending := by
    intro w₀ t
    rcases loopGoes_loop w₀ t with hloop | ⟨hloop, _⟩
    · exact Or.inl hloop
    · exact Or.inr ⟨_, hloop⟩
  rcases step_moves h with hmove | hmove
  · cases hmove <;> exact absurd hmoves (by simp [movesLoop])
  cases hmove with
  | begun hloop => exact ⟨_, _, .begun hloop, hgoes _ _⟩
  | woken ha ht => exact ⟨_, _, .woken ha ht, hgoes _ _⟩
  | loopResumed hr hx ht => exact ⟨_, _, .resumed hr hx ht, hgoes _ _⟩
  | callResumed hr hx => exact absurd hmoves (by simp [movesLoop, hr, hx])
  | forgotten hr hx => exact absurd hmoves (by simp [movesLoop, hr, hx])
  | _ => exact absurd hmoves (by simp [movesLoop])

/-- Otherwise `_run` stays where it is, is started, or is cancelled.  Only `start` and
`async_close` do the last two. -/
theorem loop_stays {w w' : World γ} {a : Action} (h : w.step cb a = some w')
    (hmoves : w.movesLoop a = false) :
    w'.loop = w.loop ∨ w.loop = .notStarted ∧ w'.loop = .ready ∨
      ∃ ending, w'.loop = .ended ending := by
  rcases step_moves h with hmove | hmove
  · exact Or.inl hmove.keeps.loop
  cases hmove with
  | startedBefore => exact Or.inl rfl
  | started hloop => exact Or.inr (Or.inl ⟨hloop, rfl⟩)
  | begun => exact absurd hmoves (by simp [movesLoop])
  | woken ha => exact absurd hmoves (by rcases ha with rfl | rfl <;> simp [movesLoop])
  | requested hmove =>
      cases hmove with
      | closeCancels => exact Or.inr (Or.inr ⟨.cancelled, by simp [abandon]⟩)
      | _ => exact Or.inl (by simp [marked])
  | loopResumed hr hx => exact absurd hmoves (by simp [movesLoop, hr, hx])
  | callResumed => exact Or.inl (by simp)
  | taskEnded => exact Or.inl (by simp)
  | _ => exact Or.inl rfl

/-- The timings of a device are those it was created with.  `async_reconfigure` replaces the
configuration, not the timings. -/
theorem timings_step {w w' : World γ} {a : Action} (h : w.step cb a = some w') :
    w'.dev.timings = w.dev.timings := by
  rcases step_moves h with hmove | hmove
  · cases hmove with
    | took => simp
    | dropped => simp [post]
    | @callReturned reply now _ c =>
        show (noteTimes c reply now w.dev).timings = w.dev.timings
        cases c with
        | receive => unfold noteTimes; dsimp only; split <;> rfl
        | _ => rfl
    | _ => rfl
  cases hmove with
  | begun => simpa using (loopTop_turned _ _ w.dev w.client).same.timings
  | woken _ ht => simpa using (loopWake_turned ht).same.timings
  | requested hmove =>
      cases hmove with
      | closeCancels => simp [abandon, marked]
      | _ => simp [marked]
  | loopResumed _ _ ht =>
      obtain ⟨job, hjob⟩ := loopResume_awaits ht
      simpa using (loopResume_turned hjob ht).same.timings
  | callResumed _ _ _ ht => simpa using (callResume_same ht).1.timings
  | taskEnded => simp
  | _ => rfl

/-- `_run` takes up a successful open. -/
def succeeds (w : World γ) : Action → Bool
  | .resume i _ => (w.results[i]?).any fun r => decide (r.waiter = .loop) && r.value.isOpened
  | _ => false

/-- Only `_run` itself takes up the result of its open. -/
theorem succeeds_moves {w : World γ} {a : Action} (h : w.movesLoop a = false) :
    w.succeeds a = false := by
  cases a with
  | resume i now =>
      simp only [movesLoop, succeeds] at h ⊢
      cases hr : w.results[i]? with
      | none => rfl
      | some r =>
          rw [hr] at h
          have hx : decide (r.waiter = .loop) = false := h
          simp [hx]
  | _ => rfl

end World

/-! ## Opens since the last successful one -/

/-- The wait after `k + 1` failed opens. -/
def Timings.wait (timings : Timings) (k : ℕ) : ℚ :=
  cappedDoubling timings.reconnectMin timings.reconnectMax k

/-- An open of `_run`, and whether the sleep before it was cut short by `_wake`. -/
structure Attempt where
  startedAt : ℚ
  woken : Bool

/-- The time an action reads on the event loop. -/
def Action.time : Action → Option ℚ
  | .begin now | .wakeUp now | .timeout now | .resume _ now => some now
  | _ => none

def Loop.isOpening : Loop → Bool
  | .opening _ => true
  | _ => false

/-- The time at which a wait of `_run` is over by itself. -/
def Action.timesOut : Action → Option ℚ
  | .timeout now => some now
  | _ => none

/-- The time for which `_run` sleeps after a failed open. -/
def Loop.backsOffFor : Loop → Option ℚ
  | .backingOff backoff => some backoff
  | _ => none

/-- A device with the last time that was read, the time at which `_run` began its last sleep after
a failed open, whether that was cut short, and its opens since its last successful one, the last
one first. -/
structure Retrying (γ : Type) where
  world : World γ
  clock : ℚ
  sleptAt : ℚ
  woken : Bool := false
  attempts : List Attempt := []

namespace Retrying

/-- A new device. -/
def init (config : DeviceConfig) (timings : Timings) (hint : Option PyStr) (client : γ)
    (now : ℚ) : Retrying γ where
  world := .init config timings hint client
  clock := now
  sleptAt := now

/-- Whether the last sleep was cut short, after a step. -/
def wokenBy (s : Retrying γ) (a : Action) : Bool :=
  match a, s.world.loop with
  | .wakeUp _, .backingOff _ => true
  | .timeout _, .backingOff _ => false
  | _, _ => s.woken

/-- The opens that count, after a step and but for one that it begins. -/
def counting (s : Retrying γ) (a : Action) : List Attempt :=
  if s.world.succeeds a then [] else s.attempts

/-- What a step to `w` makes of it. -/
def after (a : Action) (w : World γ) (s : Retrying γ) : Retrying γ :=
  let now := a.time.getD s.clock
  let moves := s.world.movesLoop a
  { world := w
    clock := now
    sleptAt := if moves && w.loop.backsOffFor.isSome then now else s.sleptAt
    woken := s.wokenBy a
    attempts :=
      if moves && w.loop.isOpening then ⟨now, s.wokenBy a⟩ :: s.counting a else s.counting a }

/-- One step. -/
def step (cb : Callbacks γ) (s : Retrying γ) (a : Action) : Option (Retrying γ) :=
  (s.world.step cb a).map fun w => s.after a w

/-- The clock does not go back, and a sleep that is not cut short lasts as long as it was to. -/
def Timely (s : Retrying γ) (a : Action) : Prop :=
  (∀ now ∈ a.time, s.clock ≤ now) ∧
    ∀ now ∈ a.timesOut, ∀ backoff ∈ s.world.loop.backsOffFor, s.sleptAt + backoff ≤ now

instance (s : Retrying γ) (a : Action) : Decidable (s.Timely a) :=
  inferInstanceAs (Decidable (_ ∧ _))

/-- An open keeps its distance from the one before, unless the sleep between them was cut short. -/
def Apart (wait : ℕ → ℚ) (k : ℕ) (a a' : Attempt) : Prop :=
  a'.woken = false → a.startedAt + wait k ≤ a'.startedAt

/-- The sleep after the last of these opens is over. -/
def Waited (wait : ℕ → ℚ) (attempts : List Attempt) (woken : Bool) (now : ℚ) : Prop :=
  ∀ a rest, attempts = a :: rest → woken = false → a.startedAt + wait rest.length ≤ now

/-- What the place of `_run` says of its `backoff` and of the time. -/
def Stands (wait : ℕ → ℚ) (s : Retrying γ) : Prop :=
  match s.world.loop with
  | .notStarted | .ready => s.attempts = []
  | .opening backoff =>
      ∃ a rest, s.attempts = a :: rest ∧ backoff = wait rest.length ∧ a.startedAt ≤ s.clock
  | .backingOff backoff =>
      ∃ a rest, s.attempts = a :: rest ∧ backoff = wait rest.length ∧ a.startedAt ≤ s.sleptAt
  | .reading backoff | .beating backoff | .receiving backoff | .dropping backoff _
  | .pausing backoff =>
      backoff = wait s.attempts.length ∧ Waited wait s.attempts s.woken s.clock
  | .ended _ => True

/-- The invariant. -/
structure BacksOff (timings : Timings) (s : Retrying γ) : Prop where
  unchanged : s.world.dev.timings = timings
  stands : s.Stands timings.wait
  spaced : Spaced (Apart timings.wait) s.attempts

/-- What was waited long enough for stays so as time goes on. -/
theorem Waited.later {wait : ℕ → ℚ} {attempts : List Attempt} {woken : Bool} {now now' : ℚ}
    (h : Waited wait attempts woken now) (hle : now ≤ now') :
    Waited wait attempts woken now' := by
  intro a rest hattempts hwoken
  exact (h a rest hattempts hwoken).trans hle

/-- A turn that goes on with the `backoff` for the opens that count: if it begins an open, that
keeps its distance. -/
theorem BacksOff.on {timings : Timings} {s : Retrying γ} {w : World γ} {a : Action} {now : ℚ}
    (htimings : w.dev.timings = timings) (hmoves : s.world.movesLoop a = true)
    (htime : a.time = some now) {pc : Loop} (hpc : pc.On (timings.wait (s.counting a).length))
    (hloop : w.loop = pc) (hwaited : Waited timings.wait (s.counting a) (s.wokenBy a) now)
    (hspaced : Spaced (Apart timings.wait) (s.counting a)) : (s.after a w).BacksOff timings := by
  cases hpc with
  | opening =>
      have hattempts : (s.after a w).attempts = ⟨now, s.wokenBy a⟩ :: s.counting a := by
        simp [after, hmoves, htime, hloop, Loop.isOpening]
      refine ⟨htimings, ?_, ?_⟩
      · have hstands : ∃ b rest, (s.after a w).attempts = b :: rest ∧
            timings.wait (s.counting a).length = timings.wait rest.length ∧
              b.startedAt ≤ (s.after a w).clock :=
          ⟨_, _, hattempts, rfl, by simp [after, htime]⟩
        simpa [Stands, after, hloop] using hstands
      · rw [hattempts]
        exact hspaced.cons fun b rest hcounting hwoken => hwaited b rest hcounting hwoken
  | ended ending =>
      refine ⟨htimings, by simp [Stands, after, hloop], ?_⟩
      simpa [after, hloop, Loop.isOpening] using hspaced
  | _ =>
      refine ⟨htimings, ?_, ?_⟩
      · simpa [Stands, after, hloop, htime, Loop.isOpening] using hwaited
      · simpa [after, hloop, Loop.isOpening] using hspaced

/-- While `_run` is connected it stands by the wait that comes next. -/
theorem Stands.connected {wait : ℕ → ℚ} {s : Retrying γ} {backoff : ℚ} (h : s.Stands wait)
    (hloop : s.world.loop.connectedWith = some backoff) :
    backoff = wait s.attempts.length ∧ Waited wait s.attempts s.woken s.clock := by
  unfold Stands at h
  cases hplace : s.world.loop with
  | reading b => simp_all [Loop.connectedWith]
  | beating b => simp_all [Loop.connectedWith]
  | receiving b => simp_all [Loop.connectedWith]
  | dropping b why => simp_all [Loop.connectedWith]
  | _ => exact absurd hloop (by simp [hplace, Loop.connectedWith])

/-- A turn of `_run`.  The sleeps between two failures are those of the doubling, and the one that
just ended lasted at least as long as asked. -/
theorem BacksOff.turned {timings : Timings} {s : Retrying γ} {w : World γ} {a : Action} {now : ℚ}
    {pc : Loop} (hs : s.BacksOff timings) (hmax : 0 ≤ timings.reconnectMax)
    (hzero : timings.wait 0 = timings.reconnectMin) (htimely : s.Timely a)
    (htimings : w.dev.timings = timings) (hmoves : s.world.movesLoop a = true)
    (hspaced : Spaced (Apart timings.wait) (s.counting a))
    (hturn : World.LoopTurn cb s.world a now pc) (hloop : w.loop = pc) :
    (s.after a w).BacksOff timings := by
  have hstands := hs.stands
  have hsame := hs.unchanged
  cases hturn with
  | begun hready =>
      rw [Stands, hready] at hstands
      have hcounting : s.counting (.begin now) = [] := hstands
      refine BacksOff.on htimings hmoves rfl ?_ hloop ?_ hspaced
      · rw [hcounting, List.length_nil, hzero, ← hsame]
        exact loopTop_on _ _ _ _
      · rw [hcounting]
        intro b rest hrest
        exact absurd hrest (by simp)
  | @woken _ _ t ha ht =>
      have hcounting : s.counting a = s.attempts := by
        rcases ha with rfl | rfl <;> rfl
      have htime : a.time = some now := by
        rcases ha with rfl | rfl <;> rfl
      rw [hcounting] at hspaced
      cases hplace : s.world.loop with
      | backingOff backoff =>
          rw [hplace] at ht
          obtain rfl := Option.some.inj ht
          rw [Stands, hplace] at hstands
          obtain ⟨b, rest, hattempts, hbackoff, hslept⟩ := hstands
          refine BacksOff.on htimings hmoves htime ?_ hloop ?_ (hcounting ▸ hspaced)
          · have hnext : min (backoff * 2) s.world.dev.timings.reconnectMax =
                timings.wait (rest.length + 1) := by
              rw [hsame, hbackoff]
              exact cappedDoubling_succ hmax _
            rw [hcounting, hattempts, List.length_cons, ← hnext]
            exact loopTop_on _ _ _ _
          · rw [hcounting]
            intro b' rest' hattempts' hwoken
            obtain ⟨rfl, rfl⟩ := List.cons.inj (hattempts.symm.trans hattempts')
            rcases ha with rfl | rfl
            · exact absurd hwoken (by simp [wokenBy, hplace])
            · have hlasted : s.sleptAt + backoff ≤ now :=
                htimely.2 now rfl backoff (by rw [hplace]; rfl)
              rw [← hbackoff]
              linarith
      | pausing backoff =>
          rw [hplace] at ht
          obtain rfl := Option.some.inj ht
          rw [Stands, hplace] at hstands
          refine BacksOff.on htimings hmoves htime ?_ hloop ?_ (hcounting ▸ hspaced)
          · rw [hcounting, ← hstands.1]
            exact loopTop_on _ _ _ _
          · have hwoken : s.wokenBy a = s.woken := by
              rcases ha with rfl | rfl <;> simp [wokenBy, hplace]
            rw [hcounting, hwoken]
            exact hstands.2.later (htimely.1 now htime)
      | _ => exact absurd (hplace ▸ ht) (by simp [loopWake])
  | @resumed i _ r t hr hx ht =>
      have hsucceeds : s.world.succeeds (.resume i now) = r.value.isOpened := by
        simp [World.succeeds, hr, hx]
      have hwoken : s.wokenBy (.resume i now) = s.woken := rfl
      have hclock : s.clock ≤ now := htimely.1 now rfl
      obtain ⟨job, hjob⟩ := loopResume_awaits ht
      have hconnected : ∀ backoff, s.world.loop.connectedWith = some backoff →
          (s.after (.resume i now) w).BacksOff timings := by
        intro backoff hbackoff
        obtain ⟨rfl, hwaited⟩ := hstands.connected hbackoff
        have hcounting : s.counting (.resume i now) = s.attempts := by
          simp [counting, hsucceeds, loopResume_connected hbackoff ht]
        refine BacksOff.on htimings hmoves rfl ?_ hloop ?_ hspaced
        · rw [hcounting]
          exact loopResume_on hbackoff ht
        · rw [hcounting, hwoken]
          exact hwaited.later hclock
      cases hplace : s.world.loop with
      | opening backoff =>
          rw [hplace] at ht
          rcases loopResume_opening ht with ⟨hopened, hon⟩ | ⟨hfailed, hpc | ⟨ending, hpc⟩⟩
          · have hcounting : s.counting (.resume i now) = [] := by
              simp [counting, hsucceeds, hopened]
            refine BacksOff.on htimings hmoves rfl ?_ hloop ?_ hspaced
            · rw [hcounting, List.length_nil, hzero, ← hsame]
              exact hon
            · rw [hcounting]
              intro b rest hrest
              exact absurd hrest (by simp)
          · have hcounting : s.counting (.resume i now) = s.attempts := by
              simp [counting, hsucceeds, hfailed]
            have hloop' : (s.after (.resume i now) w).world.loop = .backingOff backoff :=
              hloop.trans hpc
            have hattempts : (s.after (.resume i now) w).attempts = s.attempts := by
              simp [after, hloop, hpc, Loop.isOpening, hcounting]
            have hslept : (s.after (.resume i now) w).sleptAt = now := by
              simp [after, hmoves, hloop, hpc, Loop.backsOffFor, Action.time]
            rw [Stands, hplace] at hstands
            obtain ⟨b, rest, hrest, hbackoff, hstarted⟩ := hstands
            refine ⟨htimings, ?_, by rw [hattempts]; exact hs.spaced⟩
            rw [Stands, hloop', hattempts, hslept]
            exact ⟨b, rest, hrest, hbackoff, hstarted.trans hclock⟩
          · have hloop' : (s.after (.resume i now) w).world.loop = .ended ending :=
              hloop.trans hpc
            refine ⟨htimings, by rw [Stands, hloop']; trivial, ?_⟩
            simpa [after, hloop, hpc, Loop.isOpening] using hspaced
      | notStarted => exact absurd (hplace ▸ hjob) (by simp [Loop.awaits])
      | ready => exact absurd (hplace ▸ hjob) (by simp [Loop.awaits])
      | backingOff backoff => exact absurd (hplace ▸ hjob) (by simp [Loop.awaits])
      | pausing backoff => exact absurd (hplace ▸ hjob) (by simp [Loop.awaits])
      | ended ending => exact absurd (hplace ▸ hjob) (by simp [Loop.awaits])
      | reading backoff => exact hconnected backoff (by rw [hplace]; rfl)
      | beating backoff => exact hconnected backoff (by rw [hplace]; rfl)
      | receiving backoff => exact hconnected backoff (by rw [hplace]; rfl)
      | dropping backoff why => exact hconnected backoff (by rw [hplace]; rfl)

/-- **Every step backs off.**  A turn of `_run` is the lemma above, and no other step makes an
attempt. -/
theorem BacksOff.step {timings : Timings} {s s' : Retrying γ} {a : Action}
    (hmax : 0 ≤ timings.reconnectMax) (hle : timings.reconnectMin ≤ timings.reconnectMax)
    (hs : s.BacksOff timings) (htimely : s.Timely a) (h : s.step cb a = some s') :
    s'.BacksOff timings := by
  obtain ⟨w, hw, rfl⟩ := Option.map_eq_some_iff.mp h
  have htimings : w.dev.timings = timings := (World.timings_step hw).trans hs.unchanged
  have hzero : timings.wait 0 = timings.reconnectMin := cappedDoubling_zero hle
  have hstands := hs.stands
  cases hmoves : s.world.movesLoop a with
  | false =>
      have hcounting : s.counting a = s.attempts := by
        simp [counting, World.succeeds_moves hmoves]
      have hattempts : (s.after a w).attempts = s.attempts := by
        simp [after, hmoves, hcounting]
      have hwoken : s.wokenBy a = s.woken := by
        cases a <;> simp_all [wokenBy, World.movesLoop]
      have hclock : s.clock ≤ (s.after a w).clock := by
        cases htime : a.time with
        | none => simp [after, htime]
        | some now => simpa [after, htime] using htimely.1 now htime
      refine ⟨htimings, ?_, by rw [hattempts]; exact hs.spaced⟩
      rcases World.loop_stays hw hmoves with hloop | ⟨hfirst, hloop⟩ | ⟨ending, hloop⟩
      · have hloop' : (s.after a w).world.loop = s.world.loop := hloop
        have hslept : (s.after a w).sleptAt = s.sleptAt := by simp [after, hmoves]
        have hwoken' : (s.after a w).woken = s.woken := hwoken
        unfold Stands at hstands ⊢
        rw [hloop', hattempts, hslept, hwoken']
        cases hplace : s.world.loop with
        | notStarted => simpa [hplace] using hstands
        | ready => simpa [hplace] using hstands
        | opening backoff =>
            rw [hplace] at hstands
            obtain ⟨b, rest, hrest, hbackoff, hstarted⟩ := hstands
            exact ⟨b, rest, hrest, hbackoff, hstarted.trans hclock⟩
        | backingOff backoff => simpa [hplace] using hstands
        | ended ending => trivial
        | _ =>
            rw [hplace] at hstands
            exact ⟨hstands.1, hstands.2.later hclock⟩
      · rw [Stands, hfirst] at hstands
        have hloop' : (s.after a w).world.loop = .ready := hloop
        rw [Stands, hloop', hattempts]
        exact hstands
      · have hloop' : (s.after a w).world.loop = .ended ending := hloop
        rw [Stands, hloop']
        trivial
  | true =>
      obtain ⟨now, pc, hturn, hloop⟩ := World.loop_turns hw hmoves
      have hspaced : Spaced (Apart timings.wait) (s.counting a) := by
        unfold counting
        split
        · exact trivial
        · exact hs.spaced
      rcases hloop with hloop | ⟨ending, hloop⟩
      · exact hs.turned hmax hzero htimely htimings hmoves hspaced hturn hloop
      · have hloop' : (s.after a w).world.loop = .ended ending := hloop
        refine ⟨htimings, by rw [Stands, hloop']; trivial, ?_⟩
        simpa [after, hloop, Loop.isOpening] using hspaced

/-- **Reconnects back off.**  For every run in which the clock does not go back and sleeps that are
not cut short last as long as they are to: of the opens of `_run` since its last successful one, the
`k+2`-th begins at least `min (MIN * 2 ^ k) MAX` after the `k+1`-th, unless the sleep between them
was cut short; and `_run` sleeps for just as long after the last of them failed. -/
theorem reconnects_back_off {config : DeviceConfig} {timings : Timings} {hint : Option PyStr}
    {client : γ} {start : ℚ} {as : List Action} {s : Retrying γ}
    (hmax : 0 ≤ timings.reconnectMax) (hle : timings.reconnectMin ≤ timings.reconnectMax)
    (hrun : Run (step cb) Timely (init config timings hint client start) as s) :
    (∀ (k : ℕ) (a a' : Attempt), s.attempts.reverse[k]? = some a →
      s.attempts.reverse[k + 1]? = some a' → a'.woken = false →
      a.startedAt + min (timings.reconnectMin * 2 ^ k) timings.reconnectMax ≤ a'.startedAt) ∧
    (∀ backoff, s.world.loop = .backingOff backoff →
      backoff = min (timings.reconnectMin * 2 ^ (s.attempts.length - 1)) timings.reconnectMax) := by
  have hs : s.BacksOff timings :=
    hrun.invariant (BacksOff timings) (fun _ _ _ h hok hstep => h.step hmax hle hok hstep)
      ⟨rfl, rfl, trivial⟩
  refine ⟨fun k a a' ha ha' => hs.spaced.get ha ha', fun backoff hloop => ?_⟩
  have hstands := hs.stands
  rw [Stands, hloop] at hstands
  obtain ⟨a, rest, hattempts, hbackoff, _⟩ := hstands
  rw [hbackoff, hattempts]
  rfl

/-- The first reconnect fails twice, and the second sleep is not cut short. -/
def twoFailures : List Action :=
  [.start, .begin 0, .take, .listVersions, .tryVersion none,
    .answer ⟨.ok (.obj [(py "Err", .str (py "901"))]), false, false⟩ none, .resume 0 2,
    .timeout 7, .take, .listVersions, .tryVersion none,
    .answer ⟨.ok (.obj [(py "Err", .str (py "901"))]), false, false⟩ none, .resume 0 9]

/-- Two opens fail, five seconds apart, and `_run` now backs off for ten. -/
theorem reconnects_back_off_twice :
    ∃ s : Retrying Unit, (s.attempts.length = 2 ∧ s.world.loop.backsOffFor = some 10) ∧
      (∀ (k : ℕ) (a a' : Attempt), s.attempts.reverse[k]? = some a →
        s.attempts.reverse[k + 1]? = some a' → a'.woken = false →
        a.startedAt + min (5 * 2 ^ k) 60 ≤ a'.startedAt) ∧
      (∀ backoff, s.world.loop = .backingOff backoff →
        backoff = min (5 * 2 ^ (s.attempts.length - 1)) 60) := by
  let execution := exec (step (Callbacks.none Unit)) (init exampleConfig {} none () 0) twoFailures
  obtain ⟨s, hs⟩ := Option.isSome_iff_exists.mp (show execution.isSome = true by decide +kernel)
  have hfacts : ∀ s ∈ execution, s.attempts.length = 2 ∧ s.world.loop.backsOffFor = some 10 := by
    decide +kernel
  exact ⟨s, hfacts s hs, @reconnects_back_off _ _ _ {} _ _ _ _ _ (by decide +kernel)
    (by decide +kernel) (Run.of_meets hs (by decide +kernel))⟩

end Retrying

end Lan
