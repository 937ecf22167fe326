import HaBirdie.LanTurns
import HaBirdie.LoopSurvival

/-!
# Which key rejections ask for a new key

A re-authentication is asked for after `keyFailuresBeforeReauth` consecutive rejections of
the local key.  Two counters implement this: one of the coordinator, for the attempts of the
background task (`_async_on_error`), and one per entry that outlives the coordinators of
failed setups (`_async_setup`).

The history of a path is the list of its attempts, the latest first; `n` consecutive
rejections are a prefix of `n` rejections (`Consecutive`).  On the running path the counter
always counts such a prefix (`Watched.Counts.step`).  On the setup path it does so as long as no
attempt that fails to reset the counter comes while it counts (`ResetsCount`): an unreachable
purifier, and an accepted attempt whose status callback raises, leave it as it is.
-/

namespace Purifier

open Python Lan StepRuns

/-- How a connection attempt ended. -/
inductive Attempt
  | accepted
  | rejected
  | unreachable
deriving DecidableEq

/-- The latest `n` attempts were rejections. -/
def Consecutive (n : ℕ) (attempts : List Attempt) : Prop :=
  List.replicate n .rejected <+: attempts

/-- No rejection in a row is needed for a count of zero. -/
theorem Consecutive.zero (attempts : List Attempt) : Consecutive 0 attempts :=
  List.nil_prefix

/-- One more rejection makes a row longer. -/
theorem Consecutive.cons {n : ℕ} {attempts : List Attempt} (h : Consecutive n attempts) :
    Consecutive (n + 1) (.rejected :: attempts) :=
  (List.prefix_cons_inj _).mpr h

/-- A row of rejections contains the shorter ones. -/
theorem Consecutive.of_le {m n : ℕ} {attempts : List Attempt} (h : Consecutive n attempts)
    (hmn : m ≤ n) : Consecutive m attempts :=
  (List.prefix_replicate_iff.mpr ⟨by simpa using hmn, by simp⟩ : _ <+: _).trans h

/-- The attempt that failed with an error. -/
def attemptOf (e : LanError) : Attempt := if e.isInvalidLocalKey then .rejected else .unreachable

/-! ## The setup path -/

/-- How one `async_connect` ends: the device accepted the connection, and its status callback
may have raised; or it failed. -/
inductive Connected
  | accepted (callback : Option PyException)
  | failed (r : Raised)

/-- What one `_async_setup` meets: its first `async_connect`, whether the purifier announces
another address (looking for it may raise), and the second `async_connect` there. -/
structure SetupAttempt where
  first : Connected
  follow : Except PyException Bool
  second : Connected
  coordinator : Coordinator
  host : PyStr
  version : Option PyStr
  now : ℚ

/-- How `_async_setup` ends. -/
inductive SetupEnd
  | connected
  | authFailed
  | updateFailed (failure : UpdateFailed)
  | raised (e : PyException)

/-- The `async_connect` that decides, and the attempts made, the latest first. -/
def SetupAttempt.connect (a : SetupAttempt) : Connected × List Attempt :=
  let made : Connected → List Attempt
    | .accepted _ => [.accepted]
    | .failed (.lan e) => [attemptOf e]
    | .failed (.foreign _) => []
  match a.first with
  | .failed (.lan e) =>
      if e.isInvalidLocalKey then (a.first, made a.first)
      else match a.follow with
        | .error e => (.failed (.foreign e), made a.first)
        | .ok false => (a.first, made a.first)
        | .ok true => (a.second, made a.second ++ made a.first)
  | _ => (a.first, made a.first)

/-- `_async_setup`, on the entry's count of key rejections. -/
def asyncSetup (a : SetupAttempt) (keyFailures : ℕ) : SetupEnd × ℕ × Coordinator :=
  let c := a.coordinator
  match a.connect.1 with
  | .failed (.lan e) =>
      if e.isInvalidLocalKey then
        if keyFailuresBeforeReauth ≤ keyFailures + 1 then (.authFailed, 0, c)
        else (.updateFailed .invalidLocalKey, keyFailures + 1, c)
      else (.updateFailed (.deviceUnreachable a.host), keyFailures, c.noteUnreachable a.now)
  | .failed (.foreign e) => (.raised e, keyFailures, c)
  | .accepted (some e) => (.raised e, keyFailures, c)
  | .accepted none =>
      (.connected, 0, c.noteReachable.storeDetectedVersion a.version)

/-- The setups of one entry: its count of key rejections, its attempts, and how the last
setup ended. -/
structure Setups where
  keyFailures : ℕ := 0
  attempts : List Attempt := []
  ended : Option SetupEnd := none

/-- One more setup, with a new coordinator. -/
def Setups.step (s : Setups) (a : SetupAttempt) : Option Setups :=
  let (ended, keyFailures, _) := asyncSetup a s.keyFailures
  some { keyFailures, attempts := a.connect.2 ++ s.attempts, ended := some ended }

/-- A setup that does not leave the count as it is after an attempt that was no rejection: the
purifier is reachable, or it is at the address that it announces, and no callback of an
accepted connection raises. -/
def SetupAttempt.resetsCount (a : SetupAttempt) : Bool :=
  match a.first with
  | .accepted raised => raised.isNone
  | .failed (.lan e) =>
      e.isInvalidLocalKey ||
        match a.follow, a.second with
        | .ok true, .accepted none => true
        | _, _ => false
  | .failed (.foreign _) => true

/-- While the entry counts rejections, its setups reset the count. -/
def ResetsCount (s : Setups) (a : SetupAttempt) : Prop :=
  0 < s.keyFailures → a.resetsCount = true

instance (s : Setups) (a : SetupAttempt) : Decidable (ResetsCount s a) :=
  inferInstanceAs (Decidable (_ → _))

/-- The invariant of the setup path: the entry counts consecutive rejections, and its last
setup asked for a new key only after enough of them. -/
structure Setups.Counts (s : Setups) : Prop where
  count : Consecutive s.keyFailures s.attempts
  asked : s.ended = some .authFailed → Consecutive keyFailuresBeforeReauth s.attempts

/-- A setup that leaves the entry's count at zero. -/
theorem Setups.Counts.none {s : Setups} (hcount : s.keyFailures = 0)
    (hasked : s.ended ≠ some .authFailed) : s.Counts :=
  ⟨hcount ▸ Consecutive.zero _, fun h => absurd h hasked⟩

/-- A setup whose first attempt found the purifier unreachable.  It may try again at an announced
address; where it ends without resetting the count, the count was zero before. -/
theorem Setups.Counts.of_unreachable {s : Setups} {a : SetupAttempt} {e : LanError}
    (hfirst : a.first = .failed (.lan e)) (hkey : e.isInvalidLocalKey = false)
    (hzero : a.resetsCount = false → s.keyFailures = 0) :
    Setups.Counts
      { keyFailures := (asyncSetup a s.keyFailures).2.1
        attempts := a.connect.2 ++ s.attempts
        ended := some (asyncSetup a s.keyFailures).1 } := by
  cases hfollow : a.follow with
  | error x =>
      have hconnect : a.connect = (.failed (.foreign x), [.unreachable]) := by
        simp [SetupAttempt.connect, hfirst, hkey, hfollow, attemptOf]
      have hcount := hzero (by simp [SetupAttempt.resetsCount, hfirst, hkey, hfollow])
      exact .none (by simp [asyncSetup, hconnect, hcount]) (by simp [asyncSetup, hconnect])
  | ok follows =>
      cases follows with
      | false =>
          have hconnect : a.connect = (.failed (.lan e), [.unreachable]) := by
            simp [SetupAttempt.connect, hfirst, hkey, hfollow, attemptOf]
          have hcount := hzero (by simp [SetupAttempt.resetsCount, hfirst, hkey, hfollow])
          exact .none (by simp [asyncSetup, hconnect, hkey, hcount])
            (by simp [asyncSetup, hconnect, hkey])
      | true =>
          cases hsecond : a.second with
          | accepted raised =>
              have hconnect : a.connect = (.accepted raised, [.accepted, .unreachable]) := by
                simp [SetupAttempt.connect, hfirst, hkey, hfollow, hsecond, attemptOf]
              cases raised with
              | none =>
                  exact .none (by simp [asyncSetup, hconnect]) (by simp [asyncSetup, hconnect])
              | some x =>
                  have hcount := hzero
                    (by simp [SetupAttempt.resetsCount, hfirst, hkey, hfollow, hsecond])
                  exact .none (by simp [asyncSetup, hconnect, hcount])
                    (by simp [asyncSetup, hconnect])
          | failed r =>
              have hcount := hzero
                (by simp [SetupAttempt.resetsCount, hfirst, hkey, hfollow, hsecond])
              cases r with
              | foreign x =>
                  have hconnect : a.connect = (.failed (.foreign x), [.unreachable]) := by
                    simp [SetupAttempt.connect, hfirst, hkey, hfollow, hsecond, attemptOf]
                  exact .none (by simp [asyncSetup, hconnect, hcount])
                    (by simp [asyncSetup, hconnect])
              | lan e' =>
                  have hconnect : a.connect =
                      (.failed (.lan e'), [attemptOf e', .unreachable]) := by
                    simp [SetupAttempt.connect, hfirst, hkey, hfollow, hsecond, attemptOf]
                  by_cases hkey' : e'.isInvalidLocalKey = true
                  · -- the first rejection that counts
                    have hone : Consecutive 1 (.rejected :: .unreachable :: s.attempts) :=
                      (Consecutive.zero _).cons
                    refine ⟨?_, ?_⟩
                    · simpa [asyncSetup, hconnect, hkey', hcount, keyFailuresBeforeReauth,
                        attemptOf] using hone
                    · simp [asyncSetup, hconnect, hkey', hcount, keyFailuresBeforeReauth]
                  · exact .none (by simp [asyncSetup, hconnect, hkey', hcount])
                      (by simp [asyncSetup, hconnect, hkey'])

/-- **One setup** that resets the count keeps it a count of consecutive rejections.  The cases are
the outcomes of its first attempt. -/
theorem Setups.Counts.step {s s' : Setups} {a : SetupAttempt} (hs : s.Counts)
    (hok : ResetsCount s a) (h : s.step a = some s') : s'.Counts := by
  obtain rfl := Option.some.inj h
  have hzero : a.resetsCount = false → s.keyFailures = 0 := by
    intro hnot
    by_contra hpos
    exact absurd (hok (Nat.pos_of_ne_zero hpos)) (by simp [hnot])
  cases hfirst : a.first with
  | accepted raised =>
      have hconnect : a.connect = (.accepted raised, [.accepted]) := by
        simp [SetupAttempt.connect, hfirst]
      cases raised with
      | none =>
          exact .none (by simp [hconnect]) (by simp [hconnect])
      | some e =>
          have hcount := hzero (by simp [SetupAttempt.resetsCount, hfirst])
          exact .none (by simp [hconnect, hcount]) (by simp [hconnect])
  | failed r =>
      cases r with
      | foreign e =>
          have hconnect : a.connect = (.failed (.foreign e), []) := by
            simp [SetupAttempt.connect, hfirst]
          exact ⟨by simpa [asyncSetup, hconnect] using hs.count, by simp [hconnect]⟩
      | lan e =>
          by_cases hkey : e.isInvalidLocalKey = true
          · -- the first attempt decides, and adds to the count
            have hconnect : a.connect = (.failed (.lan e), [.rejected]) := by
              simp [SetupAttempt.connect, hfirst, hkey, attemptOf]
            have hcons := hs.count.cons
            by_cases hthree : keyFailuresBeforeReauth ≤ s.keyFailures + 1
            · have hasked := hcons.of_le hthree
              exact ⟨by simp [hconnect, hkey, hthree, Consecutive.zero],
                fun _ => by simpa [hconnect, hkey] using hasked⟩
            · exact ⟨by simpa [asyncSetup, hconnect, hkey, hthree] using hcons,
                by simp [hconnect, hkey, hthree]⟩
          · exact .of_unreachable hfirst (Bool.eq_false_of_not_eq_true hkey) hzero

/-! ## The running path -/

/-- The connection attempt that the background task ends with a result. -/
def loopAttempt (pc : Loop) (value : JobValue) : Option Attempt :=
  match pc, value with
  | .opening _, .opened _ _ => some .accepted
  | .opening _, .raised (.lan e) => some (attemptOf e)
  | _, _ => none

/-- The connection attempt of the background task that an action ends. -/
def attemptOfAction (w : World Coordinator) : Action → Option Attempt
  | .resume i _ => w.results[i]?.bind fun r =>
      if r.waiter = .loop then loopAttempt w.loop r.value else none
  | _ => none

/-- A running device with the attempts of its background task, the latest first. -/
structure Watched where
  world : World Coordinator
  attempts : List Attempt := []

/-- One step, with the attempt that it ends. -/
def Watched.step (s : Watched) (a : Action) : Option Watched :=
  (s.world.step Coordinator.callbacks a).map fun w =>
    ⟨w, (attemptOfAction s.world a).toList ++ s.attempts⟩

/-- The count is reset or stays as it is, and then the device has not become available. -/
structure Quiet (d : Device) (c : Coordinator) (d' : Device) (c' : Coordinator) : Prop where
  reauths : c'.reauths = c.reauths
  count : c'.keyFailures = 0 ∨
    c'.keyFailures = c.keyFailures ∧ (d'.available = true → d.available = true)

/-- A turn that changes neither the availability nor the coordinator is quiet. -/
theorem Quiet.of_same {d d' : Device} {c c' : Coordinator} (hav : d'.available = d.available)
    (hc : c' = c) : Quiet d c d' c' :=
  ⟨by rw [hc], Or.inr ⟨by rw [hc], fun h => hav ▸ h⟩⟩

/-- Two quiet turns are one: where the count was reset in the first, it stays reset. -/
theorem Quiet.trans {d d' d'' : Device} {c c' c'' : Coordinator} (h : Quiet d c d' c')
    (h' : Quiet d' c' d'' c'') : Quiet d c d'' c'' := by
  refine ⟨h'.reauths.trans h.reauths, ?_⟩
  rcases h'.count with hzero | ⟨hsame, hav⟩
  · exact Or.inl hzero
  · rcases h.count with hzero | ⟨hsame', hav'⟩
    · exact Or.inl (hsame.trans hzero)
    · exact Or.inr ⟨hsame.trans hsame', fun hon => hav' (hav hon)⟩

/-- What a turn does to the count of rejections, by the attempt that it ends. -/
def Counted (attempt : Option Attempt) (d : Device) (c : Coordinator) (d' : Device)
    (c' : Coordinator) : Prop :=
  match attempt with
  | none => Quiet d c d' c'
  | some .accepted => Quiet d c d' c' ∧ d'.available = true
  | some .rejected =>
      c'.keyFailures = c.keyFailures + 1 ∧ d'.available = false ∧
        (c'.reauths ≠ c.reauths → c'.keyFailures = keyFailuresBeforeReauth)
  | some .unreachable => c'.keyFailures = 0 ∧ c'.reauths = c.reauths

/-- Of the device only `available` matters. -/
theorem Counted.congr {attempt : Option Attempt} {d d₁ d₂ : Device} {c c' : Coordinator}
    (h : Counted attempt d c d₁ c') (hav : d₂.available = d₁.available) :
    Counted attempt d c d₂ c' := by
  have hquiet : Quiet d c d₁ c' → Quiet d c d₂ c' := fun hq =>
    hq.trans (Quiet.of_same hav rfl)
  unfold Counted at h ⊢
  split
  · exact hquiet h
  · exact ⟨hquiet h.1, hav.trans h.2⟩
  · exact ⟨h.1, hav.trans h.2.1, h.2.2⟩
  · exact h

/-- The invariant of the running path: the coordinator counts consecutive rejections, and none
while the device is available. -/
structure Watched.Counts (s : Watched) : Prop where
  count : Consecutive s.world.client.keyFailures s.attempts
  available : s.world.dev.available = true → s.world.client.keyFailures = 0

/-! ### What the callbacks do to the count -/

/-- Publishing a state counts nothing. -/
theorem publish_keyFailures (dps : PyDict) (c : Coordinator) :
    (c.publish dps).1.keyFailures = c.keyFailures ∧ (c.publish dps).1.reauths = c.reauths := by
  unfold Coordinator.publish
  split <;> exact ⟨rfl, rfl⟩

/-- A device that is reached again resets the count, and asks for nothing. -/
theorem reachedAgain_keyFailures (version : Option PyStr) (c : Coordinator) :
    (c.reachedAgain version).keyFailures = 0 ∧ (c.reachedAgain version).reauths = c.reauths := by
  unfold Coordinator.reachedAgain Coordinator.storeDetectedVersion Coordinator.abortReauth
    Coordinator.noteReachable
  split <;> try split
  all_goals exact ⟨rfl, rfl⟩

/-- An announcement that the device is available resets the count. -/
theorem onAvailability_true_keyFailures (error : Option LanError) (dev : Device) (now : ℚ)
    (c : Coordinator) :
    (Coordinator.onAvailability true error dev now c).1.keyFailures = 0 ∧
      (Coordinator.onAvailability true error dev now c).1.reauths = c.reauths := by
  obtain ⟨hzero, hreauths⟩ := reachedAgain_keyFailures dev.version c
  unfold Coordinator.onAvailability
  rw [if_pos rfl]
  dsimp only
  split
  · obtain ⟨hcount, hsame⟩ := publish_keyFailures dev.dps (c.reachedAgain dev.version)
    exact ⟨hcount.trans hzero, hsame.trans hreauths⟩
  · exact ⟨hzero, hreauths⟩

/-- One that it is not leaves the count: only the setup and the error callback count rejections. -/
theorem onAvailability_false_keyFailures (error : Option LanError) (dev : Device) (now : ℚ)
    (c : Coordinator) :
    (Coordinator.onAvailability false error dev now c).1.keyFailures = c.keyFailures ∧
      (Coordinator.onAvailability false error dev now c).1.reauths = c.reauths := by
  unfold Coordinator.onAvailability
  rw [if_neg (by simp)]
  split <;> exact ⟨rfl, rfl⟩

/-- A report is no attempt. -/
theorem handleDps_quiet (now : ℚ) (report : PyDict) (full : Bool) (dev : Device)
    (c : Coordinator) :
    Quiet dev c (handleDps Coordinator.callbacks now report full dev c).dev
      (handleDps Coordinator.callbacks now report full dev c).client := by
  obtain ⟨hcount, hreauths⟩ := publish_keyFailures (dev.dps.update report) c
  unfold handleDps
  dsimp only
  split
  · exact ⟨hreauths, Or.inr ⟨hcount, id⟩⟩
  · exact Quiet.of_same rfl rfl

/-- Announcing the availability is none either: it resets the count, or leaves it.  It resets it
where the device is available, and then its key works. -/
theorem setAvailable_quiet (now : ℚ) (available : Bool) (error : Option LanError)
    (dev : Device) (c : Coordinator) :
    Quiet dev c (setAvailable Coordinator.callbacks now available error dev c).dev
      (setAvailable Coordinator.callbacks now available error dev c).client := by
  unfold setAvailable
  split
  · exact Quiet.of_same rfl rfl
  · cases available with
    | true =>
        obtain ⟨hzero, hreauths⟩ :=
          onAvailability_true_keyFailures error { dev with available := true } now c
        exact ⟨hreauths, Or.inl hzero⟩
    | false =>
        obtain ⟨hcount, hreauths⟩ :=
          onAvailability_false_keyFailures error { dev with available := false } now c
        exact ⟨hreauths, Or.inr ⟨hcount, fun h => absurd h (by simp)⟩⟩

/-- Handling in sequence. -/
theorem andThen_quiet {d : Device} {c : Coordinator} {h : Handled Coordinator}
    {k : Device → Coordinator → Handled Coordinator} (hfirst : Quiet d c h.dev h.client)
    (hnext : ∀ d' c', Quiet d' c' (k d' c').dev (k d' c').client) :
    Quiet d c (h.andThen k).dev (h.andThen k).client := by
  unfold Handled.andThen
  cases h.raised with
  | some e => exact hfirst
  | none => exact hfirst.trans (hnext _ _)

/-- An opened connection announces the device as available and hands its report on, so it resets
the count or leaves it. -/
theorem handleConnected_quiet (now : ℚ) (version : PyStr) (dps : PyDict) (dev : Device)
    (c : Coordinator) :
    Quiet dev c (handleConnected Coordinator.callbacks now version dps dev c).dev
      (handleConnected Coordinator.callbacks now version dps dev c).client := by
  let dev' : Device :=
    { dev with version := some version, lastError := none, lastRx := now, lastHeartbeat := now }
  have hnoted : Quiet dev c dev' c := Quiet.of_same rfl rfl
  exact andThen_quiet (hnoted.trans (setAvailable_quiet now true none dev' c))
    (handleDps_quiet now dps true)

/-- Announcing that the device is lost leaves the count as it is. -/
theorem setAvailable_false_keyFailures (now : ℚ) (error : Option LanError) (dev : Device)
    (c : Coordinator) :
    (setAvailable Coordinator.callbacks now false error dev c).client.keyFailures =
        c.keyFailures ∧
      (setAvailable Coordinator.callbacks now false error dev c).client.reauths = c.reauths := by
  unfold setAvailable
  split
  · exact ⟨rfl, rfl⟩
  · exact onAvailability_false_keyFailures error _ now c

/-- A rejection adds to the count and asks for a new key at the third; another error resets
the count. -/
theorem onError_keyFailures (error : LanError) (dev : Device) (now : ℚ) (c : Coordinator) :
    let c' := (Coordinator.onError error dev now c).1
    if error.isInvalidLocalKey then
      c'.keyFailures = c.keyFailures + 1 ∧
        (c'.reauths ≠ c.reauths → c'.keyFailures = keyFailuresBeforeReauth)
    else c'.keyFailures = 0 ∧ c'.reauths = c.reauths := by
  dsimp only [Coordinator.onError]
  split
  · split
    · rename_i hthree
      exact ⟨rfl, fun _ => hthree⟩
    · exact ⟨rfl, fun h => absurd rfl h⟩
  · exact ⟨rfl, rfl⟩

/-- A failed attempt is counted.  A rejected key raises the count by one, and any other error sets
it back to zero. -/
theorem openFailed_counted (now : ℚ) (error : LanError) (dev : Device) (c : Coordinator) :
    Counted (some (attemptOf error)) dev c
      (openFailed Coordinator.callbacks now error dev c).dev
      (openFailed Coordinator.callbacks now error dev c).client := by
  have hav := openFailed_available Coordinator.callbacks now error dev c
  let h := setAvailable Coordinator.callbacks now false (some error)
    { dev with lastError := some error } c
  obtain ⟨hcount, hreauths⟩ :=
    setAvailable_false_keyFailures now (some error) { dev with lastError := some error } c
  have hclient : (openFailed Coordinator.callbacks now error dev c).client =
      (Coordinator.onError error h.dev now h.client).1 := by
    unfold openFailed Handled.andThen
    rw [setAvailable_false_raised]
    rfl
  have herror := onError_keyFailures error h.dev now h.client
  dsimp only at herror
  rw [← hclient, hcount, hreauths] at herror
  unfold attemptOf
  split at herror
  · rename_i hkey
    rw [if_pos hkey]
    exact ⟨herror.1, hav, herror.2⟩
  · rename_i hkey
    rw [if_neg hkey]
    exact herror

/-! ### Turns -/

/-- A turn that goes on without the coordinator. -/
theorem turn_quiet {pc : Type} {d : Device} {c : Coordinator} {h : Handled Coordinator}
    {fail : PyException → pc} {k : Device → Coordinator → Turn Coordinator pc}
    (hfirst : Quiet d c h.dev h.client)
    (hnext : ∀ d' c', Quiet d' c' (k d' c').dev (k d' c').client) :
    Quiet d c (h.turn fail k).dev (h.turn fail k).client := by
  unfold Handled.turn
  cases h.raised with
  | some e => exact hfirst
  | none => exact hfirst.trans (hnext _ _)

/-- A pass of `_run` up to its await is no attempt. -/
theorem loopTop_quiet (now b : ℚ) (d : Device) (c : Coordinator) :
    Quiet d c (loopTop now b d c).dev (loopTop now b d c).client :=
  Quiet.of_same (loopTop_turned now b d c).available (loopTop_onward now b d c).client

/-- A step of `_run` that fails is no attempt before its drop is done. -/
theorem loopFailed_quiet (b : ℚ) (r : Raised) (d : Device) (c : Coordinator) :
    Quiet d c (loopFailed b r d c).dev (loopFailed b r d c).client :=
  Quiet.of_same (loopFailed_turned b r d c).available (loopFailed_onward b r d c).client

/-- **A turn of the background task** counts the attempt that it ends.  A turn that ends no attempt
leaves the count, or finds the device available. -/
theorem loopResume_counted {now : ℚ} {d : Device} {c : Coordinator} {pc : Loop}
    {value : JobValue} {t : Turn Coordinator Loop}
    (h : loopResume Coordinator.callbacks now d c pc value = some t) :
    Counted (loopAttempt pc value) d c t.dev t.client := by
  obtain ⟨job, hjob⟩ := loopResume_awaits h
  have hturn := loopResume_turned hjob h
  cases pc with
  | opening b =>
      cases value with
      | opened version dps =>
          obtain rfl := Option.some.inj h
          obtain rfl : Job.wOpen = job := Option.some.inj hjob
          exact ⟨turn_quiet (handleConnected_quiet now version dps d c) (loopTop_quiet now _),
            hturn.available⟩
      | raised r =>
          cases r with
          | lan e =>
              obtain rfl := Option.some.inj h
              have hcounted := openFailed_counted now e d c
              unfold Handled.turn
              rw [openFailed_raised]
              exact hcounted.congr rfl
          | foreign e =>
              obtain rfl := Option.some.inj h
              exact Quiet.of_same rfl rfl
      | _ => exact absurd h (by simp [loopResume])
  | reading b =>
      cases value with
      | dps dps =>
          obtain rfl := Option.some.inj h
          exact turn_quiet (handleDps_quiet now dps true d c) (loopTop_quiet now b)
      | raised r =>
          obtain rfl := Option.some.inj h
          exact loopFailed_quiet b r d c
      | _ => exact absurd h (by simp [loopResume])
  | beating b =>
      cases value with
      | done =>
          obtain rfl := Option.some.inj h
          exact Quiet.of_same rfl rfl
      | raised r =>
          obtain rfl := Option.some.inj h
          exact loopFailed_quiet b r d c
      | _ => exact absurd h (by simp [loopResume])
  | receiving b =>
      cases value with
      | received dps? =>
          cases dps? with
          | none =>
              obtain rfl := Option.some.inj h
              exact loopTop_quiet now b d c
          | some dps =>
              simp only [loopResume] at h
              split at h
              · obtain rfl := Option.some.inj h
                exact loopTop_quiet now b d c
              · obtain rfl := Option.some.inj h
                exact turn_quiet (handleDps_quiet now dps false d c) (loopTop_quiet now b)
      | raised r =>
          obtain rfl := Option.some.inj h
          exact loopFailed_quiet b r d c
      | _ => exact absurd h (by simp [loopResume])
  | dropping b why =>
      cases value with
      | done =>
          obtain rfl := Option.some.inj h
          exact turn_quiet (setAvailable_quiet now false _ d c) fun _ _ => Quiet.of_same rfl rfl
      | raised r =>
          obtain rfl := Option.some.inj h
          exact Quiet.of_same rfl rfl
      | _ => exact absurd h (by simp [loopResume])
  | _ => exact absurd hjob (by simp [Loop.awaits])

/-- Nor is a call that fails. -/
theorem callFailed_quiet (op : Operation) (dropping : LostReason → Call) (r : Raised)
    (d : Device) (c : Coordinator) :
    Quiet d c (callFailed op dropping r d c).dev (callFailed op dropping r d c).client := by
  unfold callFailed
  split
  · exact Quiet.of_same rfl rfl
  · exact Quiet.of_same rfl rfl

/-- After the drop of a call the device is announced as lost, which counts nothing. -/
theorem callLost_quiet (now : ℚ) (op : Operation) (why : LostReason) (d : Device)
    (c : Coordinator) :
    Quiet d c (callLost Coordinator.callbacks now op why d c).dev
      (callLost Coordinator.callbacks now op why d c).client :=
  turn_quiet (setAvailable_quiet now false _ d c) fun _ _ => Quiet.of_same rfl rfl

/-- A turn of a call counts nothing.  `async_connect` is the setup's, and counted there. -/
theorem callResume_quiet {now : ℚ} {d : Device} {c : Coordinator} {pc : Call}
    {value : JobValue} {t : Turn Coordinator Call}
    (h : callResume Coordinator.callbacks now d c pc value = some t) :
    Quiet d c t.dev t.client := by
  obtain ⟨job, hjob⟩ := callResume_awaits h
  cases pc with
  | connecting =>
      cases value with
      | opened version dps =>
          obtain rfl := Option.some.inj h
          exact turn_quiet (handleConnected_quiet now version dps d c)
            fun _ _ => Quiet.of_same rfl rfl
      | raised r =>
          obtain rfl := Option.some.inj h
          exact Quiet.of_same rfl rfl
      | _ => exact absurd h (by simp [callResume])
  | refreshing =>
      cases value with
      | dps dps =>
          obtain rfl := Option.some.inj h
          exact turn_quiet (handleDps_quiet now dps true d c) fun _ _ => Quiet.of_same rfl rfl
      | raised r =>
          obtain rfl := Option.some.inj h
          exact callFailed_quiet .refresh .refreshLost r d c
      | _ => exact absurd h (by simp [callResume])
  | refreshLost why =>
      cases value with
      | done =>
          obtain rfl := Option.some.inj h
          exact callLost_quiet now .refresh why d c
      | raised r =>
          obtain rfl := Option.some.inj h
          exact Quiet.of_same rfl rfl
      | _ => exact absurd h (by simp [callResume])
  | setting dps =>
      cases value with
      | done =>
          obtain rfl := Option.some.inj h
          exact Quiet.of_same rfl rfl
      | raised r =>
          obtain rfl := Option.some.inj h
          exact callFailed_quiet .setDps .settingLost r d c
      | _ => exact absurd h (by simp [callResume])
  | settingLost why =>
      cases value with
      | done =>
          obtain rfl := Option.some.inj h
          exact callLost_quiet now .setDps why d c
      | raised r =>
          obtain rfl := Option.some.inj h
          exact Quiet.of_same rfl rfl
      | _ => exact absurd h (by simp [callResume])
  | reconfiguring =>
      cases value with
      | done =>
          obtain rfl := Option.some.inj h
          by_cases hav : d.available = true
          · rw [if_pos hav]
            exact turn_quiet (setAvailable_quiet now false _ d c)
              fun _ _ => Quiet.of_same rfl rfl
          · rw [if_neg hav]
            exact Quiet.of_same rfl rfl
      | raised r =>
          obtain rfl := Option.some.inj h
          exact Quiet.of_same rfl rfl
      | _ => exact absurd h (by simp [callResume])
  | closeDropping =>
      cases value with
      | done =>
          obtain rfl := Option.some.inj h
          exact Quiet.of_same rfl rfl
      | raised r =>
          obtain rfl := Option.some.inj h
          exact Quiet.of_same rfl rfl
      | _ => exact absurd h (by simp [callResume])
  | _ => exact absurd hjob (by simp [Call.awaits])

/-! ### Steps -/

/-- A sleep that ends changes neither the availability nor the coordinator. -/
theorem loopWake_same {γ : Type} {now : ℚ} {d : Device} {c : γ} {pc : Loop} {t : Turn γ Loop}
    (h : loopWake now d c pc = some t) : t.dev.available = d.available ∧ t.client = c := by
  refine ⟨(loopWake_turned h).available, ?_⟩
  cases pc <;> simp only [loopWake, Option.some.injEq, reduceCtorEq] at h
  all_goals
    subst h
    exact (loopTop_onward _ _ d c).client

/-- A call of the owner publishes nothing up to its first await. -/
theorem requested_quiet {w w' : World Coordinator} {r : Request} (h : World.RequestMove w r w') :
    Quiet w.dev w.client w'.dev w'.client := by
  cases h with
  | called => exact Quiet.of_same (by simp) (by simp)
  | reconfigured => exact Quiet.of_same (by simp) (by simp)
  | closeRaised => exact Quiet.of_same (by simp [World.marked]) (by simp [World.marked])
  | closeDrops => exact Quiet.of_same (by simp [World.marked]) (by simp [World.marked])
  | closeCancels =>
      exact Quiet.of_same (by simp [World.abandon, World.marked])
        (by simp [World.abandon, World.marked])

/-- **Every step counts the attempt that it ends.**  Only a coroutine that takes up a result
publishes anything. -/
theorem step_counted {w w' : World Coordinator} {a : Action}
    (h : w.step Coordinator.callbacks a = some w') :
    Counted (attemptOfAction w a) w.dev w.client w'.dev w'.client := by
  rcases World.step_moves h with hmove | hmove
  · have hnone : attemptOfAction w a = none := by cases hmove <;> rfl
    rw [hnone]
    exact Quiet.of_same hmove.keeps.available hmove.keeps.client
  cases hmove with
  | startedBefore => exact Quiet.of_same rfl rfl
  | started => exact Quiet.of_same rfl rfl
  | begun =>
      exact Quiet.of_same (by simpa using (loopTop_turned _ _ w.dev w.client).available)
        (by simpa using (loopTop_onward _ _ w.dev w.client).client)
  | woken ha ht =>
      have hnone : attemptOfAction w a = none := by rcases ha with rfl | rfl <;> rfl
      obtain ⟨hav, hclient⟩ := loopWake_same ht
      rw [hnone]
      exact Quiet.of_same (by simpa using hav) (by simpa using hclient)
  | requested hmove => exact requested_quiet hmove
  | loopResumed hr hx ht =>
      simp only [attemptOfAction, hr, Option.bind_some]
      rw [if_pos hx, World.loopGoes_dev, World.loopGoes_client]
      exact loopResume_counted ht
  | callResumed hr hx hpc ht =>
      simp only [attemptOfAction, hr, Option.bind_some]
      rw [if_neg (by simp [hx]), World.callGoes_dev, World.callGoes_client]
      exact callResume_quiet ht
  | forgotten hr hx =>
      simp only [attemptOfAction, hr, Option.bind_some]
      rw [if_neg (by simp [hx])]
      exact Quiet.of_same rfl rfl
  | taskEnded => exact Quiet.of_same (by simp) (by simp)
  | cancelSuppressed => exact Quiet.of_same rfl rfl
  | shutdownCancelled => exact Quiet.of_same rfl rfl
  | cancelled => exact Quiet.of_same rfl rfl
  | shutdownBegun => exact Quiet.of_same rfl rfl
  | shutdownFinished => exact Quiet.of_same rfl rfl
  | keyReleased => exact Quiet.of_same rfl rfl

/-- **One step of the running path** keeps the count one of consecutive rejections, and asks
for a new key only after enough of them. -/
theorem Watched.Counts.step {s s' : Watched} {a : Action} (hs : s.Counts)
    (h : s.step a = some s') :
    s'.Counts ∧ (s'.world.client.reauths ≠ s.world.client.reauths →
      Consecutive keyFailuresBeforeReauth s'.attempts) := by
  obtain ⟨w, hw, rfl⟩ := Option.map_eq_some_iff.mp h
  have hcounted := step_counted hw
  have hquiet : Quiet s.world.dev s.world.client w.dev w.client →
      w.client.keyFailures = 0 ∨ w.client.keyFailures = s.world.client.keyFailures := fun hq =>
    hq.count.imp id And.left
  have havailable : Quiet s.world.dev s.world.client w.dev w.client →
      w.dev.available = true → w.client.keyFailures = 0 := by
    intro hq hon
    rcases hq.count with hzero | ⟨hsame, hwas⟩
    · exact hzero
    · exact hsame.trans (hs.available (hwas hon))
  cases hattempt : attemptOfAction s.world a with
  | none =>
      rw [hattempt] at hcounted
      have hq : Quiet s.world.dev s.world.client w.dev w.client := hcounted
      refine ⟨⟨?_, havailable hq⟩, fun hne => absurd hq.reauths hne⟩
      rcases hquiet hq with hzero | hsame
      · exact hzero ▸ Consecutive.zero _
      · exact hsame ▸ hs.count
  | some attempt =>
      rw [hattempt] at hcounted
      cases attempt with
      | accepted =>
          obtain ⟨hq, hon⟩ := hcounted
          have hzero := havailable hq hon
          exact ⟨⟨hzero ▸ Consecutive.zero _, fun _ => hzero⟩, fun hne => absurd hq.reauths hne⟩
      | rejected =>
          obtain ⟨hcount, hoff, hasked⟩ := hcounted
          have hcons : Consecutive w.client.keyFailures (.rejected :: s.attempts) :=
            hcount ▸ hs.count.cons
          exact ⟨⟨hcons, fun hon => absurd (hoff.symm.trans hon) (by simp)⟩,
            fun hne => hasked hne ▸ hcons⟩
      | unreachable =>
          obtain ⟨hzero, hsame⟩ := hcounted
          exact ⟨⟨hzero ▸ Consecutive.zero _, fun _ => hzero⟩, fun hne => absurd hsame hne⟩

/-- **A new key is asked for after consecutive rejections**, for every entry.  On the setup path:
in every run of setups that reset the count, a setup that raises `ConfigEntryAuthFailed` ends
enough consecutive rejections.  On the running path: in every run of a device, a step that starts
a re-authentication does. -/
theorem reauth_after_rejections (entry : EntryData) (config : DeviceConfig)
    (searches : Searches) :
    (∀ (setups : List SetupAttempt) (s : Setups), Run Setups.step ResetsCount {} setups s →
      s.ended = some .authFailed → Consecutive keyFailuresBeforeReauth s.attempts) ∧
    ∀ (as : List Action) (a : Action) (s s' : Watched),
      Run Watched.step Anything ⟨Coordinator.start entry config searches, []⟩ as s →
      s.step a = some s' → s'.world.client.reauths ≠ s.world.client.reauths →
      Consecutive keyFailuresBeforeReauth s'.attempts := by
  refine ⟨fun setups s hrun => ?_, fun as a s s' hrun hstep => ?_⟩
  · have hinit : Setups.Counts {} := .none rfl (by simp)
    exact (hrun.invariant Setups.Counts (fun _ _ _ hs hok h => hs.step hok h) hinit).asked
  · have hinit : Watched.Counts ⟨Coordinator.start entry config searches, []⟩ :=
      ⟨Consecutive.zero _, fun h => absurd h (by simp [Coordinator.start, World.init])⟩
    have hs := hrun.invariant Watched.Counts (fun _ _ _ hs _ h => (hs.step h).1) hinit
    exact (hs.step hstep).2

/-! ## Examples -/

/-- A setup of the example's entry that ends at its first attempt. -/
def setupAttempt (first : Connected) : SetupAttempt where
  first
  follow := .ok false
  second := first
  coordinator := { entry := Coordinator.exampleEntry }
  host := exampleConfig.host
  version := none
  now := 0

def setupRejected : SetupAttempt := setupAttempt (.failed (.lan .invalidLocalKey))

def setupUnreachable : SetupAttempt := setupAttempt (.failed (.lan (.unreachable .cannotConnect)))

/-- The library's answer to a wrong local key. -/
def keyRejectedReply : Reply where
  outcome := .ok (.obj [(py "Err", .str (py "914"))])
  socket := false

/-- The background task opens a connection, is rejected and sleeps. -/
def rejectedOpen : List Action :=
  [.take, .listVersions, .tryVersion none, .answer keyRejectedReply none, .tryVersion none,
    .resume 0 0]

instance (n : ℕ) (attempts : List Attempt) : Decidable (Consecutive n attempts) :=
  inferInstanceAs (Decidable (_ <+: _))

/-- Three rejections of a setup, and three of a running device.  Both ask the user once, at the
third. -/
theorem reauth_after_three_rejections :
    (∃ s, Run Setups.step ResetsCount {} [setupRejected, setupRejected, setupRejected] s ∧
      s.ended = some .authFailed ∧ Consecutive keyFailuresBeforeReauth s.attempts) ∧
    ∃ s s' : Watched, s'.world.client.reauths = s.world.client.reauths + 1 ∧
      Consecutive keyFailuresBeforeReauth s'.attempts := by
  constructor
  · have hrun : Run Setups.step ResetsCount {} [setupRejected, setupRejected, setupRejected] _ :=
      Run.of_meets rfl (by decide)
    exact ⟨_, hrun, rfl,
      (reauth_after_rejections Coordinator.exampleEntry exampleConfig {}).1 _ _ hrun rfl⟩
  · let start : Watched := ⟨Coordinator.start Coordinator.exampleEntry exampleConfig {}, []⟩
    let actions := [.start, .begin 0] ++ rejectedOpen ++ [.timeout 1] ++ rejectedOpen ++
      [.timeout 2] ++ rejectedOpen.dropLast
    let execution := exec Watched.step start actions
    obtain ⟨s, hs⟩ := Option.isSome_iff_exists.mp (show execution.isSome = true by decide +kernel)
    have hfacts : ∀ s ∈ execution, ∃ s' ∈ s.step (.resume 0 2),
        s'.world.client.reauths = s.world.client.reauths + 1 := by decide +kernel
    obtain ⟨s', hs', hreauth⟩ := hfacts s hs
    exact ⟨s, s', hreauth, (reauth_after_rejections _ _ _).2 _ _ _ _ (Run.of_exec hs) hs'
      (by omega)⟩

/-- **An unreachable purifier does not reset the count of the setup path.**  A rejection, a
setup that finds nothing at the address, and two more rejections ask for a new key. -/
theorem setup_asks_without_three_rejections :
    ∃ s, Run Setups.step Anything {}
        [setupRejected, setupUnreachable, setupRejected, setupRejected] s ∧
      s.ended = some .authFailed ∧ ¬ Consecutive keyFailuresBeforeReauth s.attempts := by
  refine ⟨_, Run.of_exec rfl, rfl, ?_⟩
  decide

end Purifier
