import HaBirdie.LanDeviceJobs

/-!
# What a coroutine does with a result

`_run` and the owner's calls take up results at many places, and do one of few things with each:
they handle the report of a successful open, a full status or a push, announce that the device
has become unavailable, or handle nothing (`Applied`).  Then they go on to their next await, which
changes neither the known DPs nor what the owner was told (`Onward`).

`loopResume_applied` and `callResume_applied` say that these are all, so that facts about reports
need no case split over program counters.
-/

namespace Lan

open Python

variable {γ : Type} {cb : Callbacks γ}

/-- The DPs of a result that were read successfully. -/
def Result.report (r : Result) : Option PyDict :=
  match r.value with
  | .opened _ dps | .dps dps => some dps
  | .received dps => dps
  | _ => none

/-- A full status was read, by `_w_status` or `_w_open`. -/
def Result.isFull (r : Result) : Bool :=
  match r.value with
  | .opened _ _ | .dps _ => true
  | _ => false

/-- A full status is a report. -/
theorem not_full {r : Result} (hreport : r.report = none) : r.isFull = false := by
  obtain ⟨x, job, value⟩ := r
  cases value with
  | opened version dps => exact absurd hreport (by simp [Result.report])
  | dps dps => exact absurd hreport (by simp [Result.report])
  | _ => rfl

/-- The DPs after one more result. -/
def mergeResult (known : PyDict) (r : Result) : PyDict :=
  match r.report with
  | some report => known.update report
  | none => known

/-- Merging a report without DPs changes nothing. -/
theorem update_of_isEmpty {known report : PyDict} (h : report.entries.isEmpty = true) :
    known.update report = known := by
  obtain rfl : report = ∅ := AList.ext (List.isEmpty_iff.mp h)
  exact AList.empty_union

/-- The known DPs and `_refresh_at` are as before. -/
structure SameData (d d' : Device) : Prop where
  dps : d'.dps = d.dps
  refreshAt : d'.refreshAt = d.refreshAt

/-- What keeps the data twice keeps it. -/
theorem SameData.trans {d d' d'' : Device} (h : SameData d d') (h' : SameData d' d'') :
    SameData d d'' :=
  ⟨h'.dps.trans h.dps, h'.refreshAt.trans h.refreshAt⟩

/-- Announcing the availability changes no DPs. -/
theorem setAvailable_sameData (now : ℚ) (available : Bool) (error : Option LanError)
    (dev : Device) (client : γ) :
    SameData dev (setAvailable cb now available error dev client).dev := by
  unfold setAvailable
  split
  · exact ⟨rfl, rfl⟩
  · exact ⟨rfl, rfl⟩

/-- Announcing that an open failed changes none either. -/
theorem openFailed_sameData (now : ℚ) (error : LanError) (dev : Device) (client : γ) :
    SameData dev (openFailed cb now error dev client).dev := by
  let dev' : Device := { dev with lastError := some error }
  have hdata : SameData dev dev' := ⟨rfl, rfl⟩
  have hset : SameData dev' (setAvailable cb now false (some error) dev' client).dev :=
    setAvailable_sameData now false (some error) dev' client
  exact Handled.andThen_rel (fun _ _ _ => SameData.trans) (hdata.trans hset) fun d _ => ⟨rfl, rfl⟩

/-- The worker notes times only. -/
theorem noteTimes_sameData (c : LibraryCall) (reply : Reply) (now : ℚ) (dev : Device) :
    SameData dev (World.noteTimes c reply now dev) := by
  cases c with
  | receive => unfold World.noteTimes; dsimp only; split <;> exact ⟨rfl, rfl⟩
  | _ => exact ⟨rfl, rfl⟩

/-- The worker leaves the DPs and `_refresh_at` to the event loop. -/
theorem World.WorkerMove.sameData {w w' : World γ} {a : Action} (h : World.WorkerMove w a w') :
    SameData w.dev w'.dev := by
  cases h with
  | took => exact ⟨by simp, by simp⟩
  | dropped => exact ⟨by simp [World.post], by simp [World.post]⟩
  | @callReturned reply now _ c => exact noteTimes_sameData c reply now w.dev
  | _ => exact ⟨rfl, rfl⟩

/-- What handling a result comes to. -/
inductive Applied (cb : Callbacks γ) (now : ℚ) (d : Device) (c : γ) (r : Result) :
    Handled γ → Prop
  | opened {version : PyStr} {dps : PyDict} (hvalue : r.value = .opened version dps) :
      Applied cb now d c r (handleConnected cb now version dps d c)
  | full {dps : PyDict} (hvalue : r.value = .dps dps) :
      Applied cb now d c r (handleDps cb now dps true d c)
  | pushed {dps : PyDict} (hvalue : r.value = .received (some dps)) :
      Applied cb now d c r (handleDps cb now dps false d c)
  | unavailable {error : Option LanError} (hreport : r.report = none) :
      Applied cb now d c r (setAvailable cb now false error d c)
  | openFailed {error : LanError} (hreport : r.report = none) :
      Applied cb now d c r (openFailed cb now error d c)
  | nothing {d' : Device} (hfull : r.isFull = false)
      (hempty : ∀ report, r.report = some report → report.entries.isEmpty = true)
      (hdps : d'.dps = d.dps) (hrefresh : d.refreshAt ≠ none → d'.refreshAt ≠ none)
      (havailable : d'.available = d.available) : Applied cb now d c r ⟨d', c, none⟩

/-- A result without a report, of which nothing is handled. -/
theorem Applied.unread {now : ℚ} {d : Device} {c : γ} {r : Result} (hreport : r.report = none) :
    Applied cb now d c r ⟨d, c, none⟩ :=
  .nothing (not_full hreport) (fun _ hr => absurd (hreport.symm.trans hr) (by simp)) rfl id rfl

/-- What a coroutine does after that, up to its next await: the known DPs and the owner's state
stay, and a set `_refresh_at` stays or leads to a status. -/
structure Onward {pc : Type} (awaits : pc → Option Job) (h : Handled γ) (t : Turn γ pc) : Prop where
  dps : t.dev.dps = h.dev.dps
  client : t.client = h.client
  refresh : h.dev.refreshAt ≠ none →
    t.dev.refreshAt ≠ none ∨ awaits t.pc = some (.wCall .status)

/-- A turn that changes neither the data nor the client goes on. -/
theorem Onward.same {pc : Type} {awaits : pc → Option Job} {h : Handled γ} {t : Turn γ pc}
    (hdata : SameData h.dev t.dev) (hclient : t.client = h.client) : Onward awaits h t := by
  refine ⟨hdata.dps, hclient, fun hset => ?_⟩
  rw [hdata.refreshAt]
  exact Or.inl hset

/-- After its callbacks a coroutine goes on as the turn that follows them does, or dies of what
they raised. -/
theorem Handled.onward {pc : Type} {awaits : pc → Option Job} (h : Handled γ)
    {fail : PyException → pc} {k : Device → γ → Turn γ pc}
    (hk : ∀ d c, Onward awaits ⟨d, c, none⟩ (k d c)) : Onward awaits h (h.turn fail k) := by
  unfold Handled.turn
  cases h.raised with
  | some e => exact .same ⟨rfl, rfl⟩ rfl
  | none =>
      have hnext := hk h.dev h.client
      exact ⟨hnext.dps, hnext.client, hnext.refresh⟩

/-- A pass of `_run` goes on from one await to the next.  Its conditions are looked at in the order
of the source. -/
theorem loopTop_onward (now backoff : ℚ) (d : Device) (c : γ) :
    Onward Loop.awaits ⟨d, c, none⟩ (loopTop now backoff d c) := by
  unfold loopTop
  split
  · exact .same ⟨rfl, rfl⟩ rfl
  split
  · exact .same ⟨rfl, rfl⟩ rfl
  unfold loopStep
  split
  · exact .same ⟨rfl, rfl⟩ rfl
  split
  · exact ⟨rfl, rfl, fun _ => Or.inr rfl⟩
  split
  · exact .same ⟨rfl, rfl⟩ rfl
  · exact .same ⟨rfl, rfl⟩ rfl

/-- So does `_run` where a step of it failed. -/
theorem loopFailed_onward (backoff : ℚ) (r : Raised) (d : Device) (c : γ) :
    Onward Loop.awaits ⟨d, c, none⟩ (loopFailed backoff r d c) := by
  unfold loopFailed
  split
  · exact .same ⟨rfl, rfl⟩ rfl
  · exact .same ⟨rfl, rfl⟩ rfl

/-- And a call whose job failed. -/
theorem callFailed_onward (op : Operation) (dropping : LostReason → Call) (r : Raised)
    (d : Device) (c : γ) : Onward Call.awaits ⟨d, c, none⟩ (callFailed op dropping r d c) := by
  unfold callFailed
  split
  · exact .same ⟨rfl, rfl⟩ rfl
  · exact .same ⟨rfl, rfl⟩ rfl

/-- A coroutine goes on to another place and leaves everything else. -/
theorem Onward.stay {pc : Type} {awaits : pc → Option Job} (d : Device) (c : γ) (p : pc) :
    Onward awaits ⟨d, c, none⟩ ⟨d, c, p⟩ :=
  .same ⟨rfl, rfl⟩ rfl

/-- **`_run` takes up a result**: it handles it and goes on.  What it handles depends on the result
alone, where it goes on also on its place. -/
theorem loopResume_applied {now : ℚ} {d : Device} {c : γ} {pc : Loop} {r : Result}
    {t : Turn γ Loop} (h : loopResume cb now d c pc r.value = some t) :
    ∃ handled, Applied cb now d c r handled ∧ Onward Loop.awaits handled t := by
  obtain ⟨x, job, value⟩ := r
  cases pc with
  | opening b =>
      cases value with
      | opened version dps =>
          obtain rfl := Option.some.inj h
          exact ⟨_, .opened rfl, Handled.onward _ (loopTop_onward now _)⟩
      | raised r =>
          cases r with
          | lan e =>
              obtain rfl := Option.some.inj h
              exact ⟨_, .openFailed rfl, Handled.onward _ fun _ _ => .same ⟨rfl, rfl⟩ rfl⟩
          | foreign e =>
              obtain rfl := Option.some.inj h
              exact ⟨_, .unread rfl, .stay d c _⟩
      | _ => exact absurd h (by simp [loopResume])
  | reading b =>
      cases value with
      | dps dps =>
          obtain rfl := Option.some.inj h
          exact ⟨_, .full rfl, Handled.onward _ (loopTop_onward now b)⟩
      | raised r =>
          obtain rfl := Option.some.inj h
          exact ⟨_, .unread rfl, loopFailed_onward b r d c⟩
      | _ => exact absurd h (by simp [loopResume])
  | beating b =>
      cases value with
      | done =>
          obtain rfl := Option.some.inj h
          exact ⟨_, .unread rfl, .stay d c _⟩
      | raised r =>
          obtain rfl := Option.some.inj h
          exact ⟨_, .unread rfl, loopFailed_onward b r d c⟩
      | _ => exact absurd h (by simp [loopResume])
  | receiving b =>
      cases value with
      | received dps? =>
          cases dps? with
          | none =>
              obtain rfl := Option.some.inj h
              exact ⟨_, .unread rfl, loopTop_onward now b d c⟩
          | some dps =>
              simp only [loopResume] at h
              split at h
              · rename_i hempty
                obtain rfl := Option.some.inj h
                refine ⟨_, .nothing rfl (fun report hreport => ?_) rfl id rfl,
                  loopTop_onward now b d c⟩
                obtain rfl := Option.some.inj hreport
                exact hempty
              · obtain rfl := Option.some.inj h
                exact ⟨_, .pushed rfl, Handled.onward _ (loopTop_onward now b)⟩
      | raised r =>
          obtain rfl := Option.some.inj h
          exact ⟨_, .unread rfl, loopFailed_onward b r d c⟩
      | _ => exact absurd h (by simp [loopResume])
  | dropping b why =>
      cases value with
      | done =>
          obtain rfl := Option.some.inj h
          exact ⟨_, .unavailable rfl, Handled.onward _ fun _ _ => .same ⟨rfl, rfl⟩ rfl⟩
      | raised r =>
          obtain rfl := Option.some.inj h
          exact ⟨_, .unread rfl, .stay d c _⟩
      | _ => exact absurd h (by simp [loopResume])
  | _ => exact absurd h (by simp [loopResume])

/-- **A call takes up a result**: it handles it and goes on.  The handling is the same as that of
`_run`, so invariants about it are shown once. -/
theorem callResume_applied {now : ℚ} {d : Device} {c : γ} {pc : Call} {r : Result}
    {t : Turn γ Call} (h : callResume cb now d c pc r.value = some t) :
    ∃ handled, Applied cb now d c r handled ∧ Onward Call.awaits handled t := by
  obtain ⟨x, job, value⟩ := r
  have hraised : ∀ {r : Raised}, value = .raised r → Onward Call.awaits ⟨d, c, none⟩ t →
      ∃ handled, Applied cb now d c ⟨x, job, value⟩ handled ∧ Onward Call.awaits handled t := by
    intro r heq honward
    obtain rfl := heq
    exact ⟨_, .unread rfl, honward⟩
  cases pc with
  | connecting =>
      cases value with
      | opened version dps =>
          obtain rfl := Option.some.inj h
          exact ⟨_, .opened rfl, Handled.onward _ fun d c => .stay d c _⟩
      | raised r =>
          obtain rfl := Option.some.inj h
          exact hraised rfl (.stay d c _)
      | _ => exact absurd h (by simp [callResume])
  | refreshing =>
      cases value with
      | dps dps =>
          obtain rfl := Option.some.inj h
          exact ⟨_, .full rfl, Handled.onward _ fun d c => .stay d c _⟩
      | raised r =>
          obtain rfl := Option.some.inj h
          exact hraised rfl (callFailed_onward _ _ r d c)
      | _ => exact absurd h (by simp [callResume])
  | refreshLost why =>
      cases value with
      | done =>
          obtain rfl := Option.some.inj h
          exact ⟨_, .unavailable rfl, Handled.onward _ fun d c => .stay d c _⟩
      | raised r =>
          obtain rfl := Option.some.inj h
          exact hraised rfl (.stay d c _)
      | _ => exact absurd h (by simp [callResume])
  | setting dps =>
      cases value with
      | done =>
          obtain rfl := Option.some.inj h
          let d' : Device := { d with refreshAt := some (now + d.timings.refreshAfterCommand) }
          exact ⟨⟨d', c, none⟩, .nothing rfl (fun _ hr => absurd hr (by simp [Result.report])) rfl
            (by simp [d']) rfl, .stay d' c _⟩
      | raised r =>
          obtain rfl := Option.some.inj h
          exact hraised rfl (callFailed_onward _ _ r d c)
      | _ => exact absurd h (by simp [callResume])
  | settingLost why =>
      cases value with
      | done =>
          obtain rfl := Option.some.inj h
          exact ⟨_, .unavailable rfl, Handled.onward _ fun d c => .stay d c _⟩
      | raised r =>
          obtain rfl := Option.some.inj h
          exact hraised rfl (.stay d c _)
      | _ => exact absurd h (by simp [callResume])
  | reconfiguring =>
      cases value with
      | done =>
          obtain rfl := Option.some.inj h
          by_cases hav : d.available = true
          · rw [if_pos hav]
            exact ⟨_, .unavailable rfl, Handled.onward _ fun _ _ => .same ⟨rfl, rfl⟩ rfl⟩
          · rw [if_neg hav]
            exact ⟨_, .unread rfl, .same ⟨rfl, rfl⟩ rfl⟩
      | raised r =>
          obtain rfl := Option.some.inj h
          exact hraised rfl (.stay d c _)
      | _ => exact absurd h (by simp [callResume])
  | closeDropping =>
      cases value with
      | done =>
          obtain rfl := Option.some.inj h
          exact ⟨_, .unread rfl, .stay d c _⟩
      | raised r =>
          obtain rfl := Option.some.inj h
          exact hraised rfl (.stay d c _)
      | _ => exact absurd h (by simp [callResume])
  | _ => exact absurd h (by simp [callResume])

namespace World

/-- After a sleep `_run` goes to the head of its loop. -/
theorem loopWake_top {now : ℚ} {d : Device} {c : γ} {pc : Loop} {t : Turn γ Loop}
    (h : loopWake now d c pc = some t) : ∃ backoff, t = loopTop now backoff d c := by
  cases pc with
  | backingOff b => exact ⟨_, (Option.some.inj h).symm⟩
  | pausing b => exact ⟨_, (Option.some.inj h).symm⟩
  | _ => exact absurd h (by simp [loopWake])

end World

end Lan
