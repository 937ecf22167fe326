import HaBirdie.AcceptedSettings
import HaBirdie.LanSearchResult
import HaBirdie.SearchAddresses

/-!
# What the config flow reaches on the network

`async_search_network` lists the addresses around the interfaces of the machine, keeps those that
accept a connection, and looks there for the device.  It is a task with the ID, the key and the
version of a `_NetworkSearch`; the config flow only takes what it returns.

What it returns was connected to: a `LanDevice` with that ID, key and version, at the host that is
reported, whose `async_connect` returned the report (`Lan.SearchNetwork.found_reached`).  So was
what a step checked.  In a run whose searches and checks are those of the network, every purifier
that a flow adds has the ID, the key and the host of a `LanDevice` that connected (`added_reached`).
-/

namespace Lan

open Python StepRuns

/-! ## Devices that connected -/

/-- The settings of the device stay as it was created with. -/
def KeepsSettings (_ : World Unit) (a : Action) : Prop :=
  ∀ changes, a ≠ .request (.reconfigure changes)

/-- The device was created with these settings, and has kept them. -/
def HasSettings (config : DeviceConfig) (timings : Timings) (hint : Option PyStr)
    (w : World Unit) : Prop :=
  ∃ as, Run (World.step (Callbacks.none Unit)) KeepsSettings
    (World.init config timings hint ()) as w

/-- The first call of the device is an `async_connect`, which ended so. -/
def World.Connected (w : World Unit) (ending : Ending) : Prop :=
  w.calls[0]? = some (.done .connect ending)

/-- A `LanDevice` with these settings connected, and reported `dps`. -/
def Reached (config : DeviceConfig) (dps : PyDict) : Prop :=
  ∃ timings hint w reported, HasSettings config timings hint w ∧ w.Connected (.returned reported) ∧
    reported.getD ∅ = dps

variable {config : DeviceConfig} {timings : Timings} {hint : Option PyStr} {w w' : World Unit}

/-- Every step but `async_reconfigure` keeps the settings. -/
theorem HasSettings.step {a : Action} (hw : HasSettings config timings hint w)
    (hkeeps : KeepsSettings w a) (h : w.step (Callbacks.none Unit) a = some w') :
    HasSettings config timings hint w' := by
  obtain ⟨as, hrun⟩ := hw
  exact ⟨as ++ [a], hrun.concat hkeeps h⟩

/-- How `async_connect` ended does not change any more. -/
theorem World.Connected.step {a : Action} {ending : Ending} (hw : w.Connected ending)
    (h : w.step (Callbacks.none Unit) a = some w') : w'.Connected ending :=
  call_stays h hw (Or.inr rfl)

/-! ## Attempts -/

namespace SearchAttempt

/-- The device of the attempt connected, and reported `dps`. -/
def Answered (a : SearchAttempt) (dps : PyDict) : Prop :=
  ∃ w ∈ a.device, ∃ reported, w.Connected (.returned reported) ∧ reported.getD ∅ = dps

/-- The device of an attempt has the settings of the search and the host of the attempt, and what
the attempt returns is what that device reported. -/
structure Genuine (settings : SearchSettings) (a : SearchAttempt) : Prop where
  device : ∀ w ∈ a.device, ∃ config,
    DeviceConfig.make settings.deviceId a.host settings.localKey settings.protocolVersion
      settings.port = .ok config ∧
    HasSettings config settings.timings none w
  connects : ∀ w ∈ a.device, ∃ c, w.calls[0]? = some c ∧ c.op = .connect
  leaving : ∀ dps, a.stage = .closing (.connected dps) → a.Answered dps
  found : ∀ f, a.stage = .done (.returned (some f)) → f.host = a.host ∧ a.Answered f.dps

variable {settings : SearchSettings} {a a' : SearchAttempt} {configured : PyStr}

/-- An attempt that waits has no device yet. -/
theorem Genuine.waiting (settings : SearchSettings) (host : PyStr) :
    Genuine settings { host } :=
  ⟨by simp, by simp, by simp, by simp⟩

/-- The device that an attempt creates has the settings of the search.  Its host is the
candidate's, and the rest is configured. -/
theorem Genuine.begin (ha : Genuine settings a) : Genuine settings (a.begin settings) := by
  unfold SearchAttempt.begin
  cases hmake : DeviceConfig.make settings.deviceId a.host settings.localKey
      settings.protocolVersion settings.port with
  | error e => exact ⟨ha.device, ha.connects, by simp, by simp⟩
  | ok config =>
      have hrequest : (World.init config settings.timings none ()).step (Callbacks.none Unit)
          (.request .connect) =
            some ((World.init config settings.timings none ()).request .connect) := rfl
      refine ⟨fun w hw => ?_, fun w hw => ?_, by simp, by simp⟩
      · obtain rfl := Option.some.inj hw
        refine ⟨config, hmake, HasSettings.step ⟨[], Run.nil _⟩ ?_ hrequest⟩
        exact fun _ => by simp
      · obtain rfl := Option.some.inj hw
        exact ⟨.connecting, rfl, rfl⟩

/-- A step of its device, but `async_reconfigure`, leaves an attempt genuine.  What its worker
opens it opens with the settings that the device was created with. -/
theorem Genuine.moves {action : Action} {w w' : World Unit} (ha : Genuine settings a)
    (hdevice : a.device = some w) (hkeeps : KeepsSettings w action)
    (h : w.step (Callbacks.none Unit) action = some w') :
    Genuine settings { a with device := some w' } := by
  have hanswered : ∀ dps, a.Answered dps → Answered { a with device := some w' } dps := by
    intro dps hold
    obtain ⟨w₀, hw₀, reported, hconnected, hdps⟩ := hold
    obtain rfl : w = w₀ := Option.some.inj (hdevice.symm.trans hw₀)
    exact ⟨w', rfl, reported, hconnected.step h, hdps⟩
  obtain ⟨config, hmake, hsettings⟩ := ha.device w hdevice
  obtain ⟨c, hc, hop⟩ := ha.connects w hdevice
  obtain ⟨c', hc', hop'⟩ := World.call_after h hc
  refine ⟨fun w₀ hw₀ => ?_, fun w₀ hw₀ => ?_, fun dps hstage => ?_, fun f hstage => ?_⟩
  · obtain rfl := Option.some.inj hw₀
    exact ⟨config, hmake, hsettings.step hkeeps h⟩
  · obtain rfl := Option.some.inj hw₀
    exact ⟨c', hc', hop'.trans hop⟩
  · exact hanswered dps (ha.leaving dps hstage)
  · exact ⟨(ha.found f hstage).1, hanswered f.dps (ha.found f hstage).2⟩

/-- What `finally` goes on with was reported by the device. -/
theorem leaving_connected {e : Ending} {dps : PyDict} (h : e.leaving = .connected dps) :
    ∃ reported, e = .returned reported ∧ reported.getD ∅ = dps := by
  cases e with
  | returned reported => exact ⟨reported, rfl, Leaving.connected.inj h⟩
  | raised r => cases r <;> exact absurd h (by simp [Ending.leaving])
  | cancelled => exact absurd h (by simp [Ending.leaving])

/-- An attempt returns a device only where `async_connect` had returned. -/
theorem ending_found {host : PyStr} {w : World Unit} {leaving : Leaving} {e : Ending}
    {f : FoundDevice} (h : ending configured host w leaving e = .returned (some f)) :
    leaving = .connected f.dps ∧ f.host = host := by
  cases e with
  | returned reported =>
      cases leaving with
      | connected dps =>
          obtain rfl := Option.some.inj (TaskEnd.returned.inj h)
          exact ⟨rfl, rfl⟩
      | _ => exact absurd h (by simp [ending])
  | _ => exact absurd h (by simp [ending])

/-- Where a call has ended, the attempt goes on with what it came to.  A connect that returned has
opened a connection before, to this host. -/
theorem Genuine.goOn (ha : Genuine settings a) (configured : PyStr) :
    Genuine settings (a.goOn configured) := by
  unfold SearchAttempt.goOn
  split
  · rename_i w hdevice hstage
    split
    · rename_i op e hcall
      obtain ⟨c, hc, hop⟩ := ha.connects w hdevice
      obtain rfl : Call.done op e = c := Option.some.inj (hcall.symm.trans hc)
      obtain rfl : op = .connect := hop
      have hclose : w.step (Callbacks.none Unit) (.request .close) = some (w.request .close) := rfl
      have hmoved := ha.moves hdevice (fun _ => by simp) hclose
      refine ⟨hmoved.device, hmoved.connects, fun dps hleaving => ?_, by simp⟩
      obtain ⟨reported, rfl, hdps⟩ := leaving_connected (Stage.closing.inj hleaving)
      exact ⟨w.request .close, rfl, reported, World.Connected.step hcall hclose, hdps⟩
    · exact ha
  · rename_i w leaving hdevice hstage
    split
    · rename_i op e hcall
      refine ⟨ha.device, ha.connects, by simp, fun f hdone => ?_⟩
      obtain ⟨rfl, hhost⟩ := ending_found (Stage.done.inj hdone)
      exact ⟨hhost, ha.leaving f.dps hstage⟩
    · exact ha
  · exact ha

/-- A step of its device takes a genuine attempt on. -/
theorem Genuine.onDevice {action : Action} (ha : Genuine settings a)
    (howner : action.isOwners = false) (h : a.onDevice configured action = some a') :
    Genuine settings a' := by
  obtain ⟨w, w', hdevice, hw', rfl⟩ := onDevice_spec h
  have hmoved := ha.moves hdevice (fun _ => (Action.not_owners howner).2 _) hw'
  split
  · exact hmoved.goOn configured
  · exact hmoved

/-- A cancelled call of its device leaves an attempt genuine. -/
theorem Genuine.cancelCall (ha : Genuine settings a) (i : ℕ) :
    Genuine settings { a with device := a.device.map fun w => (w.cancel i).getD w } := by
  cases hdevice : a.device with
  | none => exact ⟨by simp, by simp, by simpa [Answered, hdevice] using ha.leaving,
      by simpa [Answered, hdevice] using ha.found⟩
  | some w =>
      have hsame : { a with device := some w } = a := by rw [← hdevice]
      cases hcancel : w.cancel i with
      | none => simpa [hcancel, hsame] using ha
      | some w' =>
          have hstep : w.step (Callbacks.none Unit) (.cancel i) = some w' := hcancel
          simpa [hcancel] using ha.moves hdevice (fun _ => by simp) hstep

/-- A cancellation leaves an attempt genuine. -/
theorem Genuine.cancel (ha : Genuine settings a) : Genuine settings a.cancel := by
  unfold SearchAttempt.cancel
  split
  · exact ⟨ha.device, ha.connects, by simp, by simp⟩
  · exact ha.cancelCall 0
  · exact ha.cancelCall 1
  · exact ha

@[simp] theorem host_begin (settings : SearchSettings) (a : SearchAttempt) :
    (a.begin settings).host = a.host := by
  unfold SearchAttempt.begin
  split
  · rfl
  · rfl

@[simp] theorem host_goOn (configured : PyStr) (a : SearchAttempt) :
    (a.goOn configured).host = a.host := by
  unfold SearchAttempt.goOn
  split
  · split
    · rfl
    · rfl
  · split
    · rfl
    · rfl
  · rfl

@[simp] theorem host_cancel (a : SearchAttempt) : a.cancel.host = a.host := by
  unfold SearchAttempt.cancel
  split
  · rfl
  · rfl
  · rfl
  · rfl

/-- A step of its device does not move an attempt to another host. -/
theorem host_onDevice {action : Action} (h : a.onDevice configured action = some a') :
    a'.host = a.host := by
  obtain ⟨w, w', _, _, rfl⟩ := onDevice_spec h
  split
  · exact host_goOn configured _
  · rfl

end SearchAttempt

/-! ## Searches -/

namespace Search

/-- Every attempt is genuine and at a candidate, and where the search ends with a device, one of
its attempts returned that. -/
structure Genuine (settings : SearchSettings) (candidates : List PyStr) (s : Search) : Prop where
  same : s.settings = settings
  attempts : ∀ a ∈ s.attempts, a.Genuine settings ∧ a.host ∈ candidates
  found : ∀ f, s.phase = .stopping (.returned (some f)) ∨
    s.phase = .finished (.returned (some f)) →
      ∃ a ∈ s.attempts, a.stage = .done (.returned (some f))

variable {settings : SearchSettings} {candidates : List PyStr} {s s' : Search}

/-- Before the first attempt nothing was found. -/
theorem Genuine.start (settings : SearchSettings) (candidates : List PyStr) :
    Genuine settings candidates (Search.start settings candidates) := by
  refine ⟨rfl, fun a ha => ?_, fun f hphase => ?_⟩
  · obtain ⟨host, hhost, rfl⟩ := List.mem_map.mp ha
    exact ⟨.waiting settings host, hhost⟩
  · cases candidates with
    | nil => exact absurd hphase (by simp [Search.start])
    | cons host rest => exact absurd hphase (by simp [Search.start])

/-- An attempt goes on, and one that has ended stays as it has.  So what an ended attempt has found
is not changed by the steps of the others. -/
theorem Genuine.put (hs : Genuine settings candidates s) {i : ℕ} {a a' : SearchAttempt}
    (hi : s.attempts[i]? = some a) (ha' : a'.Genuine settings) (hhost : a'.host = a.host)
    (hdone : a.isDone = true → a'.stage = a.stage) :
    Genuine settings candidates (s.put i a a') := by
  have ha := hs.attempts a (List.mem_of_getElem? hi)
  have hlt : i < s.attempts.length := (List.getElem?_eq_some_iff.mp hi).1
  refine ⟨hs.same, fun b hb => ?_, fun f hphase => ?_⟩
  · rcases List.mem_or_eq_of_mem_set hb with hb | rfl
    · exact hs.attempts b hb
    · exact ⟨ha', hhost ▸ ha.2⟩
  · obtain ⟨b, hb, hstage⟩ := hs.found f hphase
    obtain ⟨j, hj⟩ := List.getElem?_of_mem hb
    by_cases hij : i = j
    · subst hij
      obtain rfl := Option.some.inj (hi.symm.trans hj)
      have hended : a.isDone = true := by simp [SearchAttempt.isDone, hstage]
      refine ⟨a', List.mem_of_getElem? (List.getElem?_set_self hlt), ?_⟩
      exact (hdone hended).trans hstage
    · exact ⟨b, List.mem_of_getElem? ((List.getElem?_set_ne hij).trans hj), hstage⟩

/-- The search stops with what one of its attempts came to, or without a device. -/
theorem Genuine.stop (hs : Genuine settings candidates s) {ending : TaskEnd}
    (hending : ∀ f, ending = .returned (some f) →
      ∃ a ∈ s.attempts, a.stage = .done (.returned (some f))) :
    Genuine settings candidates (s.stop ending) := by
  refine ⟨hs.same, fun b hb => ?_, fun f hphase => ?_⟩
  · obtain ⟨a, ha, rfl⟩ := List.mem_map.mp hb
    obtain ⟨hgenuine, hhost⟩ := hs.attempts a ha
    exact ⟨hgenuine.cancel, by rwa [SearchAttempt.host_cancel]⟩
  · obtain ⟨a, ha, hstage⟩ := hending f (by simpa [Search.stop] using hphase)
    refine ⟨a.cancel, List.mem_map_of_mem ha, ?_⟩
    simp [SearchAttempt.cancel, hstage]

/-- An attempt that is taken up had ended so. -/
theorem attempt_of_endOf {i : ℕ} {ending : TaskEnd} (h : s.endOf i = some ending) :
    ∃ a ∈ s.attempts, a.stage = .done ending := by
  obtain ⟨a, ha, _⟩ := Option.bind_eq_some_iff.mp h
  exact ⟨a, List.mem_of_getElem? ha, stage_of_endOf h ha⟩

/-- **Every step of the search** keeps it genuine.  An attempt begins, moves or is taken up, and
the result is that of one that was taken up. -/
theorem Genuine.step {a : SearchAction} (hs : Genuine settings candidates s)
    (h : s.step a = some s') : Genuine settings candidates s' := by
  cases a with
  | begin i =>
      obtain ⟨a, hi, hrest⟩ := Option.bind_eq_some_iff.mp h
      have ha := hs.attempts a (List.mem_of_getElem? hi)
      split at hrest
      · rename_i hstage
        split at hrest
        · obtain rfl := Option.some.inj hrest
          rw [hs.same]
          exact hs.put hi ha.1.begin (SearchAttempt.host_begin settings a)
            (by simp [SearchAttempt.isDone, hstage])
        · exact absurd hrest (by simp)
      · exact absurd hrest (by simp)
  | onDevice i action =>
      obtain ⟨a, hi, hrest⟩ := Option.bind_eq_some_iff.mp h
      have ha := hs.attempts a (List.mem_of_getElem? hi)
      split at hrest
      · exact absurd hrest (by simp)
      · rename_i howner
        obtain ⟨a', hstep, hput⟩ := Option.bind_eq_some_iff.mp hrest
        obtain rfl := Option.some.inj hput
        exact hs.put hi (ha.1.onDevice (by simpa using howner) hstep)
          (SearchAttempt.host_onDevice hstep) fun hdone => SearchAttempt.onDevice_stage hdone hstep
  | wake i =>
      obtain ⟨a, hi, hput⟩ := Option.bind_eq_some_iff.mp h
      have ha := hs.attempts a (List.mem_of_getElem? hi)
      obtain rfl := Option.some.inj hput
      exact hs.put hi (ha.1.goOn _) (SearchAttempt.host_goOn _ a)
        fun hdone => by rw [SearchAttempt.goOn_done _ hdone]
  | collect =>
      obtain ⟨i, rest, ending, _, _, hend, hgoes⟩ := collect_spec h
      have hrest : Genuine settings candidates { s with completed := rest } :=
        ⟨hs.same, hs.attempts, hs.found⟩
      rcases hgoes with ⟨_, rfl⟩ | ⟨_, _, rfl⟩
      · exact hrest.stop fun f hf => attempt_of_endOf (hf ▸ hend)
      · exact hrest
  | gathered =>
      simp only [Search.step, gathered] at h
      split at h
      · rename_i ending hphase
        split at h
        · obtain rfl := Option.some.inj h
          refine ⟨hs.same, hs.attempts, fun f hfinished => hs.found f (Or.inl ?_)⟩
          simpa [hphase] using hfinished
        · exact absurd h (by simp)
      · exact absurd h (by simp)
  | cancel =>
      simp only [Search.step, Search.cancel] at h
      split at h
      · obtain rfl := Option.some.inj h
        exact hs.stop (by simp)
      · obtain rfl := Option.some.inj h
        exact hs.stop (by simp)
      · exact absurd h (by simp)

/-- **What a search returns was connected to.**  In every run, cancelled or not: a `LanDevice` with
the ID, the key, the version and the port of the search, at the host that is returned, connected
and reported what is returned. -/
theorem found_reached {as : List SearchAction} {f : FoundDevice}
    (hrun : Run Search.step Anything (Search.start settings candidates) as s)
    (hfound : s.phase = .finished (.returned (some f))) :
    f.host ∈ candidates ∧ ∃ config,
      DeviceConfig.make settings.deviceId f.host settings.localKey settings.protocolVersion
        settings.port = .ok config ∧ Reached config f.dps := by
  have hs : Genuine settings candidates s :=
    hrun.invariant (Genuine settings candidates) (fun _ _ _ hs _ h => hs.step h)
      (Genuine.start settings candidates)
  obtain ⟨a, ha, hstage⟩ := hs.found f (Or.inr hfound)
  obtain ⟨hgenuine, hhost⟩ := hs.attempts a ha
  obtain ⟨hsame, w, hw, reported, hconnected, hdps⟩ := hgenuine.found f hstage
  obtain ⟨config, hmake, hsettings⟩ := hgenuine.device w hw
  rw [hsame]
  exact ⟨hhost, config, hmake, settings.timings, none, w, reported, hsettings, hconnected, hdps⟩

end Search

/-! ## The task of a flow -/

/-- Where `async_search_network` stands: it awaits the interfaces of the machine, then
`async_open_ports`, then its attempts. -/
inductive SearchNetwork
  | listing
  | opening (addresses : List PyStr)
  | finding (search : Search)
  | ended (ending : TaskEnd)

/-- What `async_search_network` awaits ends, raises or is cancelled. -/
inductive SearchNetworkAction
  | listed (interfaces : List IPv4Interface)
  | opened (results : List Bool)
  | finds (a : SearchAction)
  | raised (r : Raised)
  | cancelled

namespace SearchNetwork

/-- How `async_search_network` has ended. -/
def ending : SearchNetwork → Option TaskEnd
  | .ended ending => some ending
  | .finding search =>
      match search.phase with
      | .finished ending => some ending
      | _ => none
  | _ => none

section Steps

variable (isPrivate : IPv4Address → Bool) (settings : SearchSettings)

/-- `async_search_network`.  It returns at once if there is nothing to search. -/
def step : SearchNetwork → SearchNetworkAction → Option SearchNetwork
  | .listing, .listed interfaces =>
      let addresses := addressesToSearch isPrivate interfaces
      if addresses.isEmpty then some (.ended (.returned none)) else some (.opening addresses)
  | .opening addresses, .opened results =>
      if results.length = addresses.length then
        some (.finding (Search.start settings (asyncOpenPorts addresses results)))
      else none
  | .finding search, .finds a => (search.step a).map .finding
  | .listing, .raised r | .opening _, .raised r => some (.ended (.raised r))
  | .listing, .cancelled | .opening _, .cancelled => some (.ended .cancelled)
  | _, _ => none

/-- The addresses are those around interfaces that were listed, the search has gone on from its
start at some of them, and no device is found in any other way. -/
def Around (past : SearchNetwork → SearchNetworkAction → Prop) : SearchNetwork → Prop
  | .listing => True
  | .opening addresses => ∃ interfaces, past .listing (.listed interfaces) ∧
      addresses = addressesToSearch isPrivate interfaces
  | .finding search => ∃ interfaces candidates searched, past .listing (.listed interfaces) ∧
      candidates ⊆ addressesToSearch isPrivate interfaces ∧
      Run Search.step Anything (Search.start settings candidates) searched search
  | .ended ending => ∀ f, ending ≠ .returned (some f)

end Steps

variable {isPrivate : IPv4Address → Bool} {settings : SearchSettings}
  {past : SearchNetwork → SearchNetworkAction → Prop} {t t' : SearchNetwork}

/-- `async_open_ports` returns some of the addresses. -/
theorem asyncOpenPorts_subset (addresses : List PyStr) (results : List Bool) :
    asyncOpenPorts addresses results ⊆ addresses := by
  intro address haddress
  obtain ⟨p, hp, rfl⟩ := List.mem_map.mp haddress
  exact (List.of_mem_zip (List.mem_of_mem_filter hp)).1

/-- **One step** of `async_search_network`: it gets the interfaces, learns which addresses are
open, or its search takes a step. -/
theorem Around.step {a : SearchNetworkAction} (ht : Around isPrivate settings past t)
    (h : step isPrivate settings t a = some t') :
    Around isPrivate settings (since past t a) t' := by
  cases t with
  | listing =>
      cases a with
      | listed interfaces =>
          simp only [SearchNetwork.step] at h
          split at h
          · obtain rfl := Option.some.inj h
            exact fun _ => by simp
          · obtain rfl := Option.some.inj h
            exact ⟨interfaces, Or.inr ⟨rfl, rfl⟩, rfl⟩
      | raised r =>
          obtain rfl := Option.some.inj h
          exact fun _ => by simp
      | cancelled =>
          obtain rfl := Option.some.inj h
          exact fun _ => by simp
      | _ => exact absurd h (by simp [SearchNetwork.step])
  | opening addresses =>
      obtain ⟨interfaces, hlisted, rfl⟩ := ht
      cases a with
      | opened results =>
          simp only [SearchNetwork.step] at h
          split at h
          · obtain rfl := Option.some.inj h
            exact ⟨interfaces, _, [], Or.inl hlisted, asyncOpenPorts_subset _ results, Run.nil _⟩
          · exact absurd h (by simp)
      | raised r =>
          obtain rfl := Option.some.inj h
          exact fun _ => by simp
      | cancelled =>
          obtain rfl := Option.some.inj h
          exact fun _ => by simp
      | _ => exact absurd h (by simp [SearchNetwork.step])
  | finding search =>
      obtain ⟨interfaces, candidates, searched, hlisted, hcandidates, hrun⟩ := ht
      cases a with
      | finds a =>
          obtain ⟨search', hstep, rfl⟩ := Option.map_eq_some_iff.mp h
          exact ⟨interfaces, candidates, searched ++ [a], Or.inl hlisted, hcandidates,
            hrun.concat trivial hstep⟩
      | _ => exact absurd h (by simp [SearchNetwork.step])
  | ended ending => exact absurd h (by simp [SearchNetwork.step])

/-- **What `async_search_network` returns was connected to.**  In every run: the host is one around
the interfaces that were listed, and a `LanDevice` with the ID, the key and the version that
`async_search_network` was given connected there, and reported what is returned. -/
theorem found_reached {as : List SearchNetworkAction} {f : FoundDevice}
    (hrun : Run (step isPrivate settings) Anything .listing as t)
    (hfound : t.ending = some (.returned (some f))) :
    (∃ interfaces, .listed interfaces ∈ as ∧ f.host ∈ addressesToSearch isPrivate interfaces) ∧
      ∃ config, DeviceConfig.make settings.deviceId f.host settings.localKey
        settings.protocolVersion settings.port = .ok config ∧ Reached config f.dps := by
  have ht : Around isPrivate settings (Happened (step isPrivate settings) .listing as) t :=
    hrun.history (Around isPrivate settings) (fun _ _ _ _ ht _ h => ht.step h) trivial
  cases t with
  | finding search =>
      obtain ⟨interfaces, candidates, searched, hlisted, hcandidates, hsearched⟩ := ht
      have hphase : search.phase = .finished (.returned (some f)) := by
        cases hphase : search.phase with
        | finished e => simpa [SearchNetwork.ending, hphase] using hfound
        | _ => exact absurd hfound (by simp [SearchNetwork.ending, hphase])
      obtain ⟨hhost, hreached⟩ := Search.found_reached hsearched hphase
      obtain ⟨before, after, rfl, _⟩ := hlisted
      exact ⟨⟨interfaces, by simp, hcandidates hhost⟩, hreached⟩
  | ended ending => exact absurd (Option.some.inj hfound) (ht f)
  | _ => exact absurd hfound (by simp [ending])

/-- The device is found at the other address of a network of two. -/
example :
    let searched : List SearchAction :=
      Search.connectsTo 0 (statusReply true) ++ Search.closesDevice 0 ++ [.collect, .gathered]
    let actions : List SearchNetworkAction :=
      [.listed [⟨0xac110002, 30⟩], .opened [true]] ++ searched.map .finds
    ((exec (step (fun _ => true) Search.exampleSearch.settings) .listing actions).bind fun t =>
      match t.ending with
      | some (.returned (some f)) => some f.host
      | _ => none) = some (py "172.17.0.1") := by decide +kernel

end SearchNetwork

end Lan

/-! ## Flows on the network -/

namespace ConfigFlow

open Python StepRuns
open Lan (Callbacks DeviceConfig HasSettings IPv4Address Reached SearchNetwork SearchSettings World)

/-- What `async_search_network` is given. -/
def NetworkSearch.settings (n : NetworkSearch) : SearchSettings where
  deviceId := n.deviceId
  localKey := n.localKey
  protocolVersion := n.protocolVersion

variable (isPrivate : IPv4Address → Bool)

/-- The answers of the network in a flow: a search ends as an `async_search_network` with its ID,
key and version, and a check as the `async_connect` of a `LanDevice` with the settings to check. -/
def OnNetwork (s : System) : Event → Prop
  | .searched i (some found) =>
      ∀ flow ∈ s.flows[i]?, ∀ n ∈ flow.search, ∃ as t,
        Run (SearchNetwork.step isPrivate n.settings) Anything .listing as t ∧
          t.ending = some (.returned (some found))
  | .checked i k ending version true =>
      ∀ flow ∈ s.flows[i]?, ∀ config hint purpose,
        flow.calls[k]? = some (.check config hint purpose) →
          ∃ w, HasSettings config {} hint w ∧ w.Connected ending ∧ version = w.dev.version
  | _ => True

variable {isPrivate}

/-- **A connection of a flow is one of a `LanDevice`.** -/
theorem Connects.reached {s : System} {i : ℕ} {deviceId localKey host : PyStr} {dps : PyDict}
    {event : Event} (h : Connects s i deviceId localKey host dps event)
    (hok : OnNetwork isPrivate s event) :
    ∃ config : DeviceConfig, config.deviceId = deviceId ∧ config.localKey = localKey ∧
      config.host = host ∧ Reached config dps := by
  cases h with
  | @checked k flow config hint version purpose reported hflow hcall hid hkey hhost hdps =>
      obtain ⟨w, hsettings, hconnected, _⟩ := hok flow hflow config hint purpose hcall
      exact ⟨config, hid, hkey, hhost, {}, hint, w, reported, hsettings, hconnected, hdps⟩
  | @searched flow search found hflow hsearch hid hkey hhost hdps =>
      obtain ⟨as, t, hrun, hfound⟩ := hok flow hflow search hsearch
      obtain ⟨_, config, hmake, hreached⟩ := SearchNetwork.found_reached hrun hfound
      obtain ⟨hid', hhost', hkey', _⟩ := DeviceConfig.make_ok hmake
      exact ⟨config, hid'.trans hid, hkey'.trans hkey, hhost'.trans hhost, hdps ▸ hreached⟩

/-- **A purifier that a flow adds was connected to.**  In every run of any number of flows whose
searches and checks are those of the network: the ID, the key and the host of a new purifier entry
are those of a `LanDevice` that was created with them and whose `async_connect` returned. -/
theorem added_reached {as : List Event} {s s' : System} {event : Event}
    (hrun : Run System.step (OnNetwork isPrivate) {} as s) (hok : OnNetwork isPrivate s event)
    (h : s.step event = some s') {e : Entry} (he : e ∈ s'.registry.entries)
    (hpurifier : e.data.isPurifier = true)
    (hnew : ∀ e₀ ∈ s.registry.entries, e₀.entryId ≠ e.entryId) :
    ∃ (config : DeviceConfig) (dps : PyDict), e.data.deviceId = some config.deviceId ∧
      e.data.localKey = some config.localKey ∧ e.data.host = some config.host ∧
      Reached config dps := by
  have hs : s.Backed (Happened System.step {} as) :=
    hrun.history (fun past s => s.Backed past) (fun _ _ _ _ hs _ h => hs.step h)
      System.Backed.empty
  obtain ⟨i, _, deviceId, localKey, host, dps, hid, hkey, hhost, _, _, _, hconnected, _⟩ :=
    hs.created h he hpurifier hnew
  obtain ⟨u, connecting, hpast, hconnects⟩ := hconnected
  have hnetwork : OnNetwork isPrivate u connecting := by
    rcases hpast with hpast | ⟨rfl, rfl⟩
    · exact hrun.ok_of_happened hpast
    · exact hok
  obtain ⟨config, rfl, rfl, rfl, hreached⟩ := hconnects.reached hnetwork
  exact ⟨config, dps, hid, hkey, hhost, hreached⟩

end ConfigFlow
