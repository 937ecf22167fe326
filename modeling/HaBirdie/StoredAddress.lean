import HaBirdie.LanClose
import HaBirdie.PurifierCoordinator

/-!
# The stored and the used address of a purifier

The address of a purifier lives twice: in the data of its config entry, from which each new
coordinator takes it, and in the settings of the loaded coordinator's LAN client.
`async_set_host` writes both, without giving up the event loop in between, unless its
coordinator's client is closed.

The system here is one config entry over its setups, unloads and reloads: the coordinators
it has had (`clients`: their clients' settings and closed flags), the searches by key, and
the `async_set_host` calls that await their reconnect.  A search task is bound to the
coordinator that started it, but not ended with it.

Of Home Assistant the entry uses its states, `runtime_data`, tasks that run up to their
first await when they are created, and `async_schedule_reload`, which waits for a setup in
progress.
-/

namespace Lan

open Python

/-- What addresses are about in a LAN client. -/
structure Client where
  config : DeviceConfig
  closed : Bool := false

/-- `async_reconfigure` up to its await. -/
def Client.reconfigure (changes : Changes) (c : Client) : Except PyException Client :=
  (c.config.replace changes).map fun config => { c with config }

/-- `async_close` up to its first await. -/
def Client.close (c : Client) : Client := { c with closed := true }

/-- What addresses are about in a whole LAN client. -/
def World.toClient {γ : Type} (w : World γ) : Client := ⟨w.dev.config, w.dev.closed⟩

/-- What an action of a whole LAN client does to its settings and flag. -/
def Client.act (c : Client) : Action → Client
  | .request (.reconfigure changes) => (c.reconfigure changes).toOption.getD c
  | .request .close => c.close
  | _ => c

/-- Closing the device closes what the coordinator sees of it. -/
theorem World.close_toClient {γ : Type} (w : World γ) :
    w.close.toClient = w.toClient.close := by
  unfold World.close World.toClient Client.close
  split
  · rename_i hclosed
    simp [hclosed]
  · dsimp only
    split <;> simp [World.abandon]

/-- **The settings and the flag follow the owner's calls.**  Nothing that the task, the worker
or other calls of a LAN client do changes them. -/
theorem World.step_toClient {γ : Type} {cb : Callbacks γ} {w w' : World γ} {a : Action}
    (h : w.step cb a = some w') : w'.toClient = w.toClient.act a := by
  by_cases hclose : a = .request .close
  · subst hclose
    obtain rfl := Option.some.inj h
    exact close_toClient w
  by_cases hreconfigure : ∃ changes, a = .request (.reconfigure changes)
  · obtain ⟨changes, rfl⟩ := hreconfigure
    obtain rfl := Option.some.inj h
    obtain ⟨hclosed, hconfig⟩ := reconfigure_settings w changes
    show (w.reconfigure changes).toClient = _
    unfold World.toClient
    rw [hclosed, hconfig]
    dsimp only [Client.act, Client.reconfigure]
    cases w.dev.config.replace changes <;> rfl
  · obtain ⟨hconfig, hclosed⟩ :=
      settings_step h (fun changes ha => hreconfigure ⟨changes, ha⟩) hclose
    have hact : w.toClient.act a = w.toClient := by
      unfold Client.act
      split
      · exact absurd ⟨_, rfl⟩ hreconfigure
      · exact absurd rfl hclose
      · rfl
    rw [hact]
    unfold World.toClient
    rw [hconfig, hclosed]

end Lan

namespace Purifier

open Python Lan StepRuns

/-- The states of a config entry.  A setup in progress awaits its first refresh, or closes the
client after that failed, or has set `runtime_data`.  An unload in progress unloads the
platforms, and then shuts the coordinator down. -/
inductive EntryState
  | notLoaded
  | refreshing
  | closing
  | finishing
  | loaded
  | unloading
  | shuttingDown
  | setupFailed
  | failedUnload
  | removed
deriving DecidableEq

/-- An `async_set_host` that awaits its reconnect: its coordinator, and the search task that
called it, if one did. -/
structure SettingHost where
  coordinator : Nat
  search : Option Nat

/-- A config entry with the coordinators it has had.  `bound` are the coordinators of the search
tasks, and `reloads` counts the scheduled reloads that have not begun. -/
structure Entry where
  data : EntryData
  state : EntryState := .notLoaded
  runtimeData : Option Nat := none
  clients : List Client := []
  searches : Searches := {}
  bound : List Nat := []
  setting : List SettingHost := []
  reloads : Nat := 0

namespace Entry

/-- The coordinator of the setup in progress, or of the loaded entry. -/
def active (w : Entry) : Option Nat :=
  match w.state with
  | .refreshing | .finishing | .loaded => some (w.clients.length - 1)
  | _ => none

/-- The rest of `_async_search_address` after `async_set_host`; an entry that is not loaded is
reloaded. -/
def searched (i : Nat) (w : Entry) : Entry :=
  { w with
    searches := w.searches.finish i
    reloads := if w.state = .loaded then w.reloads else w.reloads + 1 }

/-- The rest of the caller after `async_set_host` returned. -/
def hostSet (search : Option Nat) (w : Entry) : Entry :=
  match search with
  | none => w
  | some i => w.searched i

/-- The rest of the caller after `async_set_host` raised. -/
def hostRaised (search : Option Nat) (w : Entry) : Entry :=
  match search with
  | none => w
  | some i => { w with searches := w.searches.finish i }

/-- `async_set_host` of the `k`-th coordinator up to its await. -/
def setHost (k : Nat) (host : PyStr) (search : Option Nat) (w : Entry) : Entry :=
  match w.clients[k]? with
  | none => w
  | some c =>
      if host = c.config.host then w.hostSet search
      else
        let w := { w with data := { w.data with host } }
        if c.closed then w.hostSet search
        else match c.reconfigure { host := some host } with
          | .error _ => w.hostRaised search
          | .ok c =>
              { w with clients := w.clients.set k c, setting := w.setting ++ [⟨k, search⟩] }

/-- `BirdiePurifierCoordinator.__init__` in `async_setup_purifier_entry`; settings that make no
`DeviceConfig` raise. -/
def setup (w : Entry) : Entry :=
  match deviceConfig w.data with
  | .error _ => { w with state := .setupFailed }
  | .ok config => { w with state := .refreshing, clients := w.clients ++ [{ config }] }

/-- The newest coordinator's client is closed. -/
def closeLast (w : Entry) : Entry :=
  { w with clients := w.clients.modify (w.clients.length - 1) Client.close }

/-- The owner's, the network's and Home Assistant's choices.  Hosts are not empty. -/
inductive Event
  | setup
  | followed (host : PyStr)
  | refreshed
  | refreshFailed
  | clientClosed
  | setupDone
  | setupRaised (closes : Bool)
  | scheduleReload
  | reload
  | shutdown
  | unloaded
  | unloadFailed
  | remove
  | unreachable (k : Nat) (now : ℚ)
  | reachable (k : Nat)
  | found (i : Nat) (host : PyStr)
  | notFound (i : Nat)
  | announced (host : PyStr)
  | reconnected (j : Nat) (raised : Bool)

/-- The `i`-th search task runs, and `async_set_host` has not been called by it. -/
def isSearching (w : Entry) (i : Nat) : Bool :=
  (w.searches.tasks[i]?).any SearchTask.running && w.setting.all fun s => s.search ≠ some i

/-- `_async_note_unreachable` of the `k`-th coordinator: a search that starts is bound to it. -/
def noteUnreachable (k : Nat) (now : ℚ) (w : Entry) : Entry :=
  let searches := w.searches.noteUnreachable now
  { w with
    searches
    bound := if w.searches.tasks.length < searches.tasks.length then w.bound ++ [k] else w.bound }

/-- `_async_on_device` for the entry's device. -/
def onDevice (host : PyStr) (w : Entry) : Entry :=
  match w.runtimeData with
  | some k => if host ≠ w.data.host then w.setHost k host none else w
  | none => w

/-- One step. -/
def step (w : Entry) : Event → Option Entry
  | .setup =>
      match w.state with
      | .notLoaded | .setupFailed => some w.setup
      | _ => none
  | .followed host =>
      match w.state with
      | .refreshing => if host = [] then none else some (w.setHost (w.clients.length - 1) host none)
      | _ => none
  | .refreshed =>
      match w.state with
      | .refreshing =>
          some { w with state := .finishing, runtimeData := some (w.clients.length - 1) }
      | _ => none
  | .refreshFailed =>
      match w.state with
      | .refreshing => some { w.closeLast with state := .closing }
      | _ => none
  | .clientClosed =>
      match w.state with
      | .closing => some { w with state := .setupFailed }
      | _ => none
  | .setupDone =>
      match w.state with
      | .finishing => some { w with state := .loaded }
      | _ => none
  | .setupRaised closes =>
      match w.state with
      | .finishing => some { (if closes then w.closeLast else w) with state := .setupFailed }
      | _ => none
  | .scheduleReload => some { w with reloads := w.reloads + 1 }
  | .reload =>
      match w.reloads, w.state with
      | n + 1, .loaded => some { w with state := .unloading, reloads := n }
      | n + 1, .setupFailed => some { w with state := .notLoaded, reloads := n }
      | n + 1, .notLoaded => some { w with reloads := n }
      | _, _ => none
  | .shutdown =>
      match w.state with
      | .unloading => some { w.closeLast with state := .shuttingDown }
      | _ => none
  | .unloaded =>
      match w.state with
      | .shuttingDown => some { w with state := .notLoaded, runtimeData := none }
      | _ => none
  | .unloadFailed =>
      match w.state with
      | .unloading => some { w with state := .failedUnload }
      | _ => none
  | .remove =>
      match w.state with
      | .notLoaded | .setupFailed => some { w with state := .removed }
      | _ => none
  | .unreachable k now => if k < w.clients.length then some (w.noteUnreachable k now) else none
  | .reachable k =>
      if k < w.clients.length then some { w with searches := w.searches.noteReachable } else none
  | .found i host =>
      if host ≠ [] ∧ w.isSearching i then
        match w.bound[i]? with
        | none => none
        | some k =>
            if w.state = .removed then some { w with searches := w.searches.finish i }
            else some (w.setHost k host (some i))
      else none
  | .notFound i =>
      if w.isSearching i then some { w with searches := w.searches.finish i } else none
  | .announced host => if host = [] then none else some (w.onDevice host)
  | .reconnected j raised =>
      match w.setting[j]? with
      | none => none
      | some s =>
          let w := { w with setting := w.setting.eraseIdx j }
          some (if raised then w.hostRaised s.search else w.hostSet s.search)

/-! ## When the two addresses agree -/

/-- An address that the `k`-th coordinator is to use: the one it uses, the stored one, or any,
if the coordinator is the active one or there is none. -/
def Fits (w : Entry) (k : Nat) (host : PyStr) : Prop :=
  ∀ c ∈ w.clients[k]?,
    host = c.config.host ∨ host = w.data.host ∨ w.active = some k ∨ w.active = none

/-- Every address found or announced fits the coordinator it is applied to, or is found with a
closed one while the entry is not loaded and so will be reloaded. -/
def AddressFits (w : Entry) : Event → Prop
  | .found i host => ∀ k ∈ w.bound[i]?,
      w.Fits k host ∨ (∀ c ∈ w.clients[k]?, c.closed = true) ∧ w.state ≠ .loaded
  | .announced host => ∀ k ∈ w.runtimeData, w.Fits k host
  | _ => True

instance (w : Entry) (k : Nat) (host : PyStr) : Decidable (w.Fits k host) :=
  inferInstanceAs (Decidable (∀ c ∈ w.clients[k]?, _))

instance (w : Entry) (a : Event) : Decidable (w.AddressFits a) := by
  unfold AddressFits
  split <;> infer_instance

/-- The invariant: the active coordinator is open and uses the stored address, unless a reload
is pending; and a finished setup has left it in `runtime_data`. -/
structure Agrees (w : Entry) : Prop where
  client : ∀ k, w.active = some k →
    ∃ c, w.clients[k]? = some c ∧ c.closed = false ∧
      (c.config.host = w.data.host ∨ 0 < w.reloads)
  runtime : w.state = .finishing ∨ w.state = .loaded → w.runtimeData = w.active

/-- An entry that is not set up has no address to agree with. -/
theorem Agrees.of_inactive {w : Entry} (hactive : w.active = none)
    (hstate : w.state ≠ .finishing ∧ w.state ≠ .loaded) : w.Agrees :=
  ⟨fun k hk => absurd (hactive.symm.trans hk) (by simp),
    fun h => absurd h (by simp [hstate.1, hstate.2])⟩

/-- Changing only the searches and the calls in progress, and scheduling reloads.  Neither address
is touched by any of these. -/
theorem Agrees.frame {w w' : Entry} (hw : w.Agrees) (hdata : w'.data = w.data)
    (hstate : w'.state = w.state) (hruntime : w'.runtimeData = w.runtimeData)
    (hclients : w'.clients = w.clients) (hreloads : w.reloads ≤ w'.reloads) : w'.Agrees := by
  have hactive : w'.active = w.active := by unfold active; rw [hstate, hclients]
  refine { client := ?client, runtime := ?runtime }
  case client =>
    intro k hk
    obtain ⟨c, hc, hopen, hhost⟩ := hw.client k (hactive ▸ hk)
    refine ⟨c, by rw [hclients]; exact hc, hopen, ?_⟩
    rw [hdata]
    exact hhost.imp id fun hpos => lt_of_lt_of_le hpos hreloads
  case runtime =>
    intro h
    rw [hruntime, hactive]
    exact hw.runtime (hstate ▸ h)

/-- Handing an address on to the coordinator keeps what is stored and what is used the same. -/
theorem Agrees.hostSet {w : Entry} (hw : w.Agrees) (search : Option Nat) :
    (w.hostSet search).Agrees := by
  cases search with
  | none => exact hw
  | some i =>
      refine hw.frame rfl rfl rfl rfl ?_
      show w.reloads ≤ if w.state = .loaded then w.reloads else w.reloads + 1
      split <;> omega

/-- So does handing on one that the coordinator refuses. -/
theorem Agrees.hostRaised {w : Entry} (hw : w.Agrees) (search : Option Nat) :
    (w.hostRaised search).Agrees := by
  cases search with
  | none => exact hw
  | some i => exact hw.frame rfl rfl rfl rfl le_rfl

/-- A stored address that the active coordinator does not use, with a reload scheduled. -/
theorem Agrees.searched {w : Entry} (hw : w.Agrees) (host : PyStr) (i : Nat)
    (hstate : w.state ≠ .loaded) :
    ({ w with data := { w.data with host } }.searched i).Agrees := by
  refine { client := ?_, runtime := hw.runtime }
  intro k hk
  obtain ⟨c, hc, hopen, _⟩ := hw.client k hk
  refine ⟨c, hc, hopen, Or.inr ?_⟩
  show 0 < if w.state = .loaded then w.reloads else w.reloads + 1
  rw [if_neg hstate]
  omega

/-- A client that takes an address over uses it, and is closed or open as before. -/
theorem reconfigure_host {c c' : Client} {host : PyStr}
    (h : c.reconfigure { host := some host } = .ok c') :
    c'.config.host = host ∧ c'.closed = c.closed := by
  unfold Client.reconfigure at h
  cases hreplace : c.config.replace { host := some host } with
  | error e => exact absurd h (by simp [hreplace, Except.map])
  | ok config =>
      rw [hreplace] at h
      obtain rfl := Except.ok.inj h
      obtain ⟨_, hhost, _⟩ := DeviceConfig.make_ok hreplace
      exact ⟨hhost, rfl⟩

/-- An address alone is refused only if it is empty. -/
theorem reconfigure_error {c : Client} {host : PyStr} {e : PyException} (hne : host ≠ []) :
    c.reconfigure { host := some host } ≠ .error e := by
  intro h
  unfold Client.reconfigure DeviceConfig.replace DeviceConfig.make at h
  rw [dif_pos ⟨c.config.deviceId_ne, hne, c.config.version_mem⟩] at h
  exact absurd h (by simp [Except.map])

/-- The active coordinator changed its address together with the entry, or no coordinator is
active, or the address was stored already. -/
theorem Agrees.stored {w w' : Entry} {k : Nat} {host : PyStr} (hw : w.Agrees)
    (hdata : w'.data.host = host) (hstate : w'.state = w.state)
    (hruntime : w'.runtimeData = w.runtimeData) (hlength : w'.clients.length = w.clients.length)
    (hreloads : w.reloads ≤ w'.reloads)
    (hothers : ∀ j, j ≠ k → w'.clients[j]? = w.clients[j]?)
    (hclient : w.active = some k →
      ∃ c, w'.clients[k]? = some c ∧ c.closed = false ∧ c.config.host = host)
    (hfit : host = w.data.host ∨ w.active = some k ∨ w.active = none) : w'.Agrees := by
  have hactive : w'.active = w.active := by unfold active; rw [hstate, hlength]
  refine { client := ?client, runtime := ?runtime }
  case client =>
    intro j hj
    rw [hactive] at hj
    by_cases hjk : j = k
    · subst hjk
      obtain ⟨c, hc, hopen, hhost⟩ := hclient hj
      exact ⟨c, hc, hopen, Or.inl (hhost.trans hdata.symm)⟩
    · rcases hfit with hsame | hk | hnone
      · obtain ⟨c, hc, hopen, hhost⟩ := hw.client j hj
        refine ⟨c, by rw [hothers j hjk]; exact hc, hopen, ?_⟩
        rw [hdata, hsame]
        exact hhost.imp id fun hpos => lt_of_lt_of_le hpos hreloads
      · exact absurd (Option.some.inj (hj.symm.trans hk)) hjk
      · exact absurd (hj.symm.trans hnone) (by simp)
  case runtime =>
    intro h
    rw [hruntime, hactive]
    exact hw.runtime (hstate ▸ h)

/-- **`async_set_host` keeps the two addresses the same** where the address fits.  It writes the
entry and reconfigures the client in the same turn. -/
theorem Agrees.setHost {w : Entry} (hw : w.Agrees) {k : Nat} {host : PyStr} (hne : host ≠ [])
    (search : Option Nat) (hfit : w.Fits k host) : (w.setHost k host search).Agrees := by
  unfold Entry.setHost
  cases hc : w.clients[k]? with
  | none => exact hw
  | some c =>
      dsimp only
      split
      · exact hw.hostSet search
      rename_i hmoved
      have hfit' := (hfit c hc).resolve_left hmoved
      split
      · rename_i hclosed
        have hstored : Agrees { w with data := { w.data with host } } := by
          refine hw.stored rfl rfl rfl rfl le_rfl (fun _ _ => rfl) (fun hk => ?_) hfit'
          obtain ⟨c', hc', hopen, _⟩ := hw.client k hk
          obtain rfl : c = c' := Option.some.inj (hc.symm.trans hc')
          exact absurd (hopen.symm.trans hclosed) (by simp)
        exact hstored.hostSet search
      · rename_i hopen
        split
        · rename_i he
          exact absurd he (reconfigure_error hne)
        · rename_i c' hc'
          obtain ⟨hhost, hclosed⟩ := reconfigure_host hc'
          refine hw.stored rfl rfl rfl (by simp) le_rfl
            (fun j hj => List.getElem?_set_ne (Ne.symm hj)) (fun _ => ⟨c', ?_, ?_, hhost⟩) hfit'
          · exact List.getElem?_set_self (List.getElem?_eq_some_iff.mp hc).1
          · rw [hclosed]
            exact Bool.eq_false_of_not_eq_true hopen

/-- A search that finds an address with a closed coordinator while the entry is not loaded. -/
theorem Agrees.setHost_reloads {w : Entry} (hw : w.Agrees) {k : Nat} (host : PyStr) (i : Nat)
    (hclosed : ∀ c ∈ w.clients[k]?, c.closed = true) (hstate : w.state ≠ .loaded) :
    (w.setHost k host (some i)).Agrees := by
  unfold Entry.setHost
  cases hc : w.clients[k]? with
  | none => exact hw
  | some c =>
      dsimp only
      split
      · exact hw.hostSet (some i)
      · rw [if_pos (hclosed c hc)]
        exact hw.searched host i hstate

/-- The settings of an entry have the address that is stored. -/
theorem deviceConfig_host {data : EntryData} {config : DeviceConfig}
    (h : deviceConfig data = .ok config) : config.host = data.host := by
  obtain ⟨_, hhost, _⟩ := DeviceConfig.make_ok h
  exact hhost

/-- A new coordinator takes the stored address. -/
theorem Agrees.setup (w : Entry) : w.setup.Agrees := by
  unfold Entry.setup
  cases hconfig : deviceConfig w.data with
  | error e => exact .of_inactive rfl ⟨by simp, by simp⟩
  | ok config =>
      refine { client := ?_, runtime := fun h => absurd h (by simp) }
      intro k hk
      have hlast : w.clients.length = k := by
        simpa [Entry.active] using hk
      subst hlast
      exact ⟨{ config }, by simp, rfl, Or.inl (deviceConfig_host hconfig)⟩

/-- **One step** in which the address fits.  Reloads make a new client from the entry, and the
other steps change no address. -/
theorem Agrees.step {w w' : Entry} {a : Event} (hw : w.Agrees) (hok : w.AddressFits a)
    (h : w.step a = some w') : w'.Agrees := by
  cases a with
  | setup =>
      simp only [Entry.step] at h
      split at h
      · obtain rfl := Option.some.inj h
        exact .setup w
      · obtain rfl := Option.some.inj h
        exact .setup w
      · exact absurd h (by simp)
  | followed host =>
      simp only [Entry.step] at h
      split at h
      · rename_i hstate
        split at h
        · exact absurd h (by simp)
        · rename_i hne
          obtain rfl := Option.some.inj h
          have hactive : w.active = some (w.clients.length - 1) := by simp [active, hstate]
          exact hw.setHost hne none fun _ _ => Or.inr (Or.inr (Or.inl hactive))
      · exact absurd h (by simp)
  | refreshed =>
      simp only [Entry.step] at h
      split at h
      · rename_i hstate
        obtain rfl := Option.some.inj h
        have hactive : w.active = some (w.clients.length - 1) := by simp [active, hstate]
        exact ⟨fun k hk => hw.client k (hactive.trans hk), fun _ => rfl⟩
      · exact absurd h (by simp)
  | setupDone =>
      simp only [Entry.step] at h
      split at h
      · rename_i hstate
        obtain rfl := Option.some.inj h
        have hactive : w.active = some (w.clients.length - 1) := by simp [active, hstate]
        exact ⟨fun k hk => hw.client k (hactive.trans hk),
          fun _ => (hw.runtime (Or.inl hstate)).trans hactive⟩
      · exact absurd h (by simp)
  | refreshFailed | clientClosed | setupRaised | shutdown | unloaded | unloadFailed =>
      simp only [Entry.step] at h
      split at h
      · obtain rfl := Option.some.inj h
        exact .of_inactive rfl ⟨by simp, by simp⟩
      · exact absurd h (by simp)
  | remove =>
      simp only [Entry.step] at h
      split at h
      · obtain rfl := Option.some.inj h
        exact .of_inactive rfl ⟨by simp, by simp⟩
      · obtain rfl := Option.some.inj h
        exact .of_inactive rfl ⟨by simp, by simp⟩
      · exact absurd h (by simp)
  | scheduleReload =>
      obtain rfl := Option.some.inj h
      exact hw.frame rfl rfl rfl rfl (Nat.le_succ _)
  | reload =>
      simp only [Entry.step] at h
      split at h
      · obtain rfl := Option.some.inj h
        exact .of_inactive rfl ⟨by simp, by simp⟩
      · obtain rfl := Option.some.inj h
        exact .of_inactive rfl ⟨by simp, by simp⟩
      · rename_i hstate
        obtain rfl := Option.some.inj h
        exact .of_inactive (by simp [active, hstate]) ⟨by simp [hstate], by simp [hstate]⟩
      · exact absurd h (by simp)
  | unreachable k now =>
      simp only [Entry.step] at h
      split at h
      · obtain rfl := Option.some.inj h
        exact hw.frame rfl rfl rfl rfl le_rfl
      · exact absurd h (by simp)
  | reachable k =>
      simp only [Entry.step] at h
      split at h
      · obtain rfl := Option.some.inj h
        exact hw.frame rfl rfl rfl rfl le_rfl
      · exact absurd h (by simp)
  | found i host =>
      simp only [Entry.step] at h
      split at h
      · rename_i hfound
        split at h
        · exact absurd h (by simp)
        · rename_i k hk
          split at h
          · obtain rfl := Option.some.inj h
            exact hw.frame rfl rfl rfl rfl le_rfl
          · obtain rfl := Option.some.inj h
            rcases hok k hk with hfit | ⟨hclosed, hstate⟩
            · exact hw.setHost hfound.1 (some i) hfit
            · exact hw.setHost_reloads host i hclosed hstate
      · exact absurd h (by simp)
  | notFound i =>
      simp only [Entry.step] at h
      split at h
      · obtain rfl := Option.some.inj h
        exact hw.frame rfl rfl rfl rfl le_rfl
      · exact absurd h (by simp)
  | announced host =>
      simp only [Entry.step] at h
      split at h
      · exact absurd h (by simp)
      · rename_i hne
        obtain rfl := Option.some.inj h
        unfold onDevice
        split
        · rename_i k hk
          split
          · exact hw.setHost hne none (hok k hk)
          · exact hw
        · exact hw
  | reconnected j raised =>
      simp only [Entry.step] at h
      split at h
      · exact absurd h (by simp)
      · rename_i s _
        obtain rfl := Option.some.inj h
        have hleft : Agrees { w with setting := w.setting.eraseIdx j } :=
          hw.frame rfl rfl rfl rfl le_rfl
        cases raised with
        | true => exact hleft.hostRaised s.search
        | false => exact hleft.hostSet s.search

/-- **The stored and the used address are the same**: in every run in which the addresses fit,
whenever the entry is loaded and no reload is pending, its coordinator uses the stored
address.  This holds also while an `async_set_host` awaits its reconnect. -/
theorem address_agrees {data : EntryData} {as : List Event} {w : Entry} {k : Nat} {c : Client}
    (hrun : Run step AddressFits { data } as w) (hloaded : w.state = .loaded)
    (hk : w.runtimeData = some k) (hc : w.clients[k]? = some c) (hreload : w.reloads = 0) :
    w.data.host = c.config.host := by
  have hinit : Agrees { data } := .of_inactive rfl ⟨by simp, by simp⟩
  have hw := hrun.invariant Agrees (fun _ _ _ hs hok h => hs.step hok h) hinit
  obtain ⟨c', hc', _, hhost⟩ := hw.client k ((hw.runtime (Or.inr hloaded)).symm.trans hk)
  obtain rfl : c = c' := Option.some.inj (hc.symm.trans hc')
  exact (hhost.resolve_right (by omega)).symm

/-! ## Examples -/

/-- A setup that finds nothing at the stored address. -/
def unreachableSetup (k : Nat) (now : ℚ) : List Event :=
  [.setup, .unreachable k now, .refreshFailed, .clientClosed]

/-- A setup that loads the entry. -/
def loadingSetup : List Event := [.setup, .refreshed, .setupDone]

def otherHost : PyStr := py "192.168.1.88"

/-- The entry follows an announcement. -/
theorem address_agrees_announced :
    ∃ (w : Entry) (c : Client), w.state = .loaded ∧ w.clients[0]? = some c ∧
      w.data.host = c.config.host ∧
      w.data.host = otherHost := by
  let actions := loadingSetup ++ [.announced otherHost, .reconnected 0 false]
  let execution := exec step { data := Coordinator.exampleEntry } actions
  obtain ⟨w, hw⟩ := Option.isSome_iff_exists.mp (show execution.isSome = true by decide +kernel)
  have hfacts : ∀ v ∈ execution, v.state = .loaded ∧ v.runtimeData = some 0 ∧ v.reloads = 0 ∧
      v.data.host = otherHost ∧ v.clients[0]?.isSome = true := by decide +kernel
  obtain ⟨hloaded, hk, hreload, hhost, hsome⟩ := hfacts w hw
  obtain ⟨c, hc⟩ := Option.isSome_iff_exists.mp hsome
  exact ⟨w, c, hloaded, hc,
    address_agrees (Run.of_meets hw (by decide +kernel)) hloaded hk hc hreload, hhost⟩

/-- **A search of an earlier setup leaves the addresses apart.**  Two setups find the purifier
unreachable and the second starts a search; the third loads the entry, and then the search,
still bound to the second coordinator, finds the purifier elsewhere. -/
theorem address_diverges_after_search :
    ∃ w c, Run step Anything { data := Coordinator.exampleEntry }
        (unreachableSetup 0 0 ++ unreachableSetup 1 600 ++ loadingSetup ++
          [.reachable 2, .found 0 otherHost]) w ∧
      w.state = .loaded ∧ w.setting.length = 0 ∧ w.reloads = 0 ∧ w.runtimeData = some 2 ∧
      w.clients[2]? = some c ∧ w.data.host ≠ c.config.host := by
  let execution := exec step { data := Coordinator.exampleEntry }
    (unreachableSetup 0 0 ++ unreachableSetup 1 600 ++ loadingSetup ++
      [.reachable 2, .found 0 otherHost])
  obtain ⟨w, hw⟩ := Option.isSome_iff_exists.mp (show execution.isSome = true by decide +kernel)
  have hfacts : ∀ v ∈ execution, v.state = .loaded ∧ v.setting.length = 0 ∧ v.reloads = 0 ∧
      v.runtimeData = some 2 ∧ ∃ c ∈ v.clients[2]?, v.data.host ≠ c.config.host := by
    decide +kernel
  obtain ⟨hloaded, hsetting, hreload, hk, c, hc, hne⟩ := hfacts w hw
  exact ⟨w, c, Run.of_exec hw, hloaded, hsetting, hreload, hk, hc, hne⟩

end Entry

end Purifier
