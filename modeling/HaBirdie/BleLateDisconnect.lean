import HaBirdie.BleAvailability

/-!
# Disconnect callbacks that arrive late

Every attempt of every connection registers the same `_handle_disconnect`, which does not look at
the library client it is called with.  The callback of an abandoned client, or of one that was
replaced, clears whatever is stored when it arrives and reports the device as disconnected.

It does no harm exactly where there is nothing to clear and the disconnect is expected
(`late_harmless_iff`).
-/

namespace Ble

open Python StepRuns

namespace World

/-- The event is the disconnect callback of a library client that is not the stored one. -/
def Late (w : World) : Event → Prop
  | .reported k => w.client.client ≠ some k
  | _ => False

/-- A late callback leaves the client as it is and reports no disconnect. -/
def LateHarmless (w : World) (a : Event) : Prop :=
  w.Late a → ∀ w' ∈ w.step a, w'.client.client = w.client.client ∧
    w'.client.services = w.client.services ∧
    w'.client.notifyCharacteristics = w.client.notifyCharacteristics ∧
    w'.scheduled = w.scheduled

/-- The client stores nothing and expects to be disconnected. -/
structure NothingStored (w : World) : Prop where
  client : w.client.client = none
  services : w.client.services = none
  notify : w.client.notifyCharacteristics = []
  expected : w.client.expectedDisconnect = true

/-- A late callback finds nothing stored. -/
def LateUnstored (w : World) (a : Event) : Prop := w.Late a → w.NothingStored

/-- What the callback clears, whoever it is called for. -/
theorem handleDisconnect_client (w : World) :
    w.handleDisconnect.client = { w.client with
      client := none, services := none, notifyCharacteristics := [] } := by
  unfold handleDisconnect
  dsimp only
  split
  · rfl
  · rfl

/-- Whether the callback reports the device as disconnected. -/
theorem handleDisconnect_scheduled (w : World) :
    w.handleDisconnect.scheduled = w.scheduled ↔ w.client.expectedDisconnect = true := by
  unfold handleDisconnect
  dsimp only
  split
  · rename_i hexpected
    exact ⟨fun _ => hexpected, fun _ => rfl⟩
  · rename_i hexpected
    constructor
    · intro hsame
      have hlength := congrArg List.length hsame
      simp [forget] at hlength
    · intro h
      exact absurd h hexpected

/-- **One late callback** does no harm exactly where nothing is stored. -/
theorem late_step {w w' : World} {a : Event} (h : w.step a = some w') :
    w.LateHarmless a ↔ w.LateUnstored a := by
  constructor
  · intro hharmless hlate
    obtain ⟨hclient, hservices, hnotify, hscheduled⟩ := hharmless hlate w' h
    cases moves h with
    | @reported k b hk hb =>
        rw [handleDisconnect_client] at hclient hservices hnotify
        exact
          { client := hclient.symm
            services := hservices.symm
            notify := hnotify.symm
            expected := (handleDisconnect_scheduled (w.setLink k .reported)).mp hscheduled }
    | _ => exact hlate.elim
  · intro hunstored hlate v hv
    have hw := hunstored hlate
    cases moves hv with
    | @reported k b hk hb =>
        refine ⟨?_, ?_, ?_, (handleDisconnect_scheduled (w.setLink k .reported)).mpr hw.expected⟩
        · rw [handleDisconnect_client]
          exact hw.client.symm
        · rw [handleDisconnect_client]
          exact hw.services.symm
        · rw [handleDisconnect_client]
          exact hw.notify.symm
    | _ => exact hlate.elim

/-- **Late disconnects.**  From the start of a client, with any connects, retries and callbacks in
any order: every late callback of a run leaves the client alone exactly when every one of them
arrives while nothing is stored and the disconnect is expected. -/
theorem late_harmless_iff (data : BirdieData) (as : List Event) (w : World) :
    Run step LateHarmless (init data) as w ↔ Run step LateUnstored (init data) as w :=
  Run.congr fun _ _ _ => late_step

/-! ## Examples -/

instance (w : World) : ∀ a, Decidable (w.Late a)
  | .reported k => inferInstanceAs (Decidable (w.client.client ≠ some k))
  | .connect | .advertised | .set _ | .disconnect | .lock _ | .staleClosed _ _ | .gotDevice _ _
  | .raised _ | .abandoned _ | .established _ _ _ | .establishFailed _ | .gotServices _ _
  | .readDone _ _ | .subscribed _ _ | .wrote _ _ | .readBack _ _ | .tornDown _ | .lost _
  | .notified _ _ _ | .runScheduled => isFalse id

instance (w : World) : Decidable w.NothingStored :=
  decidable_of_iff
    (w.client.client = none ∧ w.client.services = none ∧ w.client.notifyCharacteristics = [] ∧
      w.client.expectedDisconnect = true)
    ⟨fun ⟨h₁, h₂, h₃, h₄⟩ => ⟨h₁, h₂, h₃, h₄⟩,
      fun h => ⟨h.client, h.services, h.notify, h.expected⟩⟩

instance (w : World) (a : Event) : Decidable (w.LateUnstored a) :=
  inferInstanceAs (Decidable (w.Late a → w.NothingStored))

/-- **A retry drops the connection.**  The first attempt's client is abandoned, the second one is
stored, and then the callback of the first arrives: the library client that is still connected
is forgotten and the device shown unavailable. -/
theorem late_callback_drops_client :
    ¬ ∀ (data : BirdieData) (as : List Event) (w : World), Run step Anything (init data) as w →
      Run step LateHarmless (init data) as w := by
  intro hclaim
  let actions : List Event := [.connect, .lock 0, .staleClosed 0 true, .abandoned 0,
    .established 0 .connected (some exampleServices), .reported 0]
  let execution := exec step (init exampleData) actions
  obtain ⟨w, hw⟩ := Option.isSome_iff_exists.mp (show execution.isSome = true by decide +kernel)
  have hmeets := ((Run.congr fun _ _ _ => late_step).mp
    (hclaim exampleData actions w (Run.of_exec hw))).meets
  exact absurd hmeets (by decide +kernel)

end World

end Ble
