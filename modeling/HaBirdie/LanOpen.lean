import HaBirdie.LanClose
import Mathlib.Data.List.Perm.Basic

/-!
# The outcome of an open

`_w_open` tries one protocol version after the other.  What it returns or raises depends on the
library's answers to the versions it tries, and on nothing else that happens meanwhile, as long
as the device is not closed.

There are two ingredients.

1.  `openLoop` is the loop as a function of the answers.  What it returns is read off the list of
    versions (`openLoop_outcome`).
2.  The steps of the worker follow it, whatever the event loop does in between
    (`OpenState.step`).

The main theorem is `open_determined`.
-/

namespace Lan

open Python StepRuns

variable {γ : Type} {cb : Callbacks γ}

/-! ## The versions to try -/

/-- The order after one preferred version. -/
def preferring (order : List PyStr) : Option PyStr → List PyStr
  | some v => if protocolVersions.contains v then v :: order.erase v else order
  | none => order

/-- An automatic device prefers the version that worked last, then the hint, and then goes by the
order of the source. -/
theorem versionsToTry_auto {dev : Device} (hauto : dev.config.protocolVersion = protocolAuto) :
    versionsToTry dev =
      preferring (preferring autoProtocolOrder dev.versionHint) dev.version := by
  have hone : ∀ (order : List PyStr) (preferred : Option PyStr),
      preferring order preferred = match preferred with
        | some v => if v ∈ protocolVersions then v :: order.erase v else order
        | none => order := by
    intro order preferred
    cases preferred with
    | none => rfl
    | some v => simp only [preferring, List.contains_iff_mem]
  unfold versionsToTry
  rw [if_neg (fun hne => hne hauto), hone, hone]
  rfl

/-- Preferring a version moves it to the front, and repeats none. -/
theorem nodup_preferring {order : List PyStr} (h : order.Nodup) (preferred : Option PyStr) :
    (preferring order preferred).Nodup := by
  cases preferred with
  | none => exact h
  | some v =>
      unfold preferring
      dsimp only
      split
      · exact List.nodup_cons.mpr ⟨h.not_mem_erase, h.erase v⟩
      · exact h

/-- A preferred version is added, and no other is lost.  One that is not among the versions of the
protocol is not added. -/
theorem mem_preferring (order : List PyStr) (preferred : Option PyStr) (version : PyStr) :
    version ∈ preferring order preferred ↔
      version ∈ order ∨ (preferred = some version ∧ version ∈ protocolVersions) := by
  cases preferred with
  | none => simp [preferring]
  | some v =>
      unfold preferring
      dsimp only
      split
      · rename_i hknown
        rw [List.contains_iff_mem] at hknown
        rw [List.mem_cons]
        by_cases hv : version = v
        · subst hv
          simp [hknown]
        · rw [List.mem_erase_of_ne hv]
          simp [hv, Ne.symm hv]
      · rename_i hunknown
        rw [List.contains_iff_mem] at hunknown
        refine ⟨Or.inl, ?_⟩
        intro hcases
        rcases hcases with hmem | ⟨heq, hknown⟩
        · exact hmem
        · rw [Option.some.inj heq] at hunknown
          exact absurd hknown hunknown

/-- No version is tried twice. -/
theorem versionsToTry_nodup (dev : Device) : (versionsToTry dev).Nodup := by
  by_cases hauto : dev.config.protocolVersion = protocolAuto
  · rw [versionsToTry_auto hauto]
    exact nodup_preferring (nodup_preferring (by decide) dev.versionHint) dev.version
  · unfold versionsToTry
    rw [if_pos hauto]
    exact List.nodup_singleton _

/-- With automatic versions all of them are tried, and the known ones that are preferred. -/
theorem mem_versionsToTry_auto {dev : Device}
    (hauto : dev.config.protocolVersion = protocolAuto) (version : PyStr) :
    version ∈ versionsToTry dev ↔
      version ∈ autoProtocolOrder ∨
        ((dev.versionHint = some version ∨ dev.version = some version) ∧
          version ∈ protocolVersions) := by
  rw [versionsToTry_auto hauto, mem_preferring, mem_preferring]
  tauto

/-! ## The loop -/

section Answers

variable (answers : PyStr → Json × Bool)

/-- The result of the version carries these DPs, and its socket is open. -/
def Succeeds (version : PyStr) (dps : PyDict) : Prop :=
  dpsOf (answers version).1 = some dps ∧ (answers version).2 = true

/-- The result of the version is `901` or `905`. -/
def HostUnreachable (version : PyStr) : Prop :=
  codeIn (errorCode (answers version).1) unreachableErrors = true

/-- The result of the version has a key error code. -/
def KeyRefused (version : PyStr) : Prop :=
  codeIn (errorCode (answers version).1) keyErrors = true

/-- The loop goes on after the version. -/
def Fails (version : PyStr) : Prop :=
  (∀ dps, ¬ Succeeds answers version dps) ∧ ¬ HostUnreachable answers version

/-- The loop of `_w_open`, where the library returns these results and leaves these sockets. -/
def openLoop : List PyStr → List LanError → JobValue
  | [], errors => .raised (.lan (World.openRaises errors))
  | version :: rest, errors =>
      match dpsOf (answers version).1, (answers version).2 with
      | some dps, true => .opened version dps
      | _, _ =>
          let code := errorCode (answers version).1
          let error := openError code version
          if codeIn code unreachableErrors then .raised (.lan error)
          else openLoop rest (errors ++ [error])

variable {answers}

/-- A result with DPs has no error code. -/
theorem errorCode_of_dpsOf {result : Json} {dps : PyDict} (h : dpsOf result = some dps) :
    errorCode result = none := by
  cases result with
  | obj members =>
      show lastMember members (py "Err") = none
      simp only [dpsOf] at h
      cases herr : lastMember members (py "Err") with
      | none => rfl
      | some code =>
          rw [herr] at h
          exact nomatch h
  | _ => exact nomatch h

/-- A version that succeeds is not unreachable. -/
theorem Succeeds.not_unreachable {version : PyStr} {dps : PyDict}
    (h : Succeeds answers version dps) : ¬ HostUnreachable answers version := by
  unfold HostUnreachable
  rw [errorCode_of_dpsOf h.1]
  exact Bool.false_ne_true

/-- Every version succeeds, finds the host unreachable, or fails. -/
theorem answer_cases (answers : PyStr → Json × Bool) (version : PyStr) :
    (∃ dps, Succeeds answers version dps) ∨ HostUnreachable answers version ∨
      Fails answers version := by
  by_cases hsuccess : ∃ dps, Succeeds answers version dps
  · exact Or.inl hsuccess
  · by_cases hunreachable : HostUnreachable answers version
    · exact Or.inr (Or.inl hunreachable)
    · exact Or.inr (Or.inr ⟨fun dps h => hsuccess ⟨dps, h⟩, hunreachable⟩)

/-- The first version that succeeds ends the loop, whatever was refused before. -/
theorem openLoop_succeeds {version : PyStr} {dps : PyDict} (h : Succeeds answers version dps)
    (rest : List PyStr) (errors : List LanError) :
    openLoop answers (version :: rest) errors = .opened version dps := by
  unfold openLoop
  rw [h.1, h.2]

/-- A version that does not succeed ends the loop if the device is unreachable, and otherwise adds
its error to those seen so far. -/
theorem openLoop_of_not_succeeds {version : PyStr}
    (h : ∀ dps, ¬ Succeeds answers version dps) (rest : List PyStr) (errors : List LanError) :
    openLoop answers (version :: rest) errors =
      if codeIn (errorCode (answers version).1) unreachableErrors then
        .raised (.lan (openError (errorCode (answers version).1) version))
      else
        openLoop answers rest (errors ++ [openError (errorCode (answers version).1) version]) := by
  rw [openLoop]
  split
  · rename_i dps hdps hsocket
    exact absurd ⟨hdps, hsocket⟩ (h dps)
  · rfl

/-- The host is unreachable. -/
theorem openLoop_unreachable {version : PyStr} (h : HostUnreachable answers version)
    (rest : List PyStr) (errors : List LanError) :
    openLoop answers (version :: rest) errors =
      .raised (.lan (.unreachable .cannotConnect)) := by
  have hcode : codeIn (errorCode (answers version).1) unreachableErrors = true := h
  rw [openLoop_of_not_succeeds (fun dps hs => hs.not_unreachable h), if_pos hcode, openError,
    if_pos hcode]

/-- Versions that fail are collected. -/
theorem openLoop_fails {before : List PyStr} (h : ∀ v ∈ before, Fails answers v)
    (rest : List PyStr) (errors : List LanError) :
    openLoop answers (before ++ rest) errors =
      openLoop answers rest
        (errors ++ before.map fun v => openError (errorCode (answers v).1) v) := by
  induction before generalizing errors with
  | nil => rw [List.nil_append, List.map_nil, List.append_nil]
  | cons v before ih =>
      obtain ⟨hsuccess, hunreachable⟩ := h v List.mem_cons_self
      have hcode : ¬ codeIn (errorCode (answers v).1) unreachableErrors = true := hunreachable
      rw [List.cons_append, openLoop_of_not_succeeds hsuccess, if_neg hcode,
        ih fun u hu => h u (List.mem_cons_of_mem v hu), List.map_cons, List.append_assoc]
      rfl

/-- What the outcome is for a list of versions. -/
structure OpenOutcome (answers : PyStr → Json × Bool) (versions : List PyStr)
    (value : JobValue) : Prop where
  succeeds : ∀ before version after dps, versions = before ++ version :: after →
    (∀ v ∈ before, Fails answers v) → Succeeds answers version dps → value = .opened version dps
  unreachable : ∀ before version after, versions = before ++ version :: after →
    (∀ v ∈ before, Fails answers v) → HostUnreachable answers version →
    value = .raised (.lan (.unreachable .cannotConnect))
  refused : (∀ v ∈ versions, Fails answers v) → (∃ v ∈ versions, KeyRefused answers v) →
    value = .raised (.lan .invalidLocalKey)
  nothing : (∀ v ∈ versions, Fails answers v) → (∀ v ∈ versions, ¬ KeyRefused answers v) →
    ∃ why, value = .raised (.lan (.unreachable why))

/-- The error that is kept of a version that fails. -/
theorem openError_of_fails {version : PyStr} (h : Fails answers version) :
    openError (errorCode (answers version).1) version =
      if codeIn (errorCode (answers version).1) keyErrors then .invalidLocalKey
      else .unreachable (.noValidAnswer version) := by
  have hcode : ¬ codeIn (errorCode (answers version).1) unreachableErrors = true := h.2
  rw [openError, if_neg hcode]

/-- **The loop determines the outcome** by the list of versions.  The errors gathered on the way
matter only where all versions fail. -/
theorem openLoop_outcome (answers : PyStr → Json × Bool) (versions : List PyStr) :
    OpenOutcome answers versions (openLoop answers versions []) := by
  have hall : (∀ v ∈ versions, Fails answers v) → openLoop answers versions [] =
      .raised (.lan (World.openRaises
        (versions.map fun v => openError (errorCode (answers v).1) v))) := by
    intro hfails
    have hloop := openLoop_fails hfails [] []
    rw [List.append_nil, List.nil_append] at hloop
    exact hloop
  refine
    { succeeds := fun before version after dps hsplit hfails hsuccess => ?succeeds
      unreachable := fun before version after hsplit hfails hhost => ?unreachable
      refused := fun hfails hrefused => ?refused
      nothing := fun hfails hnone => ?nothing }
  case succeeds =>
    rw [hsplit, openLoop_fails hfails, openLoop_succeeds hsuccess]
  case unreachable =>
    rw [hsplit, openLoop_fails hfails, openLoop_unreachable hhost]
  case refused =>
    obtain ⟨v, hv, hcode⟩ := hrefused
    have hmem : LanError.invalidLocalKey ∈
        versions.map fun v => openError (errorCode (answers v).1) v := by
      refine List.mem_map.mpr ⟨v, hv, ?_⟩
      have hcode' : codeIn (errorCode (answers v).1) keyErrors = true := hcode
      rw [openError_of_fails (hfails v hv), if_pos hcode']
    rw [hall hfails]
    have hfound : ((versions.map fun v => openError (errorCode (answers v).1) v).find?
        LanError.isInvalidLocalKey).isSome = true :=
      List.find?_isSome.mpr ⟨_, hmem, rfl⟩
    obtain ⟨error, herror⟩ := Option.isSome_iff_exists.mp hfound
    have hkey := List.find?_some herror
    have herror' : error = .invalidLocalKey := by
      cases error with
      | invalidLocalKey => rfl
      | _ => exact nomatch hkey
    rw [World.openRaises, herror, herror']
    rfl
  case nothing =>
    have hnotKey : ∀ e ∈ versions.map fun v => openError (errorCode (answers v).1) v,
        ∃ why, e = .unreachable why := by
      intro e he
      obtain ⟨v, hv, rfl⟩ := List.mem_map.mp he
      have hcode : ¬ codeIn (errorCode (answers v).1) keyErrors = true := hnone v hv
      rw [openError_of_fails (hfails v hv), if_neg hcode]
      exact ⟨_, rfl⟩
    have hnotFound : (versions.map fun v => openError (errorCode (answers v).1) v).find?
        LanError.isInvalidLocalKey = none := by
      refine List.find?_eq_none.mpr fun e he => ?_
      obtain ⟨why, rfl⟩ := hnotKey e he
      exact Bool.false_ne_true
    rw [hall hfails, World.openRaises, hnotFound]
    cases hlast : (versions.map fun v => openError (errorCode (answers v).1) v).getLast? with
    | none => exact ⟨_, rfl⟩
    | some e =>
        obtain ⟨why, rfl⟩ := hnotKey e (List.mem_of_getLast? hlast)
        exact ⟨why, rfl⟩

/-- Where the first version that does not fail is in a list.  Such a version succeeds, or shows
that the host is not reachable. -/
theorem first_not_failing (answers : PyStr → Json × Bool) (versions : List PyStr) :
    (∀ v ∈ versions, Fails answers v) ∨ ∃ before version after,
      versions = before ++ version :: after ∧ (∀ v ∈ before, Fails answers v) ∧
      ((∃ dps, Succeeds answers version dps) ∨ HostUnreachable answers version) := by
  induction versions with
  | nil => exact Or.inl fun v hv => nomatch hv
  | cons v versions ih =>
      have hnow : ∀ h : (∃ dps, Succeeds answers v dps) ∨ HostUnreachable answers v,
          ∃ before version after, v :: versions = before ++ version :: after ∧
            (∀ u ∈ before, Fails answers u) ∧
            ((∃ dps, Succeeds answers version dps) ∨ HostUnreachable answers version) :=
        fun h => ⟨[], v, versions, rfl, fun u hu => absurd hu List.not_mem_nil, h⟩
      rcases answer_cases answers v with hsuccess | hhost | hfails
      · exact Or.inr (hnow (Or.inl hsuccess))
      · exact Or.inr (hnow (Or.inr hhost))
      · rcases ih with hall | ⟨before, version, after, hsplit, hbefore, hstop⟩
        · apply Or.inl
          intro u hu
          rcases List.mem_cons.mp hu with rfl | hu
          · exact hfails
          · exact hall u hu
        · refine Or.inr ⟨v :: before, version, after, by rw [hsplit]; rfl, fun u hu => ?_, hstop⟩
          rcases List.mem_cons.mp hu with rfl | hu
          · exact hfails
          · exact hbefore u hu

/-- **The order is irrelevant** if no host is unreachable: success and the class of the error
depend on the set of the versions. -/
theorem OpenOutcome.of_reachable {versions all : List PyStr} {value : JobValue}
    (h : OpenOutcome answers versions value) (hsame : ∀ v, v ∈ versions ↔ v ∈ all)
    (hreachable : ∀ v ∈ all, ¬ HostUnreachable answers v) :
    ((∃ version dps, value = .opened version dps) ↔
      ∃ v ∈ all, ∃ dps, Succeeds answers v dps) ∧
    (value = .raised (.lan .invalidLocalKey) ↔
      (∀ v ∈ all, ∀ dps, ¬ Succeeds answers v dps) ∧ ∃ v ∈ all, KeyRefused answers v) ∧
    ((∃ why, value = .raised (.lan (.unreachable why))) ↔
      (∀ v ∈ all, ∀ dps, ¬ Succeeds answers v dps) ∧ ∀ v ∈ all, ¬ KeyRefused answers v) := by
  by_cases hsuccess : ∃ v ∈ all, ∃ dps, Succeeds answers v dps
  · obtain ⟨v, hv, dps, hv'⟩ := hsuccess
    have hopened : ∃ version dps, value = .opened version dps := by
      rcases first_not_failing answers versions with
        hfails | ⟨before, version, after, hsplit, hbefore, ⟨dps', hfirst⟩ | hhost⟩
      · exact absurd hv' ((hfails v ((hsame v).mpr hv)).1 dps)
      · exact ⟨version, dps', h.succeeds before version after dps' hsplit hbefore hfirst⟩
      · exact absurd hhost (hreachable version ((hsame version).mp (by rw [hsplit]; simp)))
    obtain ⟨version, dps', rfl⟩ := hopened
    exact ⟨⟨fun _ => ⟨v, hv, dps, hv'⟩, fun _ => ⟨version, dps', rfl⟩⟩,
      ⟨fun heq => (nomatch heq), fun hno => absurd hv' (hno.1 v hv dps)⟩,
      ⟨fun ⟨why, heq⟩ => (nomatch heq), fun hno => absurd hv' (hno.1 v hv dps)⟩⟩
  · have hnone : ∀ v ∈ all, ∀ dps, ¬ Succeeds answers v dps :=
      fun v hv dps hs => hsuccess ⟨v, hv, dps, hs⟩
    have hfails : ∀ v ∈ versions, Fails answers v := fun v hv =>
      ⟨hnone v ((hsame v).mp hv), hreachable v ((hsame v).mp hv)⟩
    by_cases hrefused : ∃ v ∈ all, KeyRefused answers v
    · obtain ⟨v, hv, hkey⟩ := hrefused
      obtain rfl := h.refused hfails ⟨v, (hsame v).mpr hv, hkey⟩
      exact ⟨⟨fun ⟨_, _, heq⟩ => (nomatch heq), fun hs => absurd hs hsuccess⟩,
        ⟨fun _ => ⟨hnone, v, hv, hkey⟩, fun _ => rfl⟩,
        ⟨fun ⟨why, heq⟩ => (nomatch heq), fun hno => absurd hkey (hno.2 v hv)⟩⟩
    · have hno : ∀ v ∈ all, ¬ KeyRefused answers v := fun v hv hkey => hrefused ⟨v, hv, hkey⟩
      obtain ⟨why, rfl⟩ := h.nothing hfails fun v hv => hno v ((hsame v).mp hv)
      exact ⟨⟨fun ⟨_, _, heq⟩ => (nomatch heq), fun hs => absurd hs hsuccess⟩,
        ⟨fun heq => (nomatch heq), fun hk => absurd hk.2 hrefused⟩,
        ⟨fun _ => ⟨hnone, hno⟩, fun _ => ⟨why, rfl⟩⟩⟩

end Answers

/-! ## The worker follows the loop -/

/-- The state of the worker without who awaits its job. -/
def Worker.anonymous : Worker → Worker
  | .idle => .idle
  | .listing _ => .listing .nobody
  | .trying _ versions errors => .trying .nobody versions errors
  | .asking _ id version rest errors => .asking .nobody id version rest errors

/-- An open has just started. -/
def Worker.isListing : Worker → Bool
  | .listing _ => true
  | _ => false

namespace World

/-- The event loop does not change what the worker does, only who awaits it.  A cancelled open goes
on for nobody. -/
theorem OwnerMove.anonymous {w w' : World γ} {a : Action} (h : OwnerMove cb w a w') :
    w'.worker.anonymous = w.worker.anonymous := by
  have habandon : ∀ (x : Waiter) (v : World γ),
      (v.abandon x).worker.anonymous = v.worker.anonymous := by
    intro x v
    unfold abandon
    cases v.worker <;> rfl
  cases h with
  | begun => rw [loopGoes_worker]
  | woken => rw [loopGoes_worker]
  | loopResumed => rw [loopGoes_worker]
  | callResumed => rw [callGoes_worker]
  | taskEnded => rw [callGoes_worker]
  | cancelled => exact habandon _ _
  | requested hmove =>
      cases hmove with
      | closeCancels => rw [newCall_worker]; exact habandon _ _
      | called => rw [newCall_worker]
      | reconfigured => rw [newCall_worker]
      | closeRaised => rw [newCall_worker]; rfl
      | closeDrops => rw [newCall_worker]; rfl
  | _ => rfl

/-- All library connections from the `n`-th on are closed, but for the one excepted. -/
def ClosedFrom (n : Nat) (except : Option Nat) (w : World γ) : Prop :=
  ∀ id api, w.apis[id]? = some api → n ≤ id → except ≠ some id → api.socket = false

/-- The assumptions on a step during an open: it is not over, the device is not closed, and the
library answers with results. -/
def Answering (answers : PyStr → Json × Bool) (w : World γ) (a : Action) : Prop :=
  w.worker ≠ .idle ∧ w.dev.closed = false ∧
    match a with
    | .tryVersion failure => failure = none
    | .answer reply closeFailure => closeFailure = none ∧
        match w.worker with
        | .asking _ _ version _ _ =>
            reply.outcome = .ok (answers version).1 ∧ reply.socket = (answers version).2
        | _ => True
    | _ => True

instance (answers : PyStr → Json × Bool) (w : World γ) (a : Action) :
    Decidable (Answering answers w a) :=
  match a with
  | .tryVersion failure =>
      inferInstanceAs (Decidable (w.worker ≠ .idle ∧ w.dev.closed = false ∧ failure = none))
  | .answer reply closeFailure =>
      match hworker : w.worker with
      | .asking _ _ version _ _ =>
          decidable_of_iff
            (w.dev.closed = false ∧ closeFailure = none ∧
              reply.outcome = .ok (answers version).1 ∧ reply.socket = (answers version).2)
            (by simp [Answering, hworker])
      | .idle => isFalse (by simp [Answering, hworker])
      | .listing _ | .trying _ _ _ =>
          decidable_of_iff (w.dev.closed = false ∧ closeFailure = none)
            (by simp [Answering, hworker])
  | .start | .begin _ | .wakeUp _ | .timeout _ | .request _ | .resume _ _ | .taskEnded _
  | .cancel _ | .take | .listVersions | .work _ _ | .skip | .beginShutdown | .finishShutdown
  | .shutdownDone _ =>
      inferInstanceAs (Decidable (w.worker ≠ .idle ∧ w.dev.closed = false ∧ True))

/-- Where the open is that started with `n` library connections: what is left of the loop leads to
the value of the whole loop. -/
def OpenState (answers : PyStr → Json × Bool) (n : Nat) (past : World γ → Action → Prop)
    (w : World γ) : Prop :=
  match w.worker.anonymous with
  | .listing _ => w.dev.api = none ∧ w.ClosedFrom n none
  | .trying _ rest errors =>
      w.dev.api = none ∧ w.ClosedFrom n none ∧ ∃ u, past u .listVersions ∧
        openLoop answers rest errors = openLoop answers (versionsToTry u.dev) []
  | .asking _ id version rest errors =>
      w.dev.api = none ∧ w.ClosedFrom n (some id) ∧ ∃ u, past u .listVersions ∧
        openLoop answers (version :: rest) errors = openLoop answers (versionsToTry u.dev) []
  | .idle => ∃ u x value, past u .listVersions ∧
      w.results.getLast? = some ⟨x, .wOpen, value⟩ ∧
      value = openLoop answers (versionsToTry u.dev) [] ∧
      ((∀ version dps, value ≠ .opened version dps) →
        w.dev.api = none ∧ w.ClosedFrom n none)

/-! ### One step -/

variable {answers : PyStr → Json × Bool} {n : Nat}

/-- Only the library connections matter. -/
theorem ClosedFrom.congr {except : Option Nat} {w w' : World γ} (h : w.ClosedFrom n except)
    (hapis : w'.apis = w.apis) : w'.ClosedFrom n except := by
  intro id api hid
  rw [hapis] at hid
  exact h id api hid

/-- The connection that was asked is closed too. -/
theorem ClosedFrom.closed {w : World γ} {id : Nat} (h : w.ClosedFrom n (some id))
    (socket : Bool) : ((w.setSocket id socket).setSocket id false).ClosedFrom n none := by
  intro k api hk hn _
  by_contra hopen
  obtain ⟨hne, hk'⟩ := setSocket_false hk (by simpa using hopen)
  refine hopen (h k api (setSocket_other hk' hne) hn fun heq => hne ?_)
  exact (Option.some.inj heq).symm

/-- The step on the event loop.  It may cancel the call that awaits the open, which goes on all the
same. -/
theorem OpenState.owner {past past' : World γ → Action → Prop} {w w' : World γ} {a : Action}
    (hw : OpenState answers n past w) (hbusy : w.worker ≠ .idle)
    (hpast : ∀ u b, past u b → past' u b) (h : OwnerMove cb w a w') :
    OpenState answers n past' w' := by
  have hapi := h.ownerStep.api
  have hapis := h.ownerStep.apis
  unfold OpenState at hw ⊢
  rw [h.anonymous]
  cases hworker : w.worker with
  | idle => exact absurd hworker hbusy
  | listing x =>
      rw [hworker] at hw
      exact ⟨hapi.trans hw.1, hw.2.congr hapis⟩
  | trying x rest errors =>
      rw [hworker] at hw
      obtain ⟨hnone, hclosed, u, hu, hloop⟩ := hw
      exact ⟨hapi.trans hnone, hclosed.congr hapis, u, hpast u _ hu, hloop⟩
  | asking x id version rest errors =>
      rw [hworker] at hw
      obtain ⟨hnone, hclosed, u, hu, hloop⟩ := hw
      exact ⟨hapi.trans hnone, hclosed.congr hapis, u, hpast u _ hu, hloop⟩

/-- The open starts without a connection. -/
theorem OpenState.taken {past : World γ → Action → Prop} {w w' : World γ}
    (h : w.step cb .take = some w') : OpenState answers w.apis.length past w' := by
  rcases worker_moves rfl h with hmove
  cases hmove with
  | @took x rest hworker hqueue =>
      refine ⟨by simp, fun id api hid hn => ?_⟩
      have hlength : { w with queue := rest }.dropApi.apis.length = w.apis.length := by
        unfold dropApi
        split
        · rfl
        · exact List.length_modify _ _ _
      have hlt := (List.getElem?_eq_some_iff.mp hid).1
      exact absurd hlt (by show ¬ id < { w with queue := rest }.dropApi.apis.length; omega)

/-- An answer without DPs on an open socket.  The socket is closed, and the code of the error
decides whether other versions are tried. -/
theorem answer_refused {w : World γ} {x : Waiter} {id : Nat} {version : PyStr}
    {rest : List PyStr} {errors : List LanError} {reply : Reply} {result : Json}
    (hworker : w.worker = .asking x id version rest errors) (hreply : reply.outcome = .ok result)
    (hno : ∀ dps, ¬ (dpsOf result = some dps ∧ reply.socket = true)) :
    w.answer reply none = some
      (if codeIn (errorCode result) unreachableErrors then
        ((w.setSocket id reply.socket).setSocket id false).post x .wOpen
          (.raised (.lan (openError (errorCode result) version)))
      else
        { (w.setSocket id reply.socket).setSocket id false with
          worker := .trying x rest (errors ++ [openError (errorCode result) version]) }) := by
  unfold answer
  rw [hworker]
  dsimp only
  rw [hreply]
  dsimp only
  cases hdps : dpsOf result with
  | none =>
      dsimp only
      split <;> rfl
  | some dps =>
      cases hsocket : reply.socket with
      | true => exact absurd ⟨hdps, hsocket⟩ (hno dps)
      | false =>
          dsimp only
          split <;> rfl

/-- What an answer makes of the loop: it ends with the DPs, ends with an error, or goes on with the
rest of the versions.  In each case the pure loop does the same. -/
theorem answer_asking {w : World γ} {x : Waiter} {id : Nat} {version : PyStr}
    {rest : List PyStr} {errors : List LanError} {reply : Reply}
    (hworker : w.worker = .asking x id version rest errors)
    (hreply : reply.outcome = .ok (answers version).1)
    (hsocket : reply.socket = (answers version).2) :
    (∃ dps, openLoop answers (version :: rest) errors = .opened version dps ∧
      w.answer reply none = some
        ({ w.setSocket id true with dev := { w.dev with api := some id } }.post x .wOpen
          (.opened version dps))) ∨
    (∃ error, openLoop answers (version :: rest) errors = .raised (.lan error) ∧
      w.answer reply none = some
        (((w.setSocket id reply.socket).setSocket id false).post x .wOpen
          (.raised (.lan error)))) ∨
    (∃ error, openLoop answers (version :: rest) errors =
        openLoop answers rest (errors ++ [error]) ∧
      w.answer reply none = some
        { (w.setSocket id reply.socket).setSocket id false with
          worker := .trying x rest (errors ++ [error]) }) := by
  by_cases hsuccess : ∃ dps, Succeeds answers version dps
  · obtain ⟨dps, hsuccess⟩ := hsuccess
    refine Or.inl ⟨dps, openLoop_succeeds hsuccess rest errors, ?_⟩
    unfold answer
    rw [hworker]
    dsimp only
    rw [hreply]
    dsimp only
    rw [hsuccess.1, hsocket, hsuccess.2]
    rfl
  · have hfails : ∀ dps, ¬ Succeeds answers version dps := fun dps h => hsuccess ⟨dps, h⟩
    have hno : ∀ dps, ¬ (dpsOf (answers version).1 = some dps ∧ reply.socket = true) :=
      fun dps h => hfails dps ⟨h.1, hsocket.symm.trans h.2⟩
    rw [openLoop_of_not_succeeds hfails, answer_refused hworker hreply hno]
    split
    · exact Or.inr (Or.inl ⟨_, rfl, rfl⟩)
    · exact Or.inr (Or.inr ⟨_, rfl, rfl⟩)

/-- A value that is posted is the whole loop's. -/
theorem OpenState.posted {past : World γ → Action → Prop} {w u : World γ} {x : Waiter}
    {value : JobValue} (hpast : past u .listVersions)
    (hvalue : value = openLoop answers (versionsToTry u.dev) [])
    (hfailed : (∀ version dps, value ≠ .opened version dps) →
      w.dev.api = none ∧ w.ClosedFrom n none) :
    OpenState answers n past (w.post x .wOpen value) :=
  ⟨u, x, value, hpast, by simp [post], hvalue, hfailed⟩

/-- The step of the worker.  It keeps the equation between what is left of the pure loop and what
the open will end with. -/
theorem OpenState.worker {past : World γ → Action → Prop} {w w' : World γ} {a : Action}
    (hw : OpenState answers n past w) (hok : Answering answers w a)
    (h : w.step cb a = some w') (hmove : WorkerMove w a w') :
    OpenState answers n (since past w a) w' := by
  obtain ⟨hbusy, hopen, hanswer⟩ := hok
  unfold OpenState at hw
  cases hworker : w.worker with
  | idle => exact absurd hworker hbusy
  | listing x =>
      rw [hworker] at hw
      cases hmove with
      | listed => exact ⟨hw.1, hw.2, w, Or.inr ⟨rfl, rfl⟩, rfl⟩
      | _ => simp_all
  | trying x rest errors =>
      rw [hworker] at hw
      obtain ⟨hnone, hclosed, u, hu, hloop⟩ := hw
      cases hmove with
      | noneLeft hat =>
          obtain ⟨rfl, rfl, rfl⟩ : _ ∧ _ ∧ _ := by simpa [hworker] using hat
          exact .posted (Or.inl hu) hloop fun _ => ⟨hnone, hclosed⟩
      | @created _ version left errors' hat =>
          obtain ⟨rfl, rfl, rfl⟩ : _ ∧ _ ∧ _ := by simpa [hworker] using hat
          refine ⟨hnone, fun id api hid hn hne => ?_, u, Or.inl hu, hloop⟩
          rcases Nat.lt_or_ge id w.apis.length with hlt | hge
          · rw [List.getElem?_append_left hlt] at hid
            exact hclosed id api hid hn (by simp)
          · -- the new connection is the one that is asked
            have hbound := (List.getElem?_eq_some_iff.mp hid).1
            rw [List.length_append, List.length_singleton] at hbound
            exact absurd (congrArg some (show w.apis.length = id by omega)) hne
      | foundClosed _ hclosedDev => exact absurd (hopen.symm.trans hclosedDev) (by simp)
      | createFailed => exact nomatch hanswer
      | _ => simp_all
  | asking x id version rest errors =>
      rw [hworker] at hw
      obtain ⟨hnone, hclosed, u, hu, hloop⟩ := hw
      obtain ⟨reply, rfl⟩ : ∃ reply, a = .answer reply none := by
        cases hmove with
        | @statusRaised reply _ => exact ⟨reply, by rw [hanswer.1]⟩
        | @opened reply _ => exact ⟨reply, by rw [hanswer.1]⟩
        | closeRaised => exact nomatch hanswer.1
        | @unreachable reply => exact ⟨reply, rfl⟩
        | @nextVersion reply => exact ⟨reply, rfl⟩
        | _ => simp_all
      obtain ⟨hreply, hsocket⟩ : reply.outcome = .ok (answers version).1 ∧
          reply.socket = (answers version).2 := by
        have hresult := hanswer.2
        rw [hworker] at hresult
        exact hresult
      have hstep : w.answer reply none = some w' := h
      rcases answer_asking hworker hreply hsocket with
        ⟨dps, hvalue, hnext⟩ | ⟨error, hvalue, hnext⟩ | ⟨error, hvalue, hnext⟩
      · obtain rfl := Option.some.inj (hnext.symm.trans hstep)
        refine .posted (Or.inl hu) (hvalue.symm.trans hloop) fun hfailed => ?_
        exact absurd rfl (hfailed version dps)
      · obtain rfl := Option.some.inj (hnext.symm.trans hstep)
        exact .posted (Or.inl hu) (hvalue.symm.trans hloop) fun _ =>
          ⟨hnone, hclosed.closed reply.socket⟩
      · obtain rfl := Option.some.inj (hnext.symm.trans hstep)
        exact ⟨hnone, hclosed.closed reply.socket, u, Or.inl hu, hvalue.symm.trans hloop⟩

/-- **Every step keeps the loop's outcome.** -/
theorem OpenState.step {past : World γ → Action → Prop} {w w' : World γ} {a : Action}
    (hw : OpenState answers n past w) (hok : Answering answers w a)
    (h : w.step cb a = some w') :
    OpenState answers n (since past w a) w' := by
  rcases step_moves h with hmove | hmove
  · exact hw.worker hok h hmove
  · exact hw.owner hok.1 (fun u b => Or.inl) hmove

/-! ### An open ends -/

/-- What the worker has still to do until the open ends.  By induction on the versions that are
left, each of which takes two steps. -/
theorem finishes_trying (answers : PyStr → Json × Bool) (versions : List PyStr) :
    ∀ (w : World γ) (x : Waiter) (errors : List LanError),
      w.worker = .trying x versions errors → w.dev.closed = false →
      ∃ as w', Run (World.step cb) (Answering answers) w as w' ∧ w'.worker = .idle := by
  induction versions with
  | nil =>
      intro w x errors hworker hopen
      have hstep : w.step cb (.tryVersion none) =
          some (w.post x .wOpen (.raised (.lan (openRaises errors)))) := by
        show w.tryVersion none = _
        unfold tryVersion
        rw [hworker]
      exact ⟨[.tryVersion none], _,
        .cons ⟨by rw [hworker]; simp, hopen, rfl⟩ hstep (.nil _), rfl⟩
  | cons version rest ih =>
      intro w x errors hworker hopen
      let asked : World γ :=
        { w with
          apis := w.apis ++ [World.newApi w.dev version]
          worker := .asking x w.apis.length version rest errors }
      let reply : Reply := { outcome := .ok (answers version).1, socket := (answers version).2 }
      have hstep : w.step cb (.tryVersion none) = some asked := by
        show w.tryVersion none = _
        unfold tryVersion
        rw [hworker]
        dsimp only
        rw [if_neg (by rw [hopen]; simp)]
      have htry : Answering answers w (.tryVersion none) := ⟨by rw [hworker]; simp, hopen, rfl⟩
      have hanswer : Answering answers asked (.answer reply none) :=
        ⟨by simp [asked], hopen, rfl, rfl, rfl⟩
      have hcases := @answer_asking γ answers asked x w.apis.length version rest errors reply
        rfl rfl rfl
      rcases hcases with ⟨dps, _, hnext⟩ | ⟨error, _, hnext⟩ | ⟨error, _, hnext⟩
      · exact ⟨[.tryVersion none, .answer reply none], _,
          .cons htry hstep (.cons hanswer hnext (.nil _)), rfl⟩
      · exact ⟨[.tryVersion none, .answer reply none], _,
          .cons htry hstep (.cons hanswer hnext (.nil _)), rfl⟩
      · obtain ⟨as, w', hrun, hidle⟩ := ih
          { (asked.setSocket w.apis.length reply.socket).setSocket w.apis.length false with
            worker := .trying x rest (errors ++ [error]) } x (errors ++ [error]) rfl hopen
        exact ⟨.tryVersion none :: .answer reply none :: as, w',
          .cons htry hstep (.cons hanswer hnext hrun), hidle⟩

/-- **An open can always be finished** by the worker alone.  It is at the list of the versions,
between two of them or waiting for an answer. -/
theorem finishes (answers : PyStr → Json × Bool) (w : World γ) (hbusy : w.worker ≠ .idle)
    (hopen : w.dev.closed = false) :
    ∃ as w', Run (World.step cb) (Answering answers) w as w' ∧ w'.worker = .idle := by
  cases hworker : w.worker with
  | idle => exact absurd hworker hbusy
  | listing x =>
      have hstep : w.step cb .listVersions =
          some { w with worker := .trying x (versionsToTry w.dev) [] } := by
        show w.listVersions = _
        unfold listVersions
        rw [hworker]
      obtain ⟨as, w', hrun, hidle⟩ := finishes_trying answers (versionsToTry w.dev)
        { w with worker := .trying x (versionsToTry w.dev) [] } x [] rfl hopen
      exact ⟨.listVersions :: as, w', .cons ⟨hbusy, hopen, trivial⟩ hstep hrun, hidle⟩
  | trying x versions errors => exact finishes_trying answers versions w x errors hworker hopen
  | asking x id version rest errors =>
      let reply : Reply := { outcome := .ok (answers version).1, socket := (answers version).2 }
      have hanswer : Answering answers w (.answer reply none) := by
        refine ⟨hbusy, hopen, rfl, ?_⟩
        rw [hworker]
        exact ⟨rfl, rfl⟩
      have hcases := @answer_asking γ answers w x id version rest errors reply hworker rfl rfl
      rcases hcases with ⟨dps, _, hnext⟩ | ⟨error, _, hnext⟩ | ⟨error, _, hnext⟩
      · exact ⟨[.answer reply none], _, .cons hanswer hnext (.nil _), rfl⟩
      · exact ⟨[.answer reply none], _, .cons hanswer hnext (.nil _), rfl⟩
      · obtain ⟨as, w', hrun, hidle⟩ := finishes_trying answers rest
          { (w.setSocket id reply.socket).setSocket id false with
            worker := .trying x rest (errors ++ [error]) } x (errors ++ [error]) rfl hopen
        exact ⟨.answer reply none :: as, w', .cons hanswer hnext hrun, hidle⟩

/-! ### The whole open -/

/-- A version that is preferred and one of the automatic ones. -/
def PreferredAuto (preferred : Option PyStr) : Prop := ∀ v ∈ preferred, v ∈ autoProtocolOrder

/-- **The outcome of an open is determined by the answers.**  While the device is not closed, an
open that was started can be finished, and when it ends its value is the outcome for the versions
that were to be tried when they were listed.  These have no duplicates and contain the automatic
ones; preferences among those matter neither for success nor for the class of the error if no
answer is `901` or `905`.  After a failed open no connection is held, and those it made are
closed. -/
theorem open_determined (answers : PyStr → Json × Bool) {w w₀ w₁ : World γ} {as : List Action}
    (htake : w.step cb .take = some w₀)
    (hrun : Run (World.step cb) (Answering answers) w₀ as w₁) :
    (w₁.worker ≠ .idle → w₁.dev.closed = false →
      ∃ bs w₂, Run (World.step cb) (Answering answers) w₁ bs w₂ ∧ w₂.worker = .idle) ∧
    (w₁.worker = .idle → ∃ u x value, Happened (World.step cb) w₀ as u .listVersions ∧
      w₁.results.getLast? = some ⟨x, .wOpen, value⟩ ∧
      OpenOutcome answers (versionsToTry u.dev) value ∧
      (versionsToTry u.dev).Nodup ∧
      (u.dev.config.protocolVersion = protocolAuto →
        (∀ v ∈ autoProtocolOrder, v ∈ versionsToTry u.dev) ∧
        (PreferredAuto u.dev.versionHint → PreferredAuto u.dev.version →
          (∀ v ∈ autoProtocolOrder, ¬ HostUnreachable answers v) →
          ((∃ version dps, value = .opened version dps) ↔
            ∃ v ∈ autoProtocolOrder, ∃ dps, Succeeds answers v dps) ∧
          (value = .raised (.lan .invalidLocalKey) ↔
            (∀ v ∈ autoProtocolOrder, ∀ dps, ¬ Succeeds answers v dps) ∧
              ∃ v ∈ autoProtocolOrder, KeyRefused answers v) ∧
          ((∃ why, value = .raised (.lan (.unreachable why))) ↔
            (∀ v ∈ autoProtocolOrder, ∀ dps, ¬ Succeeds answers v dps) ∧
              ∀ v ∈ autoProtocolOrder, ¬ KeyRefused answers v))) ∧
      ((∀ version dps, value ≠ .opened version dps) →
        w₁.dev.api = none ∧
        ∀ id api, w₁.apis[id]? = some api → w.apis.length ≤ id → api.socket = false)) := by
  refine ⟨finishes answers w₁, fun hidle => ?_⟩
  have hstate : OpenState answers w.apis.length (Happened (World.step cb) w₀ as) w₁ :=
    hrun.history (OpenState answers w.apis.length)
      (fun past u a v hu hok hstep => hu.step hok hstep) (OpenState.taken htake)
  unfold OpenState at hstate
  rw [hidle] at hstate
  obtain ⟨u, x, value, hlisted, hposted, hvalue, hfailed⟩ := hstate
  have houtcome : OpenOutcome answers (versionsToTry u.dev) value := by
    rw [hvalue]
    exact openLoop_outcome answers (versionsToTry u.dev)
  refine ⟨u, x, value, hlisted, hposted, houtcome, versionsToTry_nodup u.dev,
    fun hauto => ⟨fun v hv => (mem_versionsToTry_auto hauto v).mpr (Or.inl hv),
      fun hhint hlast hreachable => ?_⟩,
    fun hno => ⟨(hfailed hno).1, fun id api hid hn => (hfailed hno).2 id api hid hn (by simp)⟩⟩
  have hsame : ∀ v, v ∈ versionsToTry u.dev ↔ v ∈ autoProtocolOrder := by
    intro v
    rw [mem_versionsToTry_auto hauto]
    apply or_iff_left_of_imp
    intro hparts
    obtain ⟨hv | hv, _⟩ := hparts
    · exact hhint v hv
    · exact hlast v hv
  exact houtcome.of_reachable hsame hreachable

/-- A device whose version is automatic. -/
def automaticConfig : DeviceConfig :=
  { exampleConfig with protocolVersion := protocolAuto, version_mem := by decide }

/-- It refuses the key in every version but one. -/
def onlyVersion35 (version : PyStr) : Json × Bool :=
  if version = py "3.5" then (.obj [(py "dps", .obj [(py "1", .bool true)])], true)
  else (.obj [(py "Err", .str (py "914"))], true)

/-- A key error in version 3.3, which is tried first, and the status in version 3.5. -/
def secondVersionActions : List Action :=
  [.listVersions, .tryVersion none, .answer ⟨.ok (onlyVersion35 (py "3.3")).1, true, false⟩ none,
    .tryVersion none, .answer ⟨.ok (onlyVersion35 (py "3.5")).1, true, false⟩ none]

/-- The version of an open that succeeded. -/
def openedVersion : JobValue → Option PyStr
  | .opened version _ => some version
  | _ => none

/-- **An automatic device** is opened with the second version after a key error in the first.  The
first connection is closed by then. -/
theorem open_determined_connects :
    ∃ (w₀ w₁ : World Unit),
      ((World.init automaticConfig {} none ()).request .connect).step (Callbacks.none Unit) .take =
        some w₀ ∧
      Run (World.step (Callbacks.none Unit)) (Answering onlyVersion35) w₀ secondVersionActions w₁ ∧
      ∃ u x dps, Happened (World.step (Callbacks.none Unit)) w₀ secondVersionActions u
          .listVersions ∧
        w₁.results.getLast? = some ⟨x, .wOpen, .opened (py "3.5") dps⟩ ∧
        OpenOutcome onlyVersion35 (versionsToTry u.dev) (.opened (py "3.5") dps) := by
  let w : World Unit := (World.init automaticConfig {} none ()).request .connect
  let taken : Option (World Unit) := w.step (Callbacks.none Unit) .take
  obtain ⟨w₀, htake⟩ := Option.isSome_iff_exists.mp (show taken.isSome = true by decide +kernel)
  have hfacts : ∀ w₀ ∈ taken,
      Meets (World.step (Callbacks.none Unit)) (Answering onlyVersion35) w₀
        secondVersionActions ∧
      ∃ w₁ ∈ exec (World.step (Callbacks.none Unit)) w₀ secondVersionActions,
        w₁.worker = .idle ∧
        (w₁.results.getLast?.bind fun r => openedVersion r.value) = some (py "3.5") := by
    decide +kernel
  obtain ⟨hmeets, w₁, hexec, hidle, hopened⟩ := hfacts w₀ htake
  have hrun := Run.of_meets hexec hmeets
  obtain ⟨u, x, value, hlisted, hposted, houtcome, _⟩ :=
    (open_determined onlyVersion35 htake hrun).2 hidle
  rw [hposted] at hopened
  cases value with
  | opened version dps =>
      obtain rfl : version = py "3.5" := Option.some.inj hopened
      exact ⟨w₀, w₁, htake, hrun, u, x, dps, hlisted, hposted, houtcome⟩
  | dps | received | done | raised => exact absurd hopened (by simp [openedVersion])

end World

end Lan
