import HaBirdie.LanDeviceJobs

/-!
# Availability tracks the connection

`_api` is written by the worker and `available` by the coroutine that later takes up the
job's result.  In between the two differ; what they differ by are the effects of the
results that wait.  The invariant is therefore about the value `available` will have once
all waiting results are handled (`settle`): while the worker is between two jobs, that
value says whether a connection is held.

A failed open of `async_connect` has no effect of its own, so it needs that nothing was
open before: `async_connect` runs only while no open ever succeeded (`Unopened`).
-/

namespace Lan

open Python JobTracking StepRuns

variable {γ : Type} {cb : Callbacks γ}

def Job.isOpen : Job → Bool
  | .wOpen => true
  | _ => false

def Result.effect (r : Result) : Option Bool := Lan.effect r.waiter r.job r.value

/-- `available` after all waiting results are handled in order. -/
def settle (available : Bool) (results : List Result) : Bool :=
  results.foldl (fun b r => r.effect.getD b) available

@[simp] theorem settle_nil (b : Bool) : settle b [] = b := rfl

@[simp] theorem settle_cons (b : Bool) (r : Result) (rs : List Result) :
    settle b (r :: rs) = settle (r.effect.getD b) rs := rfl

/-- The last result has the last word, if it has any. -/
theorem settle_snoc (b : Bool) (r : Result) (rs : List Result) :
    settle b (rs ++ [r]) = r.effect.getD (settle b rs) := by
  simp [settle]

/-- Without a successful open an unavailable device stays unavailable. -/
theorem settle_false {rs : List Result} (h : ∀ r ∈ rs, r.effect ≠ some true) :
    settle false rs = false := by
  induction rs with
  | nil => rfl
  | cons r rs ih =>
      have hr : r.effect.getD false = false := by
        cases heff : r.effect with
        | none => rfl
        | some b =>
            cases b with
            | false => rfl
            | true => exact absurd heff (h r (by simp))
      rw [settle_cons, hr]
      exact ih fun r' hr' => h r' (List.mem_cons_of_mem r hr')

namespace World

/-- What `async_connect` expects of the calls before it: all earlier ones of its kind raised a
`LanError`. -/
def ConnectsFailed (w : World γ) : Prop :=
  ∀ c ∈ w.calls, c.op = .connect → ∃ e, c = .done .connect (.raised (.lan e))

/-- The assumptions on a step: library calls return, no call is cancelled, the device is not
closed, results are taken up in the order of their jobs, and `async_connect` is used only
before `start` and again only after it raised a `LanError`, which is when its callers retry. -/
def Ordinary (w : World γ) : Action → Prop
  | .request .connect => w.loop = .notStarted ∧ w.ConnectsFailed
  | .request .close => False
  | .cancel _ => False
  | .resume i _ => i = 0
  | .tryVersion failure => failure = none
  | .answer reply closeFailure => reply.outcome.isOk = true ∧ closeFailure = none
  | .work reply _ => reply.outcome.isOk = true
  | _ => True

instance (c : Call) : Decidable (∃ e, c = .done .connect (.raised (.lan e))) :=
  match c with
  | .done .connect (.raised (.lan e)) => isTrue ⟨e, rfl⟩
  | .done .connect (.raised (.foreign _)) | .done .connect (.returned _)
  | .done .connect .cancelled | .done .refresh _ | .done .setDps _ | .done .reconfigure _
  | .done .close _ | .connecting | .refreshing | .refreshLost _ | .setting _ | .settingLost _
  | .reconfiguring | .closing | .closeDropping | .closeShutdown =>
      isFalse fun ⟨_, h⟩ => nomatch h

instance (pc : Loop) : Decidable (pc = .notStarted) :=
  match pc with
  | .notStarted => isTrue rfl
  | .ready | .opening _ | .reading _ | .beating _ | .receiving _ | .dropping _ _
  | .backingOff _ | .pausing _ | .ended _ => isFalse (by simp)

instance (w : World γ) : Decidable w.ConnectsFailed :=
  inferInstanceAs (Decidable (∀ c ∈ w.calls, c.op = .connect → _))

instance (w : World γ) (a : Action) : Decidable (w.Ordinary a) := by
  unfold Ordinary
  split <;> infer_instance

/-- The jobs the worker has still to finish. -/
def toRun (w : World γ) : List (Waiter × Job) := w.worker.current ++ w.queue

/-- No open succeeded so far. -/
structure Unopened (w : World γ) : Prop where
  api : w.dev.api = none
  available : w.dev.available = false
  results : ∀ r ∈ w.results, r.effect ≠ some true

/-- The invariant of ordinary runs. -/
structure Consistent (w : World γ) : Prop where
  tracked : w.Tracked
  noClose : ∀ c ∈ w.calls, c.op ≠ .close
  attended : ∀ p ∈ w.pending, p.1 ≠ .nobody
  /-- between two jobs -/
  settled : w.worker.current = [] → settle w.dev.available w.results = w.dev.api.isSome
  /-- during `_w_open` -/
  opening : w.worker.current ≠ [] → w.dev.api = none
  /-- only the first open to come can be one of `async_connect` -/
  order : (w.toRun.filter fun p => p.2.isOpen).Pairwise fun _ p => p.1 = .loop
  unopened : ∀ i, (.call i, .wOpen) ∈ w.toRun → w.Unopened
  /-- while every `async_connect` failed or has no result yet -/
  fresh : w.loop = .notStarted →
    (∀ c ∈ w.calls, c.op = .connect →
      c = .connecting ∨ ∃ e, c = .done .connect (.raised (.lan e))) →
    (∀ r ∈ w.results, r.effect ≠ some true) → w.dev.api = none ∧ w.dev.available = false

/-- A device just created is not available, and holds nothing. -/
theorem Consistent.init (config : DeviceConfig) (timings : Timings) (hint : Option PyStr)
    (client : γ) : (World.init config timings hint client).Consistent where
  tracked := Tracked.init config timings hint client
  noClose := by simp [World.init]
  attended := by simp [World.init, pending, Worker.current]
  settled _ := rfl
  opening _ := rfl
  order := by simp [World.init, toRun, Worker.current]
  unopened := by simp [World.init, toRun, Worker.current]
  fresh _ _ _ := ⟨rfl, rfl⟩

/-! ## Steps of a coroutine -/

/-- A step of a coroutine: it may take up the first result, and may submit a job. -/
structure PartyStep (w w' : World γ) (submitted : List (Waiter × Job)) : Prop where
  worker : w'.worker = w.worker
  api : w'.dev.api = w.dev.api
  settle : settle w'.dev.available w'.results = settle w.dev.available w.results
  results : ∀ r ∈ w'.results, r ∈ w.results
  available : (∀ r ∈ w.results, r.effect ≠ some true) → w.dev.available = false →
    w'.dev.available = false
  queue : w'.queue = w.queue ++ submitted
  attended : ∀ p ∈ submitted, p.1 ≠ .nobody

/-- A step that takes up no result. -/
theorem PartyStep.of_same {w w' : World γ} {submitted : List (Waiter × Job)}
    (hworker : w'.worker = w.worker) (hapi : w'.dev.api = w.dev.api)
    (hav : w'.dev.available = w.dev.available) (hresults : w'.results = w.results)
    (hqueue : w'.queue = w.queue ++ submitted) (hatt : ∀ p ∈ submitted, p.1 ≠ .nobody) :
    PartyStep w w' submitted where
  worker := hworker
  api := hapi
  settle := by rw [hav, hresults]
  results := by simp [hresults]
  available _ h := by rw [hav, h]
  queue := hqueue
  attended := hatt

/-- A step that takes up the first result and has its effect.  What it submits goes to the end of
the queue, and the other results wait in their order. -/
theorem PartyStep.of_resume {w w' : World γ} {submitted : List (Waiter × Job)} {r : Result}
    (hr : w.results[0]? = some r) (hworker : w'.worker = w.worker)
    (hapi : w'.dev.api = w.dev.api) (hav : w'.dev.available = r.effect.getD w.dev.available)
    (hresults : w'.results = w.results.eraseIdx 0)
    (hqueue : w'.queue = w.queue ++ submitted) (hatt : ∀ p ∈ submitted, p.1 ≠ .nobody) :
    PartyStep w w' submitted := by
  obtain ⟨rs, hrs⟩ : ∃ rs, w.results = r :: rs := by
    cases hres : w.results with
    | nil => exact absurd (hres ▸ hr) (by simp)
    | cons r' rs =>
        obtain rfl : r' = r := by simpa [hres] using hr
        exact ⟨rs, rfl⟩
  have hrest : w'.results = rs := by rw [hresults, hrs]; rfl
  refine
    { worker := hworker, api := hapi, settle := ?settle, results := ?results,
      available := ?available, queue := hqueue, attended := hatt }
  case settle => rw [hrest, hrs, settle_cons, hav]
  case results =>
    intro r' hr'
    rw [hrs]
    exact List.mem_cons_of_mem r (hrest ▸ hr')
  case available =>
    intro hnone hfalse
    rw [hav, hfalse]
    have heff := hnone r (by rw [hrs]; simp)
    cases h : r.effect with
    | none => rfl
    | some b =>
        cases b with
        | false => rfl
        | true => exact absurd h heff

/-- **A step of a coroutine keeps the invariant**, if the open it may submit is one of the
background task, or no other open is to come and none succeeded. -/
theorem Consistent.party {w w' : World γ} {submitted : List (Waiter × Job)}
    (hw : w.Consistent) (hstep : PartyStep w w' submitted) (htracked : w'.Tracked)
    (hclose : ∀ c ∈ w'.calls, c.op ≠ .close)
    (hopen : (∀ p ∈ submitted, p.2.isOpen = true → p.1 = .loop) ∨
      submitted.length ≤ 1 ∧ (∀ p ∈ w.toRun, p.2.isOpen = false) ∧ w.Unopened)
    (hfresh : w'.loop = .notStarted →
      (∀ c ∈ w'.calls, c.op = .connect →
        c = .connecting ∨ ∃ e, c = .done .connect (.raised (.lan e))) →
      (∀ r ∈ w'.results, r.effect ≠ some true) →
      w.loop = .notStarted ∧
      (∀ c ∈ w.calls, c.op = .connect →
        c = .connecting ∨ ∃ e, c = .done .connect (.raised (.lan e))) ∧
      (∀ r ∈ w.results, r.effect ≠ some true)) : w'.Consistent := by
  have htoRun : w'.toRun = w.toRun ++ submitted := by
    simp [toRun, hstep.worker, hstep.queue]
  have hkeeps : w.Unopened → w'.Unopened := fun h =>
    ⟨hstep.api.trans h.api, hstep.available h.results h.available,
      fun r hr => h.results r (hstep.results r hr)⟩
  refine
    { tracked := htracked, noClose := hclose, attended := ?attended, settled := ?settled,
      opening := ?opening, order := ?order, unopened := ?unopened, fresh := ?fresh }
  case attended =>
    intro p hp
    rw [pending, List.mem_append, show w'.worker.current ++ w'.queue = w'.toRun from rfl,
      htoRun, List.mem_append] at hp
    rcases hp with hp | hp | hp
    · obtain ⟨r, hr, rfl⟩ := List.mem_map.mp hp
      exact hw.attended _ (List.mem_append_left _
        (List.mem_map.mpr ⟨r, hstep.results r hr, rfl⟩))
    · exact hw.attended p (List.mem_append_right _ hp)
    · exact hstep.attended p hp
  case settled =>
    intro hidle
    rw [hstep.settle, hstep.api]
    exact hw.settled (hstep.worker ▸ hidle)
  case opening =>
    intro hbusy
    rw [hstep.api]
    exact hw.opening (hstep.worker ▸ hbusy)
  case order =>
    rw [htoRun, List.filter_append, List.pairwise_append]
    rcases hopen with hloop | ⟨hlen, hnone, _⟩
    · have hall : ∀ p ∈ submitted.filter (fun p => p.2.isOpen), p.1 = .loop := by
        intro p hp
        obtain ⟨hp, hop⟩ := List.mem_filter.mp hp
        exact hloop p hp hop
      exact ⟨hw.order, List.pairwise_of_forall_mem_list fun _ _ b hb => hall b hb,
        fun _ _ b hb => hall b hb⟩
    · have hnil : w.toRun.filter (fun p => p.2.isOpen) = [] :=
        List.filter_eq_nil_iff.mpr fun p hp => by simp [hnone p hp]
      refine ⟨hw.order, ?_, by simp [hnil]⟩
      have hshort := (List.length_filter_le (fun p => p.2.isOpen) submitted).trans hlen
      cases hf : submitted.filter fun p => p.2.isOpen with
      | nil => exact List.Pairwise.nil
      | cons p ps =>
          rw [hf, List.length_cons] at hshort
          obtain rfl : ps = [] := List.length_eq_zero_iff.mp (by omega)
          exact List.pairwise_singleton _ _
  case unopened =>
    intro i hi
    rw [htoRun, List.mem_append] at hi
    rcases hi with hi | hi
    · exact hkeeps (hw.unopened i hi)
    · rcases hopen with hloop | ⟨_, _, hun⟩
      · exact absurd (hloop _ hi rfl) (by simp)
      · exact hkeeps hun
  case fresh =>
    intro hloop hcalls hresults
    obtain ⟨hl, hc, hr⟩ := hfresh hloop hcalls hresults
    obtain ⟨hapi, hav⟩ := hw.fresh hl hc hr
    exact ⟨hstep.api.trans hapi, hstep.available hr hav⟩

/-! ## Steps of the worker -/

/-- **A job ends.**  Its result brings the value that `available` will have in line with the
connection, and a failed open leaves the device as it was. -/
theorem Consistent.post {w w' : World γ} (x : Waiter) (job : Job) (value : JobValue)
    (hw : w.Consistent) (hstep : WorkerStep w w') (htoRun : w.toRun = (x, job) :: w'.queue)
    (hworker : w'.worker = .idle) (hresults : w'.results = w.results ++ [⟨x, job, value⟩])
    (hav : w'.dev.available = w.dev.available)
    (hsettle : (Lan.effect x job value).getD (settle w.dev.available w.results) =
      w'.dev.api.isSome)
    (hkeep : w.dev.api = none → Lan.effect x job value ≠ some true → w'.dev.api = none)
    (hnot : job ≠ .wOpen → Lan.effect x job value ≠ some true) : w'.Consistent := by
  have hqueue : w'.toRun = w'.queue := by simp [toRun, hworker, Worker.current]
  refine
    { tracked := hstep.tracked hw.tracked, noClose := ?noClose, attended := ?attended,
      settled := ?settled, opening := ?opening, order := ?order, unopened := ?unopened,
      fresh := ?fresh }
  case noClose =>
    rw [hstep.calls]
    exact hw.noClose
  case attended =>
    rw [hstep.pending]
    exact hw.attended
  case settled =>
    intro _
    rw [hresults, settle_snoc, hav]
    exact hsettle
  case opening =>
    intro hbusy
    exact absurd (by rw [hworker]; rfl) hbusy
  case order =>
    rw [hqueue]
    have horder := hw.order
    rw [htoRun, List.filter_cons] at horder
    split at horder
    · exact (List.pairwise_cons.mp horder).2
    · exact horder
  case unopened =>
    intro i hi
    rw [hqueue] at hi
    have hun := hw.unopened i (by rw [htoRun]; exact List.mem_cons_of_mem _ hi)
    have hjob : job ≠ .wOpen := by
      intro heq
      obtain rfl := heq
      have horder := hw.order
      rw [htoRun, List.filter_cons_of_pos rfl] at horder
      exact absurd ((List.pairwise_cons.mp horder).1 _ (List.mem_filter.mpr ⟨hi, rfl⟩)) (by simp)
    refine ⟨hkeep hun.api (hnot hjob), hav.trans hun.available, fun r hr => ?_⟩
    rw [hresults, List.mem_append] at hr
    rcases hr with hr | hr
    · exact hun.results r hr
    · obtain rfl := List.mem_singleton.mp hr
      exact hnot hjob
  case fresh =>
    intro hloop hcalls hnone
    rw [hresults] at hnone
    obtain ⟨hapi, hav'⟩ := hw.fresh (hstep.loop ▸ hloop) (hstep.calls ▸ hcalls)
      fun r hr => hnone r (List.mem_append_left _ hr)
    exact ⟨hkeep hapi (hnone ⟨x, job, value⟩ (by simp)), hav.trans hav'⟩

/-- A failed open posts an error and leaves no connection.  The error makes the device unavailable
once it is taken up. -/
theorem Consistent.post_failed {w w' : World γ} {x : Waiter} {e : LanError}
    (hw : w.Consistent) (hcurrent : w.worker.current = [(x, .wOpen)])
    (hqueue : w'.queue = w.queue) (hresults : w'.results = w.results) (hloop : w'.loop = w.loop)
    (hcalls : w'.calls = w.calls) (hdev : w'.dev = w.dev) :
    (w'.post x .wOpen (.raised (.lan e))).Consistent := by
  have hapi : w.dev.api = none := hw.opening (by rw [hcurrent]; simp)
  have htoRun : w.toRun = (x, .wOpen) :: (w'.post x .wOpen (.raised (.lan e))).queue := by
    simp [toRun, hcurrent, World.post, hqueue]
  refine Consistent.post x .wOpen (.raised (.lan e)) hw
    (post_workerStep hcurrent hqueue hresults hloop hcalls) htoRun rfl
    (by simp [World.post, hresults]) (by simp [World.post, hdev]) ?_
    (fun _ _ => by simp [World.post, hdev, hapi]) (fun h => absurd rfl h)
  have hnone : (w'.post x .wOpen (.raised (.lan e))).dev.api = none := by
    simp [World.post, hdev, hapi]
  rw [hnone]
  cases x with
  | loop => rfl
  | call i =>
      have hun := hw.unopened i (by rw [htoRun]; simp)
      show settle w.dev.available w.results = false
      rw [hun.available]
      exact settle_false hun.results
  | nobody =>
      refine absurd rfl (hw.attended (.nobody, .wOpen) ?_)
      rw [pending, hcurrent]
      simp

/-- A step of the worker within `_w_open`.  No connection is held there, and what is still to be
run is as before. -/
theorem Consistent.within {w w' : World γ} (hw : w.Consistent) (hstep : WorkerStep w w')
    (htoRun : w'.toRun = w.toRun) (hbusy : w'.worker.current ≠ [])
    (hresults : w'.results = w.results) (hapi : w'.dev.api = none)
    (hav : w'.dev.available = w.dev.available) : w'.Consistent := by
  refine
    { tracked := hstep.tracked hw.tracked, noClose := ?noClose, attended := ?attended,
      settled := fun h => absurd h hbusy, opening := fun _ => hapi, order := ?order,
      unopened := ?unopened, fresh := ?fresh }
  case noClose =>
    rw [hstep.calls]
    exact hw.noClose
  case attended =>
    rw [hstep.pending]
    exact hw.attended
  case order =>
    rw [htoRun]
    exact hw.order
  case unopened =>
    intro i hi
    have hun := hw.unopened i (htoRun ▸ hi)
    exact ⟨hapi, hav.trans hun.available, by rw [hresults]; exact hun.results⟩
  case fresh =>
    intro hloop hcalls hnone
    have hold := hw.fresh (hstep.loop ▸ hloop) (hstep.calls ▸ hcalls) (hresults ▸ hnone)
    exact ⟨hapi, hav.trans hold.2⟩

/-- The result of a library call says nothing about the availability by itself. -/
theorem effect_wCall (x : Waiter) (c : LibraryCall) (value : JobValue) :
    Lan.effect x (.wCall c) value = none := by
  cases x <;> rfl

/-- A library call on the connection held posts a result without effect. -/
theorem Consistent.post_call {w w' : World γ} {x : Waiter} {c : LibraryCall}
    {value : JobValue} (hw : w.Consistent) (hstep : WorkerStep w w')
    (hidle : w.worker = .idle) (htoRun : w.toRun = (x, .wCall c) :: w'.queue)
    (hworker : w'.worker = .idle)
    (hresults : w'.results = w.results ++ [⟨x, .wCall c, value⟩])
    (hapi : w'.dev.api = w.dev.api) (hav : w'.dev.available = w.dev.available) :
    w'.Consistent := by
  refine Consistent.post x (.wCall c) value hw hstep htoRun hworker hresults hav ?_
    (fun h _ => hapi.trans h) fun _ => ?_
  · rw [effect_wCall, hapi]
    exact hw.settled (by rw [hidle]; rfl)
  · rw [effect_wCall]
    simp

/-- **The worker keeps the invariant** while library calls return.  What it does to the connection
is matched by the result that it posts. -/
theorem Consistent.worker {w w' : World γ} {a : Action} (hw : w.Consistent)
    (hok : w.Ordinary a) (h : WorkerMove w a w') : w'.Consistent := by
  have hstep : a ≠ .skip → WorkerStep w w' := h.workerStep
  cases h with
  | took hworker hqueue =>
      exact hw.within (hstep (by simp)) (by simp [toRun, hworker, hqueue, Worker.current])
        (by simp [Worker.current]) (by simp) (by simp) (by simp)
  | listed hworker =>
      have hapi : w.dev.api = none := hw.opening (by simp [hworker, Worker.current])
      exact hw.within (hstep (by simp)) (by simp [toRun, hworker, Worker.current])
        (by simp [Worker.current]) rfl hapi rfl
  | noneLeft hworker => exact hw.post_failed (by rw [hworker]; rfl) rfl rfl rfl rfl rfl
  | foundClosed hworker => exact hw.post_failed (by rw [hworker]; rfl) rfl rfl rfl rfl rfl
  | createFailed => exact absurd hok (by simp [Ordinary])
  | created hworker =>
      have hapi : w.dev.api = none := hw.opening (by simp [hworker, Worker.current])
      exact hw.within (hstep (by simp)) (by simp [toRun, hworker, Worker.current])
        (by simp [Worker.current]) rfl hapi rfl
  | statusRaised _ hreply => exact absurd hreply (Reply.not_raised hok.1)
  | @opened _ _ x _ version _ _ _ dps hworker =>
      have hcurrent : w.worker.current = [(x, .wOpen)] := by rw [hworker]; rfl
      exact Consistent.post x .wOpen (.opened version dps) hw (hstep (by simp))
        (by simp [toRun, hcurrent, World.post, setSocket]) rfl
        (by simp [World.post, setSocket]) rfl rfl (fun _ hne => absurd rfl hne)
        (fun hne => absurd rfl hne)
  | closeRaised => exact absurd hok.2 (by simp)
  | unreachable hworker => exact hw.post_failed (by rw [hworker]; rfl) rfl rfl rfl rfl rfl
  | nextVersion hworker =>
      have hapi : w.dev.api = none := hw.opening (by simp [hworker, Worker.current])
      exact hw.within (hstep (by simp)) (by simp [toRun, hworker, Worker.current, setSocket])
        (by simp [Worker.current]) rfl hapi rfl
  | @dropped _ _ x _ hworker hqueue =>
      have heffect : Lan.effect x .wDrop .done = some false := by cases x <;> rfl
      refine Consistent.post x .wDrop .done hw (hstep (by simp))
        (by simp [toRun, hworker, hqueue, Worker.current, World.post]) rfl
        (by simp [World.post]) (by simp [World.post]) ?_ (fun _ _ => by simp [World.post])
        fun _ => by simp [heffect]
      simp [heffect, World.post]
  | notHeld hworker hqueue =>
      exact hw.post_call (hstep (by simp)) hworker
        (by simp [toRun, hworker, hqueue, Worker.current, World.post]) rfl rfl rfl rfl
  | callRaised _ _ _ hreply => exact absurd hreply (Reply.not_raised hok)
  | @callReturned reply now x c _ _ _ hworker hqueue =>
      obtain ⟨hapi, hav⟩ := noteTimes_same c reply now w.dev
      exact hw.post_call (hstep (by simp)) hworker
        (by simp [toRun, hworker, hqueue, Worker.current, World.post, setSocket]) rfl rfl hapi hav
  | @skipped job _ hworker hqueue =>
      refine absurd rfl (hw.attended (.nobody, job) ?_)
      simp [pending, hworker, hqueue]

/-! ## Steps of the background task and of calls -/

/-- After a turn of `_run` it has been started. -/
theorem loopGoes_started (w : World γ) {t : Turn γ Loop} (h : t.pc.Started) :
    (w.loopGoes t).loop ≠ .notStarted := by
  rcases loopGoes_loop w t with hloop | ⟨hloop, _⟩
  · rw [hloop]
    exact h
  · rw [hloop]
    exact Loop.died_started _

/-- A turn of the background task, after a step that submitted nothing. -/
theorem Consistent.loopGoes {w w₀ : World γ} (hw : w.Consistent) {t : Turn γ Loop}
    (hstep : PartyStep w (w₀.loopGoes t)
      ((w₀.loopGoes t).loop.awaits.toList.map fun job => (.loop, job)))
    (htracked : (w₀.loopGoes t).Tracked) (hcalls : w₀.calls = w.calls) (hpc : t.pc.Started) :
    (w₀.loopGoes t).Consistent := by
  refine hw.party hstep htracked (by rw [loopGoes_calls, hcalls]; exact hw.noClose)
    (Or.inl fun p hp _ => ?_) fun h => absurd h (loopGoes_started w₀ hpc)
  obtain ⟨_, _, rfl⟩ := List.mem_map.mp hp
  rfl

/-- A turn of the background task from a place where it awaits no job. -/
theorem Consistent.loopGoes_of_idle {w : World γ} (hw : w.Consistent) {t : Turn γ Loop}
    (hidle : w.loop.awaits = none)
    (hturn : Turned w.dev w.dev.available Loop.Started t) : (w.loopGoes t).Consistent :=
  hw.loopGoes
    (PartyStep.of_same (by simp) (by simp [hturn.same.api]) (by simp [hturn.available])
      (by simp) (loopGoes_queue w t) (attended_map (by simp) _))
    (hw.tracked.loopGoes_of_idle t hidle) rfl hturn.pc

/-- A step that submits nothing and takes up no result. -/
theorem Consistent.quiet {w w' : World γ} (hw : w.Consistent) (htracked : w'.Tracked)
    (hworker : w'.worker = w.worker) (hapi : w'.dev.api = w.dev.api)
    (hav : w'.dev.available = w.dev.available) (hresults : w'.results = w.results)
    (hqueue : w'.queue = w.queue) (hcalls : w'.calls = w.calls)
    (hloop : w'.loop = .notStarted → w.loop = .notStarted) : w'.Consistent := by
  have hstep : PartyStep w w' [] :=
    PartyStep.of_same hworker hapi hav hresults (by simp [hqueue]) (by simp)
  apply hw.party hstep htracked (by rw [hcalls]; exact hw.noClose) (Or.inl (by simp))
  intro h hc hr
  exact ⟨hloop h, hcalls ▸ hc, hresults ▸ hr⟩

/-- A new call, which is not `async_close` and opens nothing unless nothing was open.  Its job is
the last in the queue. -/
theorem Consistent.newCall {w : World γ} (hw : w.Consistent) {pc : Call}
    (hop : pc.op ≠ .close)
    (hopen : pc.awaits = some .wOpen → (∀ p ∈ w.toRun, p.2.isOpen = false) ∧ w.Unopened) :
    (w.newCall pc).Consistent := by
  obtain ⟨pc', hcalls, hqueue, hpc⟩ := newCall_spec w pc
  have hstep : PartyStep w (w.newCall pc)
      (pc'.awaits.toList.map fun job => (.call w.calls.length, job)) :=
    PartyStep.of_same (by simp) (by simp) (by simp) (by simp) hqueue (attended_map (by simp) _)
  refine hw.party hstep (hw.tracked.newCall pc) ?_ ?_ ?_
  · intro c hc
    rw [hcalls, List.mem_append] at hc
    rcases hc with hc | hc
    · exact hw.noClose c hc
    · obtain rfl := List.mem_singleton.mp hc
      rcases hpc with rfl | ⟨rfl, _⟩
      · exact hop
      · exact hop
  · by_cases hawaits : pc'.awaits = some .wOpen
    · have hpc' : pc.awaits = some .wOpen := by
        rcases hpc with rfl | ⟨rfl, _⟩
        · exact hawaits
        · exact absurd hawaits (by simp [Call.died, Call.awaits])
      exact Or.inr ⟨by simp [hawaits], hopen hpc'⟩
    · apply Or.inl
      intro p hp hisOpen
      obtain ⟨job, hjob, rfl⟩ := List.mem_map.mp hp
      have hjob' : pc'.awaits = some job := Option.mem_toList.mp hjob
      cases job with
      | wOpen => exact absurd hjob' hawaits
      | _ => exact absurd hisOpen (by simp [Job.isOpen])
  · intro hloop hc hr
    rw [newCall_loop] at hloop
    rw [newCall_results] at hr
    exact ⟨hloop, fun c hmem => hc c (by rw [hcalls]; exact List.mem_append_left _ hmem), hr⟩

/-- Before `start`, with all earlier ones failed, `async_connect` finds nothing open and no
open to come. -/
theorem Consistent.connects {w : World γ} (hw : w.Consistent) (hloop : w.loop = .notStarted)
    (hfailed : w.ConnectsFailed) : (∀ p ∈ w.pending, p.2 ≠ .wOpen) ∧ w.Unopened := by
  have hnone : ∀ p ∈ w.pending, p.2 ≠ .wOpen := by
    intro hparts hp heq
    obtain ⟨x, job⟩ := hparts
    obtain rfl := heq
    have hx : x ≠ .nobody := hw.attended _ hp
    have hmem : Job.wOpen ∈ jobsOf x w.pending := mem_jobsOf.mpr hp
    rw [hw.tracked x hx] at hmem
    have hawaits : w.awaits x = some .wOpen := by simpa using hmem
    cases x with
    | loop => simp [awaits, hloop, Loop.awaits] at hawaits
    | call i =>
        obtain ⟨c, hc, hopen⟩ := Option.bind_eq_some_iff.mp hawaits
        have hop : c.op = .connect := by
          cases c <;> simp_all [Call.awaits, Call.op]
        obtain ⟨e, rfl⟩ := hfailed c (List.mem_of_getElem? hc) hop
        exact absurd hopen (by simp [Call.awaits])
    | nobody => exact hx rfl
  have hresults : ∀ r ∈ w.results, r.effect ≠ some true := by
    intro r hr heff
    have hjob := hnone (r.waiter, r.job) (List.mem_append_left _ (List.mem_map.mpr ⟨r, hr, rfl⟩))
    unfold Result.effect at heff
    cases hj : r.job with
    | wOpen => exact hjob hj
    | wDrop =>
        rw [hj] at heff
        cases hx : r.waiter <;> cases hv : r.value <;> simp [hx, hv, Lan.effect] at heff
    | wCall c => rw [hj, effect_wCall] at heff; exact absurd heff (by simp)
  obtain ⟨hapi, hav⟩ := hw.fresh hloop (fun c hc hop => Or.inr (hfailed c hc hop)) hresults
  exact ⟨hnone, hapi, hav, hresults⟩

/-- A call of the owner begins.  The owner connects only before the device is started, which is
what the last hypothesis of `newCall` asks for. -/
theorem Consistent.requested {w w' : World γ} {r : Request} (hw : w.Consistent)
    (hok : w.Ordinary (.request r)) (h : RequestMove w r w') : w'.Consistent := by
  cases h with
  | called hop _ hopens hclosed =>
      refine hw.newCall (fun hclose => ?_) fun hopen => ?_
      · have hr : r = .close := by cases r <;> simp_all [Request.op]
        subst hr
        exact hok
      · obtain rfl := hopens hopen
        obtain ⟨hnone, hun⟩ := hw.connects hok.1 hok.2
        refine ⟨fun p hp => ?_, hun⟩
        have hjob := hnone p (List.mem_append_right _ hp)
        cases hp2 : p.2 with
        | wOpen => exact absurd hp2 hjob
        | _ => rfl
  | reconfigured =>
      refine Consistent.newCall ?_ (by simp [Call.op]) (by simp [Call.awaits])
      refine hw.quiet ?_ rfl rfl rfl rfl rfl rfl id
      exact hw.tracked.congr rfl rfl fun _ => rfl
  | closeRaised => exact absurd hok id
  | closeDrops => exact absurd hok id
  | closeCancels => exact absurd hok id

/-- A call takes up the first result.  Its turn sets the availability as the result says, and may
submit a drop. -/
theorem Consistent.resumeCall {w : World γ} (hw : w.Consistent) {n : ℕ} {now : ℚ} {r : Result}
    {pc : Call} {t : Turn γ Call} (hr : w.results[0]? = some r) (hx : r.waiter = .call n)
    (hpc : w.calls[n]? = some pc) (hjob : pc.awaits = some r.job)
    (ht : callResume cb now w.dev w.client pc r.value = some t)
    (htracked : ({ w with results := w.results.eraseIdx 0 }.callGoes n t).Tracked) :
    ({ w with results := w.results.eraseIdx 0 }.callGoes n t).Consistent := by
  have hlt : n < w.calls.length := (List.getElem?_eq_some_iff.mp hpc).1
  have hnotclose : pc.op ≠ .close := hw.noClose pc (List.mem_of_getElem? hpc)
  have hturn : Turned w.dev ((Lan.effect (.call n) r.job r.value).getD w.dev.available)
      (Call.Of pc.op) t := callResume_turned n hjob hnotclose ht
  obtain ⟨pc', hcalls, hqueue, hpc'⟩ :=
    callGoes_spec { w with results := w.results.eraseIdx 0 } n t
  have hof : pc'.Of pc.op := by
    rcases hpc' with rfl | ⟨rfl, _⟩
    · exact hturn.pc
    · rw [← hturn.pc.op]
      exact Call.done_of _ _
  have hstep : PartyStep w ({ w with results := w.results.eraseIdx 0 }.callGoes n t)
      (pc'.awaits.toList.map fun job => (.call n, job)) :=
    PartyStep.of_resume hr (by simp) (by simp [hturn.same.api])
      (by simp [hturn.available, Result.effect, hx]) (by simp) hqueue (attended_map (by simp) _)
  refine hw.party hstep htracked ?_ ?_ ?_
  · intro c hc
    rw [hcalls] at hc
    rcases List.mem_or_eq_of_mem_set hc with hc | rfl
    · exact hw.noClose c hc
    · rw [hof.op]
      exact hnotclose
  · apply Or.inl
    intro p hp hisOpen
    obtain ⟨job, hj, rfl⟩ := List.mem_map.mp hp
    have hj' : pc'.awaits = some job := Option.mem_toList.mp hj
    cases job with
    | wOpen => exact absurd hj' hof.awaits
    | _ => exact absurd hisOpen (by simp [Job.isOpen])
  · intro hloop hconnects hres
    rw [callGoes_loop] at hloop
    rw [hcalls] at hconnects
    have hconnecting : pc.op = .connect → pc = .connecting := by
      intro hop
      cases pc <;> simp_all [Call.op, Call.awaits]
    refine ⟨hloop, fun c hc hop => ?_, ?_⟩
    · obtain ⟨k, hk, rfl⟩ := List.mem_iff_getElem.mp hc
      by_cases hkn : k = n
      · subst hkn
        have hck : w.calls[k] = pc := by
          rw [List.getElem?_eq_getElem hk] at hpc
          exact Option.some.inj hpc
        rw [hck] at hop ⊢
        exact Or.inl (hconnecting hop)
      · refine hconnects _ ?_ hop
        rw [← List.getElem_set_ne (Ne.symm hkn) (by simpa using hk)]
        exact List.getElem_mem _
    · -- a successful open would have ended its call otherwise than by a `LanError`
      intro r' hr' heff
      obtain ⟨rs, hrs⟩ : ∃ rs, w.results = r :: rs := by
        cases hres' : w.results with
        | nil => exact absurd (hres' ▸ hr) (by simp)
        | cons r₀ rs =>
            obtain rfl : r₀ = r := by simpa [hres'] using hr
            exact ⟨rs, rfl⟩
      rw [hrs, List.mem_cons] at hr'
      rcases hr' with rfl | hr'
      · rw [Result.effect, hx] at heff
        cases hj : r'.job with
        | wOpen =>
            cases hv : r'.value with
            | opened version dps =>
                have hop : pc.op = .connect := by
                  cases pc <;> simp_all [Call.op, Call.awaits]
                rw [hconnecting hop, hv] at ht
                have hmem : pc' ∈ w.calls.set n pc' := List.mem_set hlt pc'
                have hend := hconnects pc' hmem (hof.op.trans hop)
                have hpc'' : (∃ dps, pc' = .done .connect (.returned dps)) ∨
                    ∃ e, pc' = .done .connect (.raised (.foreign e)) := by
                  rcases hpc' with rfl | ⟨rfl, _⟩
                  · exact callResume_opened ht
                  · rw [hturn.pc.op, hop]
                    exact Or.inr ⟨_, rfl⟩
                rcases hpc'' with ⟨_, rfl⟩ | ⟨_, rfl⟩
                · simp at hend
                · simp at hend
            | _ => simp [hj, hv, Lan.effect] at heff
        | wDrop => cases hv : r'.value <;> simp [hj, hv, Lan.effect] at heff
        | wCall c => simp [hj, effect_wCall] at heff
      · refine hres r' ?_ heff
        simp [hrs, hr']

/-- The background task takes up the first result. -/
theorem Consistent.resumeLoop {w : World γ} (hw : w.Consistent) {now : ℚ} {r : Result}
    {t : Turn γ Loop} (hr : w.results[0]? = some r) (hx : r.waiter = .loop)
    (hjob : w.loop.awaits = some r.job)
    (ht : loopResume cb now w.dev w.client w.loop r.value = some t)
    (htracked : ({ w with results := w.results.eraseIdx 0 }.loopGoes t).Tracked) :
    ({ w with results := w.results.eraseIdx 0 }.loopGoes t).Consistent := by
  have hturn := loopResume_turned hjob ht
  exact hw.loopGoes
    (PartyStep.of_resume hr (by simp) (by simp [hturn.same.api])
      (by simp [hturn.available, Result.effect, hx]) (by simp) (loopGoes_queue _ t)
      (attended_map (by simp) _))
    htracked rfl hturn.pc

/-- The event loop keeps the invariant.  The cases that move a coroutine come down to the first
result or a new job. -/
theorem Consistent.owner {w w' : World γ} {a : Action} (hw : w.Consistent)
    (hok : w.Ordinary a) (h : OwnerMove cb w a w') : w'.Consistent := by
  have htracked := hw.tracked.owner h
  -- a waiting result is awaited
  have hawaits : ∀ {i : ℕ} {r : Result}, w.results[i]? = some r →
      r.waiter ≠ .nobody ∧ w.awaits r.waiter = some r.job := by
    intro i r hr
    have hmem : (r.waiter, r.job) ∈ w.pending :=
      List.mem_append_left _ (List.mem_map.mpr ⟨r, List.mem_of_getElem? hr, rfl⟩)
    have hx : r.waiter ≠ .nobody := hw.attended _ hmem
    exact ⟨hx, (hw.tracked.of_result hr hx).1⟩
  cases h with
  | startedBefore => exact hw
  | started => exact hw.quiet htracked rfl rfl rfl rfl rfl rfl fun h => absurd h (by simp)
  | begun hloop =>
      exact hw.loopGoes_of_idle (by rw [hloop]; rfl) (loopTop_turned _ _ w.dev w.client)
  | woken _ ht => exact hw.loopGoes_of_idle (loopWake_awaits ht) (loopWake_turned ht)
  | requested hmove => exact hw.requested hok hmove
  | loopResumed hr hx ht =>
      obtain rfl : _ = 0 := hok
      have hjob := (hawaits hr).2
      rw [hx] at hjob
      exact hw.resumeLoop hr hx hjob ht htracked
  | callResumed hr hx hpc ht =>
      obtain rfl : _ = 0 := hok
      have hjob := (hawaits hr).2
      rw [hx, awaits, hpc] at hjob
      exact hw.resumeCall hr hx hpc hjob ht htracked
  | forgotten hr hx => exact absurd hx (hawaits hr).1
  | taskEnded hcall => exact absurd rfl (hw.noClose _ (List.mem_of_getElem? hcall))
  | cancelSuppressed => exact absurd hok id
  | shutdownCancelled => exact absurd hok id
  | cancelled => exact absurd hok id
  | shutdownBegun => exact hw.quiet htracked rfl rfl rfl rfl rfl rfl id
  | shutdownFinished => exact hw.quiet htracked rfl rfl rfl rfl rfl rfl id
  | keyReleased hcall => exact absurd rfl (hw.noClose _ (List.mem_of_getElem? hcall))

/-! ## Runs -/

/-- **Every ordinary step keeps the invariant.** -/
theorem Consistent.step {w w' : World γ} {a : Action} (hw : w.Consistent)
    (hok : w.Ordinary a) (h : w.step cb a = some w') : w'.Consistent := by
  rcases step_moves h with hmove | hmove
  · exact hw.worker hok hmove
  · exact hw.owner hok hmove

/-- No job is queued or running and no result waits. -/
structure AtRest (w : World γ) : Prop where
  queue : w.queue = []
  worker : w.worker = .idle
  results : w.results = []

instance (w : World γ) : Decidable w.AtRest :=
  decidable_of_iff (w.queue = [] ∧ w.worker = .idle ∧ w.results = [])
    ⟨fun ⟨h1, h2, h3⟩ => ⟨h1, h2, h3⟩, fun ⟨h1, h2, h3⟩ => ⟨h1, h2, h3⟩⟩

/-- **Availability tracks the connection.**  In every state of an ordinary run with no job
queued or running and no result waiting, the device is available exactly when a library
connection is held. -/
theorem available_iff_held {config : DeviceConfig} {timings : Timings} {hint : Option PyStr}
    {client : γ} {as : List Action} {w : World γ}
    (hrun : Run (World.step cb) Ordinary (World.init config timings hint client) as w)
    (hrest : w.AtRest) : w.dev.available = true ↔ w.dev.api ≠ none := by
  have hw : w.Consistent :=
    hrun.invariant Consistent (fun _ _ _ hs hok h => hs.step hok h)
      (Consistent.init config timings hint client)
  have hsettled := hw.settled (by rw [hrest.worker]; rfl)
  rw [hrest.results, settle_nil] at hsettled
  rw [hsettled, Option.isSome_iff_ne_none]

/-- A device that connected and started its background task, before that runs. -/
def connected : Option (World Unit) :=
  exec (step (Callbacks.none Unit)) (.init exampleConfig {} none ())
    (openActions ++ [.resume 0 0, .start])

/-- A device connects: it is available, and a connection is held. -/
theorem available_iff_held_connected :
    ∃ w : World Unit, (w.AtRest ∧ w.dev.available = true) ∧
      (w.dev.available = true ↔ w.dev.api ≠ none) := by
  obtain ⟨w, hw⟩ := Option.isSome_iff_exists.mp (show connected.isSome = true by decide +kernel)
  have hrun : Run (step (Callbacks.none Unit)) Ordinary (.init exampleConfig {} none ())
      (openActions ++ [.resume 0 0, .start]) w := Run.of_meets hw (by decide +kernel)
  have hfacts : ∀ w ∈ connected, w.AtRest ∧ w.dev.available = true := by decide +kernel
  obtain ⟨hrest, hav⟩ := hfacts w hw
  exact ⟨w, ⟨hrest, hav⟩, available_iff_held hrun hrest⟩

end World

end Lan
