import HaBirdie.CappedDoubling
import HaBirdie.RationalRounding
import HaBirdie.StepRuns
import Mathlib.Algebra.Order.Field.Rat

/-!
# Searches for a purifier's new address

`purifier/coordinator.py`: the bookkeeping of the searches by key, which all coordinators of
one entry share (`AddressSearch`), with the two notes that change it.  A search starts when
the purifier has been unreachable for a while; while it is not found, the searches of one
outage back off.

The history of the notes says what an outage is: it begins with the first unreachable note
after a reachable one, and its searches are those started until the next reachable note
(`Outage`).  `searches_rare` relates the bookkeeping to it.

The clock is a float number of seconds, and so are the sum and the difference that the guards
compare: they are rounded (`roundBinary64`), and a guard may pass for two readings that are a little
closer than it asks for (`search_early`).  No proof needs the readings to be in order, because each
guard reads the clock anew.
-/

namespace Purifier

open BinaryFloats CappedDoubling StepRuns

/-- `ADDRESS_SEARCH_AFTER`. -/
def addressSearchAfter : ℚ := 10 * 60

/-- `ADDRESS_SEARCH_FIRST_INTERVAL`. -/
def addressSearchFirstInterval : ℚ := 60 * 60

/-- `ADDRESS_SEARCH_MAX_INTERVAL`. -/
def addressSearchMaxInterval : ℚ := 24 * 60 * 60

/-- A search task: when it was started, and whether it still runs. -/
structure SearchTask where
  startedAt : ℚ
  running : Bool

/-- `AddressSearch`; `task` is a number into the tasks that were started. -/
structure AddressSearch where
  unreachableSince : Option ℚ := none
  nextSearch : Option ℚ := none
  interval : ℚ := addressSearchFirstInterval
  task : Option Nat := none

/-- The bookkeeping of an entry and all search tasks started for it. -/
structure Searches where
  search : AddressSearch := {}
  tasks : List SearchTask := []

namespace Searches

/-- `search.task is not None and not search.task.done()`. -/
def searching (s : Searches) : Bool :=
  match s.search.task with
  | some i => (s.tasks[i]?).any SearchTask.running
  | none => false

/-- `_async_note_reachable`. -/
def noteReachable (s : Searches) : Searches :=
  { s with search :=
      { s.search with
        unreachableSince := none
        nextSearch := none
        interval := addressSearchFirstInterval } }

/-- A search starts. -/
def startSearch (now : ℚ) (s : Searches) : Searches where
  search :=
    { s.search with
      nextSearch := some (roundBinary64 (now + s.search.interval))
      interval := min (s.search.interval * 2) addressSearchMaxInterval
      task := some s.tasks.length }
  tasks := s.tasks ++ [⟨now, true⟩]

/-- The next search is still to be waited for. -/
def tooSoon (now : ℚ) (s : Searches) : Bool :=
  match s.search.nextSearch with
  | some t => decide (now < t)
  | none => false

/-- `_async_note_unreachable`. -/
def noteUnreachable (now : ℚ) (s : Searches) : Searches :=
  match s.search.unreachableSince with
  | none => { s with search := { s.search with unreachableSince := some now } }
  | some since =>
      if s.searching then s
      else if roundBinary64 (now - since) < addressSearchAfter then s
      else if s.tooSoon now then s
      else s.startSearch now

/-- A search task ends. -/
def finish (i : Nat) (s : Searches) : Searches :=
  { s with tasks := s.tasks.modify i fun t => { t with running := false } }

/-! ## The searches of an outage -/

/-- What happens to the bookkeeping: the notes of any coordinator, and the end of a task. -/
inductive Note
  | reachable
  | unreachable (now : ℚ)
  | finished (i : Nat)

/-- One step. -/
def step (s : Searches) : Note → Option Searches
  | .reachable => some s.noteReachable
  | .unreachable now => some (s.noteUnreachable now)
  | .finished i => some (s.finish i)

/-- The current outage: its first unreachable note, and the start times of its searches, the
last one first. -/
structure Outage where
  since : Option ℚ := none
  starts : List ℚ := []

/-- How a note, that started a search or not, changes the outage. -/
def Outage.note (o : Outage) (started : Bool) : Note → Outage
  | .reachable => {}
  | .unreachable now =>
      { since := o.since.or (some now), starts := if started then now :: o.starts else o.starts }
  | .finished _ => o

/-- A later note of an outage that starts no search changes nothing. -/
theorem Outage.note_later {o : Outage} {since now : ℚ} (h : o.since = some since) :
    o.note false (.unreachable now) = o := by
  obtain ⟨since', starts⟩ := o
  obtain rfl : since' = some since := h
  rfl

/-- The bookkeeping next to the outage that the notes so far make. -/
def watch (p : Searches × Outage) (a : Note) : Option (Searches × Outage) :=
  (p.1.step a).map fun s => (s, p.2.note (p.1.tasks.length < s.tasks.length) a)

/-- The wait before the search after `k + 1` searches. -/
def interval (k : ℕ) : ℚ := cappedDoubling addressSearchFirstInterval addressSearchMaxInterval k

/-- A search keeps its distance from the one before, as far as the sum of two floats tells. -/
def Apart (k : ℕ) (t t' : ℚ) : Prop := roundBinary64 (t + interval k) ≤ t'

/-- What the bookkeeping knows of the outage. -/
structure Knows (s : Searches) (o : Outage) : Prop where
  since : s.search.unreachableSince = o.since
  interval : s.search.interval = Searches.interval o.starts.length
  nextSearch : s.search.nextSearch =
    o.starts.head?.map fun t => roundBinary64 (t + Searches.interval (o.starts.length - 1))
  after : ∀ t ∈ o.starts, ∃ since,
    o.since = some since ∧ addressSearchAfter ≤ roundBinary64 (t - since)
  spaced : Spaced Apart o.starts
  alone : ∀ i t, s.tasks[i]? = some t → t.running = true → s.search.task = some i

/-- The first interval. -/
theorem interval_zero : interval 0 = addressSearchFirstInterval :=
  cappedDoubling_zero (by decide +kernel)

/-- Each interval doubles the one before, up to the last. -/
theorem interval_succ (k : ℕ) :
    min (interval k * 2) addressSearchMaxInterval = interval (k + 1) :=
  cappedDoubling_succ (by decide +kernel) k

/-- A coordinator just created has searched for nothing. -/
theorem Knows.init : Knows {} {} :=
  ⟨rfl, interval_zero.symm, rfl, by simp, trivial, by simp⟩

/-- A search that starts keeps its distance.  The next search is put off from its own clock value,
so the wait is measured from it. -/
theorem Knows.start {s : Searches} {o : Outage} {now since : ℚ} (h : Knows s o)
    (hsince : o.since = some since) (hafter : addressSearchAfter ≤ roundBinary64 (now - since))
    (hidle : s.searching = false) (hnext : s.tooSoon now = false) :
    Knows (s.startSearch now) { o with starts := now :: o.starts } := by
  refine
    { since := h.since, interval := ?interval, nextSearch := ?nextSearch, after := ?after,
      spaced := ?spaced, alone := ?alone }
  case interval =>
    show min (s.search.interval * 2) addressSearchMaxInterval = _
    rw [h.interval]
    exact interval_succ _
  case nextSearch =>
    show some (roundBinary64 (now + s.search.interval)) = _
    rw [h.interval]
    rfl
  case after =>
    intro t ht
    rcases List.mem_cons.mp ht with rfl | ht
    · exact ⟨since, hsince, hafter⟩
    · exact h.after t ht
  case spaced =>
    refine h.spaced.cons fun t starts hstarts => ?_
    have hwait := h.nextSearch
    rw [hstarts] at hwait
    have hnot : ¬ now < roundBinary64 (t + Searches.interval starts.length) := by
      simpa [tooSoon, hwait] using hnext
    exact not_lt.mp hnot
  case alone =>
    intro i t ht hrun
    rcases Nat.lt_trichotomy i s.tasks.length with hlt | rfl | hgt
    · have hold : s.tasks[i]? = some t := by
        rw [← List.getElem?_append_left hlt]
        exact ht
      have hrunning : s.searching = true := by
        simp [searching, h.alone i t hold hrun, hold, hrun]
      exact absurd (hidle.symm.trans hrunning) (by simp)
    · rfl
    · have hnone : (s.tasks ++ [⟨now, true⟩])[i]? = none :=
        List.getElem?_eq_none (by simp; omega)
      exact absurd (hnone.symm.trans ht) (by simp)

/-- **Each note keeps the bookkeeping in line with the outage.**  The first note of an outage opens
it, the later ones start searches or nothing. -/
theorem Knows.step {p p' : Searches × Outage} {a : Note} (h : Knows p.1 p.2)
    (hstep : watch p a = some p') : Knows p'.1 p'.2 := by
  obtain ⟨s, o⟩ := p
  obtain ⟨s', hs', rfl⟩ := Option.map_eq_some_iff.mp hstep
  dsimp only at h hs' ⊢
  cases a with
  | reachable =>
      obtain rfl := Option.some.inj hs'
      exact ⟨rfl, interval_zero.symm, rfl, by simp [Outage.note], trivial, h.alone⟩
  | finished i =>
      obtain rfl := Option.some.inj hs'
      refine { h with alone := ?_ }
      intro j t ht hrun
      simp only [finish, List.getElem?_modify] at ht
      obtain ⟨t₀, ht₀, rfl⟩ := Option.map_eq_some_iff.mp ht
      by_cases hij : i = j
      · simp [hij] at hrun
      · exact h.alone j t₀ ht₀ (by simpa [hij] using hrun)
  | unreachable now =>
      obtain rfl := Option.some.inj hs'
      have hunchanged : ∀ since, o.since = some since →
          Knows s (o.note (decide (s.tasks.length < s.tasks.length)) (.unreachable now)) := by
        intro since hsince
        rw [decide_eq_false (Nat.lt_irrefl _), Outage.note_later hsince]
        exact h
      cases hsince : s.search.unreachableSince with
      | none =>
          have ho : o.since = none := h.since.symm.trans hsince
          have hstarts : o.starts = [] := by
            cases hstarts : o.starts with
            | nil => rfl
            | cons t starts =>
                obtain ⟨since, hs, _⟩ := h.after t (by simp [hstarts])
                exact absurd (ho.symm.trans hs) (by simp)
          simp only [noteUnreachable, hsince]
          exact
            { since := by simp [Outage.note, ho]
              interval := by simpa [Outage.note] using h.interval
              nextSearch := by simpa [Outage.note, hstarts] using h.nextSearch
              after := by simp [Outage.note, hstarts]
              spaced := by simp [Outage.note, hstarts, Spaced]
              alone := h.alone }
      | some since =>
          have ho : o.since = some since := h.since.symm.trans hsince
          simp only [noteUnreachable, hsince]
          by_cases hrun : s.searching = true
          · rw [if_pos hrun]
            exact hunchanged since ho
          rw [if_neg hrun]
          by_cases hearly : roundBinary64 (now - since) < addressSearchAfter
          · rw [if_pos hearly]
            exact hunchanged since ho
          rw [if_neg hearly]
          by_cases hsoon : s.tooSoon now = true
          · rw [if_pos hsoon]
            exact hunchanged since ho
          rw [if_neg hsoon]
          have hstart := h.start ho (not_lt.mp hearly) (Bool.eq_false_of_not_eq_true hrun)
            (Bool.eq_false_of_not_eq_true hsoon)
          simpa [Outage.note, ho, startSearch] using hstart

/-- No two search tasks run. -/
theorem Knows.one_running {s : Searches} {o : Outage} (h : Knows s o) {i j : ℕ}
    {t t' : SearchTask} (hi : s.tasks[i]? = some t) (ht : t.running = true)
    (hj : s.tasks[j]? = some t') (ht' : t'.running = true) : i = j :=
  Option.some.inj ((h.alone i t hi ht).symm.trans (h.alone j t' hj ht'))

/-- **Address searches are rare and never overlap.**  After any notes of any coordinators, with
search tasks ending at any time: every search of the current outage started at least
`ADDRESS_SEARCH_AFTER` after its first unreachable note, the `k+1`-th and `k+2`-th are at
least `min (FIRST * 2 ^ k) MAX` apart, and at most one search task runs.  The first two hold of the
rounded difference and sum that the guards compare, and so of the exact ones but for a `2 ^ 53`-th
part. -/
theorem searches_rare {as : List Note} {s : Searches} {o : Outage}
    (hrun : Run watch Anything ({}, {}) as (s, o)) :
    (∀ t ∈ o.starts, ∃ since, o.since = some since ∧
      addressSearchAfter ≤ roundBinary64 (t - since) ∧
      addressSearchAfter * (1 - 1 / 2 ^ 53) ≤ t - since) ∧
    (∀ (k : ℕ) (t t' wait : ℚ), o.starts.reverse[k]? = some t →
      o.starts.reverse[k + 1]? = some t' →
      wait = min (addressSearchFirstInterval * 2 ^ k) addressSearchMaxInterval →
      roundBinary64 (t + wait) ≤ t' ∧ wait - |t + wait| / 2 ^ 53 ≤ t' - t) ∧
    (∀ (i j : ℕ) (t t' : SearchTask),
      s.tasks[i]? = some t → t.running = true → s.tasks[j]? = some t' →
      t'.running = true → i = j) := by
  have h : Knows s o :=
    hrun.invariant (fun p => Knows p.1 p.2) (fun _ _ _ hp _ hstep => hp.step hstep) Knows.init
  refine ⟨fun t ht => ?_, fun k t t' wait ht ht' hwait => ?_, fun i j t t' hi hri hj hrj =>
    h.one_running hi hri hj hrj⟩
  · obtain ⟨since, hsince, hafter⟩ := h.after t ht
    have hpositive : 0 < addressSearchAfter := by
      unfold addressSearchAfter
      norm_num
    exact ⟨since, hsince, hafter, le_of_le_roundBinary64 hpositive hafter⟩
  · have hspace : roundBinary64 (t + wait) ≤ t' := hwait ▸ h.spaced.get ht ht'
    have hnear := (abs_le.mp (roundBinary64_near (t + wait))).1
    exact ⟨hspace, by linarith⟩

/-- Two searches of one outage: the first when it has lasted for ten minutes, the second an hour
later. -/
theorem searches_rare_twice :
    ∃ (s : Searches) (o : Outage), o.starts = [4200, 600] ∧
      (∀ t ∈ o.starts, ∃ since, o.since = some since ∧
        addressSearchAfter ≤ roundBinary64 (t - since) ∧
        addressSearchAfter * (1 - 1 / 2 ^ 53) ≤ t - since) ∧
      (∀ (k : ℕ) (t t' wait : ℚ), o.starts.reverse[k]? = some t →
        o.starts.reverse[k + 1]? = some t' →
        wait = min (addressSearchFirstInterval * 2 ^ k) addressSearchMaxInterval →
        roundBinary64 (t + wait) ≤ t' ∧ wait - |t + wait| / 2 ^ 53 ≤ t' - t) ∧
      (∀ (i j : ℕ) (t t' : SearchTask), s.tasks[i]? = some t → t.running = true →
        s.tasks[j]? = some t' → t'.running = true → i = j) := by
  let execution := exec watch ({}, {})
    [.unreachable 0, .unreachable 600, .unreachable 700, .finished 0, .unreachable 4200]
  obtain ⟨⟨s, o⟩, hw⟩ :=
    Option.isSome_iff_exists.mp (show execution.isSome = true by decide +kernel)
  have hfacts : ∀ p ∈ execution, p.2.starts = [4200, 600] := by decide +kernel
  exact ⟨s, o, hfacts _ hw, searches_rare (Run.of_exec hw)⟩

/-- The float next to `72.099863748` seconds. -/
def outageReading : ℚ := 5073576867327443 / 2 ^ 46

/-- The float next to `672.099863748` seconds. -/
def firstReading : ℚ := 2955926460870365 / 2 ^ 42

/-- The float next to `4272.099863748` seconds. -/
def secondReading : ℚ := 4697223475211191 / 2 ^ 40

/-- **A search may start a little early.**  The three readings are floats in order of time, a search
starts at the second and, with the first one over, at the third; but the first two are less than
`ADDRESS_SEARCH_AFTER` apart, and the last two less than `ADDRESS_SEARCH_FIRST_INTERVAL`. -/
theorem search_early :
    (∀ t ∈ [outageReading, firstReading, secondReading], roundBinary64 t = t) ∧
    outageReading < firstReading ∧ firstReading < secondReading ∧
    ∃ (s : Searches) (o : Outage),
      Run watch Anything ({}, {})
        [.unreachable outageReading, .unreachable firstReading, .finished 0,
          .unreachable secondReading] (s, o) ∧
      o.since = some outageReading ∧ o.starts = [secondReading, firstReading] ∧
      firstReading - outageReading < addressSearchAfter ∧
      secondReading - firstReading < addressSearchFirstInterval := by
  have hreadings : (∀ t ∈ [outageReading, firstReading, secondReading], roundBinary64 t = t) ∧
      outageReading < firstReading ∧ firstReading < secondReading ∧
      firstReading - outageReading < addressSearchAfter ∧
      secondReading - firstReading < addressSearchFirstInterval := by decide +kernel
  obtain ⟨hfloats, hlt, hlt', hearly, hearly'⟩ := hreadings
  let execution := exec watch ({}, {})
    [.unreachable outageReading, .unreachable firstReading, .finished 0,
      .unreachable secondReading]
  have hexecution : execution.isSome = true ∧ ∀ p ∈ execution,
      p.2.since = some outageReading ∧ p.2.starts = [secondReading, firstReading] := by
    decide +kernel
  obtain ⟨⟨s, o⟩, hw⟩ := Option.isSome_iff_exists.mp hexecution.1
  obtain ⟨hsince, hstarts⟩ := hexecution.2 _ hw
  exact ⟨hfloats, hlt, hlt', s, o, Run.of_exec hw, hsince, hstarts, hearly, hearly'⟩

end Searches

end Purifier
