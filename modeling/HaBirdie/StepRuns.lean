import Mathlib.Data.List.Basic
import Mathlib.Tactic.Common

/-!
# Runs of a partial step function

A machine is given by a partial step function `step : σ → α → Option σ`: in a
state, an action is either refused (`none`) or leads to one next state.  All
nondeterminism (which party moves, what its environment answers) sits in the
action.  A run is a list of actions, each accepted in turn.

Assumptions on a run are a predicate `ok : σ → α → Prop` on the state before a
step and its action, so that "every step of the run meets the condition" is
part of the run itself:

* `Run step ok s as t` — from `s`, the actions `as` are all accepted, all meet
  `ok`, and lead to `t`;
* `Run.invariant` — what every step preserves, every run preserves;
* `Happened`, `since`, `Run.history` — what a run has gone through, also after one more step, and
  the invariants that refer to it: that something is so only because of an earlier step;
* `Run.ok_of_happened` — every step it has gone through meets the assumption;
* `Run.simulates` — a machine whose steps another one can follow is followed by it in every run;
* `reaches` — where some step always brings a goal nearer, a run leads to it;
* `Run.congr` — assumptions that agree on accepted steps have the same runs;
* `Run.of_exec`, `Run.of_meets` — the same runs computed, for closed examples.
-/

namespace StepRuns

variable {σ α : Type*}

/-- A run of the step function `step` all of whose steps meet `ok`. -/
inductive Run (step : σ → α → Option σ) (ok : σ → α → Prop) : σ → List α → σ → Prop
  | nil (s : σ) : Run step ok s [] s
  | cons {s t u : σ} {a : α} {as : List α}
      (hok : ok s a) (hstep : step s a = some t)
      (tail : Run step ok t as u) : Run step ok s (a :: as) u

/-- The assumption that excludes nothing. -/
def Anything (_ : σ) (_ : α) : Prop := True

/-- Execute a list of actions, stopping at the first refused one. -/
def exec (step : σ → α → Option σ) : σ → List α → Option σ
  | s, [] => some s
  | s, a :: as => (step s a).bind fun t => exec step t as

/-- Every step of the execution meets the assumption. -/
def Meets (step : σ → α → Option σ) (ok : σ → α → Prop) : σ → List α → Prop
  | _, [] => True
  | s, a :: as => ok s a ∧ ∀ t ∈ step s a, Meets step ok t as

variable {step : σ → α → Option σ} {ok : σ → α → Prop}

instance Meets.decidable [∀ s a, Decidable (ok s a)] :
    ∀ (s : σ) (as : List α), Decidable (Meets step ok s as)
  | _, [] => isTrue trivial
  | s, a :: as =>
      have := fun t => Meets.decidable t as
      inferInstanceAs (Decidable (ok s a ∧ ∀ t ∈ step s a, Meets step ok t as))

/-- What executes is a run. -/
theorem Run.of_exec {s t : σ} {as : List α} (h : exec step s as = some t) :
    Run step Anything s as t := by
  induction as generalizing s with
  | nil =>
      obtain rfl : s = t := by simpa [exec] using h
      exact Run.nil s
  | cons a as ih =>
      obtain ⟨u, hstep, hrest⟩ := Option.bind_eq_some_iff.mp h
      exact Run.cons trivial hstep (ih hrest)

/-- What executes and meets the assumption is a run under it. -/
theorem Run.of_meets {s t : σ} {as : List α} (h : exec step s as = some t)
    (hmeets : Meets step ok s as) : Run step ok s as t := by
  induction as generalizing s with
  | nil =>
      obtain rfl : s = t := by simpa [exec] using h
      exact Run.nil s
  | cons a as ih =>
      obtain ⟨u, hstep, hrest⟩ := Option.bind_eq_some_iff.mp h
      exact Run.cons hmeets.1 hstep (ih hrest (hmeets.2 u hstep))

/-- A run meets the assumption when executed. -/
theorem Run.meets {s t : σ} {as : List α} (hrun : Run step ok s as t) :
    Meets step ok s as := by
  induction hrun with
  | nil => trivial
  | cons hok hstep _ ih =>
      refine ⟨hok, fun t ht => ?_⟩
      obtain rfl := Option.some.inj (hstep.symm.trans ht)
      exact ih

/-- **Invariant rule.**  A predicate preserved by every step that meets the
assumption is preserved by every run. -/
theorem Run.invariant (inv : σ → Prop) {s t : σ} {as : List α}
    (hrun : Run step ok s as t)
    (hpres : ∀ s a t, inv s → ok s a → step s a = some t → inv t)
    (hs : inv s) : inv t := by
  induction hrun with
  | nil => exact hs
  | cons hok hstep _ ih => exact ih (hpres _ _ _ hs hok hstep)

/-- One more step. -/
theorem Run.concat {s t u : σ} {a : α} {as : List α} (hrun : Run step ok s as t) (hok : ok t a)
    (hstep : step t a = some u) : Run step ok s (as ++ [a]) u := by
  induction hrun with
  | nil => exact Run.cons hok hstep (Run.nil u)
  | cons hok' hstep' _ ih => exact Run.cons hok' hstep' (ih hok hstep)

/-- **Simulation rule.**  If a second machine can follow every step that meets the assumption, and
its states stay related, then it follows every run. -/
theorem Run.simulates {τ β : Type*} {step' : τ → β → Option τ} (rel : σ → τ → Prop) (f : α → β)
    {s t : σ} {s' : τ} {as : List α} (hrun : Run step ok s as t)
    (hsim : ∀ s a t s', rel s s' → ok s a → step s a = some t →
      ∃ t', step' s' (f a) = some t' ∧ rel t t')
    (hs : rel s s') : ∃ t', StepRuns.exec step' s' (as.map f) = some t' ∧ rel t t' := by
  induction hrun generalizing s' with
  | nil => exact ⟨s', rfl, hs⟩
  | cons hok hstep _ ih =>
      obtain ⟨u', hstep', hu⟩ := hsim _ _ _ _ hs hok hstep
      obtain ⟨t', hexec, ht⟩ := ih hu
      exact ⟨t', by simpa [StepRuns.exec, hstep'] using hexec, ht⟩

/-- **Progress rule.**  If as long as the goal is not met some step meets the assumption, keeps the
invariant and makes a measure smaller, then a run of no more steps than the measure meets the
goal. -/
theorem reaches (inv goal : σ → Prop) (μ : σ → ℕ)
    (hnext : ∀ s, inv s → ¬ goal s →
      ∃ a t, ok s a ∧ step s a = some t ∧ inv t ∧ μ t < μ s) {s : σ} (hs : inv s) :
    ∃ as t, Run step ok s as t ∧ inv t ∧ goal t ∧ as.length ≤ μ s := by
  induction hμ : μ s using Nat.strongRecOn generalizing s with
  | _ n ih =>
      by_cases hgoal : goal s
      · exact ⟨[], s, Run.nil s, hs, hgoal, Nat.zero_le n⟩
      · obtain ⟨a, t, hok, hstep, ht, hless⟩ := hnext s hs hgoal
        obtain ⟨as, u, hrun, hu, hgoal', hlength⟩ := ih (μ t) (by omega) ht rfl
        refine ⟨a :: as, u, Run.cons hok hstep hrun, hu, hgoal', ?_⟩
        rw [List.length_cons]
        omega

/-- In the run of `as` from `s`, the action `a` was taken in the state `u`. -/
def Happened (step : σ → α → Option σ) (s : σ) (as : List α) (u : σ) (a : α) : Prop :=
  ∃ before after, as = before ++ a :: after ∧ exec step s before = some u

/-- Executing two lists of actions is executing one after the other. -/
theorem exec_append (s : σ) (as bs : List α) :
    exec step s (as ++ bs) = (exec step s as).bind fun t => exec step t bs := by
  induction as generalizing s with
  | nil => rfl
  | cons a as ih =>
      simp only [List.cons_append, exec, Option.bind_assoc]
      exact congrArg _ (funext fun t => ih t)

/-- What a run executes. -/
theorem Run.exec {s t : σ} {as : List α} (hrun : Run step ok s as t) :
    exec step s as = some t := by
  induction hrun with
  | nil => rfl
  | cons _ hstep _ ih => simpa [StepRuns.exec, hstep] using ih

/-- One more step: the history grows by it, and by nothing else. -/
theorem happened_concat {s t u : σ} {as : List α} {a b : α}
    (h : StepRuns.exec step s as = some t) :
    Happened step s (as ++ [a]) u b ↔ Happened step s as u b ∨ u = t ∧ b = a := by
  constructor
  · intro hparts
    obtain ⟨before, after, hsplit, hexec⟩ := hparts
    rcases List.eq_nil_or_concat after with rfl | ⟨after, c, rfl⟩
    · obtain ⟨rfl, hab⟩ := List.append_inj' hsplit rfl
      obtain rfl : a = b := List.singleton_injective hab
      exact Or.inr ⟨Option.some.inj (hexec.symm.trans h), rfl⟩
    · rw [List.concat_eq_append, ← List.cons_append, ← List.append_assoc] at hsplit
      exact Or.inl ⟨before, after, (List.append_inj' hsplit rfl).1, hexec⟩
  · intro hcases
    rcases hcases with ⟨before, after, rfl, hexec⟩ | ⟨rfl, rfl⟩
    · exact ⟨before, after ++ [a], by simp, hexec⟩
    · exact ⟨as, [], rfl, h⟩

/-- The past after one more step. -/
def since (past : σ → α → Prop) (s : σ) (a : α) : σ → α → Prop :=
  fun u b => past u b ∨ u = s ∧ b = a

/-- What holds of every step of the past and of the one more. -/
theorem forall_since {past p : σ → α → Prop} {s : σ} {a : α} :
    (∀ u b, since past s a u b → p u b) ↔ (∀ u b, past u b → p u b) ∧ p s a := by
  constructor
  · intro h
    exact ⟨fun u b hub => h u b (Or.inl hub), h s a (Or.inr ⟨rfl, rfl⟩)⟩
  · intro hparts u b hcases
    obtain ⟨hpast, hlast⟩ := hparts
    rcases hcases with hub | ⟨rfl, rfl⟩
    · exact hpast u b hub
    · exact hlast

/-- **Invariant rule with history.**  The invariant may refer to the steps taken so far. -/
theorem Run.history (inv : (σ → α → Prop) → σ → Prop) {s t : σ} {as : List α}
    (hrun : Run step ok s as t)
    (hpres : ∀ past u a v, inv past u → ok u a → step u a = some v →
      inv (fun w b => past w b ∨ w = u ∧ b = a) v)
    (hs : inv (fun _ _ => False) s) : inv (Happened step s as) t := by
  suffices hmain : ∀ bs u, StepRuns.exec step s bs = some u → inv (Happened step s bs) u →
      ∀ cs, Run step ok u cs t → inv (Happened step s (bs ++ cs)) t by
    refine hmain [] s rfl ?_ as hrun
    have hnone : Happened step s [] = fun _ _ => False := by
      funext u a
      simp [Happened]
    rw [hnone]
    exact hs
  clear hrun
  intro bs u hbs hinv cs hcs
  induction hcs generalizing bs with
  | nil => simpa using hinv
  | @cons u v t a cs hok hstep _ ih =>
      have hgrown : Happened step s (bs ++ [a]) = fun w b =>
          Happened step s bs w b ∨ w = u ∧ b = a := by
        funext w b
        exact propext (happened_concat hbs)
      have hbs' : StepRuns.exec step s (bs ++ [a]) = some v := by
        simp [exec_append, hbs, StepRuns.exec, hstep]
      have hinv' : inv (Happened step s (bs ++ [a])) v := by
        rw [hgrown]
        exact hpres _ _ _ _ hinv hok hstep
      simpa using ih (bs ++ [a]) hbs' hinv'

/-- Every step of a run meets the assumption. -/
theorem Run.ok_of_happened {s t u : σ} {a : α} {as : List α} (hrun : Run step ok s as t)
    (h : Happened step s as u a) : ok u a := by
  obtain ⟨before, after, rfl, hexec⟩ := h
  induction before generalizing s with
  | nil =>
      obtain rfl : s = u := Option.some.inj hexec
      cases hrun with
      | cons hok _ _ => exact hok
  | cons b before ih =>
      obtain ⟨v, hstep, hrest⟩ := Option.bind_eq_some_iff.mp hexec
      cases hrun with
      | cons _ hstep' tail =>
          obtain rfl := Option.some.inj (hstep.symm.trans hstep')
          exact ih hrest tail

/-- Assumptions that agree on every accepted step have the same runs. -/
theorem Run.congr {ok' : σ → α → Prop}
    (h : ∀ s a t, step s a = some t → (ok s a ↔ ok' s a)) {s t : σ} {as : List α} :
    Run step ok s as t ↔ Run step ok' s as t := by
  constructor
  · intro hrun
    induction hrun with
    | nil s => exact Run.nil s
    | cons hok hstep _ ih => exact Run.cons ((h _ _ _ hstep).mp hok) hstep ih
  · intro hrun
    induction hrun with
    | nil s => exact Run.nil s
    | cons hok hstep _ ih => exact Run.cons ((h _ _ _ hstep).mpr hok) hstep ih

end StepRuns
