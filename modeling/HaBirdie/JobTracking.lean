import Mathlib.Data.List.Basic
import Mathlib.Tactic.Common

/-!
# Which jobs a party has outstanding

A queue of jobs, each submitted for one party, is a list of pairs.  `jobsOf x l` are the
jobs of the party `x` in order.  The lemmas say how it changes when a job is appended,
removed, or handed over to another party (`relabel`), for the party itself and for
everybody else.
-/

namespace JobTracking

variable {ω κ : Type*} [DecidableEq ω]

/-- The jobs of one party, in order. -/
def jobsOf (x : ω) (l : List (ω × κ)) : List κ :=
  (l.filter fun p => p.1 = x).map Prod.snd

@[simp] theorem jobsOf_nil (x : ω) : jobsOf x ([] : List (ω × κ)) = [] := rfl

@[simp] theorem jobsOf_cons_self (x : ω) (job : κ) (l : List (ω × κ)) :
    jobsOf x ((x, job) :: l) = job :: jobsOf x l := by
  simp [jobsOf]

/-- The jobs of others do not count. -/
theorem jobsOf_cons_other {x y : ω} (h : y ≠ x) (job : κ) (l : List (ω × κ)) :
    jobsOf x ((y, job) :: l) = jobsOf x l := by
  simp [jobsOf, h]

@[simp] theorem jobsOf_append (x : ω) (l m : List (ω × κ)) :
    jobsOf x (l ++ m) = jobsOf x l ++ jobsOf x m := by
  simp [jobsOf]

@[simp] theorem mem_jobsOf {x : ω} {job : κ} {l : List (ω × κ)} :
    job ∈ jobsOf x l ↔ (x, job) ∈ l := by
  simp [jobsOf]

/-- Removing one entry splits the list around it. -/
theorem split_eraseIdx {α : Type*} {l : List α} {i : ℕ} {a : α} (h : l[i]? = some a) :
    l = l.take i ++ a :: l.drop (i + 1) ∧ l.eraseIdx i = l.take i ++ l.drop (i + 1) := by
  obtain ⟨hi, rfl⟩ := List.getElem?_eq_some_iff.mp h
  refine ⟨?_, List.eraseIdx_eq_take_drop_succ l i⟩
  rw [← List.drop_eq_getElem_cons hi, List.take_append_drop]

/-- Removing the only job of a party leaves it none. -/
theorem jobsOf_erase_self {x : ω} {job job' : κ} {l : List (ω × κ)} {i : ℕ}
    (h : l[i]? = some (x, job)) (honly : jobsOf x l = [job']) :
    job = job' ∧ jobsOf x (l.eraseIdx i) = [] := by
  obtain ⟨hl, herase⟩ := split_eraseIdx h
  rw [hl, jobsOf_append, jobsOf_cons_self] at honly
  rw [herase, jobsOf_append]
  cases hfront : jobsOf x (l.take i) with
  | nil =>
      rw [hfront] at honly
      obtain ⟨rfl, hback⟩ := List.cons.inj honly
      exact ⟨rfl, hback⟩
  | cons a as =>
      rw [hfront] at honly
      exact absurd (congrArg List.length honly) (by simp)

/-- Removing a job leaves the other parties' alone. -/
theorem jobsOf_erase_other {x y : ω} {job : κ} {l : List (ω × κ)} {i : ℕ}
    (h : l[i]? = some (y, job)) (hne : y ≠ x) :
    jobsOf x (l.eraseIdx i) = jobsOf x l := by
  obtain ⟨hl, herase⟩ := split_eraseIdx h
  rw [herase, jobsOf_append]
  conv_rhs => rw [hl, jobsOf_append, jobsOf_cons_other hne]

/-- Hand all jobs of a party over to another. -/
def relabel (x y : ω) (l : List (ω × κ)) : List (ω × κ) :=
  l.map fun p => (if p.1 = x then y else p.1, p.2)

@[simp] theorem relabel_append (x y : ω) (l m : List (ω × κ)) :
    relabel x y (l ++ m) = relabel x y l ++ relabel x y m := by
  simp [relabel]

/-- The party that hands over keeps nothing. -/
theorem jobsOf_relabel_self {x y : ω} (hne : x ≠ y) (l : List (ω × κ)) :
    jobsOf x (relabel x y l) = [] := by
  induction l with
  | nil => rfl
  | cons p l ih =>
      have hp : (if p.1 = x then y else p.1) ≠ x := by
        split
        · exact hne.symm
        · assumption
      exact (jobsOf_cons_other hp p.2 _).trans ih

/-- Third parties are not affected. -/
theorem jobsOf_relabel_other {x y z : ω} (hx : z ≠ x) (hy : z ≠ y) (l : List (ω × κ)) :
    jobsOf z (relabel x y l) = jobsOf z l := by
  induction l with
  | nil => rfl
  | cons p l ih =>
      have hhead : jobsOf z (relabel x y (p :: l)) =
          jobsOf z [((if p.1 = x then y else p.1), p.2)] ++ jobsOf z (relabel x y l) :=
        jobsOf_append z [_] _
      have hone : jobsOf z [((if p.1 = x then y else p.1), p.2)] = jobsOf z [p] := by
        by_cases hpx : p.1 = x
        · rw [if_pos hpx, jobsOf_cons_other hy.symm,
            show p = (p.1, p.2) from rfl, jobsOf_cons_other (hpx ▸ hx.symm)]
        · rw [if_neg hpx]
      rw [hhead, hone, ih]
      exact (jobsOf_append z [p] l).symm

end JobTracking
