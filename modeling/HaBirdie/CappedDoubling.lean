import Mathlib.Algebra.Order.Field.Basic
import Mathlib.Tactic.Ring
import Mathlib.Tactic.Linarith

/-!
# Capped doubling

The waiting times of an exponential back-off: `cappedDoubling first cap k` is the `k`-th
wait, which doubles from `first` on and never exceeds `cap`.  Doubling and capping one wait
gives the next (`cappedDoubling_succ`), so a program need not keep `k`.

What is kept apart by waits that depend on how many there were before is `Spaced`, whatever the
waits are.
-/

namespace CappedDoubling

variable {α : Type*} [Field α] [LinearOrder α]

/-- The `k`-th wait. -/
def cappedDoubling (first cap : α) (k : ℕ) : α := min (first * 2 ^ k) cap

variable {first cap : α}

/-- The first wait is the one to start with. -/
theorem cappedDoubling_zero (h : first ≤ cap) : cappedDoubling first cap 0 = first := by
  simp [cappedDoubling, h]

variable [IsStrictOrderedRing α]

/-- **The next wait** is the last one doubled and capped. -/
theorem cappedDoubling_succ (hcap : 0 ≤ cap) (k : ℕ) :
    min (cappedDoubling first cap k * 2) cap = cappedDoubling first cap (k + 1) := by
  unfold cappedDoubling
  have hpow : first * 2 ^ (k + 1) = first * 2 ^ k * 2 := by ring
  rw [hpow]
  rcases le_total (first * 2 ^ k) cap with hle | hle
  · rw [min_eq_left hle]
  · rw [min_eq_right hle, min_eq_right (by linarith), min_eq_right (by linarith)]

/-! ## What is kept apart -/

section Spaced

variable {β : Type*} {apart : ℕ → β → β → Prop}

/-- Each member of a list, the last one first, is `apart` from the one before it, by the wait with
that one's number. -/
def Spaced (apart : ℕ → β → β → Prop) : List β → Prop
  | b :: a :: rest => apart rest.length a b ∧ Spaced apart (a :: rest)
  | _ => True

/-- A member that is apart from the last one goes on top. -/
theorem Spaced.cons {xs : List β} {b : β} (h : Spaced apart xs)
    (hb : ∀ a rest, xs = a :: rest → apart rest.length a b) : Spaced apart (b :: xs) := by
  cases xs with
  | nil => exact trivial
  | cons a rest => exact ⟨hb a rest rfl, h⟩

/-- **In order of time** the `k+1`-th and the `k+2`-th member are apart by the `k`-th wait. -/
theorem Spaced.get {xs : List β} (h : Spaced apart xs) {k : ℕ} {a b : β}
    (ha : xs.reverse[k]? = some a) (hb : xs.reverse[k + 1]? = some b) : apart k a b := by
  induction xs with
  | nil => exact absurd ha (by simp)
  | cons y xs ih =>
      cases xs with
      | nil => exact absurd hb (by simp)
      | cons x rest =>
          rw [List.reverse_cons] at ha hb
          have hlen : (x :: rest).reverse.length = rest.length + 1 := by simp
          rcases Nat.lt_trichotomy k rest.length with hlt | rfl | hgt
          · rw [List.getElem?_append_left (by omega)] at ha hb
            exact ih h.2 ha hb
          · -- the last two members
            rw [List.getElem?_append_left (by omega)] at ha
            rw [List.getElem?_append_right (by omega)] at hb
            obtain rfl : y = b := by simpa [hlen] using hb
            obtain rfl : x = a := by simpa using ha
            exact h.1
          · rw [List.getElem?_eq_none (by simp; omega)] at hb
            exact absurd hb (by simp)

end Spaced

end CappedDoubling
