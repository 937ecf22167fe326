import Mathlib

/-!
# Signs and finiteness of binary64 results

Facts about Lean's model of `Float` that a program needs in order to know that a
computation on non-negative numbers ends in a finite one:

* `NonNegative` — not a number, or a value with the positive sign; kept by packing to 64
  bits, by multiplication and by division, and met by every non-negative integer;
* `isFinite_min` — the smaller of a finite number and a non-negative one is finite, also
  where the latter is infinite or not a number.
-/

namespace BinaryFloats

open Float.Model Float.Model.UnpackedFloat

/-- No negative sign: not a number, or positive (positive zero included). -/
def NonNegative : UnpackedFloat → Prop
  | .notANumber => True
  | .infinity s => s = .positive
  | .zero s => s = .positive
  | .finite s _ _ _ => s = .positive

instance : DecidablePred NonNegative := fun
  | .notANumber => isTrue trivial
  | .infinity .positive | .zero .positive | .finite .positive _ _ _ => isTrue rfl
  | .infinity .negative | .zero .negative | .finite .negative _ _ _ =>
      isFalse fun h => by cases h

/-- Unpacking bits with a positive sign bit gives no negative sign.  The other fields of the word
do not matter. -/
theorem nonNegative_unpack {spec : Format} {b : BitVec spec.numBits}
    (hsign : unpackSign b = 0#1) : NonNegative (UnpackedFloat.unpack spec b) := by
  have hs : Sign.ofBitVec (unpackSign b) = .positive := by
    rw [hsign]
    rfl
  unfold UnpackedFloat.unpack
  dsimp only
  rw [hs]
  split
  · split
    · rfl
    · trivial
  · split
    · split
      · rfl
      · rfl
    · rfl

/-- Packing keeps the positive sign bit, for zeros, infinities and finite numbers alike. -/
theorem unpackSign_pack {spec : Format} {u : UnpackedFloat} (hu : NonNegative u) :
    unpackSign (UnpackedFloat.pack spec u) = 0#1 := by
  cases u with
  | notANumber => exact unpackSign_packComponents _ _ _
  | infinity s =>
      obtain rfl : s = .positive := hu
      exact unpackSign_packComponents _ _ _
  | zero s =>
      obtain rfl : s = .positive := hu
      exact unpackSign_packComponents _ _ _
  | finite s m e hm =>
      obtain rfl : s = .positive := hu
      unfold UnpackedFloat.pack
      dsimp only
      split
      · exact unpackSign_packComponents _ _ _
      · split
        · exact unpackSign_packComponents _ _ _
        · exact unpackSign_packComponents _ _ _

/-- Packing does not change the sign. -/
theorem nonNegative_unpack_pack {u : UnpackedFloat} (hu : NonNegative u) :
    NonNegative (Float.Model.pack u).unpack :=
  nonNegative_unpack (unpackSign_pack hu)

/-- Rounding a positive number does not make it negative, even where it overflows. -/
theorem nonNegative_roundWithAccuracy (spec : Format) (m : Nat) (e : Int)
    (a : Accuracy) : NonNegative (roundWithAccuracy spec .positive m e a) := by
  unfold roundWithAccuracy
  dsimp only
  split
  · rfl
  · rfl

/-- The product of floats that are not negative is not negative, or not a number. -/
theorem nonNegative_mul (spec : Format) {u v : UnpackedFloat}
    (hu : NonNegative u) (hv : NonNegative v) :
    NonNegative (UnpackedFloat.mul spec u v) := by
  cases u <;> cases v <;> simp only [NonNegative] at hu hv <;> subst_vars <;>
    first
    | trivial
    | exact nonNegative_roundWithAccuracy _ _ _ _

/-- So is their quotient. -/
theorem nonNegative_div (spec : Format) {u v : UnpackedFloat}
    (hu : NonNegative u) (hv : NonNegative v) :
    NonNegative (UnpackedFloat.div spec u v) := by
  cases u <;> cases v <;> simp only [NonNegative] at hu hv <;> subst_vars <;>
    first
    | trivial
    | exact nonNegative_roundWithAccuracy _ _ _ _

/-- A natural number as a float is not negative. -/
theorem nonNegative_ofInt (spec : Format) {n : Int} (hn : 0 ≤ n) :
    NonNegative (UnpackedFloat.ofInt spec n) := by
  unfold UnpackedFloat.ofInt UnpackedFloat.normalize
  cases h : compare n 0 with
  | lt => exact absurd (Int.compare_eq_lt.mp h) (by omega)
  | eq => rfl
  | gt => exact nonNegative_roundWithAccuracy _ _ _ _

/-- A `Float` without a negative sign. -/
def NonNegativeFloat (x : Float) : Prop := NonNegative x.toModel.unpack

instance : DecidablePred NonNegativeFloat := fun x =>
  inferInstanceAs (Decidable (NonNegative x.toModel.unpack))

/-- The product of two floats that are not negative is not negative, or not a number. -/
theorem NonNegativeFloat.mul {x y : Float}
    (hx : NonNegativeFloat x) (hy : NonNegativeFloat y) : NonNegativeFloat (x * y) :=
  nonNegative_unpack_pack (nonNegative_mul _ hx hy)

/-- So is their quotient, where infinities come in as well. -/
theorem NonNegativeFloat.div {x y : Float}
    (hx : NonNegativeFloat x) (hy : NonNegativeFloat y) : NonNegativeFloat (x / y) :=
  nonNegative_unpack_pack (nonNegative_div _ hx hy)

/-- A natural number converted to a float is not negative. -/
theorem NonNegativeFloat.ofInt {n : Int} (hn : 0 ≤ n) :
    NonNegativeFloat (Float.ofModel (Float.Model.ofInt n)) :=
  nonNegative_unpack_pack (nonNegative_ofInt _ hn)

/-- **Capping.**  The smaller of a finite number and a non-negative one is finite.  Infinity is not
smaller than any finite bound. -/
theorem isFinite_min {x bound : Float} (hx : NonNegativeFloat x)
    (hbound : bound.toModel.unpack.isFinite = true) :
    (if x < bound then x else bound).toModel.unpack.isFinite = true := by
  by_cases hlt : x < bound
  · rw [if_pos hlt]
    have hcmp : UnpackedFloat.lt x.toModel.unpack bound.toModel.unpack = true :=
      of_decide_eq_true hlt
    have hpos : NonNegative x.toModel.unpack := hx
    cases hux : x.toModel.unpack with
    | notANumber =>
        rw [hux] at hcmp
        simp [UnpackedFloat.lt, UnpackedFloat.compare] at hcmp
    | infinity s =>
        rw [hux] at hcmp hpos
        obtain rfl : s = .positive := hpos
        cases hub : bound.toModel.unpack with
        | notANumber => simp [hub, UnpackedFloat.isFinite] at hbound
        | infinity t => simp [hub, UnpackedFloat.isFinite] at hbound
        | zero t => simp [hub, UnpackedFloat.lt, UnpackedFloat.compare] at hcmp
        | finite t m e hm => simp [hub, UnpackedFloat.lt, UnpackedFloat.compare] at hcmp
    | zero s => rfl
    | finite s m e hm => rfl
  · rw [if_neg hlt]
    exact hbound

end BinaryFloats
