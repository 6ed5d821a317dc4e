import Mathlib.Tactic.LinearCombination
import Mathlib.Tactic.FieldSimp
import Mathlib.Tactic.Ring
import Mathlib.Algebra.Field.Basic
import Mathlib.Algebra.Group.Defs

/-!
# The group of a twisted Edwards curve

The points of `-x² + y² = 1 + d x² y²` form a commutative group if `-1` is a square and `d` is not:
the denominators of a sum never vanish, so that one formula serves for all pairs of points. All of
this is elementary except associativity, which is an identity between polynomials modulo the three
curve equations.
-/

namespace TokenLedger

/-- A curve `-x² + y² = 1 + d x² y²` whose addition formula has no exceptions. -/
structure Edwards (K : Type*) [Field K] where
  d : K
  i : K
  i_sq : i ^ 2 = -1
  two_ne_zero : (2 : K) ≠ 0
  d_not_square : ∀ r, r ^ 2 ≠ d

namespace Edwards

variable {K : Type*} [Field K] {C : Edwards K}

/-- A point of the curve, by its two coordinates. -/
@[ext]
structure Point (C : Edwards K) where
  x : K
  y : K
  on_curve : y ^ 2 - x ^ 2 = 1 + C.d * x ^ 2 * y ^ 2

theorem eq_zero_of_sq_eq {a b : K} (squares : a ^ 2 = C.d * b ^ 2) : b = 0 := by
  by_contra nonzero
  refine C.d_not_square (a / b) ?_
  field_simp
  linear_combination squares

namespace Point

/-! ## Sums -/

/-- What the denominators of a sum differ from one by. -/
def cross (P Q : C.Point) : K := C.d * P.x * Q.x * P.y * Q.y

/-- The numerator of the first coordinate of a sum. -/
def numX (P Q : C.Point) : K := P.x * Q.y + P.y * Q.x

/-- The numerator of the second coordinate of a sum. -/
def numY (P Q : C.Point) : K := P.y * Q.y + P.x * Q.x

theorem sq_cross_ne_one (P Q : C.Point) : cross P Q ^ 2 ≠ 1 := by
  intro one
  -- either root of -1 gives a square that is d times a square
  have key (i : K) (root : i ^ 2 = -1) : P.x * P.y * (i * Q.x + Q.y) = 0 := by
    refine eq_zero_of_sq_eq (C := C) (a := i * P.x + cross P Q * P.y) ?_
    unfold cross at *
    linear_combination (P.x ^ 2 - C.d * P.x ^ 2 * P.y ^ 2 * Q.x ^ 2) * root + P.y ^ 2 * one
      - C.d * P.x ^ 2 * P.y ^ 2 * Q.on_curve + P.on_curve - one
  have plus := key C.i C.i_sq
  have minus := key (-C.i) (by linear_combination C.i_sq)
  have double : 2 * (P.x * P.y * Q.y) = 0 := by linear_combination plus + minus
  have zero : P.x * P.y * Q.y = 0 := (mul_eq_zero.mp double).resolve_left C.two_ne_zero
  have vanishes : cross P Q = 0 := by
    unfold cross
    linear_combination C.d * Q.x * zero
  simp [vanishes] at one

theorem one_add_cross_ne_zero (P Q : C.Point) : 1 + cross P Q ≠ 0 :=
  fun vanishes => sq_cross_ne_one P Q (by linear_combination (cross P Q - 1) * vanishes)

theorem one_sub_cross_ne_zero (P Q : C.Point) : 1 - cross P Q ≠ 0 :=
  fun vanishes => sq_cross_ne_one P Q (by linear_combination (-1 - cross P Q) * vanishes)

theorem sum_on_curve (P Q : C.Point) :
    (numY P Q * (1 + cross P Q)) ^ 2 - (numX P Q * (1 - cross P Q)) ^ 2 =
      ((1 + cross P Q) * (1 - cross P Q)) ^ 2 + C.d * numX P Q ^ 2 * numY P Q ^ 2 := by
  have onP := P.on_curve
  have onQ := Q.on_curve
  simp only [numX, numY, cross]
  grind

instance : Add C.Point where
  add P Q :=
  { x := numX P Q / (1 + cross P Q)
    y := numY P Q / (1 - cross P Q)
    on_curve := by
      have plus := one_add_cross_ne_zero P Q
      have minus := one_sub_cross_ne_zero P Q
      field_simp
      linear_combination sum_on_curve P Q }

theorem add_x (P Q : C.Point) : (P + Q).x = numX P Q / (1 + cross P Q) := rfl

theorem add_y (P Q : C.Point) : (P + Q).y = numY P Q / (1 - cross P Q) := rfl

instance : Zero C.Point := ⟨0, 1, by ring⟩

@[simp] theorem zero_x : (0 : C.Point).x = 0 := rfl

@[simp] theorem zero_y : (0 : C.Point).y = 1 := rfl

instance : Neg C.Point := ⟨fun P => ⟨-P.x, P.y, by linear_combination P.on_curve⟩⟩

@[simp] theorem neg_x (P : C.Point) : (-P).x = -P.x := rfl

@[simp] theorem neg_y (P : C.Point) : (-P).y = P.y := rfl

theorem cross_comm (P Q : C.Point) : cross P Q = cross Q P := by
  unfold cross
  ring

protected theorem add_comm (P Q : C.Point) : P + Q = Q + P := by
  ext
  · simp only [add_x, numX, cross_comm P Q]
    ring
  · simp only [add_y, numY, cross_comm P Q]
    ring

protected theorem zero_add (P : C.Point) : 0 + P = P := by
  ext <;> simp [add_x, add_y, numX, numY, cross]

protected theorem neg_add_cancel (P : C.Point) : -P + P = 0 := by
  ext
  · simp only [add_x, numX, neg_x, neg_y, zero_x]
    ring
  · rw [add_y, zero_y, div_eq_one_iff_eq (one_sub_cross_ne_zero (-P) P)]
    simp only [numY, cross, neg_x, neg_y]
    linear_combination P.on_curve

/-! ## Sums of three points -/

/-- The denominator of the first coordinate of `P + Q + R`, free of fractions. -/
def den₃ (P Q R : C.Point) : K :=
  (1 + cross P Q) * (1 - cross P Q) + C.d * numX P Q * numY P Q * R.x * R.y

/-- The numerator that belongs to `den₃`. -/
def numX₃ (P Q R : C.Point) : K :=
  numX P Q * (1 - cross P Q) * R.y + numY P Q * (1 + cross P Q) * R.x

theorem den₃_eq (P Q R : C.Point) :
    den₃ P Q R = (1 + cross P Q) * (1 - cross P Q) * (1 + cross (P + Q) R) := by
  have plus := one_add_cross_ne_zero P Q
  have minus := one_sub_cross_ne_zero P Q
  rw [den₃, cross.eq_def (P + Q), add_x, add_y]
  field_simp

theorem den₃_ne_zero (P Q R : C.Point) : den₃ P Q R ≠ 0 := by
  rw [den₃_eq]
  exact mul_ne_zero (mul_ne_zero (one_add_cross_ne_zero P Q) (one_sub_cross_ne_zero P Q))
    (one_add_cross_ne_zero (P + Q) R)

theorem add_add_x (P Q R : C.Point) : (P + Q + R).x = numX₃ P Q R / den₃ P Q R := by
  have plus := one_add_cross_ne_zero P Q
  have minus := one_sub_cross_ne_zero P Q
  have plus' := one_add_cross_ne_zero (P + Q) R
  rw [add_x, den₃_eq, numX, numX₃, add_x, add_y]
  field_simp

theorem numX₃_mul_den₃ (P Q R : C.Point) :
    numX₃ P Q R * den₃ R Q P = numX₃ R Q P * den₃ P Q R := by
  have onP := P.on_curve
  have onQ := Q.on_curve
  have onR := R.on_curve
  simp only [numX₃, den₃, numX, numY, cross]
  grind

theorem add_add_x_swap (P Q R : C.Point) : (P + Q + R).x = (R + Q + P).x := by
  rw [add_add_x, add_add_x, div_eq_div_iff (den₃_ne_zero P Q R) (den₃_ne_zero R Q P),
    numX₃_mul_den₃]

/-- The point a quarter turn away from `P`, which is `P` plus a point of order four. It trades the
    two coordinates, so that what holds of the first coordinate holds of the second. -/
def turn (P : C.Point) : C.Point where
  x := C.i * P.y
  y := C.i * P.x
  on_curve := by
    linear_combination P.on_curve
      + (P.x ^ 2 - P.y ^ 2 - C.d * P.x ^ 2 * P.y ^ 2 * (C.i ^ 2 - 1)) * C.i_sq

theorem turn_add (P Q : C.Point) : turn P + Q = turn (P + Q) := by
  have turned : cross (turn P) Q = -cross P Q := by
    unfold cross turn
    linear_combination C.d * P.x * P.y * Q.x * Q.y * C.i_sq
  ext
  · rw [add_x, turned, ← sub_eq_add_neg]
    simp only [turn, add_y, numX, numY]
    ring
  · rw [add_y, turned, sub_neg_eq_add]
    simp only [turn, add_x, numX, numY]
    ring

/-- Associativity, with the two sides made alike by commutativity. -/
theorem add_add_swap (P Q R : C.Point) : P + Q + R = R + Q + P := by
  have nonzero : C.i ≠ 0 := by
    intro zero
    simpa [zero] using C.i_sq
  ext
  · exact add_add_x_swap P Q R
  · have left : turn P + Q + R = turn (P + Q + R) := by rw [turn_add, turn_add]
    have right : R + Q + turn P = turn (R + Q + P) := by
      rw [Point.add_comm, turn_add, Point.add_comm P]
    have same := add_add_x_swap (turn P) Q R
    rw [left, right] at same
    exact mul_left_cancel₀ nonzero same

instance : AddCommGroup C.Point where
  add_assoc P Q R := by rw [add_add_swap, Point.add_comm R Q, Point.add_comm]
  zero_add := Point.zero_add
  add_zero P := by rw [Point.add_comm, Point.zero_add]
  nsmul := nsmulRec
  zsmul := zsmulRec
  neg_add_cancel := Point.neg_add_cancel
  add_comm := Point.add_comm

/-! ## Points with the same second coordinate -/

theorem one_add_d_mul_sq_ne_zero (y : K) : 1 + C.d * y ^ 2 ≠ 0 := by
  intro zero
  have vanishes : y = 0 :=
    eq_zero_of_sq_eq (C := C) (a := C.i) (by linear_combination C.i_sq - zero)
  simp [vanishes] at zero

theorem x_eq_or_eq_neg {P Q : C.Point} (same : P.y = Q.y) : P.x = Q.x ∨ P.x = -Q.x := by
  have onP := P.on_curve
  rw [same] at onP
  have squares : P.x ^ 2 = Q.x ^ 2 := by
    refine mul_left_cancel₀ (one_add_d_mul_sq_ne_zero (C := C) Q.y) ?_
    linear_combination Q.on_curve - onP
  exact sq_eq_sq_iff_eq_or_eq_neg.mp squares

end Point

end Edwards

end TokenLedger
