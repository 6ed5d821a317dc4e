import TokenLedger.Proofs.Ed25519.Points
import Mathlib.GroupTheory.OrderOfElement
import Mathlib.SetTheory.Cardinal.Finite

/-!
# The order of the group

The group has `8 L` elements, where `L` is the order of the base point: there is a point of order
eight, and there are at most two points with the same second coordinate, which is fewer than `16 L`
in all.
-/

namespace TokenLedger.Ed25519

open TokenLedger.Ed25519.Field

/-! ## A point of order `L` and a point of order eight -/

theorem exists_represents_affine {x y : Field}
    (onCurve : y * y - x * x = 1 + curveD * (x * x) * (y * y)) :
    ∃ P, (Point.affine x y).Represents P := by
  have residues := congrArg residue onCurve
  simp only [residue_sub, residue_add, residue_mul, residue_one, ← d_edwards25519] at residues
  refine ⟨⟨residue x, residue y, ?_⟩, Point.represents_affine rfl rfl⟩
  linear_combination residues

/-- A multiple of a point vanishes if its encoding says so. -/
theorem nsmul_eq_zero_iff {p : Point} {P : edwards25519.Point} (represents : p.Represents P)
    {n : Nat} (small : n < 2 ^ 256) : n • P = 0 ↔ (Point.multiple n p).encode = Point.zero.encode :=
  ((represents.multiple small).encode_eq_iff Point.represents_zero).symm

theorem exists_represents_base :
    ∃ B, Point.base.Represents B ∧ addOrderOf B = groupOrder := by
  obtain ⟨B, represents⟩ := exists_represents_affine (x := Point.base.x) (y := Point.base.y)
    (by decide +kernel)
  refine ⟨B, represents, addOrderOf_eq_prime ?_ ?_⟩
  · rw [nsmul_eq_zero_iff represents (by decide)]
    decide +kernel
  · intro zero
    rw [← one_nsmul B, nsmul_eq_zero_iff represents (by decide)] at zero
    exact absurd zero (by decide +kernel)

/-- A point whose multiples are the eight points of small order. -/
def torsionPoint : Point :=
  .affine
    (Fin.ofNat fieldOrder
      14399317868200118260347934320527232580618823971194345261214217575416788799818)
    (Fin.ofNat fieldOrder
      55188659117513257062467267217118295137698188065244968500265048394206261417927)

theorem exists_addOrderOf_eq_eight : ∃ T : edwards25519.Point, addOrderOf T = 2 ^ 3 := by
  obtain ⟨T, represents⟩ := exists_represents_affine (x := torsionPoint.x) (y := torsionPoint.y)
    (by decide +kernel)
  refine ⟨T, addOrderOf_eq_prime_pow ?_ ?_⟩
  · rw [nsmul_eq_zero_iff represents (by decide)]
    decide +kernel
  · rw [nsmul_eq_zero_iff represents (by decide)]
    decide +kernel

/-! ## Counting -/

/-- The second coordinate and the parity of the first tell points apart. -/
theorem coordinates_injective :
    Function.Injective fun P : edwards25519.Point => (P.y, Fin.ofNat 2 P.x.val) := by
  intro P Q same
  obtain ⟨second, parity⟩ := Prod.ext_iff.mp same
  exact Point.eq_of_parity_eq second (Fin.ext_iff.mp parity)

instance : Finite edwards25519.Point := Finite.of_injective _ coordinates_injective

theorem card_le : Nat.card edwards25519.Point ≤ fieldOrder * 2 := by
  have bound := Nat.card_le_card_of_injective _ coordinates_injective
  rwa [Nat.card_prod, Nat.card_zmod, Nat.card_fin] at bound

theorem card_eq : Nat.card edwards25519.Point = 8 * groupOrder := by
  obtain ⟨B, -, order⟩ := exists_represents_base
  obtain ⟨T, order'⟩ := exists_addOrderOf_eq_eight
  have eight : 8 ∣ Nat.card edwards25519.Point := by
    have divides := addOrderOf_dvd_natCard T
    rwa [order'] at divides
  have large : groupOrder ∣ Nat.card edwards25519.Point := order ▸ addOrderOf_dvd_natCard B
  have coprime : Nat.Coprime 8 groupOrder := by decide +kernel
  obtain ⟨m, count⟩ := coprime.mul_dvd_of_dvd_of_dvd eight large
  have positive : 0 < Nat.card edwards25519.Point := Nat.card_pos
  have atMost := card_le
  have size : fieldOrder * 2 < 8 * groupOrder * 2 := by decide
  rw [count] at positive atMost
  have below : m < 2 := lt_of_mul_lt_mul_left (atMost.trans_lt size) (Nat.zero_le _)
  have above : 0 < m := Nat.pos_of_mul_pos_left positive
  rw [count, show m = 1 by omega, mul_one]

/-! ## Equal multiples -/

/-- Below the order of the base point, a point has no two equal multiples except for those that the
    eight points of small order have. -/
theorem nsmul_eq_nsmul_iff {A : edwards25519.Point} {k l : Nat} (small : k < groupOrder)
    (small' : l < groupOrder) (distinct : k ≠ l) :
    k • A = l • A ↔ ∃ n, n ∣ 8 ∧ n • A = 0 ∧ k ≡ l [MOD n] := by
  constructor
  · intro same
    have congruent : k ≡ l [MOD addOrderOf A] := nsmul_eq_nsmul_iff_modEq.mp same
    have divides : addOrderOf A ∣ 8 * groupOrder := card_eq ▸ addOrderOf_dvd_natCard A
    -- a multiple of the large prime would keep `k` and `l` apart
    have coprime : Nat.Coprime groupOrder (addOrderOf A) := by
      rw [prime_groupOrder.coprime_iff_not_dvd]
      intro large
      exact distinct ((congruent.of_dvd large).eq_of_lt_of_lt small small')
    exact ⟨addOrderOf A, coprime.symm.dvd_of_dvd_mul_right divides, addOrderOf_nsmul_eq_zero A,
      congruent⟩
  · rintro ⟨n, -, zero, congruent⟩
    rw [nsmul_eq_nsmul_iff_modEq]
    exact congruent.of_dvd (addOrderOf_dvd_of_nsmul_eq_zero zero)

end TokenLedger.Ed25519
