import TokenLedger.Proofs.Ed25519.Edwards
import TokenLedger.Proofs.Ed25519.Field

/-!
# The points of edwards25519

Extended coordinates stand for points of the curve, and addition, negation and multiples of the
former are those of the latter. The encoding of a point determines it, and what was encoded is read
back as the same point.
-/

namespace TokenLedger

/-! ## Numbers as bytes -/

theorem Bytes.toNatLE_ofNatLE (width n : Nat) : (ofNatLE width n).toNatLE = n % 256 ^ width := by
  induction width generalizing n with
  | zero => simp [ofNatLE, toNatLE, Nat.mod_one]
  | succ width ih =>
    have byte : (UInt8.ofNat n).toNat = n % 256 := rfl
    rw [ofNatLE, toNatLE, ih, byte, pow_succ', Nat.mod_mul]

theorem Bytes32.toNatLE_ofNatLE {n : Nat} (small : n < 2 ^ 256) : (ofNatLE n).toNatLE = n := by
  rw [toNatLE, ofNatLE, Bytes.toNatLE_ofNatLE]
  exact Nat.mod_eq_of_lt small

namespace Ed25519

open TokenLedger.Ed25519.Field

/-- The curve edwards25519, over the residue classes. -/
def edwards25519 : Edwards (ZMod fieldOrder) where
  d := residue curveD
  i := residue rootOfMinusOne
  i_sq := residue_rootOfMinusOne_sq
  two_ne_zero := two_ne_zero_residue
  d_not_square := sq_ne_residue_curveD

theorem d_edwards25519 : edwards25519.d = residue curveD := rfl

/-! ## Extended coordinates -/

namespace Point

open Edwards.Point (numX numY cross)

/-- The coordinates `p` stand for the point `P`. -/
structure Represents (p : Point) (P : edwards25519.Point) : Prop where
  z_ne_zero : residue p.z ≠ 0
  x_eq : residue p.x = P.x * residue p.z
  y_eq : residue p.y = P.y * residue p.z
  t_eq : residue p.t = P.x * P.y * residue p.z

variable {p q : Point} {P Q : edwards25519.Point}

theorem represents_zero : Represents zero 0 where
  z_ne_zero := by simp [zero]
  x_eq := by simp [zero]
  y_eq := by simp [zero]
  t_eq := by simp [zero]

theorem Represents.neg (represents : Represents p P) : Represents p.neg (-P) where
  z_ne_zero := represents.z_ne_zero
  x_eq := by simp [Point.neg, represents.x_eq]
  y_eq := by simp [Point.neg, represents.y_eq]
  t_eq := by simp [Point.neg, represents.t_eq]

theorem Represents.add (first : Represents p P) (second : Represents q Q) :
    Represents (p.add q) (P + Q) := by
  have plus := Edwards.Point.one_add_cross_ne_zero P Q
  have minus := Edwards.Point.one_sub_cross_ne_zero P Q
  let w := 2 * residue p.z * residue q.z
  have nonzero : w ≠ 0 :=
    mul_ne_zero (mul_ne_zero two_ne_zero_residue first.z_ne_zero) second.z_ne_zero
  -- the four factors that the coordinates of the sum are products of
  have e_eq : residue ((p.y + p.x) * (q.y + q.x) - (p.y - p.x) * (q.y - q.x)) = w * numX P Q := by
    simp only [residue_add, residue_sub, residue_mul, first.x_eq, first.y_eq, second.x_eq,
      second.y_eq, numX, w]
    ring
  have f_eq : residue (p.z * (q.z + q.z) - p.t * (curveD + curveD) * q.t) =
      w * (1 - cross P Q) := by
    simp only [residue_add, residue_sub, residue_mul, first.t_eq, second.t_eq, ← d_edwards25519,
      cross, w]
    ring
  have g_eq : residue (p.z * (q.z + q.z) + p.t * (curveD + curveD) * q.t) =
      w * (1 + cross P Q) := by
    simp only [residue_add, residue_mul, first.t_eq, second.t_eq, ← d_edwards25519, cross, w]
    ring
  have h_eq : residue ((p.y + p.x) * (q.y + q.x) + (p.y - p.x) * (q.y - q.x)) = w * numY P Q := by
    simp only [residue_add, residue_sub, residue_mul, first.x_eq, first.y_eq, second.x_eq,
      second.y_eq, numY, w]
    ring
  constructor
  case z_ne_zero =>
    rw [Point.add, residue_mul, f_eq, g_eq]
    exact mul_ne_zero (mul_ne_zero nonzero minus) (mul_ne_zero nonzero plus)
  case x_eq =>
    rw [Point.add, residue_mul, residue_mul, e_eq, f_eq, g_eq, Edwards.Point.add_x]
    field_simp
  case y_eq =>
    rw [Point.add, residue_mul, residue_mul, f_eq, g_eq, h_eq, Edwards.Point.add_y]
    field_simp
  case t_eq =>
    rw [Point.add, residue_mul, residue_mul, e_eq, f_eq, g_eq, h_eq, Edwards.Point.add_x,
      Edwards.Point.add_y]
    field_simp

theorem Represents.multiple (represents : Represents p P) {n : Nat} (small : n < 2 ^ 256) :
    Represents (Point.multiple n p) (n • P) :=
  combine_represents Represents represents_zero Represents.add small represents

theorem represents_affine {x y : Field} (first : residue x = P.x) (second : residue y = P.y) :
    Represents (affine x y) P where
  z_ne_zero := by simp [affine]
  x_eq := by simp [affine, first]
  y_eq := by simp [affine, second]
  t_eq := by simp [affine, first, second]

/-! ## Encodings -/

/-- The number that a point is encoded as. -/
def number (P : edwards25519.Point) : Nat := P.y.val + P.x.val % 2 * 2 ^ 255

theorem number_lt (P : edwards25519.Point) : number P < 2 ^ 256 := by
  have bound := P.y.val_lt
  have order : fieldOrder < 2 ^ 255 := by decide
  unfold number
  omega

theorem eq_of_parity_eq (same : P.y = Q.y) (parity : P.x.val % 2 = Q.x.val % 2) : P = Q := by
  refine Edwards.Point.ext ?_ same
  rcases Edwards.Point.x_eq_or_eq_neg same with equal | opposite
  · exact equal
  · exact eq_of_eq_neg_of_parity opposite parity

theorem number_injective : Function.Injective number := by
  intro P Q same
  have first := P.y.val_lt
  have second := Q.y.val_lt
  have order : fieldOrder < 2 ^ 255 := by decide
  unfold number at same
  exact eq_of_parity_eq (ZMod.val_injective _ (by omega)) (by omega)

theorem Represents.encode (represents : Represents p P) :
    p.encode = Bytes32.ofNatLE (number P) := by
  have first : (p.x * inverse p.z).val = P.x.val := by
    rw [← val_residue, residue_mul, residue_inverse, represents.x_eq,
      mul_inv_cancel_right₀ represents.z_ne_zero]
  have second : (p.y * inverse p.z).val = P.y.val := by
    rw [← val_residue, residue_mul, residue_inverse, represents.y_eq,
      mul_inv_cancel_right₀ represents.z_ne_zero]
  unfold Point.encode number
  dsimp only
  rw [first, second, Nat.shiftLeft_eq]

theorem Represents.encode_eq_iff (first : Represents p P) (second : Represents q Q) :
    p.encode = q.encode ↔ P = Q := by
  constructor
  · intro same
    rw [first.encode, second.encode] at same
    have numbers := congrArg Bytes32.toNatLE same
    rw [Bytes32.toNatLE_ofNatLE (number_lt P), Bytes32.toNatLE_ofNatLE (number_lt Q)] at numbers
    exact number_injective numbers
  · rintro rfl
    rw [first.encode, second.encode]

/-! ## Reading points -/

theorem residue_neg_if_sq (sign : Prop) [Decidable sign] (root : Field) :
    residue (if sign then -root else root) ^ 2 = residue root ^ 2 := by
  split
  · rw [residue_neg, neg_sq]
  · rfl

/-- Either sign of a root that `decode?` finds gives a point of the curve. -/
theorem exists_represents_of_root {y root : Field} (sign : Prop) [Decidable sign]
    (found : rootOfQuotient? (y * y - 1) (curveD * (y * y) + 1) = some root) :
    ∃ P, Represents (affine (if sign then -root else root) y) P := by
  have squares := (rootOfQuotient?_eq_some found).1
  simp only [residue_sub, residue_add, residue_mul, residue_one, ← d_edwards25519] at squares
  refine ⟨⟨residue (if sign then -root else root), residue y, ?_⟩, represents_affine rfl rfl⟩
  rw [residue_neg_if_sq]
  linear_combination -squares

/-- The root that `decode?` finds is even, so that of it and its opposite the one with the parity of
    the coordinate is the coordinate. -/
theorem represents_signed_root {y root : Field} (second : residue y = P.y)
    (found : rootOfQuotient? (y * y - 1) (curveD * (y * y) + 1) = some root) :
    Represents (affine (if P.x.val % 2 = 1 then -root else root) y) P := by
  obtain ⟨quotient, isEven⟩ := rootOfQuotient?_eq_some found
  simp only [residue_sub, residue_add, residue_mul, residue_one, second, ← d_edwards25519]
    at quotient
  have squares : residue root ^ 2 = P.x ^ 2 := by
    refine mul_left_cancel₀ (Edwards.Point.one_add_d_mul_sq_ne_zero (C := edwards25519) P.y) ?_
    linear_combination quotient + P.on_curve
  rw [← val_residue] at isEven
  refine represents_affine ?_ second
  rcases sq_eq_sq_iff_eq_or_eq_neg.mp squares with equal | opposite
  · rw [if_neg (by rw [← equal]; omega), equal]
  · split
    case isTrue => rw [residue_neg, opposite, neg_neg]
    case isFalse odd => exact eq_of_eq_neg_of_parity opposite (by omega)

theorem exists_root {y : Field} (second : residue y = P.y) :
    ∃ root, rootOfQuotient? (y * y - 1) (curveD * (y * y) + 1) = some root := by
  refine exists_rootOfQuotient? (x := P.x) ?_
  simp only [residue_sub, residue_add, residue_mul, residue_one, second, ← d_edwards25519]
  linear_combination -P.on_curve

theorem exists_represents_of_decode? {bytes : Bytes32} (read : decode? bytes = some p) :
    ∃ P, p.Represents P := by
  unfold decode? at read
  dsimp only at read
  generalize Fin.ofNat fieldOrder (bytes.toNatLE % 1 <<< 255) = y at read
  obtain ⟨root, found, rfl⟩ := Option.map_eq_some_iff.mp read
  exact exists_represents_of_root _ found

theorem Represents.decode?_encode (represents : Represents p P) :
    ∃ q, decode? p.encode = some q ∧ q.Represents P := by
  have bound := P.y.val_lt
  have order : fieldOrder < 2 ^ 255 := by decide
  have encoded : p.encode.toNatLE = number P := by
    rw [represents.encode, Bytes32.toNatLE_ofNatLE (number_lt P)]
  have low : number P % (1 <<< 255) = P.y.val := by
    rw [Nat.one_shiftLeft]
    unfold number
    omega
  have high : number P >>> 255 = P.x.val % 2 := by
    rw [Nat.shiftRight_eq_div_pow]
    unfold number
    omega
  have residues : residue (Fin.ofNat fieldOrder P.y.val) = P.y := by
    rw [residue_ofNat, ZMod.natCast_val, ZMod.cast_id]
  obtain ⟨root, found⟩ := exists_root residues
  refine ⟨_, ?_, represents_signed_root residues found⟩
  unfold decode?
  dsimp only
  rw [encoded, low, high, found, Option.map_some]

end Point

end Ed25519

end TokenLedger
