import TokenLedger.Ed25519.Signature
import Mathlib.Algebra.Group.TypeTags.Basic
import Mathlib.Data.ZMod.Basic
import Mathlib.FieldTheory.Finite.Basic
import Mathlib.NumberTheory.LegendreSymbol.Basic
import Mathlib.NumberTheory.LucasPrimality
import Mathlib.Tactic.LinearCombination
import Mathlib.Tactic.NormNum.Prime

/-!
# The field of edwards25519

`combine` computes powers and multiples, the orders of the field and of the base point are prime,
and the field operations are those of the residue classes modulo `2^255 - 19`.
-/

namespace TokenLedger.Ed25519

/-! ## Combining by halves -/

/-- If `op` and `unit` stand for a sum and zero, then `combine` stands for a multiple. -/
theorem combine_represents {α : Type} {M : Type*} [AddMonoid M] {op : α → α → α} {unit : α}
    (R : α → M → Prop) (neutral : R unit 0)
    (combines : ∀ {x y a b}, R x a → R y b → R (op x y) (a + b)) {fuel n : Nat} {x : α} {a : M}
    (small : n < 2 ^ fuel) (represents : R x a) : R (combine op unit fuel x n) (n • a) := by
  induction fuel generalizing n x a with
  | zero =>
    obtain rfl : n = 0 := by simpa using small
    simpa [combine] using neutral
  | succ fuel ih =>
    have smaller : n / 2 < 2 ^ fuel := by rw [pow_succ] at small; omega
    -- but for its last bit, `n` counts the double of the element
    have rest : R (combine op unit fuel (op x x) (n / 2)) ((2 * (n / 2)) • a) := by
      rw [mul_nsmul, two_nsmul]
      exact ih smaller (combines represents represents)
    unfold combine
    split
    case isTrue zero =>
      subst zero
      simpa using neutral
    case isFalse =>
      dsimp only
      split
      case isTrue odd =>
        have sum := combines represents rest
        rwa [← succ_nsmul', show 2 * (n / 2) + 1 = n by omega] at sum
      case isFalse isEven =>
        rwa [show 2 * (n / 2) = n by omega] at rest

/-! ## Primes -/

/-- Powers modulo `m`. -/
def powerMod (m a n : Nat) : Nat := combine (fun x y => x * y % m) 1 256 a n % m

theorem cast_powerMod {m n : Nat} (a : Nat) (small : n < 2 ^ 256) :
    (powerMod m a n : ZMod m) = (a : ZMod m) ^ n := by
  rw [powerMod, ZMod.natCast_mod]
  exact combine_represents (M := Additive (ZMod m)) (fun (x : Nat) b => (x : ZMod m) = b.toMul)
    Nat.cast_one (fun first second => by simp [first, second]) small (a := .ofMul (a : ZMod m)) rfl

/-- Lucas's test, with the factors of `p - 1` and an element that has this order. -/
theorem prime_of_lucas {p : Nat} (a : Nat) (factors : List Nat)
    (primes : ∀ q ∈ factors, q.Prime)
    (check : 1 < p ∧ p < 2 ^ 256 ∧ factors.prod = p - 1 ∧ powerMod p a (p - 1) = 1 ∧
      ∀ q ∈ factors, powerMod p a ((p - 1) / q) ≠ 1) : p.Prime := by
  obtain ⟨large, small, product, one, others⟩ := check
  refine lucas_primality p a ?_ ?_
  · rw [← cast_powerMod a (by omega), one, Nat.cast_one]
  · intro q prime divides
    -- a prime that divides the product of the factors is one of them
    rw [← product] at divides
    obtain ⟨r, member, divides'⟩ := (Prime.dvd_prod_iff prime.prime).mp divides
    obtain rfl : q = r := (Nat.prime_dvd_prime_iff_eq prime (primes r member)).mp divides'
    rw [← cast_powerMod a ((Nat.div_le_self _ _).trans_lt (by omega))]
    intro vanishes
    rw [← Nat.cast_one (R := ZMod p), ZMod.natCast_eq_natCast_iff', powerMod, Nat.mod_mod,
      Nat.mod_eq_of_lt large] at vanishes
    exact others q member vanishes

theorem prime_fieldOrder : fieldOrder.Prime := by
  have prime₁ : Nat.Prime 2773320623 :=
    prime_of_lucas 5 [2, 2437, 569003] (by norm_num) (by decide +kernel)
  have prime₂ : Nat.Prime 72106336199 :=
    prime_of_lucas 7 [2, 13, 2773320623]
      (by simp only [List.forall_mem_cons, prime₁]; norm_num) (by decide +kernel)
  have prime₃ : Nat.Prime 1919519569386763 :=
    prime_of_lucas 2 [2, 3, 7, 19, 47, 47, 127, 8574133] (by norm_num) (by decide +kernel)
  have prime₄ : Nat.Prime 75445702479781427272750846543864801 :=
    prime_of_lucas 7 [2, 2, 2, 2, 2, 3, 3, 5, 5, 75707, 72106336199, 1919519569386763]
      (by simp only [List.forall_mem_cons, prime₂, prime₃]; norm_num) (by decide +kernel)
  have prime₅ : Nat.Prime 31757755568855353 :=
    prime_of_lucas 10 [2, 2, 2, 3, 31, 107, 223, 4153, 430751] (by norm_num) (by decide +kernel)
  have prime₆ : Nat.Prime 74058212732561358302231226437062788676166966415465897661863160754340907 :=
    prime_of_lucas 2 [2, 3, 353, 57467, 132049, 1923133, 31757755568855353,
        75445702479781427272750846543864801]
      (by simp only [List.forall_mem_cons, prime₄, prime₅]; norm_num) (by decide +kernel)
  exact prime_of_lucas 2 [2, 2, 3, 65147,
      74058212732561358302231226437062788676166966415465897661863160754340907]
    (by simp only [List.forall_mem_cons, prime₆]; norm_num) (by decide +kernel)

theorem prime_groupOrder : groupOrder.Prime := by
  have prime₁ : Nat.Prime 3044861653679985063343 :=
    prime_of_lucas 5 [2, 3, 11, 30703, 82163, 132667, 137849] (by norm_num) (by decide +kernel)
  have prime₂ : Nat.Prime 198211423230930754013084525763697 :=
    prime_of_lucas 5 [2, 2, 2, 2, 3, 23, 58964693, 3044861653679985063343]
      (by simp only [List.forall_mem_cons, prime₁]; norm_num) (by decide +kernel)
  have prime₃ : Nat.Prime 292386187 :=
    prime_of_lucas 2 [2, 3, 3, 3, 3, 307, 5879] (by norm_num) (by decide +kernel)
  have prime₄ : Nat.Prime 213441916511 :=
    prime_of_lucas 13 [2, 5, 73, 292386187]
      (by simp only [List.forall_mem_cons, prime₃]; norm_num) (by decide +kernel)
  have prime₅ : Nat.Prime 1257559732178653 :=
    prime_of_lucas 2 [2, 2, 3, 7, 23, 531581, 1224481] (by norm_num) (by decide +kernel)
  have prime₆ : Nat.Prime 4434155615661930479 :=
    prime_of_lucas 17 [2, 41, 43, 1257559732178653]
      (by simp only [List.forall_mem_cons, prime₅]; norm_num) (by decide +kernel)
  have prime₇ : Nat.Prime 172054593956031949258510691 :=
    prime_of_lucas 2 [2, 5, 1361, 2851, 4434155615661930479]
      (by simp only [List.forall_mem_cons, prime₆]; norm_num) (by decide +kernel)
  have prime₈ : Nat.Prime 19757330305831588566944191468367130476339 :=
    prime_of_lucas 2 [2, 269, 213441916511, 172054593956031949258510691]
      (by simp only [List.forall_mem_cons, prime₄, prime₇]; norm_num) (by decide +kernel)
  have prime₉ : Nat.Prime 276602624281642239937218680557139826668747 :=
    prime_of_lucas 2 [2, 7, 19757330305831588566944191468367130476339]
      (by simp only [List.forall_mem_cons, prime₈]; norm_num) (by decide +kernel)
  exact prime_of_lucas 2 [2, 2, 3, 11, 198211423230930754013084525763697,
      276602624281642239937218680557139826668747]
    (by simp only [List.forall_mem_cons, prime₂, prime₉]; norm_num) (by decide +kernel)

instance : Fact fieldOrder.Prime := ⟨prime_fieldOrder⟩

instance : Fact groupOrder.Prime := ⟨prime_groupOrder⟩

/-! ## Residue classes -/

namespace Field

/-- A field element as a residue class. -/
def residue (x : Field) : ZMod fieldOrder := x.val

theorem val_residue (x : Field) : x.residue.val = x.val := ZMod.val_natCast_of_lt x.isLt

theorem residue_injective : Function.Injective residue := fun x y same =>
  Fin.ext (by rw [← val_residue x, same, val_residue y])

@[simp] theorem residue_ofNat (n : Nat) : residue (Fin.ofNat fieldOrder n) = n :=
  ZMod.natCast_mod n fieldOrder

@[simp] theorem residue_zero : residue 0 = 0 := by simp [residue]

@[simp] theorem residue_one : residue 1 = 1 := by
  have one := residue_ofNat 1
  rwa [Nat.cast_one] at one

@[simp] theorem residue_add (x y : Field) : residue (x + y) = residue x + residue y := by
  simp only [residue, Fin.val_add, ZMod.natCast_mod, Nat.cast_add]

@[simp] theorem residue_mul (x y : Field) : residue (x * y) = residue x * residue y := by
  simp only [residue, Fin.val_mul, ZMod.natCast_mod, Nat.cast_mul]

@[simp] theorem residue_sub (x y : Field) : residue (x - y) = residue x - residue y := by
  simp only [residue, Fin.sub_def, ZMod.natCast_mod, Nat.cast_add]
  rw [Nat.cast_sub y.isLt.le, ZMod.natCast_self]
  ring

@[simp] theorem residue_neg (x : Field) : residue (-x) = -residue x := by
  simp only [residue, Fin.neg_def, ZMod.natCast_mod]
  rw [Nat.cast_sub x.isLt.le, ZMod.natCast_self, zero_sub]

theorem residue_power (x : Field) {n : Nat} (small : n < 2 ^ 256) :
    residue (power x n) = residue x ^ n :=
  combine_represents (M := Additive (ZMod fieldOrder)) (fun x b => residue x = b.toMul)
    residue_one (fun first second => by simp [first, second]) small (a := .ofMul x.residue) rfl

@[simp] theorem residue_inverse (x : Field) : residue (inverse x) = (residue x)⁻¹ := by
  rw [inverse, residue_power x (by decide)]
  by_cases zero : residue x = 0
  · rw [zero, inv_zero, zero_pow (by decide)]
  · refine eq_inv_of_mul_eq_one_left ?_
    rw [← pow_succ]
    exact ZMod.pow_card_sub_one_eq_one zero

/-- Opposite classes have representatives of different parity, as the modulus is odd. -/
theorem eq_of_eq_neg_of_parity {a b : ZMod fieldOrder} (opposite : a = -b)
    (parity : a.val % 2 = b.val % 2) : a = b := by
  by_cases zero : b = 0
  · rw [opposite, zero, neg_zero]
  · have value : a.val = fieldOrder - b.val := by
      rw [opposite, ZMod.neg_val, if_neg zero]
    have small := b.val_lt
    have odd : fieldOrder % 2 = 1 := by decide
    omega

theorem two_ne_zero_residue : (2 : ZMod fieldOrder) ≠ 0 := by
  intro zero
  have value := ZMod.val_natCast_of_lt (show 2 < fieldOrder by decide)
  rw [Nat.cast_ofNat, zero, ZMod.val_zero] at value
  cases value

/-! ## Square roots -/

theorem residue_rootOfMinusOne_sq : residue rootOfMinusOne ^ 2 = -1 := by
  have square : rootOfMinusOne * rootOfMinusOne = -1 := by decide +kernel
  rw [sq, ← residue_mul, square, residue_neg, residue_one]

/-- The even one of `r` and `-r`. -/
def even (r : Field) : Field := if r.val % 2 = 1 then -r else r

theorem even_val (r : Field) : (even r).val % 2 = 0 := by
  unfold even
  split
  case isTrue odd =>
    have small := r.isLt
    have modulus : fieldOrder % 2 = 1 := by decide
    have value : (-r).val = fieldOrder - r.val := by
      rw [Fin.neg_def]
      exact Nat.mod_eq_of_lt (by omega)
    omega
  case isFalse isEven => omega

@[simp] theorem residue_even_sq (r : Field) : residue (even r) ^ 2 = residue r ^ 2 := by
  unfold even
  split
  · rw [residue_neg, neg_sq]
  · rfl

/-- What `rootOfQuotient? u v` tries as a root of `u / v`. -/
def candidate (u v : Field) : Field :=
  u * (v * v * v) * power (u * (v * v * v) * (v * v * v) * v) ((fieldOrder - 5) / 8)

theorem rootOfQuotient?_def (u v : Field) :
    rootOfQuotient? u v =
      if v * candidate u v * candidate u v = u then some (even (candidate u v))
      else if v * candidate u v * candidate u v = -u then
        some (even (rootOfMinusOne * candidate u v))
      else none := rfl

theorem rootOfQuotient?_eq_some {u v r : Field} (found : rootOfQuotient? u v = some r) :
    residue v * residue r ^ 2 = residue u ∧ r.val % 2 = 0 := by
  rw [rootOfQuotient?_def] at found
  split at found
  case isTrue root =>
    obtain rfl := Option.some.inj found
    have residues := congrArg residue root
    rw [residue_mul, residue_mul] at residues
    refine ⟨?_, even_val _⟩
    rw [residue_even_sq]
    linear_combination residues
  case isFalse =>
    split at found
    case isTrue root =>
      obtain rfl := Option.some.inj found
      have residues := congrArg residue root
      rw [residue_mul, residue_mul, residue_neg] at residues
      refine ⟨?_, even_val _⟩
      rw [residue_even_sq, residue_mul]
      linear_combination
        residue v * residue (candidate u v) ^ 2 * residue_rootOfMinusOne_sq - residues
    case isFalse => cases found

/-- Up to its sign, the quotient is the square of `candidate`, times a power that is one, minus one
    or zero. -/
theorem residue_mul_candidate_sq {u v : Field} {x : ZMod fieldOrder}
    (quotient : residue v * x ^ 2 = residue u) :
    residue v * residue (candidate u v) ^ 2 =
      residue u * (residue v ^ 4 * x) ^ (fieldOrder / 2) := by
  have exponent : fieldOrder / 2 = 2 * ((fieldOrder - 5) / 8 * 2 + 1) := by decide
  rw [candidate, residue_mul, residue_power _ (by decide), exponent]
  simp only [residue_mul, ← quotient]
  generalize (fieldOrder - 5) / 8 = e
  ring

theorem exists_rootOfQuotient? {u v : Field} {x : ZMod fieldOrder}
    (quotient : residue v * x ^ 2 = residue u) : ∃ r, rootOfQuotient? u v = some r := by
  have squares := residue_mul_candidate_sq quotient
  have either : v * candidate u v * candidate u v = u ∨
      v * candidate u v * candidate u v = -u := by
    simp only [← residue_injective.eq_iff, residue_mul, residue_neg]
    -- the power is one or minus one, by Euler's criterion, unless its base is zero
    by_cases zero : residue v ^ 4 * x = 0
    · have zeroU : residue u = 0 := by
        rw [← quotient]
        rcases mul_eq_zero.mp zero with zeroV | zeroX
        · rw [pow_eq_zero_iff (by decide) |>.mp zeroV, zero_mul]
        · rw [zeroX, sq, mul_zero, mul_zero]
      rw [zeroU, zero_mul] at squares
      exact .inl (by rw [zeroU]; linear_combination squares)
    · rcases ZMod.pow_div_two_eq_neg_one_or_one fieldOrder zero with one | minusOne
      · rw [one] at squares
        exact .inl (by linear_combination squares)
      · rw [minusOne] at squares
        exact .inr (by linear_combination squares)
  rw [rootOfQuotient?_def]
  split
  case isTrue => exact ⟨_, rfl⟩
  case isFalse other => exact ⟨_, if_pos (either.resolve_left other)⟩

/-! ## The constant of the curve -/

theorem sq_ne_residue_curveD (r : ZMod fieldOrder) : r ^ 2 ≠ residue curveD := by
  intro square
  have minusOne : residue curveD ^ (fieldOrder / 2) = -1 := by
    have powers : power curveD (fieldOrder / 2) = -1 := by decide +kernel
    rw [← residue_power _ (by decide), powers, residue_neg, residue_one]
  have nonzero : residue curveD ≠ 0 := by
    intro zero
    rw [zero, zero_pow (by decide)] at minusOne
    exact one_ne_zero (neg_eq_zero.mp minusOne.symm)
  -- the power of a square would be one
  have one := (ZMod.euler_criterion fieldOrder nonzero).mp (square ▸ IsSquare.sq r)
  rw [minusOne] at one
  exact two_ne_zero_residue (by linear_combination -one)

end Field

end TokenLedger.Ed25519
