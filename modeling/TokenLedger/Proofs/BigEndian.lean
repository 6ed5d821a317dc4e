import Mathlib.Tactic.Ring
import TokenLedger.Bytes

/-! # Numbers in big-endian bytes

Bytes spell a number, most significant first, and a number is spelled by as many bytes
as one likes, so long as they have room for it.  Everything here follows from what the
first byte adds to the number (`toNatBE_cons`).

Byte strings compare from the front, where the most significant byte stands.  So two of
the same length are in the order of the numbers that they spell
(`toNatBE_lt_toNatBE_iff`).
-/

namespace TokenLedger.Bytes

/-- Reading on from `start` multiplies it by one `256` for each byte. -/
theorem foldl_toNatBE (bytes : Bytes) (start : Nat) :
    bytes.foldl (fun n byte => 256 * n + byte.toNat) start =
      start * 256 ^ bytes.length + bytes.toNatBE := by
  unfold toNatBE
  induction bytes generalizing start with
  | nil => simp
  | cons first rest ih =>
    rw [List.foldl_cons, List.foldl_cons, ih, ih (256 * 0 + _), List.length_cons]
    ring

theorem toNatBE_cons (first : UInt8) (rest : Bytes) :
    toNatBE (first :: rest) = 256 ^ rest.length * first.toNat + rest.toNatBE := by
  rw [toNatBE, List.foldl_cons, foldl_toNatBE, Nat.mul_zero, Nat.zero_add, Nat.mul_comm]

theorem toNatBE_lt (bytes : Bytes) : bytes.toNatBE < 256 ^ bytes.length := by
  induction bytes with
  | nil => decide
  | cons first rest ih =>
    rw [toNatBE_cons, List.length_cons, Nat.pow_succ']
    exact Nat.mul_add_lt_mul_of_lt_of_lt first.toNat_lt ih

/-! ## Writing and reading -/

theorem toNatBE_ofNatBE_mod (width n : Nat) : (ofNatBE width n).toNatBE = n % 256 ^ width := by
  induction width with
  | zero => simp [ofNatBE, toNatBE, Nat.mod_one]
  | succ width ih =>
    have digit : (UInt8.ofNat (n >>> (8 * width))).toNat = n / 256 ^ width % 256 := by
      rw [UInt8.toNat_ofNat', Nat.shiftRight_eq_div_pow, Nat.pow_mul]
    rw [ofNatBE, toNatBE_cons, length_ofNatBE, ih, digit, Nat.mod_pow_succ, Nat.add_comm]

theorem toNatBE_ofNatBE {width n : Nat} (small : n < 256 ^ width) :
    (ofNatBE width n).toNatBE = n := by
  rw [toNatBE_ofNatBE_mod, Nat.mod_eq_of_lt small]

theorem split?_ofNatBE (width n : Nat) (rest : Bytes) :
    split? width (ofNatBE width n ++ rest) = some (ofNatBE width n, rest) := by
  have whole := split?_append (ofNatBE width n) rest
  rwa [length_ofNatBE] at whole

/-! ## Order -/

theorem toNatBE_lt_toNatBE_iff {a b : Bytes} (lengths : a.length = b.length) :
    a.toNatBE < b.toNatBE ↔ a < b := by
  induction a generalizing b with
  | nil =>
    obtain rfl := List.length_eq_zero_iff.mp lengths.symm
    simp
  | cons first rest ih =>
    cases b with
    | nil => cases lengths
    | cons first' rest' =>
      have lengths : rest.length = rest'.length := Nat.succ.inj lengths
      have low := toNatBE_lt rest
      have low' := toNatBE_lt rest'
      rw [← lengths] at low'
      rw [List.cons_lt_cons_iff, ← ih lengths, UInt8.lt_iff_toNat_lt, ← UInt8.toNat_inj,
        toNatBE_cons, toNatBE_cons, ← lengths]
      -- what the rests spell is less than what one more in front would add
      rcases Nat.lt_trichotomy first.toNat first'.toNat with less | same | greater
      · have before := Nat.mul_add_lt_mul_of_lt_of_lt less low
        rw [Nat.mul_comm first'.toNat] at before
        omega
      · rw [same]
        omega
      · have after := Nat.mul_add_lt_mul_of_lt_of_lt greater low'
        rw [Nat.mul_comm first.toNat] at after
        omega

theorem ofNatBE_lt_ofNatBE {width n k : Nat} (less : n < k) (fits : k < 256 ^ width) :
    ofNatBE width n < ofNatBE width k := by
  rw [← toNatBE_lt_toNatBE_iff (by simp), toNatBE_ofNatBE fits,
    toNatBE_ofNatBE (Nat.lt_trans less fits)]
  exact less

theorem ofNatBE_toNatBE (bytes : Bytes) : ofNatBE bytes.length bytes.toNatBE = bytes := by
  have lengths : (ofNatBE bytes.length bytes.toNatBE).length = bytes.length := length_ofNatBE _ _
  have number : (ofNatBE bytes.length bytes.toNatBE).toNatBE = bytes.toNatBE :=
    toNatBE_ofNatBE bytes.toNatBE_lt
  -- of two that spell one number, neither comes before the other
  refine List.le_antisymm (List.not_lt.mp ?_) (List.not_lt.mp ?_)
  · rw [← toNatBE_lt_toNatBE_iff lengths.symm, number]
    exact Nat.lt_irrefl _
  · rw [← toNatBE_lt_toNatBE_iff lengths, number]
    exact Nat.lt_irrefl _

end TokenLedger.Bytes
