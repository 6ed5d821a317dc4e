import TokenLedger.Proofs.Ed25519.Order

/-!
# One signature and two messages

A signature is accepted for a message if one equation between points holds, which the message
enters through the challenge alone. Two messages with different challenges can therefore share a
signature only under a key of small order, and no key that is made from a seed is one.
-/

namespace TokenLedger.Ed25519

/-- `n` copies of the point that a key stands for sum up to the neutral point. -/
def KilledBy (n : Nat) (key : Bytes32) : Prop :=
  ∃ point, Point.decode? key = some point ∧
    (Point.multiple n point).encode = Point.zero.encode

theorem challenge_lt (r key : Bytes32) (message : Bytes) : challenge r key message < groupOrder :=
  Nat.mod_lt _ prime_groupOrder.pos

theorem groupOrder_lt : groupOrder < 2 ^ 256 := by decide

/-! ## The equation -/

/-- `S B - k A`, the point whose encoding the first half of a signature has to be. -/
def expected (s k : Nat) (key : Point) : Point :=
  (Point.multiple s Point.base).add (Point.multiple k key.neg)

theorem verify_eq_ok_iff {key : Bytes32} {message : Bytes} {signature : Signature} :
    verify key message signature = .ok () ↔
      ∃ point, Point.decode? key = some point ∧ signature.numberHalf.toNatLE < groupOrder ∧
        (expected signature.numberHalf.toNatLE (challenge signature.pointHalf key message)
          point).encode = signature.pointHalf := by
  unfold verify expected
  cases Point.decode? key with
  | none => simp
  | some point =>
    simp only [Option.some.injEq, exists_eq_left']
    rw [← not_le]
    split
    case isTrue large => simp [large]
    case isFalse small => simp [small]

variable {key : Bytes32} {point : Point} {A B : edwards25519.Point} {s k l : Nat}

theorem represents_expected (base : Point.base.Represents B) (represents : point.Represents A)
    (small : s < groupOrder) (small' : k < groupOrder) :
    (expected s k point).Represents (s • B - k • A) := by
  rw [sub_eq_add_neg, ← neg_nsmul]
  exact (base.multiple (small.trans groupOrder_lt)).add
    (represents.neg.multiple (small'.trans groupOrder_lt))

theorem killedBy_iff (read : Point.decode? key = some point) (represents : point.Represents A)
    {n : Nat} (small : n < 2 ^ 256) : KilledBy n key ↔ n • A = 0 := by
  rw [nsmul_eq_zero_iff represents small]
  constructor
  · rintro ⟨q, read', zero⟩
    rw [read] at read'
    cases read'
    exact zero
  · exact fun zero => ⟨point, read, zero⟩

/-- With the number of a signature fixed, two challenges give the same point only if the key is of
    small order. -/
theorem encode_expected_eq_iff (represents : point.Represents A) (small : s < groupOrder)
    (first : k < groupOrder) (second : l < groupOrder) (distinct : k ≠ l) :
    (expected s k point).encode = (expected s l point).encode ↔
      ∃ n, n ∣ 8 ∧ n • A = 0 ∧ k ≡ l [MOD n] := by
  obtain ⟨B, base, -⟩ := exists_represents_base
  rw [(represents_expected base represents small first).encode_eq_iff
      (represents_expected base represents small second),
    sub_right_inj, nsmul_eq_nsmul_iff first second distinct]

theorem verify_both_iff {signature : Signature} {first second : Bytes}
    (distinct :
      challenge signature.pointHalf key first ≠ challenge signature.pointHalf key second) :
    verify key first signature = .ok () ∧ verify key second signature = .ok () ↔
      verify key first signature = .ok () ∧ ∃ n, n ∣ 8 ∧ KilledBy n key ∧
        challenge signature.pointHalf key first ≡ challenge signature.pointHalf key second
          [MOD n] := by
  have bound := challenge_lt signature.pointHalf key first
  have bound' := challenge_lt signature.pointHalf key second
  have small {n : Nat} (divides : n ∣ 8) : n < 2 ^ 256 :=
    (Nat.le_of_dvd (by decide) divides).trans_lt (by decide)
  refine and_congr_right fun verified => ?_
  obtain ⟨point, read, number, equation⟩ := verify_eq_ok_iff.mp verified
  obtain ⟨A, represents⟩ := Point.exists_represents_of_decode? read
  have agree := encode_expected_eq_iff represents number bound bound' distinct
  constructor
  · intro verified'
    obtain ⟨q, read', -, equation'⟩ := verify_eq_ok_iff.mp verified'
    rw [read] at read'
    cases read'
    obtain ⟨n, divides, zero, congruent⟩ := agree.mp (equation.trans equation'.symm)
    exact ⟨n, divides, (killedBy_iff read represents (small divides)).mpr zero, congruent⟩
  · rintro ⟨n, divides, killed, congruent⟩
    have zero := (killedBy_iff read represents (small divides)).mp killed
    have same := agree.mpr ⟨n, divides, zero, congruent⟩
    exact verify_eq_ok_iff.mpr ⟨point, read, number, same.symm.trans equation⟩

theorem pointHalf_ofHalves (r s : Bytes32) : (Signature.ofHalves r s).pointHalf = r := by
  simp [Signature.pointHalf, Signature.ofHalves, r.length_toBytes]

theorem numberHalf_ofHalves (r s : Bytes32) : (Signature.ofHalves r s).numberHalf = s := by
  simp [Signature.numberHalf, Signature.ofHalves, r.length_toBytes]

/-- Under the neutral point as a key, one signature is good for every message. -/
theorem verify_neutral (message : Bytes) :
    verify Point.zero.encode message (.ofHalves Point.zero.encode (.ofNatLE 0)) = .ok () := by
  obtain ⟨B, base, -⟩ := exists_represents_base
  obtain ⟨point, read, represents⟩ := Point.represents_zero.decode?_encode
  have bound := challenge_lt Point.zero.encode Point.zero.encode message
  have positive := prime_groupOrder.pos
  rw [verify_eq_ok_iff]
  refine ⟨point, read, ?_⟩
  rw [numberHalf_ofHalves, pointHalf_ofHalves, Bytes32.toNatLE_ofNatLE (by decide)]
  refine ⟨positive, ?_⟩
  rw [(represents_expected base represents positive bound).encode_eq_iff Point.represents_zero,
    zero_nsmul, nsmul_zero, sub_zero]

/-! ## Keys made from seeds -/

theorem exists_scalar_eq (seed : Bytes32) :
    ∃ m, 0 < m ∧ m < 2 ^ 252 ∧ (expand seed).scalar = 8 * m := by
  unfold expand
  dsimp only
  generalize Bytes.toNatLE _ = n
  rw [Nat.one_shiftLeft]
  exact ⟨2 ^ 251 + n % 2 ^ 254 / 8, by omega, by omega, by omega⟩

/-- A secret number is eight times a number that is smaller than the order of the base point. -/
theorem not_groupOrder_dvd_scalar (seed : Bytes32) : ¬ groupOrder ∣ (expand seed).scalar := by
  obtain ⟨m, positive, small, scalar⟩ := exists_scalar_eq seed
  have coprime : Nat.Coprime groupOrder 8 := by decide +kernel
  have size : 2 ^ 252 ≤ groupOrder := by decide
  intro divides
  rw [scalar] at divides
  have atMost := Nat.le_of_dvd positive (coprime.dvd_of_dvd_mul_left divides)
  omega

/-- The key of a seed is read back as the secret multiple of the base point. -/
theorem exists_decode?_publicKey (seed : Bytes32) (base : Point.base.Represents B) :
    ∃ point, Point.decode? (publicKey seed) = some point ∧
      point.Represents ((expand seed).scalar • B) := by
  obtain ⟨m, -, small, scalar⟩ := exists_scalar_eq seed
  exact (base.multiple (n := (expand seed).scalar) (by omega)).decode?_encode

/-- The equation of a signature, as it was made: `(r + k a) B - k (a B) = r B`. -/
theorem encode_expected_signed (base : Point.base.Represents B) (order : addOrderOf B = groupOrder)
    {a nonce : Nat} (represents : point.Represents (a • B)) (small : nonce < groupOrder)
    (bound : k < groupOrder) :
    (expected ((nonce + k * a) % groupOrder) k point).encode =
      (Point.multiple nonce Point.base).encode := by
  have number := Nat.mod_lt (nonce + k * a) prime_groupOrder.pos
  rw [(represents_expected base represents number bound).encode_eq_iff
    (base.multiple (small.trans groupOrder_lt))]
  rw [← order, mod_addOrderOf_nsmul, add_nsmul, mul_comm k a, mul_nsmul, add_sub_cancel_right]

theorem verify_sign (seed : Bytes32) (message : Bytes) :
    verify (publicKey seed) message (sign seed message) = .ok () := by
  obtain ⟨B, base, order⟩ := exists_represents_base
  obtain ⟨point, read, represents⟩ := exists_decode?_publicKey seed base
  have reduced (n : Nat) : n % groupOrder < groupOrder := Nat.mod_lt n prime_groupOrder.pos
  rw [verify_eq_ok_iff]
  refine ⟨point, read, ?_⟩
  unfold sign
  dsimp only
  rw [numberHalf_ofHalves, pointHalf_ofHalves,
    Bytes32.toNatLE_ofNatLE ((reduced _).trans groupOrder_lt)]
  exact ⟨reduced _, encode_expected_signed base order represents (reduced _) (challenge_lt _ _ _)⟩

theorem not_killedBy_publicKey (seed : Bytes32) {n : Nat} (divides : n ∣ 8) :
    ¬ KilledBy n (publicKey seed) := by
  obtain ⟨B, base, order⟩ := exists_represents_base
  obtain ⟨point, read, represents⟩ := exists_decode?_publicKey seed base
  have atMost : n ≤ 8 := Nat.le_of_dvd (by decide) divides
  have positive : 0 < n := Nat.pos_of_dvd_of_pos divides (by decide)
  rw [killedBy_iff read represents (by omega), ← mul_nsmul,
    ← addOrderOf_dvd_iff_nsmul_eq_zero, order, prime_groupOrder.dvd_mul]
  rintro (scalar | factor)
  · exact not_groupOrder_dvd_scalar seed scalar
  · have size : 8 < groupOrder := by decide
    have small := Nat.le_of_dvd positive factor
    omega

/-- The key of a seed is a point, so that all that can be wrong is the signature. -/
theorem verify_publicKey (seed : Bytes32) (message : Bytes) (signature : Signature) :
    verify (publicKey seed) message signature = .ok () ∨
      verify (publicKey seed) message signature = .error .badSignature := by
  obtain ⟨B, base, -⟩ := exists_represents_base
  obtain ⟨point, read, -⟩ := exists_decode?_publicKey seed base
  unfold verify
  rw [read]
  dsimp only
  split
  · exact .inr rfl
  · split
    · exact .inl rfl
    · exact .inr rfl

end TokenLedger.Ed25519
