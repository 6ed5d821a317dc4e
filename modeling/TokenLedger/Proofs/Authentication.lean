import TokenLedger.Envelope
import TokenLedger.Proofs.Ed25519.Verification

/-!
# What an authentic envelope authorizes

The authenticator that checks signatures accepts what a keypair signs, and refuses it with another
operation in it. Not so for the keys of small order, which belong to nobody: whoever claims to be
one of them has signatures that are good for many operations, the neutral point's for all of them.
-/

namespace TokenLedger.Authenticator

open Ed25519 (KilledBy challenge)

theorem authenticate_eq_ok_iff (envelope : SignedOperation) :
    ed25519.authenticate envelope = .ok envelope.signer ↔
      Ed25519.verify envelope.signer.raw envelope.operation.signingMessage envelope.signature =
        .ok () := by
  unfold ed25519 Principal.verify
  dsimp only
  generalize Ed25519.verify _ _ _ = result
  cases result with
  | ok value => simp
  | error e => cases e <;> simp

theorem authenticate_eq_invalidSignature {envelope : SignedOperation}
    (refused : Ed25519.verify envelope.signer.raw envelope.operation.signingMessage
      envelope.signature = .error .badSignature) :
    ed25519.authenticate envelope = .error .invalidSignature := by
  unfold ed25519 Principal.verify
  dsimp only
  rw [refused]

/-! ## Keypairs -/

theorem authenticate_sign (keypair : Keypair) (operation : Operation) :
    ed25519.authenticate (.sign keypair operation) = .ok keypair.principal :=
  (authenticate_eq_ok_iff (.sign keypair operation)).mpr
    (Ed25519.verify_sign keypair.seed operation.signingMessage)

/-- What a keypair has signed is refused with another operation in it. -/
theorem authenticate_tampered {keypair : Keypair} {signature : Signature}
    {first second : Operation}
    (distinct : challenge signature.pointHalf keypair.principal.raw first.signingMessage ≠
      challenge signature.pointHalf keypair.principal.raw second.signingMessage)
    (authentic : ed25519.authenticate ⟨keypair.principal, first, signature⟩ =
      .ok keypair.principal) :
    ed25519.authenticate ⟨keypair.principal, second, signature⟩ = .error .invalidSignature := by
  have verified := (authenticate_eq_ok_iff ⟨keypair.principal, first, signature⟩).mp authentic
  rcases Ed25519.verify_publicKey keypair.seed second.signingMessage signature with
    accepted | refused
  · obtain ⟨-, n, divides, killed, -⟩ := (Ed25519.verify_both_iff distinct).mp ⟨verified, accepted⟩
    exact absurd killed (Ed25519.not_killedBy_publicKey keypair.seed divides)
  · exact authenticate_eq_invalidSignature refused

/-! ## Keys of small order -/

/-- One signature is good for two operations with different challenges exactly if the key of the
    signer is a point of small order and the challenges agree modulo that order. -/
theorem authorizes_both_iff (signer : Principal) (signature : Signature)
    (first second : Operation)
    (distinct : challenge signature.pointHalf signer.raw first.signingMessage ≠
      challenge signature.pointHalf signer.raw second.signingMessage) :
    (ed25519.authenticate ⟨signer, first, signature⟩ = .ok signer ∧
        ed25519.authenticate ⟨signer, second, signature⟩ = .ok signer) ↔
      ed25519.authenticate ⟨signer, first, signature⟩ = .ok signer ∧
        ∃ n, n ∣ 8 ∧ KilledBy n signer.raw ∧
          challenge signature.pointHalf signer.raw first.signingMessage ≡
            challenge signature.pointHalf signer.raw second.signingMessage [MOD n] := by
  have verified := authenticate_eq_ok_iff ⟨signer, first, signature⟩
  have verified' := authenticate_eq_ok_iff ⟨signer, second, signature⟩
  rw [verified, verified']
  exact Ed25519.verify_both_iff distinct

/-- Burns some tokens of one account. -/
def burnOf (amount : UInt64) : Operation := .burn ⟨.replicate 1⟩ ⟨.replicate 2⟩ amount

/-- The neutral point and the number zero. -/
def neutralSignature : Signature := .ofHalves Ed25519.Point.zero.encode (.ofNatLE 0)

/-- The key made of zeros is a point of order four, and the challenges of these two burns are
    multiples of four. -/
theorem authorizes_both_iff_zeros :
    ed25519.authenticate ⟨⟨.replicate 0⟩, burnOf 5, neutralSignature⟩ = .ok ⟨.replicate 0⟩ ∧
      ed25519.authenticate ⟨⟨.replicate 0⟩, burnOf 11, neutralSignature⟩ = .ok ⟨.replicate 0⟩ :=
  (authorizes_both_iff ⟨.replicate 0⟩ neutralSignature (burnOf 5) (burnOf 11)
    (by decide +kernel)).mpr
      ⟨by decide +kernel, 4, by decide,
        ⟨.affine Ed25519.Field.rootOfMinusOne 0, by decide +kernel, by decide +kernel⟩,
        by decide +kernel⟩

/-- The principal whose key is the neutral point. -/
def neutral : Principal := ⟨Ed25519.Point.zero.encode⟩

theorem authenticate_neutral (operation : Operation) :
    ed25519.authenticate ⟨neutral, operation, neutralSignature⟩ = .ok neutral :=
  (authenticate_eq_ok_iff ⟨neutral, operation, neutralSignature⟩).mpr
    (Ed25519.verify_neutral operation.signingMessage)

/-- It is not so that no signature is good for two operations with different challenges. -/
theorem not_always_one_operation :
    ¬ ∀ (signer : Principal) (signature : Signature) (first second : Operation),
      first ≠ second →
        challenge signature.pointHalf signer.raw first.signingMessage ≠
          challenge signature.pointHalf signer.raw second.signingMessage →
            ¬ (ed25519.authenticate ⟨signer, first, signature⟩ = .ok signer ∧
              ed25519.authenticate ⟨signer, second, signature⟩ = .ok signer) := fun always =>
  always neutral neutralSignature (burnOf 5) (burnOf 500) (by decide) (by decide +kernel)
    ⟨authenticate_neutral (burnOf 5), authenticate_neutral (burnOf 500)⟩

end TokenLedger.Authenticator
