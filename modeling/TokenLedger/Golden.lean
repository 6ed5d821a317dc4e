import TokenLedger.Derivation
import TokenLedger.Envelope

/-!
# Golden vectors

Fixed inputs with the bytes that every implementation has to compute from them: derived account
addresses, and signed operations with their canonical bytes and signatures. Ed25519 signatures are
deterministic, so they can be compared like everything else.
-/

namespace TokenLedger.Golden

/-- An account address to derive. -/
structure AddressVector where
  name : String
  ns : Bytes
  owner : Principal
  mint : MintAddress
  expected : String

/-- An operation to encode and to sign. -/
structure OperationVector where
  name : String
  signer : Keypair
  operation : Operation
  expectedSigner : String
  expectedCanonical : String
  expectedSignature : String

def addressVectors : List AddressVector :=
  [ { name := "token namespace"
      ns := Bytes.ofText "token"
      owner := ⟨.replicate 0x01⟩
      mint := ⟨.replicate 0x02⟩
      expected := "8efd93b8af3aa9e13ed7b0fccbcce4bd024fa328173c044217a7251404f50690" },
    { name := "owner and mint swapped"
      ns := Bytes.ofText "token"
      owner := ⟨.replicate 0x02⟩
      mint := ⟨.replicate 0x01⟩
      expected := "783bbb293abdda10a1a08e5e688208df37f892e3a1f03d61378f2b1fbd33692b" },
    { name := "custom namespace"
      ns := Bytes.ofText "vault"
      owner := ⟨.replicate 0x01⟩
      mint := ⟨.replicate 0x02⟩
      expected := "a029687d2b8cf807a97191a4efad0a1b06d0157c4b7fb0cfdbf72a16e6746b41" },
    { name := "empty namespace, zero keys"
      ns := []
      owner := ⟨.replicate 0x00⟩
      mint := ⟨.replicate 0x00⟩
      expected := "4ccbf8755486a691942c0528b49e31501a2fe93c5b2c8e3615db0f7bafefcf4d" } ]

def operationVectors : List OperationVector :=
  [ { name := "initialize with 9 decimals"
      signer := ⟨.replicate 0x42⟩
      operation := .createMint ⟨.replicate 0x11⟩ 9
      expectedSigner := "2152f8d19b791d24453242e15f2eab6cb7cffa7b6a5ed30097960e069881db12"
      expectedCanonical :=
        "a300000158201111111111111111111111111111111111111111111111111111111111111111" ++
          "0709"
      expectedSignature :=
        "7526b9408438b4dd0ea061ca1940c439fb4d7e27a7c2d861521b6f911c804faf" ++
          "178e60add4edc550f30e68b110a16d340c9c5188ee8032a3cfddd519348f900c" },
    { name := "issue 1000"
      signer := ⟨.replicate 0x42⟩
      operation := .issue ⟨.replicate 0x11⟩ ⟨.replicate 0x22⟩ 1000
      expectedSigner := "2152f8d19b791d24453242e15f2eab6cb7cffa7b6a5ed30097960e069881db12"
      expectedCanonical :=
        "a400020158201111111111111111111111111111111111111111111111111111111111111111" ++
          "0258202222222222222222222222222222222222222222222222222222222222222222" ++
          "061903e8"
      expectedSignature :=
        "609cf0f93eea0370dfa44e596c02ab0cea787ba21043da5dbb769c41b7d01197" ++
          "b7dce3a3947fa5894abad1e39f2bafeb41c9e958e46f1121aabae7b94818b705" },
    { name := "transfer 300"
      signer := ⟨.replicate 0x01⟩
      operation := .transfer ⟨.replicate 0x22⟩ ⟨.replicate 0x33⟩ 300
      expectedSigner := "8a88e3dd7409f195fd52db2d3cba5d72ca6709bf1d94121bf3748801b40f6f5c"
      expectedCanonical :=
        "a400030358202222222222222222222222222222222222222222222222222222222222222222" ++
          "0458203333333333333333333333333333333333333333333333333333333333333333" ++
          "0619012c"
      expectedSignature :=
        "73e4d628b062e10f2028f7bc60a4db24ec54bb488ca4f4844c4a8ff303ccd4e4" ++
          "09f966fb67d1156f968067649938aeb17514a6d4c54d1c2ce912e5c68ac38501" } ]

/-- What was computed for one expectation. -/
structure Check where
  name : String
  computed : String
  expected : String

/-- Whether what was computed is what was expected. Where nothing is expected yet, anything is. -/
def Check.passes (check : Check) : Bool := check.expected = "" || check.computed = check.expected

def AddressVector.check (v : AddressVector) : Check where
  name := "address: " ++ v.name
  computed := (AccountAddress.derive v.ns v.owner v.mint).raw.hex
  expected := v.expected

def OperationVector.checks (v : OperationVector) : List Check :=
  [ { name := v.name ++ " signer"
      computed := v.signer.principal.raw.hex
      expected := v.expectedSigner },
    { name := v.name ++ " canonical"
      computed := Hex.encode v.operation.encode
      expected := v.expectedCanonical },
    { name := v.name ++ " signature"
      computed := (v.signer.sign v.operation.signingMessage).hex
      expected := v.expectedSignature } ]

def checks : List Check :=
  addressVectors.map (·.check) ++ operationVectors.flatMap (·.checks)

end TokenLedger.Golden
