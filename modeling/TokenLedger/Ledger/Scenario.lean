import TokenLedger.Ledger.Basic

/-!
# Ready-made ledgers

A fixture is a ledger together with the authority of its mints. A scenario goes further: one mint,
and an empty account of it for each of a number of holders, whose keys depend on nothing but that
number. Steps name holders by number, so that a list of steps is a run that can be repeated over
every store.
-/

namespace TokenLedger

open LedgerProgram

/-! ## Fixtures -/

/-- A ledger and the authority of its mints. -/
structure Fixture where
  authority : Keypair
  ledger : Ledger := {}

namespace Fixture

/-- Creates a mint at the first free one of some addresses. -/
def createMint (fixture : Fixture) (decimals : UInt8) (candidate : MintAddress)
    (others : List MintAddress) : LedgerProgram MintAddress := do
  return (← Ledger.createMintAnywhere decimals fixture.authority.principal candidate others).address

/-- Creates an owner's account, at the owner's expense. -/
def createAccount (fixture : Fixture) (mint : MintAddress) (owner : Keypair) :
    LedgerProgram AccountAddress := do
  return (← fixture.ledger.createAccount mint owner.principal owner.principal).address

/-- Creates an owner's account and issues an amount into it. The account stays if that fails. -/
def createFundedAccount (fixture : Fixture) (mint : MintAddress) (owner : Keypair)
    (amount : UInt64) : LedgerProgram AccountAddress := do
  let account ← fixture.createAccount mint owner
  let _ ← fixture.ledger.issue mint account fixture.authority.principal amount
  return account

end Fixture

/-! ## Scenarios -/

/-- The keypair of a holder: its seed is the holder's number in one byte, and then zeros. -/
def Keypair.ofNumber (n : Nat) : Keypair := ⟨.ofNatLE (n % 256)⟩

/-- A ledger with one mint and an account for each holder, in order. -/
structure Scenario where
  fixture : Fixture
  mint : MintAddress
  holders : List Keypair
  accounts : List AccountAddress

/-- A step of a scenario. Holders go by their number; as a signer, a number that no holder has
    stands for the authority. -/
inductive ScenarioStep where
  | issue (recipient signer : Nat) (amount : UInt64)
  | transfer (sender recipient signer : Nat) (amount : UInt64)
  | burn (sender signer : Nat) (amount : UInt64)
deriving DecidableEq

namespace Scenario

def authority : Keypair := ⟨.replicate 0xa0⟩

/-- Sets up a scenario for a number of holders, the mint being at the first free one of some
    addresses. -/
def create (holderCount : Nat) (candidate : MintAddress) (others : List MintAddress) :
    LedgerProgram Scenario := do
  let fixture : Fixture := { authority }
  let mint ← fixture.createMint 0 candidate others
  let holders := (List.range holderCount).map Keypair.ofNumber
  let accounts ← holders.mapM (fixture.createAccount mint)
  return { fixture, mint, holders, accounts }

/-- Who a number stands for as a signer. -/
def signer (scenario : Scenario) (n : Nat) : Principal :=
  (scenario.holders[n]?.getD scenario.fixture.authority).principal

/-- What a step does, if every account that it names is there. -/
def stepProgram? (scenario : Scenario) : ScenarioStep → Option (LedgerProgram Unit)
  | .issue recipient signer amount => do
    let account ← scenario.accounts[recipient]?
    return discard <|
      scenario.fixture.ledger.issue scenario.mint account (scenario.signer signer) amount
  | .transfer sender recipient signer amount => do
    let sender ← scenario.accounts[sender]?
    let recipient ← scenario.accounts[recipient]?
    return discard <|
      scenario.fixture.ledger.transfer sender recipient (scenario.signer signer) amount
  | .burn sender signer amount => do
    let account ← scenario.accounts[sender]?
    return discard <|
      scenario.fixture.ledger.burn scenario.mint account (scenario.signer signer) amount

def balances (scenario : Scenario) : LedgerProgram (List UInt64) :=
  scenario.accounts.mapM fun account => return (← loadAccount account).amount

/-- The canonical bytes of all records: the mint's, and then the accounts'. -/
def snapshot (scenario : Scenario) : LedgerProgram (List Bytes) := do
  let mint ← loadMint scenario.mint
  let accounts ← scenario.accounts.mapM loadAccount
  return mint.encode :: accounts.map (·.encode)

end Scenario

end TokenLedger
