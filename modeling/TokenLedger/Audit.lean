import TokenLedger.Record

/-!
# Auditing a supply

The supply that a mint records should be what its accounts hold together. The sum is kept in 128
bits, where the balances of fewer than `2^64` accounts always have room, so that the report is right
even for a store whose balances no rule has bounded.
-/

namespace TokenLedger

/-- How a mint's supply compares with the balances of its accounts. -/
structure SupplyReport where
  mint : MintAddress
  supply : UInt64
  accountSum : BitVec 128
  accounts : UInt64
  consistent : Bool
deriving DecidableEq

/-- The sum and the number of the accounts of a mint, all others left out. -/
def SupplyReport.tally (mint : MintAddress) (accounts : List AccountRecord) : BitVec 128 × UInt64 :=
  (accounts.filter (·.mint = mint)).foldl
    (fun (sum, count) account => (sum + BitVec.ofNat 128 account.amount.toNat, count + 1)) (0, 0)

/-- Compares a mint's supply with the balances of its accounts among those given. -/
def MintRecord.checkSupply (mint : MintRecord) (accounts : List AccountRecord) : SupplyReport :=
  let (sum, count) := SupplyReport.tally mint.address accounts
  { mint := mint.address
    supply := mint.supply
    accountSum := sum
    accounts := count
    consistent := sum = BitVec.ofNat 128 mint.supply.toNat }

end TokenLedger
