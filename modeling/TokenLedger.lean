import TokenLedger.Golden
import TokenLedger.Ledger.LockUsers
import TokenLedger.Ledger.Scenario
import TokenLedger.Main
import TokenLedger.Store.AnyStore
import TokenLedger.Store.FaultyStore
import TokenLedger.Proofs.BigEndian
import TokenLedger.Proofs.Cbor.Heads
import TokenLedger.Proofs.Cbor.Items
import TokenLedger.Proofs.Cbor.Reading
import TokenLedger.Proofs.Cbor.Spelling
import TokenLedger.Proofs.Cbor.KeyOrder
import TokenLedger.Proofs.Cbor.Deterministic
import TokenLedger.Proofs.Codec.Maps
import TokenLedger.Proofs.Codec.Records
import TokenLedger.Proofs.Codec.Acceptance
import TokenLedger.Proofs.Store.Index
import TokenLedger.Proofs.Store.Records
import TokenLedger.Proofs.Store.Tables
import TokenLedger.Proofs.Store.Replies
import TokenLedger.Proofs.Store.Permanence
import TokenLedger.Proofs.Store.Rows
import TokenLedger.Proofs.Ledger.Steps
import TokenLedger.Proofs.Transition
import TokenLedger.Proofs.Ledger.Judgement
import TokenLedger.Proofs.Ledger.Movement
import TokenLedger.Proofs.Ledger.Posting
import TokenLedger.Proofs.Ledger.Request
import TokenLedger.Proofs.Ledger.Conservation
import TokenLedger.Proofs.Ledger.Authorization
import TokenLedger.Proofs.Ledger.Moments
import TokenLedger.Proofs.SharedStore.Basic
import TokenLedger.Proofs.SharedStore.Updates
import TokenLedger.Proofs.SharedStore.Pairs
import TokenLedger.Proofs.Ledger.Settlement
import TokenLedger.Proofs.SharedStore.Answers
import TokenLedger.Proofs.SharedStore.Atomicity
import TokenLedger.Proofs.Program.Agreement
import TokenLedger.Proofs.Ledger.Backends
import TokenLedger.Proofs.Program.Orderly
import TokenLedger.Proofs.Ledger.Orderly
import TokenLedger.Proofs.Ledger.Serializability
import TokenLedger.Proofs.Locks.Slots
import TokenLedger.Proofs.Locks.Exclusion
import TokenLedger.Proofs.Locks.Progress
import TokenLedger.Proofs.Ed25519.Edwards
import TokenLedger.Proofs.Ed25519.Field
import TokenLedger.Proofs.Ed25519.Points
import TokenLedger.Proofs.Ed25519.Order
import TokenLedger.Proofs.Ed25519.Verification
import TokenLedger.Proofs.Authentication
import TokenLedger.Proofs.Hex
import TokenLedger.Proofs.Json.Grammar
import TokenLedger.Proofs.Json.Scanning
import TokenLedger.Proofs.Json.Acceptance
import TokenLedger.Proofs.Json.Reading
import TokenLedger.Proofs.Json.Forms
import TokenLedger.Proofs.Store.Commits
import TokenLedger.Proofs.Ledger.Failures
import TokenLedger.Proofs.Store.Migration
import TokenLedger.Proofs.CommandLine.Files
import TokenLedger.Proofs.CommandLine.Opening
import TokenLedger.Proofs.CommandLine.Reopening
import TokenLedger.Proofs.Store.AllOrNothing
import TokenLedger.Proofs.Ledger.Overflow
import TokenLedger.Proofs.Program.Amid
import TokenLedger.Proofs.Store.Overtaken
import TokenLedger.Proofs.Ledger.Amid
import TokenLedger.Proofs.Ledger.Retries
import TokenLedger.Proofs.Cbor.Identity
import TokenLedger.Proofs.Derivation
import TokenLedger.Proofs.Rules
import TokenLedger.Proofs.Store.Scans
import TokenLedger.Proofs.Program.Footprint
import TokenLedger.Proofs.Ledger.Commutation
import TokenLedger.Proofs.Audit
import TokenLedger.Proofs.Ledger.Scenario
import TokenLedger.Proofs.CommandLine.Keyfiles
import TokenLedger.Proofs.CommandLine.MintCreation
