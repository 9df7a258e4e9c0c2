import BlockHooks.Action
import BlockHooks.Address
import BlockHooks.Admission.Error
import BlockHooks.Admission.Handler
import BlockHooks.Admission.Stage
import BlockHooks.Amount
import BlockHooks.Bank
import BlockHooks.Binary64
import BlockHooks.Chain.Basic
import BlockHooks.Codec
import BlockHooks.Context
import BlockHooks.Decimal.Basic
import BlockHooks.Decimal.Rounding
import BlockHooks.Decimal.Text
import BlockHooks.Deposit.Error
import BlockHooks.Deposit.Genesis
import BlockHooks.Deposit.Json
import BlockHooks.Deposit.Messages
import BlockHooks.Deposit.Params
import BlockHooks.Deposit.Settlement
import BlockHooks.Deposit.State
import BlockHooks.Event
import BlockHooks.Group.Keeper
import BlockHooks.Group.Page
import BlockHooks.Group.Proposal
import BlockHooks.Hash.Sha256
import BlockHooks.Hooks.Basic
import BlockHooks.Hooks.Config
import BlockHooks.Hooks.Genesis
import BlockHooks.Json.Basic
import BlockHooks.Json.Lexeme
import BlockHooks.Json.Reader
import BlockHooks.Json.Skipping
import BlockHooks.Json.Writer
import BlockHooks.Ledger
import BlockHooks.Log
import BlockHooks.Metrics.Basic
import BlockHooks.Metrics.Exposition
import BlockHooks.Registry.Basic
import BlockHooks.Registry.Genesis
import BlockHooks.Registry.Json
import BlockHooks.Registry.Validator
import BlockHooks.Sandbox.Basic
import BlockHooks.Sandbox.Stage
import BlockHooks.Scan.Config
import BlockHooks.Scan.Json
import BlockHooks.Scan.Report
import BlockHooks.Scan.Run
import BlockHooks.Store.Basic
import BlockHooks.Store.Encoding
import BlockHooks.Store.Typed
import BlockHooks.Table
import BlockHooks.Text.Hex
import BlockHooks.Text.Instant
import BlockHooks.Text.Quoted
import BlockHooks.Text.Utf8
import BlockHooks.Tx
import BlockHooks.Proofs.Codec
import BlockHooks.Proofs.Commuting
import BlockHooks.Proofs.Frame
import BlockHooks.Proofs.Store
import BlockHooks.Proofs.Bank
import BlockHooks.Proofs.Settlement
import BlockHooks.Proofs.Conservation
import BlockHooks.Proofs.Deferral
import BlockHooks.Proofs.Book
import BlockHooks.Proofs.Paging
import BlockHooks.Proofs.Listing
import BlockHooks.Proofs.Execution
import BlockHooks.Proofs.Scan
import BlockHooks.Proofs.AtMostOnce
import BlockHooks.Proofs.Violation
import BlockHooks.Proofs.Admission
import BlockHooks.Proofs.Confinement
import BlockHooks.Proofs.Atomicity
import BlockHooks.Proofs.Abort
import BlockHooks.Proofs.DecimalText
import BlockHooks.Proofs.Records
import BlockHooks.Proofs.UniqueForms
import BlockHooks.Proofs.JsonText
import BlockHooks.Proofs.JsonForms
import BlockHooks.Proofs.PrefixScan
import BlockHooks.Proofs.Collections
import BlockHooks.Proofs.Bindings
import BlockHooks.Proofs.Genesis
import BlockHooks.Proofs.Initialised
import BlockHooks.Proofs.Restart
import BlockHooks.Proofs.Transfers
import BlockHooks.Proofs.TransferLog
import BlockHooks.Proofs.Halting
import BlockHooks.Proofs.Principal
import BlockHooks.Proofs.Rounds
import BlockHooks.Proofs.Whitelist
import BlockHooks.Proofs.RecordMap
import BlockHooks.Proofs.FailClosed
import BlockHooks.Proofs.FirstDue
import BlockHooks.Proofs.ValidParams
import BlockHooks.Proofs.Isolation
import BlockHooks.Proofs.PageSize
import BlockHooks.Proofs.Agreement
import BlockHooks.Proofs.Instalments
import BlockHooks.Proofs.Independence
import BlockHooks.Proofs.ValueFlow
import BlockHooks.Proofs.Replay
import BlockHooks.Proofs.Tally
import BlockHooks.Proofs.Reconciliation
import BlockHooks.Proofs.NearestEven
import BlockHooks.Proofs.BlockYield
import BlockHooks.Proofs.DecimalSpelling
import BlockHooks.Proofs.Accrual
import BlockHooks.Proofs.GenesisImport
import BlockHooks.Proofs.GateOrder
import BlockHooks.Proofs.Draining
import BlockHooks.Proofs.AddressForm
